import RouteEngine.Library.Comparison

set_option autoImplicit false

/-! # Priority queues with lazy deletion

Every element stands for a name. A *frontier* holds at most one element of each name, and a better
one takes its place (`update`). A queue with lazy deletion only ever pushes: it keeps superseded
elements and those of names that are no longer wanted (`Refines`). As long as every push improves
on the element of its name, both serve the same elements in the same order. -/

namespace LazyQueue

variable {α ν : Type}

/-- The element takes the place of the one with its name, or enters the frontier. -/
def update [DecidableEq ν] (name : α → ν) (frontier : List α) (a : α) : List α :=
  if name a ∈ frontier.map name then
    frontier.map (fun b => if name b = name a then a else b)
  else a :: frontier

variable {name : α → ν} {frontier queue : List α} {a : α}

theorem mem_update [DecidableEq ν] {b : α} :
    b ∈ update name frontier a ↔ b = a ∨ b ∈ frontier ∧ name b ≠ name a := by
  unfold update
  split_ifs with hin
  · rw [List.mem_map]
    constructor
    · rintro ⟨c, hc, rfl⟩
      split_ifs with hname
      · exact Or.inl rfl
      · exact Or.inr ⟨hc, hname⟩
    · rintro (rfl | ⟨hb, hname⟩)
      · rcases List.mem_map.mp hin with ⟨c, hc, hname⟩
        exact ⟨c, hc, if_pos hname⟩
      · exact ⟨b, hb, if_neg hname⟩
  · rw [List.mem_cons]
    constructor
    · rintro (rfl | hb)
      · exact Or.inl rfl
      · refine Or.inr ⟨hb, fun hname => hin ?_⟩
        rw [← hname]
        exact List.mem_map_of_mem hb
    · rintro (rfl | ⟨hb, -⟩)
      · exact Or.inl rfl
      · exact Or.inr hb

/-- A frontier keeps one element of each name. -/
theorem nodup_update [DecidableEq ν] (h : (frontier.map name).Nodup) :
    ((update name frontier a).map name).Nodup := by
  unfold update
  split_ifs with hin
  · have hmap : (frontier.map fun b => if name b = name a then a else b).map name
        = frontier.map name := by
      rw [List.map_map]
      apply List.map_congr_left
      intro b _
      show name (if name b = name a then a else b) = name b
      split_ifs with hname
      · exact hname.symm
      · rfl
    rwa [hmap]
  · exact List.nodup_cons.mpr ⟨hin, h⟩

/-- The queue holds the elements of the frontier, and beside them only elements of dead names
and elements that are not served before the one of their name in the frontier. -/
structure Refines (lower : α → α → Bool) (name : α → ν) (dead : ν → Prop)
    (queue frontier : List α) : Prop where
  nodup : queue.Nodup
  names : (frontier.map name).Nodup
  mem : ∀ a ∈ frontier, a ∈ queue
  alive : ∀ a ∈ frontier, ¬ dead (name a)
  superseded : ∀ b ∈ queue, dead (name b) ∨ ∃ a ∈ frontier, name a = name b ∧ lower a b = false

namespace Refines

variable {lower : α → α → Bool} {dead dead' : ν → Prop} {rest : List α} {top : α}

theorem singleton (hirrefl : lower a a = false) (halive : ¬ dead (name a)) :
    Refines lower name dead [a] [a] where
  nodup := by simp
  names := by simp
  mem _ := id
  alive := by simpa using halive
  superseded := by simpa using Or.inr hirrefl

/-- An empty queue leaves nothing in the frontier. -/
theorem frontier_eq_nil (h : Refines lower name dead [] frontier) : frontier = [] :=
  List.eq_nil_iff_forall_not_mem.mpr fun a ha => List.not_mem_nil (h.mem a ha)

/-- **A better element enters both.** -/
theorem push [DecidableEq ν] (hweak : Comparison.StrictWeakOn lower (fun _ => True))
    (h : Refines lower name dead queue frontier) (halive : ¬ dead (name a))
    (hbetter : ∀ b ∈ frontier, name b = name a → lower b a = true) :
    Refines lower name dead (a :: queue) (update name frontier a) where
  nodup := by
    -- an element that is there already would be no better than itself
    refine List.nodup_cons.mpr ⟨fun ha => ?_, h.nodup⟩
    rcases h.superseded a ha with hdead | ⟨b, hb, hname, hle⟩
    · exact halive hdead
    · rw [hbetter b hb hname] at hle
      cases hle
  names := nodup_update h.names
  mem b hb := by
    rcases mem_update.mp hb with rfl | ⟨hb, -⟩
    · exact List.mem_cons_self
    · exact List.mem_cons_of_mem a (h.mem b hb)
  alive b hb := by
    rcases mem_update.mp hb with rfl | ⟨hb, -⟩
    · exact halive
    · exact h.alive b hb
  superseded b hb := by
    by_cases hname : name b = name a
    · right
      refine ⟨a, mem_update.mpr (Or.inl rfl), hname.symm, ?_⟩
      rcases List.mem_cons.mp hb with rfl | hb
      · exact hweak.irrefl trivial
      · rcases h.superseded b hb with hdead | ⟨c, hc, hcb, hle⟩
        · exact absurd (hname ▸ hdead) halive
        · -- the element replaced is served before `b`, and the new one before that
          have hac := hweak.asymm c a trivial trivial (hbetter c hc (hcb.trans hname))
          exact hweak.negTrans a c b trivial trivial trivial hac hle
    · rcases List.mem_cons.mp hb with rfl | hb
      · exact absurd rfl hname
      · rcases h.superseded b hb with hdead | ⟨c, hc, hcb, hle⟩
        · exact Or.inl hdead
        · have hca : name c ≠ name a := fun heq => hname (hcb.symm.trans heq)
          exact Or.inr ⟨c, mem_update.mpr (Or.inr ⟨hc, hca⟩), hcb, hle⟩

/-- **A dead element is dropped** and the frontier stays. -/
theorem drop (h : Refines lower name dead queue frontier)
    (hpop : Comparison.popTop lower queue = some (top, rest)) (hdead : dead (name top)) :
    Refines lower name dead rest frontier := by
  have hperm := Comparison.popTop_perm hpop
  refine ⟨(List.nodup_cons.mp (hperm.nodup_iff.mp h.nodup)).2, h.names, fun a ha => ?_, h.alive,
    fun b hb => ?_⟩
  · rcases (Comparison.mem_iff_of_popTop hpop a).mp (h.mem a ha) with rfl | hmem
    · exact absurd hdead (h.alive _ ha)
    · exact hmem
  · exact h.superseded b ((Comparison.mem_iff_of_popTop hpop b).mpr (Or.inr hb))

/-- **A live element is served by both**, and its name is dead from then on. -/
theorem pop (hweak : Comparison.StrictWeakOn lower (fun _ => True))
    (hsep : ∀ a b, lower a b = false → lower b a = false → a = b)
    (h : Refines lower name dead queue frontier)
    (hpop : Comparison.popTop lower queue = some (top, rest)) (halive : ¬ dead (name top))
    (hdead : ∀ v, dead' v ↔ dead v ∨ v = name top) :
    ∃ rest', Comparison.popTop lower frontier = some (top, rest') ∧
      Refines lower name dead' rest rest' := by
  have hweak' : ∀ l : List α, Comparison.StrictWeakOn lower (· ∈ l) :=
    fun l => hweak.mono (fun _ _ => trivial)
  have hfirst := Comparison.popTop_first (hweak' queue) hpop
  have htop : top ∈ queue := (Comparison.mem_iff_of_popTop hpop top).mpr (Or.inl rfl)
  -- the element of this name in the frontier is served no later, so it is the same
  have hmem : top ∈ frontier := by
    rcases h.superseded top htop with hdead | ⟨a, ha, -, hle⟩
    · exact absurd hdead halive
    · rwa [hsep top a (hfirst a (h.mem a ha)) hle]
  cases hpop' : Comparison.popTop lower frontier with
  | none =>
      rw [Comparison.popTop_eq_none_iff] at hpop'
      rw [hpop'] at hmem
      cases hmem
  | some p =>
      rcases p with ⟨top', rest'⟩
      have hperm' := Comparison.popTop_perm hpop'
      have hfront : top' ∈ frontier := (Comparison.mem_iff_of_popTop hpop' top').mpr (Or.inl rfl)
      have hsame : top = top' := hsep top top' (hfirst top' (h.mem top' hfront))
        (Comparison.popTop_first (hweak' frontier) hpop' top hmem)
      subst hsame
      have hnames : (name top :: rest'.map name).Nodup :=
        (hperm'.map name).nodup_iff.mp h.names
      rcases List.nodup_cons.mp hnames with ⟨hother, hnames'⟩
      have hin : ∀ a ∈ rest', a ∈ frontier :=
        fun a ha => (Comparison.mem_iff_of_popTop hpop' a).mpr (Or.inr ha)
      have hne : ∀ a ∈ rest', name a ≠ name top :=
        fun a ha heq => hother (heq ▸ List.mem_map_of_mem ha)
      refine ⟨rest', rfl, ?_, hnames', fun a ha => ?_, fun a ha => ?_, fun b hb => ?_⟩
      · exact (List.nodup_cons.mp ((Comparison.popTop_perm hpop).nodup_iff.mp h.nodup)).2
      · rcases (Comparison.mem_iff_of_popTop hpop a).mp (h.mem a (hin a ha)) with rfl | hmem
        · exact absurd rfl (hne a ha)
        · exact hmem
      · rw [hdead, not_or]
        exact ⟨h.alive a (hin a ha), hne a ha⟩
      · have hqueue := (Comparison.mem_iff_of_popTop hpop b).mpr (Or.inr hb)
        rw [hdead]
        rcases h.superseded b hqueue with hd | ⟨a, ha, hname, hle⟩
        · exact Or.inl (Or.inl hd)
        · rcases (Comparison.mem_iff_of_popTop hpop' a).mp ha with rfl | ha
          · exact Or.inl (Or.inr hname.symm)
          · exact Or.inr ⟨a, ha, hname, hle⟩

end Refines

end LazyQueue
