import RouteEngine.Library.Walk
import Mathlib.Order.WithBot
import Mathlib.Data.List.Infix

set_option autoImplicit false

/-! # Best-first search, abstractly

A best-first search keeps a tentative cost and a predecessor for every vertex and closes one
vertex after the other, never to open it again. `Expands` says what closing a vertex does,
and nothing about how the next one is found. `Explored` is the invariant that every such
search keeps, whatever guides it; `Guided` is the one it keeps when a consistent potential
guides it, and it makes the costs of closed vertices least. -/

namespace BestFirst

open Digraph

variable {V W : Type}

/-- What a search knows. -/
structure State (V W : Type) where
  /-- tentative costs, `⊤` where none is known -/
  label : V → W
  /-- the vertex that gave the label -/
  pred : V → V
  /-- closed vertices, the latest first -/
  closed : List V

variable {arc : V → V → W → Prop} {s : V} {a b : State V W} {u v : V}

/-- Closing `u` takes `a` to `b`: labels of open vertices are lowered along the arcs of `u`,
each by the cheapest of parallel arcs. -/
structure Expands [LinearOrder W] [Add W] (arc : V → V → W → Prop) (u : V) (a b : State V W) :
    Prop where
  closed_eq : b.closed = u :: a.closed
  relaxed : ∀ {v w}, arc u v w → v ∉ b.closed → b.label v ≤ a.label u + w
  lowered : ∀ v, (b.label v = a.label v ∧ b.pred v = a.pred v) ∨
    (v ∉ b.closed ∧ b.pred v = u ∧ b.label v < a.label v ∧
      ∃ w, IsLeast {w | arc u v w} w ∧ b.label v = a.label u + w)

namespace Expands

variable [LinearOrder W] [Add W]

theorem label_eq (h : Expands arc u a b) (hv : v ∈ b.closed) :
    b.label v = a.label v ∧ b.pred v = a.pred v := by
  rcases h.lowered v with heq | ⟨hopen, -⟩
  · exact heq
  · exact absurd hv hopen

theorem label_le (h : Expands arc u a b) (v : V) : b.label v ≤ a.label v := by
  rcases h.lowered v with ⟨heq, -⟩ | ⟨-, -, hlt, -⟩
  · exact heq.le
  · exact hlt.le

theorem mem_closed_self (h : Expands arc u a b) : u ∈ b.closed := by
  rw [h.closed_eq]
  exact List.mem_cons_self

theorem mem_closed (h : Expands arc u a b) (hv : v ∈ a.closed) : v ∈ b.closed := by
  rw [h.closed_eq]
  exact List.mem_cons_of_mem u hv

/-- What holds of the labels of the vertices closed before and of `u` holds of those closed
after. -/
theorem forall_closed (h : Expands arc u a b) {p : V → W → Prop} (hu : p u (a.label u))
    (hclosed : ∀ x ∈ a.closed, p x (a.label x)) : ∀ x ∈ b.closed, p x (b.label x) := by
  intro x hx
  rw [(h.label_eq hx).1]
  rw [h.closed_eq, List.mem_cons] at hx
  rcases hx with rfl | hx
  · exact hu
  · exact hclosed x hx

end Expands

variable [LinearOrder W] [OrderTop W] [Zero W] [Add W]

/-! ## What every search keeps -/

/-- Every label is the cost of a walk along predecessors, which were closed in that order,
and the arcs of closed vertices have been relaxed. -/
structure Explored (arc : V → V → W → Prop) (s : V) (a : State V W) : Prop where
  nodup : a.closed.Nodup
  source : a.label s = 0
  walk : ∀ v, a.label v ≠ ⊤ → WalkCost arc s v (a.label v)
  finite : ∀ v ∈ a.closed, a.label v ≠ ⊤
  pred_closed : ∀ v, v ≠ s → a.label v ≠ ⊤ → a.pred v ∈ a.closed ∧
    ∃ w, IsLeast {w | arc (a.pred v) v w} w ∧ a.label v = a.label (a.pred v) + w
  pred_earlier : ∀ v rest, (v :: rest) <:+ a.closed → v ≠ s → a.pred v ∈ rest
  relaxed : ∀ u v w, u ∈ a.closed → v ∉ a.closed → arc u v w → a.label v ≤ a.label u + w

namespace Explored

/-- Before any vertex is closed, only the source has a label. -/
theorem start (hclosed : a.closed = []) (hsource : a.label s = 0)
    (hother : ∀ v, v ≠ s → a.label v = ⊤) : Explored arc s a where
  nodup := by simp [hclosed]
  source := hsource
  walk v hv := by
    by_cases hvs : v = s
    · subst hvs
      rw [hsource]
      exact walkCost_nil
    · exact absurd (hother v hvs) hv
  finite := by simp [hclosed]
  pred_closed v hvs hv := absurd (hother v hvs) hv
  pred_earlier := by simp [hclosed]
  relaxed := by simp [hclosed]

theorem nonneg (hgrow : Growing arc) (h : Explored arc s a) (hv : a.label v ≠ ⊤) :
    0 ≤ a.label v :=
  (h.walk v hv).nonneg hgrow

/-- **Closing a vertex keeps the invariant.** -/
theorem expand (hgrow : Growing arc) (h : Explored arc s a) (hab : Expands arc u a b)
    (hu : u ∉ a.closed) (hlabel : a.label u ≠ ⊤) : Explored arc s b := by
  have hself := hab.label_eq hab.mem_closed_self
  -- the source keeps its label, which no walk undercuts
  have hsource : b.label s = a.label s ∧ b.pred s = a.pred s := by
    rcases hab.lowered s with heq | ⟨-, -, hlt, w, hw, heq⟩
    · exact heq
    · have hle : 0 ≤ b.label s := by
        rw [heq]
        exact (h.nonneg hgrow hlabel).trans (hgrow hw.1 _)
      rw [h.source] at hlt
      exact absurd hle (not_le.mpr hlt)
  constructor
  · rw [hab.closed_eq]
    exact List.nodup_cons.mpr ⟨hu, h.nodup⟩
  · rw [hsource.1, h.source]
  · intro v hv
    rcases hab.lowered v with ⟨heq, -⟩ | ⟨-, -, -, w, hw, heq⟩
    · rw [heq] at hv ⊢
      exact h.walk v hv
    · rw [heq]
      exact (h.walk u hlabel).snoc hw.1
  · intro v hv
    rw [(hab.label_eq hv).1]
    rw [hab.closed_eq, List.mem_cons] at hv
    rcases hv with rfl | hv
    · exact hlabel
    · exact h.finite v hv
  · intro v hvs hv
    rcases hab.lowered v with ⟨heq, hpred⟩ | ⟨-, hpred, -, w, hw, heq⟩
    · rw [heq] at hv
      obtain ⟨hmem, w, hw, hcost⟩ := h.pred_closed v hvs hv
      rw [hpred, heq, (hab.label_eq (hab.mem_closed hmem)).1]
      exact ⟨hab.mem_closed hmem, w, hw, hcost⟩
    · rw [hpred, heq, hself.1]
      exact ⟨hab.mem_closed_self, w, hw, rfl⟩
  · intro v rest hsuf hvs
    have hmem : v ∈ b.closed := hsuf.subset List.mem_cons_self
    rw [(hab.label_eq hmem).2]
    rw [hab.closed_eq, List.suffix_cons_iff] at hsuf
    rcases hsuf with heq | hsuf
    · obtain ⟨rfl, rfl⟩ := List.cons.inj heq
      exact (h.pred_closed v hvs hlabel).1
    · exact h.pred_earlier v rest hsuf hvs
  · intro x v w hx hv harc
    rw [(hab.label_eq hx).1]
    rw [hab.closed_eq, List.mem_cons] at hx
    rcases hx with rfl | hx
    · exact hab.relaxed harc hv
    · have hva : v ∉ a.closed := fun hmem => hv (hab.mem_closed hmem)
      exact (hab.label_le v).trans (h.relaxed x v w hx hva harc)

/-- Where a search has run dry, the closed vertices are the reachable ones, provided that no
sum of finite costs overflows. -/
theorem mem_closed_iff_reachable (hsum : ∀ u v w c, arc u v w → c ≠ ⊤ → c + w ≠ ⊤)
    (hzero : (0 : W) ≠ ⊤) (h : Explored arc s a) (hdry : ∀ v, a.label v ≠ ⊤ → v ∈ a.closed) :
    v ∈ a.closed ↔ Reachable arc s v := by
  constructor
  · intro hv
    exact (h.walk v (h.finite v hv)).reachable
  · intro hv
    induction hv with
    | refl => exact hdry s (by rw [h.source]; exact hzero)
    | @tail u v _ harc hu =>
        obtain ⟨w, hw⟩ := harc
        by_contra hv
        have hle := h.relaxed u v w hu hv hw
        have hfin := hsum u v w _ hw (h.finite u hu)
        exact hv (hdry v (ne_top_of_le_ne_top hfin hle))

end Explored

/-! ## The predecessor path -/

/-- `Path a s v vs`: following predecessors from `v` one meets `vs` and ends at `s`. -/
inductive Path (a : State V W) (s : V) : V → List V → Prop
  | nil : Path a s s [s]
  | cons {v : V} {vs : List V} : v ≠ s → Path a s (a.pred v) vs → Path a s v (v :: vs)

omit [LinearOrder W] [OrderTop W] [Zero W] [Add W] in
/-- There is one predecessor path. -/
theorem Path.unique {vs vs' : List V} (h : Path a s v vs) (h' : Path a s v vs') : vs = vs' := by
  induction h generalizing vs' with
  | nil =>
      cases h' with
      | nil => rfl
      | cons hne _ => exact absurd rfl hne
  | cons hne _ ih =>
      cases h' with
      | nil => exact absurd rfl hne
      | cons _ hrest => rw [ih hrest]

omit [LinearOrder W] [OrderTop W] [Zero W] [Add W] in
/-- From a vertex on the path on, it is the path of that vertex. -/
theorem Path.exists_suffix {vs : List V} (h : Path a s v vs) {x : V} (hx : x ∈ vs) :
    ∃ before after, vs = before ++ x :: after ∧ Path a s x (x :: after) := by
  induction h with
  | nil =>
      obtain rfl := List.mem_singleton.mp hx
      exact ⟨[], [], rfl, .nil⟩
  | @cons v vs hne hrest ih =>
      rcases List.mem_cons.mp hx with rfl | hx
      · exact ⟨[], vs, rfl, .cons hne hrest⟩
      · obtain ⟨before, after, rfl, hpath⟩ := ih hx
        exact ⟨v :: before, after, rfl, hpath⟩

omit [LinearOrder W] [OrderTop W] [Zero W] [Add W] in
/-- A path is one in every state with the same predecessors along it. -/
theorem Path.congr {vs : List V} (h : Path a s v vs) (hpred : ∀ x ∈ vs, b.pred x = a.pred x) :
    Path b s v vs := by
  induction h with
  | nil => exact .nil
  | cons hne _ ih =>
      refine .cons hne ?_
      rw [hpred _ List.mem_cons_self]
      exact ih fun x hx => hpred x (List.mem_cons_of_mem _ hx)

/-- Behind its first vertex, the path of a labelled vertex is closed. -/
theorem Explored.mem_closed_of_path (h : Explored arc s a) {vs : List V} (hpath : Path a s v vs)
    (hv : a.label v ≠ ⊤) {x : V} (hx : x ∈ vs) : x = v ∨ x ∈ a.closed := by
  induction hpath with
  | nil => exact .inl (List.mem_singleton.mp hx)
  | @cons v vs hne _ ih =>
      rcases List.mem_cons.mp hx with rfl | hx
      · exact .inl rfl
      · have hpred := (h.pred_closed v hne hv).1
        rcases ih (h.finite _ hpred) hx with rfl | hclosed
        · exact .inr hpred
        · exact .inr hclosed

/-- **Following predecessors ends at the source**, and meets closed vertices in the order
opposite to that in which they were closed. -/
theorem Explored.exists_path (h : Explored arc s a) :
    ∀ {rest : List V} {v : V}, (v :: rest) <:+ a.closed →
      ∃ vs, Path a s v vs ∧ vs.Sublist (v :: rest) := by
  intro rest
  induction hn : rest.length using Nat.strong_induction_on generalizing rest with
  | _ n ih =>
      intro v hsuf
      by_cases hvs : v = s
      · subst hvs
        exact ⟨[v], .nil, List.singleton_sublist.mpr List.mem_cons_self⟩
      · obtain ⟨before, rest', hrest⟩ := List.append_of_mem (h.pred_earlier v rest hsuf hvs)
        have hsuf' : (a.pred v :: rest') <:+ rest := ⟨before, hrest.symm⟩
        have hlen : rest'.length < n := by
          rw [← hn, hrest]
          simp
          omega
        obtain ⟨vs, hpath, hsub⟩ := ih rest'.length hlen rfl
          (hsuf'.trans ((List.suffix_cons v rest).trans hsuf))
        exact ⟨v :: vs, .cons hvs hpath, (hsub.trans hsuf'.sublist).cons_cons v⟩

/-- The path of an open vertex with a label repeats no vertex. -/
theorem Explored.exists_path_of_open (h : Explored arc s a) (hv : v ∉ a.closed)
    (hlabel : a.label v ≠ ⊤) : ∃ vs, Path a s v vs ∧ vs.Sublist (v :: a.closed) ∧ vs.Nodup := by
  have hnodup : (v :: a.closed).Nodup := List.nodup_cons.mpr ⟨hv, h.nodup⟩
  by_cases hvs : v = s
  · subst hvs
    refine ⟨[v], .nil, List.singleton_sublist.mpr List.mem_cons_self, by simp⟩
  · obtain ⟨before, rest, hrest⟩ := List.append_of_mem (h.pred_closed v hvs hlabel).1
    have hsuf : (a.pred v :: rest) <:+ a.closed := ⟨before, hrest.symm⟩
    obtain ⟨vs, hpath, hsub⟩ := h.exists_path hsuf
    have hsub' : (v :: vs).Sublist (v :: a.closed) := (hsub.trans hsuf.sublist).cons_cons v
    exact ⟨v :: vs, .cons hvs hpath, hsub', hnodup.sublist hsub'⟩

/-- The predecessor path of a labelled vertex is a walk that costs its label. -/
theorem Explored.walk_of_path (h : Explored arc s a) {vs : List V} (hpath : Path a s v vs) :
    a.label v ≠ ⊤ → ∃ before, vs = v :: before ∧ Walk arc s before v (a.label v) := by
  induction hpath with
  | nil =>
      intro _
      refine ⟨[], rfl, ?_⟩
      rw [h.source]
      exact .nil
  | @cons v vs hvs _ ih =>
      intro hv
      obtain ⟨hpred, w, hw, hcost⟩ := h.pred_closed v hvs hv
      obtain ⟨before, rfl, hwalk⟩ := ih (h.finite _ hpred)
      refine ⟨_, rfl, ?_⟩
      rw [hcost]
      exact hwalk.snoc hw.1

/-! ## What a consistent potential adds -/

/-- Closed vertices carry least costs and were closed in the order of cost plus potential. -/
structure Guided (arc : V → V → W → Prop) (s : V) (h : V → W) (a : State V W) : Prop where
  optimal : ∀ u ∈ a.closed, ∀ c, WalkCost arc s u c → a.label u ≤ c
  ordered : a.closed.Pairwise (fun v u => a.label u + h u ≤ a.label v + h v)
  frontier : ∀ u ∈ a.closed, ∀ v, v ∉ a.closed → a.label u + h u ≤ a.label v + h v

namespace Guided

variable [AddRightMono W] {h : V → W}

omit [AddRightMono W] [OrderTop W] in
theorem start (hclosed : a.closed = []) : Guided arc s h a where
  optimal := by simp [hclosed]
  ordered := by simp [hclosed]
  frontier := by simp [hclosed]

omit [AddRightMono W] in
theorem isLeast (hg : Guided arc s h a) (he : Explored arc s a) (hu : u ∈ a.closed) :
    IsLeast {c | WalkCost arc s u c} (a.label u) :=
  ⟨he.walk u (he.finite u hu), fun c hc => hg.optimal u hu c hc⟩

/-- The label of a minimal open vertex is already least. -/
theorem label_le (hcons : ConsistentFrom arc s h) (hg : Guided arc s h a)
    (he : Explored arc s a) (hu : u ∉ a.closed)
    (hcancel : ∀ y : W, a.label u + h u ≤ y + h u → a.label u ≤ y)
    (hmin : ∀ v, v ∉ a.closed → a.label u + h u ≤ a.label v + h v) {c : W}
    (hw : WalkCost arc s u c) : a.label u ≤ c :=
  hw.label_le_of_minimal (S := (· ∈ a.closed)) (fun _ => he.source.le)
    (fun x c hx hc => hg.optimal x hx c hc)
    (fun x v w hx hv harc => he.relaxed x v w hx hv harc) hcons hu hcancel
    (fun x _ hx _ _ => hmin x hx)

/-- **Closing a minimal open vertex keeps the invariant.** -/
theorem expand (hcons : ConsistentFrom arc s h) (hg : Guided arc s h a) (he : Explored arc s a)
    (hab : Expands arc u a b) (hu : u ∉ a.closed) (hlab : a.label u ≠ ⊤)
    (hcancel : ∀ y : W, a.label u + h u ≤ y + h u → a.label u ≤ y)
    (hmin : ∀ v, v ∉ a.closed → a.label u + h u ≤ a.label v + h v) : Guided arc s h b := by
  have hlabel : ∀ {x}, x ∈ a.closed → b.label x = a.label x :=
    fun hx => (hab.label_eq (hab.mem_closed hx)).1
  have hself : b.label u = a.label u := (hab.label_eq hab.mem_closed_self).1
  constructor
  · exact hab.forall_closed (p := fun x l => ∀ c, WalkCost arc s x c → l ≤ c)
      (fun c hc => hg.label_le hcons he hu hcancel hmin hc) hg.optimal
  · rw [hab.closed_eq, List.pairwise_cons]
    constructor
    · intro x hx
      rw [hself, hlabel hx]
      exact hg.frontier x hx u hu
    · refine hg.ordered.imp_of_mem (fun {x y} hx hy hxy => ?_)
      rwa [hlabel hx, hlabel hy]
  · intro x hx v hv
    have hva : v ∉ a.closed := fun hmem => hv (hab.mem_closed hmem)
    -- every closed vertex is below `u`, and `u` is below every open one
    have hxu : b.label x + h x ≤ a.label u + h u :=
      hab.forall_closed (p := fun x l => l + h x ≤ a.label u + h u) le_rfl
        (fun x hx => hg.frontier x hx u hu) x hx
    have huv : a.label u + h u ≤ b.label v + h v := by
      rcases hab.lowered v with ⟨heq, -⟩ | ⟨-, -, -, w, hw, heq⟩
      · rw [heq]
        exact hmin v hva
      · rw [heq]
        exact hcons (he.walk u hlab) hw.1
    calc b.label x + h x ≤ a.label u + h u := hxu
      _ ≤ b.label v + h v := huv

/-- Before a walk ends at an open vertex it has an open one, whose label plus potential is at
most the cost of the walk plus the potential at its end. -/
theorem exists_open (hcons : ConsistentFrom arc s h) (hg : Guided arc s h a)
    (he : Explored arc s a) {c : W} (hw : WalkCost arc s v c) (hv : v ∉ a.closed) :
    ∃ x, x ∉ a.closed ∧ a.label x + h x ≤ c + h v := by
  obtain ⟨x, cx, hx, -, hdx, hle⟩ := hw.exists_open (S := (· ∈ a.closed))
    (fun _ => he.source.le) (fun x c hx hc => hg.optimal x hx c hc)
    (fun x v w hx hv harc => he.relaxed x v w hx hv harc) hcons hv
  exact ⟨x, hx, (add_le_add_left hdx (h x)).trans hle⟩

/-- A walk whose cost plus potential is below those of all open vertices ends at a closed
one. -/
theorem mem_closed_of_lt (hcons : ConsistentFrom arc s h) (hg : Guided arc s h a)
    (he : Explored arc s a) {bound c : W}
    (hopen : ∀ v, v ∉ a.closed → bound ≤ a.label v + h v)
    (hw : WalkCost arc s v c) (hlt : c + h v < bound) : v ∈ a.closed := by
  by_contra hv
  obtain ⟨x, hx, hle⟩ := hg.exists_open hcons he hw hv
  exact absurd hlt (not_lt.mpr ((hopen x hx).trans hle))

end Guided

end BestFirst
