import RouteEngine.SearchSpec
import Mathlib.Order.WithBot

set_option autoImplicit false

/-! # The invariant of the main loop

The faithful search refines the abstract best-first search: `SearchInv` relates the vectors
and the queue to a `BestFirst.State`, an expanding round is one abstract step, and a stale
round is none. -/

namespace RouteEngine

variable {F : Type}

/-- An arc of the graph, as `arcs_from` shows it. -/
def Graph.HasArc (g : Graph F) (u v : NodeId) (w : F) : Prop :=
  ∃ row, g.arcsFrom u = .ok row ∧ (⟨v, w⟩ : Arc F) ∈ row

/-- The laws of the weight arithmetic that the search rests on, beside monotonicity: nothing
is asked of nested sums. -/
class WeightArith (F : Type) [LinearOrder F] [Zero F] [Add F] : Prop where
  add_zero : ∀ x : F, x + 0 = x
  le_add : ∀ x w : F, 0 ≤ w → x ≤ x + w

theorem WeightArith.top_add [LinearOrder F] [OrderTop F] [Zero F] [Add F] [WeightArith F]
    {w : F} (hw : 0 ≤ w) : (⊤ : F) + w = ⊤ :=
  top_le_iff.mp (WeightArith.le_add ⊤ w hw)

/-! ## The queue order -/

theorem weak_higherPriorityFirst [LinearOrder F] :
    Comparison.StrictWeakOn (higherPriorityFirst (F := F)) (fun _ => True) := by
  have hnode : Comparison.StrictWeakOn
      (fun a b : Entry F => decide (a.node.toNat < b.node.toNat)) (fun _ => True) := .of_key _
  have hflip := (hnode.lex (fun a => a.priority)).flip
  have heq : higherPriorityFirst (F := F) = fun a b =>
      if b.priority ≠ a.priority then decide (b.priority < a.priority)
      else decide (b.node.toNat < a.node.toNat) := by
    funext a b
    simp [higherPriorityFirst, UInt32.lt_iff_toNat_lt, ne_comm]
  rw [heq]
  exact hflip

/-- The popped entry has the least priority. -/
theorem priority_le_of_popTop [LinearOrder F] {queue rest : List (Entry F)} {top e : Entry F}
    (hpop : Comparison.popTop higherPriorityFirst queue = some (top, rest)) (he : e ∈ queue) :
    top.priority ≤ e.priority := by
  have hfirst := Comparison.popTop_first (weak_higherPriorityFirst.mono (fun _ _ => trivial))
    hpop e he
  unfold higherPriorityFirst at hfirst
  by_cases heq : top.priority = e.priority
  · exact heq.le
  · simpa [heq] using hfirst

variable [LinearOrder F] [OrderTop F]

/-! ## The queue against the labels -/

/-- Every entry overestimates its node, and every open node with a label has an entry that
does not. -/
structure SearchState.Frontier [Add F] (h : NodeId → F) (g : Graph F) (s : SearchState F) :
    Prop where
  contains : ∀ e ∈ s.queue, g.contains e.node = true
  labelled : ∀ e ∈ s.queue, s.label e.node ≠ ⊤
  priority_le : ∀ e ∈ s.queue, s.label e.node + h e.node ≤ e.priority
  entry : ∀ v, s.label v ≠ ⊤ → s.isSettled v = false →
    (⟨s.label v + h v, v⟩ : Entry F) ∈ s.queue

/-- The scan of the arcs `done` of `u`, whose cost is `d`, took `s₀` to `s`. -/
structure SearchState.Scanned [Add F] (u : NodeId) (d : F) (done : List (Arc F))
    (s₀ s : SearchState F) : Prop where
  settled : s.settled = s₀.settled
  lowered : ∀ v, (s.label v = s₀.label v ∧ s.parentOf v = s₀.parentOf v) ∨
    (s₀.isSettled v = false ∧ s.parentOf v = u ∧ s.label v < s₀.label v ∧
      ∃ w, IsLeast {w | (⟨v, w⟩ : Arc F) ∈ done} w ∧ s.label v = d + w)
  relaxed : ∀ arc ∈ done, s₀.isSettled arc.target = false →
    s.label arc.target ≤ d + arc.weight
  queue_le : s.queue.length ≤ s₀.queue.length + done.length
  expanded : s.stats.nodesExpanded = s₀.stats.nodesExpanded

namespace SearchState

variable [Add F] {s s₀ : SearchState F} {n : Nat} {u : NodeId} {d : F} {arc : Arc F}
variable {h : NodeId → F} {g : Graph F} {done row : List (Arc F)}

/-- **What the scan of an arc can do**: nothing, where the target is settled or not improved,
or lower the label of the target and push it. -/
theorem relaxed_cases (hs : s.Sized n) (hv : arc.target.toNat < n) (h : NodeId → F) (u : NodeId)
    (d : F) :
    ((s.isSettled arc.target = true ∨ s.label arc.target ≤ d + arc.weight) ∧
      s.relaxed h u d arc = s.countArc) ∨
    (s.isSettled arc.target = false ∧ d + arc.weight < s.label arc.target ∧
      (∀ v, (s.relaxed h u d arc).label v
        = if v = arc.target then d + arc.weight else s.label v) ∧
      (∀ v, (s.relaxed h u d arc).parentOf v = if v = arc.target then u else s.parentOf v) ∧
      (s.relaxed h u d arc).settled = s.settled ∧
      (s.relaxed h u d arc).queue = ⟨d + arc.weight + h arc.target, arc.target⟩ :: s.queue ∧
      (s.relaxed h u d arc).stats.nodesExpanded = s.stats.nodesExpanded) := by
  have hcount : s.countArc.Sized n := ⟨hs.distance, hs.parent, hs.settled⟩
  unfold relaxed
  split_ifs with hset hlt
  · exact Or.inl ⟨Or.inl hset, rfl⟩
  · refine Or.inr ⟨by simpa using hset, hlt, fun v => ?_, fun v => ?_, rfl, rfl, rfl⟩
    · exact label_improve hcount hv u _
    · exact parentOf_improve hcount hv u (d + arc.weight)
  · exact Or.inl ⟨Or.inr (not_lt.mp hlt), rfl⟩

/-! ## One row -/

theorem Scanned.refl (u : NodeId) (d : F) (s : SearchState F) : s.Scanned u d [] s where
  settled := rfl
  lowered _ := Or.inl ⟨rfl, rfl⟩
  relaxed := by simp
  queue_le := by simp
  expanded := rfl

/-- The scan of one more arc. Among parallel arcs only the first lowers the label, because the
others are not cheaper. -/
theorem Scanned.step [AddLeftMono F] (hscan : s.Scanned u d done s₀) (hs : s₀.Sized n)
    (hv : arc.target.toNat < n)
    (hle : ∀ a ∈ done, a.target = arc.target → a.weight ≤ arc.weight) :
    s.Scanned u d (done ++ [arc]) (s₀.relaxed h u d arc) := by
  have hflag : ∀ v, s₀.isSettled v = s.isSettled v := fun v => by
    simp only [isSettled, hscan.settled]
  -- an arc that lowers nothing keeps the cheapest arc to every node
  have hkeep : ∀ v, (s₀.label v = s.label v ∧ s₀.parentOf v = s.parentOf v) ∨
      (s.isSettled v = false ∧ s₀.parentOf v = u ∧ s₀.label v < s.label v ∧
        ∃ w, IsLeast {w | (⟨v, w⟩ : Arc F) ∈ done ++ [arc]} w ∧ s₀.label v = d + w) := by
    intro v
    rcases hscan.lowered v with heq | ⟨hopen, hpred, hlt, w, hw, hcost⟩
    · exact Or.inl heq
    · refine Or.inr ⟨hopen, hpred, hlt, w, ⟨?_, ?_⟩, hcost⟩
      · exact List.mem_append_left _ hw.1
      · intro w' hw'
        rcases List.mem_append.mp hw' with hmem | hmem
        · exact hw.2 hmem
        · obtain rfl : (⟨v, w'⟩ : Arc F) = arc := by simpa using hmem
          exact hle _ hw.1 rfl
  rcases relaxed_cases hs hv h u d with ⟨hskip, heq⟩ |
      ⟨hopen, hlt, hlabel, hpred, hsettled, hqueue, hexp⟩
  · -- the arc is skipped
    rw [heq]
    refine ⟨hscan.settled, hkeep, fun a ha hflag' => ?_, ?_,
      hscan.expanded⟩
    · rcases List.mem_append.mp ha with hmem | hmem
      · exact hscan.relaxed a hmem hflag'
      · obtain rfl : a = arc := by simpa using hmem
        rcases hskip with hset | hle'
        · rw [hflag] at hset
          exact absurd hset (by simp [hflag'])
        · exact hle'
    · have := hscan.queue_le
      simp only [countArc_queue, List.length_append, List.length_singleton]
      omega
  · -- the arc lowers the label of its target
    refine ⟨hsettled.trans hscan.settled, fun v => ?_, fun a ha hflag' => ?_, ?_,
      hexp.trans hscan.expanded⟩
    · by_cases hva : v = arc.target
      · subst hva
        rw [hlabel, hpred, if_pos rfl, if_pos rfl]
        rw [hflag] at hopen
        have hle₀ : s₀.label arc.target ≤ s.label arc.target := by
          rcases hscan.lowered arc.target with ⟨heq, -⟩ | ⟨-, -, hlt', -⟩
          · exact heq.le
          · exact hlt'.le
        refine Or.inr ⟨hopen, rfl, hlt.trans_le hle₀, arc.weight, ⟨by simp, ?_⟩, rfl⟩
        intro w' hw'
        rcases List.mem_append.mp hw' with hmem | hmem
        · -- a cheaper arc scanned before would have left no improvement
          by_contra hlt'
          have hd : d + w' ≤ d + arc.weight := add_le_add_right (not_le.mp hlt').le d
          have hcost : s₀.label arc.target ≤ d + w' :=
            hscan.relaxed ⟨arc.target, w'⟩ hmem hopen
          exact absurd (hlt.trans_le hcost) (not_lt.mpr hd)
        · obtain rfl : w' = arc.weight := by
            have := List.mem_singleton.mp hmem
            rw [← this]
          exact le_rfl
      · rw [hlabel, hpred, if_neg hva, if_neg hva]
        exact hkeep v
    · have hmono : (s₀.relaxed h u d arc).label a.target ≤ s₀.label a.target := by
        rw [hlabel]
        split_ifs with hat
        · rw [hat]
          exact hlt.le
        · exact le_rfl
      rcases List.mem_append.mp ha with hmem | hmem
      · exact hmono.trans (hscan.relaxed a hmem hflag')
      · obtain rfl : a = arc := by simpa using hmem
        rw [hlabel, if_pos rfl]
    · have := hscan.queue_le
      rw [hqueue]
      simp only [List.length_cons, List.length_append, List.length_nil]
      omega

/-- The scan of an arc keeps the queue in step with the labels. -/
theorem Frontier.relaxed [AddRightMono F] (hf : s.Frontier h g) (hs : s.Sized g.nodeCount)
    (harc : g.contains arc.target = true) (u : NodeId) (d : F) :
    (s.relaxed h u d arc).Frontier h g := by
  have hv := (g.contains_iff arc.target).mp harc
  rcases relaxed_cases hs hv h u d with ⟨-, heq⟩ |
      ⟨hopen, hlt, hlabel, -, hsettled, hqueue, -⟩
  · rw [heq]
    exact ⟨hf.contains, hf.labelled, hf.priority_le, hf.entry⟩
  · have hcost : d + arc.weight ≠ ⊤ := ne_top_of_lt hlt
    -- the new entry is exact for the target, and the old entries of the target overestimate
    constructor
    · intro e he
      rw [hqueue, List.mem_cons] at he
      rcases he with rfl | he
      · exact harc
      · exact hf.contains e he
    · intro e he
      rw [hlabel]
      split_ifs with hev
      · exact hcost
      · rw [hqueue, List.mem_cons] at he
        rcases he with rfl | he
        · exact absurd rfl hev
        · exact hf.labelled e he
    · intro e he
      rw [hqueue, List.mem_cons] at he
      rw [hlabel]
      rcases he with rfl | he
      · rw [if_pos rfl]
      · have hold := hf.priority_le e he
        split_ifs with hev
        · rw [hev] at hold ⊢
          calc d + arc.weight + h arc.target
              ≤ s.label arc.target + h arc.target := add_le_add_left hlt.le _
            _ ≤ e.priority := hold
        · exact hold
    · intro v hv' hset
      rw [hlabel] at hv' ⊢
      rw [hqueue]
      split_ifs with hva
      · rw [hva]
        exact List.mem_cons_self
      · rw [if_neg hva] at hv'
        refine List.mem_cons_of_mem _ (hf.entry v hv' ?_)
        rwa [isSettled, hsettled] at hset

/-- **The scan of a row**, by induction on the arcs still to scan. -/
theorem scan_spec [AddLeftMono F] [AddRightMono F] (hs : s.Sized g.nodeCount)
    (hf : s.Frontier h g) (hrow : ∀ arc ∈ row, g.contains arc.target = true)
    (hsorted : row.Pairwise (fun a b => a.target = b.target → a.weight ≤ b.weight)) :
    s.Scanned u (s.label u) row (s.scan h u row) ∧ (s.scan h u row).Sized g.nodeCount ∧
      (s.scan h u row).Frontier h g := by
  suffices hgen : ∀ (rest done : List (Arc F)) (t : SearchState F),
      (done ++ rest).Pairwise (fun a b => a.target = b.target → a.weight ≤ b.weight) →
      (∀ arc ∈ rest, g.contains arc.target = true) →
      s.Scanned u (s.label u) done t → t.Sized g.nodeCount → t.Frontier h g →
      s.Scanned u (s.label u) (done ++ rest) (rest.foldl (SearchState.relaxed h u (s.label u)) t) ∧
        (rest.foldl (SearchState.relaxed h u (s.label u)) t).Sized g.nodeCount ∧
        (rest.foldl (SearchState.relaxed h u (s.label u)) t).Frontier h g by
    exact hgen row [] s hsorted hrow (Scanned.refl u _ s) hs hf
  intro rest
  induction rest with
  | nil =>
      intro done t _ _ hscan ht hft
      rw [List.append_nil]
      exact ⟨hscan, ht, hft⟩
  | cons arc rest ih =>
      intro done t hpair hrest hscan ht hft
      have harc : g.contains arc.target = true := hrest arc List.mem_cons_self
      have hle : ∀ a ∈ done, a.target = arc.target → a.weight ≤ arc.weight :=
        fun a ha => (List.pairwise_append.mp hpair).2.2 a ha arc List.mem_cons_self
      have hnext := hscan.step (h := h) ht ((g.contains_iff _).mp harc) hle
      have happ : done ++ arc :: rest = (done ++ [arc]) ++ rest := by simp
      rw [happ] at hpair ⊢
      exact ih (done ++ [arc]) _ hpair (fun a ha => hrest a (List.mem_cons_of_mem arc ha)) hnext
        (ht.relaxed h u _ arc) (hft.relaxed ht harc u _)

end SearchState

end RouteEngine
