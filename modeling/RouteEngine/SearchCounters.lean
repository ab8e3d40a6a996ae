import RouteEngine.Expansions
import RouteEngine.SearchSteps
import Mathlib.Algebra.BigOperators.Group.Finset.Basic

set_option autoImplicit false

/-! # The counters of a search

Every counter is exact (`search_counters`): the pushes are the relaxations and the source, every
pop settles a node or is stale, what was pushed and not popped is still in the queue, and the
arcs examined are the rows of the nodes expanded before the target. -/

namespace RouteEngine

variable {F : Type}

/-! ## Counters of 64 bits -/

theorem toNat_add_one {n : UInt64} (h : n.toNat + 1 < 2 ^ 64) : (n + 1).toNat = n.toNat + 1 := by
  rw [UInt64.toNat_add]
  exact Nat.mod_eq_of_lt h

theorem toNat_max (m n : UInt64) : (max m n).toNat = max m.toNat n.toNat := by
  show (if m ≤ n then n else m).toNat = _
  split_ifs with hle
  · exact (max_eq_right (UInt64.le_iff_toNat_le.mp hle)).symm
  · rw [UInt64.le_iff_toNat_le] at hle
    exact (max_eq_left (Nat.le_of_not_le hle)).symm

/-! ## The arcs of nodes -/

/-- The outgoing arcs of a node with their source. -/
def Graph.arcsOut (g : Graph F) (u : NodeId) : List (StagedArc F) :=
  match g.arcsFrom u with
  | .ok row => row.map (fun arc => ⟨u, arc.target, arc.weight⟩)
  | .error _ => []

def Graph.outDegree (g : Graph F) (u : NodeId) : Nat := (g.arcsOut u).length

section

variable {distance : Coord F → Coord F → F} {g : Graph F} {staged : List (StagedArc F)}
variable [IsFinite F] [Zero F] [Top F] [LT F] [DecidableLT F] [LE F] [DecidableLE F] [Div F]

theorem Graph.OverArcs.arcsOut_eq (hg : g.OverArcs distance staged) {u : NodeId}
    (hu : g.contains u = true) :
    g.arcsOut u = staged.filter (fun a => decide (a.source = u)) := by
  rw [arcsOut, hg.arcsFrom_eq hu]
  exact map_rowOf staged u

theorem Graph.OverArcs.outDegree_eq (hg : g.OverArcs distance staged) {u : NodeId}
    (hu : g.contains u = true) : g.outDegree u = (rowOf staged u).length := by
  rw [outDegree, hg.arcsOut_eq hu, rowOf, List.length_map]

/-- The rows of distinct nodes are the arcs that leave one of them. -/
theorem Graph.OverArcs.flatMap_arcsOut_perm (hg : g.OverArcs distance staged) {nodes : List NodeId}
    (hnodup : nodes.Nodup) (hcontains : ∀ u ∈ nodes, g.contains u = true) :
    (nodes.flatMap g.arcsOut).Perm (staged.filter (fun a => decide (a.source ∈ nodes))) := by
  induction nodes with
  | nil => simp
  | cons u nodes ih =>
      rcases List.nodup_cons.mp hnodup with ⟨hu, hrest⟩
      have hperm := ih hrest (fun v hv => hcontains v (List.mem_cons_of_mem u hv))
      rw [List.flatMap_cons, hg.arcsOut_eq (hcontains u List.mem_cons_self)]
      apply (hperm.append_left _).trans
      -- the arcs of `u` and those of the others are disjoint parts of the list
      have hsplit := List.filter_append_perm (fun a : StagedArc F => decide (a.source = u))
        (staged.filter (fun a => decide (a.source ∈ u :: nodes)))
      rw [List.filter_filter, List.filter_filter] at hsplit
      apply List.Perm.trans _ hsplit
      apply List.Perm.of_eq
      congr 1
      · apply List.filter_congr
        intro a _
        by_cases ha : a.source = u
        · simp [ha]
        · simp [ha]
      · apply List.filter_congr
        intro a _
        by_cases ha : a.source = u
        · simp [ha, hu]
        · simp [ha]

/-- **No arc leaves two nodes**: the rows of distinct nodes are arcs of the graph, once each. -/
theorem Graph.OverArcs.flatMap_arcsOut_subperm (hg : g.OverArcs distance staged)
    {nodes : List NodeId} (hnodup : nodes.Nodup)
    (hcontains : ∀ u ∈ nodes, g.contains u = true) :
    (nodes.flatMap g.arcsOut).Subperm staged :=
  (hg.flatMap_arcsOut_perm hnodup hcontains).subperm.trans List.filter_sublist.subperm

omit [IsFinite F] [Zero F] [Top F] [LT F] [DecidableLT F] [LE F] [DecidableLE F] [Div F] in
theorem length_flatMap_arcsOut (nodes : List NodeId) :
    (nodes.flatMap g.arcsOut).length = (nodes.map g.outDegree).sum := by
  rw [List.length_flatMap]
  rfl

end

/-! ## The tally -/

/-- What the counters say when `scanned` arcs have been examined. -/
structure SearchState.Tallied (s : SearchState F) (scanned : Nat) : Prop where
  pushes : s.stats.pqPushes.toNat = 1 + s.stats.relaxations.toNat
  pops : s.stats.pqPops.toNat = s.stats.nodesExpanded.toNat + s.stats.stalePops.toNat
  queue : s.stats.pqPushes.toNat = s.stats.pqPops.toNat + s.queue.length
  relaxations_le : s.stats.relaxations.toNat ≤ s.stats.arcsExamined.toNat
  examined : s.stats.arcsExamined.toNat = scanned
  queue_le : s.queue.length ≤ s.stats.maxQueueSize.toNat

namespace SearchState

variable {s : SearchState F} {scanned : Nat} {e : Entry F} {rest : List (Entry F)}

theorem Tallied.started [Zero F] [Top F] (n : Nat) (source : NodeId) (h : NodeId → F) :
    (SearchState.started n source h).Tallied 0 :=
  ⟨rfl, rfl, rfl, le_rfl, rfl, le_rfl⟩

theorem Tallied.countArc (hs : s.Tallied scanned) (hbound : scanned < maxArcCount) :
    s.countArc.Tallied (scanned + 1) := by
  have hexamined := hs.examined
  have hrelaxed := hs.relaxations_le
  unfold maxArcCount at hbound
  have hnext : s.countArc.stats.arcsExamined.toNat = scanned + 1 := by
    rw [countArc_stats_arcsExamined, toNat_add_one (by omega), hexamined]
  refine ⟨hs.pushes, hs.pops, hs.queue, ?_, hnext, hs.queue_le⟩
  rw [hnext]
  show s.stats.relaxations.toNat ≤ _
  omega

theorem Tallied.countRelaxation_push (hs : s.Tallied scanned)
    (hlt : s.stats.relaxations.toNat < s.stats.arcsExamined.toNat)
    (hbound : scanned ≤ maxArcCount) : (s.countRelaxation.push e).Tallied scanned := by
  have hpushes := hs.pushes
  have hqueue := hs.queue
  have hexamined := hs.examined
  unfold maxArcCount at hbound
  have hrelaxations : (s.countRelaxation.push e).stats.relaxations.toNat
      = s.stats.relaxations.toNat + 1 := toNat_add_one (n := s.stats.relaxations) (by omega)
  have hpush : (s.countRelaxation.push e).stats.pqPushes.toNat = s.stats.pqPushes.toNat + 1 :=
    toNat_add_one (n := s.stats.pqPushes) (by omega)
  have hlength : (s.countRelaxation.push e).queue.length = s.queue.length + 1 := rfl
  refine ⟨?_, hs.pops, ?_, ?_, hs.examined, ?_⟩
  · omega
  · show _ = s.stats.pqPops.toNat + _
    omega
  · show _ ≤ s.stats.arcsExamined.toNat
    omega
  · show _ ≤ (max s.stats.maxQueueSize (UInt64.ofNat (e :: s.queue).length)).toNat
    have hsize : (UInt64.ofNat (e :: s.queue).length).toNat = (e :: s.queue).length :=
      UInt64.toNat_ofNat_of_lt' (by simp only [List.length_cons, UInt64.size]; omega)
    rw [toNat_max, hsize]
    exact le_max_right _ _

section

variable [Top F] [Add F] [LT F] [DecidableLT F]

/-- The scan of an arc counts it, and counts a relaxation with every push. -/
theorem Tallied.relaxed (hs : s.Tallied scanned) (hbound : scanned < maxArcCount)
    (h : NodeId → F) (u : NodeId) (d : F) (arc : Arc F) :
    (s.relaxed h u d arc).Tallied (scanned + 1) := by
  have hcount := hs.countArc hbound
  unfold SearchState.relaxed
  split_ifs
  · exact hcount
  · have himprove : (s.countArc.improve u arc.target (d + arc.weight)).Tallied (scanned + 1) :=
      ⟨hcount.pushes, hcount.pops, hcount.queue, hcount.relaxations_le, hcount.examined,
        hcount.queue_le⟩
    refine himprove.countRelaxation_push ?_ hbound
    have hnext := hcount.examined
    have hexamined := hs.examined
    have hrelaxed := hs.relaxations_le
    show s.stats.relaxations.toNat < s.countArc.stats.arcsExamined.toNat
    omega
  · exact hcount

theorem Tallied.foldl_relaxed (h : NodeId → F) (u : NodeId) (d : F) (row : List (Arc F))
    (hs : s.Tallied scanned) (hbound : scanned + row.length ≤ maxArcCount) :
    (row.foldl (SearchState.relaxed h u d) s).Tallied (scanned + row.length) := by
  induction row generalizing s scanned with
  | nil => exact hs
  | cons arc row ih =>
      rw [List.length_cons] at hbound ⊢
      have hnext := ih (hs.relaxed (by omega) h u d arc) (by omega)
      rwa [Nat.add_right_comm] at hnext

end

theorem Tallied.toNat_pqPops_lt (hs : s.Tallied scanned) (hbound : scanned ≤ maxArcCount) :
    s.stats.pqPops.toNat + 1 < 2 ^ 64 := by
  have hpushes := hs.pushes
  have hqueue := hs.queue
  have hrelaxed := hs.relaxations_le
  have hexamined := hs.examined
  unfold maxArcCount at hbound
  omega

variable [LT F] [DecidableLT F] [BEq F]

theorem Tallied.countStale (hs : s.Tallied scanned) (hbound : scanned ≤ maxArcCount)
    (hpop : Comparison.popTop higherPriorityFirst s.queue = some (e, rest)) :
    (s.pop rest).countStale.Tallied scanned := by
  have hlt := hs.toNat_pqPops_lt hbound
  have hlength := Comparison.popTop_length hpop
  have hpops := hs.pops
  have hqueue := hs.queue
  have hqueueLe := hs.queue_le
  have hpop' : (s.pop rest).countStale.stats.pqPops.toNat = s.stats.pqPops.toNat + 1 :=
    toNat_add_one hlt
  have hstale : (s.pop rest).countStale.stats.stalePops.toNat = s.stats.stalePops.toNat + 1 :=
    toNat_add_one (n := s.stats.stalePops) (by omega)
  refine ⟨hs.pushes, ?_, ?_, hs.relaxations_le, hs.examined, ?_⟩
  · show _ = s.stats.nodesExpanded.toNat + _
    omega
  · show s.stats.pqPushes.toNat = _ + rest.length
    omega
  · show rest.length ≤ s.stats.maxQueueSize.toNat
    omega

theorem Tallied.opened (hs : s.Tallied scanned) (hbound : scanned ≤ maxArcCount)
    (hpop : Comparison.popTop higherPriorityFirst s.queue = some (e, rest)) :
    (s.opened e rest).Tallied scanned := by
  have hlt := hs.toNat_pqPops_lt hbound
  have hlength := Comparison.popTop_length hpop
  have hpops := hs.pops
  have hqueue := hs.queue
  have hqueueLe := hs.queue_le
  have hpop' : (s.opened e rest).stats.pqPops.toNat = s.stats.pqPops.toNat + 1 :=
    toNat_add_one hlt
  have hexpanded : (s.opened e rest).stats.nodesExpanded.toNat
      = s.stats.nodesExpanded.toNat + 1 := toNat_add_one (n := s.stats.nodesExpanded) (by omega)
  refine ⟨hs.pushes, ?_, ?_, hs.relaxations_le, hs.examined, ?_⟩
  · show _ = _ + s.stats.stalePops.toNat
    omega
  · show s.stats.pqPushes.toNat = _ + rest.length
    omega
  · show rest.length ≤ s.stats.maxQueueSize.toNat
    omega

end SearchState

/-! ## The tally of a run -/

section

variable [LinearOrder F] [OrderTop F] [Zero F] [Add F] [AddLeftMono F] [AddRightMono F]
variable [WeightArith F] [Div F]
variable {distance : Coord F → Coord F → F} {g : Graph F} {staged : List (StagedArc F)}
variable {source target : NodeId} {estimate : NodeId → Outcome F} {h : NodeId → F}
variable {s t : SearchState F} {closed : List NodeId} {es : List (Expansion F)}

omit [AddLeftMono F] [AddRightMono F] [WeightArith F] in
/-- Nodes that were closed have no more arcs than the graph. -/
theorem SearchInv.length_arcsOut_le (hg : g.OverArcs distance staged)
    (hinv : SearchInv g source target h s closed) :
    (closed.flatMap g.arcsOut).length ≤ maxArcCount :=
  (hg.flatMap_arcsOut_subperm hinv.explored.nodup
    (fun _ hv => hinv.contains_of_mem hv)).length_le.trans hg.arcs_le

omit [AddLeftMono F] [AddRightMono F] [WeightArith F] in
/-- The inner loop over the arcs `done`, the first ones of the row. -/
theorem SearchInv.foldlM_relax_opened (hg : g.OverArcs distance staged)
    (hest : ∀ v, g.contains v = true → estimate v = .ok (h v))
    (hinv : SearchInv g source target h s closed) {e : Entry F} {rest : List (Entry F)}
    {done todo : List (Arc F)}
    (hrow : rowOf staged e.node = done ++ todo) :
    done.foldlM (relax estimate e.node.toNat (s.label e.node)) (s.opened e rest)
      = .ok ((s.opened e rest).scan h e.node done) := by
  have hpopped : (s.pop rest).Sized g.nodeCount :=
    ⟨hinv.sized.distance, hinv.sized.parent, hinv.sized.settled⟩
  have hsettled := hpopped.settle e.node
  have hsized : (s.opened e rest).Sized g.nodeCount :=
    ⟨hsettled.distance, hsettled.parent, hsettled.settled⟩
  have hcontains : ∀ arc ∈ done, g.contains arc.target = true := by
    intro arc harc
    apply hg.row_contains (u := e.node)
    rw [hrow]
    exact List.mem_append_left _ harc
  exact foldlM_relax_eq hsized e.node done
    (fun arc harc => (g.contains_iff _).mp (hcontains arc harc))
    (fun arc harc => hest arc.target (hcontains arc harc))

/-- **A run examines the rows of the nodes it expands.** -/
theorem Rounds.tallied (hg : g.OverArcs distance staged)
    (hest : ∀ v, g.contains v = true → estimate v = .ok (h v)) (hh : ∀ v, 0 ≤ h v)
    (hrun : Rounds g target estimate s es t) (hinv : SearchInv g source target h s closed)
    (hs : s.Tallied (closed.flatMap g.arcsOut).length) :
    t.Tallied (((es.map Expansion.node).reverse ++ closed).flatMap g.arcsOut).length := by
  refine hrun.invariant (P := fun s closed => s.Tallied (closed.flatMap g.arcsOut).length)
    hg hest hh ?_ ?_ hinv hs
  · intro s closed e rest hinv hpop _ hs
    exact hs.countStale (hinv.length_arcsOut_le hg) hpop
  · intro s closed e rest hinv hpop hchoose hne hs
    have hopened := hs.opened (hinv.length_arcsOut_le hg) hpop
    have hcloses := (hinv.expand hg hpop hchoose hne).1.length_arcsOut_le hg
    rw [List.flatMap_cons, List.length_append] at hcloses ⊢
    rw [← Graph.outDegree, hg.outDegree_eq hchoose.contains, Nat.add_comm] at hcloses ⊢
    exact hopened.foldl_relaxed h e.node _ _ hcloses

/-! ## The largest queue -/

/-- The states that the variables of the main loop pass through from `s₀` on: before a round,
after a node was settled, and after some of its arcs were scanned. -/
inductive Passes (g : Graph F) (target : NodeId) (estimate : NodeId → Outcome F)
    (s₀ : SearchState F) : SearchState F → Prop
  | head {es : List (Expansion F)} {s : SearchState F} :
      Rounds g target estimate s₀ es s → Passes g target estimate s₀ s
  | opened {es : List (Expansion F)} {s : SearchState F} {e : Entry F} {rest : List (Entry F)} :
      Rounds g target estimate s₀ es s →
      Comparison.popTop higherPriorityFirst s.queue = some (e, rest) →
      s.isSettled e.node = false → Passes g target estimate s₀ (s.opened e rest)
  | scanned {es : List (Expansion F)} {s t : SearchState F} {e : Entry F}
      {rest : List (Entry F)} {done todo : List (Arc F)} :
      Rounds g target estimate s₀ es s →
      Comparison.popTop higherPriorityFirst s.queue = some (e, rest) →
      s.isSettled e.node = false → e.node ≠ target → g.arcsFrom e.node = .ok (done ++ todo) →
      done.foldlM (relax estimate e.node.toNat (s.label e.node)) (s.opened e rest) = .ok t →
      Passes g target estimate s₀ t

namespace Passes

omit [Zero F] [AddLeftMono F] [AddRightMono F] [WeightArith F] [Div F]

theorem of_stale {s s' m : SearchState F} {e : Entry F}
    (hround : searchRound g target estimate s = .ok (.stale e s'))
    (hm : Passes g target estimate s' m) : Passes g target estimate s m := by
  cases hm with
  | head hrun => exact .head (.stale hround hrun)
  | opened hrun hpop hset => exact .opened (.stale hround hrun) hpop hset
  | scanned hrun hpop hset hne harcs hfold =>
      exact .scanned (.stale hround hrun) hpop hset hne harcs hfold

theorem of_expanded {s s' m : SearchState F} {e : Entry F}
    (hround : searchRound g target estimate s = .ok (.expanded e s'))
    (hm : Passes g target estimate s' m) : Passes g target estimate s m := by
  cases hm with
  | head hrun => exact .head (.expanded hround hrun)
  | opened hrun hpop hset => exact .opened (.expanded hround hrun) hpop hset
  | scanned hrun hpop hset hne harcs hfold =>
      exact .scanned (.expanded hround hrun) hpop hset hne harcs hfold

end Passes

namespace SearchState

omit [Zero F] [AddLeftMono F] [AddRightMono F] [WeightArith F] [Div F]

theorem maxQueueSize_relaxed (s : SearchState F) (h : NodeId → F) (u : NodeId) (d : F)
    (arc : Arc F) :
    (s.relaxed h u d arc).stats.maxQueueSize = s.stats.maxQueueSize ∨
      (s.relaxed h u d arc).stats.maxQueueSize
        = max s.stats.maxQueueSize (UInt64.ofNat (s.relaxed h u d arc).queue.length) := by
  unfold relaxed
  split_ifs
  · exact Or.inl rfl
  · exact Or.inr rfl
  · exact Or.inl rfl

/-- Either the counter stays or it is the size of the queue. -/
theorem Tallied.maxQueueSize_relaxed {scanned : Nat} (hs : s.Tallied scanned)
    (hbound : scanned < maxArcCount) (h : NodeId → F) (u : NodeId) (d : F) (arc : Arc F) :
    (s.relaxed h u d arc).stats.maxQueueSize = s.stats.maxQueueSize ∨
      (s.relaxed h u d arc).queue.length
        = (s.relaxed h u d arc).stats.maxQueueSize.toNat := by
  rcases s.maxQueueSize_relaxed h u d arc with heq | heq
  · exact Or.inl heq
  have hnext := hs.relaxed hbound h u d arc
  have hpushes := hnext.pushes
  have hqueue := hnext.queue
  have hrelaxed := hnext.relaxations_le
  have hexamined := hnext.examined
  have hlength : (UInt64.ofNat (s.relaxed h u d arc).queue.length).toNat
      = (s.relaxed h u d arc).queue.length := by
    unfold maxArcCount at hbound
    exact UInt64.toNat_ofNat_of_lt' (by simp only [UInt64.size]; omega)
  have hmax := congrArg UInt64.toNat heq
  rw [toNat_max, hlength] at hmax
  rcases le_total (s.relaxed h u d arc).queue.length s.stats.maxQueueSize.toNat with hle | hle
  · rw [max_eq_left hle] at hmax
    exact Or.inl (UInt64.toNat_inj.mp hmax)
  · rw [max_eq_right hle] at hmax
    exact Or.inr hmax.symm

theorem maxQueueSize_foldl_le (h : NodeId → F) (u : NodeId) (d : F) (row : List (Arc F))
    (s : SearchState F) :
    s.stats.maxQueueSize.toNat
      ≤ (row.foldl (SearchState.relaxed h u d) s).stats.maxQueueSize.toNat := by
  induction row generalizing s with
  | nil => exact le_rfl
  | cons arc row ih =>
      apply le_trans _ (ih (s.relaxed h u d arc))
      rcases s.maxQueueSize_relaxed h u d arc with heq | heq
      · rw [heq]
      · rw [heq, toNat_max]
        exact le_max_left _ _

/-- The counter is the size of the queue after some of the arcs, or the scan leaves it alone. -/
theorem exists_maxQueueSize_foldl {scanned : Nat} (h : NodeId → F) (u : NodeId) (d : F)
    (row : List (Arc F)) {s : SearchState F} (hs : s.Tallied scanned)
    (hbound : scanned + row.length ≤ maxArcCount) :
    (row.foldl (SearchState.relaxed h u d) s).stats.maxQueueSize = s.stats.maxQueueSize ∨
      ∃ done todo, row = done ++ todo ∧
        (done.foldl (SearchState.relaxed h u d) s).queue.length
          = (row.foldl (SearchState.relaxed h u d) s).stats.maxQueueSize.toNat := by
  induction row using List.reverseRecOn with
  | nil => exact Or.inl rfl
  | append_singleton row arc ih =>
      rw [List.length_append, List.length_singleton] at hbound
      set t := row.foldl (SearchState.relaxed h u d) s with ht
      have htally : t.Tallied (scanned + row.length) := hs.foldl_relaxed h u d row (by omega)
      have hfold : (row ++ [arc]).foldl (SearchState.relaxed h u d) s = t.relaxed h u d arc := by
        rw [List.foldl_append]
        rfl
      rw [hfold]
      rcases htally.maxQueueSize_relaxed (by omega) h u d arc with hsame | hsize
      · rw [hsame]
        rcases ih (by omega) with hsame' | ⟨done, todo, rfl, hsize⟩
        · exact Or.inl hsame'
        · exact Or.inr ⟨done, todo ++ [arc], by simp, hsize⟩
      · exact Or.inr ⟨row ++ [arc], [], by simp, by rw [hfold, hsize]⟩

end SearchState

namespace Rounds

theorem maxQueueSize_le (hg : g.OverArcs distance staged)
    (hest : ∀ v, g.contains v = true → estimate v = .ok (h v)) (hh : ∀ v, 0 ≤ h v)
    (hrun : Rounds g target estimate s es t) (hinv : SearchInv g source target h s closed) :
    s.stats.maxQueueSize.toNat ≤ t.stats.maxQueueSize.toNat := by
  refine hrun.invariant
    (P := fun s' _ => s.stats.maxQueueSize.toNat ≤ s'.stats.maxQueueSize.toNat) hg hest hh ?_ ?_
    hinv le_rfl
  · intro s' closed e rest _ _ _ hle
    exact hle
  · intro s' closed e rest _ _ _ _ hle
    exact hle.trans (SearchState.maxQueueSize_foldl_le h e.node _ _ (s'.opened e rest))

/-- **The counter is a size that the queue had**, by induction on the run. -/
theorem exists_maxQueueSize (hg : g.OverArcs distance staged)
    (hest : ∀ v, g.contains v = true → estimate v = .ok (h v)) (hh : ∀ v, 0 ≤ h v)
    (hrun : Rounds g target estimate s es t) (hinv : SearchInv g source target h s closed)
    (hs : s.Tallied (closed.flatMap g.arcsOut).length) :
    t.stats.maxQueueSize = s.stats.maxQueueSize ∨
      ∃ m, Passes g target estimate s m ∧ m.queue.length = t.stats.maxQueueSize.toNat := by
  induction hrun generalizing closed with
  | refl s => exact Or.inl rfl
  | @stale s s' t e es hround hrest ih =>
      have htally := (Rounds.stale hround (.refl s')).tallied hg hest hh hinv hs
      rcases hinv.of_stale hg hest hh hround with ⟨hnext, -⟩
      rcases hinv.cases_of_stale hg hest hround with ⟨rest, -, -, rfl⟩
      rcases ih hnext htally with hsame | ⟨m, hm, hsize⟩
      · exact Or.inl hsame
      · exact Or.inr ⟨m, hm.of_stale hround, hsize⟩
  | @expanded s s' t e es hround hrest ih =>
      have htally := (Rounds.expanded hround (.refl s')).tallied hg hest hh hinv hs
      rcases hinv.of_expanded hg hest hh hround with ⟨hchoose, hnext, -⟩
      rcases hinv.cases_of_expanded hg hest hround with ⟨rest, hpop, hset, hne, rfl⟩
      rcases ih hnext htally with hsame | ⟨m, hm, hsize⟩
      · -- the counter has grown in this round or before it
        rw [hsame]
        have hbound := hnext.length_arcsOut_le hg
        rw [List.flatMap_cons, List.length_append, Nat.add_comm, ← Graph.outDegree,
          hg.outDegree_eq hchoose.contains] at hbound
        have hopened := hs.opened (hinv.length_arcsOut_le hg) hpop
        rcases SearchState.exists_maxQueueSize_foldl h e.node ((s.opened e rest).label e.node)
          (rowOf staged e.node) hopened hbound with hsame' | ⟨done, todo, hrow, hsize⟩
        · exact Or.inl hsame'
        · refine Or.inr ⟨_, .scanned (.refl s) hpop hset hne
            ((hg.arcsFrom_eq hchoose.contains).trans (congrArg Except.ok hrow)) ?_, hsize⟩
          exact hinv.foldlM_relax_opened hg hest hrow
      · exact Or.inr ⟨m, hm.of_expanded hround, hsize⟩

end Rounds

/-- No state that a run passes through has a longer queue than the counter says at its end. -/
theorem Passes.queue_le (hg : g.OverArcs distance staged)
    (hest : ∀ v, g.contains v = true → estimate v = .ok (h v)) (hh : ∀ v, 0 ≤ h v)
    {s₀ m : SearchState F} (hm : Passes g target estimate s₀ m)
    (hinv : SearchInv g source target h s₀ []) (hs : s₀.Tallied 0)
    (hend : Rounds g target estimate s₀ es t)
    (hstop : ∀ e s', searchRound g target estimate t ≠ .ok (.stale e s') ∧
      searchRound g target estimate t ≠ .ok (.expanded e s')) :
    m.queue.length ≤ t.stats.maxQueueSize.toNat := by
  have hhead : ∀ {es : List (Expansion F)} {s : SearchState F},
      Rounds g target estimate s₀ es s →
      SearchInv g source target h s ((es.map Expansion.node).reverse ++ []) ∧
        s.Tallied (((es.map Expansion.node).reverse ++ []).flatMap g.arcsOut).length ∧
        ∃ es', Rounds g target estimate s es' t := by
    intro es s hrun
    rcases hend.prefix_of_ends hstop hrun with ⟨es', hrest, -⟩
    exact ⟨(hrun.keeps hg hest hh hinv).1, hrun.tallied hg hest hh hinv hs, es', hrest⟩
  cases hm with
  | head hrun =>
      rcases hhead hrun with ⟨hinv', htally, es', hrest⟩
      exact htally.queue_le.trans (hrest.maxQueueSize_le hg hest hh hinv')
  | opened hrun hpop hset =>
      rcases hhead hrun with ⟨hinv', htally, es', hrest⟩
      have hopened := htally.opened (hinv'.length_arcsOut_le hg) hpop
      have hle : _ ≤ t.stats.maxQueueSize.toNat := hrest.maxQueueSize_le hg hest hh hinv'
      exact hopened.queue_le.trans hle
  | @scanned es s m e rest done todo hrun hpop hset hne harcs hfold =>
      rcases hhead hrun with ⟨hinv', htally, es', hrest⟩
      have hchoose := hinv'.chooses hh hpop hset
      have hrow : rowOf staged e.node = done ++ todo := by
        rw [hg.arcsFrom_eq hchoose.contains] at harcs
        exact Except.ok.inj harcs
      rw [hinv'.foldlM_relax_opened hg hest hrow] at hfold
      obtain rfl := Except.ok.inj hfold
      -- the round ends with the whole row scanned, and the run goes on from there
      rcases hinv'.round_cases hg hest with ⟨hnil, -⟩ | ⟨e', rest', hpop', hr⟩
      · simp [hnil, Comparison.popTop] at hpop
      rw [hpop, Option.some.injEq, Prod.mk.injEq] at hpop'
      obtain ⟨rfl, rfl⟩ := hpop'
      rcases hr with ⟨hset', -⟩ | ⟨-, htarget, -⟩ | ⟨-, -, hround⟩
      · rw [hset] at hset'
        cases hset'
      · exact absurd htarget hne
      have hnext := (hinv'.of_expanded hg hest hh hround).2.1
      have hbound := hnext.length_arcsOut_le hg
      rw [List.flatMap_cons, List.length_append, Nat.add_comm, ← Graph.outDegree,
        hg.outDegree_eq hchoose.contains, hrow, List.length_append] at hbound
      have hopened := htally.opened (hinv'.length_arcsOut_le hg) hpop
      have hdone := hopened.foldl_relaxed h e.node ((s.opened e rest).label e.node) done (by omega)
      rcases hend.prefix_of_ends hstop hrun with ⟨es'', hrest', -⟩
      cases hrest' with
      | refl => exact absurd hround (hstop _ _).2
      | stale hround' _ =>
          rw [hround] at hround'
          cases hround'
      | expanded hround' hlast =>
          rw [hround, Except.ok.injEq] at hround'
          cases hround'
          calc ((s.opened e rest).scan h e.node done).queue.length
              ≤ ((s.opened e rest).scan h e.node done).stats.maxQueueSize.toNat := hdone.queue_le
            _ ≤ (s.expand h staged e rest).stats.maxQueueSize.toNat := by
                rw [SearchState.expand, hrow]
                unfold SearchState.scan
                rw [List.foldl_append]
                exact SearchState.maxQueueSize_foldl_le h e.node _ todo _
            _ ≤ t.stats.maxQueueSize.toNat := hlast.maxQueueSize_le hg hest hh hnext

end

/-! ## The counters of a search -/

/-- **What the counters say** of a search that enters its main loop in `s₀`, leaves it in `t`,
returns `result` and settles `settled`. -/
structure CountersExact [LinearOrder F] [OrderTop F] [Zero F] [Add F] (g : Graph F)
    (source target : NodeId) (estimate : NodeId → Outcome F) (s₀ t : SearchState F)
    (result : SearchResult F) (settled : List NodeId) : Prop where
  stats : result.stats = t.stats
  pops_le : result.stats.pqPops.toNat ≤ g.arcCount + 1
  pushes : result.stats.pqPushes.toNat = 1 + result.stats.relaxations.toNat
  pops : result.stats.pqPops.toNat
    = result.stats.nodesExpanded.toNat + result.stats.stalePops.toNat
  queue : result.stats.pqPushes.toNat = result.stats.pqPops.toNat + t.queue.length
  /-- every arc is examined at most once -/
  examined : ∃ arcs, g.arcList = .ok arcs ∧
    ((settled.filter (· ≠ target)).flatMap g.arcsOut).Subperm arcs ∧
    result.stats.arcsExamined.toNat = ((settled.filter (· ≠ target)).flatMap g.arcsOut).length
  relaxations_le : result.stats.relaxations.toNat ≤ result.stats.arcsExamined.toNat
  arcsExamined_le : result.stats.arcsExamined.toNat ≤ g.arcCount
  nodesExpanded : settled.Nodup ∧ result.stats.nodesExpanded.toNat = settled.length
  nodesExpanded_le : result.stats.nodesExpanded.toNat ≤ g.nodeCount
  maxQueueSize : IsGreatest {n | ∃ s, Passes g target estimate s₀ s ∧ s.queue.length = n}
    result.stats.maxQueueSize.toNat
  found : result.status = .found →
    result.stats.arcsExamined.toNat = ((settled.filter (· ≠ target)).map g.outDegree).sum
  unreachable : result.status = .unreachable →
    result.stats.pqPops = result.stats.pqPushes ∧
    ∃ reached : Finset NodeId, (∀ v, v ∈ reached ↔ Digraph.Reachable g.HasArc source v) ∧
      result.stats.nodesExpanded.toNat = reached.card ∧
      result.stats.arcsExamined.toNat = ∑ v ∈ reached, g.outDegree v

section

variable [LinearOrder F] [OrderTop F] [Zero F] [Add F] [Div F]
variable {distance : Coord F → Coord F → F} {g : Graph F} {staged : List (StagedArc F)}
variable {source target : NodeId} {estimate : NodeId → Outcome F} {h : NodeId → F}

/-- The laws follow from the tally of the state in which the loop ends. -/
theorem CountersExact.of_tallied (hg : g.OverArcs distance staged) {s₀ t : SearchState F}
    {result : SearchResult F} {settled : List NodeId} (hstats : result.stats = t.stats)
    (hnodup : settled.Nodup) (hcontains : ∀ v ∈ settled, g.contains v = true)
    (hcount : result.stats.nodesExpanded.toNat = settled.length)
    (htally : t.Tallied ((settled.filter (· ≠ target)).flatMap g.arcsOut).length)
    (hmax : IsGreatest {n | ∃ s, Passes g target estimate s₀ s ∧ s.queue.length = n}
      t.stats.maxQueueSize.toNat)
    (hunreachable : result.status = .unreachable → t.queue = [] ∧ target ∉ settled ∧
      ∀ v, v ∈ settled ↔ Digraph.Reachable g.HasArc source v) :
    CountersExact g source target estimate s₀ t result settled := by
  have hsubperm := hg.flatMap_arcsOut_subperm (hnodup.filter (· ≠ target))
    (fun v hv => hcontains v (List.mem_of_mem_filter hv))
  have hlength := hsubperm.length_le
  rw [← hg.arcCount_eq] at hlength
  have hpushes := htally.pushes
  have hqueue := htally.queue
  have hrelaxed := htally.relaxations_le
  have hexamined := htally.examined
  refine ⟨hstats, ?_, ?_, ?_, ?_, ⟨staged, hg.arcList_eq, hsubperm, ?_⟩, ?_, ?_,
    ⟨hnodup, hcount⟩, ?_, ?_, fun _ => ?_, fun hstatus => ?_⟩
  · rw [hstats]
    omega
  · rw [hstats]
    exact hpushes
  · rw [hstats]
    exact htally.pops
  · rw [hstats]
    exact hqueue
  · rw [hstats]
    exact hexamined
  · rw [hstats]
    exact hrelaxed
  · rw [hstats]
    omega
  · rw [hcount]
    exact length_le_nodeCount hnodup hcontains
  · rw [hstats]
    exact hmax
  · rw [hstats, hexamined, length_flatMap_arcsOut]
  · rcases hunreachable hstatus with ⟨hnil, htarget, hreach⟩
    have hall : settled.filter (· ≠ target) = settled := by
      apply List.filter_eq_self.mpr
      intro v hv
      apply decide_eq_true
      rintro rfl
      exact htarget hv
    refine ⟨?_, settled.toFinset, fun v => List.mem_toFinset.trans (hreach v), ?_, ?_⟩
    · rw [hstats, ← UInt64.toNat_inj, hqueue, hnil]
      rfl
    · rw [hcount, List.toFinset_card_of_nodup hnodup]
    · rw [hstats, hexamined, hall, length_flatMap_arcsOut, List.sum_toFinset _ hnodup]

variable [AddLeftMono F] [AddRightMono F] [WeightArith F]

/-- The state in which a run from the start ends: its tally is that of the arcs out of the
expanded nodes, which are nodes of the graph other than the target. -/
theorem Rounds.tallied_of_started (hg : g.OverArcs distance staged)
    (hest : ∀ v, g.contains v = true → estimate v = .ok (h v)) (hh : ∀ v, 0 ≤ h v)
    (hs : g.contains source = true) (hzero : (0 : F) ≠ ⊤) (hsource : 0 + h source = h source)
    {t : SearchState F} {es : List (Expansion F)}
    (hrun : Rounds g target estimate (SearchState.started g.nodeCount source h) es t) :
    SearchInv g source target h t (es.map Expansion.node).reverse ∧
      t.Tallied ((es.map Expansion.node).flatMap g.arcsOut).length ∧
      ((es.map Expansion.node).flatMap g.arcsOut).length ≤ maxArcCount ∧
      (∀ v ∈ es.map Expansion.node, v ≠ target) ∧
      ∀ v ∈ es.map Expansion.node, g.contains v = true := by
  have hstart := SearchInv.start target hs hzero hsource
  obtain ⟨hinv, -, -⟩ := hrun.keeps hg hest hh hstart
  have htally := hrun.tallied hg hest hh hstart (.started g.nodeCount source h)
  rw [List.append_nil] at hinv htally
  have hclosed : ((es.map Expansion.node).reverse.flatMap g.arcsOut).length
      = ((es.map Expansion.node).flatMap g.arcsOut).length :=
    ((List.reverse_perm _).flatMap_right _).length_eq
  have hbound := hinv.length_arcsOut_le hg
  rw [hclosed] at htally hbound
  refine ⟨hinv, htally, hbound, ?_, fun v hv => hinv.contains_of_mem (List.mem_reverse.mpr hv)⟩
  rintro v hv rfl
  exact hinv.target_open (List.mem_reverse.mpr hv)

/-- The counter of a complete run is the largest size of the queue. -/
theorem Rounds.isGreatest_maxQueueSize (hg : g.OverArcs distance staged)
    (hest : ∀ v, g.contains v = true → estimate v = .ok (h v)) (hh : ∀ v, 0 ≤ h v)
    (hs : g.contains source = true) (hzero : (0 : F) ≠ ⊤) (hsource : 0 + h source = h source)
    {t : SearchState F} {es : List (Expansion F)}
    (hrun : Rounds g target estimate (SearchState.started g.nodeCount source h) es t)
    (hstop : ∀ e s', searchRound g target estimate t ≠ .ok (.stale e s') ∧
      searchRound g target estimate t ≠ .ok (.expanded e s')) :
    IsGreatest {n | ∃ s, Passes g target estimate (SearchState.started g.nodeCount source h) s ∧
      s.queue.length = n} t.stats.maxQueueSize.toNat := by
  have hinv := SearchInv.start target hs hzero hsource
  have htally := SearchState.Tallied.started (F := F) g.nodeCount source h
  constructor
  · rcases hrun.exists_maxQueueSize hg hest hh hinv htally with hsame | hm
    · exact ⟨_, .head (.refl _), by rw [hsame]; rfl⟩
    · exact hm
  · rintro n ⟨m, hm, rfl⟩
    exact hm.queue_le hg hest hh hinv htally hrun hstop

end

/-- **The counters of every search**, whatever finite, non-negative heuristic guides it. The
main loop ends after at most one pop more than there are arcs. -/
theorem search_counters {K : Type} [Field K] [LinearOrder K] [IsStrictOrderedRing K]
    (distance : Coord (WithTop K) → Coord (WithTop K) → WithTop K)
    (std : Comparison.Sorter (GraphBuilder.stagedBefore (F := WithTop K)))
    (g : Graph (WithTop K)) (hg : g.Built distance std) (source target : NodeId)
    (hs : g.contains source = true) (ht : g.contains target = true)
    (estimate : NodeId → Outcome (WithTop K)) (h : NodeId → WithTop K)
    (hest : ∀ v, g.contains v = true → estimate v = .ok (h v)) (hh : ∀ v, 0 ≤ h v) :
    ∃ s₀ reached t result, searchStart g source estimate = .ok s₀ ∧
      searchLoop g target estimate (searchFuel g) s₀ = .ok (reached, t) ∧
      search g source target estimate = .ok result ∧
      CountersExact g source target estimate s₀ t result
        ((expansions g source target estimate).map Expansion.node) := by
  obtain ⟨staged, hover⟩ := hg.exists_overArcs
  obtain ⟨es', t', result, -, hinv', hsearch, hends⟩ :=
    search_outcome hover hest hh hs ht WithTop.zero_ne_top (zero_add _)
  have hcount := hends.toNat_nodesExpanded hover.nodes_le hinv'
  have hnodup := hends.nodup hinv'
  rw [← List.length_map (f := Expansion.node)] at hcount
  -- the loop itself
  have hstart := SearchInv.start (h := h) target hs WithTop.zero_ne_top (zero_add _)
  have hfuel := hover.remaining_lt_searchFuel source h
  obtain ⟨es, t, hrun, hend⟩ := hstart.run hover hest hh hfuel
  obtain ⟨hinv, htally, hbound, hopen, hcontains⟩ :=
    hrun.tallied_of_started hover hest hh hs WithTop.zero_ne_top (zero_add _)
  rw [List.append_nil] at hend
  have hkept : (es.map Expansion.node).filter (· ≠ target) = es.map Expansion.node :=
    List.filter_eq_self.mpr (fun v hv => decide_eq_true (hopen v hv))
  have hexp : expansions g source target estimate
      = settlingPops g target estimate (searchFuel g)
          (SearchState.started g.nodeCount source h) := by
    rw [expansions, searchStart_eq hs hest]
  rcases hend with ⟨hloop, hlast, hqueue, hpops⟩ | ⟨e, rest, hloop, hlast, hchoose, htarget, hpops⟩
  · -- the queue ran empty
    rcases search_eq_of_loop (searchStart_eq hs hest) hloop hsearch with ⟨hstats, -⟩
    refine ⟨_, _, _, result, searchStart_eq hs hest, hloop, hsearch, ?_⟩
    rw [hexp, hpops] at hcount hnodup ⊢
    refine .of_tallied hover hstats hnodup hcontains hcount (by rwa [hkept]) ?_ fun _ => ?_
    · refine hrun.isGreatest_maxQueueSize hover hest hh hs WithTop.zero_ne_top (zero_add _) ?_
      intro e s'
      simp [hlast]
    · refine ⟨hqueue, fun hv => hopen target hv rfl, fun v => ?_⟩
      rw [← hinv.explored.mem_closed_iff_reachable (v := v)
        (fun u v w c harc hc => WithTop.add_ne_top.mpr ⟨hc, hover.weight_ne_top harc⟩)
        WithTop.zero_ne_top (fun v hv => hinv.mem_closed_of_queue_nil hqueue hv)]
      exact List.mem_reverse.symm
  · -- the target was reached
    rcases search_eq_of_loop (searchStart_eq hs hest) hloop hsearch with ⟨hstats, hstatus⟩
    refine ⟨_, _, _, result, searchStart_eq hs hest, hloop, hsearch, ?_⟩
    have hnode : (t.expansion e).node = target := htarget
    rw [hexp, hpops, List.map_append, List.map_singleton, hnode] at hcount hnodup ⊢
    have hfilter : (es.map Expansion.node ++ [target]).filter (· ≠ target)
        = es.map Expansion.node := by
      rw [List.filter_append, hkept]
      simp
    rcases hinv.cases_of_reached hover hest hlast with ⟨hpop, -, -, -⟩
    refine .of_tallied hover hstats hnodup ?_ hcount ?_ ?_ fun hun => ?_
    · intro v hv
      rcases List.mem_append.mp hv with hv | hv
      · exact hcontains v hv
      · rwa [List.mem_singleton.mp hv]
    · rw [hfilter]
      exact htally.opened hbound hpop
    · refine hrun.isGreatest_maxQueueSize hover hest hh hs WithTop.zero_ne_top (zero_add _) ?_
      intro e s'
      simp [hlast]
    · rw [hstatus.mpr rfl] at hun
      cases hun

/-- On the road Dijkstra pops the three nodes and leaves the dear shortcut in the queue. -/
theorem search_counters_road :
    ∃ s₀ reached t result, searchStart road 0 zeroEstimate = .ok s₀ ∧
      searchLoop road 2 zeroEstimate (searchFuel road) s₀ = .ok (reached, t) ∧
      search road 0 2 zeroEstimate = .ok result ∧
      CountersExact road 0 2 zeroEstimate s₀ t result
        ((expansions road 0 2 zeroEstimate).map Expansion.node) :=
  search_counters taxicab.lift _ road road_built 0 2 rfl rfl zeroEstimate (fun _ => 0)
    (fun _ _ => rfl) (fun _ => le_rfl)

end RouteEngine
