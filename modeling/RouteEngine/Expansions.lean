import RouteEngine.Optimality

set_option autoImplicit false

/-! # Which nodes a search expands

Over exact arithmetic and under a consistent heuristic, a search that reaches its target at
cost `C` expands every node whose least cost plus heuristic is below `C` and no node where it
is above. Applied to both heuristics this compares A* with Dijkstra. -/

namespace RouteEngine

/-- `c` is the least cost of a walk from `source` to `v`. -/
def Graph.MinCost {F : Type} [Zero F] [Add F] [LE F] (g : Graph F) (source v : NodeId) (c : F) :
    Prop :=
  IsLeast {c | Digraph.WalkCost g.HasArc source v c} c

/-- What a search that reaches `target` at cost `C` under the heuristic `h` expands. -/
structure ExpandsByCost {F : Type} [Zero F] [Add F] [LE F] [LT F] (g : Graph F)
    (source target : NodeId) (h : NodeId → F) (C : F) (expanded : List (Expansion F)) :
    Prop where
  /-- every expansion happens at the least cost of its node -/
  exact : ∀ e ∈ expanded,
    g.MinCost source e.node e.distance ∧ e.priority = e.distance + h e.node
  ordered : expanded.Pairwise (fun e f => e.priority ≤ f.priority)
  covers : ∀ v c, g.MinCost source v c → c + h v < C → v ∈ expanded.map Expansion.node
  target : target ∈ expanded.map Expansion.node
  bounded : ∀ e ∈ expanded, e.distance + h e.node ≤ C

section

variable {F : Type} [LinearOrder F] [OrderTop F] [Zero F] [Add F]
variable {g : Graph F} {source target : NodeId} {h : NodeId → F}
variable {t : SearchState F} {es : List (Expansion F)}

/-- The counter of expansions does not wrap. -/
theorem SearchState.Ends.toNat_nodesExpanded {result : SearchResult F}
    {expanded : List (Expansion F)} (hn : g.nodeCount ≤ maxSupportedNodeCount)
    (hinv : SearchInv g source target h t (es.map Expansion.node).reverse)
    (hends : t.Ends g source target h es result expanded) :
    result.stats.nodesExpanded.toNat = expanded.length := by
  have hlen := length_le_nodeCount hinv.explored.nodup (fun v hv => hinv.contains_of_mem hv)
  simp only [SearchState.toBestFirst, List.length_reverse, List.length_map] at hlen
  have hcount := hinv.expanded
  simp only [List.length_reverse, List.length_map] at hcount
  unfold maxSupportedNodeCount at hn
  have hnat : ∀ n : Nat, n ≤ g.nodeCount + 1 → (UInt64.ofNat n).toNat = n :=
    fun n hle => UInt64.toNat_ofNat_of_lt' (by simp only [UInt64.size]; omega)
  rcases hends with ⟨-, rfl, rfl⟩ | ⟨e, rest, path, -, -, -, -, rfl, rfl⟩
  · show t.stats.nodesExpanded.toNat = _
    rw [hcount]
    exact hnat _ (by omega)
  · show (t.stats.nodesExpanded + 1).toNat = _
    rw [hcount, List.length_append, List.length_singleton, ← hnat (es.length + 1) (by omega),
      UInt64.ofNat_add]
    rfl

/-- **What a guided search expands** when it chooses the target. -/
theorem GuidedEnd.expandsByCost [AddRightMono F] (hh : ConsistentHeuristic g h)
    (hzero : t.label target + h target = t.label target)
    (hend : GuidedEnd g source target h t (es.map Expansion.node).reverse)
    (hprio : ∀ e ∈ es, e.distance = t.label e.node ∧ e.priority = t.label e.node + h e.node)
    {e : Entry F} (hchoose : t.Chooses g h (es.map Expansion.node).reverse e)
    (htarget : e.node = target) :
    ExpandsByCost g source target h (t.label target) (es ++ [t.expansion e]) := by
  subst htarget
  have hclosed : ∀ x ∈ es, x.node ∈ (es.map Expansion.node).reverse :=
    fun x hx => List.mem_reverse.mpr (List.mem_map_of_mem hx)
  -- everything closed is below the target
  have hbelow : ∀ x ∈ es, t.label x.node + h x.node ≤ t.label e.node := by
    intro x hx
    rw [← hzero]
    exact hend.guided.frontier x.node (hclosed x hx) e.node hchoose.not_mem
  constructor
  · intro x hx
    rcases List.mem_append.mp hx with hx | hx
    · obtain ⟨hdist, hp⟩ := hprio x hx
      rw [hdist]
      exact ⟨hend.guided.isLeast hend.inv.explored (hclosed x hx), hp⟩
    · obtain rfl := List.mem_singleton.mp hx
      exact ⟨hend.isLeast_of_chooses hh hchoose, hchoose.priority_eq⟩
  · rw [List.pairwise_append]
    refine ⟨?_, by simp, fun x hx y hy => ?_⟩
    · have hordered := List.pairwise_map.mp (List.pairwise_reverse.mp hend.guided.ordered)
      refine hordered.imp_of_mem (fun {x y} hx hy hxy => ?_)
      rw [(hprio x hx).2, (hprio y hy).2]
      exact hxy
    · obtain rfl := List.mem_singleton.mp hy
      have hlast : (t.expansion e).priority = t.label e.node :=
        hchoose.priority_eq.trans hzero
      rw [(hprio x hx).2, hlast]
      exact hbelow x hx
  · intro v c hc hlt
    rw [← hzero] at hlt
    have hmem := hend.guided.mem_closed_of_lt (hh.consistent.from source) hend.inv.explored
      hchoose.minimal hc.1 hlt
    rw [List.map_append]
    exact List.mem_append_left _ (List.mem_reverse.mp hmem)
  · simp [SearchState.expansion]
  · intro x hx
    rcases List.mem_append.mp hx with hx | hx
    · rw [(hprio x hx).1]
      exact hbelow x hx
    · obtain rfl := List.mem_singleton.mp hx
      exact hzero.le

end

section

variable {K : Type} [Field K] [LinearOrder K] [IsStrictOrderedRing K]
variable {distance : Coord (WithTop K) → Coord (WithTop K) → WithTop K}
variable {g : Graph (WithTop K)} {staged : List (StagedArc (WithTop K))}
variable {source target : NodeId} {estimate : NodeId → Outcome (WithTop K)}
variable {h : NodeId → WithTop K}

/-- The expansions of a search under a consistent heuristic that is zero at the target. -/
theorem search_expansions (hg : g.OverArcs distance staged)
    (hest : ∀ v, g.contains v = true → estimate v = .ok (h v)) (hh : ConsistentHeuristic g h)
    (hs : g.contains source = true) (ht : g.contains target = true) (hzero : h target = 0) :
    ∃ result, search g source target estimate = .ok result ∧
      result.stats.nodesExpanded.toNat = (expansions g source target estimate).length ∧
      (∀ C, g.MinCost source target C →
        ExpandsByCost g source target h C (expansions g source target estimate)) ∧
      (¬ Digraph.Reachable g.HasArc source target → ∀ v,
        v ∈ (expansions g source target estimate).map Expansion.node ↔
          Digraph.Reachable g.HasArc source v) := by
  obtain ⟨es, t, result, hsearch, hend, hprio, hends⟩ :=
    search_guided hg hest hh hs ht WithTop.zero_ne_top (zero_add _)
  have hreach := found_iff_reachable hg (fun a b ha hb => WithTop.add_ne_top.mpr ⟨ha, hb⟩)
    WithTop.zero_ne_top hend.inv hends
  refine ⟨result, hsearch, hends.toNat_nodesExpanded hg.nodes_le hend.inv, ?_⟩
  rcases hends with ⟨hqueue, rfl, hexp⟩ | ⟨e, rest, path, hchoose, htarget, -, -, rfl, hexp⟩
  · -- the queue ran empty: the closed nodes are the reachable ones
    rw [hexp]
    refine ⟨fun C hC => ?_, fun _ v => ?_⟩
    · exact absurd (hreach.mpr hC.1.reachable) (by simp)
    · have hmem := hend.inv.explored.mem_closed_iff_reachable (v := v)
        (fun u v w c harc hc => WithTop.add_ne_top.mpr ⟨hc, hg.weight_ne_top harc⟩)
        WithTop.zero_ne_top (fun v hv => hend.inv.mem_closed_of_queue_nil hqueue hv)
      rw [← hmem]
      exact List.mem_reverse.symm
  · -- the target was chosen, at its least cost
    rw [hexp]
    refine ⟨fun C hC => ?_, fun hnot => absurd (hreach.mp rfl) hnot⟩
    have hcost : C = t.label target := by
      have hleast := hend.isLeast_of_chooses hh hchoose
      rw [htarget] at hleast
      exact hC.unique hleast
    rw [hcost]
    exact hend.expandsByCost hh (by rw [hzero, add_zero]) hprio hchoose htarget

omit [IsStrictOrderedRing K] in
/-- At a distance that separates points, the straight line from another point is positive. -/
theorem straightLine_pos {d : PlaneDistance K} (hsep : ∀ p q, d.dist p q = 0 → p = q)
    (hg : g.OverArcs d.lift staged) {v : NodeId} (hv : g.contains v = true)
    (ht : g.contains target = true) (hne : g.coordinate v ≠ g.coordinate target) :
    0 < straightLine d g target v := by
  have hfinite : ∀ u, g.contains u = true →
      (coordAt g.coordinates u).x ≠ ⊤ ∧ (coordAt g.coordinates u).y ≠ ⊤ := by
    intro u hu
    have hlt := (g.contains_iff u).mp hu
    have hmem : coordAt g.coordinates u ∈ g.coordinates := by
      rw [coordAt, List.getElem?_eq_getElem hlt]
      exact List.getElem_mem hlt
    obtain ⟨hx, hy⟩ := hg.coordinates_finite _ hmem
    exact ⟨(isFinite_eq_true_iff _).mp hx, (isFinite_eq_true_iff _).mp hy⟩
  refine lt_of_le_of_ne (d.lift_nonneg _ _) (fun heq => hne ?_)
  have hpoint := hsep _ _ (WithTop.coe_injective heq.symm)
  rw [coordinate_eq hv, coordinate_eq ht,
    Coord.eq_of_finite_eq (hfinite v hv) (hfinite target ht) hpoint]

end

/-- **A* expands no more than Dijkstra**, except for nodes at the coordinates of the target.
Both settle every node at its least cost, in the order of cost plus heuristic; both expand
every node below the cost of the target and none above it; and both expand exactly the
reachable nodes when the target is not one of them. -/
theorem astarEuclidean_expansions {K : Type} [Field K] [LinearOrder K] [IsStrictOrderedRing K]
    (d : PlaneDistance K) (hsep : ∀ p q, d.dist p q = 0 → p = q)
    (std : Comparison.Sorter (GraphBuilder.stagedBefore (F := WithTop K)))
    (g : Graph (WithTop K)) (hg : g.Built d.lift std) (hpass : g.metric.passes = true)
    (source target : NodeId) (hs : g.contains source = true) (ht : g.contains target = true) :
    ∃ result reference settled settledReference,
      astarEuclidean d.lift g source target = .ok result ∧
      dijkstra g source target = .ok reference ∧
      settled = expansions g source target
        (euclideanEstimate d.lift g (coordAt g.coordinates target)) ∧
      settledReference = expansions g source target zeroEstimate ∧
      result.stats.nodesExpanded.toNat = settled.length ∧
      reference.stats.nodesExpanded.toNat = settledReference.length ∧
      (∀ C, g.MinCost source target C →
        ExpandsByCost g source target (straightLine d g target) C settled ∧
        ExpandsByCost g source target (fun _ => 0) C settledReference ∧
        (∀ e ∈ settled, g.coordinate e.node ≠ g.coordinate target →
          e.node ∈ settledReference.map Expansion.node) ∧
        ((∀ v, g.contains v = true → v ≠ target → g.coordinate v ≠ g.coordinate target) →
          result.stats.nodesExpanded ≤ reference.stats.nodesExpanded)) ∧
      (¬ Digraph.Reachable g.HasArc source target → ∀ v,
        (v ∈ settled.map Expansion.node ↔ Digraph.Reachable g.HasArc source v) ∧
        (v ∈ settledReference.map Expansion.node ↔ Digraph.Reachable g.HasArc source v)) := by
  obtain ⟨staged, hover⟩ := hg.exists_overArcs
  have hh := straightLine_consistent hover hpass target
  have hest : ∀ v, g.contains v = true →
      euclideanEstimate d.lift g (coordAt g.coordinates target) v
        = .ok (straightLine d g target v) := fun v hv => euclideanEstimate_eq hv
  have hzero : ∀ v, g.contains v = true → zeroEstimate v = .ok (0 : WithTop K) :=
    fun _ _ => rfl
  obtain ⟨result, hresult, hcount, hlaw, hunreach⟩ :=
    search_expansions hover hest hh hs ht (d.lift_self _)
  obtain ⟨reference, hreference, hcount', hlaw', hunreach'⟩ :=
    search_expansions hover (h := fun _ => 0) hzero (zeroHeuristic hover) hs ht rfl
  have hnodup : ((expansions g source target
      (euclideanEstimate d.lift g (coordAt g.coordinates target))).map Expansion.node).Nodup := by
    obtain ⟨_, -, -, -, hnodup⟩ := search_least hover hest hh hs ht WithTop.zero_ne_top (zero_add _)
    exact hnodup
  refine ⟨result, reference, _, _, ?_, ?_, rfl, rfl, hcount, hcount', fun C hC => ?_,
    fun hnot v => ⟨hunreach hnot v, hunreach' hnot v⟩⟩
  · rw [astarEuclidean_eq d.lift hpass hs ht, hresult]
  · rw [dijkstra_eq hs ht, hreference]
  · have hA := hlaw C hC
    have hD := hlaw' C hC
    -- away from the target's coordinates the heuristic is positive, so the cost is below `C`
    have hsub : ∀ e ∈ expansions g source target
        (euclideanEstimate d.lift g (coordAt g.coordinates target)),
        g.coordinate e.node ≠ g.coordinate target →
        e.node ∈ (expansions g source target zeroEstimate).map Expansion.node := by
      intro e he hne
      obtain ⟨hmin, -⟩ := hA.exact e he
      have hv := hover.contains_of_walkCost hs hmin.1
      have hpos := straightLine_pos hsep hover hv ht hne
      refine hD.covers e.node e.distance hmin ?_
      rw [add_zero]
      calc e.distance
          < e.distance + straightLine d g target e.node :=
            by simpa using WithTop.add_lt_add_left (walkCost_ne_top hover hmin.1) hpos
        _ ≤ C := hA.bounded e he
    refine ⟨hA, hD, hsub, fun halone => ?_⟩
    have hincl : (expansions g source target
        (euclideanEstimate d.lift g (coordAt g.coordinates target))).map Expansion.node ⊆
        (expansions g source target zeroEstimate).map Expansion.node := by
      intro v hv
      obtain ⟨e, he, rfl⟩ := List.mem_map.mp hv
      by_cases heq : e.node = target
      · rw [heq]
        exact hD.target
      · have hc := hover.contains_of_walkCost hs (hA.exact e he).1.1
        exact hsub e he (halone e.node hc heq)
    have hle := (List.subperm_of_subset hnodup hincl).length_le
    rw [List.length_map, List.length_map] at hle
    rw [UInt64.le_iff_toNat_le, hcount, hcount']
    exact hle

theorem taxicab_separates : ∀ p q, taxicab.dist p q = 0 → p = q := by
  intro p q h
  have hsum : |q.x - p.x| + |q.y - p.y| = 0 := h
  have hx := abs_nonneg (q.x - p.x)
  have hy := abs_nonneg (q.y - p.y)
  have hx0 : q.x - p.x = 0 := abs_eq_zero.mp (by linarith)
  have hy0 : q.y - p.y = 0 := abs_eq_zero.mp (by linarith)
  cases p
  cases q
  exact Coord.mk.injEq _ _ _ _ ▸ ⟨(sub_eq_zero.mp hx0).symm, (sub_eq_zero.mp hy0).symm⟩

theorem road_minCost : road.MinCost 0 2 2 := by
  obtain ⟨staged, hover⟩ := road_built.exists_overArcs
  obtain ⟨result, hresult, hleast, -⟩ :=
    dijkstra_least hover (show road.contains 0 = true from rfl)
      (show road.contains 2 = true from rfl) WithTop.zero_ne_top
  have hrun : dijkstra road 0 2 = .ok ⟨.found, 2, [0, 1, 2], ⟨4, 3, 0, 3, 4, 3, 2⟩⟩ := by
    decide +kernel
  rw [hrun, Except.ok.injEq] at hresult
  subst hresult
  exact (ne_top_iff_reachable hover hleast).2 (by decide)

/-- On the road every point has one node. -/
theorem astarEuclidean_expansions_road :
    ∃ result reference, astarEuclidean taxicab.lift road 0 2 = .ok result ∧
      dijkstra road 0 2 = .ok reference ∧
      result.stats.nodesExpanded ≤ reference.stats.nodesExpanded := by
  obtain ⟨result, reference, _, _, hresult, hreference, -, -, -, -, hlaw, -⟩ :=
    astarEuclidean_expansions taxicab taxicab_separates _ road road_built rfl 0 2 rfl rfl
  obtain ⟨-, -, -, hle⟩ := hlaw 2 road_minCost
  refine ⟨result, reference, hresult, hreference, hle fun v hv hne => ?_⟩
  have hlt := (road.contains_iff v).mp hv
  have hcases : v = 0 ∨ v = 1 ∨ v = 2 := by
    simp only [← UInt32.toNat_inj]
    simp only [Graph.nodeCount, road, List.length_cons, List.length_nil] at hlt
    change v.toNat = 0 ∨ v.toNat = 1 ∨ v.toNat = 2
    omega
  rcases hcases with rfl | rfl | rfl
  · decide
  · decide
  · exact absurd rfl hne

end RouteEngine
