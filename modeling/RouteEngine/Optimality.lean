import RouteEngine.Exact

set_option autoImplicit false

/-! # Optimality of the entry points

`dijkstra` and `astar_euclidean` as instances of `search`, and over exact arithmetic the
optimality of both on a graph that keeps the metric contract. -/

namespace RouteEngine

section

variable {F : Type} {g : Graph F} {source target : NodeId}

theorem requireValid_eq (role : String) {id : NodeId} (hid : g.contains id = true) :
    requireValid g id role = .ok () := by
  simp [requireValid, hid]

theorem requireValid_eq_ok_iff {role : String} {id : NodeId} :
    requireValid g id role = .ok () ↔ g.contains id = true := by
  unfold requireValid
  cases g.contains id <;> simp

/-- Each algorithm first checks its two nodes. -/
theorem valid_of_eq_ok {rest : Outcome (SearchResult F)} {result : SearchResult F}
    (h : (do
      requireValid g source "source"
      requireValid g target "target"
      rest) = .ok result) :
    g.contains source = true ∧ g.contains target = true := by
  obtain ⟨_, hs, h⟩ := bind_eq_ok.mp h
  obtain ⟨_, ht, -⟩ := bind_eq_ok.mp h
  exact ⟨requireValid_eq_ok_iff.mp hs, requireValid_eq_ok_iff.mp ht⟩

variable [Zero F] [Top F] [Add F] [LT F] [DecidableLT F] [BEq F]

theorem dijkstra_eq (hs : g.contains source = true) (ht : g.contains target = true) :
    dijkstra g source target = search g source target zeroEstimate := by
  simp [dijkstra, requireValid_eq _ hs, requireValid_eq _ ht]

theorem astarEuclidean_eq (distance : Coord F → Coord F → F) (hpass : g.metric.passes = true)
    (hs : g.contains source = true) (ht : g.contains target = true) :
    astarEuclidean distance g source target
      = search g source target
          (euclideanEstimate distance g (coordAt g.coordinates target)) := by
  simp [astarEuclidean, requireValid_eq _ hs, requireValid_eq _ ht, hpass, coordinate_eq ht]

/-- Two of the algorithms have the same body. -/
theorem runSearch_rule {distance : Coord F → Coord F → F} {source target : NodeId}
    {p : Outcome (SearchResult F) → Prop} (hdijkstra : p (dijkstra g source target))
    (algorithm : Algorithm)
    (heuclidean : algorithm = .astarEuclidean → p (astarEuclidean distance g source target)) :
    p (runSearch distance g source target algorithm) := by
  cases algorithm with
  | dijkstra => exact hdijkstra
  | astarZero => exact hdijkstra
  | astarEuclidean => exact heuclidean rfl

/-- `astar_euclidean` refuses a graph that violates the metric contract. -/
theorem runSearch_refused {distance : Coord F → Coord F → F} (hs : g.contains source = true)
    (ht : g.contains target = true) (hfails : g.metric.passes = false) :
    runSearch distance g source target .astarEuclidean
      = .error (heuristicContractError g.metric.violatingArcs) := by
  show astarEuclidean distance g source target = _
  simp [astarEuclidean, requireValid_eq _ hs, requireValid_eq _ ht, hfails]

/-- A search that returned was asked about two nodes, of a graph that its algorithm takes. -/
theorem of_runSearch_eq_ok {distance : Coord F → Coord F → F} {algorithm : Algorithm}
    {result : SearchResult F} (h : runSearch distance g source target algorithm = .ok result) :
    g.contains source = true ∧ g.contains target = true ∧
      (algorithm = .astarEuclidean → g.metric.passes = true) := by
  have hvalid : g.contains source = true ∧ g.contains target = true := by
    cases algorithm with
    | dijkstra => exact valid_of_eq_ok h
    | astarZero => exact valid_of_eq_ok h
    | astarEuclidean => exact valid_of_eq_ok h
  refine ⟨hvalid.1, hvalid.2, ?_⟩
  rintro rfl
  by_contra hfails
  rw [runSearch_refused hvalid.1 hvalid.2 (by simpa using hfails)] at h
  cases h

end

/-- Dijkstra finds least costs in every weight arithmetic. -/
theorem dijkstra_least {F : Type} [LinearOrder F] [OrderTop F] [Zero F] [Add F] [AddLeftMono F]
    [AddRightMono F] [WeightArith F] [Div F] {distance : Coord F → Coord F → F} {g : Graph F}
    {staged : List (StagedArc F)} {source target : NodeId} (hg : g.OverArcs distance staged)
    (hs : g.contains source = true) (ht : g.contains target = true) (hzero : (0 : F) ≠ ⊤) :
    ∃ result, dijkstra g source target = .ok result ∧
      IsLeast (insert ⊤ {c | Digraph.WalkCost g.HasArc source target c}) result.cost ∧
      (result.status = .found ↔ result.cost ≠ ⊤) ∧
      ((expansions g source target zeroEstimate).map Expansion.node).Nodup := by
  rw [dijkstra_eq hs ht]
  exact search_least hg (fun _ _ => rfl) (zeroHeuristic hg) hs ht hzero
    (WeightArith.add_zero 0)

section

variable {K : Type} [Field K] [LinearOrder K]
variable {distance : Coord (WithTop K) → Coord (WithTop K) → WithTop K}
variable {g : Graph (WithTop K)} {staged : List (StagedArc (WithTop K))}
variable {source target : NodeId}

/-- Over exact arithmetic no walk costs `⊤`. -/
theorem walkCost_ne_top (hg : g.OverArcs distance staged) {v : NodeId} {c : WithTop K}
    (hc : Digraph.WalkCost g.HasArc source v c) : c ≠ ⊤ :=
  hc.induct (P := fun _ c => c ≠ ⊤) WithTop.zero_ne_top
    (fun _ hu harc => WithTop.add_ne_top.mpr ⟨hu, hg.weight_ne_top harc⟩)

/-- The least cost is finite exactly when the target can be reached, and it is then a least
cost of walks. -/
theorem ne_top_iff_reachable (hg : g.OverArcs distance staged) {cost : WithTop K}
    (hleast : IsLeast (insert ⊤ {c | Digraph.WalkCost g.HasArc source target c}) cost) :
    (cost ≠ ⊤ ↔ Digraph.Reachable g.HasArc source target) ∧
      (cost ≠ ⊤ → IsLeast {c | Digraph.WalkCost g.HasArc source target c} cost) := by
  refine ⟨⟨fun hne => ?_, fun hr => ?_⟩, fun hne => ⟨?_, fun c hc => hleast.2 (Or.inr hc)⟩⟩
  · exact (hleast.1.resolve_left hne).reachable
  · obtain ⟨c, hc⟩ := Digraph.reachable_iff_exists_walkCost.mp hr
    exact ne_top_of_le_ne_top (walkCost_ne_top hg hc) (hleast.2 (Or.inr hc))
  · exact hleast.1.resolve_left hne

/-- `astar_euclidean` finds least costs on a graph that keeps the metric contract. -/
theorem astarEuclidean_least [IsStrictOrderedRing K] {d : PlaneDistance K}
    (hg : g.OverArcs d.lift staged) (hpass : g.metric.passes = true)
    (hs : g.contains source = true) (ht : g.contains target = true) :
    ∃ result, astarEuclidean d.lift g source target = .ok result ∧
      IsLeast (insert ⊤ {c | Digraph.WalkCost g.HasArc source target c}) result.cost ∧
      (result.status = .found ↔ result.cost ≠ ⊤) ∧
      ((expansions g source target
        (euclideanEstimate d.lift g (coordAt g.coordinates target))).map Expansion.node).Nodup := by
  rw [astarEuclidean_eq d.lift hpass hs ht]
  exact search_least hg (fun v hv => euclideanEstimate_eq hv)
    (straightLine_consistent hg hpass target) hs ht WithTop.zero_ne_top (zero_add _)

/-- The result tells whether there is a route, and if so it holds one of least cost. -/
structure SearchResult.Answers (g : Graph (WithTop K)) (source target : NodeId)
    (result : SearchResult (WithTop K)) : Prop where
  found_iff : result.status = .found ↔ Digraph.Reachable g.HasArc source target
  least : IsLeast (insert ⊤ {c | Digraph.WalkCost g.HasArc source target c}) result.cost
  walk : result.status = .found → ∃ before, result.path = (target :: before).reverse ∧
    Digraph.Walk g.HasArc source before target result.cost

/-- A reported route costs the least. -/
theorem SearchResult.Answers.isLeast {result : SearchResult (WithTop K)}
    (h : result.Answers g source target) (hfound : result.status = .found) :
    IsLeast {c | Digraph.WalkCost g.HasArc source target c} result.cost := by
  obtain ⟨before, -, hwalk⟩ := h.walk hfound
  exact ⟨⟨before, hwalk⟩, fun c hc => h.least.2 (Or.inr hc)⟩

/-- Over exact arithmetic a consistent heuristic answers every query. -/
theorem search_answers [IsStrictOrderedRing K] (hg : g.OverArcs distance staged)
    {estimate : NodeId → Outcome (WithTop K)} {h : NodeId → WithTop K}
    (hest : ∀ v, g.contains v = true → estimate v = .ok (h v)) (hh : ConsistentHeuristic g h)
    (hs : g.contains source = true) (ht : g.contains target = true) :
    ∃ result, search g source target estimate = .ok result ∧ result.Answers g source target := by
  obtain ⟨es, t, result, hsearch, hend, -, hends⟩ :=
    search_guided hg hest hh hs ht WithTop.zero_ne_top (zero_add _)
  have hfound := found_iff_reachable hg (fun a b ha hb => WithTop.add_ne_top.mpr ⟨ha, hb⟩)
    WithTop.zero_ne_top hend.inv hends
  obtain ⟨result', hsearch', hleast, -⟩ :=
    search_least hg hest hh hs ht WithTop.zero_ne_top (zero_add _)
  obtain rfl : result = result' := by
    rw [hsearch] at hsearch'
    exact Except.ok.inj hsearch'
  refine ⟨result, hsearch, hfound, hleast, ?_⟩
  rcases hends with ⟨-, rfl, -⟩ | ⟨e, rest, path, hchoose, rfl, hpath, -, rfl, -⟩
  · simp
  · intro _
    obtain ⟨before, rfl, hwalk⟩ := hend.inv.explored.walk_of_path hpath hchoose.labelled
    exact ⟨before, rfl, hwalk⟩

/-- **Every algorithm answers every query** on a graph that keeps the metric contract, and the
two that use no distance do so on every graph. -/
theorem runSearch_answers [IsStrictOrderedRing K] {d : PlaneDistance K}
    (hg : g.OverArcs d.lift staged) (hs : g.contains source = true)
    (ht : g.contains target = true) (algorithm : Algorithm)
    (hpass : algorithm = .astarEuclidean → g.metric.passes = true) :
    ∃ result, runSearch d.lift g source target algorithm = .ok result ∧
      result.Answers g source target := by
  apply runSearch_rule (p := fun outcome => ∃ result, outcome = .ok result ∧
    result.Answers g source target)
  · rw [dijkstra_eq hs ht]
    exact search_answers hg (fun _ _ => rfl) (zeroHeuristic hg) hs ht
  · intro halgorithm
    rw [astarEuclidean_eq d.lift (hpass halgorithm) hs ht]
    exact search_answers hg (fun v hv => euclideanEstimate_eq hv)
      (straightLine_consistent hg (hpass halgorithm) target) hs ht

/-- Over exact arithmetic every search tells whether the target can be reached. -/
theorem search_tells_reachable [IsStrictOrderedRing K] (hg : g.OverArcs distance staged)
    {estimate : NodeId → Outcome (WithTop K)} {h : NodeId → WithTop K}
    (hest : ∀ v, g.contains v = true → estimate v = .ok (h v)) (hh : ∀ v, 0 ≤ h v)
    (hs : g.contains source = true) (ht : g.contains target = true) :
    ∃ result, search g source target estimate = .ok result ∧
      (result.status = .found ↔ Digraph.Reachable g.HasArc source target) := by
  obtain ⟨es, t, result, -, hinv, hsearch, hends⟩ :=
    search_outcome hg hest hh hs ht WithTop.zero_ne_top (zero_add _)
  exact ⟨result, hsearch, found_iff_reachable hg
    (fun a b ha hb => WithTop.add_ne_top.mpr ⟨ha, hb⟩) WithTop.zero_ne_top hinv hends⟩

/-- So does every algorithm on a graph that keeps the metric contract, whatever non-negative
distance the contract speaks of. -/
theorem runSearch_tells_reachable [IsStrictOrderedRing K] (hg : g.OverArcs distance staged)
    (hdistance : ∀ p q, 0 ≤ distance p q) (hpass : g.metric.passes = true)
    (hs : g.contains source = true) (ht : g.contains target = true) (algorithm : Algorithm) :
    ∃ result, runSearch distance g source target algorithm = .ok result ∧
      (result.status = .found ↔ Digraph.Reachable g.HasArc source target) := by
  apply runSearch_rule (p := fun outcome => ∃ result, outcome = .ok result ∧
    (result.status = .found ↔ Digraph.Reachable g.HasArc source target))
  · rw [dijkstra_eq hs ht]
    exact search_tells_reachable hg (h := fun _ => 0) (fun _ _ => rfl) (fun _ => le_rfl) hs ht
  · intro _
    rw [astarEuclidean_eq distance hpass hs ht]
    have hest : ∀ v, g.contains v = true →
        euclideanEstimate distance g (coordAt g.coordinates target) v
          = .ok (distance (coordAt g.coordinates v) (coordAt g.coordinates target)) := by
      intro v hv
      unfold euclideanEstimate
      rw [coordinate_eq hv]
      rfl
    exact search_tells_reachable hg hest (fun v => hdistance _ _) hs ht

end

/-- **A* with the straight-line heuristic is optimal on a graph that keeps the metric
contract**: it finds a route exactly when there is one, at the least cost of a walk, with the
status and cost of Dijkstra, and settles no node twice. -/
theorem astarEuclidean_optimal {K : Type} [Field K] [LinearOrder K] [IsStrictOrderedRing K]
    (d : PlaneDistance K)
    (std : Comparison.Sorter (GraphBuilder.stagedBefore (F := WithTop K)))
    (g : Graph (WithTop K)) (hg : g.Built d.lift std) (hpass : g.metric.passes = true)
    (source target : NodeId) (hs : g.contains source = true) (ht : g.contains target = true) :
    ∃ result reference, astarEuclidean d.lift g source target = .ok result ∧
      dijkstra g source target = .ok reference ∧
      (result.status = .found ↔ Digraph.Reachable g.HasArc source target) ∧
      (result.status = .found →
        IsLeast {c | Digraph.WalkCost g.HasArc source target c} result.cost) ∧
      result.status = reference.status ∧ result.cost = reference.cost ∧
      ((expansions g source target
        (euclideanEstimate d.lift g (coordAt g.coordinates target))).map Expansion.node).Nodup := by
  obtain ⟨staged, hover⟩ := hg.exists_overArcs
  obtain ⟨result, hresult, hleast, hfound, hnodup⟩ := astarEuclidean_least hover hpass hs ht
  obtain ⟨reference, hreference, hleast', hfound', -⟩ :=
    dijkstra_least hover hs ht WithTop.zero_ne_top
  have hcost : result.cost = reference.cost := hleast.unique hleast'
  obtain ⟨hreach, hmin⟩ := ne_top_iff_reachable hover hleast
  refine ⟨result, reference, hresult, hreference, hfound.trans hreach,
    fun hf => hmin (hfound.mp hf), SearchStatus.eq_of_found_iff ?_, hcost, hnodup⟩
  rw [hfound, hfound', hcost]

/-- On the road the route of cost `2` goes through the middle. -/
theorem astarEuclidean_optimal_road :
    ∃ result reference, astarEuclidean taxicab.lift road 0 2 = .ok result ∧
      dijkstra road 0 2 = .ok reference ∧ result.status = reference.status ∧
      result.cost = reference.cost ∧
      IsLeast {c | Digraph.WalkCost road.HasArc 0 2 c} result.cost := by
  obtain ⟨result, reference, hresult, hreference, -, hleast, hstatus, hcost, -⟩ :=
    astarEuclidean_optimal taxicab _ road road_built rfl 0 2 rfl rfl
  refine ⟨result, reference, hresult, hreference, hstatus, hcost, hleast ?_⟩
  have hrun : astarEuclidean taxicab.lift road 0 2
      = .ok ⟨.found, 2, [0, 1, 2], ⟨4, 3, 0, 3, 4, 3, 2⟩⟩ := by
    decide +kernel
  rw [hrun, Except.ok.injEq] at hresult
  rw [← hresult]

end RouteEngine
