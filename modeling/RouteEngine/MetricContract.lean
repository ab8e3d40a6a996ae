import RouteEngine.Expansions

set_option autoImplicit false

/-! # What the metric contract is worth

Over exact arithmetic the verdict of the metric report, the consistency of the straight line for
every target and its admissibility for every target are the same thing (`metricContract_iff`). So
`astar_euclidean` refuses a graph exactly when its heuristic would overestimate somewhere. -/

namespace RouteEngine

variable {K : Type} [Field K] [LinearOrder K]
variable {d : PlaneDistance K} {g : Graph (WithTop K)} {staged : List (StagedArc (WithTop K))}
variable {source target u v : NodeId}

/-- Along every arc the estimate for `target` drops by at most the weight. -/
def Graph.ConsistentFor (d : PlaneDistance K) (g : Graph (WithTop K)) (target : NodeId) : Prop :=
  ∀ u v w, g.HasArc u v w → ∃ hu hv : K,
    euclideanEstimate d.lift g (coordAt g.coordinates target) u = .ok ↑hu ∧
    euclideanEstimate d.lift g (coordAt g.coordinates target) v = .ok ↑hv ∧
    ((hu - hv : K) : WithTop K) ≤ w

/-- The estimate for `target` is at most the least cost, at every node from which the target can
be reached. -/
def Graph.AdmissibleFor (d : PlaneDistance K) (g : Graph (WithTop K)) (target : NodeId) : Prop :=
  ∀ u, g.contains u = true → Digraph.Reachable g.HasArc u target → ∃ (hu : K) (c : WithTop K),
    euclideanEstimate d.lift g (coordAt g.coordinates target) u = .ok ↑hu ∧
    g.MinCost u target c ∧ (hu : WithTop K) ≤ c

/-- The straight line between two nodes, as a scalar of the field. -/
def segment (d : PlaneDistance K) (g : Graph (WithTop K)) (target v : NodeId) : K :=
  d.dist (coordAt g.coordinates v).finite (coordAt g.coordinates target).finite

theorem segment_self (v : NodeId) : segment d g v v = 0 := d.self _

theorem euclideanEstimate_eq_segment (hv : g.contains v = true) :
    euclideanEstimate d.lift g (coordAt g.coordinates target) v
      = .ok ((segment d g target v : K) : WithTop K) :=
  euclideanEstimate_eq hv

/-- The report passes when no arc is shorter than the line between its endpoints. -/
theorem Graph.OverArcs.passes_iff (hg : g.OverArcs d.lift staged) :
    g.metric.passes = true ↔ ∀ u v w, g.HasArc u v w → ((segment d g v u : K) : WithTop K) ≤ w := by
  rw [hg.metric_eq, canonicalReport_passes_iff]
  constructor
  · intro h u v w harc
    exact h _ ((hg.hasArc_iff u v w).mp harc)
  · intro h a ha
    exact h a.source a.target a.weight ((hg.hasArc_iff _ _ _).mpr ha)

variable [IsStrictOrderedRing K]

theorem coe_sub_le_iff {a b : K} {w : WithTop K} :
    ((a - b : K) : WithTop K) ≤ w ↔ (a : WithTop K) ≤ w + b := by
  cases w with
  | top => simp
  | coe w =>
      rw [← WithTop.coe_add, WithTop.coe_le_coe, WithTop.coe_le_coe]
      exact sub_le_iff_le_add

/-- **The contract is consistency for every target.** -/
theorem passes_iff_consistentFor (hg : g.OverArcs d.lift staged) :
    g.metric.passes = true ↔ ∀ target, g.contains target = true → g.ConsistentFor d target := by
  constructor
  · intro hpass target _ u v w harc
    rcases hg.contains_of_hasArc harc with ⟨hu, hv⟩
    refine ⟨_, _, euclideanEstimate_eq_segment hu, euclideanEstimate_eq_segment hv, ?_⟩
    rw [coe_sub_le_iff]
    have hle := (straightLine_consistent hg hpass target).consistent harc 0
    rwa [zero_add, zero_add] at hle
  · rw [hg.passes_iff]
    intro hcons u v w harc
    rcases hg.contains_of_hasArc harc with ⟨hu, hv⟩
    -- the end of the arc is the target for which it matters
    rcases hcons v hv u v w harc with ⟨hu', hv', heu, hev, hle⟩
    rw [euclideanEstimate_eq_segment hu, Except.ok.injEq, WithTop.coe_inj] at heu
    rw [euclideanEstimate_eq_segment hv, segment_self, Except.ok.injEq, WithTop.coe_inj] at hev
    subst heu hev
    rwa [sub_zero] at hle

omit [IsStrictOrderedRing K] in
/-- A consistent estimate is at most the cost of every walk to its target. -/
theorem ConsistentHeuristic.le_walkCost {h : NodeId → WithTop K} (hh : ConsistentHeuristic g h)
    (hzero : h target = 0) {c : WithTop K} (hw : Digraph.WalkCost g.HasArc u target c) :
    h u ≤ c := by
  have hle : h u ≤ c + h target := by
    refine hw.induct (P := fun v c => h u ≤ c + h v) ?_ fun {v x c w} _ hle harc => ?_
    · rw [zero_add]
    · calc h u ≤ c + h v := hle
        _ ≤ c + w + h x := hh.consistent harc c
  rwa [hzero, add_zero] at hle

/-- Where a walk leads there is a least cost. -/
theorem Graph.OverArcs.exists_minCost (hg : g.OverArcs d.lift staged)
    (hs : g.contains source = true) (ht : g.contains target = true)
    (hreach : Digraph.Reachable g.HasArc source target) : ∃ c, g.MinCost source target c := by
  rcases dijkstra_least hg hs ht WithTop.zero_ne_top with ⟨result, -, hleast, -⟩
  rcases ne_top_iff_reachable hg hleast with ⟨hfinite, hmin⟩
  exact ⟨_, hmin (hfinite.mpr hreach)⟩

/-- **The contract is admissibility for every target.** -/
theorem passes_iff_admissibleFor (hg : g.OverArcs d.lift staged) :
    g.metric.passes = true ↔ ∀ target, g.contains target = true → g.AdmissibleFor d target := by
  constructor
  · intro hpass target ht u hu hreach
    rcases hg.exists_minCost hu ht hreach with ⟨c, hc⟩
    exact ⟨_, c, euclideanEstimate_eq_segment hu, hc,
      (straightLine_consistent hg hpass target).le_walkCost (d.lift_self _) hc.1⟩
  · rw [hg.passes_iff]
    intro hadm u v w harc
    rcases hg.contains_of_hasArc harc with ⟨hu, hv⟩
    -- a violating arc is a walk that costs less than the line to its end
    have hwalk : Digraph.WalkCost g.HasArc u v (0 + w) := Digraph.walkCost_nil.snoc harc
    rcases hadm v hv u hu hwalk.reachable with ⟨hu', c, heu, hc, hle⟩
    rw [euclideanEstimate_eq_segment hu, Except.ok.injEq, WithTop.coe_inj] at heu
    subst heu
    calc ((segment d g v u : K) : WithTop K) ≤ c := hle
      _ ≤ 0 + w := hc.2 hwalk
      _ = w := zero_add w

/-- `astar_euclidean` refuses exactly the graphs whose report does not pass. -/
theorem astarEuclidean_refuses_iff (hg : g.OverArcs d.lift staged)
    (hs : g.contains source = true) (ht : g.contains target = true) :
    (∃ message, astarEuclidean d.lift g source target = .error (.heuristicContract message)) ↔
      ¬ g.metric.passes = true := by
  constructor
  · rintro ⟨message, hrefused⟩ hpass
    rcases astarEuclidean_least hg hpass hs ht with ⟨result, hresult, -⟩
    rw [hrefused] at hresult
    cases hresult
  · intro hfails
    exact ⟨_, runSearch_refused hs ht (Bool.not_eq_true _ ▸ hfails)⟩

/-- **The contract holds exactly when the heuristic can be trusted**: the report passes, the
straight line is consistent for every target, and it is admissible for every target. The graphs
that `astar_euclidean` refuses are those on which it overestimates for some target. -/
theorem metricContract_iff {K : Type} [Field K] [LinearOrder K] [IsStrictOrderedRing K]
    (d : PlaneDistance K)
    (std : Comparison.Sorter (GraphBuilder.stagedBefore (F := WithTop K)))
    (g : Graph (WithTop K)) (hg : g.Built d.lift std) :
    (g.metric.passes = true ↔ ∀ t, g.contains t = true → g.ConsistentFor d t) ∧
    (g.metric.passes = true ↔ ∀ t, g.contains t = true → g.AdmissibleFor d t) ∧
    ∀ source target, g.contains source = true → g.contains target = true →
      ((∃ message, astarEuclidean d.lift g source target
          = .error (.heuristicContract message)) ↔
        ∃ t, g.contains t = true ∧ ¬ g.AdmissibleFor d t) := by
  rcases hg.exists_overArcs with ⟨staged, hover⟩
  refine ⟨passes_iff_consistentFor hover, passes_iff_admissibleFor hover,
    fun source target hs ht => ?_⟩
  rw [astarEuclidean_refuses_iff hover hs ht, passes_iff_admissibleFor hover]
  simp only [not_forall, exists_prop]

/-- The road keeps the contract. -/
theorem metricContract_iff_road :
    (∀ t, road.contains t = true → road.ConsistentFor taxicab t) ∧
      (∀ t, road.contains t = true → road.AdmissibleFor taxicab t) ∧
      ¬ ∃ message, astarEuclidean taxicab.lift road 0 2
        = .error (.heuristicContract message) := by
  rcases metricContract_iff taxicab _ road road_built with ⟨hcons, hadm, hrefused⟩
  refine ⟨hcons.mp rfl, hadm.mp rfl, fun hmessage => ?_⟩
  rcases (hrefused 0 2 rfl rfl).mp hmessage with ⟨t, ht, hnot⟩
  exact hnot (hadm.mp rfl t ht)

end RouteEngine
