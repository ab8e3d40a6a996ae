import RouteEngine.Optimality
import RouteEngine.Library.Capped

set_option autoImplicit false

/-! # The searches at the limit of the arithmetic

Weights are at most the largest finite value `max`, and a sum beyond it is infinite, as in
IEEE arithmetic; sums within it are exact. The builder bounds every weight and no path, so the
searches tell whether the target can be reached exactly when some route stays within `max`. -/

namespace RouteEngine

variable {K : Type} [Field K] [LinearOrder K]
variable {max : {m : K // 0 ≤ m}}

/-- The quotient of finite values; a ratio to an infinite distance is zero. -/
instance : Div (Capped K max) where
  div a b := if a = ⊤ then ⊤ else if b = ⊤ then 0 else Capped.cap (a.value / b.value)

instance [IsStrictOrderedRing K] : WeightArith (Capped K max) where
  add_zero := Capped.add_zero
  le_add x _ hw := Capped.le_add x hw

/-- The distance of the plane, infinite beyond `max`. -/
def PlaneDistance.capped (d : PlaneDistance K) (max : {m : K // 0 ≤ m})
    (p q : Coord (Capped K max)) : Capped K max :=
  Capped.cap (d.dist ⟨p.x.value, p.y.value⟩ ⟨q.x.value, q.y.value⟩)

/-- An arc of the graph and its weight as a number. -/
def Graph.ExactArc (g : Graph (Capped K max)) (u v : NodeId) (w : K) : Prop :=
  w ≤ max.1 ∧ g.HasArc u v (Capped.cap w)

/-- Some route from `source` to `target` costs no more than the largest finite value, unless
there is none at all. -/
def Graph.WithinRange (g : Graph (Capped K max)) (source target : NodeId) : Prop :=
  Digraph.Reachable g.HasArc source target →
    ∃ c, c ≤ max.1 ∧ Digraph.WalkCost g.ExactArc source target c

/-- The searches return, and report a route exactly when there is one. -/
def Graph.TellsReachable (g : Graph (Capped K max)) (d : PlaneDistance K)
    (source target : NodeId) : Prop :=
  (∃ result, dijkstra g source target = .ok result ∧
    (result.status = .found ↔ Digraph.Reachable g.HasArc source target)) ∧
  (g.metric.passes = true → ∃ result, astarEuclidean (d.capped max) g source target = .ok result ∧
    (result.status = .found ↔ Digraph.Reachable g.HasArc source target))

section

variable [IsStrictOrderedRing K] {d : PlaneDistance K} {g : Graph (Capped K max)}
variable {distance : Coord (Capped K max) → Coord (Capped K max) → Capped K max}
variable {staged : List (StagedArc (Capped K max))} {source target : NodeId}

/-! ## Costs of walks -/

omit [IsStrictOrderedRing K] in
theorem exactArc_nonneg (hg : g.OverArcs distance staged) {u v : NodeId} {w : K}
    (harc : g.ExactArc u v w) : 0 ≤ w := by
  have hcap := hg.weight_nonneg harc.2
  rwa [Capped.zero_def, Capped.cap_le_cap_iff max.2] at hcap

theorem exactWalk_nonneg (hg : g.OverArcs distance staged) {v : NodeId} {c : K}
    (hw : Digraph.WalkCost g.ExactArc source v c) : 0 ≤ c :=
  hw.nonneg (fun _ _ _ harc _ => le_add_of_nonneg_right (exactArc_nonneg hg harc))

/-- **The cost of a walk is its exact cost, capped**, because weights are not negative. -/
theorem walkCost_iff_cap (hg : g.OverArcs distance staged) {v : NodeId} {a : Capped K max} :
    Digraph.WalkCost g.HasArc source v a ↔
      ∃ c, Digraph.WalkCost g.ExactArc source v c ∧ a = Capped.cap c := by
  constructor
  · intro hw
    refine hw.induct
      (P := fun v a => ∃ c, Digraph.WalkCost g.ExactArc source v c ∧ a = Capped.cap c)
      ⟨0, Digraph.walkCost_nil, rfl⟩ ?_
    rintro u v _ w - ⟨c, hu, rfl⟩ harc
    have hfin := hg.weight_ne_top harc
    have hexact : g.ExactArc u v w.value := by
      refine ⟨Capped.value_le hfin, ?_⟩
      rwa [Capped.cap_value hfin]
    refine ⟨c + w.value, hu.snoc hexact, ?_⟩
    rw [← Capped.cap_add_cap (exactWalk_nonneg hg hu) (exactArc_nonneg hg hexact),
      Capped.cap_value hfin]
  · rintro ⟨c, hw, rfl⟩
    refine hw.induct (P := fun v c => Digraph.WalkCost g.HasArc source v (Capped.cap c))
      Digraph.walkCost_nil ?_
    intro u v c w hu hcap harc
    rw [← Capped.cap_add_cap (exactWalk_nonneg hg hu) (exactArc_nonneg hg harc)]
    exact hcap.snoc harc.2

/-- Some walk has a finite cost exactly when some walk stays within the range. -/
theorem exists_finite_walkCost_iff (hg : g.OverArcs distance staged) {v : NodeId} :
    (∃ a, a ≠ ⊤ ∧ Digraph.WalkCost g.HasArc source v a) ↔
      ∃ c, c ≤ max.1 ∧ Digraph.WalkCost g.ExactArc source v c := by
  constructor
  · rintro ⟨a, ha, hw⟩
    obtain ⟨c, hc, rfl⟩ := (walkCost_iff_cap hg).mp hw
    exact ⟨c, Capped.cap_ne_top_iff.mp ha, hc⟩
  · rintro ⟨c, hle, hw⟩
    exact ⟨Capped.cap c, Capped.cap_ne_top_iff.mpr hle, (walkCost_iff_cap hg).mpr ⟨c, hw, rfl⟩⟩

/-! ## The verdicts -/

/-- Dijkstra finds a route exactly when one stays within the range. -/
theorem dijkstra_found_iff (hg : g.OverArcs distance staged) (hs : g.contains source = true)
    (ht : g.contains target = true) :
    ∃ result, dijkstra g source target = .ok result ∧
      (result.status = .found ↔ ∃ c, c ≤ max.1 ∧ Digraph.WalkCost g.ExactArc source target c) := by
  obtain ⟨result, hresult, hleast, hfound, -⟩ := dijkstra_least hg hs ht Capped.zero_ne_top
  refine ⟨result, hresult, ?_⟩
  rw [hfound, ← exists_finite_walkCost_iff hg]
  constructor
  · intro hne
    exact ⟨_, hne, hleast.1.resolve_left hne⟩
  · rintro ⟨a, ha, hw⟩
    exact ne_top_of_le_ne_top ha (hleast.2 (Or.inr hw))

/-- The straight-line distance to the target. -/
def cappedLine (d : PlaneDistance K) (g : Graph (Capped K max)) (target v : NodeId) :
    Capped K max :=
  d.capped max (coordAt g.coordinates v) (coordAt g.coordinates target)

/-- **The straight line is consistent along walks** on a graph that keeps the contract: where the
distance to the target overflows, so does the cost of the walk plus what is left. -/
theorem cappedLine_consistent (hg : g.OverArcs (d.capped max) staged)
    (hpass : g.metric.passes = true) (target : NodeId) :
    Digraph.ConsistentFrom g.HasArc source (cappedLine d g target) := by
  intro u v w c hu harc
  rw [hg.metric_eq, canonicalReport_passes_iff] at hpass
  have hweight : d.capped max (coordAt g.coordinates u) (coordAt g.coordinates v) ≤ w :=
    hpass _ ((hg.hasArc_iff u v w).mp harc)
  obtain ⟨c, hc, rfl⟩ := (walkCost_iff_cap hg).mp hu
  have hpos := exactWalk_nonneg hg hc
  have hfin := hg.weight_ne_top harc
  have hw := Capped.value_nonneg (hg.weight_nonneg harc)
  have hdist := Capped.le_value_of_cap_le hweight hfin
  rw [← Capped.cap_value hfin]
  unfold cappedLine PlaneDistance.capped
  rw [Capped.cap_add_cap hpos (d.nonneg _ _), Capped.cap_add_cap hpos hw,
    Capped.cap_add_cap (add_nonneg hpos hw) (d.nonneg _ _)]
  apply Capped.cap_mono
  have htriangle := d.triangle
    ⟨(coordAt g.coordinates u).x.value, (coordAt g.coordinates u).y.value⟩
    ⟨(coordAt g.coordinates v).x.value, (coordAt g.coordinates v).y.value⟩
    ⟨(coordAt g.coordinates target).x.value, (coordAt g.coordinates target).y.value⟩
  linarith

/-- `astar_euclidean`, when it does not refuse, finds a route exactly when one stays within the
range. -/
theorem astarEuclidean_found_iff (hg : g.OverArcs (d.capped max) staged)
    (hpass : g.metric.passes = true) (hs : g.contains source = true)
    (ht : g.contains target = true) :
    ∃ result, astarEuclidean (d.capped max) g source target = .ok result ∧
      (result.status = .found ↔ ∃ c, c ≤ max.1 ∧ Digraph.WalkCost g.ExactArc source target c) := by
  have hest : ∀ v, g.contains v = true →
      euclideanEstimate (d.capped max) g (coordAt g.coordinates target) v
        = .ok (cappedLine d g target v) := by
    intro v hv
    unfold euclideanEstimate
    rw [coordinate_eq hv]
    rfl
  have hline : ∀ v, 0 ≤ cappedLine d g target v := fun v => Capped.cap_mono (d.nonneg _ _)
  have hself : cappedLine d g target target = 0 := congrArg Capped.cap (d.self _)
  have hzero : 0 + cappedLine d g target source = cappedLine d g target source := by
    unfold cappedLine PlaneDistance.capped
    rw [Capped.zero_def, Capped.cap_add_cap le_rfl (d.nonneg _ _), zero_add]
  rw [astarEuclidean_eq (d.capped max) hpass hs ht, ← exists_finite_walkCost_iff hg]
  obtain ⟨es, t, result, -, hinv, hsearch, hends⟩ :=
    search_outcome hg hest hline hs ht Capped.zero_ne_top hzero
  refine ⟨result, hsearch, ?_, ?_⟩
  · intro hfound
    rcases hends with ⟨-, rfl, -⟩ | ⟨e, rest, path, hchoose, rfl, -, -, -, -⟩
    · exact absurd hfound (by simp)
    · exact ⟨_, hchoose.labelled, hinv.explored.walk _ hchoose.labelled⟩
  · rintro ⟨a, ha, hw⟩
    obtain ⟨result', hsearch', hfound⟩ := search_found_of_walk hg hest hline
      (cappedLine_consistent hg hpass target) (fun x y z => Capped.le_of_add_le_add) hs ht
      Capped.zero_ne_top hzero hw (by rw [hself, Capped.add_zero]; exact ha)
    rw [hsearch, Except.ok.injEq] at hsearch'
    rw [hsearch', hfound]

end

/-- **The searches tell reachability exactly within the range of the arithmetic.** Sums are exact
or infinite here. On doubles they are rounded as well, and the limit is that of the rounded
sums. -/
theorem tellsReachable_iff [IsStrictOrderedRing K] (d : PlaneDistance K)
    (std : Comparison.Sorter (GraphBuilder.stagedBefore (F := Capped K max)))
    (g : Graph (Capped K max)) (hg : g.Built (d.capped max) std) (source target : NodeId)
    (hs : g.contains source = true) (ht : g.contains target = true) :
    g.TellsReachable d source target ↔ g.WithinRange source target := by
  obtain ⟨staged, hover⟩ := hg.exists_overArcs
  obtain ⟨reference, hreference, hdijkstra⟩ := dijkstra_found_iff hover hs ht
  -- a route within the range is a route
  have hroute : (∃ c, c ≤ max.1 ∧ Digraph.WalkCost g.ExactArc source target c) →
      Digraph.Reachable g.HasArc source target := by
    rintro ⟨c, -, hc⟩
    exact ((walkCost_iff_cap hover).mpr ⟨c, hc, rfl⟩).reachable
  constructor
  · rintro ⟨⟨result, hresult, hfound⟩, -⟩ hreach
    rw [hreference, Except.ok.injEq] at hresult
    rw [← hdijkstra, hresult]
    exact hfound.mpr hreach
  · intro hrange
    have hiff := Iff.intro hroute hrange
    refine ⟨⟨reference, hreference, hdijkstra.trans hiff⟩, fun hpass => ?_⟩
    obtain ⟨result, hresult, hfound⟩ := astarEuclidean_found_iff hover hpass hs ht
    exact ⟨result, hresult, hfound.trans hiff⟩

/-! ## Two arcs of the largest weight -/

/-- The largest finite value of the 64-bit format. -/
def largestDouble : {m : ℚ // 0 ≤ m} := ⟨(2 ^ 53 - 1) * 2 ^ 971, by norm_num⟩

/-- Three nodes at the origin in a row, the arcs of the largest weight. -/
def overflowCalls : List (BuilderCall (Capped ℚ largestDouble)) :=
  [.setNode 0 ⟨0, 0⟩ 7, .setNode 1 ⟨0, 0⟩ 8, .setNode 2 ⟨0, 0⟩ 9,
    .addArc 0 1 (Capped.cap largestDouble.1), .addArc 1 2 (Capped.cap largestDouble.1)]

/-- The graph after `overflowCalls`. -/
def overflow : Graph (Capped ℚ largestDouble) where
  coordinates := [⟨0, 0⟩, ⟨0, 0⟩, ⟨0, 0⟩]
  externalIds := [7, 8, 9]
  offsets := [0, 1, 2, 2]
  arcs := [⟨1, Capped.cap largestDouble.1⟩, ⟨2, Capped.cap largestDouble.1⟩]
  metric := ⟨true, 0, 0, 0, ⊤⟩

theorem overflow_built :
    overflow.Built (taxicab.capped largestDouble) (Comparison.insertionSort _) :=
  Graph.built_of_ofCalls
    (show Graph.ofCalls (taxicab.capped largestDouble) (Comparison.insertionSort _) 3 overflowCalls
        = .ok overflow by
      decide +kernel)

/-- One arc of the largest weight stays within the range. -/
theorem tellsReachable_iff_overflow : overflow.TellsReachable taxicab 0 1 := by
  refine (tellsReachable_iff taxicab _ overflow overflow_built 0 1 rfl rfl).mpr (fun _ => ?_)
  refine ⟨0 + largestDouble.1, (zero_add _).le, Digraph.walkCost_nil.snoc ⟨le_rfl, ?_⟩⟩
  exact ⟨[⟨1, Capped.cap largestDouble.1⟩], by decide +kernel, by simp⟩

/-- Two arcs do not: the last node of the row can be reached, and both searches report that it
cannot. -/
theorem overflow_hides_route :
    ¬ ∀ (g : Graph (Capped ℚ largestDouble)) (source target : NodeId),
      g.Built (taxicab.capped largestDouble) (Comparison.insertionSort _) →
      g.contains source = true → g.contains target = true →
      g.TellsReachable taxicab source target := by
  intro h
  obtain ⟨⟨result, hresult, hfound⟩, -⟩ := h overflow 0 2 overflow_built rfl rfl
  have hrun : dijkstra overflow 0 2 = .ok ⟨.unreachable, ⊤, [], ⟨2, 2, 0, 2, 2, 1, 1⟩⟩ := by
    decide +kernel
  have hreach : Digraph.Reachable overflow.HasArc 0 2 := by
    have h01 : overflow.HasArc 0 1 (Capped.cap largestDouble.1) :=
      ⟨[⟨1, Capped.cap largestDouble.1⟩], by decide +kernel, by simp⟩
    have h12 : overflow.HasArc 1 2 (Capped.cap largestDouble.1) :=
      ⟨[⟨2, Capped.cap largestDouble.1⟩], by decide +kernel, by simp⟩
    exact (Relation.ReflTransGen.single ⟨_, h01⟩).tail ⟨_, h12⟩
  rw [hrun, Except.ok.injEq] at hresult
  rw [← hresult] at hfound
  exact absurd (hfound.mpr hreach) (by simp)

end RouteEngine
