import RouteEngine.SearchMap
import RouteEngine.LatticeExact

set_option autoImplicit false

/-! # Changing the unit of length

Coordinates and weights are lengths, and nothing in the program depends on their unit. A graph
built from lengths in another unit is the same graph in that unit, with the same metric report
(`UnitChange.ofCalls_map`), every query is answered by the same path (`UnitChange.runSearch_map`),
and the spacing of a generated network is only its unit (`GeneratorParams.generate_withSpacing`). -/

namespace RouteEngine

open Digraph (CostMap ActsAs)

variable {F : Type}

/-! ## Lengths in another unit -/

def Coord.map (φ : F → F) (c : Coord F) : Coord F := ⟨φ c.x, φ c.y⟩

def StagedArc.map (φ : F → F) (a : StagedArc F) : StagedArc F := ⟨a.source, a.target, φ a.weight⟩

def Arc.map (φ : F → F) (arc : Arc F) : Arc F := ⟨arc.target, φ arc.weight⟩

/-- The metric report holds a ratio of lengths, which has no unit. -/
def Graph.map (φ : F → F) (g : Graph F) : Graph F where
  coordinates := g.coordinates.map (Coord.map φ)
  externalIds := g.externalIds
  offsets := g.offsets
  arcs := g.arcs.map (Arc.map φ)
  metric := g.metric

def GraphBuilder.map (φ : F → F) (b : GraphBuilder F) : GraphBuilder F where
  coordinates := b.coordinates.map (Coord.map φ)
  externalIds := b.externalIds
  assigned := b.assigned
  staged := b.staged.map (StagedArc.map φ)
  assignedCount := b.assignedCount
  consumed := b.consumed

def BuilderCall.map (φ : F → F) : BuilderCall F → BuilderCall F
  | .setNode id coordinate externalId => .setNode id (coordinate.map φ) externalId
  | .addArc source target weight => .addArc source target (φ weight)
  | .build => .build

/-- What is asked of a change of units. -/
structure UnitChange [IsFinite F] [Zero F] [Top F] [Add F] [LT F] [BEq F] [LE F] [Div F]
    (distance : Coord F → Coord F → F) (φ : F → F) : Prop where
  cost : CostMap φ
  add : ∀ a b, φ (a + b) = φ a + φ b
  le_iff : ∀ a b, φ a ≤ φ b ↔ a ≤ b
  finite : ∀ a, isFinite (φ a) = isFinite a
  ratio : ∀ a b, φ a / φ b = a / b
  distance : ∀ p q, distance (p.map φ) (q.map φ) = φ (distance p q)

namespace UnitChange

variable {distance : Coord F → Coord F → F} {φ : F → F}

theorem update_map (b : GraphBuilder F) (call : BuilderCall F) :
    (call.map φ).update (b.map φ) = (call.update b).map φ := by
  cases call <;> simp [BuilderCall.map, BuilderCall.update, GraphBuilder.withNode,
    GraphBuilder.withArc, GraphBuilder.spent, GraphBuilder.map, List.map_set, StagedArc.map]

variable [IsFinite F] [Zero F] [Top F] [Add F] [LT F] [BEq F] [LE F] [Div F]
variable (h : UnitChange distance φ)
include h

theorem lt_zero_iff (a : F) : φ a < 0 ↔ a < 0 := by
  rw [← h.cost.lt_iff a 0, h.cost.zero]

theorem coord_zero : (Coord.zero : Coord F).map φ = Coord.zero := by
  simp only [Coord.map, Coord.zero, h.cost.zero]

theorem coordAt_map (coordinates : List (Coord F)) (v : NodeId) :
    coordAt (coordinates.map (Coord.map φ)) v = (coordAt coordinates v).map φ := by
  unfold coordAt
  rw [List.getElem?_map]
  cases coordinates[v.toNat]? with
  | none => exact h.coord_zero.symm
  | some c => rfl

variable [DecidableLT F]

theorem stagedBefore_map (a b : StagedArc F) :
    GraphBuilder.stagedBefore (a.map φ) (b.map φ) = GraphBuilder.stagedBefore a b := by
  unfold GraphBuilder.stagedBefore StagedArc.map
  simp only [h.cost.lt_iff]

/-- The checks of a call pass alike. -/
theorem failure_map (b : GraphBuilder F) (call : BuilderCall F) :
    (call.map φ).failure (b.map φ) = call.failure b := by
  cases call with
  | setNode id coordinate externalId =>
      simp only [BuilderCall.map, BuilderCall.failure, GraphBuilder.setNodeFailure,
        GraphBuilder.map, Coord.map, List.length_map, h.finite]
  | addArc source target weight =>
      simp only [BuilderCall.map, BuilderCall.failure, GraphBuilder.addArcFailure,
        GraphBuilder.map, List.length_map, h.finite, h.lt_zero_iff]
  | build =>
      simp only [BuilderCall.map, BuilderCall.failure, GraphBuilder.buildFailure,
        GraphBuilder.map, List.length_map]

/-! ## The metric report -/

variable [DecidableLE F]

theorem observe_map (report : MetricReport F) (source : NodeId) (arc : Arc F) (d : F) :
    report.observe source (arc.map φ) (φ d) = report.observe source arc d := by
  have hpos : φ d > 0 ↔ d > 0 := by
    rw [gt_iff_lt, gt_iff_lt, ← h.cost.lt_iff 0 d, h.cost.zero]
  unfold MetricReport.observe MetricReport.lowerRatio MetricReport.countViolation
  simp only [Arc.map, ge_iff_le, h.le_iff, hpos, h.ratio]

theorem canonicalReport_map (coordinates : List (Coord F)) (staged : List (StagedArc F)) :
    canonicalReport distance (coordinates.map (Coord.map φ)) (staged.map (StagedArc.map φ))
      = canonicalReport distance coordinates staged := by
  unfold canonicalReport
  rw [List.foldl_map]
  congr 1
  funext report a
  unfold observeStaged
  show report.observe a.source (a.toArc.map φ) _ = _
  rw [h.coordAt_map]
  show report.observe a.source (a.toArc.map φ)
    (distance _ (coordAt (coordinates.map (Coord.map φ)) a.target)) = _
  rw [h.coordAt_map, h.distance, h.observe_map]
  rfl

theorem canonicalGraph_map (coordinates : List (Coord F)) (externalIds : List ExternalId)
    (staged : List (StagedArc F)) :
    canonicalGraph distance (coordinates.map (Coord.map φ)) externalIds
        (staged.map (StagedArc.map φ))
      = (canonicalGraph distance coordinates externalIds staged).map φ := by
  have hbelow : ∀ i, Csr.below StagedArc.row (staged.map (StagedArc.map φ)) i
      = Csr.below StagedArc.row staged i := fun i => List.countP_map
  unfold canonicalGraph Graph.map
  rw [h.canonicalReport_map, List.length_map, List.map_map, List.map_map]
  simp only [canonicalOffsets, hbelow]
  rfl

/-! ## Building -/

variable [FiniteOrder F] (std : Comparison.Sorter (GraphBuilder.stagedBefore (F := F)))

/-- **One call** fails alike in both units, or leaves the same builder. -/
theorem stateAfter_map {b : GraphBuilder F} (hb : b.Valid) (hb' : (b.map φ).Valid)
    (call : BuilderCall F) :
    ((call.map φ).perform distance std).stateAfter (b.map φ)
      = ((call.perform distance std).stateAfter b).map φ := by
  unfold Method.stateAfter
  rw [BuilderCall.perform_eq hb', BuilderCall.perform_eq hb, h.failure_map]
  cases call.failure b with
  | some e => rfl
  | none => exact update_map b call

/-- Any sequence of calls, by induction on the sequence. -/
theorem after_map {b : GraphBuilder F} (hb : b.Valid) (hb' : (b.map φ).Valid)
    (calls : List (BuilderCall F)) :
    (b.map φ).after distance std (calls.map (BuilderCall.map φ))
      = (b.after distance std calls).map φ := by
  induction calls generalizing b with
  | nil => rfl
  | cons call calls ih =>
      have hstep := h.stateAfter_map std hb hb' call
      have hnext : (((call.map φ).perform distance std).stateAfter (b.map φ)).Valid :=
        (call.map φ).valid_stateAfter hb'
      rw [hstep] at hnext
      have hrest := ih (call.valid_stateAfter hb) hnext
      rw [← hstep] at hrest
      exact hrest

theorem build_map {b : GraphBuilder F} (hb : b.Valid) (hb' : (b.map φ).Valid) :
    (GraphBuilder.build distance std).call (b.map φ)
      = ((GraphBuilder.build distance std).call b).map
          (Prod.map (Graph.map φ) (GraphBuilder.map φ)) := by
  have hfailure : (b.map φ).buildFailure = b.buildFailure := h.failure_map b .build
  have hsort : std.sort (b.staged.map (StagedArc.map φ))
      = (std.sort b.staged).map (StagedArc.map φ) :=
    std.sort_map (fun x _ y _ => h.stagedBefore_map x y)
  unfold Method.call
  rw [GraphBuilder.build_eq distance std hb', GraphBuilder.build_eq distance std hb, hfailure]
  cases b.buildFailure with
  | some e => rfl
  | none =>
      show Except.ok (canonicalGraph distance (b.coordinates.map _) b.externalIds
        (std.sort (b.staged.map _)), (b.map φ).spent) = _
      rw [hsort, h.canonicalGraph_map]
      rfl

/-- **The graph built in another unit** is the graph in that unit, and it is refused where the
graph is. -/
theorem ofCalls_map (nodes : Nat) (calls : List (BuilderCall F)) :
    Graph.ofCalls distance std nodes (calls.map (BuilderCall.map φ))
      = (Graph.ofCalls distance std nodes calls).map (Graph.map φ) := by
  unfold Graph.ofCalls
  rw [map_bind]
  cases hnew : (GraphBuilder.new nodes : Outcome (GraphBuilder F)) with
  | error e => rfl
  | ok start =>
      have hvalid := GraphBuilder.valid_new hnew
      have hstart : start.map φ = start := by
        rw [GraphBuilder.new] at hnew
        obtain ⟨-, -, hnew⟩ := bind_eq_ok.mp hnew
        obtain rfl := Except.ok.inj hnew
        simp [GraphBuilder.map, GraphBuilder.fresh, h.coord_zero]
      have hafter := h.after_map std hvalid (by rwa [hstart]) calls
      rw [hstart] at hafter
      have hend : (start.after distance std calls).Valid := hvalid.after calls
      have hend' : (start.after distance std (calls.map (BuilderCall.map φ))).Valid :=
        hvalid.after _
      rw [hafter] at hend'
      rw [ok_bind, ok_bind, hafter, h.build_map std hend hend', bind_map_left, map_bind]
      rfl

end UnitChange

/-! ## Searching -/

namespace UnitChange

variable [IsFinite F] [Zero F] [Top F] [Add F] [LT F] [DecidableLT F] [BEq F] [LE F] [Div F]
variable {distance : Coord F → Coord F → F} {φ : F → F}

omit [IsFinite F] [Zero F] [Top F] [LT F] [DecidableLT F] [BEq F] [LE F] [Div F] in
theorem alike_map (hadd : ∀ a b, φ (a + b) = φ a + φ b) (g : Graph F) : g.Alike φ (g.map φ) where
  nodeCount := List.length_map _
  offsets := rfl
  arcs := by
    show List.Forall₂ _ g.arcs (g.arcs.map (Arc.map φ))
    rw [List.forall₂_map_right_iff, List.forall₂_same]
    exact fun arc _ => ⟨rfl, fun a => hadd a arc.weight⟩

omit [IsFinite F] [Zero F] [Top F] [Add F] [LT F] [DecidableLT F] [BEq F] [LE F] [Div F] in
theorem coordinate_map (g : Graph F) (v : NodeId) :
    (g.map φ).coordinate v = (g.coordinate v).map (Coord.map φ) := by
  have hcount : (g.map φ).coordinates.length = g.coordinates.length := List.length_map _
  unfold Graph.coordinate Graph.contains Graph.outOfRange Graph.nodeCount
  rw [hcount]
  split_ifs
  · rfl
  · exact subscript_map (Coord.map φ) g.coordinates v.toNat

variable (h : UnitChange distance φ)
include h

theorem search_units (g : Graph F) {estimate estimate' : NodeId → Outcome F}
    (hest : ∀ v, EstimatesAlike φ (estimate v) (estimate' v)) (source target : NodeId) :
    search (g.map φ) source target estimate'
      = (search g source target estimate).map (SearchResult.map φ) :=
  search_map h.cost (alike_map h.add g) hest source target

omit [DecidableLT F] in
theorem zeroEstimate_units (v : NodeId) :
    EstimatesAlike φ (zeroEstimate v : Outcome F) (zeroEstimate v) := by
  refine ⟨h.cost.zero.symm, fun a => ?_⟩
  rw [h.add, h.cost.zero]

omit [DecidableLT F] in
theorem euclideanEstimate_units (g : Graph F) (target : Coord F) (v : NodeId) :
    EstimatesAlike φ (euclideanEstimate distance g target v)
      (euclideanEstimate distance (g.map φ) (target.map φ) v) := by
  unfold euclideanEstimate
  rw [coordinate_map]
  cases g.coordinate v with
  | error e => rfl
  | ok position =>
      refine ⟨h.distance position target, fun a => ?_⟩
      rw [h.distance, h.add]

/-- **Every query is answered alike in both units**: with the same path, counters and refusals,
and with the cost in the other unit. -/
theorem runSearch_map (g : Graph F) (source target : NodeId) (algorithm : Algorithm) :
    runSearch distance (g.map φ) source target algorithm
      = (runSearch distance g source target algorithm).map (SearchResult.map φ) := by
  have hvalid : ∀ id role, requireValid (g.map φ) id role = requireValid g id role := by
    intro id role
    unfold requireValid Graph.contains Graph.nodeCount
    rw [show (g.map φ).coordinates.length = g.coordinates.length from List.length_map _]
  have hzero : dijkstra (g.map φ) source target
      = (dijkstra g source target).map (SearchResult.map φ) := by
    unfold dijkstra
    rw [hvalid, hvalid, map_bind]
    refine bind_congr fun _ => ?_
    rw [map_bind]
    exact bind_congr fun _ => h.search_units g h.zeroEstimate_units source target
  cases algorithm with
  | dijkstra => exact hzero
  | astarZero => exact hzero
  | astarEuclidean =>
      show astarEuclidean distance (g.map φ) source target
        = (astarEuclidean distance g source target).map _
      unfold astarEuclidean
      rw [hvalid, hvalid, map_bind]
      refine bind_congr fun _ => ?_
      rw [map_bind]
      refine bind_congr fun _ => ?_
      show (if !g.metric.passes then _ else _) = _
      split_ifs
      · rfl
      · simp only [map_bind, coordinate_map, bind_map_left]
        exact bind_congr fun c =>
          h.search_units g (h.euclideanEstimate_units g c) source target

end UnitChange

/-! ## Exact lengths -/

section

variable {K : Type} [Field K]

/-- A length in a unit that is `c` times smaller. -/
def rescale (c : K) (a : WithTop K) : WithTop K := a.map (c * ·)

theorem rescale_coe (c x : K) : rescale c (x : WithTop K) = ((c * x : K) : WithTop K) := rfl

theorem untopD_rescale (c : K) (a : WithTop K) : (rescale c a).untopD 0 = c * a.untopD 0 := by
  cases a with
  | top => exact (mul_zero c).symm
  | coe x => rfl

theorem finite_map_rescale (c : K) (p : Coord (WithTop K)) :
    (p.map (rescale c)).finite = ⟨c * p.finite.x, c * p.finite.y⟩ :=
  congrArg₂ Coord.mk (untopD_rescale c p.x) (untopD_rescale c p.y)

variable [LinearOrder K] [IsStrictOrderedRing K] {c : K} (hc : 0 < c)
include hc

theorem costMap_rescale : CostMap (rescale c) where
  zero := congrArg _ (mul_zero c)
  top := rfl
  lt_iff a b := by
    cases a with
    | top => simp [rescale]
    | coe x =>
        cases b with
        | top => exact ⟨fun _ => WithTop.coe_lt_top x, fun _ => WithTop.coe_lt_top (c * x)⟩
        | coe y =>
            rw [rescale_coe, rescale_coe, WithTop.coe_lt_coe, WithTop.coe_lt_coe]
            exact mul_lt_mul_iff_right₀ hc
  beq_eq a b := by
    cases a with
    | top => cases b <;> rfl
    | coe x =>
        cases b with
        | top => rfl
        | coe y =>
            rw [rescale_coe, rescale_coe, Bool.eq_iff_iff, beq_iff_eq, beq_iff_eq, WithTop.coe_inj,
              WithTop.coe_inj]
            exact mul_right_inj' hc.ne'

/-- **Multiplying every length by a positive factor is a change of units**, for a distance that
is measured in that unit. -/
theorem unitChange_rescale {distance : Coord (WithTop K) → Coord (WithTop K) → WithTop K}
    (hdistance : ∀ p q, distance (p.map (rescale c)) (q.map (rescale c))
      = rescale c (distance p q)) : UnitChange distance (rescale c) where
  cost := costMap_rescale hc
  add a b := by
    cases a with
    | top => rfl
    | coe x =>
        cases b with
        | top => rfl
        | coe y => exact congrArg _ (mul_add c x y)
  le_iff a b := by
    rw [← not_lt, ← not_lt, (costMap_rescale hc).lt_iff]
  finite a := by cases a <;> rfl
  ratio a b := by
    cases a with
    | top => cases b <;> rfl
    | coe x =>
        cases b with
        | top => rfl
        | coe y => exact congrArg _ (mul_div_mul_left x y hc.ne')
  distance := hdistance

end

/-- **The unit of length does not matter.** Coordinates and weights given in another unit build
the same graph in that unit, or are refused for the same reason, and every query on it is
answered by the same path with the same counters, at the cost in that unit, or is refused alike.
The metric report is the same. -/
theorem unit_invariance {K : Type} [Field K] [LinearOrder K] [IsStrictOrderedRing K]
    (d : PlaneDistance K) (c : K) (hc : 0 < c)
    (hd : ∀ p q, d.dist ⟨c * p.x, c * p.y⟩ ⟨c * q.x, c * q.y⟩ = c * d.dist p q)
    (std : Comparison.Sorter (GraphBuilder.stagedBefore (F := WithTop K))) (nodes : Nat)
    (calls : List (BuilderCall (WithTop K))) :
    Graph.ofCalls d.lift std nodes (calls.map (BuilderCall.map (rescale c)))
        = (Graph.ofCalls d.lift std nodes calls).map (Graph.map (rescale c)) ∧
      ∀ g source target algorithm,
        runSearch d.lift (g.map (rescale c)) source target algorithm
          = (runSearch d.lift g source target algorithm).map (SearchResult.map (rescale c)) := by
  have hunits : UnitChange d.lift (rescale c) := by
    refine unitChange_rescale hc fun p q => ?_
    unfold PlaneDistance.lift
    rw [finite_map_rescale, finite_map_rescale, hd, rescale_coe]
  exact ⟨hunits.ofCalls_map std nodes calls, hunits.runSearch_map⟩

/-- The road in metres instead of kilometres. -/
theorem unit_invariance_road :
    Graph.ofCalls taxicab.lift (Comparison.insertionSort _) 3
        (roadCalls.map (BuilderCall.map (rescale 1000))) = .ok (road.map (rescale 1000)) ∧
      (runSearch taxicab.lift (road.map (rescale 1000)) 0 2 .astarEuclidean).map
        (fun result => (result.cost, result.path)) = .ok (2000, [0, 1, 2]) := by
  obtain ⟨hcalls, hsearch⟩ := unit_invariance taxicab 1000 (by decide)
    (fun p q => by
      show |1000 * q.x - 1000 * p.x| + |1000 * q.y - 1000 * p.y|
        = 1000 * (|q.x - p.x| + |q.y - p.y|)
      rw [← mul_sub, ← mul_sub, abs_mul, abs_mul, abs_of_pos (by norm_num : (0 : ℚ) < 1000),
        mul_add])
    (Comparison.insertionSort _) 3 roadCalls
  constructor
  · rw [hcalls, show Graph.ofCalls taxicab.lift (Comparison.insertionSort _) 3 roadCalls
      = .ok road by decide +kernel]
    rfl
  · rw [hsearch]
    decide +kernel

/-! ## The spacing of a generated network -/

namespace GeneratorParams

/-- The parameters with another spacing. -/
def withSpacing (params : GeneratorParams F) (spacing : F) : GeneratorParams F :=
  { params with spacing }

section

variable [IsFinite F] [Zero F] [One F] [Top F] [UnitArith F] [Add F] [Sub F] [Mul F] [Div F]
  [LT F] [DecidableLT F] [LE F] [DecidableLE F] [BEq F]
variable {distance : Coord F → Coord F → F} {φ : F → F} {params : GeneratorParams F}

omit [IsFinite F] [Zero F] [One F] [Top F] [Div F] [LT F] [DecidableLT F] [LE F]
  [DecidableLE F] [BEq F] in
/-- A site in the other unit: its coordinates are linear in the spacing. -/
theorem siteAt_withSpacing (hadd : ∀ a b, φ (a + b) = φ a + φ b)
    (hmul : ∀ a b, a * φ b = φ (a * b)) (i : Nat) :
    (params.withSpacing (φ params.spacing)).siteAt i = (params.siteAt i).map φ := by
  unfold siteAt offset Coord.map
  simp only [hadd, ← hmul]
  rfl

variable (h : UnitChange distance φ)
include h

omit [Sub F] [Mul F] [DecidableLT F] [DecidableLE F] in
theorem usable_withSpacing :
    (params.withSpacing (φ params.spacing)).Usable ↔ params.Usable := by
  have hpos : φ params.spacing ≤ 0 ↔ params.spacing ≤ 0 := by
    rw [← h.le_iff params.spacing 0, h.cost.zero]
  have hspacing := h.finite params.spacing
  constructor
  · intro hu
    exact { hu with
      spacing_finite := hspacing.symm.trans hu.spacing_finite
      spacing_pos := fun hle => hu.spacing_pos (hpos.mpr hle) }
  · intro hu
    exact { hu with
      spacing_finite := hspacing.trans hu.spacing_finite
      spacing_pos := fun hle => hu.spacing_pos (hpos.mp hle) }

variable (hmul : ∀ a b, a * φ b = φ (a * b))
include hmul

omit [One F] [DecidableLE F] in
theorem latticeArcs_withSpacing :
    (params.withSpacing (φ params.spacing)).latticeArcs distance
      = (params.latticeArcs distance).map (StagedArc.map φ) := by
  unfold latticeArcs
  rw [List.map_flatMap]
  show (params.backbone ++ params.diagonals).flatMap _ = _
  refine List.flatMap_congr fun connection _ => ?_
  unfold arcsOf
  rw [siteAt_withSpacing h.add hmul, siteAt_withSpacing h.add hmul, h.distance]
  rfl

omit [One F] [DecidableLT F] [DecidableLE F] in
theorem coordinates_withSpacing :
    (params.withSpacing (φ params.spacing)).coordinates
      = params.coordinates.map (Coord.map φ) := by
  unfold coordinates
  rw [List.map_map]
  exact List.map_congr_left fun i _ => siteAt_withSpacing h.add hmul i

omit [One F] [DecidableLE F] in
theorem admits_withSpacing :
    (params.withSpacing (φ params.spacing)).Admits distance ↔ params.Admits distance := by
  have hsites : (∀ c ∈ (params.withSpacing (φ params.spacing)).coordinates,
      isFinite c.x = true ∧ isFinite c.y = true) ↔
      ∀ c ∈ params.coordinates, isFinite c.x = true ∧ isFinite c.y = true := by
    rw [coordinates_withSpacing h hmul, List.forall_mem_map]
    simp only [Coord.map, h.finite]
  have hweights : (∀ a ∈ (params.withSpacing (φ params.spacing)).latticeArcs distance,
      isFinite a.weight = true ∧ ¬ a.weight < 0) ↔
      ∀ a ∈ params.latticeArcs distance, isFinite a.weight = true ∧ ¬ a.weight < 0 := by
    rw [latticeArcs_withSpacing h hmul, List.forall_mem_map]
    simp only [StagedArc.map, h.finite, h.lt_zero_iff]
  have hlength : ((params.withSpacing (φ params.spacing)).latticeArcs distance).length
      = (params.latticeArcs distance).length := by
    rw [latticeArcs_withSpacing h hmul, List.length_map]
  exact ⟨fun ha => ⟨hsites.mp ha.sites_finite, hweights.mp ha.weights, hlength ▸ ha.arcs_le⟩,
    fun ha => ⟨hsites.mpr ha.sites_finite, hweights.mpr ha.weights, hlength.symm ▸ ha.arcs_le⟩⟩

variable [FiniteOrder F] (std : Comparison.Sorter (GraphBuilder.stagedBefore (F := F)))

omit [One F] in
theorem latticeGraph_withSpacing :
    (params.withSpacing (φ params.spacing)).latticeGraph distance std
      = (params.latticeGraph distance std).map φ := by
  unfold latticeGraph
  rw [coordinates_withSpacing h hmul, latticeArcs_withSpacing h hmul,
    std.sort_map (fun x _ y _ => h.stagedBefore_map x y), h.canonicalGraph_map]
  rfl

/-- The generator returns for the other spacing exactly when it returns, and the network in the
other unit. -/
theorem generate_withSpacing (g' : Graph F) :
    generate distance std (params.withSpacing (φ params.spacing)) = .ok g' ↔
      ∃ g, generate distance std params = .ok g ∧ g' = g.map φ := by
  rw [generate_eq_ok_iff, usable_withSpacing h, admits_withSpacing h hmul,
    latticeGraph_withSpacing h hmul]
  simp only [generate_eq_ok_iff]
  constructor
  · rintro ⟨husable, hadmits, hpasses, rfl⟩
    exact ⟨_, ⟨husable, hadmits, hpasses, rfl⟩, rfl⟩
  · rintro ⟨g, ⟨husable, hadmits, hpasses, rfl⟩, rfl⟩
    exact ⟨husable, hadmits, hpasses, rfl⟩

end

end GeneratorParams

theorem mul_rescale {K : Type} [Field K] [LinearOrder K] [IsStrictOrderedRing K] {c : K}
    (hc : 0 < c) (a b : WithTop K) : a * rescale c b = rescale c (a * b) := by
  have hzero : rescale c 0 = 0 := (costMap_rescale hc).zero
  have htop : rescale c ⊤ = ⊤ := rfl
  cases a with
  | top =>
      cases b with
      | top => rfl
      | coe y =>
          have hiff : ((c * y : K) : WithTop K) = 0 ↔ (y : WithTop K) = 0 := by
            rw [WithTop.coe_eq_zero, WithTop.coe_eq_zero, mul_eq_zero_iff_left hc.ne']
          rw [rescale_coe, WithTop.top_mul', WithTop.top_mul', if_congr hiff rfl rfl]
          split_ifs
          · exact hzero.symm
          · exact htop.symm
  | coe x =>
      cases b with
      | top =>
          rw [htop, WithTop.mul_top']
          split_ifs
          · exact hzero.symm
          · exact htop.symm
      | coe y => exact congrArg _ (mul_left_comm x c y)

/-- **The spacing of a generated network is its unit.** With the spacing multiplied by `c` the
generator succeeds exactly when it does without, the network is the same up to the unit, and so
every route on it has the same path, found with the same work, at `c` times the cost. -/
theorem generate_spacing {K : Type} [Field K] [LinearOrder K] [IsStrictOrderedRing K]
    (d : EvenDistance K) (c : K) (hc : 0 < c)
    (hd : ∀ x y, d.hypot (c * x) (c * y) = c * d.hypot x y)
    (std : Comparison.Sorter (GraphBuilder.stagedBefore (F := WithTop K)))
    (params : GeneratorParams (WithTop K)) :
    (∀ g', generate d.lift std (params.withSpacing (rescale c params.spacing)) = .ok g' ↔
      ∃ g, generate d.lift std params = .ok g ∧ g' = g.map (rescale c)) ∧
    ∀ g source target algorithm, runSearch d.lift (g.map (rescale c)) source target algorithm
      = (runSearch d.lift g source target algorithm).map (SearchResult.map (rescale c)) := by
  have hunits : UnitChange d.lift (rescale c) := by
    refine unitChange_rescale hc fun p q => ?_
    unfold EvenDistance.lift
    rw [finite_map_rescale, finite_map_rescale, rescale_coe, ← hd, mul_sub, mul_sub]
  exact ⟨GeneratorParams.generate_withSpacing hunits (mul_rescale hc) std, hunits.runSearch_map⟩

/-- The cell with an edge of `1000` instead of `1`. -/
theorem generate_spacing_square :
    ∃ g, generate evenTaxicab.lift (Comparison.insertionSort _) squareParams = .ok g ∧
      generate evenTaxicab.lift (Comparison.insertionSort _)
          (squareParams.withSpacing (rescale 1000 squareParams.spacing))
        = .ok (g.map (rescale 1000)) := by
  obtain ⟨hgenerate, -⟩ := generate_spacing evenTaxicab 1000 (by decide)
    (fun x y => by
      show |1000 * x| + |1000 * y| = 1000 * (|x| + |y|)
      rw [abs_mul, abs_mul, abs_of_pos (by norm_num : (0 : ℚ) < 1000), mul_add])
    (Comparison.insertionSort _) squareParams
  have hok : (generate evenTaxicab.lift (Comparison.insertionSort _) squareParams).isOk = true := by
    decide +kernel
  have hrun := GeneratorParams.generate_eq_of_isOk hok
  exact ⟨_, hrun, (hgenerate _).mpr ⟨_, hrun, rfl⟩⟩

end RouteEngine
