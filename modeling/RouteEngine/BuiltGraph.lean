import RouteEngine.BuilderSpec

set_option autoImplicit false

/-! # What every built graph satisfies

`BuilderCall.perform_eq` says once what a call can do to a valid builder. From it, every
reachable builder is valid, and every graph that `build` returns is the graph over a sorted
list of admissible arcs (`Graph.OverArcs`); the later modules use a built graph through that
list. -/

namespace RouteEngine

variable {F : Type}

/-! ## One call -/

/-- The first check of a call that fails. -/
def BuilderCall.failure [IsFinite F] [Zero F] [LT F] [DecidableLT F] (b : GraphBuilder F) :
    BuilderCall F → Option Failure
  | .setNode id coordinate _ => b.setNodeFailure id coordinate
  | .addArc source target weight => b.addArcFailure source target weight
  | .build => b.buildFailure

/-- Every check throws `GraphValidationError`. -/
theorem BuilderCall.failure_validation [IsFinite F] [Zero F] [LT F] [DecidableLT F]
    {b : GraphBuilder F} {e : Failure} (call : BuilderCall F) (h : call.failure b = some e) :
    ∃ message, e = .graphValidation message := by
  cases call with
  | setNode id coordinate externalId =>
      simp only [failure, GraphBuilder.setNodeFailure] at h
      split_ifs at h <;> exact ⟨_, (Option.some.inj h).symm⟩
  | addArc source target weight =>
      simp only [failure, GraphBuilder.addArcFailure, validateArcCapacity] at h
      split_ifs at h <;> simp only [Option.some.injEq] at h <;> exact ⟨_, h.symm⟩
  | build =>
      simp only [failure, GraphBuilder.buildFailure, validateArcCapacity] at h
      split_ifs at h <;> simp only [Option.some.injEq] at h <;> exact ⟨_, h.symm⟩

/-- Every call of a consumed builder fails its first check. -/
theorem BuilderCall.failure_of_consumed [IsFinite F] [Zero F] [LT F] [DecidableLT F]
    {b : GraphBuilder F} (call : BuilderCall F) (hc : b.consumed = true) :
    call.failure b = some GraphBuilder.consumedError := by
  cases call <;>
    simp [failure, GraphBuilder.setNodeFailure, GraphBuilder.addArcFailure,
      GraphBuilder.buildFailure, hc]

/-- The builder after a call whose checks pass. -/
def BuilderCall.update (b : GraphBuilder F) : BuilderCall F → GraphBuilder F
  | .setNode id coordinate externalId => b.withNode id coordinate externalId
  | .addArc source target weight => b.withArc source target weight
  | .build => b.spent

theorem BuilderCall.valid_update [IsFinite F] [Zero F] [LT F] [DecidableLT F]
    {b : GraphBuilder F} (h : b.Valid) {call : BuilderCall F} (hnone : call.failure b = none) :
    (call.update b).Valid := by
  cases call with
  | setNode id coordinate externalId => exact h.withNode externalId hnone
  | addArc source target weight => exact h.withArc hnone
  | build => exact GraphBuilder.valid_spent b

variable [IsFinite F] [Zero F] [Top F] [LT F] [DecidableLT F] [LE F] [DecidableLE F] [Div F]
variable {distance : Coord F → Coord F → F}
  {std : Comparison.Sorter (GraphBuilder.stagedBefore (F := F))}

/-- What a call whose checks pass returns. -/
def BuilderCall.result (distance : Coord F → Coord F → F)
    (std : Comparison.Sorter (GraphBuilder.stagedBefore (F := F))) (b : GraphBuilder F) :
    BuilderCall F → Option (Graph F)
  | .build => some (canonicalGraph distance b.coordinates b.externalIds (std.sort b.staged))
  | _ => none

section

variable [FiniteOrder F]

/-- **One call of a valid builder**: the first failing check is thrown and nothing changes, or
all checks pass and the builder is updated. -/
theorem BuilderCall.perform_eq {b : GraphBuilder F} (h : b.Valid) (call : BuilderCall F) :
    call.perform distance std b
      = match call.failure b with
        | some e => .error e b
        | none => .ok (call.result distance std b) (call.update b) := by
  cases call with
  | setNode id coordinate externalId =>
      simp only [perform, Method.bind_apply, GraphBuilder.setNode_eq b h.assigned_length, failure]
      cases b.setNodeFailure id coordinate <;> rfl
  | addArc source target weight =>
      simp only [perform, Method.bind_apply, GraphBuilder.addArc_eq b, failure]
      cases b.addArcFailure source target weight <;> rfl
  | build =>
      simp only [perform, Method.bind_apply, GraphBuilder.build_eq distance std h, failure]
      cases b.buildFailure <;> rfl

theorem BuilderCall.valid_stateAfter {b : GraphBuilder F} (h : b.Valid) (call : BuilderCall F) :
    ((call.perform distance std).stateAfter b).Valid := by
  unfold Method.stateAfter
  rw [call.perform_eq h]
  cases hf : call.failure b with
  | some e => exact h
  | none => exact BuilderCall.valid_update h hf

/-! ## Runs -/

theorem GraphBuilder.Valid.after {b : GraphBuilder F} (h : b.Valid)
    (calls : List (BuilderCall F)) : (b.after distance std calls).Valid := by
  induction calls generalizing b with
  | nil => exact h
  | cons call calls ih => exact ih (call.valid_stateAfter h)

theorem GraphBuilder.Reachable.valid {b : GraphBuilder F} (h : b.Reachable distance std) :
    b.Valid := by
  obtain ⟨nodes, start, calls, hstart, rfl⟩ := h
  exact (valid_new hstart).after calls

end

/-! ## Built graphs -/

/-- `g` is the graph over the sorted admissible arcs `staged`. -/
structure Graph.OverArcs (distance : Coord F → Coord F → F) (g : Graph F)
    (staged : List (StagedArc F)) : Prop where
  eq : g = canonicalGraph distance g.coordinates g.externalIds staged
  nodes_le : g.nodeCount ≤ maxSupportedNodeCount
  externalIds_length : g.externalIds.length = g.nodeCount
  coordinates_finite : ∀ c ∈ g.coordinates, isFinite c.x = true ∧ isFinite c.y = true
  arcs_le : staged.length ≤ maxArcCount
  sorted : Comparison.Sorted GraphBuilder.stagedBefore staged
  admissible : ∀ a ∈ staged, a.Admissible g.nodeCount

section

variable [FiniteOrder F]

/-- **What `build` produces** from a valid builder that passes its checks. -/
theorem GraphBuilder.Valid.overArcs {b : GraphBuilder F} (h : b.Valid)
    (hnone : b.buildFailure = none) :
    (canonicalGraph distance b.coordinates b.externalIds (std.sort b.staged)).OverArcs distance
      (std.sort b.staged) := by
  refine ⟨rfl, h.nodes_le, h.externalIds_length, ?_, ?_, std.sorted _ h.weak,
    sort_admissible std h⟩
  · intro c hc
    obtain ⟨i, hi, hci⟩ := List.mem_iff_getElem.mp hc
    exact h.coordinates_finite i c ((h.all_assigned hnone).2 i hi)
      (List.getElem?_eq_some_iff.mpr ⟨hi, hci⟩)
  · rw [(std.perm b.staged).length_eq]
    exact h.staged_le

theorem GraphBuilder.build_eq_ok_iff {b b' : GraphBuilder F} {g : Graph F} (h : b.Valid) :
    build distance std b = .ok g b' ↔
      b.buildFailure = none ∧ b' = b.spent ∧
        g = canonicalGraph distance b.coordinates b.externalIds (std.sort b.staged) := by
  rw [build_eq distance std h]
  cases b.buildFailure with
  | some e => simp
  | none => simp only [EStateM.Result.ok.injEq, true_and]; constructor <;> rintro ⟨rfl, rfl⟩ <;>
      exact ⟨rfl, rfl⟩

/-- **Every built graph is a graph over sorted admissible arcs.** -/
theorem Graph.Built.exists_overArcs {g : Graph F} (h : g.Built distance std) :
    ∃ staged, g.OverArcs distance staged := by
  obtain ⟨b, b', hb, hbuild⟩ := h
  obtain ⟨hnone, _, rfl⟩ := (GraphBuilder.build_eq_ok_iff hb.valid).mp hbuild
  exact ⟨_, hb.valid.overArcs hnone⟩

end

/-- The graph that a builder for `nodes` nodes makes after `calls`. -/
def Graph.ofCalls (distance : Coord F → Coord F → F)
    (std : Comparison.Sorter (GraphBuilder.stagedBefore (F := F))) (nodes : Nat)
    (calls : List (BuilderCall F)) : Outcome (Graph F) := do
  let start ← GraphBuilder.new nodes
  let (g, _) ← (GraphBuilder.build distance std).call (start.after distance std calls)
  return g

theorem Graph.built_of_ofCalls {nodes : Nat} {calls : List (BuilderCall F)} {g : Graph F}
    (h : Graph.ofCalls distance std nodes calls = .ok g) : g.Built distance std := by
  obtain ⟨start, hstart, h⟩ := bind_eq_ok.mp h
  obtain ⟨⟨g', b'⟩, hbuild, h⟩ := bind_eq_ok.mp h
  obtain rfl : g' = g := by simpa using h
  refine ⟨start.after distance std calls, b', ⟨nodes, start, calls, hstart, rfl⟩, ?_⟩
  unfold Method.call at hbuild
  cases hres : GraphBuilder.build distance std (start.after distance std calls) with
  | ok g'' b'' =>
      rw [hres] at hbuild
      simp only [Except.ok.injEq, Prod.mk.injEq] at hbuild
      rw [hbuild.1, hbuild.2]
  | error e b'' =>
      rw [hres] at hbuild
      cases hbuild

/-- One round of `arcList`. -/
def Graph.appendRow (g : Graph F) (l : List (StagedArc F)) (i : Nat) :
    Outcome (List (StagedArc F)) := do
  let row ← g.arcsFrom (UInt32.ofNat i)
  return l ++ row.map (fun arc => ⟨UInt32.ofNat i, arc.target, arc.weight⟩)

/-- All arcs of a graph with their sources, node by node through `arcs_from`. -/
def Graph.arcList (g : Graph F) : Outcome (List (StagedArc F)) :=
  (List.range g.nodeCount).foldlM g.appendRow []

/-- The external identifier of a node. -/
def idAt (g : Graph F) (id : NodeId) : ExternalId := g.externalIds[id.toNat]?.getD 0

namespace Graph.OverArcs

variable {g : Graph F} {staged : List (StagedArc F)}

theorem sortedBySource (h : g.OverArcs distance staged) : SortedBySource staged :=
  sortedBySource_of_sorted h.sorted

theorem arcs_eq (h : g.OverArcs distance staged) : g.arcs = staged.map StagedArc.toArc := by
  rw [h.eq]
  rfl

theorem offsets_eq (h : g.OverArcs distance staged) :
    g.offsets = canonicalOffsets g.nodeCount staged := by
  rw [h.eq]
  rfl

theorem metric_eq (h : g.OverArcs distance staged) :
    g.metric = canonicalReport distance g.coordinates staged := by
  rw [h.eq]
  rfl

theorem arcCount_eq (h : g.OverArcs distance staged) : g.arcCount = staged.length := by
  rw [Graph.arcCount, h.arcs_eq, List.length_map]

/-- `external_id` of a valid identifier. -/
theorem externalId_eq (h : g.OverArcs distance staged) {u : NodeId} (hu : u.toNat < g.nodeCount) :
    g.externalId u = .ok (idAt g u) := by
  have hlt : u.toNat < g.externalIds.length := h.externalIds_length ▸ hu
  unfold Graph.externalId
  rw [(g.contains_iff u).mpr hu]
  exact subscript_eq_ok.mpr (by rw [idAt, List.getElem?_eq_getElem hlt, Option.getD_some])

/-- `arcs_from` of a valid identifier returns the arcs of the node. -/
theorem arcsFrom_eq (h : g.OverArcs distance staged) {u : NodeId} (hu : g.contains u = true) :
    g.arcsFrom u = .ok (rowOf staged u) :=
  arcsFrom_eq_rowOf h.sortedBySource h.arcs_le h.offsets_eq h.arcs_eq ((g.contains_iff u).mp hu)

/-- **The arcs of the graph, node by node, are the sorted arcs.** -/
theorem arcList_eq (h : g.OverArcs distance staged) : g.arcList = .ok staged := by
  have hrow : ∀ i ∈ List.range g.nodeCount, ∀ l : List (StagedArc F), True →
      g.appendRow l i = .ok (l ++ staged.filter (fun a => decide (a.row = i))) ∧ True := by
    intro i hi l _
    have hlt := List.mem_range.mp hi
    have hid : (UInt32.ofNat i).toNat = i := toNat_ofNat_node (hlt.trans_le h.nodes_le)
    have hcontains : g.contains (UInt32.ofNat i) = true :=
      (g.contains_iff _).mpr (by rw [hid]; exact hlt)
    refine ⟨?_, trivial⟩
    rw [Graph.appendRow, h.arcsFrom_eq hcontains, ok_bind, pure_eq_ok, map_rowOf, ← filter_row_eq,
      hid]
  have hrun := (foldlM_eq_ok (fun _ => True) _ hrow [] trivial).1
  rw [Graph.arcList, hrun, ← List.flatMap_eq_foldl, Csr.flatMap_rows StagedArc.row h.sortedBySource]
  exact congrArg Except.ok
    (List.filter_eq_self.mpr (fun a ha => decide_eq_true (h.admissible a ha).source_lt))

/-- A valid identifier is not the parent sentinel. -/
theorem toNat_lt (h : g.OverArcs distance staged) {u : NodeId} (hu : g.contains u = true) :
    u.toNat < maxSupportedNodeCount :=
  lt_of_lt_of_le ((g.contains_iff u).mp hu) h.nodes_le

end Graph.OverArcs

end RouteEngine
