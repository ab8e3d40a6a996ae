import RouteEngine.BuiltGraph
import RouteEngine.Double

set_option autoImplicit false

/-! # Histories of a builder

A history is any sequence of calls, failing ones included. `GraphBuilder.Contract` says how
the builder after a history answers to the calls that history accepted. The invariant is
`Tracks`: one call keeps it (`Tracks.step`), hence every history does (`Tracks.run`), and the
contract is read off it. -/

namespace RouteEngine

variable {F : Type}

namespace BuilderCall

/-- The call sets the node `id`. -/
def sets (id : NodeId) : BuilderCall F → Bool
  | .setNode i _ _ => decide (i = id)
  | _ => false

def setsNode : BuilderCall F → Bool
  | .setNode _ _ _ => true
  | _ => false

def addsArc : BuilderCall F → Bool
  | .addArc _ _ _ => true
  | _ => false

def isBuild : BuilderCall F → Bool
  | .build => true
  | _ => false

end BuilderCall

variable [IsFinite F] [Zero F] [Top F] [LT F] [DecidableLT F] [LE F] [DecidableLE F] [Div F]
variable (distance : Coord F → Coord F → F)
  (std : Comparison.Sorter (GraphBuilder.stagedBefore (F := F)))

/-- The calls of a history that returned. -/
def GraphBuilder.accepted (b : GraphBuilder F) : List (BuilderCall F) → List (BuilderCall F)
  | [] => []
  | call :: calls =>
      match call.perform distance std b with
      | .ok _ b' => call :: b'.accepted calls
      | .error _ b' => b'.accepted calls

/-- What a builder for `nodes` nodes promises after a history whose accepted calls are
`done`. -/
structure GraphBuilder.Contract (nodes : Nat) (b : GraphBuilder F)
    (done : List (BuilderCall F)) : Prop where
  /-- a failing call throws `GraphValidationError` and changes nothing -/
  unchanged : ∀ (call : BuilderCall F) (e : Failure) (b' : GraphBuilder F),
    call.perform distance std b = .error e b' →
      b' = b ∧ ∃ message, e = .graphValidation message
  assigned : b.assignedNodeCount = done.countP BuilderCall.setsNode
  staged : done.countP BuilderCall.isBuild = 0 →
    b.stagedArcCount = done.countP BuilderCall.addsArc
  /-- `build` succeeds exactly when it has not succeeded before and every node was set once -/
  build_iff : (∃ g b', GraphBuilder.build distance std b = .ok g b') ↔
    done.countP BuilderCall.isBuild = 0 ∧
      ∀ id : NodeId, id.toNat < nodes → done.countP (BuilderCall.sets id) = 1
  /-- otherwise the first `build` names the smallest node that was never set -/
  unset : done.countP BuilderCall.isBuild = 0 → ∀ (e : Failure) (b' : GraphBuilder F),
    GraphBuilder.build distance std b = .error e b' →
      ∃ id : NodeId, id.toNat < nodes ∧ done.countP (BuilderCall.sets id) = 0 ∧
        (∀ j : NodeId, j.toNat < id.toNat → done.countP (BuilderCall.sets j) = 1) ∧
        e = unsetError id.toNat (nodes - b.assignedNodeCount) nodes
  /-- after the first success every call throws -/
  consumed : 0 < done.countP BuilderCall.isBuild →
    done.countP BuilderCall.isBuild = 1 ∧
      ∀ call : BuilderCall F, call.perform distance std b = .error consumedError b
  graph : ∀ (g : Graph F) (b' : GraphBuilder F), GraphBuilder.build distance std b = .ok g b' →
    (∀ c ∈ g.coordinates, isFinite c.x = true ∧ isFinite c.y = true) ∧
      ∀ arc ∈ g.arcs, isFinite arc.weight = true ∧ ¬ arc.weight < 0 ∧
        g.contains arc.target = true

/-! ## The invariant -/

/-- The builder `b` for `nodes` nodes has accepted the calls `done`. -/
structure GraphBuilder.Tracks (nodes : Nat) (b : GraphBuilder F) (done : List (BuilderCall F)) :
    Prop where
  valid : b.Valid
  assigned : b.assignedCount = done.countP BuilderCall.setsNode
  fresh : b.consumed = false → done.countP BuilderCall.isBuild = 0 ∧
    b.coordinates.length = nodes ∧ b.staged.length = done.countP BuilderCall.addsArc ∧
    ∀ id : NodeId, id.toNat < nodes →
      done.countP (BuilderCall.sets id) = (b.assigned[id.toNat]?.getD false).toNat
  spent : b.consumed = true → done.countP BuilderCall.isBuild = 1

namespace GraphBuilder.Tracks

variable {distance std} {nodes : Nat} {b : GraphBuilder F} {done : List (BuilderCall F)}

omit [Top F] [DecidableLT F] [LE F] [DecidableLE F] [Div F] in
theorem start (h : GraphBuilder.new nodes = .ok b) : b.Tracks nodes [] := by
  have hvalid := valid_new h
  unfold GraphBuilder.new validateNodeCapacity at h
  by_cases hcap : nodes > maxSupportedNodeCount
  · simp [hcap] at h
  · simp only [hcap, if_false, ok_bind, pure_eq_ok, Except.ok.injEq] at h
    subst h
    refine ⟨hvalid, by simp [GraphBuilder.fresh], fun _ => ⟨by simp, by simp [GraphBuilder.fresh],
      by simp [GraphBuilder.fresh], fun id hid => ?_⟩, fun hc => ?_⟩
    · simp [GraphBuilder.fresh, hid]
    · simp [GraphBuilder.fresh] at hc

omit [Top F] [LE F] [DecidableLE F] [Div F] in
/-- An accepted call keeps the invariant. -/
theorem accept (h : b.Tracks nodes done) {call : BuilderCall F}
    (hnone : call.failure b = none) : (call.update b).Tracks nodes (done ++ [call]) := by
  have hvalid := call.valid_update h.valid hnone
  cases call with
  | setNode id coordinate externalId =>
      obtain ⟨hc, hunset, -, -⟩ :=
        (b.setNodeFailure_eq_none_iff h.valid.assigned_length id coordinate).mp hnone
      obtain ⟨hbuild, hlen, hstaged, hflags⟩ := h.fresh hc
      obtain ⟨hlt, hflag⟩ := List.getElem?_eq_some_iff.mp hunset
      refine ⟨hvalid, ?_, fun _ => ⟨?_, ?_, ?_, fun j hj => ?_⟩, fun hcons => ?_⟩
      · simp [BuilderCall.update, withNode, BuilderCall.setsNode, h.assigned]
      · simp [BuilderCall.isBuild, hbuild]
      · simp [BuilderCall.update, withNode, hlen]
      · simp [BuilderCall.update, withNode, BuilderCall.addsArc, hstaged]
      · -- the flag of the node goes up with the count of calls that set it
        rw [List.countP_append, hflags j hj]
        by_cases hij : id = j
        · subst hij
          simp [BuilderCall.update, withNode, BuilderCall.sets, hflag, hlt]
        · have hne : id.toNat ≠ j.toNat := fun heq => hij (UInt32.toNat_inj.mp heq)
          simp [BuilderCall.update, withNode, BuilderCall.sets, hij, List.getElem?_set_ne hne]
      · exact absurd hcons (by simp [BuilderCall.update, withNode, hc])
  | addArc source target weight =>
      obtain ⟨hc, -, -⟩ := (b.addArcFailure_eq_none_iff source target weight).mp hnone
      obtain ⟨hbuild, hlen, hstaged, hflags⟩ := h.fresh hc
      refine ⟨hvalid, ?_, fun _ => ⟨?_, hlen, ?_, fun j hj => ?_⟩, fun hcons => ?_⟩
      · simp [BuilderCall.update, withArc, BuilderCall.setsNode, h.assigned]
      · simp [BuilderCall.isBuild, hbuild]
      · simp [BuilderCall.update, withArc, BuilderCall.addsArc, hstaged]
      · rw [List.countP_append, hflags j hj]
        simp [BuilderCall.update, withArc, BuilderCall.sets]
      · exact absurd hcons (by simp [BuilderCall.update, withArc, hc])
  | build =>
      obtain ⟨hc, -⟩ := h.valid.all_assigned hnone
      refine ⟨hvalid, ?_, fun hcons => ?_, fun _ => ?_⟩
      · simp [BuilderCall.update, GraphBuilder.spent, BuilderCall.setsNode, h.assigned]
      · simp [BuilderCall.update, GraphBuilder.spent] at hcons
      · simp [BuilderCall.isBuild, (h.fresh hc).1]

/-- **A history keeps the invariant**, by induction on its calls. -/
theorem run [FiniteOrder F] (calls : List (BuilderCall F)) (h : b.Tracks nodes done) :
    (b.after distance std calls).Tracks nodes (done ++ b.accepted distance std calls) := by
  induction calls generalizing b done with
  | nil => simpa [after, accepted] using h
  | cons call calls ih =>
      simp only [after, List.foldl_cons, accepted, Method.stateAfter]
      rw [call.perform_eq h.valid]
      cases hf : call.failure b with
      | some e => exact ih h
      | none =>
          have hnext := ih (h.accept hf)
          rwa [List.append_assoc] at hnext

omit [Top F] [DecidableLT F] [LE F] [DecidableLE F] [Div F] in
/-- The flag of a node is set exactly when a call has set it. -/
theorem all_set_iff (h : b.Tracks nodes done) (hc : b.consumed = false) :
    b.assignedCount = b.coordinates.length ↔
      ∀ id : NodeId, id.toNat < nodes → done.countP (BuilderCall.sets id) = 1 := by
  obtain ⟨-, hlen, -, hflags⟩ := h.fresh hc
  have hle := h.valid.nodes_le
  rw [h.valid.assignedCount_eq hc, ← h.valid.assigned_length, List.count_eq_length]
  constructor
  · intro hall id hid
    have hlt : id.toNat < b.assigned.length := by
      rw [h.valid.assigned_length, hlen]
      exact hid
    rw [hflags id hid, List.getElem?_eq_getElem hlt, ← hall _ (List.getElem_mem hlt)]
    rfl
  · intro hall flag hflag
    obtain ⟨i, hi, rfl⟩ := List.mem_iff_getElem.mp hflag
    have hin : i < nodes := by
      rw [← hlen, ← h.valid.assigned_length]
      exact hi
    have hid : (UInt32.ofNat i).toNat = i := toNat_ofNat_node (by omega)
    have hone := hall (UInt32.ofNat i) (by rw [hid]; exact hin)
    rw [hflags _ (by rw [hid]; exact hin), hid, List.getElem?_eq_getElem hi] at hone
    cases hget : b.assigned[i] with
    | true => rfl
    | false => simp [hget] at hone

omit [Top F] [DecidableLT F] [LE F] [DecidableLE F] [Div F] in
/-- A builder whose `build` has returned is spent, and the others are not. -/
theorem consumed_of_build (h : b.Tracks nodes done)
    (hpos : 0 < done.countP BuilderCall.isBuild) : b.consumed = true := by
  by_contra hc
  have := (h.fresh (by simpa using hc)).1
  omega

omit [Top F] [DecidableLT F] [LE F] [DecidableLE F] [Div F] in
theorem fresh_of_no_build (h : b.Tracks nodes done)
    (hzero : done.countP BuilderCall.isBuild = 0) : b.consumed = false := by
  by_contra hc
  have := h.spent (by simpa using hc)
  omega

/-- **A failing `build` names the smallest node** that no call has set. -/
theorem unset_of_build_error [FiniteOrder F] (h : b.Tracks nodes done)
    (hc : b.consumed = false) {e : Failure} {b' : GraphBuilder F}
    (herr : GraphBuilder.build distance std b = .error e b') :
    ∃ id : NodeId, id.toNat < nodes ∧ done.countP (BuilderCall.sets id) = 0 ∧
      (∀ j : NodeId, j.toNat < id.toNat → done.countP (BuilderCall.sets j) = 1) ∧
      e = unsetError id.toNat (nodes - b.assignedNodeCount) nodes := by
  obtain ⟨-, hlen, -, hflags⟩ := h.fresh hc
  rw [build_eq distance std h.valid] at herr
  obtain ⟨hf, -⟩ := Method.error_iff.mp herr
  obtain ⟨hlt, hunset, hset, rfl⟩ := h.valid.unset_of_buildFailure hc hf
  have hid : (UInt32.ofNat (firstUnset b.assigned)).toNat = firstUnset b.assigned :=
    toNat_ofNat_node (hlt.trans_le h.valid.nodes_le)
  refine ⟨UInt32.ofNat (firstUnset b.assigned), ?_, ?_, fun j hj => ?_, ?_⟩
  · omega
  · rw [hflags _ (by omega), hid, hunset]
    rfl
  · rw [hid] at hj
    rw [hflags j (by omega), hset j.toNat hj]
    rfl
  · rw [hid, hlen]
    rfl

/-- **The builder answers as its history promises.** -/
theorem contract [FiniteOrder F] (h : b.Tracks nodes done) :
    b.Contract distance std nodes done := by
  refine ⟨fun call e b' herr => ?_, h.assigned,
    fun hzero => (h.fresh (h.fresh_of_no_build hzero)).2.2.1, ?_,
    fun hzero e b' herr => h.unset_of_build_error (h.fresh_of_no_build hzero) herr,
    fun hpos => ⟨h.spent (h.consumed_of_build hpos), fun call => ?_⟩, fun g b' hbuild => ?_⟩
  · -- a failing call leaves the builder alone
    rw [call.perform_eq h.valid] at herr
    obtain ⟨hf, rfl⟩ := Method.error_iff.mp herr
    exact ⟨rfl, call.failure_validation hf⟩
  · constructor
    · rintro ⟨g, b', hbuild⟩
      obtain ⟨hnone, -, -⟩ := (build_eq_ok_iff h.valid).mp hbuild
      obtain ⟨hc, hcount⟩ := h.valid.buildFailure_eq_none_iff.mp hnone
      exact ⟨(h.fresh hc).1, (h.all_set_iff hc).mp hcount⟩
    · rintro ⟨hzero, hall⟩
      have hc := h.fresh_of_no_build hzero
      have hnone := h.valid.buildFailure_eq_none_iff.mpr ⟨hc, (h.all_set_iff hc).mpr hall⟩
      exact ⟨_, _, (build_eq_ok_iff h.valid).mpr ⟨hnone, rfl, rfl⟩⟩
  · rw [call.perform_eq h.valid, call.failure_of_consumed (h.consumed_of_build hpos)]
  · -- what is built stores the arcs that `add_arc` admitted
    obtain ⟨hnone, -, rfl⟩ := (build_eq_ok_iff h.valid).mp hbuild
    have hover : (canonicalGraph distance b.coordinates b.externalIds
        (std.sort b.staged)).OverArcs distance (std.sort b.staged) := h.valid.overArcs hnone
    refine ⟨hover.coordinates_finite, fun arc harc => ?_⟩
    rw [hover.arcs_eq, List.mem_map] at harc
    obtain ⟨a, ha, rfl⟩ := harc
    have hadm := hover.admissible a ha
    exact ⟨hadm.finite, hadm.nonneg, (Graph.contains_iff _ _).mpr hadm.target_lt⟩

end GraphBuilder.Tracks

/-- **The builder keeps its contract along every history**: any calls in any order with any
arguments, failing ones included, starting from the constructor. -/
theorem builder_contract [FiniteOrder F] (nodes : Nat) (start : GraphBuilder F)
    (calls : List (BuilderCall F)) (hnew : GraphBuilder.new nodes = .ok start) :
    (start.after distance std calls).Contract distance std nodes
      (start.accepted distance std calls) := by
  have hrun : (start.after distance std calls).Tracks nodes
      ([] ++ start.accepted distance std calls) := (GraphBuilder.Tracks.start hnew).run calls
  exact hrun.contract

/-- A rejected coordinate, a failed `build`, its retry and a call too many. -/
theorem builder_contract_retry :
    ((GraphBuilder.fresh 1).after lineDistance (Comparison.insertionSort _)
        [.setNode 0 ⟨⊤, 0⟩ 7, .build, .setNode 0 ⟨0, 0⟩ 7, .addArc 0 0 1, .build, .build]).Contract
      lineDistance (Comparison.insertionSort _) 1
      [.setNode 0 ⟨0, 0⟩ 7, .addArc 0 0 1, .build] := by
  have h := builder_contract lineDistance (Comparison.insertionSort _) 1 (GraphBuilder.fresh 1)
    [.setNode 0 ⟨⊤, 0⟩ 7, .build, .setNode 0 ⟨0, 0⟩ 7, .addArc 0 0 1, .build, .build] rfl
  have haccepted : (GraphBuilder.fresh 1).accepted lineDistance (Comparison.insertionSort _)
      [.setNode 0 ⟨⊤, 0⟩ 7, .build, .setNode 0 ⟨0, 0⟩ 7, .addArc 0 0 1, .build, .build]
      = [.setNode 0 ⟨0, 0⟩ 7, .addArc 0 0 1, .build] := by
    decide +kernel
  rwa [haccepted] at h

end RouteEngine
