import RouteEngine.CsvDefect

set_option autoImplicit false

/-! # The calls of the loader on its builder

The checks of the loader imply the preconditions of the builder: the constructor, every
`set_node` and `build` succeed, and an `add_arc` can only run into the arc capacity
(`loader_calls`). What the loader throws is a `GraphLoadError` at the first defect of a file. -/

namespace RouteEngine

variable {F σ : Type}

/-! ## Rounds of a loop -/

/-- The loop over the rows, started with a reader and a state, enters its body with another
reader, the fields of a row and a state. -/
inductive Enters (body : Reader → Fields → σ → Outcome σ) :
    Nat → Reader → σ → Reader → Fields → σ → Prop
  | here {fuel : Nat} {reader reader' : Reader} {fields : Fields} {state : σ} :
      reader.nextRow = .ok (some fields, reader') →
        Enters body (fuel + 1) reader state reader' fields state
  | later {fuel : Nat} {reader reader' reader'' : Reader} {fields fields' : Fields}
      {state state' state'' : σ} :
      reader.nextRow = .ok (some fields, reader') → body reader' fields state = .ok state' →
        Enters body fuel reader' state' reader'' fields' state'' →
          Enters body (fuel + 1) reader state reader'' fields' state''

section Loop

variable {body : Reader → Fields → σ → Outcome σ} {holds : σ → Prop}
  (hstep : ∀ reader fields state state', holds state → body reader fields state = .ok state' →
    holds state')

include hstep

/-- An invariant of the body holds whenever the body is entered. -/
theorem Enters.invariant {fuel : Nat} {reader reader' : Reader} {fields : Fields}
    {state state' : σ} (h : Enters body fuel reader state reader' fields state')
    (hstart : holds state) : holds state' := by
  induction h with
  | here _ => exact hstart
  | later _ hbody _ ih => exact ih (hstep _ _ _ _ hstart hbody)

/-- An invariant of the body holds after the loop. -/
theorem eachRow_invariant {fuel : Nat} {reader : Reader} {state state' : σ}
    (h : eachRow body fuel reader state = .ok state') (hstart : holds state) : holds state' := by
  induction fuel generalizing reader state with
  | zero => cases h
  | succ fuel ih =>
      rw [eachRow] at h
      rcases bind_eq_ok.mp h with ⟨⟨row, reader'⟩, -, h⟩
      cases row with
      | none =>
          -- the end of the file
          have hsame : state = state' := Except.ok.inj h
          exact hsame ▸ hstart
      | some fields =>
          rcases bind_eq_ok.mp h with ⟨next, hbody, h⟩
          exact ih h (hstep _ _ _ _ hstart hbody)

end Loop

/-! ## The node file -/

section Nodes

variable [IsFinite F] {fromChars : Text → Option (F × Text)}

/-- The records that `read_nodes` returns: few enough, with distinct identifiers and finite
coordinates. -/
structure RecordsOk (records : List (NodeRecord F)) : Prop where
  nodup : (records.map NodeRecord.externalId).Nodup
  length_le : records.length ≤ maxSupportedNodeCount
  finite : ∀ record ∈ records,
    isFinite record.coordinate.x = true ∧ isFinite record.coordinate.y = true

theorem RecordsOk.of_reads {lines : List (Nat × Text)} {records : List (NodeRecord F)}
    (h : Reads (GoodNode fromChars) [] lines records) : RecordsOk records := by
  rcases nodup_of_reads h with ⟨hnodup, hle⟩
  refine ⟨hnodup, hle, ?_⟩
  refine h.induct (P := fun records => ∀ record ∈ records,
    isFinite record.coordinate.x = true ∧ isFinite record.coordinate.y = true) ?_ (by simp)
  intro done line record hdone hgood other hother
  rcases List.mem_append.mp hother with hother | hother
  · exact hdone other hother
  · rcases hgood.row with ⟨fields, -, hfields⟩
    rw [List.mem_singleton.mp hother]
    exact ⟨hfields.x.2, hfields.y.2⟩

/-- `read_nodes` returns records and their index, or throws at the first defect. -/
theorem readNodes_outcome (fromChars : Text → Option (F × Text)) (input : InputStream)
    (name : String) :
    (∃ records, readNodes fromChars input name = .ok (nodeState records) ∧ RecordsOk records) ∨
      ∃ number message, NodeDefect fromChars (contents input.lines 0) number ∧
        readNodes fromChars input name = .error (.graphLoad name number message) := by
  rcases reads_or_defect nodeNames (GoodNode fromChars) (contents input.lines 0) with
    ⟨header, lines, records, hlines, hheader, hread⟩ | ⟨number, hdefect⟩
  · refine .inl ⟨records, ?_, .of_reads hread⟩
    have hloop : lines.foldlM (rowStep name (readNode fromChars)) (nodeState [])
        = .ok (nodeState records) :=
      hread.foldlM_eq (fun _ _ _ hgood => rowStep_of_goodNode name hgood)
    simp only [nodeNames] at hheader
    unfold readNodes
    rw [readRows_eq (fun _ => rfl), hlines]
    simp only [if_pos (splitFields_eq_ok_iff.mpr hheader)]
    exact hloop
  · rcases readNodes_of_defect hdefect name with ⟨message, herror⟩
    exact .inr ⟨number, message, hdefect, herror⟩

end Nodes

/-! ## Setting the nodes -/

section Fill

variable [IsFinite F] [Zero F] {records : List (NodeRecord F)}

theorem RecordsOk.new_eq (h : RecordsOk records) :
    (GraphBuilder.new records.length : Outcome (GraphBuilder F))
      = .ok (filled [] records.length) := by
  unfold GraphBuilder.new validateNodeCapacity
  rw [if_neg (Nat.not_lt.mpr h.length_le)]
  rfl

/-- The builder after the first records. -/
theorem RecordsOk.foldlM_before (h : RecordsOk records) (name : String)
    {before after : List (NodeRecord F)} (hsplit : records = before ++ after) :
    before.zipIdx.foldlM (setRecord name) (filled [] records.length)
      = .ok (filled before after.length) := by
  have hle := h.length_le
  rw [hsplit, List.length_append] at hle
  -- the last record is set after all the others
  induction before using List.reverseRecOn generalizing after with
  | nil =>
      rw [hsplit]
      rfl
  | append_singleton before record ih =>
      rw [List.append_assoc, List.singleton_append] at hsplit
      have hmem : record ∈ records := by simp [hsplit]
      rw [List.length_append, List.length_singleton] at hle
      have hbefore := ih hsplit (by rw [List.length_cons]; omega)
      rw [List.zipIdx_append, List.foldlM_append, hbefore, ok_bind, Nat.zero_add,
        List.zipIdx_cons, List.foldlM_cons, List.length_cons,
        setRecord_filled name record (h.finite record hmem) before _ (by omega)]
      rfl

/-- Every call of `set_node` succeeds. -/
theorem RecordsOk.setNode_eq (h : RecordsOk records) {before after : List (NodeRecord F)}
    {record : NodeRecord F} (hsplit : records = before ++ record :: after) :
    GraphBuilder.setNode (UInt32.ofNat before.length) record.coordinate record.externalId
        (filled before (after.length + 1))
      = .ok () (filled (before ++ [record]) after.length) := by
  have hle := h.length_le
  rw [hsplit, List.length_append, List.length_cons] at hle
  have hids : (before.map NodeRecord.externalId).length
      = (before.map NodeRecord.coordinate).length := by simp
  have hroom : (before.map NodeRecord.coordinate).length < maxSupportedNodeCount := by
    rw [List.length_map]
    omega
  have hset := GraphBuilder.setNode_partly hids hroom after.length record.coordinate
    record.externalId
  rw [if_pos (h.finite record (by simp [hsplit])), List.length_map] at hset
  simpa [filled_eq_partly] using hset

end Fill

/-! ## The edge file -/

section Edges

variable [IsFinite F] [Zero F] [LT F] [DecidableLT F] {fromChars : Text → Option (F × Text)}

/-- The body of the loop of `read_edges` gets past its checks and calls `add_arc` with the
source, the target and the weight of this arc. -/
structure ArcCall (fromChars : Text → Option (F × Text)) (index : NodeIndex) (fields : Fields)
    (arc : StagedArc F) : Prop where
  source : ∃ id, parseExternalId fields.1 = some id ∧ index.lookup id = some arc.source
  target : ∃ id, parseExternalId fields.2.1 = some id ∧ index.lookup id = some arc.target
  weight : parseFinite fromChars fields.2.2 = some arc.weight
  nonneg : ¬ arc.weight < 0

theorem readEdge_of_call {index : NodeIndex} {fields : Fields} {arc : StagedArc F}
    (h : ArcCall fromChars index fields arc) (reader : Reader) (b : GraphBuilder F) :
    readEdge fromChars index reader fields b
      = (do
        let (_, b) ← (GraphBuilder.addArc arc.source arc.target arc.weight).rethrowing
          reader.name reader.lineNumber b
        return b) := by
  rcases h.source with ⟨sourceId, hsourceId, hsource⟩
  rcases h.target with ⟨targetId, htargetId, htarget⟩
  unfold readEdge
  simp only [hsourceId, htargetId, h.weight, if_neg h.nonneg, hsource, htarget]

/-- Without that call the body reports the row itself. -/
theorem readEdge_of_no_call {index : NodeIndex} {fields : Fields}
    (h : ∀ arc, ¬ ArcCall fromChars index fields arc) (reader : Reader) (b : GraphBuilder F) :
    ∃ message, readEdge fromChars index reader fields b
      = .error (.graphLoad reader.name reader.lineNumber message) := by
  unfold readEdge
  cases hsourceId : parseExternalId fields.1 with
  | none => exact ⟨_, rfl⟩
  | some sourceId =>
  cases htargetId : parseExternalId fields.2.1 with
  | none => exact ⟨_, rfl⟩
  | some targetId =>
  cases hparse : parseFinite fromChars fields.2.2 with
  | none => exact ⟨_, rfl⟩
  | some weight =>
  by_cases hneg : weight < 0
  · simp only [if_pos hneg]
    exact ⟨_, rfl⟩
  cases hsource : index.lookup sourceId with
  | none =>
      simp only [if_neg hneg, hsource]
      exact ⟨_, rfl⟩
  | some source =>
  cases htarget : index.lookup targetId with
  | none =>
      simp only [if_neg hneg, hsource, htarget]
      exact ⟨_, rfl⟩
  | some target =>
      exact absurd ⟨⟨sourceId, hsourceId, hsource⟩, ⟨targetId, htargetId, htarget⟩, hparse, hneg⟩
        (h ⟨source, target, weight⟩)

variable {records : List (NodeRecord F)} (hrecords : RecordsOk records)

include hrecords

omit [DecidableLT F] in
/-- The checks of the loader are those of `add_arc`. -/
theorem ArcCall.admissible {fields : Fields} {arc : StagedArc F}
    (h : ArcCall fromChars (nodeState records).2 fields arc) : arc.Admissible records.length := by
  have hle : (records.map NodeRecord.externalId).length ≤ maxSupportedNodeCount := by
    rw [List.length_map]
    exact hrecords.length_le
  have hlt : ∀ {id : ExternalId} {node : NodeId},
      (nodeState records).2.lookup id = some node → node.toNat < records.length := by
    intro id node hlookup
    have hplace := (lookup_indexOf_eq_some_iff hrecords.nodup hle).mp hlookup
    have hplace := (List.getElem?_eq_some_iff.mp hplace).1
    rwa [List.length_map] at hplace
  rcases h.source with ⟨sourceId, -, hsource⟩
  rcases h.target with ⟨targetId, -, htarget⟩
  have hweight := (Option.filter_eq_some_iff.mp h.weight).2
  exact ⟨hlt hsource, hlt htarget, hweight, h.nonneg⟩

/-- The builder in the loop over the edges: all nodes are set, and some arcs were added. -/
structure Loading (records : List (NodeRecord F)) (b : GraphBuilder F) : Prop where
  eq : ∃ arcs, b = (filled records 0).withArcs arcs
  room : b.staged.length ≤ maxArcCount
  admissible : ∀ arc ∈ b.staged, arc.Admissible records.length

omit [DecidableLT F] hrecords in
theorem loading_filled (records : List (NodeRecord F)) : Loading records (filled records 0) :=
  ⟨⟨[], by simp⟩, Nat.zero_le _, by simp [filled]⟩

omit [DecidableLT F] hrecords in
theorem Loading.fields {b : GraphBuilder F} (h : Loading records b) :
    b.consumed = false ∧ b.coordinates.length = records.length := by
  rcases h.eq with ⟨arcs, rfl⟩
  simp [GraphBuilder.withArcs, filled]

/-- `add_arc` fails for want of capacity only. -/
theorem Loading.addArcFailure {b : GraphBuilder F} (h : Loading records b) {fields : Fields}
    {arc : StagedArc F} (hcall : ArcCall fromChars (nodeState records).2 fields arc) :
    b.addArcFailure arc.source arc.target arc.weight
      = match validateArcCapacity (b.staged.length + 1) with
        | .error e => some e
        | .ok _ => none := by
  rcases h.fields with ⟨hopen, hnodes⟩
  rcases hcall.admissible hrecords with ⟨hsource, htarget, hfinite, hnonneg⟩
  rw [← hnodes] at hsource htarget
  unfold GraphBuilder.addArcFailure
  rewrite [if_neg (by simp [hopen]), if_neg (Nat.not_le.mpr hsource),
    if_neg (Nat.not_le.mpr htarget), if_neg (by simp [hfinite]), if_neg hnonneg]
  rfl

/-- The loop over the edges keeps the builder loading. -/
theorem Loading.step {reader : Reader} {fields : Fields} {b b' : GraphBuilder F}
    (h : Loading records b)
    (hbody : readEdge fromChars (nodeState records).2 reader fields b = .ok b') :
    Loading records b' := by
  by_cases hcall : ∃ arc, ArcCall fromChars (nodeState records).2 fields arc
  swap
  · -- the loader itself reports the row
    rcases readEdge_of_no_call (not_exists.mp hcall) reader b with ⟨message, herror⟩
    rw [herror] at hbody
    cases hbody
  rcases hcall with ⟨arc, hcall⟩
  have hfailure := h.addArcFailure hrecords hcall
  rw [readEdge_of_call hcall, Method.rethrowing, GraphBuilder.addArc_eq, hfailure] at hbody
  unfold validateArcCapacity at hbody
  split_ifs at hbody with hcap
  · cases hbody
  · -- the arc is staged after those before it
    have hsame : b' = b.withArcs [arc] := (Except.ok.inj hbody).symm
    subst hsame
    rcases h.eq with ⟨arcs, heq⟩
    refine ⟨⟨arcs ++ [arc], by rw [heq, GraphBuilder.withArcs_withArcs]⟩, ?_, ?_⟩
    · rw [GraphBuilder.withArcs, List.length_append, List.length_singleton]
      omega
    · intro other hother
      rcases List.mem_append.mp hother with hother | hother
      · exact h.admissible other hother
      · rw [List.mem_singleton.mp hother]
        exact hcall.admissible hrecords

/-- `read_edges` leaves the builder loading. -/
theorem Loading.of_readEdges {edges : InputStream} {name : String} {b : GraphBuilder F}
    (h : readEdges fromChars edges name (nodeState records).2 (filled records 0) = .ok b) :
    Loading records b := by
  rcases bind_eq_ok.mp h with ⟨reader, -, hloop⟩
  exact eachRow_invariant (fun _ _ _ _ => Loading.step hrecords) hloop (loading_filled records)

/-- `read_edges` throws at the first defect. -/
theorem readEdges_error {edges : InputStream} {name : String} {e : Failure}
    (h : readEdges fromChars edges name (nodeState records).2 (filled records 0) = .error e) :
    ∃ number message, e = .graphLoad name number message ∧
      EdgeDefect fromChars (records.map NodeRecord.externalId) (contents edges.lines 0)
        number := by
  have hle : (records.map NodeRecord.externalId).length ≤ maxSupportedNodeCount := by
    rw [List.length_map]
    exact hrecords.length_le
  have hnodes : (filled records 0).coordinates.length
      = (records.map NodeRecord.externalId).length := by simp [filled]
  rcases reads_or_defect edgeNames
      (GoodEdge fromChars (records.map NodeRecord.externalId)) (contents edges.lines 0) with
    ⟨header, lines, arcs, hlines, hheader, hread⟩ | ⟨number, hdefect⟩
  · -- without a defect nothing is thrown
    have hloop : lines.foldlM (rowStep name (readEdge fromChars (nodeState records).2))
        ((filled records 0).withArcs []) = .ok ((filled records 0).withArcs arcs) :=
      hread.foldlM_eq
        (fun _ _ _ => rowStep_of_goodEdge hrecords.nodup hle rfl hnodes rfl name)
    rw [GraphBuilder.withArcs_nil] at hloop
    simp only [edgeNames] at hheader
    unfold readEdges at h
    rw [readRows_eq (fun _ => rfl), hlines] at h
    simp only [if_pos (splitFields_eq_ok_iff.mpr hheader)] at h
    rw [hloop] at h
    cases h
  · rcases readEdges_of_defect hrecords.nodup hle rfl hnodes rfl hdefect name with
      ⟨message, herror⟩
    have hsame : readEdges fromChars edges name (nodeState records).2 (filled records 0)
        = .error (.graphLoad name number message) := herror
    rw [hsame, Except.error.injEq] at h
    exact ⟨number, message, h.symm, hdefect⟩

end Edges

/-! ## The loader -/

section Load

variable [IsFinite F] [Zero F] [Top F] [LT F] [DecidableLT F] [LE F] [DecidableLE F] [Div F]
variable {fromChars : Text → Option (F × Text)} {records : List (NodeRecord F)}

/-- A builder that is loading can be built. -/
theorem Loading.build_eq [FiniteOrder F] {b : GraphBuilder F} (h : Loading records b)
    (hrecords : RecordsOk records) (distance : Coord F → Coord F → F)
    (std : Comparison.Sorter (GraphBuilder.stagedBefore (F := F))) :
    ∃ g b', GraphBuilder.build distance std b = .ok g b' := by
  rcases h.eq with ⟨arcs, rfl⟩
  have hcomplete : (filled records 0).withArcs arcs
      = GraphBuilder.complete (records.map NodeRecord.coordinate)
          (records.map NodeRecord.externalId) arcs := by
    simp [filled, GraphBuilder.withArcs, GraphBuilder.complete]
  have hroom := h.room
  have hadmissible := h.admissible
  rw [hcomplete] at hroom hadmissible ⊢
  have hvalid : (GraphBuilder.complete (records.map NodeRecord.coordinate)
      (records.map NodeRecord.externalId) arcs).Valid := by
    apply GraphBuilder.valid_complete
    · simp
    · rw [List.length_map]
      exact hrecords.length_le
    · intro c hc
      rcases List.mem_map.mp hc with ⟨record, hrecord, rfl⟩
      exact hrecords.finite record hrecord
    · exact hroom
    · rw [List.length_map]
      exact hadmissible
  exact ⟨_, _, GraphBuilder.build_complete hvalid⟩

/-- What the calls of the loader on its builder do, after the node file was read as these records
and this index. The loader runs on to a call only if the ones before it succeeded. -/
structure CallsSucceed (fromChars : Text → Option (F × Text)) (distance : Coord F → Coord F → F)
    (std : Comparison.Sorter (GraphBuilder.stagedBefore (F := F))) (nodesName : String)
    (edges : InputStream) (edgesName : String) (records : List (NodeRecord F))
    (index : NodeIndex) : Prop where
  /-- the constructor -/
  new : ∃ start : GraphBuilder F, GraphBuilder.new records.length = .ok start
  /-- `set_node`, in each round of the loop over the records -/
  setNode : ∀ start before record i after b,
    GraphBuilder.new records.length = .ok start →
    records.zipIdx = before ++ (record, i) :: after →
    before.foldlM (setRecord nodesName) start = .ok b →
      ∃ b', GraphBuilder.setNode (UInt32.ofNat i) record.coordinate record.externalId b
        = .ok () b'
  /-- `add_arc`, in each round of the loop over the edges that gets to it -/
  addArc : ∀ start b₀ reader reader' fields b arc,
    GraphBuilder.new records.length = .ok start →
    records.zipIdx.foldlM (setRecord nodesName) start = .ok b₀ →
    (Reader.new edges edgesName).expectHeader "source" "target" "weight" = .ok reader →
    Enters (readEdge fromChars index) reader.rowFuel reader b₀ reader' fields b →
    ArcCall fromChars index fields arc →
      (∃ b', GraphBuilder.addArc arc.source arc.target arc.weight b = .ok () b') ∨
        ∃ e, validateArcCapacity (b.staged.length + 1) = .error e ∧
          GraphBuilder.addArc arc.source arc.target arc.weight b = .error e b
  /-- `build` -/
  build : ∀ start b₀ b,
    GraphBuilder.new records.length = .ok start →
    records.zipIdx.foldlM (setRecord nodesName) start = .ok b₀ →
    readEdges fromChars edges edgesName index b₀ = .ok b →
      ∃ g b', GraphBuilder.build distance std b = .ok g b'

variable [FiniteOrder F] (fromChars) (distance : Coord F → Coord F → F)
  (std : Comparison.Sorter (GraphBuilder.stagedBefore (F := F)))

theorem RecordsOk.callsSucceed (h : RecordsOk records) (nodesName : String)
    (edges : InputStream) (edgesName : String) :
    CallsSucceed fromChars distance std nodesName edges edgesName records
      (nodeState records).2 := by
  have hstart : ∀ start : GraphBuilder F, GraphBuilder.new records.length = .ok start →
      start = filled [] records.length := by
    intro start hnew
    rw [h.new_eq, Except.ok.injEq] at hnew
    exact hnew.symm
  have hfilled : ∀ start b₀ : GraphBuilder F, GraphBuilder.new records.length = .ok start →
      records.zipIdx.foldlM (setRecord nodesName) start = .ok b₀ → b₀ = filled records 0 := by
    intro start b₀ hnew hset
    rw [hstart start hnew, h.foldlM_before nodesName (List.append_nil records).symm,
      Except.ok.injEq] at hset
    exact hset.symm
  refine ⟨⟨_, h.new_eq⟩, ?_, ?_, ?_⟩
  · intro start before record i after b hnew hsplit hbefore
    -- the rounds before are those of the records before
    rcases List.zipIdx_eq_append_iff.mp hsplit with ⟨front, back, hrecords, rfl, hback⟩
    rcases List.zipIdx_eq_cons_iff.mp hback.symm with ⟨next, rest, rfl, hnext, -⟩
    rw [Prod.mk.injEq, Nat.zero_add] at hnext
    rcases hnext with ⟨rfl, rfl⟩
    rw [hstart start hnew, h.foldlM_before nodesName hrecords, Except.ok.injEq] at hbefore
    subst hbefore
    exact ⟨_, h.setNode_eq hrecords⟩
  · intro start b₀ reader reader' fields b arc hnew hset _ henters hcall
    rw [hfilled start b₀ hnew hset] at henters
    have hloading := henters.invariant (fun _ _ _ _ => Loading.step h) (loading_filled records)
    rw [GraphBuilder.addArc_eq, hloading.addArcFailure h hcall]
    cases hcap : validateArcCapacity (b.staged.length + 1) with
    | error e => exact .inr ⟨e, rfl, rfl⟩
    | ok _ => exact .inl ⟨_, rfl⟩
  · intro start b₀ b hnew hset hread
    rw [hfilled start b₀ hnew hset] at hread
    exact (Loading.of_readEdges h hread).build_eq h distance std

/-- **The builder objects to nothing but the number of arcs.** Whatever the two streams hold, the
constructor, every `set_node` and `build` succeed, and an `add_arc` fails for want of capacity
only; the loader throws nothing but a `GraphLoadError`, at the first defect of the node file or,
when it has none, of the edge file. -/
theorem loader_calls (nodes : InputStream) (nodesName : String) (edges : InputStream)
    (edgesName : String) :
    (∀ records index, readNodes fromChars nodes nodesName = .ok (records, index) →
      CallsSucceed fromChars distance std nodesName edges edgesName records index) ∧
    ∀ e, loadGraph fromChars distance std nodes nodesName edges edgesName = .error e →
      (∃ number message, e = .graphLoad nodesName number message ∧
        NodeDefect fromChars (contents nodes.lines 0) number) ∨
      ∃ records number message, readNodes fromChars nodes nodesName = .ok (nodeState records) ∧
        e = .graphLoad edgesName number message ∧
        EdgeDefect fromChars (records.map NodeRecord.externalId) (contents edges.lines 0)
          number := by
  rcases readNodes_outcome fromChars nodes nodesName with
    ⟨records, hread, hrecords⟩ | ⟨number, message, hdefect, herror⟩
  · refine ⟨?_, ?_⟩
    · intro records' index hread'
      rw [hread, Except.ok.injEq] at hread'
      rcases Prod.mk.inj hread' with ⟨rfl, rfl⟩
      exact hrecords.callsSucceed fromChars distance std nodesName edges edgesName
    · intro e he
      have hset := hrecords.foldlM_before nodesName (List.append_nil records).symm
      simp only [loadGraph, hread, nodeState, hrecords.new_eq, hset, ok_bind] at he
      cases hedges : readEdges fromChars edges edgesName (nodeState records).2
          (filled records 0) with
      | ok b =>
          -- the builder that the loop leaves is built
          rcases (Loading.of_readEdges hrecords hedges).build_eq hrecords distance std with
            ⟨g, b', hbuild⟩
          simp only [nodeState] at hedges
          rw [List.length_nil, hedges, ok_bind, Method.rethrowing, hbuild] at he
          cases he
      | error e' =>
          rcases readEdges_error hrecords hedges with ⟨number, message, rfl, hdefect⟩
          simp only [nodeState] at hedges
          rw [List.length_nil, hedges, error_bind, Except.error.injEq] at he
          exact .inr ⟨records, number, message, hread, he.symm, hdefect⟩
  · refine ⟨?_, ?_⟩
    · intro records index hread
      rw [herror] at hread
      cases hread
    · intro e he
      rw [loadGraph, herror, error_bind, Except.error.injEq] at he
      exact .inl ⟨number, message, he.symm, hdefect⟩

end Load

/-- The calls over the sample files, whose node file has two records. -/
theorem loader_calls_sample :
    ∃ records index, readNodes Binary64.ofText (.ofText sampleNodes) "nodes.csv"
        = .ok (records, index) ∧ records.length = 2 ∧
      CallsSucceed Binary64.ofText lineDistance (Comparison.insertionSort _) "nodes.csv"
        (.ofText sampleEdges) "edges.csv" records index := by
  have hrun : (readNodes Binary64.ofText (.ofText sampleNodes) "nodes.csv").map
      (fun state => state.1.length) = .ok 2 := by
    decide +kernel
  obtain ⟨⟨records, index⟩, hread, hlength⟩ := map_eq_ok.mp hrun
  have hcalls := (loader_calls Binary64.ofText lineDistance (Comparison.insertionSort _)
    (.ofText sampleNodes) "nodes.csv" (.ofText sampleEdges) "edges.csv").1 records index hread
  exact ⟨records, index, hread, hlength, hcalls⟩

end RouteEngine
