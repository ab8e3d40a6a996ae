import RouteEngine.CsvReader
import RouteEngine.BuilderFill

set_option autoImplicit false

/-! # What the loops of the loader accept

The loop bodies of `read_nodes` and `read_edges`, and the loops, have two lemmas each: on
well-formed rows they return the value that the rows denote (`_of_`), and all other rows are
refused with a `GraphLoadError` at one of the lines (`_cases`). -/

namespace RouteEngine

variable {F : Type}

/-! ## The index -/

/-- The index of identifiers, in the order of the nodes. -/
def indexOf (ids : List ExternalId) : NodeIndex :=
  (ids.zipIdx.map (fun (id, i) => (id, UInt32.ofNat i))).reverse

theorem indexOf_concat (ids : List ExternalId) (id : ExternalId) :
    indexOf (ids ++ [id]) = (id, UInt32.ofNat ids.length) :: indexOf ids := by
  simp [indexOf, List.zipIdx_append]

theorem lookup_indexOf_eq_none {ids : List ExternalId} {id : ExternalId} (h : id ∉ ids) :
    (indexOf ids).lookup id = none := by
  induction ids using List.reverseRecOn with
  | nil => rfl
  | append_singleton ids last ih =>
      rw [List.mem_append, List.mem_singleton, not_or] at h
      rw [indexOf_concat, List.lookup_cons, beq_false_of_ne h.2]
      exact ih h.1

/-- Distinct identifiers are found at their place. -/
theorem lookup_indexOf_eq_some_iff {ids : List ExternalId} {id : ExternalId} {node : NodeId}
    (hnodup : ids.Nodup) (hle : ids.length ≤ maxSupportedNodeCount) :
    (indexOf ids).lookup id = some node ↔ ids[node.toNat]? = some id := by
  induction ids using List.reverseRecOn with
  | nil => simp [indexOf]
  | append_singleton ids last ih =>
      rw [List.length_append, List.length_singleton] at hle
      have hlast : last ∉ ids := fun h =>
        (List.nodup_append.mp hnodup).2.2 last h last (by simp) rfl
      have hplace : (UInt32.ofNat ids.length).toNat = ids.length :=
        toNat_ofNat_node (by omega)
      rw [indexOf_concat, List.lookup_cons]
      by_cases hid : id = last
      · subst hid
        rw [beq_self_eq_true, Option.some.injEq]
        constructor
        · rintro rfl
          rw [hplace]
          simp
        · intro hnode
          -- the identifier is at the last place only
          have hlt := (List.getElem?_eq_some_iff.mp hnode).1
          rw [List.length_append, List.length_singleton] at hlt
          rcases Nat.lt_or_ge node.toNat ids.length with hbefore | hge
          · rw [List.getElem?_append_left hbefore] at hnode
            exact absurd (List.mem_of_getElem? hnode) hlast
          · rw [← UInt32.toNat_inj, hplace]
            omega
      · have hih := ih (List.nodup_append.mp hnodup).1 (by omega)
        rw [beq_false_of_ne hid]
        constructor
        · intro h
          have hnode := hih.mp h
          rw [List.getElem?_append_left (List.getElem?_eq_some_iff.mp hnode).1]
          exact hnode
        · intro hnode
          refine hih.mpr ?_
          rcases Nat.lt_or_ge node.toNat ids.length with hbefore | hge
          · rwa [List.getElem?_append_left hbefore] at hnode
          · rw [List.getElem?_append_right hge] at hnode
            have hmem := List.mem_of_getElem? hnode
            exact absurd (List.mem_singleton.mp hmem) hid

/-! ## The node file -/

/-- The record of a row that was read at a line. -/
def NodeRow.recordAt (line : Nat × Text) (row : NodeRow F) : NodeRecord F :=
  ⟨row.externalId, row.coordinate, line.1⟩

def NodeRecord.row (record : NodeRecord F) : NodeRow F := ⟨record.externalId, record.coordinate⟩

/-- The state of `read_nodes` after some records. -/
def nodeState (records : List (NodeRecord F)) : List (NodeRecord F) × NodeIndex :=
  (records, indexOf (records.map NodeRecord.externalId))

section Nodes

variable [IsFinite F] {fromChars : Text → Option (F × Text)}

theorem readNode_of_fields {reader : Reader} {fields : Fields} {row : NodeRow F}
    (hx : fields.2.1 ≠ []) (hy : fields.2.2 ≠ []) (h : NodeFields fromChars fields row)
    {records : List (NodeRecord F)} (hcap : records.length < maxSupportedNodeCount)
    (hnew : row.externalId ∉ records.map NodeRecord.externalId) :
    readNode fromChars reader fields (nodeState records)
      = .ok (nodeState (records ++ [row.recordAt (reader.lineNumber, [])])) := by
  unfold readNode nodeState
  simp only [parseExternalId_eq_some_iff.mpr h.externalId,
    (parseFinite_eq_some_iff hx).mpr h.x, (parseFinite_eq_some_iff hy).mpr h.y,
    if_neg (Nat.not_le.mpr hcap), lookup_indexOf_eq_none hnew, pure_eq_ok, List.map_append,
    List.map_cons, List.map_nil, indexOf_concat, List.length_map, NodeRow.recordAt]

theorem readNode_cases (fromChars : Text → Option (F × Text)) (reader : Reader)
    {fields : Fields} (hx : fields.2.1 ≠ [])
    (hy : fields.2.2 ≠ [])
    {records : List (NodeRecord F)} (hnodup : (records.map NodeRecord.externalId).Nodup)
    (hle : records.length ≤ maxSupportedNodeCount) :
    (∃ row, NodeFields fromChars fields row ∧ records.length < maxSupportedNodeCount ∧
        row.externalId ∉ records.map NodeRecord.externalId) ∨
      ∃ message, readNode fromChars reader fields (nodeState records)
        = .error (.graphLoad reader.name reader.lineNumber message) := by
  unfold readNode nodeState
  cases hid : parseExternalId fields.1 with
  | none => exact Or.inr ⟨_, rfl⟩
  | some externalId =>
  cases hpx : parseFinite fromChars fields.2.1 with
  | none => exact Or.inr ⟨_, rfl⟩
  | some x =>
  cases hpy : parseFinite fromChars fields.2.2 with
  | none => exact Or.inr ⟨_, rfl⟩
  | some y =>
  by_cases hcap : records.length ≥ maxSupportedNodeCount
  · simp only [if_pos hcap]
    exact Or.inr ⟨_, rfl⟩
  by_cases hmem : externalId ∈ records.map NodeRecord.externalId
  · -- a second row with the identifier; the first one is found through the index
    obtain ⟨i, hi, hget⟩ := List.mem_iff_getElem.mp hmem
    have hplace : (UInt32.ofNat i).toNat = i := by
      rw [List.length_map] at hi
      exact toNat_ofNat_node (by omega)
    have hlookup : (indexOf (records.map NodeRecord.externalId)).lookup externalId
        = some (UInt32.ofNat i) := by
      rw [lookup_indexOf_eq_some_iff hnodup (by rwa [List.length_map]), hplace]
      exact List.getElem?_eq_some_iff.mpr ⟨hi, hget⟩
    rw [List.length_map] at hi
    have hsub : subscript records i = .ok records[i] :=
      subscript_eq_ok.mpr (List.getElem?_eq_getElem hi)
    simp only [if_neg hcap, hlookup, hplace, hsub, ok_bind]
    exact Or.inr ⟨_, rfl⟩
  · refine Or.inl ⟨⟨externalId, ⟨x, y⟩⟩, ⟨?_, ?_, ?_⟩, Nat.not_le.mp hcap, hmem⟩
    · exact parseExternalId_eq_some_iff.mp hid
    · exact (parseFinite_eq_some_iff hx).mp hpx
    · exact (parseFinite_eq_some_iff hy).mp hpy

/-- The loop of `read_nodes` over rows with new identifiers. -/
theorem foldlM_node_of_rows (name : String) {lines : List (Nat × Text)}
    {rows : List (NodeRow F)}
    (h : List.Forall₂ (fun line row => IsNodeRow fromChars line.2 row) lines rows)
    (records : List (NodeRecord F))
    (hnodup : (records.map NodeRecord.externalId ++ rows.map NodeRow.externalId).Nodup)
    (hle : records.length + rows.length ≤ maxSupportedNodeCount) :
    lines.foldlM (rowStep name (readNode fromChars)) (nodeState records)
      = .ok (nodeState (records ++ List.zipWith NodeRow.recordAt lines rows)) := by
  induction h generalizing records with
  | nil => simp
  | @cons line row lines rows hrow _ ih =>
      obtain ⟨fields, hline, hfields⟩ := hrow
      rw [List.length_cons] at hle
      have hnew : row.externalId ∉ records.map NodeRecord.externalId := fun hmem =>
        (List.nodup_append.mp hnodup).2.2 _ hmem _ (by simp) rfl
      have hstep : readNode fromChars (Reader.atLine name line.1) fields (nodeState records)
          = .ok (nodeState (records ++ [row.recordAt line])) :=
        readNode_of_fields hline.second hline.third hfields (by omega) hnew
      rw [List.foldlM_cons, rowStep_of_row hline, hstep, ok_bind, ih]
      · simp
      · simpa [NodeRow.recordAt] using hnodup
      · rw [List.length_append, List.length_singleton]
        omega

theorem foldlM_node_cases (fromChars : Text → Option (F × Text)) (name : String)
    (lines : List (Nat × Text))
    (records : List (NodeRecord F)) (hnodup : (records.map NodeRecord.externalId).Nodup)
    (hle : records.length ≤ maxSupportedNodeCount) :
    (∃ rows : List (NodeRow F),
        List.Forall₂ (fun line row => IsNodeRow fromChars line.2 row) lines rows ∧
        (records.map NodeRecord.externalId ++ rows.map NodeRow.externalId).Nodup ∧
        records.length + rows.length ≤ maxSupportedNodeCount) ∨
      ∃ line message, lines.foldlM (rowStep name (readNode fromChars)) (nodeState records)
        = .error (.graphLoad name line message) := by
  induction lines generalizing records with
  | nil => exact Or.inl ⟨[], List.Forall₂.nil, by simpa using hnodup, by simpa using hle⟩
  | cons line lines ih =>
      rcases rowStep_cases name (readNode fromChars) (nodeState records) line with
        ⟨fields, hline⟩ | ⟨message, herror⟩
      swap
      · exact Or.inr ⟨_, message, by rw [List.foldlM_cons, herror, error_bind]⟩
      -- the line has three fields, and its values are checked next
      rcases readNode_cases fromChars (Reader.atLine name line.1) hline.second hline.third hnodup
          hle with ⟨row, hfields, hcap, hnew⟩ | ⟨message, herror⟩
      swap
      · refine Or.inr ⟨line.1, message, ?_⟩
        rw [List.foldlM_cons, rowStep_of_row hline, herror, error_bind]
        rfl
      have hstep : readNode fromChars (Reader.atLine name line.1) fields (nodeState records)
          = .ok (nodeState (records ++ [row.recordAt line])) :=
        readNode_of_fields hline.second hline.third hfields hcap hnew
      rw [List.foldlM_cons, rowStep_of_row hline, hstep, ok_bind]
      rcases ih (records ++ [row.recordAt line])
          (by simpa [NodeRow.recordAt, List.nodup_append] using ⟨hnodup, fun r hr heq =>
            hnew (List.mem_map.mpr ⟨r, hr, heq⟩)⟩)
          (by rw [List.length_append, List.length_singleton]; omega) with
        ⟨rows, hrows, hnodup', hle'⟩ | herror
      · refine Or.inl ⟨row :: rows, List.Forall₂.cons ⟨fields, hline, hfields⟩ hrows, ?_, ?_⟩
        · simpa [NodeRow.recordAt] using hnodup'
        · rw [List.length_append, List.length_singleton] at hle'
          rw [List.length_cons]
          omega
      · exact Or.inr herror

end Nodes

/-! ## The edge file -/

section Edges

variable [IsFinite F] [Zero F] [LT F] [DecidableLT F] {fromChars : Text → Option (F × Text)}

theorem lookup_of_isNodeId {ids : List ExternalId} (hnodup : ids.Nodup)
    (hle : ids.length ≤ maxSupportedNodeCount) {field : Text} {node : NodeId}
    (h : IsNodeId ids field node) :
    ∃ externalId, parseExternalId field = some externalId ∧
      (indexOf ids).lookup externalId = some node ∧ node.toNat < ids.length := by
  obtain ⟨externalId, hdecimal, hget⟩ := h
  exact ⟨externalId, parseExternalId_eq_some_iff.mpr hdecimal,
    (lookup_indexOf_eq_some_iff hnodup hle).mpr hget, (List.getElem?_eq_some_iff.mp hget).1⟩

theorem isNodeId_of_lookup {ids : List ExternalId} (hnodup : ids.Nodup)
    (hle : ids.length ≤ maxSupportedNodeCount) {field : Text} {externalId : ExternalId}
    {node : NodeId} (hparse : parseExternalId field = some externalId)
    (hlookup : (indexOf ids).lookup externalId = some node) : IsNodeId ids field node :=
  ⟨externalId, parseExternalId_eq_some_iff.mp hparse,
    (lookup_indexOf_eq_some_iff hnodup hle).mp hlookup⟩

variable {ids : List ExternalId} (hnodup : ids.Nodup)
  (hle : ids.length ≤ maxSupportedNodeCount) {b : GraphBuilder F} (hopen : b.consumed = false)
  (hnodes : b.coordinates.length = ids.length)

include hnodup hle hopen hnodes

theorem readEdge_of_fields {reader : Reader} {fields : Fields} {arc : StagedArc F}
    (hweight : fields.2.2 ≠ []) (h : EdgeFields fromChars ids fields arc)
    {arcs : List (StagedArc F)} (hcap : b.staged.length + arcs.length < maxArcCount) :
    readEdge fromChars (indexOf ids) reader fields (b.withArcs arcs)
      = .ok (b.withArcs (arcs ++ [arc])) := by
  obtain ⟨sourceId, hsourceId, hsource, hslt⟩ := lookup_of_isNodeId hnodup hle h.source
  obtain ⟨targetId, htargetId, htarget, htlt⟩ := lookup_of_isNodeId hnodup hle h.target
  have hnone : (b.withArcs arcs).addArcFailure arc.source arc.target arc.weight = none := by
    rw [GraphBuilder.addArcFailure_eq_none_iff]
    refine ⟨hopen, ⟨?_, ?_, h.weight.2, h.nonneg⟩, ?_⟩
    · exact hnodes ▸ hslt
    · exact hnodes ▸ htlt
    · rw [GraphBuilder.withArcs, List.length_append]
      omega
  have hadd : GraphBuilder.addArc arc.source arc.target arc.weight (b.withArcs arcs)
      = .ok () (b.withArcs (arcs ++ [arc])) := by
    rw [GraphBuilder.addArc_eq, hnone]
    simp only [GraphBuilder.withArc, GraphBuilder.withArcs, List.append_assoc]
  unfold readEdge
  simp only [hsourceId, htargetId, (parseFinite_eq_some_iff hweight).mpr h.weight,
    if_neg h.nonneg, hsource, htarget, Method.rethrowing, hadd, ok_bind, pure_eq_ok]

omit hopen hnodes in
theorem readEdge_cases (fromChars : Text → Option (F × Text)) (reader : Reader)
    {fields : Fields} (hweight : fields.2.2 ≠ []) (arcs : List (StagedArc F)) :
    (∃ arc, EdgeFields fromChars ids fields arc ∧
        b.staged.length + arcs.length < maxArcCount) ∨
      ∃ message, readEdge fromChars (indexOf ids) reader fields (b.withArcs arcs)
        = .error (.graphLoad reader.name reader.lineNumber message) := by
  unfold readEdge
  cases hsourceId : parseExternalId fields.1 with
  | none => exact Or.inr ⟨_, rfl⟩
  | some sourceId =>
  cases htargetId : parseExternalId fields.2.1 with
  | none => exact Or.inr ⟨_, rfl⟩
  | some targetId =>
  cases hparse : parseFinite fromChars fields.2.2 with
  | none => exact Or.inr ⟨_, rfl⟩
  | some weight =>
  by_cases hneg : weight < 0
  · simp only [if_pos hneg]
    exact Or.inr ⟨_, rfl⟩
  cases hsource : (indexOf ids).lookup sourceId with
  | none =>
      simp only [if_neg hneg, hsource]
      exact Or.inr ⟨_, rfl⟩
  | some source =>
  cases htarget : (indexOf ids).lookup targetId with
  | none =>
      simp only [if_neg hneg, hsource, htarget]
      exact Or.inr ⟨_, rfl⟩
  | some target =>
  have hfields : EdgeFields fromChars ids fields ⟨source, target, weight⟩ :=
    ⟨isNodeId_of_lookup hnodup hle hsourceId hsource,
      isNodeId_of_lookup hnodup hle htargetId htarget,
      (parseFinite_eq_some_iff hweight).mp hparse, hneg⟩
  cases hfail : (b.withArcs arcs).addArcFailure source target weight with
  | none =>
      have hcap := ((b.withArcs arcs).addArcFailure_eq_none_iff source target weight).mp hfail
      refine Or.inl ⟨_, hfields, ?_⟩
      have hroom : (b.staged ++ arcs).length + 1 ≤ maxArcCount := hcap.2.2
      rw [List.length_append] at hroom
      exact hroom
  | some e =>
      -- whatever the builder objects to, the handler reports it at this line
      obtain ⟨message, rfl⟩ :=
        BuilderCall.failure_validation (.addArc source target weight) hfail
      simp only [if_neg hneg, hsource, htarget, Method.rethrowing, GraphBuilder.addArc_eq, hfail,
        error_bind]
      exact Or.inr ⟨_, rfl⟩

/-- The loop of `read_edges` over rows between known nodes. -/
theorem foldlM_edge_of_rows (name : String) {lines : List (Nat × Text)}
    {arcs : List (StagedArc F)}
    (h : List.Forall₂ (fun line arc => IsEdgeRow fromChars ids line.2 arc) lines arcs)
    (staged : List (StagedArc F))
    (hcap : b.staged.length + staged.length + arcs.length ≤ maxArcCount) :
    lines.foldlM (rowStep name (readEdge fromChars (indexOf ids))) (b.withArcs staged)
      = .ok (b.withArcs (staged ++ arcs)) := by
  induction h generalizing staged with
  | nil => simp
  | @cons line arc lines arcs hrow _ ih =>
      obtain ⟨fields, hline, hfields⟩ := hrow
      rw [List.length_cons] at hcap
      rw [List.foldlM_cons, rowStep_of_row hline,
        readEdge_of_fields hnodup hle hopen hnodes hline.third hfields (by omega), ok_bind,
        ih (staged ++ [arc]) (by rw [List.length_append, List.length_singleton]; omega),
        List.append_assoc, List.singleton_append]

theorem foldlM_edge_cases (fromChars : Text → Option (F × Text)) (name : String)
    (lines : List (Nat × Text))
    (staged : List (StagedArc F)) (hcap : b.staged.length + staged.length ≤ maxArcCount) :
    (∃ arcs : List (StagedArc F),
        List.Forall₂ (fun line arc => IsEdgeRow fromChars ids line.2 arc) lines arcs ∧
        b.staged.length + staged.length + arcs.length ≤ maxArcCount) ∨
      ∃ line message,
        lines.foldlM (rowStep name (readEdge fromChars (indexOf ids))) (b.withArcs staged)
          = .error (.graphLoad name line message) := by
  induction lines generalizing staged with
  | nil => exact Or.inl ⟨[], List.Forall₂.nil, by simpa using hcap⟩
  | cons line lines ih =>
      rcases rowStep_cases name (readEdge fromChars (indexOf ids)) (b.withArcs staged) line with
        ⟨fields, hline⟩ | ⟨message, herror⟩
      swap
      · exact Or.inr ⟨_, message, by rw [List.foldlM_cons, herror, error_bind]⟩
      rcases readEdge_cases hnodup hle fromChars (Reader.atLine name line.1)
          hline.third staged with
        ⟨arc, hfields, hlt⟩ | ⟨message, herror⟩
      swap
      · refine Or.inr ⟨line.1, message, ?_⟩
        rw [List.foldlM_cons, rowStep_of_row hline, herror, error_bind]
        rfl
      rw [List.foldlM_cons, rowStep_of_row hline,
        readEdge_of_fields hnodup hle hopen hnodes hline.third hfields hlt, ok_bind]
      rcases ih (staged ++ [arc]) (by rw [List.length_append, List.length_singleton]; omega) with
        ⟨arcs, harcs, hcap'⟩ | herror
      · refine Or.inl ⟨arc :: arcs, List.Forall₂.cons ⟨fields, hline, hfields⟩ harcs, ?_⟩
        rw [List.length_append, List.length_singleton] at hcap'
        rw [List.length_cons]
        omega
      · exact Or.inr herror

end Edges

end RouteEngine
