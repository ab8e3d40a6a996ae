import RouteEngine.CsvRows
import RouteEngine.Double
import RouteEngine.Library.Binary64Text

set_option autoImplicit false

/-! # What the loader accepts

`load_graph` accepts exactly the pairs of a well-formed node file and a well-formed edge file
over its identifiers, and returns the graph over the rows. -/

namespace RouteEngine

variable {F : Type}

/-! ## A file of rows -/

section Rows

variable {σ : Type} (body : Reader → Fields → σ → Outcome σ)
  (hbody : ∀ reader, body reader = body (Reader.atLine reader.name reader.lineNumber))
  (name first second third : String) (state : σ)

include hbody

/-- After a correct header, the loop runs over the other data lines. -/
theorem readRows_of_header {text header : Text} {rows : List Text}
    (htext : dataLines text = header :: rows)
    (hheader : HasFields header (first.toList, second.toList, third.toList)) :
    ∃ lines : List (Nat × Text), lines.map Prod.snd = rows ∧
      (do
        let reader ← (Reader.new (.ofText text) name).expectHeader first second third
        eachRow body reader.rowFuel reader state)
        = lines.foldlM (rowStep name body) state := by
  have hlines : (contents (InputStream.ofText text).lines 0).map Prod.snd = header :: rows :=
    (map_contents_splitLines text).trans htext
  rw [List.map_eq_cons_iff] at hlines
  obtain ⟨⟨number, content⟩, lines, hcontents, rfl, hrows⟩ := hlines
  refine ⟨lines, hrows, ?_⟩
  rw [readRows_eq hbody, hcontents]
  exact if_pos (splitFields_eq_ok_iff.mpr hheader)

/-- A file without a correct header is refused. -/
theorem readRows_cases (text : Text) :
    (∃ header rows, dataLines text = header :: rows ∧
        HasFields header (first.toList, second.toList, third.toList)) ∨
      ∃ line message, (do
        let reader ← (Reader.new (.ofText text) name).expectHeader first second third
        eachRow body reader.rowFuel reader state)
        = .error (.graphLoad name line message) := by
  have hlines : (contents (InputStream.ofText text).lines 0).map Prod.snd = dataLines text :=
    map_contents_splitLines text
  rw [readRows_eq hbody]
  cases hcontents : contents (InputStream.ofText text).lines 0 with
  | nil => exact Or.inr ⟨_, _, rfl⟩
  | cons line lines =>
      rw [hcontents] at hlines
      simp only
      by_cases hheader : splitFields line.2 = .ok (first.toList, second.toList, third.toList)
      · exact Or.inl ⟨line.2, lines.map Prod.snd, hlines.symm, splitFields_eq_ok_iff.mp hheader⟩
      · rw [if_neg hheader]
        exact Or.inr ⟨_, _, rfl⟩

end Rows

/-! ## The node file -/

theorem map_recordAt {lines : List (Nat × Text)} {rows : List (NodeRow F)}
    (hlen : lines.length = rows.length) :
    (List.zipWith NodeRow.recordAt lines rows).map NodeRecord.row = rows := by
  rw [List.map_zipWith]
  show List.zipWith (fun _ row => row) lines rows = rows
  induction lines generalizing rows with
  | nil => exact (List.length_eq_zero_iff.mp hlen.symm).symm
  | cons line lines ih =>
      cases rows with
      | nil => rfl
      | cons row rows =>
          rw [List.zipWith_cons_cons, ih (by simpa using hlen)]

section Nodes

variable [IsFinite F]

/-- `read_nodes` returns the rows of a node file, numbered by their lines. -/
theorem readNodes_of_file {fromChars : Text → Option (F × Text)} {text : Text}
    {rows : List (NodeRow F)} (h : NodeFile fromChars text rows) (name : String) :
    ∃ records : List (NodeRecord F), records.map NodeRecord.row = rows ∧
      readNodes fromChars (.ofText text) name = .ok (nodeState records) := by
  obtain ⟨header, body, htext, hheader, hrows⟩ := h.lines
  obtain ⟨lines, rfl, hread⟩ := readRows_of_header (readNode fromChars)
    (fun _ => rfl) name "id" "x" "y" (nodeState []) htext hheader
  have hrows := List.forall₂_map_left_iff.mp hrows
  refine ⟨List.zipWith NodeRow.recordAt lines rows, map_recordAt hrows.length_eq, ?_⟩
  refine hread.trans ?_
  exact foldlM_node_of_rows name hrows [] (by simpa using h.distinct) (by simpa using h.length_le)

/-- `read_nodes` refuses every other text. -/
theorem readNodes_cases (fromChars : Text → Option (F × Text)) (text : Text) (name : String) :
    (∃ rows, NodeFile fromChars text rows) ∨
      ∃ line message, readNodes fromChars (.ofText text) name
        = .error (.graphLoad name line message) := by
  rcases readRows_cases (readNode fromChars) (fun _ => rfl) name "id" "x" "y"
      (nodeState []) text with ⟨header, body, htext, hheader⟩ | herror
  swap
  · exact Or.inr herror
  obtain ⟨lines, rfl, hread⟩ := readRows_of_header (readNode fromChars)
    (fun _ => rfl) name "id" "x" "y" (nodeState []) htext hheader
  rcases foldlM_node_cases fromChars name lines [] (by simp) (by simp [maxSupportedNodeCount]) with
    ⟨rows, hrows, hnodup, hle⟩ | ⟨line, message, herror⟩
  · exact Or.inl ⟨rows, ⟨header, _, htext, hheader, List.forall₂_map_left_iff.mpr hrows⟩,
      by simpa using hnodup, by simpa using hle⟩
  · exact Or.inr ⟨line, message, hread.trans herror⟩

end Nodes

/-! ## Setting the nodes -/

/-- The builder in which the first nodes are those of the records and `unset` nodes follow. -/
def filled [Zero F] (records : List (NodeRecord F)) (unset : Nat) : GraphBuilder F where
  coordinates := records.map NodeRecord.coordinate ++ List.replicate unset Coord.zero
  externalIds := records.map NodeRecord.externalId ++ List.replicate unset 0
  assigned := List.replicate records.length true ++ List.replicate unset false
  staged := []
  assignedCount := records.length
  consumed := false

section Fill

variable [IsFinite F] [Zero F]

omit [IsFinite F] in
theorem filled_eq_partly (records : List (NodeRecord F)) (unset : Nat) :
    filled records unset = GraphBuilder.partly (records.map NodeRecord.coordinate)
      (records.map NodeRecord.externalId) unset := by
  simp [filled, GraphBuilder.partly]

theorem setRecord_filled (name : String) (record : NodeRecord F)
    (hfinite : isFinite record.coordinate.x = true ∧ isFinite record.coordinate.y = true)
    (done : List (NodeRecord F)) (unset : Nat) (hlt : done.length < maxSupportedNodeCount) :
    setRecord name (filled done (unset + 1)) (record, done.length)
      = .ok (filled (done ++ [record]) unset) := by
  have hids : (done.map NodeRecord.externalId).length
      = (done.map NodeRecord.coordinate).length := by simp
  have hset := GraphBuilder.setNode_partly hids (by simpa using hlt) unset record.coordinate
    record.externalId
  rw [if_pos hfinite, List.length_map] at hset
  unfold setRecord
  simp only [filled_eq_partly, Method.rethrowing, hset, ok_bind, pure_eq_ok, List.map_append,
    List.map_cons, List.map_nil]

/-- The loop of `load_graph` sets every node. -/
theorem foldlM_setRecord (name : String) (todo : List (NodeRecord F))
    (hfinite : ∀ record ∈ todo,
      isFinite record.coordinate.x = true ∧ isFinite record.coordinate.y = true)
    (done : List (NodeRecord F)) (hle : done.length + todo.length ≤ maxSupportedNodeCount) :
    (todo.zipIdx done.length).foldlM (setRecord name) (filled done todo.length)
      = .ok (filled (done ++ todo) 0) := by
  induction todo generalizing done with
  | nil => simp
  | cons record todo ih =>
      rw [List.length_cons] at hle
      have hrest := ih (fun r hr => hfinite r (by simp [hr])) (done ++ [record])
        (by rw [List.length_append, List.length_singleton]; omega)
      rw [List.length_append, List.length_singleton, List.append_assoc,
        List.singleton_append] at hrest
      rw [List.zipIdx_cons, List.foldlM_cons, List.length_cons,
        setRecord_filled name record (hfinite record (by simp)) done _ (by omega), ok_bind, hrest]

end Fill

/-! ## The edge file -/

section Edges

variable [IsFinite F] [Zero F] [LT F] [DecidableLT F]
  {ids : List ExternalId} (hnodup : ids.Nodup) (hle : ids.length ≤ maxSupportedNodeCount)
  {b : GraphBuilder F} (hopen : b.consumed = false)
  (hnodes : b.coordinates.length = ids.length) (hempty : b.staged = [])

include hnodup hle hopen hnodes hempty

/-- `read_edges` stages the arcs of an edge file. -/
theorem readEdges_of_file {fromChars : Text → Option (F × Text)} {text : Text}
    {arcs : List (StagedArc F)} (h : EdgeFile fromChars ids text arcs) (name : String) :
    readEdges fromChars (.ofText text) name (indexOf ids) b = .ok { b with staged := arcs } := by
  obtain ⟨header, body, htext, hheader, hrows⟩ := h.lines
  obtain ⟨lines, rfl, hread⟩ := readRows_of_header (readEdge fromChars (indexOf ids))
    (fun _ => rfl) name "source" "target" "weight" b htext hheader
  have hrows := List.forall₂_map_left_iff.mp hrows
  have hrun := foldlM_edge_of_rows hnodup hle hopen hnodes name hrows []
    (by simpa [hempty] using h.length_le)
  rw [GraphBuilder.withArcs_nil, GraphBuilder.withArcs, hempty] at hrun
  exact hread.trans hrun

/-- `read_edges` refuses every other text. -/
theorem readEdges_cases (fromChars : Text → Option (F × Text)) (text : Text) (name : String) :
    (∃ arcs, EdgeFile fromChars ids text arcs) ∨
      ∃ line message, readEdges fromChars (.ofText text) name (indexOf ids) b
        = .error (.graphLoad name line message) := by
  rcases readRows_cases (readEdge fromChars (indexOf ids)) (fun _ => rfl) name "source" "target"
      "weight" b text with ⟨header, body, htext, hheader⟩ | herror
  swap
  · exact Or.inr herror
  obtain ⟨lines, rfl, hread⟩ := readRows_of_header (readEdge fromChars (indexOf ids))
    (fun _ => rfl) name "source" "target" "weight" b htext hheader
  rcases foldlM_edge_cases hnodup hle hopen hnodes fromChars name lines []
      (by simp [hempty]) with ⟨arcs, harcs, hcap⟩ | ⟨line, message, herror⟩
  · exact Or.inl ⟨arcs, ⟨header, _, htext, hheader, List.forall₂_map_left_iff.mpr harcs⟩,
      by simpa [hempty] using hcap⟩
  · rw [GraphBuilder.withArcs_nil] at herror
    exact Or.inr ⟨line, message, hread.trans herror⟩

end Edges

/-! ## The graph -/

/-- The identifiers of the rows of a node file. -/
def idsOf (rows : List (NodeRow F)) : List ExternalId := rows.map NodeRow.externalId

/-- The rows of a node file have finite coordinates. -/
theorem NodeFile.finite [IsFinite F] {fromChars : Text → Option (F × Text)} {nodes : Text}
    {rows : List (NodeRow F)} (h : NodeFile fromChars nodes rows) :
    ∀ row ∈ rows, isFinite row.coordinate.x = true ∧ isFinite row.coordinate.y = true := by
  obtain ⟨header, body, _, _, hrows⟩ := h.lines
  intro row hrow
  obtain ⟨i, hi, rfl⟩ := List.mem_iff_getElem.mp hrow
  obtain ⟨fields, _, hfields⟩ := hrows.get (hrows.length_eq ▸ hi) hi
  exact ⟨hfields.x.2, hfields.y.2⟩

/-- The builder over the rows of the two files, just before `build`. -/
def loaded (rows : List (NodeRow F)) (arcs : List (StagedArc F)) : GraphBuilder F where
  coordinates := rows.map NodeRow.coordinate
  externalIds := idsOf rows
  assigned := List.replicate rows.length true
  staged := arcs
  assignedCount := rows.length
  consumed := false

theorem filled_eq_loaded [Zero F] {rows : List (NodeRow F)} {records : List (NodeRecord F)}
    (h : records.map NodeRecord.row = rows) : filled records 0 = loaded rows [] := by
  subst h
  simp [filled, loaded, idsOf, NodeRecord.row, Function.comp_def]

section Load

variable [IsFinite F] [Zero F] [LT F] {fromChars : Text → Option (F × Text)}
  {nodes edges : Text} {rows : List (NodeRow F)}

/-- The arcs of an edge file are those that `add_arc` admits. -/
theorem EdgeFile.admissible {ids : List ExternalId} {arcs : List (StagedArc F)}
    (h : EdgeFile fromChars ids edges arcs) : ∀ a ∈ arcs, a.Admissible ids.length := by
  obtain ⟨header, body, _, _, hrows⟩ := h.lines
  intro a ha
  obtain ⟨i, hi, rfl⟩ := List.mem_iff_getElem.mp ha
  obtain ⟨fields, _, hfields⟩ := hrows.get (hrows.length_eq ▸ hi) hi
  obtain ⟨sourceId, _, hsource⟩ := hfields.source
  obtain ⟨targetId, _, htarget⟩ := hfields.target
  exact ⟨(List.getElem?_eq_some_iff.mp hsource).1, (List.getElem?_eq_some_iff.mp htarget).1,
    hfields.weight.2, hfields.nonneg⟩

omit [IsFinite F] [Zero F] [LT F] in
theorem loaded_eq_complete (rows : List (NodeRow F)) (arcs : List (StagedArc F)) :
    loaded rows arcs
      = GraphBuilder.complete (rows.map NodeRow.coordinate) (idsOf rows) arcs := by
  simp [loaded, GraphBuilder.complete]

theorem valid_loaded {arcs : List (StagedArc F)} (hnodes : NodeFile fromChars nodes rows)
    (hedges : EdgeFile fromChars (idsOf rows) edges arcs) : (loaded rows arcs).Valid := by
  rw [loaded_eq_complete]
  refine GraphBuilder.valid_complete (by simp [idsOf]) (by simpa using hnodes.length_le) ?_
    hedges.length_le (by simpa [idsOf] using hedges.admissible)
  intro c hc
  obtain ⟨row, hrow, rfl⟩ := List.mem_map.mp hc
  exact hnodes.finite row hrow

theorem buildFailure_loaded {arcs : List (StagedArc F)} (h : (loaded rows arcs).Valid) :
    (loaded rows arcs).buildFailure = none := by
  rw [loaded_eq_complete] at h ⊢
  exact GraphBuilder.buildFailure_complete h

variable [DecidableLT F] [Top F] [LE F] [DecidableLE F] [Div F] [FiniteOrder F]
  (fromChars) (distance : Coord F → Coord F → F)
  (std : Comparison.Sorter (GraphBuilder.stagedBefore (F := F)))

variable {fromChars} in
omit [FiniteOrder F] in
/-- With a well-formed node file, `load_graph` goes on to read the edges into the builder over
its rows. -/
theorem loadGraph_of_nodes (hnodes : NodeFile fromChars nodes rows) (edges : InputStream)
    (nodesName edgesName : String) :
    loadGraph fromChars distance std (.ofText nodes) nodesName edges edgesName
      = (do
        let builder ← readEdges fromChars edges edgesName (indexOf (idsOf rows)) (loaded rows [])
        let (graph, _) ← (GraphBuilder.build distance std).rethrowing edgesName 0 builder
        return graph) := by
  obtain ⟨records, hrecords, hread⟩ := readNodes_of_file hnodes nodesName
  have hids : records.map NodeRecord.externalId = idsOf rows := by
    rw [idsOf, ← hrecords, List.map_map]
    rfl
  have hle : records.length ≤ maxSupportedNodeCount := by
    have hlen := congrArg List.length hrecords
    rw [List.length_map] at hlen
    exact hlen ▸ hnodes.length_le
  have hnew : GraphBuilder.new records.length = .ok (filled (F := F) [] records.length) := by
    unfold GraphBuilder.new validateNodeCapacity
    rw [if_neg (Nat.not_lt.mpr hle)]
    rfl
  -- the rows are set one after the other in a builder for as many nodes
  have hset := foldlM_setRecord nodesName records
    (fun record hr => hnodes.finite record.row (hrecords ▸ List.mem_map_of_mem hr)) []
    (by simpa using hle)
  rw [List.nil_append, filled_eq_loaded hrecords, List.length_nil] at hset
  unfold loadGraph
  rw [hread, ok_bind]
  simp only [nodeState, hids, hnew, ok_bind, hset]

variable {fromChars} in
/-- **`load_graph` on two well-formed files** returns the graph over their rows. -/
theorem loadGraph_of_files {arcs : List (StagedArc F)} (hnodes : NodeFile fromChars nodes rows)
    (hedges : EdgeFile fromChars (idsOf rows) edges arcs) (nodesName edgesName : String) :
    loadGraph fromChars distance std (.ofText nodes) nodesName (.ofText edges) edgesName
      = .ok (canonicalGraph distance (rows.map NodeRow.coordinate) (idsOf rows)
          (std.sort arcs)) := by
  have hedge : readEdges fromChars (.ofText edges) edgesName (indexOf (idsOf rows))
      (loaded rows []) = .ok (loaded rows arcs) :=
    readEdges_of_file hnodes.distinct (by simpa [idsOf] using hnodes.length_le) rfl
      (by simp [loaded, idsOf]) rfl hedges edgesName
  have hvalid := valid_loaded hnodes hedges
  have hbuild : GraphBuilder.build distance std (loaded rows arcs)
      = .ok (canonicalGraph distance (rows.map NodeRow.coordinate) (idsOf rows) (std.sort arcs))
          (loaded rows arcs).spent := by
    rw [loaded_eq_complete] at hvalid ⊢
    exact GraphBuilder.build_complete hvalid
  rw [loadGraph_of_nodes distance std hnodes, hedge, ok_bind, Method.rethrowing, hbuild]
  rfl

variable {fromChars} in
/-- The graph over the rows of two well-formed files stores sorted arcs. -/
theorem overArcs_of_files {arcs : List (StagedArc F)} (hnodes : NodeFile fromChars nodes rows)
    (hedges : EdgeFile fromChars (idsOf rows) edges arcs) :
    (canonicalGraph distance (rows.map NodeRow.coordinate) (idsOf rows) (std.sort arcs)).OverArcs
      distance (std.sort arcs) := by
  have hvalid := valid_loaded hnodes hedges
  exact hvalid.overArcs (buildFailure_loaded hvalid)

omit [FiniteOrder F] in
/-- `load_graph` refuses every other pair of texts. -/
theorem loadGraph_cases (nodes edges : Text) (nodesName edgesName : String) :
    (∃ rows arcs, NodeFile fromChars nodes rows ∧
        EdgeFile fromChars (idsOf rows) edges arcs) ∨
      ∃ file line message,
        loadGraph fromChars distance std (.ofText nodes) nodesName (.ofText edges) edgesName
          = .error (.graphLoad file line message) := by
  rcases readNodes_cases fromChars nodes nodesName with ⟨rows, hnodes⟩ | ⟨line, message, herror⟩
  · rcases readEdges_cases hnodes.distinct (by simpa [idsOf] using hnodes.length_le)
        (b := loaded rows []) rfl (by simp [loaded]) rfl fromChars edges edgesName with
      ⟨arcs, hedges⟩ | ⟨line, message, herror⟩
    · exact Or.inl ⟨rows, arcs, hnodes, hedges⟩
    · refine Or.inr ⟨edgesName, line, message, ?_⟩
      rw [loadGraph_of_nodes distance std hnodes, idsOf, herror, error_bind]
  · refine Or.inr ⟨nodesName, line, message, ?_⟩
    rw [loadGraph, herror, error_bind]

variable {fromChars distance std} in
omit [FiniteOrder F] in
/-- What is loaded is a node file and an edge file. -/
theorem files_of_loadGraph {nodes edges : Text} {nodesName edgesName : String} {g : Graph F}
    (h : loadGraph fromChars distance std (.ofText nodes) nodesName (.ofText edges) edgesName
      = .ok g) :
    ∃ rows arcs, NodeFile fromChars nodes rows ∧ EdgeFile fromChars (idsOf rows) edges arcs := by
  rcases loadGraph_cases fromChars distance std nodes edges nodesName edgesName with
    hfiles | ⟨file, line, message, herror⟩
  · exact hfiles
  · rw [h] at herror
    cases herror

/-- **The loader accepts exactly its format.** It returns a graph if and only if the node text
is a node file and the edge text an edge file over its identifiers. Node `i` of the graph is
then row `i`, and the arcs are the edge rows, each of them once; on all other texts the loader
throws `GraphLoadError`. -/
theorem loadGraph_accepts (nodes edges : Text) (nodesName edgesName : String) :
    ((∃ g, loadGraph fromChars distance std (.ofText nodes) nodesName (.ofText edges) edgesName
          = .ok g) ↔
        ∃ rows arcs, NodeFile fromChars nodes rows ∧
          EdgeFile fromChars (idsOf rows) edges arcs) ∧
      (∀ g rows arcs,
        loadGraph fromChars distance std (.ofText nodes) nodesName (.ofText edges) edgesName
          = .ok g →
        NodeFile fromChars nodes rows → EdgeFile fromChars (idsOf rows) edges arcs →
          g.coordinates = rows.map NodeRow.coordinate ∧
          g.externalIds = rows.map NodeRow.externalId ∧ g.externalIds.Nodup ∧
          ∃ stored, g.arcList = .ok stored ∧ stored.Perm arcs) ∧
      ∀ e, loadGraph fromChars distance std (.ofText nodes) nodesName (.ofText edges) edgesName
          = .error e → ∃ file line message, e = .graphLoad file line message := by
  refine ⟨⟨?_, ?_⟩, ?_, ?_⟩
  · rintro ⟨g, hg⟩
    exact files_of_loadGraph hg
  · rintro ⟨rows, arcs, hnodes, hedges⟩
    exact ⟨_, loadGraph_of_files distance std hnodes hedges nodesName edgesName⟩
  · -- the graph is the one over the rows, so it stores the sorted edge rows
    intro g rows arcs hg hnodes hedges
    rw [loadGraph_of_files distance std hnodes hedges, Except.ok.injEq] at hg
    have hover := overArcs_of_files distance std hnodes hedges
    subst hg
    exact ⟨rfl, rfl, hnodes.distinct, _, hover.arcList_eq, std.perm arcs⟩
  · intro e he
    rcases loadGraph_cases fromChars distance std nodes edges nodesName edgesName with
      ⟨rows, arcs, hnodes, hedges⟩ | ⟨file, line, message, herror⟩
    · rw [loadGraph_of_files distance std hnodes hedges] at he
      cases he
    · rw [herror, Except.error.injEq] at he
      exact ⟨file, line, message, he.symm⟩

end Load

/-- Two nodes in a file with comments, CRLF and padded fields. -/
def sampleNodes : Text := "# places\r\nid,x,y\r\n 10 ,0.5,\t2\r\n007,-3,0".toList

/-- Two parallel arcs and one in the other direction. -/
def sampleEdges : Text := "source,target,weight\n7,10,4\n\n10,7,4.25\n7,10,4\n".toList

theorem loadGraph_accepts_sample :
    ∃ g rows arcs,
      loadGraph Binary64.ofText lineDistance (Comparison.insertionSort _) (.ofText sampleNodes)
        "nodes.csv" (.ofText sampleEdges) "edges.csv" = .ok g ∧
      NodeFile Binary64.ofText sampleNodes rows ∧
      EdgeFile Binary64.ofText (idsOf rows) sampleEdges arcs ∧
      rows.map NodeRow.externalId = [10, 7] ∧
      List.Perm [⟨0, 1, ⟨0x4011000000000000⟩⟩, ⟨1, 0, ⟨0x4010000000000000⟩⟩,
        ⟨1, 0, ⟨0x4010000000000000⟩⟩] arcs := by
  have hrun : (loadGraph Binary64.ofText lineDistance (Comparison.insertionSort _)
      (.ofText sampleNodes) "nodes.csv" (.ofText sampleEdges) "edges.csv").map
        (fun g => (g.externalIds, g.arcList))
      = .ok ([10, 7], .ok [⟨0, 1, ⟨0x4011000000000000⟩⟩, ⟨1, 0, ⟨0x4010000000000000⟩⟩,
          ⟨1, 0, ⟨0x4010000000000000⟩⟩]) := by
    decide +kernel
  obtain ⟨g, hload, hfields⟩ := map_eq_ok.mp hrun
  rw [Prod.mk.injEq] at hfields
  obtain ⟨haccept, hgraph, -⟩ := loadGraph_accepts Binary64.ofText lineDistance
    (Comparison.insertionSort _) sampleNodes sampleEdges "nodes.csv" "edges.csv"
  obtain ⟨rows, arcs, hnodes, hedges⟩ := haccept.mp ⟨g, hload⟩
  obtain ⟨_, hids, _, stored, hstored, hperm⟩ := hgraph g rows arcs hload hnodes hedges
  refine ⟨g, rows, arcs, hload, hnodes, hedges, hids.symm.trans hfields.1, ?_⟩
  rw [hfields.2, Except.ok.injEq] at hstored
  rw [hstored]
  exact hperm

end RouteEngine
