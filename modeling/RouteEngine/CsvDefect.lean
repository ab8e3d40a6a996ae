import RouteEngine.CsvLoad
import RouteEngine.Library.Reading

set_option autoImplicit false

/-! # Where the loader fails

The first defect of a file (`Defect`): there is no header line, the header is not the expected
one, or a row is the first that is not good, where a row is judged after the rows before it. The
loader reports the line of the first defect, that of the node file before that of the edge file,
and the message about a repeated identifier names the line of its first definition. -/

namespace RouteEngine

variable {F : Type}

/-! ## Defects -/

/-- The line is a node row with a new identifier, and the record is what it says. -/
structure GoodNode [IsFinite F] (fromChars : Text → Option (F × Text))
    (done : List (NodeRecord F)) (line : Nat × Text) (record : NodeRecord F) : Prop where
  row : IsNodeRow fromChars line.2 record.row
  line_eq : record.line = line.1
  fresh : record.externalId ∉ done.map NodeRecord.externalId
  room : done.length < maxSupportedNodeCount

/-- The line is an arc between known nodes. -/
structure GoodEdge [IsFinite F] [Zero F] [LT F] (fromChars : Text → Option (F × Text))
    (ids : List ExternalId) (done : List (StagedArc F)) (line : Nat × Text) (arc : StagedArc F) :
    Prop where
  row : IsEdgeRow fromChars ids line.2 arc
  room : done.length < maxArcCount

/-- The number of the first line that is not as it should be, `0` when there is no header line. -/
inductive Defect {β : Type} (names : Fields) (good : List β → Nat × Text → β → Prop)
    (lines : List (Nat × Text)) : Nat → Prop
  | noHeader (hlines : lines = []) : Defect names good lines 0
  | header {number : Nat} {text : Text} {rows : List (Nat × Text)}
      (hlines : lines = (number, text) :: rows) (hbad : ¬ HasFields text names) :
      Defect names good lines number
  | row {header bad : Nat × Text} {before after : List (Nat × Text)} {values : List β}
      (hlines : lines = header :: (before ++ bad :: after)) (hheader : HasFields header.2 names)
      (hread : Reads good [] before values) (hbad : ∀ value, ¬ good values bad value) :
      Defect names good lines bad.1

/-- The header of the node file. -/
def nodeNames : Fields := ("id".toList, "x".toList, "y".toList)

/-- The header of the edge file. -/
def edgeNames : Fields := ("source".toList, "target".toList, "weight".toList)

/-- Without a defect every row is good. -/
theorem reads_or_defect {β : Type} (names : Fields) (good : List β → Nat × Text → β → Prop)
    (lines : List (Nat × Text)) :
    (∃ header rows values, lines = header :: rows ∧ HasFields header.2 names ∧
        Reads good [] rows values) ∨ ∃ number, Defect names good lines number := by
  cases lines with
  | nil => exact .inr ⟨0, .noHeader rfl⟩
  | cons header rows =>
      by_cases hheader : HasFields header.2 names
      · rcases Reads.total_or_stuck good rows [] with ⟨values, h⟩ |
          ⟨before, bad, after, values, rfl, h, hbad⟩
        · exact .inl ⟨header, rows, values, rfl, hheader, h⟩
        · exact .inr ⟨bad.1, .row rfl hheader h hbad⟩
      · exact .inr ⟨header.1, .header rfl hheader⟩

/-- **A loop that accepts the good rows and refuses the others fails at the first defect.** -/
theorem readRows_of_defect {β σ : Type} {body : Reader → Fields → σ → Outcome σ}
    (hbody : ∀ reader, body reader = body (Reader.atLine reader.name reader.lineNumber))
    {good : List β → Nat × Text → β → Prop} {state : List β → σ} {name : String}
    (hstep : ∀ done line value, good done line value →
      rowStep name body (state done) line = .ok (state (done ++ [value])))
    (hstuck : ∀ before values bad, Reads good [] before values →
      (∀ value, ¬ good values bad value) →
      ∃ message, rowStep name body (state values) bad = .error (.graphLoad name bad.1 message))
    {first second third : String} {input : InputStream} {number : Nat}
    (h : Defect (first.toList, second.toList, third.toList) good (contents input.lines 0) number) :
    ∃ message, (do
        let reader ← (Reader.new input name).expectHeader first second third
        eachRow body reader.rowFuel reader (state []))
      = .error (.graphLoad name number message) := by
  rw [readRows_eq hbody]
  cases h with
  | noHeader hlines =>
      rw [hlines]
      exact ⟨_, rfl⟩
  | header hlines hbad =>
      rw [hlines]
      simp only [if_neg (fun hok => hbad (splitFields_eq_ok_iff.mp hok))]
      exact ⟨_, rfl⟩
  | @row header bad before after values hlines hheader hread hbad =>
      rcases hstuck before values bad hread hbad with ⟨message, herror⟩
      refine ⟨message, ?_⟩
      rw [hlines]
      simp only [if_pos (splitFields_eq_ok_iff.mpr hheader)]
      exact hread.foldlM_stuck hstep herror after

/-! ## The node file -/

section Nodes

variable [IsFinite F] {fromChars : Text → Option (F × Text)}

/-- The first defect of the lines of a node file. -/
abbrev NodeDefect (fromChars : Text → Option (F × Text)) (lines : List (Nat × Text))
    (number : Nat) : Prop :=
  Defect nodeNames (GoodNode fromChars) lines number

theorem rowStep_of_goodNode {done : List (NodeRecord F)} {line : Nat × Text}
    {record : NodeRecord F} (name : String) (h : GoodNode fromChars done line record) :
    rowStep name (readNode fromChars) (nodeState done) line
      = .ok (nodeState (done ++ [record])) := by
  rcases h.row with ⟨fields, hline, hfields⟩
  rw [rowStep_of_row hline, readNode_of_fields hline.second hline.third hfields h.room h.fresh]
  have hrecord : record.row.recordAt ((Reader.atLine name line.1).lineNumber, []) = record := by
    show NodeRecord.mk record.externalId record.coordinate line.1 = record
    rw [← h.line_eq]
  rw [hrecord]

/-- Good rows have distinct identifiers, and there are not too many of them. -/
theorem nodup_of_reads {lines : List (Nat × Text)} {records : List (NodeRecord F)}
    (h : Reads (GoodNode fromChars) [] lines records) :
    (records.map NodeRecord.externalId).Nodup ∧ records.length ≤ maxSupportedNodeCount := by
  refine h.induct (P := fun records => (records.map NodeRecord.externalId).Nodup ∧
    records.length ≤ maxSupportedNodeCount) ?_ ⟨List.nodup_nil, Nat.zero_le _⟩
  intro done line record hdone hgood
  constructor
  · rw [List.map_append, List.nodup_append]
    refine ⟨hdone.1, by simp, ?_⟩
    intro a ha b hb heq
    have hb' : b = record.externalId := by simpa using hb
    exact hgood.fresh (hb' ▸ heq ▸ ha)
  · have hroom := hgood.room
    rw [List.length_append, List.length_singleton]
    omega

theorem rowStep_of_not_goodNode (name : String) {before : List (Nat × Text)}
    {records : List (NodeRecord F)} {bad : Nat × Text}
    (hread : Reads (GoodNode fromChars) [] before records)
    (hbad : ∀ record, ¬ GoodNode fromChars records bad record) :
    ∃ message, rowStep name (readNode fromChars) (nodeState records) bad
      = .error (.graphLoad name bad.1 message) := by
  rcases nodup_of_reads hread with ⟨hnodup, hle⟩
  rcases rowStep_cases name (readNode fromChars) (nodeState records) bad with
    ⟨fields, hline⟩ | herror
  swap
  · exact herror
  rcases readNode_cases fromChars (Reader.atLine name bad.1) hline.second hline.third hnodup hle
    with ⟨row, hfields, hroom, hnew⟩ | ⟨message, herror⟩
  · exact absurd ⟨⟨fields, hline, hfields⟩, rfl, hnew, hroom⟩ (hbad (row.recordAt bad))
  · refine ⟨message, ?_⟩
    rw [rowStep_of_row hline, herror]
    rfl

theorem readNodes_of_defect {input : InputStream} {number : Nat}
    (h : NodeDefect fromChars (contents input.lines 0) number) (name : String) :
    ∃ message, readNodes fromChars input name = .error (.graphLoad name number message) :=
  readRows_of_defect (fun _ => rfl) (fun _ _ _ => rowStep_of_goodNode name)
    (fun _ _ _ => rowStep_of_not_goodNode name) h

/-- A text without a defect is a node file. -/
theorem nodeFile_or_defect (fromChars : Text → Option (F × Text)) (text : Text) :
    (∃ rows, NodeFile fromChars text rows) ∨
      ∃ number, NodeDefect fromChars (contents (splitLines text) 0) number := by
  rcases reads_or_defect nodeNames (GoodNode fromChars) (contents (splitLines text) 0) with
    ⟨header, lines, records, hlines, hheader, hread⟩ | hdefect
  swap
  · exact .inr hdefect
  rcases nodup_of_reads hread with ⟨hnodup, hle⟩
  have htext := map_contents_splitLines text
  rw [hlines, List.map_cons] at htext
  refine .inl ⟨records.map NodeRecord.row, ⟨_, _, htext.symm, hheader, ?_⟩, ?_, ?_⟩
  · rw [List.forall₂_map_left_iff, List.forall₂_map_right_iff]
    exact hread.forall₂ (fun _ _ _ hgood => hgood.row)
  · rw [List.map_map]
    exact hnodup
  · rw [List.length_map]
    exact hle

/-- Line `line` is the first that is not good, and it repeats the identifier that line `first`
defines. -/
def RepeatsId (fromChars : Text → Option (F × Text)) (lines : List (Nat × Text))
    (line first : Nat) (externalId : ExternalId) : Prop :=
  ∃ (header bad : Nat × Text) (before after : List (Nat × Text)) (records : List (NodeRecord F))
    (record : NodeRecord F) (row : NodeRow F),
    lines = header :: (before ++ bad :: after) ∧ HasFields header.2 nodeNames ∧
    Reads (GoodNode fromChars) [] before records ∧ records.length < maxSupportedNodeCount ∧
    IsNodeRow fromChars bad.2 row ∧ row.externalId = externalId ∧ bad.1 = line ∧
    record ∈ records ∧ record.externalId = externalId ∧ record.line = first

/-- The error about a repeated identifier. -/
def duplicateIdError (name : String) (line first : Nat) (externalId : ExternalId) : Failure :=
  .graphLoad name line ("duplicate node id " ++ toString externalId.toNat ++
    ", already defined on line " ++ toString first)

/-- A row whose identifier has a record. -/
theorem readNode_of_record {reader : Reader} {fields : Fields} {row : NodeRow F}
    (hx : fields.2.1 ≠ []) (hy : fields.2.2 ≠ []) (h : NodeFields fromChars fields row)
    {records : List (NodeRecord F)} (hnodup : (records.map NodeRecord.externalId).Nodup)
    (hroom : records.length < maxSupportedNodeCount) {record : NodeRecord F}
    (hrecord : record ∈ records) (hid : record.externalId = row.externalId) :
    readNode fromChars reader fields (nodeState records)
      = .error (duplicateIdError reader.name reader.lineNumber record.line row.externalId) := by
  rcases List.getElem_of_mem hrecord with ⟨i, hi, rfl⟩
  have hplace : (UInt32.ofNat i).toNat = i := toNat_ofNat_node (by omega)
  have hlookup : (indexOf (records.map NodeRecord.externalId)).lookup row.externalId
      = some (UInt32.ofNat i) := by
    rw [lookup_indexOf_eq_some_iff hnodup (by rw [List.length_map]; omega), hplace,
      List.getElem?_map, List.getElem?_eq_getElem hi, ← hid]
    rfl
  have hsub : subscript records i = .ok records[i] :=
    subscript_eq_ok.mpr (List.getElem?_eq_getElem hi)
  unfold readNode nodeState
  simp only [parseExternalId_eq_some_iff.mpr h.externalId, (parseFinite_eq_some_iff hx).mpr h.x,
    (parseFinite_eq_some_iff hy).mpr h.y, if_neg (Nat.not_le.mpr hroom), hlookup, hplace, hsub,
    ok_bind]
  rfl

theorem readNodes_of_repeatsId {input : InputStream} {line first : Nat} {externalId : ExternalId}
    (h : RepeatsId fromChars (contents input.lines 0) line first externalId) (name : String) :
    readNodes fromChars input name = .error (duplicateIdError name line first externalId) := by
  rcases h with ⟨header, bad, before, after, records, record, row, hlines, hheader, hread, hroom,
    ⟨fields, hline, hfields⟩, rfl, rfl, hrecord, hid, rfl⟩
  unfold readNodes
  rw [readRows_eq (fun _ => rfl), hlines]
  simp only [nodeNames] at hheader
  simp only [if_pos (splitFields_eq_ok_iff.mpr hheader)]
  have hbad : rowStep name (readNode fromChars) (nodeState records) bad
      = .error (duplicateIdError name bad.1 record.line row.externalId) := by
    rw [rowStep_of_row hline]
    exact readNode_of_record hline.second hline.third hfields (nodup_of_reads hread).1 hroom
      hrecord hid
  exact hread.foldlM_stuck (fun _ _ _ hgood => rowStep_of_goodNode name hgood) hbad after

end Nodes

/-! ## The edge file -/

section Edges

variable [IsFinite F] [Zero F] [LT F] [DecidableLT F] {fromChars : Text → Option (F × Text)}

/-- The first defect of the lines of an edge file over nodes with identifiers `ids`. -/
abbrev EdgeDefect (fromChars : Text → Option (F × Text)) (ids : List ExternalId)
    (lines : List (Nat × Text)) (number : Nat) : Prop :=
  Defect edgeNames (GoodEdge fromChars ids) lines number

omit [DecidableLT F] in
theorem length_le_of_reads {ids : List ExternalId} {lines : List (Nat × Text)}
    {arcs : List (StagedArc F)} (h : Reads (GoodEdge fromChars ids) [] lines arcs) :
    arcs.length ≤ maxArcCount := by
  refine h.induct (P := fun arcs => arcs.length ≤ maxArcCount) ?_ (Nat.zero_le _)
  intro done line arc _ hgood
  have hroom := hgood.room
  rw [List.length_append, List.length_singleton]
  omega

/-- A good row is staged. -/
theorem rowStep_of_goodEdge {ids : List ExternalId} (hnodup : ids.Nodup)
    (hle : ids.length ≤ maxSupportedNodeCount) {b : GraphBuilder F} (hopen : b.consumed = false)
    (hnodes : b.coordinates.length = ids.length) (hempty : b.staged = []) (name : String)
    {done : List (StagedArc F)} {line : Nat × Text} {arc : StagedArc F}
    (h : GoodEdge fromChars ids done line arc) :
    rowStep name (readEdge fromChars (indexOf ids)) (b.withArcs done) line
      = .ok (b.withArcs (done ++ [arc])) := by
  rcases h.row with ⟨fields, hline, hfields⟩
  have hroom := h.room
  rw [rowStep_of_row hline]
  exact readEdge_of_fields hnodup hle hopen hnodes hline.third hfields (by simpa [hempty])

theorem readEdges_of_defect {ids : List ExternalId} (hnodup : ids.Nodup)
    (hle : ids.length ≤ maxSupportedNodeCount) {b : GraphBuilder F} (hopen : b.consumed = false)
    (hnodes : b.coordinates.length = ids.length) (hempty : b.staged = []) {input : InputStream}
    {number : Nat} (h : EdgeDefect fromChars ids (contents input.lines 0) number)
    (name : String) :
    ∃ message, readEdges fromChars input name (indexOf ids) b
      = .error (.graphLoad name number message) := by
  have hstart : b.withArcs [] = b := by simp [GraphBuilder.withArcs]
  have hstuck : ∀ before arcs bad, Reads (GoodEdge fromChars ids) [] before arcs →
      (∀ arc, ¬ GoodEdge fromChars ids arcs bad arc) →
      ∃ message, rowStep name (readEdge fromChars (indexOf ids)) (b.withArcs arcs) bad
        = .error (.graphLoad name bad.1 message) := by
    intro before arcs bad _ hbad
    rcases rowStep_cases name (readEdge fromChars (indexOf ids)) (b.withArcs arcs) bad with
      ⟨fields, hline⟩ | herror
    swap
    · exact herror
    rcases readEdge_cases (b := b) hnodup hle fromChars (Reader.atLine name bad.1) hline.third
        arcs with
      ⟨arc, hfields, hroom⟩ | ⟨message, herror⟩
    · exact absurd ⟨⟨fields, hline, hfields⟩, by simpa [hempty] using hroom⟩ (hbad arc)
    · refine ⟨message, ?_⟩
      rw [rowStep_of_row hline, herror]
      rfl
  have hread := readRows_of_defect (fun _ => rfl)
    (fun _ _ _ => rowStep_of_goodEdge hnodup hle hopen hnodes hempty name) hstuck h
  rwa [hstart] at hread

omit [DecidableLT F] in
/-- A text without a defect is an edge file. -/
theorem edgeFile_or_defect (fromChars : Text → Option (F × Text)) (ids : List ExternalId)
    (text : Text) :
    (∃ arcs, EdgeFile fromChars ids text arcs) ∨
      ∃ number, EdgeDefect fromChars ids (contents (splitLines text) 0) number := by
  rcases reads_or_defect edgeNames (GoodEdge fromChars ids) (contents (splitLines text) 0) with
    ⟨header, lines, arcs, hlines, hheader, hread⟩ | hdefect
  swap
  · exact .inr hdefect
  have htext := map_contents_splitLines text
  rw [hlines, List.map_cons] at htext
  refine .inl ⟨arcs, ⟨⟨_, _, htext.symm, hheader, ?_⟩, length_le_of_reads hread⟩⟩
  rw [List.forall₂_map_left_iff]
  exact hread.forall₂ (fun _ _ _ hgood => hgood.row)

end Edges

/-! ## The loader -/

section Load

variable [IsFinite F] [Zero F] [Top F] [LT F] [DecidableLT F] [LE F] [DecidableLE F] [Div F]
variable {fromChars : Text → Option (F × Text)} {distance : Coord F → Coord F → F}
  {std : Comparison.Sorter (GraphBuilder.stagedBefore (F := F))} {nodes edges : Text}
  {nodesName edgesName : String}

theorem loadGraph_of_nodes_error {e : Failure}
    (h : readNodes fromChars (.ofText nodes) nodesName = .error e) (edges : InputStream) :
    loadGraph fromChars distance std (.ofText nodes) nodesName edges edgesName = .error e := by
  unfold loadGraph
  rw [h]
  rfl

/-- **A defect of the node file is reported**, whatever the edge file is. -/
theorem loadGraph_of_nodeDefect {number : Nat}
    (h : NodeDefect fromChars (contents (splitLines nodes) 0) number) :
    ∃ message, loadGraph fromChars distance std (.ofText nodes) nodesName (.ofText edges) edgesName
      = .error (.graphLoad nodesName number message) := by
  have hread : ∃ message, readNodes fromChars (.ofText nodes) nodesName
      = .error (.graphLoad nodesName number message) := readNodes_of_defect h nodesName
  rcases hread with ⟨message, herror⟩
  exact ⟨message, loadGraph_of_nodes_error herror _⟩

/-- **A defect of the edge file is reported** after a node file without one. -/
theorem loadGraph_of_edgeDefect {rows : List (NodeRow F)} (hnodes : NodeFile fromChars nodes rows)
    {number : Nat}
    (h : EdgeDefect fromChars (idsOf rows) (contents (splitLines edges) 0) number) :
    ∃ message, loadGraph fromChars distance std (.ofText nodes) nodesName (.ofText edges) edgesName
      = .error (.graphLoad edgesName number message) := by
  have hread : ∃ message, readEdges fromChars (.ofText edges) edgesName (indexOf (idsOf rows))
      (loaded rows []) = .error (.graphLoad edgesName number message) :=
    readEdges_of_defect hnodes.distinct (by simpa [idsOf] using hnodes.length_le) rfl
      (by simp [loaded, idsOf]) rfl h edgesName
  rcases hread with ⟨message, herror⟩
  refine ⟨message, ?_⟩
  rw [loadGraph_of_nodes distance std hnodes, herror, error_bind]

end Load

end RouteEngine
