import RouteEngine.CsvLoad
import RouteEngine.CsvText

set_option autoImplicit false

/-! # The round trip through the two files

The two texts that `write_csv` writes for a built graph are a well-formed node file and a
well-formed edge file over the graph's own data. The loader therefore stages the arcs in the
order in which the graph stores them, which is sorted, and builds the graph again. -/

namespace RouteEngine

variable {F : Type}

/-! ## Fields written and read -/

theorem isPlainField_toDigits (id : ExternalId) : IsPlainField (Nat.toDigits 10 id.toNat) := by
  have hdigit : ∀ c ∈ Nat.toDigits 10 id.toNat, c.isDigit = true :=
    fun c hc => Nat.isDigit_of_mem_toDigits (by decide) (by decide) hc
  refine ⟨⟨Nat.toDigits_ne_nil, fun c hc => ?_⟩, fun hc => absurd (hdigit _ hc) (by decide)⟩
  -- a layout character is no digit
  by_contra hlayout
  simp only [Bool.not_eq_false, isLayout, isSpace, Bool.or_eq_true, beq_iff_eq] at hlayout
  have hc := hdigit c hc
  rcases hlayout with ((((rfl | rfl) | rfl) | rfl) | rfl) <;> exact absurd hc (by decide)

theorem isDecimal_toDigits (id : ExternalId) : IsDecimal (Nat.toDigits 10 id.toNat) id where
  ne_nil := Nat.toDigits_ne_nil
  digits _ hc := Nat.isDigit_of_mem_toDigits (by decide) (by decide) hc
  value_eq := Nat.ofDigitChars_ten_toDigits

section Row

variable {first second third : Text} (h1 : IsPlainField first) (h2 : IsPlainField second)
  (h3 : IsPlainField third)

include h1 h2 h3

theorem isPlain_row : IsPlain (first ++ ',' :: (second ++ ',' :: third)) := by
  constructor
  · simp
  · intro c hc
    simp only [List.mem_append, List.mem_cons] at hc
    rcases hc with hc | rfl | hc | rfl | hc
    · exact h1.plain c hc
    · decide
    · exact h2.plain c hc
    · decide
    · exact h3.plain c hc

/-- Three plain fields make a row of these fields. -/
theorem isRow_row :
    IsRow (first ++ ',' :: (second ++ ',' :: third)) (first, second, third) := by
  refine ⟨⟨first, second, third, h1.no_comma, h2.no_comma, h3.no_comma, rfl, ?_⟩, h1.ne_nil,
    h2.ne_nil, h3.ne_nil⟩
  rw [trim_eq_self h1.not_space, trim_eq_self h2.not_space, trim_eq_self h3.not_space]

end Row

/-- **Numbers survive the round trip**: `to_chars` writes every finite number as a plain field
that `from_chars` reads in full as the same number. -/
def RoundTrips [IsFinite F] (toChars : F → Option Text) (fromChars : Text → Option (F × Text)) :
    Prop :=
  ∀ x, isFinite x = true →
    ∃ text, toChars x = some text ∧ IsPlainField text ∧ fromChars text = some (x, [])

/-- No row holds two arcs to one target whose weights differ and compare equal. -/
def Graph.WeightsDistinguished [LT F] (g : Graph F) : Prop :=
  ∀ u row, g.arcsFrom u = .ok row → ∀ a ∈ row, ∀ b ∈ row, a.target = b.target →
    ¬ a.weight < b.weight → ¬ b.weight < a.weight → a.weight = b.weight

/-! ## The files of a built graph -/

/-- The rows of the node file of a graph. -/
def Graph.nodeRows (g : Graph F) : List (NodeRow F) :=
  (g.externalIds.zip g.coordinates).map (fun p => ⟨p.1, p.2⟩)

section Files

variable [IsFinite F] [Zero F] [Top F] [LT F] [DecidableLT F] [LE F] [DecidableLE F] [Div F]
  {distance : Coord F → Coord F → F} {g : Graph F} {staged : List (StagedArc F)}
  (hover : g.OverArcs distance staged)

include hover

theorem Graph.OverArcs.idsOf_nodeRows : idsOf g.nodeRows = g.externalIds := by
  have hlen : g.externalIds.length ≤ g.coordinates.length := hover.externalIds_length.le
  rw [idsOf, Graph.nodeRows, List.map_map]
  exact List.map_fst_zip hlen

theorem Graph.OverArcs.map_coordinate_nodeRows :
    g.nodeRows.map NodeRow.coordinate = g.coordinates := by
  have hlen : g.coordinates.length ≤ g.externalIds.length := hover.externalIds_length.ge
  rw [Graph.nodeRows, List.map_map]
  exact List.map_snd_zip hlen

variable {toChars : F → Option Text} {fromChars : Text → Option (F × Text)}
  (hformat : RoundTrips toChars fromChars)

/-- The text of a finite number. -/
def formatOf (toChars : F → Option Text) (x : F) : Text := (toChars x).getD []

omit hover [Zero F] [Top F] [LT F] [DecidableLT F] [LE F] [DecidableLE F] [Div F] in
include hformat in
theorem formatOf_spec {x : F} (hx : isFinite x = true) :
    toChars x = some (formatOf toChars x) ∧ IsPlainField (formatOf toChars x) ∧
      IsFiniteNumber fromChars (formatOf toChars x) x := by
  obtain ⟨text, htext, hplain, hread⟩ := hformat x hx
  have hformat : formatOf toChars x = text := by rw [formatOf, htext, Option.getD_some]
  rw [hformat]
  exact ⟨htext, hplain, hread, hx⟩

include hformat

/-- **The written nodes are a node file.** -/
theorem nodeFile_written (hids : g.externalIds.Nodup) {comments : List Text}
    (hcomments : ∀ c ∈ comments, '\n' ∉ c) :
    NodeFile fromChars
      (commentLines comments ++ unlines ("id,x,y".toList
        :: List.zipWith (nodeLine (formatOf toChars)) g.externalIds g.coordinates))
      g.nodeRows := by
  have hlines : List.zipWith (nodeLine (formatOf toChars)) g.externalIds g.coordinates
      = g.nodeRows.map (fun row => nodeLine (formatOf toChars) row.externalId row.coordinate) := by
    rw [Graph.nodeRows, List.zip, List.map_zipWith, List.map_zipWith]
  have hrow : ∀ row ∈ g.nodeRows,
      IsPlain (nodeLine (formatOf toChars) row.externalId row.coordinate) ∧
        IsNodeRow fromChars (nodeLine (formatOf toChars) row.externalId row.coordinate) row := by
    intro row hrow
    have hmem : row.coordinate ∈ g.coordinates :=
      hover.map_coordinate_nodeRows ▸ List.mem_map_of_mem hrow
    obtain ⟨hx, hy⟩ := hover.coordinates_finite _ hmem
    obtain ⟨_, hpx, hrx⟩ := formatOf_spec hformat hx
    obtain ⟨_, hpy, hry⟩ := formatOf_spec hformat hy
    have hpid := isPlainField_toDigits row.externalId
    exact ⟨isPlain_row hpid hpx hpy, _, isRow_row hpid hpx hpy, isDecimal_toDigits _, hrx, hry⟩
  rw [hlines]
  refine ⟨⟨_, _, dataLines_written_rows hcomments (.of_all (by decide)) (by decide)
    (fun row hmem => (hrow row hmem).1), splitFields_eq_ok_iff.mp (by decide), ?_⟩, ?_, ?_⟩
  · rw [List.forall₂_map_left_iff, List.forall₂_same]
    exact fun row hmem => (hrow row hmem).2
  · show (idsOf g.nodeRows).Nodup
    rw [hover.idsOf_nodeRows]
    exact hids
  · have hlen := congrArg List.length hover.map_coordinate_nodeRows
    rw [List.length_map] at hlen
    exact hlen.trans_le hover.nodes_le

/-- **The written arcs are an edge file.** -/
theorem edgeFile_written {comments : List Text} (hcomments : ∀ c ∈ comments, '\n' ∉ c) :
    EdgeFile fromChars g.externalIds
      (commentLines comments ++ unlines ("source,target,weight".toList
        :: staged.map (arcLine (formatOf toChars) g)))
      staged := by
  have hid : ∀ u : NodeId, u.toNat < g.nodeCount →
      IsNodeId g.externalIds (Nat.toDigits 10 (idAt g u).toNat) u := by
    intro u hu
    refine ⟨idAt g u, isDecimal_toDigits _, ?_⟩
    have hlt : u.toNat < g.externalIds.length := hover.externalIds_length.symm ▸ hu
    rw [idAt, List.getElem?_eq_getElem hlt, Option.getD_some]
  have hrow : ∀ a ∈ staged, IsPlain (arcLine (formatOf toChars) g a) ∧
      IsEdgeRow fromChars g.externalIds (arcLine (formatOf toChars) g a) a := by
    intro a ha
    have hadm := hover.admissible a ha
    obtain ⟨_, hpw, hrw⟩ := formatOf_spec hformat hadm.finite
    have hps := isPlainField_toDigits (idAt g a.source)
    have hpt := isPlainField_toDigits (idAt g a.target)
    exact ⟨isPlain_row hps hpt hpw, _, isRow_row hps hpt hpw, hid _ hadm.source_lt,
      hid _ hadm.target_lt, hrw, hadm.nonneg⟩
  refine ⟨⟨_, _, dataLines_written_rows hcomments (.of_all (by decide)) (by decide)
    (fun a ha => (hrow a ha).1), splitFields_eq_ok_iff.mp (by decide), ?_⟩, hover.arcs_le⟩
  · rw [List.forall₂_map_left_iff, List.forall₂_same]
    exact fun a ha => (hrow a ha).2

end Files

/-! ## The round trip -/

section RoundTrip

variable [IsFinite F] [Zero F] [Top F] [LT F] [DecidableLT F] [LE F] [DecidableLE F] [Div F]
  [FiniteOrder F] {distance : Coord F → Coord F → F} {g : Graph F} {staged : List (StagedArc F)}

/-- Sorting the stored arcs again changes nothing. -/
theorem Graph.OverArcs.sort_eq (hover : g.OverArcs distance staged) (h : g.WeightsDistinguished)
    (std : Comparison.Sorter (GraphBuilder.stagedBefore (F := F))) : std.sort staged = staged := by
  have hweak : Comparison.StrictWeakOn (GraphBuilder.stagedBefore (F := F)) (· ∈ staged) :=
    GraphBuilder.weak_stagedBefore.mono (fun a ha => (hover.admissible a ha).finite)
  refine std.sort_sorted_eq_self hover.sorted hweak (fun a ha b hb hab hba => ?_)
  obtain ⟨hsource, htarget, hlt, hgt⟩ := GraphBuilder.stagedBefore_eq_false_iff.mp ⟨hab, hba⟩
  have hcontains : g.contains a.source = true :=
    (g.contains_iff _).mpr (hover.admissible a ha).source_lt
  have hweight : a.weight = b.weight :=
    h a.source _ (hover.arcsFrom_eq hcontains) a.toArc (mem_rowOf.mpr ha) b.toArc
      (mem_rowOf.mpr (hsource ▸ hb)) htarget hlt hgt
  calc a = ⟨a.source, a.target, a.weight⟩ := rfl
    _ = b := by rw [hsource, htarget, hweight]

omit [FiniteOrder F] in
/-- Whether weights are distinguished can be read off the arcs. -/
theorem Graph.OverArcs.weightsDistinguished (hover : g.OverArcs distance staged)
    (h : ∀ a ∈ staged, ∀ b ∈ staged, a.source = b.source → a.target = b.target →
      ¬ a.weight < b.weight → ¬ b.weight < a.weight → a.weight = b.weight) :
    g.WeightsDistinguished := by
  intro u row hrow a ha b hb
  by_cases hu : g.contains u = true
  · rw [hover.arcsFrom_eq hu, Except.ok.injEq] at hrow
    rw [← hrow, mem_rowOf] at ha hb
    exact h _ ha _ hb rfl
  · rw [Bool.not_eq_true] at hu
    rw [Graph.arcsFrom, hu] at hrow
    cases hrow

/-- **What is written for a built graph is read as that graph.** -/
theorem Graph.OverArcs.load_written (hover : g.OverArcs distance staged)
    (std : Comparison.Sorter (GraphBuilder.stagedBefore (F := F)))
    {toChars : F → Option Text} {fromChars : Text → Option (F × Text)}
    (hformat : RoundTrips toChars fromChars) (hids : g.externalIds.Nodup)
    (hweights : g.WeightsDistinguished) {nodeComments edgeComments : List Text}
    (hnc : ∀ c ∈ nodeComments, '\n' ∉ c) (hec : ∀ c ∈ edgeComments, '\n' ∉ c) :
    ∃ nodes edges : Text,
      writeCsv toChars g ⟨commentLines nodeComments, false⟩ ⟨commentLines edgeComments, false⟩
        = .ok (⟨nodes, false⟩, ⟨edges, false⟩) ∧
      ∀ nodesName edgesName,
        loadGraph fromChars distance std (.ofText nodes) nodesName (.ofText edges) edgesName
          = .ok g := by
  have hformats : Formats toChars (formatOf toChars) :=
    fun x hx => (formatOf_spec hformat hx).1
  have hwrite := writeCsv_eq hover hformats ⟨commentLines nodeComments, false⟩
    ⟨commentLines edgeComments, false⟩
  -- the two texts are well-formed files over the rows of the graph
  have hnodes := nodeFile_written hover hformat hids hnc
  have hedges := edgeFile_written hover hformat hec
  rw [← hover.idsOf_nodeRows] at hedges
  refine ⟨_, _, hwrite, fun nodesName edgesName => ?_⟩
  have hload := loadGraph_of_files distance std hnodes hedges nodesName edgesName
  -- the stored arcs come back in the order in which they are stored
  rwa [hover.map_coordinate_nodeRows, hover.idsOf_nodeRows, hover.sort_eq hweights,
    ← hover.eq] at hload

/-- **The CSV round trip.** Let numbers survive `to_chars` and `from_chars`. A built graph with
distinct external identifiers, in which no two arcs between the same nodes have weights that
differ and compare equal, is written without failure after any comment lines; the loader
returns the same graph from the two texts, and writing what it returns gives the same texts. -/
theorem csv_round_trip (distance : Coord F → Coord F → F)
    (std std' : Comparison.Sorter (GraphBuilder.stagedBefore (F := F)))
    (toChars : F → Option Text) (fromChars : Text → Option (F × Text))
    (hformat : RoundTrips toChars fromChars) (g : Graph F) (hg : g.Built distance std)
    (hids : g.externalIds.Nodup) (hweights : g.WeightsDistinguished)
    (nodeComments edgeComments : List Text) (hnc : ∀ c ∈ nodeComments, '\n' ∉ c)
    (hec : ∀ c ∈ edgeComments, '\n' ∉ c) (nodesName edgesName : String) :
    ∃ nodes edges : Text,
      writeCsv toChars g ⟨commentLines nodeComments, false⟩ ⟨commentLines edgeComments, false⟩
        = .ok (⟨nodes, false⟩, ⟨edges, false⟩) ∧
      loadGraph fromChars distance std' (.ofText nodes) nodesName (.ofText edges) edgesName
        = .ok g ∧
      ∀ g', loadGraph fromChars distance std' (.ofText nodes) nodesName (.ofText edges) edgesName
          = .ok g' →
        writeCsv toChars g' ⟨commentLines nodeComments, false⟩ ⟨commentLines edgeComments, false⟩
          = .ok (⟨nodes, false⟩, ⟨edges, false⟩) := by
  obtain ⟨staged, hover⟩ := hg.exists_overArcs
  rcases hover.load_written std' hformat hids hweights hnc hec with ⟨nodes, edges, hwrite, hload⟩
  refine ⟨nodes, edges, hwrite, hload nodesName edgesName, fun g' hg' => ?_⟩
  rw [hload, Except.ok.injEq] at hg'
  rw [← hg']
  exact hwrite

end RoundTrip

/-! ## Decimal expansions -/

/-- Decimal expansions of `double` values survive the round trip. -/
theorem roundTrips_toText : RoundTrips Binary64.toText Binary64.ofText := by
  intro x hx
  obtain ⟨text, htext⟩ : ∃ text, Binary64.toText x = some text := ⟨_, if_pos hx⟩
  obtain ⟨hne, hmem⟩ := Binary64.mem_toText htext
  refine ⟨text, htext, ⟨⟨hne, fun c hc => ?_⟩, fun hc => ?_⟩, Binary64.ofText_toText hx htext⟩
  · by_contra hlayout
    simp only [Bool.not_eq_false, isLayout, isSpace, Bool.or_eq_true, beq_iff_eq] at hlayout
    rcases hlayout with ((((rfl | rfl) | rfl) | rfl) | rfl) <;>
      exact absurd (hmem _ hc) (by decide)
  · exact absurd (hmem _ hc) (by decide)

/-- A graph with the largest identifier, a negative zero, parallel arcs and an isolated node. -/
def sampleGraph : Graph Binary64 where
  coordinates := [⟨⟨0x3FE0000000000000⟩, ⟨0xC000000000000000⟩⟩,
    ⟨Binary64.negZero, ⟨0x4008000000000000⟩⟩, ⟨0, 0⟩]
  externalIds := [18446744073709551615, 7, 0]
  offsets := [0, 1, 3, 3]
  arcs := [⟨1, ⟨0x4011000000000000⟩⟩, ⟨0, 1⟩, ⟨0, ⟨0x4010000000000000⟩⟩]
  metric := ⟨true, 0, 0, 0, ⟨0x4000000000000000⟩⟩

theorem sampleGraph_built : sampleGraph.Built lineDistance (Comparison.insertionSort _) :=
  Graph.built_of_ofCalls
    (show Graph.ofCalls lineDistance (Comparison.insertionSort _) 3
      [.setNode 1 ⟨Binary64.negZero, ⟨0x4008000000000000⟩⟩ 7,
        .setNode 0 ⟨⟨0x3FE0000000000000⟩, ⟨0xC000000000000000⟩⟩ 18446744073709551615,
        .setNode 2 ⟨0, 0⟩ 0, .addArc 1 0 ⟨0x4010000000000000⟩, .addArc 0 1 ⟨0x4011000000000000⟩,
        .addArc 1 0 1] = .ok sampleGraph by
      decide +kernel)

/-- The sample graph, after one comment line in the node file. -/
theorem csv_round_trip_sample :
    ∃ nodes edges : Text,
      writeCsv Binary64.toText sampleGraph ⟨commentLines [" seed=1".toList], false⟩ ⟨[], false⟩
        = .ok (⟨nodes, false⟩, ⟨edges, false⟩) ∧
      nodes = "# seed=1\nid,x,y\n18446744073709551615,0.5,-2\n7,-0,3\n0,0,0\n".toList ∧
      loadGraph Binary64.ofText lineDistance (Comparison.insertionSort _) (.ofText nodes)
        "nodes.csv" (.ofText edges) "edges.csv" = .ok sampleGraph := by
  obtain ⟨staged, hover⟩ := sampleGraph_built.exists_overArcs
  have hstaged : sampleGraph.arcList = .ok [⟨0, 1, ⟨0x4011000000000000⟩⟩, ⟨1, 0, 1⟩,
      ⟨1, 0, ⟨0x4010000000000000⟩⟩] := by
    decide +kernel
  rw [hover.arcList_eq, Except.ok.injEq] at hstaged
  subst hstaged
  obtain ⟨nodes, edges, hwrite, hload, -⟩ := csv_round_trip lineDistance
    (Comparison.insertionSort _) (Comparison.insertionSort _) Binary64.toText Binary64.ofText
    roundTrips_toText sampleGraph sampleGraph_built (by decide)
    (hover.weightsDistinguished (by decide +kernel)) [" seed=1".toList] [] (by decide) (by simp)
    "nodes.csv" "edges.csv"
  have hnodes : (writeCsv Binary64.toText sampleGraph ⟨commentLines [" seed=1".toList], false⟩
      ⟨[], false⟩).map (fun streams => streams.1.text)
      = .ok "# seed=1\nid,x,y\n18446744073709551615,0.5,-2\n7,-0,3\n0,0,0\n".toList := by
    decide +kernel
  refine ⟨nodes, edges, hwrite, ?_, hload⟩
  rw [show (⟨[], false⟩ : OutputStream) = ⟨commentLines [], false⟩ from rfl, hwrite] at hnodes
  simpa [Except.map] using hnodes

end RouteEngine
