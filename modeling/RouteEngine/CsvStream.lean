import RouteEngine.CsvLoad
import RouteEngine.CsvText

set_option autoImplicit false

/-! # Streams that break off

The loop of the reader ends when `std::getline` fails and never asks why, so the loader treats
a read error as the end of the file (`loadGraph_eq_text`). It returns no graph for a stream that
was interrupted exactly when the lines before the interruption are no well-formed file. -/

namespace RouteEngine

variable {F : Type}

/-- The lines of a stream are those that `std::getline` delivers: none holds a line feed. -/
def InputStream.Delivers (input : InputStream) : Prop := ∀ line ∈ input.lines, '\n' ∉ line

/-- The text that the stream delivers before it ends. -/
def InputStream.text (input : InputStream) : Text := unlines input.lines

theorem InputStream.lines_ofText {input : InputStream} (h : input.Delivers) :
    (InputStream.ofText input.text).lines = input.lines := splitLines_unlines h

/-- Reading rows looks at the lines of the stream only. -/
theorem readRows_congr {σ : Type} {body : Reader → Fields → σ → Outcome σ}
    (hbody : ∀ reader, body reader = body (Reader.atLine reader.name reader.lineNumber))
    {input input' : InputStream} (h : input.lines = input'.lines)
    (name first second third : String) (state : σ) :
    (do
      let reader ← (Reader.new input name).expectHeader first second third
      eachRow body reader.rowFuel reader state)
      = (do
        let reader ← (Reader.new input' name).expectHeader first second third
        eachRow body reader.rowFuel reader state) := by
  rw [readRows_eq hbody, readRows_eq hbody, h]

section

variable [IsFinite F] [Zero F] [Top F] [LT F] [DecidableLT F] [LE F] [DecidableLE F] [Div F]
variable (fromChars : Text → Option (F × Text)) (distance : Coord F → Coord F → F)
  (std : Comparison.Sorter (GraphBuilder.stagedBefore (F := F)))

/-- `load_graph` looks at the lines of the two streams only. -/
theorem loadGraph_congr {nodes nodes' edges edges' : InputStream}
    (hnodes : nodes.lines = nodes'.lines) (hedges : edges.lines = edges'.lines)
    (nodesName edgesName : String) :
    loadGraph fromChars distance std nodes nodesName edges edgesName
      = loadGraph fromChars distance std nodes' nodesName edges' edgesName := by
  have hread : readNodes fromChars nodes nodesName = readNodes fromChars nodes' nodesName :=
    readRows_congr (fun _ => rfl) hnodes nodesName "id" "x" "y" ([], [])
  have hedge : ∀ index builder, readEdges fromChars edges edgesName index builder
      = readEdges fromChars edges' edgesName index builder :=
    fun index builder => readRows_congr (fun _ => rfl) hedges edgesName "source" "target" "weight"
      builder
  unfold loadGraph
  simp only [hread, hedge]

/-- An interrupted stream is loaded like the text before the interruption. -/
theorem loadGraph_eq_text {nodes edges : InputStream} (hnodes : nodes.Delivers)
    (hedges : edges.Delivers) (nodesName edgesName : String) :
    loadGraph fromChars distance std nodes nodesName edges edgesName
      = loadGraph fromChars distance std (.ofText nodes.text) nodesName (.ofText edges.text)
          edgesName :=
  loadGraph_congr fromChars distance std (InputStream.lines_ofText hnodes).symm
    (InputStream.lines_ofText hedges).symm nodesName edgesName

/-- No partial graph: a graph is returned only if both streams were read to the end of the file,
and a read error in either makes the loader throw. -/
def NoPartialGraph (nodes : InputStream) (nodesName : String) (edges : InputStream)
    (edgesName : String) : Prop :=
  (∀ g, loadGraph fromChars distance std nodes nodesName edges edgesName = .ok g →
    nodes.ending = .endOfFile ∧ edges.ending = .endOfFile) ∧
  (nodes.ending = .readError ∨ edges.ending = .readError → ∃ file line message,
    loadGraph fromChars distance std nodes nodesName edges edgesName
      = .error (.graphLoad file line message))

/-- **Interrupted streams are refused exactly when what they delivered is malformed.** -/
theorem noPartialGraph_iff [FiniteOrder F] (nodes edges : InputStream)
    (nodesName edgesName : String)
    (hnodes : nodes.Delivers) (hedges : edges.Delivers) :
    NoPartialGraph fromChars distance std nodes nodesName edges edgesName ↔
      (nodes.ending = .endOfFile ∧ edges.ending = .endOfFile) ∨
        ¬ ∃ rows arcs, NodeFile fromChars nodes.text rows ∧
          EdgeFile fromChars (idsOf rows) edges.text arcs := by
  have htext := loadGraph_eq_text fromChars distance std hnodes hedges nodesName edgesName
  constructor
  · rintro ⟨hends, -⟩
    by_contra hnot
    obtain ⟨hending, hfiles⟩ := not_or.mp hnot
    obtain ⟨rows, arcs, hn, he⟩ := not_not.mp hfiles
    exact hending (hends _ (htext.trans
      (loadGraph_of_files distance std hn he nodesName edgesName)))
  · rintro (⟨hn, he⟩ | hfiles)
    · refine ⟨fun _ _ => ⟨hn, he⟩, ?_⟩
      rintro (h | h)
      · rw [hn] at h
        cases h
      · rw [he] at h
        cases h
    · -- malformed lines are refused wherever the stream ends
      have herror := (loadGraph_cases fromChars distance std nodes.text edges.text nodesName
        edgesName).resolve_left hfiles
      rw [← htext] at herror
      refine ⟨fun g hg => ?_, fun _ => herror⟩
      obtain ⟨file, line, message, herror⟩ := herror
      rw [herror] at hg
      cases hg

end

/-- A good row and a row without a weight, and then a read error. -/
def shortEdges : InputStream :=
  ⟨["source,target,weight".toList, "7,10,4".toList, "10,7".toList], .readError⟩

/-- An edge stream that breaks off after a malformed row is refused. -/
theorem noPartialGraph_iff_shortRow :
    NoPartialGraph Binary64.ofText lineDistance (Comparison.insertionSort _)
      (.ofText sampleNodes) "nodes.csv" shortEdges "edges.csv" := by
  refine (noPartialGraph_iff Binary64.ofText lineDistance (Comparison.insertionSort _)
    (.ofText sampleNodes) shortEdges "nodes.csv" "edges.csv" ?_ ?_).mpr (Or.inr ?_)
  · unfold InputStream.Delivers
    decide +kernel
  · unfold InputStream.Delivers
    decide +kernel
  · rintro ⟨rows, arcs, hnodes, hedges⟩
    have hload := loadGraph_of_files lineDistance (Comparison.insertionSort _) hnodes hedges
      "nodes.csv" "edges.csv"
    have hfails : (loadGraph Binary64.ofText lineDistance (Comparison.insertionSort _)
        (.ofText (InputStream.ofText sampleNodes).text) "nodes.csv" (.ofText shortEdges.text)
          "edges.csv").map Graph.nodeCount
        = .error (.graphLoad "edges.csv" 3 "expected 3 comma-separated fields, found 2") := by
      decide +kernel
    rw [hload] at hfails
    cases hfails

/-- `sampleEdges` with a read error after the first row. -/
def cutEdges : InputStream := ⟨["source,target,weight".toList, "7,10,4".toList], .readError⟩

/-- The graph of the rows read so far is returned. -/
theorem cutEdges_loads_partial_graph :
    ¬ NoPartialGraph Binary64.ofText lineDistance (Comparison.insertionSort _)
      (.ofText sampleNodes) "nodes.csv" cutEdges "edges.csv" := by
  have hrun : (loadGraph Binary64.ofText lineDistance (Comparison.insertionSort _)
      (.ofText sampleNodes) "nodes.csv" cutEdges "edges.csv").map Graph.arcList
        = .ok (.ok [⟨1, 0, ⟨0x4010000000000000⟩⟩]) := by
    decide +kernel
  obtain ⟨g, hload, -⟩ := map_eq_ok.mp hrun
  rintro ⟨hends, -⟩
  exact absurd (hends g hload).2 (by decide)

end RouteEngine
