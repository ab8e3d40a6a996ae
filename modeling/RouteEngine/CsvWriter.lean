import RouteEngine.Csv
import RouteEngine.BuiltGraph

set_option autoImplicit false

/-! # The CSV writer

`write_csv` (`include/route/generator.hpp`, `src/generator.cpp`) writes the nodes and the arcs
of a graph to two streams. `std::to_chars` for `double` is a parameter; it may fail.

`writeCsv_eq` says what a built graph is written as: a line for each node and a line for each
arc, in the order of the array. -/

namespace RouteEngine

variable {F : Type}

/-! ## Streams -/

/-- An output stream: the text it has taken, and whether it has failed. -/
structure OutputStream where
  text : Text
  failed : Bool
  deriving DecidableEq, Repr

namespace OutputStream

/-- Write a text. A stream that has failed takes no more output. -/
def put (out : OutputStream) (text : Text) : OutputStream :=
  if out.failed then out else { out with text := out.text ++ text }

/-- `out << id`, in decimal. -/
def putId (out : OutputStream) (id : ExternalId) : OutputStream :=
  out.put (Nat.toDigits 10 id.toNat)

/-- `write_number`: a number that cannot be formatted sets `failbit`. -/
def writeNumber (toChars : F → Option Text) (out : OutputStream) (value : F) : OutputStream :=
  match toChars value with
  | some text => out.put text
  | none => { out with failed := true }

theorem put_put (out : OutputStream) (text more : Text) :
    (out.put text).put more = out.put (text ++ more) := by
  cases out with
  | mk written failed => cases failed <;> simp [put]

theorem put_nil (out : OutputStream) : out.put [] = out := by
  cases out with
  | mk written failed => cases failed <;> simp [put]

end OutputStream

/-! ## write_csv -/

/-- The body of the loop over the arcs of a node. -/
def writeArc (toChars : F → Option Text) (g : Graph F) (node : NodeId) (edges : OutputStream)
    (arc : Arc F) : Outcome OutputStream := do
  let source ← g.externalId node
  let edges := (edges.putId source).put [',']
  let target ← g.externalId arc.target
  let edges := (edges.putId target).put [',']
  let edges := edges.writeNumber toChars arc.weight
  return edges.put ['\n']

/-- The body of the loop over the nodes. -/
def writeNode (toChars : F → Option Text) (g : Graph F)
    (streams : OutputStream × OutputStream) (index : Nat) :
    Outcome (OutputStream × OutputStream) := do
  let (nodes, edges) := streams
  let node := UInt32.ofNat index
  let coordinate ← g.coordinate node
  let externalId ← g.externalId node
  let nodes := (nodes.putId externalId).put [',']
  let nodes := (nodes.writeNumber toChars coordinate.x).put [',']
  let nodes := (nodes.writeNumber toChars coordinate.y).put ['\n']
  let arcs ← g.arcsFrom node
  let edges ← arcs.foldlM (writeArc toChars g node) edges
  return (nodes, edges)

def writeCsv (toChars : F → Option Text) (g : Graph F) (nodes edges : OutputStream) :
    Outcome (OutputStream × OutputStream) :=
  (List.range g.nodeCount).foldlM (writeNode toChars g)
    (nodes.put "id,x,y\n".toList, edges.put "source,target,weight\n".toList)

/-! ## What a built graph is written as -/

/-- `to_chars` formats every finite number. -/
def Formats [IsFinite F] (toChars : F → Option Text) (format : F → Text) : Prop :=
  ∀ x, isFinite x = true → toChars x = some (format x)

/-- The line of a node, without its LF. -/
def nodeLine (format : F → Text) (externalId : ExternalId) (coordinate : Coord F) : Text :=
  Nat.toDigits 10 externalId.toNat ++ ',' :: (format coordinate.x ++ ',' :: format coordinate.y)

/-- The line of an arc, without its LF. -/
def arcLine (format : F → Text) (g : Graph F) (a : StagedArc F) : Text :=
  Nat.toDigits 10 (idAt g a.source).toNat ++
    ',' :: (Nat.toDigits 10 (idAt g a.target).toNat ++ ',' :: format a.weight)

/-- Lines, each ended by LF. -/
def unlines (lines : List Text) : Text := lines.flatMap (fun line => line ++ ['\n'])

theorem OutputStream.foldl_put {α : Type} (line : α → Text) (l : List α) (out : OutputStream) :
    l.foldl (fun out a => out.put (line a ++ ['\n'])) out = out.put (unlines (l.map line)) := by
  induction l generalizing out with
  | nil => exact (out.put_nil).symm
  | cons a l ih =>
      rw [List.foldl_cons, ih, put_put, List.map_cons, unlines, unlines, List.flatMap_cons]

/-- A loop over two variables that do not meet. -/
theorem foldl_pair {α β γ : Type} (f : β → α → β) (f' : γ → α → γ) (l : List α) (s : β × γ) :
    l.foldl (fun s a => (f s.1 a, f' s.2 a)) s = (l.foldl f s.1, l.foldl f' s.2) := by
  induction l generalizing s with
  | nil => rfl
  | cons a l ih => exact ih _

section Written

variable [IsFinite F] [Zero F] [Top F] [LT F] [DecidableLT F] [LE F] [DecidableLE F] [Div F]
  {distance : Coord F → Coord F → F} {g : Graph F} {staged : List (StagedArc F)}
  {toChars : F → Option Text} {format : F → Text}

theorem writeArc_eq (h : g.OverArcs distance staged) (hformat : Formats toChars format)
    {a : StagedArc F} (ha : a ∈ staged) (edges : OutputStream) :
    writeArc toChars g a.source edges a.toArc = .ok (edges.put (arcLine format g a ++ ['\n'])) := by
  have hadm := h.admissible a ha
  have htarget : g.externalId a.toArc.target = .ok (idAt g a.target) :=
    h.externalId_eq hadm.target_lt
  have hweight : toChars a.toArc.weight = some (format a.weight) := hformat _ hadm.finite
  unfold writeArc
  rw [h.externalId_eq hadm.source_lt, htarget]
  simp only [ok_bind, pure_eq_ok, OutputStream.putId, OutputStream.writeNumber, hweight,
    OutputStream.put_put, arcLine, List.append_assoc, List.cons_append, List.nil_append]

/-- One round of the outer loop writes the line of a node and the lines of its arcs. -/
theorem writeNode_eq (h : g.OverArcs distance staged) (hformat : Formats toChars format)
    {i : Nat} (hi : i < g.nodeCount) (nodes edges : OutputStream) :
    writeNode toChars g (nodes, edges) i
      = .ok (nodes.put (nodeLine format (idAt g (UInt32.ofNat i))
            (coordAt g.coordinates (UInt32.ofNat i)) ++ ['\n']),
          (staged.filter (fun a => decide (a.row = i))).foldl
            (fun out a => out.put (arcLine format g a ++ ['\n'])) edges) := by
  have hid : (UInt32.ofNat i).toNat = i := toNat_ofNat_node (hi.trans_le h.nodes_le)
  have hlt : (UInt32.ofNat i).toNat < g.nodeCount := hid.symm ▸ hi
  have hcontains : g.contains (UInt32.ofNat i) = true := (g.contains_iff _).mpr hlt
  have hcoord : coordAt g.coordinates (UInt32.ofNat i) ∈ g.coordinates := by
    unfold coordAt
    rw [List.getElem?_eq_getElem hlt, Option.getD_some]
    exact List.getElem_mem _
  obtain ⟨hx, hy⟩ := h.coordinates_finite _ hcoord
  have harcs : (rowOf staged (UInt32.ofNat i)).foldlM (writeArc toChars g (UInt32.ofNat i)) edges
      = .ok ((staged.filter (fun a => decide (a.row = i))).foldl
          (fun out a => out.put (arcLine format g a ++ ['\n'])) edges) := by
    rw [rowOf, ← filter_row_eq, hid, List.foldlM_map]
    refine (foldlM_eq_ok (fun _ => True) _ (fun a ha out _ => ⟨?_, trivial⟩) edges trivial).1
    rw [List.mem_filter, decide_eq_true_eq] at ha
    -- an arc of row `i` has the node `i` as its source
    have hsource : UInt32.ofNat i = a.source := by
      rw [← ha.2, StagedArc.row, UInt32.ofNat_toNat]
    rw [hsource]
    exact writeArc_eq h hformat ha.1 out
  unfold writeNode
  simp only [coordinate_eq hcontains, h.externalId_eq hlt, h.arcsFrom_eq hcontains, ok_bind, harcs,
    pure_eq_ok, OutputStream.putId, OutputStream.writeNumber, hformat _ hx, hformat _ hy,
    OutputStream.put_put, nodeLine, List.append_assoc, List.cons_append, List.nil_append]

theorem Graph.OverArcs.map_nodeLine (h : g.OverArcs distance staged) :
    (List.range g.nodeCount).map (fun i => nodeLine format (idAt g (UInt32.ofNat i))
        (coordAt g.coordinates (UInt32.ofNat i)))
      = List.zipWith (nodeLine format) g.externalIds g.coordinates := by
  refine List.ext_getElem ?_ (fun i hi hi' => ?_)
  · rw [List.length_map, List.length_range, List.length_zipWith, h.externalIds_length]
    exact (Nat.min_self _).symm
  · rw [List.length_map, List.length_range] at hi
    have hid : (UInt32.ofNat i).toNat = i := toNat_ofNat_node (hi.trans_le h.nodes_le)
    have hlt : i < g.externalIds.length := h.externalIds_length ▸ hi
    have hlt' : i < g.coordinates.length := hi
    rw [List.getElem_map, List.getElem_range, List.getElem_zipWith, idAt, coordAt, hid,
      List.getElem?_eq_getElem hlt, List.getElem?_eq_getElem hlt', Option.getD_some,
      Option.getD_some]

/-- **What `write_csv` writes**: a header, then one line for each node in the order of the
nodes, and one line for each arc in the order of the array. -/
theorem writeCsv_eq (h : g.OverArcs distance staged) (hformat : Formats toChars format)
    (nodes edges : OutputStream) :
    writeCsv toChars g nodes edges
      = .ok (nodes.put (unlines ("id,x,y".toList
              :: List.zipWith (nodeLine format) g.externalIds g.coordinates)),
          edges.put
            (unlines ("source,target,weight".toList :: staged.map (arcLine format g)))) := by
  have hrun := (foldlM_eq_ok (f := writeNode toChars g) (fun _ => True) (List.range g.nodeCount)
    (fun i hi streams _ => ⟨writeNode_eq h hformat (List.mem_range.mp hi) streams.1 streams.2,
      trivial⟩)
    (nodes.put "id,x,y\n".toList, edges.put "source,target,weight\n".toList) trivial).1
  have hrows : (List.range g.nodeCount).flatMap
      (fun i => staged.filter (fun a => decide (a.row = i))) = staged := by
    rw [Csr.flatMap_rows StagedArc.row h.sortedBySource]
    exact List.filter_eq_self.mpr (fun a ha => decide_eq_true (h.admissible a ha).source_lt)
  unfold writeCsv
  rw [hrun, foldl_pair (fun nodes i => OutputStream.put nodes (nodeLine format
      (idAt g (UInt32.ofNat i)) (coordAt g.coordinates (UInt32.ofNat i)) ++ ['\n']))
      (fun edges i => (staged.filter (fun a => decide (a.row = i))).foldl
        (fun out a => OutputStream.put out (arcLine format g a ++ ['\n'])) edges),
    OutputStream.foldl_put, ← List.foldl_flatMap, hrows, OutputStream.foldl_put, h.map_nodeLine,
    OutputStream.put_put, OutputStream.put_put]
  rfl

end Written

end RouteEngine
