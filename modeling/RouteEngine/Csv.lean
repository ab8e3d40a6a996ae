import Mathlib.Algebra.Group.Nat.Defs
import Mathlib.Data.List.DropRight
import RouteEngine.Builder

set_option autoImplicit false

/-! # The CSV loader

`load_graph` and its helpers (`include/route/csv.hpp`, `src/csv.cpp`). A text is a list of
characters, one for each byte. `std::from_chars` for `double` is a parameter of the loader: it
returns the number it recognises at the start of a text and what it leaves unread. -/

namespace RouteEngine

variable {F : Type}

/-! ## Text -/

/-- A string of bytes; a character stands for the byte of its number. -/
abbrev Text := List Char

/-- The three fields of a line. -/
abbrev Fields := Text × Text × Text

/-- `kUtf8Bom`. -/
def kUtf8Bom : Text := [Char.ofNat 0xEF, Char.ofNat 0xBB, Char.ofNat 0xBF]

def kFieldCount : Nat := 3

/-- The `is_space` of `trim`. -/
def isSpace (c : Char) : Bool := c == ' ' || c == '\t'

def trim (text : Text) : Text := (text.dropWhile isSpace).rdropWhile isSpace

/-- True for a line that carries no data: empty after trimming, or a comment. -/
def isSkippable (trimmed : Text) : Bool := trimmed.isEmpty || trimmed.head? == some '#'

/-- `split_fields`: the trimmed fields between commas when there are exactly `kFieldCount` of
them, and otherwise the count that was found. -/
def splitFields (line : Text) : Except Nat Fields :=
  match line.splitOn ',' with
  | [first, second, third] => .ok (trim first, trim second, trim third)
  | fields => .error fields.length

/-! ## Numbers -/

/-- `std::from_chars` for an unsigned 64-bit integer in base 10: the digits at the start of
the text, if there are any and their value fits. -/
def fromCharsU64 (text : Text) : Option (ExternalId × Text) :=
  let digits := text.takeWhile Char.isDigit
  let value := Nat.ofDigitChars 10 digits 0
  if digits.isEmpty then none
  else if value < 2 ^ 64 then some (UInt64.ofNat value, text.dropWhile Char.isDigit)
  else none

/-- Parse a field that must be consumed in full. -/
def parseField {V : Type} (fromChars : Text → Option (V × Text)) (field : Text) : Option V :=
  if field.isEmpty then none
  else
    match fromChars field with
    | some (value, []) => some value
    | _ => none

def parseExternalId (field : Text) : Option ExternalId := parseField fromCharsU64 field

def parseNumber (fromChars : Text → Option (F × Text)) (field : Text) : Option F :=
  parseField fromChars field

/-- `parse_number` followed by the `std::isfinite` test of every caller. -/
def parseFinite [IsFinite F] (fromChars : Text → Option (F × Text)) (field : Text) : Option F :=
  (parseNumber fromChars field).filter isFinite

/-! ## Streams -/

/-- What stops `std::getline` after the last line it extracts. -/
inductive Ending where
  | endOfFile
  | readError
  deriving DecidableEq, Repr

/-- An input stream: the lines still to extract, and what comes after them. -/
structure InputStream where
  lines : List Text
  ending : Ending
  deriving DecidableEq, Repr

/-- The lines that `std::getline` extracts from a text. A last line need not end in LF, and
after a final LF there is no further line. -/
def splitLines : Text → List Text
  | [] => []
  | c :: text =>
      if c = '\n' then [] :: splitLines text
      else
        match splitLines text with
        | [] => [[c]]
        | line :: lines => (c :: line) :: lines

/-- The stream over a text. -/
def InputStream.ofText (text : Text) : InputStream := ⟨splitLines text, .endOfFile⟩

/-- Strip a trailing CR, so that CRLF input behaves exactly like LF input. -/
def dropCr (line : Text) : Text := if line.getLast? = some '\r' then line.dropLast else line

/-- Strip a byte order mark at the start. -/
def dropBom (text : Text) : Text :=
  if kUtf8Bom <+: text then text.drop kUtf8Bom.length else text

/-! ## The reader -/

structure Reader where
  input : InputStream
  name : String
  lineNumber : Nat

namespace Reader

def new (input : InputStream) (name : String) : Reader := ⟨input, name, 0⟩

/-- The part of physical line `lineNumber` that `next` looks at. -/
def view (lineNumber : Nat) (line : Text) : Text :=
  trim (if lineNumber = 1 then dropBom (dropCr line) else dropCr line)

/-- The loop of `next`: the first line that carries data, the lines after it, and its line
number. -/
def nextContent : List Text → Nat → Option Text × List Text × Nat
  | [], lineNumber => (none, [], lineNumber)
  | line :: lines, lineNumber =>
      if isSkippable (view (lineNumber + 1) line) then nextContent lines (lineNumber + 1)
      else (some (view (lineNumber + 1) line), lines, lineNumber + 1)

/-- Advance to the next line that is not blank and not a comment. A read error looks to the
loop like the end of the file. -/
def next (reader : Reader) : Option Text × Reader :=
  let (content, lines, lineNumber) := nextContent reader.input.lines reader.lineNumber
  (content, ⟨⟨lines, reader.input.ending⟩, reader.name, lineNumber⟩)

def failAt {α : Type} (reader : Reader) (line : Nat) (message : String) : Outcome α :=
  .error (.graphLoad reader.name line message)

def fail {α : Type} (reader : Reader) (message : String) : Outcome α :=
  reader.failAt reader.lineNumber message

/-- Read and check the header. -/
def expectHeader (reader : Reader) (first second third : String) : Outcome Reader :=
  let expected := first ++ "," ++ second ++ "," ++ third
  match reader.next with
  | (none, reader) =>
      reader.failAt 0 ("file is empty; expected a header line \"" ++ expected ++ "\"")
  | (some header, reader) =>
      if splitFields header = .ok (first.toList, second.toList, third.toList) then .ok reader
      else reader.fail ("header must be exactly \"" ++ expected ++ "\", found \"" ++
        String.ofList header ++ "\"")

/-- Read the next data row; `none` at the end of the input. -/
def nextRow (reader : Reader) : Outcome (Option Fields × Reader) :=
  match reader.next with
  | (none, reader) => .ok (none, reader)
  | (some line, reader) =>
      match splitFields line with
      | .error found =>
          reader.fail ("expected " ++ toString kFieldCount ++
            " comma-separated fields, found " ++ toString found)
      | .ok fields =>
          if fields.1.isEmpty || fields.2.1.isEmpty || fields.2.2.isEmpty then
            reader.fail "fields must not be empty"
          else .ok (some fields, reader)

end Reader

/-- `while (reader.next_row(fields))`: the loop of `read_nodes` and of `read_edges`. -/
def eachRow {σ : Type} (body : Reader → Fields → σ → Outcome σ) :
    Nat → Reader → σ → Outcome σ
  | 0, _, _ => .error .diverged
  | fuel + 1, reader, state => do
      let (row, reader) ← reader.nextRow
      match row with
      | none => return state
      | some fields =>
          let state ← body reader fields state
          eachRow body fuel reader state

/-- Every round of the loop reads a line, so one more than there are lines is enough. -/
def Reader.rowFuel (reader : Reader) : Nat := reader.input.lines.length + 1

/-! ## Nodes -/

structure NodeRecord (F : Type) where
  externalId : ExternalId
  coordinate : Coord F
  line : Nat
  deriving DecidableEq, Repr

/-- `std::unordered_map<ExternalId, std::uint32_t>`. -/
abbrev NodeIndex := List (ExternalId × UInt32)

/-- The body of the loop of `read_nodes`. -/
def readNode [IsFinite F] (fromChars : Text → Option (F × Text)) (reader : Reader)
    (fields : Fields) (state : List (NodeRecord F) × NodeIndex) :
    Outcome (List (NodeRecord F) × NodeIndex) := do
  let (records, index) := state
  match parseExternalId fields.1 with
  | none => reader.fail ("id must be a decimal unsigned integer, found \"" ++
      String.ofList fields.1 ++ "\"")
  | some externalId =>
  match parseFinite fromChars fields.2.1 with
  | none => reader.fail ("x must be a finite number, found \"" ++
      String.ofList fields.2.1 ++ "\"")
  | some x =>
  match parseFinite fromChars fields.2.2 with
  | none => reader.fail ("y must be a finite number, found \"" ++
      String.ofList fields.2.2 ++ "\"")
  | some y =>
  if records.length ≥ maxSupportedNodeCount then
    reader.fail ("more nodes than this engine supports (" ++
      toString maxSupportedNodeCount ++ ")")
  else
    match index.lookup externalId with
    | some earlier =>
        let record ← subscript records earlier.toNat
        reader.fail ("duplicate node id " ++ toString externalId.toNat ++
          ", already defined on line " ++ toString record.line)
    | none =>
        return (records ++ [⟨externalId, ⟨x, y⟩, reader.lineNumber⟩],
          (externalId, UInt32.ofNat records.length) :: index)

def readNodes [IsFinite F] (fromChars : Text → Option (F × Text)) (input : InputStream)
    (name : String) : Outcome (List (NodeRecord F) × NodeIndex) := do
  let reader ← (Reader.new input name).expectHeader "id" "x" "y"
  eachRow (readNode fromChars) reader.rowFuel reader ([], [])

/-! ## Edges -/

/-- A call inside `try`, with a handler that reports a `GraphValidationError` as a
`GraphLoadError` at a line of a file. -/
def Method.rethrowing {σ α : Type} (m : Method σ α) (file : String) (line : Nat) (s : σ) :
    Outcome (α × σ) :=
  match m s with
  | .ok a s' => .ok (a, s')
  | .error (.graphValidation message) _ => .error (.graphLoad file line message)
  | .error e _ => .error e

/-- The body of the loop of `read_edges`. -/
def readEdge [IsFinite F] [Zero F] [LT F] [DecidableLT F]
    (fromChars : Text → Option (F × Text)) (index : NodeIndex) (reader : Reader)
    (fields : Fields) (builder : GraphBuilder F) : Outcome (GraphBuilder F) :=
  match parseExternalId fields.1 with
  | none => reader.fail ("source must be a decimal unsigned integer, found \"" ++
      String.ofList fields.1 ++ "\"")
  | some sourceId =>
  match parseExternalId fields.2.1 with
  | none => reader.fail ("target must be a decimal unsigned integer, found \"" ++
      String.ofList fields.2.1 ++ "\"")
  | some targetId =>
  match parseFinite fromChars fields.2.2 with
  | none => reader.fail ("weight must be a finite number, found \"" ++
      String.ofList fields.2.2 ++ "\"")
  | some weight =>
  if weight < 0 then
    reader.fail ("weight must not be negative, found " ++ String.ofList fields.2.2)
  else
    match index.lookup sourceId with
    | none => reader.fail ("unknown source id " ++ toString sourceId.toNat ++
        "; it is not in the node file")
    | some source =>
    match index.lookup targetId with
    | none => reader.fail ("unknown target id " ++ toString targetId.toNat ++
        "; it is not in the node file")
    | some target => do
        let (_, builder) ← (GraphBuilder.addArc source target weight).rethrowing reader.name
          reader.lineNumber builder
        return builder

def readEdges [IsFinite F] [Zero F] [LT F] [DecidableLT F]
    (fromChars : Text → Option (F × Text)) (input : InputStream) (name : String)
    (index : NodeIndex) (builder : GraphBuilder F) : Outcome (GraphBuilder F) := do
  let reader ← (Reader.new input name).expectHeader "source" "target" "weight"
  eachRow (readEdge fromChars index) reader.rowFuel reader builder

/-! ## The graph -/

/-- The body of the loop of `load_graph` over the node records; `i` is the node's number. -/
def setRecord [IsFinite F] (nodesName : String) (builder : GraphBuilder F)
    (numbered : NodeRecord F × Nat) : Outcome (GraphBuilder F) := do
  let (record, i) := numbered
  let (_, builder) ← (GraphBuilder.setNode (UInt32.ofNat i) record.coordinate
    record.externalId).rethrowing nodesName record.line builder
  return builder

/-- `load_graph` over two streams. -/
def loadGraph [IsFinite F] [Zero F] [Top F] [LT F] [DecidableLT F] [LE F] [DecidableLE F]
    [Div F] (fromChars : Text → Option (F × Text)) (distance : Coord F → Coord F → F)
    (std : Comparison.Sorter (GraphBuilder.stagedBefore (F := F))) (nodes : InputStream)
    (nodesName : String) (edges : InputStream) (edgesName : String) : Outcome (Graph F) := do
  let (records, index) ← readNodes fromChars nodes nodesName
  let builder ← GraphBuilder.new records.length
  let builder ← records.zipIdx.foldlM (setRecord nodesName) builder
  let builder ← readEdges fromChars edges edgesName index builder
  let (graph, _) ← (GraphBuilder.build distance std).rethrowing edgesName 0 builder
  return graph

end RouteEngine
