import RouteEngine.Cli
import RouteEngine.CsvWriter
import RouteEngine.Generator
import RouteEngine.Library.FileStore

set_option autoImplicit false

/-! # The command generate

`command_generate` (`src/cli/main.cpp`): the options become the parameters of the generator, two
files are opened for writing, and the graph is written to them. A file system leads each path to
a file, so that different paths may lead to one file. Which paths can be opened, when buffered
output reaches a file and which writes fail is the file system's choice. -/

namespace RouteEngine

variable {F ι : Type}

/-! ## Paths -/

/-- A part of a path, after the names before it with the last one first. -/
def pushPart (absolute : Bool) (names : List Text) (part : Text) : List Text :=
  if part = "".toList ∨ part = ".".toList then names
  else if part = "..".toList then
    -- it removes the name before it; above the root there is nothing
    match names with
    | [] => if absolute then [] else [part]
    | last :: before => if last = part then part :: names else before
  else part :: names

/-- `path.lexically_normal()` with the separator `/`. A path that ends in a separator, `.` or
`..` ends in a separator after a name. -/
def lexicallyNormal (path : String) : String :=
  let parts := path.toList.splitOn '/'
  let absolute := path.toList.head? = some '/'
  let names := parts.foldl (pushPart absolute) []
  let start := if absolute then "/" else ""
  -- the last name comes first
  match names with
  | [] => if path.isEmpty then "" else if absolute then start else "."
  | last :: _ =>
      let body := start ++ "/".intercalate (names.reverse.map String.ofList)
      if last ≠ "..".toList ∧ parts.getLast? ∈ [some "".toList, some ".".toList, some "..".toList]
      then body ++ "/"
      else body

/-! ## The parameters -/

/-- The default values `100.0`, `0.35` and `0.25` of the members of `GeneratorParams`. -/
class DefaultParams (F : Type) where
  spacing : F
  jitter : F
  diagonalRate : F

instance : DefaultParams Binary64 where
  spacing := ⟨0x4059000000000000⟩
  jitter := ⟨0x3FD6666666666666⟩
  diagonalRate := ⟨0x3FD0000000000000⟩

/-- `parse_integer` for an unsigned 32-bit integer. -/
def parseInteger32 (text : String) : Option UInt32 :=
  match parseInteger text with
  -- digits beyond the range are `result_out_of_range`
  | some value => if value.toNat < UInt32.size then some value.toUInt32 else none
  | none => none

/-- `parse_real`. -/
def parseReal (fromChars : Text → Option (F × Text)) (text : String) : Option F :=
  match fromChars text.toList with
  | some (value, []) => some value
  | _ => none

/-- A value read from a text, or the error that quotes the text. -/
def readAs {α : Type} (value : Option α) (problem text : String) : Except String α :=
  match value with
  | some a => .ok a
  | none => .error (problem ++ ", found \"" ++ text ++ "\"")

/-- The value of an option that may be missing. -/
def readReal (fromChars : Text → Option (F × Text)) (key text : String) (default : F) :
    Except String F :=
  if text.isEmpty then .ok default
  else readAs (parseReal fromChars text) (key ++ " must be a number") text

/-- The two files that the command writes. -/
inductive OutputFile where
  | nodes
  | edges
  deriving DecidableEq, Repr

/-- The option that names an output file. -/
def OutputFile.field : OutputFile → OptionField
  | .nodes => .nodes
  | .edges => .edges

/-- `nodes_path` and `edges_path`. -/
def outputPath (options : Options) (output : OutputFile) : String :=
  lexicallyNormal (options.text output.field)

/-- The checks of `command_generate` that end in a usage error: the parameters, or the message. -/
def generateParams [IsFinite F] [Zero F] [One F] [UnitArith F] [DefaultParams F] [LT F]
    [DecidableLT F] [LE F] [DecidableLE F] (fromChars : Text → Option (F × Text))
    (options : Options) : Except String (GeneratorParams F) := do
  let unaccepted := options.rejectUnaccepted "generate"
    ["--nodes", "--edges", "--width", "--height", "--seed", "--spacing", "--jitter",
      "--diagonal-rate"] true
  if !unaccepted.isEmpty then throw unaccepted
  if (options.text .nodes).isEmpty || (options.text .edges).isEmpty ||
      (options.text .width).isEmpty || (options.text .height).isEmpty ||
      (options.text .seed).isEmpty then
    throw "generate requires --width, --height, --seed, --nodes and --edges"
  let width ← readAs (parseInteger32 (options.text .width))
    "--width must be a decimal unsigned integer" (options.text .width)
  let height ← readAs (parseInteger32 (options.text .height))
    "--height must be a decimal unsigned integer" (options.text .height)
  let seed ← readAs (parseInteger (options.text .seed))
    "--seed must be a decimal unsigned 64-bit integer" (options.text .seed)
  let spacing ← readReal fromChars "--spacing" (options.text .spacing) DefaultParams.spacing
  let jitter ← readReal fromChars "--jitter" (options.text .jitter) DefaultParams.jitter
  let diagonalRate ← readReal fromChars "--diagonal-rate" (options.text .diagonalRate)
    DefaultParams.diagonalRate
  let params : GeneratorParams F := { width, height, seed, spacing, jitter, diagonalRate }
  let problem := validateGeneratorParams params
  if !problem.isEmpty then throw problem
  if outputPath options .nodes = outputPath options .edges then
    throw ("--nodes and --edges must name different files, both are \"" ++
      options.text .nodes ++ "\"")
  return params

/-! ## The file system -/

/-- So many bytes of a stream reach its file, and then the stream may fail. -/
structure Write where
  output : OutputFile
  count : Nat
  fails : Bool
  deriving DecidableEq, Repr

/-- The file system: the file that each path leads to, the paths for which `exists` reports an
error, the paths that can be opened for writing, the writes while the graph is printed, and how
each stream is flushed: in full, or with a failure after so many bytes. A file whose stream has
failed holds some text in the end. -/
structure FileSystem (ι : Type) where
  identity : String → ι
  probeFails : String → Bool
  opens : String → Bool
  writes : List Write
  flush : OutputFile → Option Nat
  residue : OutputFile → Text

/-- A stream that writes to a file. -/
structure FileStream (ι : Type) where
  handle : FileHandle ι Char
  failed : Bool

/-- The files while the two streams are open. -/
structure Writing (ι : Type) where
  files : FileStore ι Char
  streams : OutputFile → FileStream ι

namespace FileSystem

variable (system : FileSystem ι)

/-- `exists(path, code)`, which is false when there is an error. -/
def pathExists (files : FileStore ι Char) (path : String) : Bool :=
  !system.probeFails path && (files.contents (system.identity path)).isSome

/-- Open a path for reading. -/
def readFile (files : FileStore ι Char) (path : String) : Option (Text × Ending) :=
  (files.contents (system.identity path)).map (fun text => (text, .endOfFile))

variable [DecidableEq ι]

/-- `std::ofstream out(path)`, and whether it can be used. -/
def openForWriting (path : String) : Session (FileStore ι Char) Bool := fun w =>
  if system.opens path then
    .ok true { w with files := w.files.truncate (system.identity path) }
  else .ok false w

end FileSystem

namespace Writing

variable [DecidableEq ι] (s : Writing ι)

/-- A stream that has failed hands over nothing. -/
def handOver (write : Write) : Writing ι :=
  if (s.streams write.output).failed then s
  else
    -- a write that fails may still have written the first bytes
    let (files, handle) := s.files.drain (s.streams write.output).handle write.count
    { files, streams := Function.update s.streams write.output ⟨handle, write.fails⟩ }

/-- `out.flush()`. -/
def flush (system : FileSystem ι) (output : OutputFile) : Writing ι :=
  match system.flush output with
  | none => s.handOver ⟨output, (s.streams output).handle.pending.length, false⟩
  | some count => s.handOver ⟨output, count, true⟩

/-- The destructor of a stream. A stream that was flushed has nothing left to write. -/
def close (system : FileSystem ι) (output : OutputFile) : Writing ι :=
  let stream := s.streams output
  if stream.failed then
    { s with files := s.files.overwrite stream.handle.file (system.residue output) }
  else s

end Writing

/-! ## The command -/

/-- How numbers are printed to a file: `std::to_chars`, and `<<` with the default precision. -/
structure NumberOutput (F : Type) where
  toChars : F → Option Text
  rateText : F → String

/-- The comment line that both files start with, up to its end. -/
def latticeComment (params : GeneratorParams F) : String :=
  "# route-engine generated lattice: width=" ++ toString params.width.toNat ++ " height=" ++
    toString params.height.toNat ++ " seed=" ++ toString params.seed.toNat

/-- What `command_generate` writes to the two streams. -/
def printLattice (output : NumberOutput F) (params : GeneratorParams F) (g : Graph F) :
    Outcome (OutputStream × OutputStream) :=
  let start : OutputStream := ⟨[], false⟩
  let nodesOut := start.put (latticeComment params ++ "\n").toList
  let edgesOut := start.put
    (latticeComment params ++ " diagonal-rate=" ++ output.rateText params.diagonalRate ++ "\n" ++
      "# every weight is exactly the Euclidean distance between its endpoints\n").toList
  writeCsv output.toChars g nodesOut edgesOut

/-- The stream of an output file. -/
def streamOf (streams : OutputStream × OutputStream) : OutputFile → OutputStream
  | .nodes => streams.1
  | .edges => streams.2

/-- `print_metric_report`. -/
def printMetricReport {Φ : Type} [Top F] [BEq F] (numberText : F → String) (g : Graph F) :
    Session Φ Unit := do
  let report := g.metric
  printOut ("metric contract:  " ++ (if report.passes then "satisfied" else "VIOLATED") ++ "\n")
  if report.passes then
    printOut
      ("  every arc weight is at least the straight-line distance between its endpoints,\n" ++
        "  so Euclidean A* is admissible on this graph\n")
  else
    printOut ("  violating arcs: " ++ toString report.violatingArcs.toNat ++ "\n" ++
      "  first violation: node ")
    let source ← Method.lift (g.externalId report.firstViolationSource)
    printOut (toString source.toNat ++ " -> ")
    let target ← Method.lift (g.externalId report.firstViolationTarget)
    printOut (toString target.toNat ++ "\n" ++
      "  Euclidean A* will be refused on this graph; dijkstra and astar-zero remain available\n")
  if report.worstRatio == ⊤ then
    printOut "  worst weight/distance ratio: n/a (no arc with a positive distance)\n"
  else
    printOut ("  worst weight/distance ratio: " ++ numberText report.worstRatio ++ "\n")

section

variable [DecidableEq ι] (system : FileSystem ι)

/-- The two streams when the graph was printed and nothing was handed over. -/
def openStreams (options : Options) (streams : OutputStream × OutputStream)
    (output : OutputFile) : FileStream ι :=
  ⟨⟨system.identity (outputPath options output), (streamOf streams output).text, 0⟩, false⟩

/-- A number that could not be formatted has set `failbit`. -/
def Writing.markFailed (s : Writing ι) (streams : OutputStream × OutputStream) : Writing ι :=
  { s with
    streams := fun output =>
      { s.streams output with
        failed := (s.streams output).failed || (streamOf streams output).failed } }

/-- Everything between the two opened files and the two checks after `flush`. -/
def writeStreams (options : Options) (streams : OutputStream × OutputStream)
    (files : FileStore ι Char) : Writing ι :=
  let s : Writing ι := ⟨files, openStreams system options streams⟩
  -- a buffer that fills up is written while the graph is still printed
  let s := (system.writes.foldl Writing.handOver s).markFailed streams
  (s.flush system .nodes).flush system .edges

/-- The files when both streams are gone. -/
def closedFiles (s : Writing ι) : FileStore ι Char :=
  ((s.close system .edges).close system .nodes).files

variable [IsFinite F] [Zero F] [One F] [Top F] [UnitArith F] [DefaultParams F] [LT F]
  [DecidableLT F] [LE F] [DecidableLE F] [Add F] [Sub F] [Mul F] [Div F] [BEq F]
variable (env : Platform (FileStore ι Char) F) (output : NumberOutput F)

/-- What is printed about a graph that was written. -/
def printSummary (options : Options) (params : GeneratorParams F) (g : Graph F) :
    Session (FileStore ι Char) Unit := do
  printOut ("generated:        " ++ toString params.width.toNat ++ " x " ++
      toString params.height.toNat ++ " lattice\n" ++
    "seed:             " ++ toString params.seed.toNat ++ "\n" ++
    "spacing:          " ++ env.numberText params.spacing ++ "\n" ++
    "jitter:           " ++ env.numberText params.jitter ++ "\n" ++
    "diagonal rate:    " ++ env.numberText params.diagonalRate ++ "\n" ++
    "nodes:            " ++ toString g.nodeCount ++ "\n" ++
    "arcs:             " ++ toString g.arcCount ++ "\n" ++
    "nodes file:       " ++ outputPath options .nodes ++ "\n" ++
    "edges file:       " ++ outputPath options .edges ++ "\n")
  printMetricReport env.numberText g

/-- The checks after both streams were flushed. -/
def reportWritten (options : Options) (params : GeneratorParams F) (g : Graph F)
    (s : Writing ι) : Session (FileStore ι Char) Nat :=
  if (s.streams .nodes).failed then
    dataError ("writing " ++ outputPath options .nodes ++ " failed")
  else if (s.streams .edges).failed then
    dataError ("writing " ++ outputPath options .edges ++ " failed")
  else do
    printSummary env options params g
    return kExitSuccess

/-- The part of `command_generate` after both files were opened. -/
def writeGraph (options : Options) (params : GeneratorParams F) (g : Graph F) :
    Session (FileStore ι Char) Nat := do
  let streams ← Method.lift (printLattice output params g)
  let w ← get
  -- the destructors run after the checks, but only a stream that has failed still writes
  let s := writeStreams system options streams w.files
  set { w with files := closedFiles system s }
  reportWritten env options params g s

/-- The part of `command_generate` that opens the files. -/
def openFiles (options : Options) (params : GeneratorParams F) (g : Graph F) :
    Session (FileStore ι Char) Nat := do
  if !(← system.openForWriting (outputPath options .nodes)) then
    dataError (outputPath options .nodes ++ " cannot be opened for writing")
  else if !(← system.openForWriting (outputPath options .edges)) then
    -- the nodes file stays, empty
    dataError (outputPath options .edges ++ " cannot be opened for writing")
  else writeGraph system env output options params g

/-- The output path that exists and must not be replaced. -/
def protectedPath (options : Options) (files : FileStore ι Char) : Option String :=
  if options.force then none
  else [outputPath options .nodes, outputPath options .edges].find? (system.pathExists files)

/-- `command_generate`. -/
def commandGenerate (options : Options) : Session (FileStore ι Char) Nat :=
  match generateParams env.fromChars options with
  | .error message => usageError message
  | .ok params => do
      let w ← get
      match protectedPath system options w.files with
      | some path => dataError (path ++
          " already exists; refusing to overwrite it, pass --force to replace it")
      | none => do
          -- what `generate` throws is thrown before a file is opened
          let g ← Method.lift (generate env.distance env.std params)
          openFiles system env output options params g

end

end RouteEngine
