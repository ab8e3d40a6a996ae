import RouteEngine.Csv
import RouteEngine.Search

set_option autoImplicit false

/-! # The command line program

`src/cli/main.cpp`: the option parser, the command `route`, the dispatch on the subcommand and the
exception handlers of `main`. The other commands are parameters of the dispatch. The file system
is a value of any type `Φ`, read through the function that opens a file, and what is printed is
kept as text. -/

namespace RouteEngine

/-! ## Exit codes and output -/

def kExitSuccess : Nat := 0

def kExitNoRoute : Nat := 1

def kExitUsage : Nat := 2

def kExitData : Nat := 3

def kExitHeuristicContract : Nat := 4

def kExitInternalDisagreement : Nat := 5

/-- What a run reads and changes. -/
structure World (Φ : Type) where
  out : String
  err : String
  files : Φ

variable {Φ F : Type}

/-- A function of the program. -/
abbrev Session (Φ α : Type) := Method (World Φ) α

/-- `std::cout << text`. -/
def printOut (text : String) : Session Φ Unit := fun w => .ok () { w with out := w.out ++ text }

/-- `std::cerr << text`. -/
def printErr (text : String) : Session Φ Unit := fun w => .ok () { w with err := w.err ++ text }

/-- The text of `print_usage`. -/
def usageText : String :=
  "route-engine -- C++ route and network engine\n" ++
  "\n" ++
  "Usage:\n" ++
  "  route-engine validate  --nodes <nodes.csv> --edges <edges.csv>\n" ++
  "\n" ++
  "  route-engine route     --nodes <nodes.csv> --edges <edges.csv>\n" ++
  "                         --from <external-id> --to <external-id>\n" ++
  "                         --algorithm dijkstra|astar-zero|astar-euclidean\n" ++
  "\n" ++
  "  route-engine generate  --width <positive-int> --height <positive-int>\n" ++
  "                         --seed <uint64>\n" ++
  "                         --nodes <nodes.csv> --edges <edges.csv>\n" ++
  "                         [--spacing <metres>]        default 100\n" ++
  "                         [--jitter <0..0.5>]         default 0.35\n" ++
  "                         [--diagonal-rate <0..1>]    default 0.25\n" ++
  "                         [--force]                   overwrite existing files\n" ++
  "\n" ++
  "  route-engine benchmark --nodes <nodes.csv> --edges <edges.csv>\n" ++
  "                         --queries <positive-int> --seed <uint64>\n" ++
  "                         --repetitions <positive-int>\n" ++
  "\n" ++
  "generate never overwrites an existing file unless --force is given.\n" ++
  "\n" ++
  "Exit codes:\n" ++
  "  0  success; route found where applicable\n" ++
  "  1  valid query, but no route exists\n" ++
  "  2  command-line usage error\n" ++
  "  3  CSV, graph data or output-file error\n" ++
  "  4  Euclidean A* requested on a graph that violates the metric contract\n" ++
  "  5  internal disagreement between algorithms; no benchmark was reported\n"

def usageError (message : String) : Session Φ Nat := do
  printErr ("route-engine: " ++ message ++ "\n\n")
  printErr usageText
  return kExitUsage

def dataError (message : String) : Session Φ Nat := do
  printErr ("route-engine: " ++ message ++ "\n")
  return kExitData

/-! ## Options -/

/-- The members of `Options` that hold a text, as pointers to members. -/
inductive OptionField where
  | nodes
  | edges
  | source
  | target
  | algorithm
  | width
  | height
  | seed
  | spacing
  | jitter
  | diagonalRate
  | queries
  | repetitions
  deriving DecidableEq, Repr

/-- `Options`: the text of each member, empty when the option was not given. -/
structure Options where
  text : OptionField → String
  force : Bool

namespace Options

/-- `Options{}`. -/
def none : Options := ⟨fun _ => "", false⟩

/-- `options.*field = value`. -/
def set (options : Options) (field : OptionField) (value : String) : Options :=
  { options with text := fun other => if other = field then value else options.text other }

/-- The table of `slots`. -/
def slots : List (String × OptionField) :=
  [("--nodes", .nodes), ("--edges", .edges), ("--from", .source), ("--to", .target),
    ("--algorithm", .algorithm), ("--width", .width), ("--height", .height), ("--seed", .seed),
    ("--spacing", .spacing), ("--jitter", .jitter), ("--diagonal-rate", .diagonalRate),
    ("--queries", .queries), ("--repetitions", .repetitions)]

/-- `slot_for`. -/
def slotFor (key : String) : Option OptionField := slots.lookup key

/-- `parse`: the options after the arguments, or an error message. -/
def parse : List String → Options → Except String Options
  | [], options => .ok options
  | key :: rest, options =>
      if !key.startsWith "--" then .error ("unexpected argument \"" ++ key ++ "\"")
      else if key = "--force" then
        if options.force then .error "option \"--force\" was given more than once"
        else parse rest { options with force := true }
      else
        match slotFor key with
        | .none => .error ("unknown option \"" ++ key ++ "\"")
        | some field =>
            match rest with
            | [] => .error ("option \"" ++ key ++ "\" requires a value")
            | value :: rest =>
                if !(options.text field).isEmpty then
                  .error ("option \"" ++ key ++ "\" was given more than once")
                else if value.isEmpty then
                  .error ("option \"" ++ key ++ "\" requires a non-empty value")
                else parse rest (options.set field value)

/-- `reject_unaccepted`: an error message, or the empty string. -/
def rejectUnaccepted (options : Options) (command : String) (accepted : List String)
    (acceptsForce : Bool) : String :=
  match slots.find? (fun slot => !(options.text slot.2).isEmpty && !accepted.contains slot.1) with
  | some slot => command ++ " does not accept \"" ++ slot.1 ++ "\""
  | .none =>
      if options.force && !acceptsForce then command ++ " does not accept \"--force\"" else ""

end Options

/-- `parse_integer` for an unsigned 64-bit integer. -/
def parseInteger (text : String) : Option UInt64 :=
  match fromCharsU64 text.toList with
  | some (value, []) => some value
  | _ => none

/-! ## The command route -/

/-- The loop of `find_node` from node `i` on. -/
def findFrom (g : Graph F) (externalId : ExternalId) : Nat → UInt32 → Outcome (Option NodeId)
  | 0, _ => throw .diverged
  | fuel + 1, i =>
      if i.toNat < g.nodeCount then do
        if (← g.externalId i) = externalId then return some i
        else findFrom g externalId fuel (i + 1)
      else return none

/-- `find_node`: the node with an external identifier. -/
def findNode (g : Graph F) (externalId : ExternalId) : Outcome (Option NodeId) :=
  findFrom g externalId (g.nodeCount + 1) 0

/-- The statistics that `print_stats` prints. -/
def statsText (stats : SearchStats) : String :=
  "statistics:\n" ++
  "  nodes expanded:   " ++ toString stats.nodesExpanded.toNat ++ "\n" ++
  "  arcs examined:    " ++ toString stats.arcsExamined.toNat ++ "\n" ++
  "  relaxations:      " ++ toString stats.relaxations.toNat ++ "\n" ++
  "  queue pushes:     " ++ toString stats.pqPushes.toNat ++ "\n" ++
  "  queue pops:       " ++ toString stats.pqPops.toNat ++ "\n" ++
  "  stale pops:       " ++ toString stats.stalePops.toNat ++ "\n" ++
  "  max queue size:   " ++ toString stats.maxQueueSize.toNat ++ "\n"

/-- The loop that prints the external identifiers of a path, from its element `i` on. -/
def printPath (g : Graph F) : List NodeId → Nat → Session Φ Unit
  | [], _ => return
  | node :: rest, i => do
      if i ≠ 0 then printOut " -> "
      let externalId ← Method.lift (g.externalId node)
      printOut (toString externalId.toNat)
      printPath g rest (i + 1)

section

variable [IsFinite F] [Zero F] [Top F] [LT F] [DecidableLT F] [LE F] [DecidableLE F] [Div F]

/-- What the program takes from the standard library: number parsing and printing, `hypot`,
`sort`, and opening a file for reading. A file that opens delivers the text of some lines until
something stops it. The text does not include a line that is cut off by a read error, since
`std::getline` does not deliver it. -/
structure Platform (Φ F : Type) [LT F] [DecidableLT F] where
  fromChars : Text → Option (F × Text)
  distance : Coord F → Coord F → F
  std : Comparison.Sorter (GraphBuilder.stagedBefore (F := F))
  openFile : Φ → String → Option (Text × Ending)
  numberText : F → String

variable (env : Platform Φ F)

/-- `load_graph` over two paths. -/
def loadGraphFiles (files : Φ) (nodesPath edgesPath : String) : Outcome (Graph F) :=
  match env.openFile files nodesPath with
  | none => .error (.graphLoad nodesPath 0 "cannot be opened for reading")
  | some nodes =>
      match env.openFile files edgesPath with
      | none => .error (.graphLoad edgesPath 0 "cannot be opened for reading")
      | some edges =>
          loadGraph env.fromChars env.distance env.std ⟨splitLines nodes.1, nodes.2⟩ nodesPath
            ⟨splitLines edges.1, edges.2⟩ edgesPath

variable [Add F] [BEq F]

/-- The part of `command_route` after the checks of the options. -/
def answerRoute (nodesPath edgesPath : String) (fromId toId : ExternalId)
    (algorithm : Algorithm) : Session Φ Nat := do
  let w ← get
  let g ← Method.lift (loadGraphFiles env w.files nodesPath edgesPath)
  match ← Method.lift (findNode g fromId) with
  | none => dataError ("node id " ++ toString fromId.toNat ++ " is not in " ++ nodesPath)
  | some source =>
  match ← Method.lift (findNode g toId) with
  | none => dataError ("node id " ++ toString toId.toNat ++ " is not in " ++ nodesPath)
  | some target => do
      let result ← Method.lift (runSearch env.distance g source target algorithm)
      printOut ("algorithm:        " ++ algorithmName algorithm ++ "\n" ++
        "from:             " ++ toString fromId.toNat ++ "\n" ++
        "to:               " ++ toString toId.toNat ++ "\n")
      if !result.found then
        printOut "route:            not found\n"
        printOut (statsText result.stats)
        return kExitNoRoute
      else
        printOut ("route:            found\n" ++
          "total cost:       " ++ env.numberText result.cost ++ "\n" ++
          "nodes on path:    " ++ toString result.path.length ++ "\n" ++
          "path:             ")
        printPath g result.path 0
        printOut "\n"
        printOut (statsText result.stats)
        return kExitSuccess

/-- `command_route`. -/
def commandRoute (options : Options) : Session Φ Nat :=
  let unaccepted := options.rejectUnaccepted "route"
    ["--nodes", "--edges", "--from", "--to", "--algorithm"] false
  if !unaccepted.isEmpty then usageError unaccepted
  else if (options.text .nodes).isEmpty || (options.text .edges).isEmpty ||
      (options.text .source).isEmpty || (options.text .target).isEmpty ||
      (options.text .algorithm).isEmpty then
    usageError "route requires --nodes, --edges, --from, --to and --algorithm"
  else
    match parseAlgorithm (options.text .algorithm) with
    | none => usageError ("unknown algorithm \"" ++ options.text .algorithm ++
        "\"; expected dijkstra, astar-zero or astar-euclidean")
    | some algorithm =>
    match parseInteger (options.text .source) with
    | none => usageError ("--from must be a decimal unsigned integer, found \"" ++
        options.text .source ++ "\"")
    | some fromId =>
    match parseInteger (options.text .target) with
    | none => usageError ("--to must be a decimal unsigned integer, found \"" ++
        options.text .target ++ "\"")
    | some toId =>
        answerRoute env (options.text .nodes) (options.text .edges) fromId toId algorithm

/-! ## Dispatch -/

/-- The commands `validate`, `generate` and `benchmark`. -/
structure OtherCommands (Φ : Type) where
  commandValidate : Options → Session Φ Nat
  commandGenerate : Options → Session Φ Nat
  commandBenchmark : Options → Session Φ Nat

variable (others : OtherCommands Φ)

/-- `run`. -/
def run : List String → Session Φ Nat
  | [] => usageError "no subcommand given"
  | command :: rest =>
      if command = "--help" ∨ command = "-h" ∨ command = "help" then do
        printOut usageText
        return kExitSuccess
      else if command ≠ "validate" ∧ command ≠ "route" ∧ command ≠ "generate" ∧
          command ≠ "benchmark" then
        usageError ("unknown subcommand \"" ++ command ++ "\"")
      else
        match Options.none.parse rest with
        | .error message => usageError message
        | .ok options =>
            if command = "validate" then others.commandValidate options
            else if command = "route" then commandRoute env options
            else if command = "generate" then others.commandGenerate options
            else others.commandBenchmark options

/-- A handler of `main`. -/
def reportError {Φ : Type} (text : String) (code : Nat) (w : World Φ) : Outcome (Nat × World Φ) :=
  (printErr ("route-engine: " ++ text ++ "\n") >>= fun _ => (pure code : Session Φ Nat)).call w

theorem reportError_eq {Φ : Type} (text : String) (code : Nat) (w : World Φ) :
    reportError text code w
      = .ok (code, { w with err := w.err ++ ("route-engine: " ++ text ++ "\n") }) :=
  rfl

/-- `main`: the exit code and what was printed. Nothing catches undefined behaviour. -/
def main (arguments : List String) (w : World Φ) : Outcome (Nat × World Φ) :=
  match run env others arguments w with
  | .ok code w => .ok (code, w)
  | .error (.graphLoad file line message) w =>
      reportError (formatLoadMessage file line message) kExitData w
  | .error (.heuristicContract message) w => reportError message kExitHeuristicContract w
  | .error (.benchmarkAgreement message) w => reportError message kExitInternalDisagreement w
  | .error (.graphValidation message) w => reportError message kExitData w
  | .error (.outOfRange message) w => reportError ("unexpected error: " ++ message) kExitData w
  | .error (.standard message) w => reportError ("unexpected error: " ++ message) kExitData w
  | .error .undefinedBehavior _ => .error .undefinedBehavior
  | .error .diverged _ => .error .diverged

end

end RouteEngine
