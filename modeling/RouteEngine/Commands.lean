import RouteEngine.BenchmarkReport
import RouteEngine.GenerateCommand
import RouteEngine.QueryPairs

set_option autoImplicit false

/-! # The commands validate and benchmark

`command_validate`, `command_benchmark` and `print_benchmark` (`src/cli/main.cpp`) and
`AlgorithmSummary::median_seconds` (`src/benchmark.cpp`). With `route` and `generate` these are
all commands, and `engineCommands` closes the dispatch of `run`. -/

namespace RouteEngine

variable {F Φ : Type}

/-! ## Measured times -/

/-- What the benchmark takes from the standard library: the readings of `steady_clock`, the two
conversions of `run_benchmark`, `std::sort` of times, `quiet_NaN()`, `std::fixed` with a
precision, and the text of the exception with which `reserve` ends when there is no room for the
queries or for their results, if there is none for so many. -/
structure Stopwatch (F : Type) [LT F] [DecidableLT F] where
  clock : Nat → Int
  seconds : Int → F
  showCost : F → String
  std : Comparison.Sorter (fun a b : F => decide (a < b))
  quietNaN : F
  fixedText : Nat → F → String
  reserveError : Nat → Option String

/-- `median_seconds`. -/
def AlgorithmSummary.medianSeconds [UnitArith F] [Add F] [Mul F] [LT F] [DecidableLT F]
    (watch : Stopwatch F) (summary : AlgorithmSummary F) : Outcome F :=
  if summary.repetitionSeconds.isEmpty then return watch.quietNaN
  else do
    let sorted := watch.std.sort summary.repetitionSeconds
    let middle := sorted.length / 2
    if sorted.length % 2 = 1 then subscript sorted middle
    else
      let below ← subscript sorted (middle - 1)
      let above ← subscript sorted middle
      return UnitArith.half * (below + above)

/-! ## print_benchmark -/

/-- `std::left << std::setw(width) << text`. -/
def leftText (width : Nat) (text : String) : String :=
  text ++ String.ofList (List.replicate (width - text.length) ' ')

/-- `std::right << std::setw(width) << text`. -/
def rightText (width : Nat) (text : String) : String :=
  String.ofList (List.replicate (width - text.length) ' ') ++ text

/-- The head of the table of totals. -/
def totalsHead (queries : Nat) : String :=
  "\ntotals over " ++ toString queries ++ " queries, per algorithm\n" ++
  leftText 18 "algorithm" ++ rightText 16 "expanded" ++ rightText 16 "arcs" ++
  rightText 14 "pushes" ++ rightText 14 "pops" ++ rightText 12 "stale" ++
  rightText 12 "max queue" ++ rightText 14 "median s" ++ "\n"

/-- A row of the table of totals. -/
def totalsRow (medianText : String) (summary : AlgorithmSummary F) : String :=
  leftText 18 (algorithmName summary.algorithm) ++
  rightText 16 (toString summary.nodesExpanded.toNat) ++
  rightText 16 (toString summary.arcsExamined.toNat) ++
  rightText 14 (toString summary.pqPushes.toNat) ++
  rightText 14 (toString summary.pqPops.toNat) ++
  rightText 12 (toString summary.stalePops.toNat) ++
  rightText 12 (toString summary.maxQueueSize.toNat) ++
  rightText 14 medianText ++ "\n"

/-- The expansions of a summary relative to the first one. -/
def expansionRatio [UnitArith F] [Zero F] [Div F] [LT F] [DecidableLT F]
    (baseline : F) (summary : AlgorithmSummary F) : F :=
  if 0 < baseline then UnitArith.ofNat summary.nodesExpanded.toNat / baseline else 0

/-- The remarks at the end. -/
def benchmarkRemarks : String :=
  "\nNode expansions are the primary comparison. They are an exact count rather\n" ++
  "than a sampled measurement, and are deterministic for this build and this exact\n" ++
  "input: the same binary, graph and query set reproduce them precisely.\n" ++
  "\n" ++
  "Elapsed time is a secondary observation only. It describes this build on this\n" ++
  "machine at this moment and is not comparable with any other machine, compiler,\n" ++
  "build type or run; no test asserts anything about it. These figures also do not\n" ++
  "claim that A* always expands fewer nodes than Dijkstra -- that depends on the\n" ++
  "graph and on the query, and this is one graph and one query set.\n"

section

variable [UnitArith F] [Add F] [Mul F] [LT F] [DecidableLT F] (watch : Stopwatch F)

/-- The body of the first loop of `print_benchmark`. -/
def printTotals (report : BenchmarkReport F) (slot : Fin 3) : Session Φ Unit := do
  let median ← Method.lift ((report.algorithms slot).medianSeconds watch)
  printOut (totalsRow (watch.fixedText 6 median) (report.algorithms slot))

/-- The body of the second loop. -/
def printRatio [Zero F] [Div F] (report : BenchmarkReport F) (slot : Fin 3) : Session Φ Unit :=
  let baseline : F := UnitArith.ofNat (report.algorithms referenceSlot).nodesExpanded.toNat
  let summary := report.algorithms slot
  printOut ("  " ++ leftText 18 (algorithmName summary.algorithm) ++
    watch.fixedText 3 (expansionRatio baseline summary) ++ "\n")

/-- `print_benchmark`, which does not use the graph. -/
def printBenchmark [Zero F] [Div F] (report : BenchmarkReport F) : Session Φ Unit := do
  printOut (totalsHead report.queries)
  (List.finRange 3).forM (printTotals watch report)
  -- `report.algorithms.front()` is the reference
  -- `report.algorithms[0]` is the reference
  printOut ("\nnode expansions relative to " ++
    algorithmName (report.algorithms referenceSlot).algorithm ++ ":\n")
  (List.finRange 3).forM (printRatio watch report)
  printOut benchmarkRemarks

end

/-! ## The command validate -/

section

variable [IsFinite F] [Zero F] [Top F] [LT F] [DecidableLT F] [LE F] [DecidableLE F] [Div F]
  [BEq F] (env : Platform Φ F)

/-- The lines about the files and the size of the graph. -/
def graphText (options : Options) (g : Graph F) : String :=
  "nodes file:       " ++ options.text .nodes ++ "\n" ++
  "edges file:       " ++ options.text .edges ++ "\n" ++
  "nodes:            " ++ toString g.nodeCount ++ "\n" ++
  "arcs:             " ++ toString g.arcCount ++ "\n"

/-- The check of `command_validate` that ends in a usage error. -/
def validateArguments (options : Options) : Except String Unit := do
  let unaccepted := options.rejectUnaccepted "validate" ["--nodes", "--edges"] false
  if !unaccepted.isEmpty then throw unaccepted
  if (options.text .nodes).isEmpty || (options.text .edges).isEmpty then
    throw "validate requires --nodes and --edges"

/-- The part of `command_validate` after the checks of the options. -/
def answerValidate (options : Options) : Session Φ Nat := do
  let w ← get
  let g ← Method.lift (loadGraphFiles env w.files (options.text .nodes) (options.text .edges))
  printOut (graphText options g)
  printMetricReport env.numberText g
  return kExitSuccess

/-- `command_validate`. -/
def commandValidate (options : Options) : Session Φ Nat :=
  match validateArguments options with
  | .error message => usageError message
  | .ok _ => answerValidate env options

/-! ## The command benchmark -/

/-- The numbers that `benchmark` is given. -/
structure BenchmarkParams where
  queryCount : UInt64
  repetitions : UInt64
  seed : UInt64

/-- A positive number read from an option. -/
def readPositive (key text : String) : Except String UInt64 :=
  readAs ((parseInteger text).filter (fun value => value ≠ 0))
    (key ++ " must be a positive decimal integer") text

/-- The checks of `command_benchmark` that end in a usage error: the numbers, or the message. -/
def benchmarkArguments (options : Options) : Except String BenchmarkParams := do
  let unaccepted := options.rejectUnaccepted "benchmark"
    ["--nodes", "--edges", "--queries", "--seed", "--repetitions"] false
  if !unaccepted.isEmpty then throw unaccepted
  if (options.text .nodes).isEmpty || (options.text .edges).isEmpty ||
      (options.text .queries).isEmpty || (options.text .seed).isEmpty ||
      (options.text .repetitions).isEmpty then
    throw "benchmark requires --nodes, --edges, --queries, --seed and --repetitions"
  let queryCount ← readPositive "--queries" (options.text .queries)
  let repetitions ← readPositive "--repetitions" (options.text .repetitions)
  let seed ← readAs (parseInteger (options.text .seed))
    "--seed must be a decimal unsigned 64-bit integer" (options.text .seed)
  return { queryCount, repetitions, seed }

variable [CostArith F] [UnitArith F] [One F] [Add F] [Sub F] [Mul F] (watch : Stopwatch F)

/-- The lines about a benchmark that was run. -/
def benchmarkText (seed : UInt64) (report : BenchmarkReport F) : String :=
  "metric contract:  satisfied\n" ++
  "queries:          " ++ toString report.queries ++ " (seed " ++ toString seed.toNat ++ ")\n" ++
  "repetitions:      " ++ toString report.repetitions ++ "\n" ++
  "warm-up:          1 pass per algorithm, excluded from every figure below\n" ++
  "order:            rotated by one algorithm on each repetition\n" ++
  "routes found:     " ++ toString report.routesFound ++ " of " ++ toString report.queries ++
    "\n" ++
  "agreement:        every algorithm agrees on route existence and cost\n"

/-- The two steps of `command_benchmark` that run the benchmark. The clock has not been read
before. -/
def measure (g : Graph F) (params : BenchmarkParams) : Outcome (BenchmarkReport F) := do
  let queries ← makeQueryPairs g params.seed params.queryCount.toNat
  -- `queries.reserve` and `reference.reserve`
  if let some message := watch.reserveError params.queryCount.toNat then
    throw (.standard message)
  let (report, _) ← (runBenchmark
    (searchEnvironment env.distance g watch.clock watch.seconds watch.showCost) g queries
    params.repetitions.toNat).call 0
  return report

/-- The part of `command_benchmark` after the checks of the options. -/
def answerBenchmark (options : Options) (params : BenchmarkParams) : Session Φ Nat := do
  let w ← get
  let g ← Method.lift (loadGraphFiles env w.files (options.text .nodes) (options.text .edges))
  if g.nodeCount < 2 then
    dataError ("a benchmark needs at least two nodes, " ++ options.text .nodes ++ " defines " ++
      toString g.nodeCount)
  else if !g.metric.passes then do
    printErr ("route-engine: this graph violates the metric contract on " ++
      toString g.metric.violatingArcs.toNat ++
      " arc(s), so Euclidean A* cannot take part in a fair comparison and no\n" ++
      "benchmark was run\n")
    return kExitHeuristicContract
  else do
    let report ← Method.lift (measure env watch g params)
    printOut (graphText options g)
    printOut (benchmarkText params.seed report)
    printBenchmark watch report
    return kExitSuccess

/-- `command_benchmark`. -/
def commandBenchmark (options : Options) : Session Φ Nat :=
  match benchmarkArguments options with
  | .error message => usageError message
  | .ok params => answerBenchmark env watch options params

end

/-! ## All commands -/

/-- The commands of the program beside `route`. -/
def engineCommands {ι : Type} [DecidableEq ι] [IsFinite F] [Zero F] [One F] [Top F] [UnitArith F]
    [CostArith F] [DefaultParams F] [LT F] [DecidableLT F] [LE F] [DecidableLE F] [Add F] [Sub F]
    [Mul F] [Div F] [BEq F] (system : FileSystem ι) (env : Platform (FileStore ι Char) F)
    (output : NumberOutput F) (watch : Stopwatch F) : OtherCommands (FileStore ι Char) where
  commandValidate := commandValidate env
  commandGenerate := commandGenerate system env output
  commandBenchmark := commandBenchmark env watch

end RouteEngine
