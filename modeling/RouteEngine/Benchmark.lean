import Mathlib.Algebra.Order.AddGroupWithTop
import Mathlib.Algebra.Order.Field.Basic
import Mathlib.Algebra.Order.Ring.WithTop
import RouteEngine.Builder
import RouteEngine.Search
import RouteEngine.Library.Binary64

set_option autoImplicit false

/-! # The benchmark

`run_benchmark` (`include/route/benchmark.hpp`, `src/benchmark.cpp`): a warm-up pass of each
algorithm over the query set, which compares the answers of the algorithms, and then the
measured repetitions, which compare the counters of the passes of one algorithm.

What the function calls outside the benchmark is a record of parameters, the `Environment`:
`run_search`, the clock, and the two conversions of the standard library. Sizes and positions
(`std::size_t`) are natural numbers; `repetition + step` would wrap only after more timings
than a vector can hold. -/

namespace RouteEngine

variable {F σ : Type}

structure QueryPair where
  source : NodeId
  target : NodeId
  deriving DecidableEq, Repr

/-- The algorithms a benchmark compares, in their canonical reporting order. -/
def kBenchmarkAlgorithms : Fin 3 → Algorithm
  | 0 => .dijkstra
  | 1 => .astarZero
  | 2 => .astarEuclidean

/-- The slot of the algorithm that the others are compared with. -/
def referenceSlot : Fin 3 := 0

/-- The slots of the others. -/
def comparedSlots : List (Fin 3) := [1, 2]

/-- The slot that is measured at a step of a repetition. -/
def slotAt (repetition step : Nat) : Fin 3 := Fin.ofNat 3 (repetition + step)

/-! ## Agreement of costs -/

/-- The operations on costs that only the comparison uses: `std::isinf`, `std::abs` and the
literal `1e-9`. -/
class CostArith (F : Type) where
  isInf : F → Bool
  abs : F → F
  tolerance : F

instance : CostArith Binary64 where
  isInf := Binary64.isInf
  abs := Binary64.abs
  tolerance := ⟨0x3E112E0BE826D695⟩

/-- The scalars of an ordered field with an infinity on top. -/
instance {K : Type} [Field K] [LinearOrder K] : CostArith (WithTop K) where
  isInf x := decide (x = ⊤)
  abs := WithTop.map (fun x => |x|)
  tolerance := ((1 / 10 ^ 9 : K) : WithTop K)

/-- `std::max` of an initializer list: the first of its largest elements. -/
def maxElement [LT F] [DecidableLT F] (first : F) (rest : List F) : F :=
  rest.foldl (fun largest x => if largest < x then x else largest) first

/-- Costs are compared with a relative tolerance. -/
def costsAgree [CostArith F] [One F] [Sub F] [Mul F] [LT F] [DecidableLT F] [LE F]
    [DecidableLE F] (lhs rhs : F) : Bool :=
  if CostArith.isInf lhs || CostArith.isInf rhs then
    CostArith.isInf lhs && CostArith.isInf rhs
  else
    let scale := maxElement 1 [CostArith.abs lhs, CostArith.abs rhs]
    decide (CostArith.abs (lhs - rhs) ≤ CostArith.tolerance * scale)

/-! ## Summaries -/

/-- Totals for one algorithm over one full pass of the query set. -/
structure AlgorithmSummary (F : Type) where
  algorithm : Algorithm
  nodesExpanded : UInt64
  arcsExamined : UInt64
  relaxations : UInt64
  pqPushes : UInt64
  pqPops : UInt64
  stalePops : UInt64
  maxQueueSize : UInt64
  repetitionSeconds : List F
  deriving DecidableEq

/-- A summary with every counter at zero. -/
def AlgorithmSummary.zero (algorithm : Algorithm) : AlgorithmSummary F :=
  ⟨algorithm, 0, 0, 0, 0, 0, 0, 0, []⟩

def accumulate (summary : AlgorithmSummary F) (stats : SearchStats) : AlgorithmSummary F :=
  { summary with
    nodesExpanded := summary.nodesExpanded + stats.nodesExpanded
    arcsExamined := summary.arcsExamined + stats.arcsExamined
    relaxations := summary.relaxations + stats.relaxations
    pqPushes := summary.pqPushes + stats.pqPushes
    pqPops := summary.pqPops + stats.pqPops
    stalePops := summary.stalePops + stats.stalePops
    maxQueueSize := max summary.maxQueueSize stats.maxQueueSize }

def countersMatch (lhs rhs : AlgorithmSummary F) : Bool :=
  lhs.nodesExpanded == rhs.nodesExpanded && lhs.arcsExamined == rhs.arcsExamined &&
    lhs.relaxations == rhs.relaxations && lhs.pqPushes == rhs.pqPushes &&
    lhs.pqPops == rhs.pqPops && lhs.stalePops == rhs.stalePops &&
    lhs.maxQueueSize == rhs.maxQueueSize

/-- `summary.repetition_seconds.push_back(seconds)`. -/
def AlgorithmSummary.pushSeconds (summary : AlgorithmSummary F) (seconds : F) :
    AlgorithmSummary F :=
  { summary with repetitionSeconds := summary.repetitionSeconds ++ [seconds] }

structure BenchmarkReport (F : Type) where
  queries : Nat
  repetitions : Nat
  routesFound : Nat
  algorithms : Fin 3 → AlgorithmSummary F

/-- `report.algorithms[slot] = summary`. -/
def BenchmarkReport.setSummary (report : BenchmarkReport F) (slot : Fin 3)
    (summary : AlgorithmSummary F) : BenchmarkReport F :=
  { report with algorithms := Function.update report.algorithms slot summary }

/-! ## The run -/

/-- What `run_benchmark` calls. -/
structure Environment (F σ : Type) where
  /-- `run_search` on the graph of the benchmark -/
  runSearch : NodeId → NodeId → Algorithm → Method σ (SearchResult F)
  /-- `std::chrono::steady_clock::now()`, in ticks -/
  now : Method σ Int
  /-- `std::chrono::duration<double>(ticks).count()` -/
  seconds : Int → F
  /-- `std::to_string` of a cost -/
  showCost : F → String

/-- `describe`: the query in the ids of the input files. The two lookups are not sequenced in
the source; the source node is looked up first here. -/
def describe (g : Graph F) (query : QueryPair) : Outcome String := do
  let source ← g.externalId query.source
  let target ← g.externalId query.target
  return "query " ++ toString source.toNat ++ " -> " ++ toString target.toNat

/-- The refusal of `run_benchmark`. -/
def benchmarkContractError (violatingArcs : UInt64) : Failure :=
  .heuristicContract ("route::run_benchmark: the graph violates the metric contract on " ++
    toString violatingArcs.toNat ++
    " arc(s), so Euclidean A* cannot take part in a fair comparison")

/-- One algorithm found a route for the query and the reference algorithm did not, or the
other way round. -/
def existenceError (slot : Fin 3) (query : String) : Failure :=
  .benchmarkAgreement ("route::run_benchmark: " ++ algorithmName (kBenchmarkAlgorithms slot) ++
    " and " ++ algorithmName (kBenchmarkAlgorithms referenceSlot) ++
    " disagree about whether a route exists for " ++ query)

def costError (slot : Fin 3) (cost reference query : String) : Failure :=
  .benchmarkAgreement ("route::run_benchmark: " ++ algorithmName (kBenchmarkAlgorithms slot) ++
    " reports cost " ++ cost ++ " but " ++ algorithmName (kBenchmarkAlgorithms referenceSlot) ++
    " reports " ++ reference ++ " for " ++ query)

def countersError (slot : Fin 3) (repetition : Nat) : Failure :=
  .benchmarkAgreement ("route::run_benchmark: " ++ algorithmName (kBenchmarkAlgorithms slot) ++
    " produced different counters in repetition " ++ toString repetition ++
    " than in the first repetition; the search is not deterministic")

/-- The body of the warm-up loops: the query `i` by the algorithm of a slot, against the
answer of the reference algorithm. -/
def checkAgreement [CostArith F] [One F] [Sub F] [Mul F] [LT F] [DecidableLT F] [LE F]
    [DecidableLE F] (env : Environment F σ) (g : Graph F) (queries : List QueryPair)
    (reference : List (SearchResult F)) (slot : Fin 3) (i : Nat) : Method σ Unit := do
  let query ← Method.lift (subscript queries i)
  let result ← env.runSearch query.source query.target (kBenchmarkAlgorithms slot)
  let expected ← Method.lift (subscript reference i)
  if result.found != expected.found then
    let text ← Method.lift (describe g query)
    throw (existenceError slot text)
  if result.found && !costsAgree result.cost expected.cost then
    let text ← Method.lift (describe g query)
    throw (costError slot (env.showCost result.cost) (env.showCost expected.cost) text)

/-- One timed pass over the query set: its counters, and the ticks it took. -/
def measurePass (env : Environment F σ) (queries : List QueryPair) (slot : Fin 3) :
    Method σ (AlgorithmSummary F × Int) := do
  let started ← env.now
  let pass ← queries.foldlM (fun pass query => do
    let result ← env.runSearch query.source query.target (kBenchmarkAlgorithms slot)
    return accumulate pass result.stats) (AlgorithmSummary.zero (kBenchmarkAlgorithms slot))
  let finished ← env.now
  return (pass, finished - started)

/-- The summary of an algorithm after a measured pass: the first repetition enters the counters
of the pass, and each later one has to match them. -/
def enterPass (slot : Fin 3) (repetition : Nat) (summary pass : AlgorithmSummary F) :
    Outcome (AlgorithmSummary F) :=
  if repetition = 0 then .ok { pass with repetitionSeconds := summary.repetitionSeconds }
  else if !countersMatch summary pass then .error (countersError slot repetition)
  else .ok summary

/-- The body of the measured loops: the pass of the algorithm whose turn it is. -/
def recordPass (env : Environment F σ) (queries : List QueryPair) (repetition : Nat)
    (report : BenchmarkReport F) (step : Nat) : Method σ (BenchmarkReport F) := do
  let slot := slotAt repetition step
  let (pass, ticks) ← measurePass env queries slot
  let summary ← Method.lift (enterPass slot repetition (report.algorithms slot) pass)
  return report.setSummary slot (summary.pushSeconds (env.seconds ticks))

/-- `run_benchmark`. -/
def runBenchmark [CostArith F] [One F] [Sub F] [Mul F] [LT F] [DecidableLT F] [LE F]
    [DecidableLE F] (env : Environment F σ) (g : Graph F) (queries : List QueryPair)
    (repetitions : Nat) : Method σ (BenchmarkReport F) := do
  if !g.metric.passes then throw (benchmarkContractError g.metric.violatingArcs)
  if queries.isEmpty then
    throw (.graphValidation "route::run_benchmark: the query set is empty")
  if repetitions = 0 then
    throw (.graphValidation "route::run_benchmark: repetitions must be at least 1")
  -- the warm-up pass, which no number of the report comes from but the routes found
  let reference ← queries.mapM fun query =>
    env.runSearch query.source query.target (kBenchmarkAlgorithms referenceSlot)
  let routesFound := reference.countP SearchResult.found
  comparedSlots.forM fun slot =>
    (List.range queries.length).forM (checkAgreement env g queries reference slot)
  let report : BenchmarkReport F :=
    { queries := queries.length
      repetitions
      routesFound
      algorithms := fun slot => .zero (kBenchmarkAlgorithms slot) }
  (List.range repetitions).foldlM (fun report repetition =>
    (List.range 3).foldlM (recordPass env queries repetition) report) report

end RouteEngine
