import Mathlib.Data.UInt
import RouteEngine.BenchmarkGate
import RouteEngine.Optimality

set_option autoImplicit false

/-! # The report of the benchmark of a graph

Over exact arithmetic the three searches find the same least costs, and a search gives the same
answer each time it is made, so that no check of `run_benchmark` fails (`runBenchmark_report`).
The report then says of each algorithm what its searches count, whatever the number of
repetitions. -/

namespace RouteEngine

variable {F : Type}

/-! ## Totals -/

/-- The totals of the counters of several searches: sums, and for the size of the queue the
largest. -/
structure SearchStats.TotalOf (total : SearchStats) (stats : List SearchStats) : Prop where
  pqPushes : total.pqPushes = (stats.map SearchStats.pqPushes).sum
  pqPops : total.pqPops = (stats.map SearchStats.pqPops).sum
  stalePops : total.stalePops = (stats.map SearchStats.stalePops).sum
  nodesExpanded : total.nodesExpanded = (stats.map SearchStats.nodesExpanded).sum
  arcsExamined : total.arcsExamined = (stats.map SearchStats.arcsExamined).sum
  relaxations : total.relaxations = (stats.map SearchStats.relaxations).sum
  maxQueueSize : total.maxQueueSize = (stats.map SearchStats.maxQueueSize).foldl max 0

theorem SearchStats.TotalOf.unique {a b : SearchStats} {stats : List SearchStats}
    (ha : a.TotalOf stats) (hb : b.TotalOf stats) : a = b := by
  cases a
  cases b
  rw [SearchStats.mk.injEq]
  exact ⟨ha.pqPushes.trans hb.pqPushes.symm, ha.pqPops.trans hb.pqPops.symm,
    ha.stalePops.trans hb.stalePops.symm, ha.nodesExpanded.trans hb.nodesExpanded.symm,
    ha.arcsExamined.trans hb.arcsExamined.symm, ha.relaxations.trans hb.relaxations.symm,
    ha.maxQueueSize.trans hb.maxQueueSize.symm⟩

/-- A counter that each search adds to. -/
theorem foldl_add_counter (counter : AlgorithmSummary F → UInt64) (count : SearchStats → UInt64)
    (hstep : ∀ summary stats, counter (accumulate summary stats) = counter summary + count stats)
    (stats : List SearchStats) (summary : AlgorithmSummary F) :
    counter (stats.foldl accumulate summary) = counter summary + (stats.map count).sum := by
  induction stats generalizing summary with
  | nil => exact (UInt64.add_zero _).symm
  | cons a stats ih =>
      rw [List.foldl_cons, ih, hstep, List.map_cons, List.sum_cons, UInt64.add_assoc]

theorem foldl_max_queue (stats : List SearchStats) (summary : AlgorithmSummary F) :
    (stats.foldl accumulate summary).maxQueueSize
      = (stats.map SearchStats.maxQueueSize).foldl max summary.maxQueueSize := by
  induction stats generalizing summary with
  | nil => rfl
  | cons a stats ih => rw [List.foldl_cons, ih]; rfl

/-- The counters of a pass are the totals of its searches. -/
theorem totalOf_foldl_accumulate (algorithm : Algorithm) (stats : List SearchStats) :
    (stats.foldl accumulate (.zero algorithm : AlgorithmSummary F)).counters.TotalOf stats := by
  have hadd : ∀ (counter : AlgorithmSummary F → UInt64) (count : SearchStats → UInt64),
      (∀ summary stats, counter (accumulate summary stats) = counter summary + count stats) →
      counter (.zero algorithm) = 0 →
      counter (stats.foldl accumulate (.zero algorithm)) = (stats.map count).sum := by
    intro counter count hstep hzero
    rw [foldl_add_counter counter count hstep, hzero, UInt64.zero_add]
  constructor
  · exact hadd (·.pqPushes) (·.pqPushes) (fun _ _ => rfl) rfl
  · exact hadd (·.pqPops) (·.pqPops) (fun _ _ => rfl) rfl
  · exact hadd (·.stalePops) (·.stalePops) (fun _ _ => rfl) rfl
  · exact hadd (·.nodesExpanded) (·.nodesExpanded) (fun _ _ => rfl) rfl
  · exact hadd (·.arcsExamined) (·.arcsExamined) (fun _ _ => rfl) rfl
  · exact hadd (·.relaxations) (·.relaxations) (fun _ _ => rfl) rfl
  · exact foldl_max_queue stats _

/-! ## The searches of a graph -/

/-- The environment of the benchmark of a graph. The state counts the readings of the clock. -/
def searchEnvironment [Zero F] [Top F] [Add F] [LT F] [DecidableLT F] [BEq F]
    (distance : Coord F → Coord F → F) (g : Graph F) (clock : Nat → Int) (seconds : Int → F)
    (showCost : F → String) : Environment F Nat where
  runSearch source target algorithm := Method.lift (runSearch distance g source target algorithm)
  now := fun readings => .ok (clock readings) (readings + 1)
  seconds := seconds
  showCost := showCost

/-- The searches of a graph as an oracle: the answers do not depend on earlier calls. -/
def searchOracle [Zero F] [Top F] [Add F] [LT F] [DecidableLT F] [BEq F]
    (distance : Coord F → Coord F → F) (g : Graph F) : Oracle F :=
  fun _ source target algorithm =>
    match runSearch distance g source target algorithm with
    | .ok result => result
    | .error _ => ⟨.unreachable, ⊤, [], .zero⟩

/-- A pass of searches gives each query its own answer, whenever it is made. -/
theorem pass_searchOracle [Zero F] [Top F] [Add F] [LT F] [DecidableLT F] [BEq F]
    (distance : Coord F → Coord F → F) (g : Graph F) (queries : List QueryPair) (slot : Fin 3)
    (calls : Nat) :
    (searchOracle distance g).pass queries slot calls
      = queries.map fun query => (searchOracle distance g).answer 0 query slot :=
  calc (searchOracle distance g).pass queries slot calls
      = (queries.zipIdx calls).map
          ((fun query => (searchOracle distance g).answer 0 query slot) ∘ Prod.fst) := rfl
    _ = ((queries.zipIdx calls).map Prod.fst).map
          (fun query => (searchOracle distance g).answer 0 query slot) := List.map_map.symm
    _ = queries.map (fun query => (searchOracle distance g).answer 0 query slot) := by
        rw [List.zipIdx_map_fst]

section Exact

variable {K : Type} [Field K] [LinearOrder K] [IsStrictOrderedRing K] {d : PlaneDistance K}
variable {g : Graph (WithTop K)} {staged : List (StagedArc (WithTop K))}
variable {queries : List QueryPair}

theorem le_maxElement {L : Type} [LinearOrder L] (rest : List L) (first : L) :
    first ≤ maxElement first rest := by
  induction rest generalizing first with
  | nil => exact le_rfl
  | cons x rest ih =>
      show first ≤ maxElement (if first < x then x else first) rest
      refine le_trans ?_ (ih _)
      split_ifs with h
      · exact h.le
      · exact le_rfl

/-- The cost of a route agrees with itself. -/
theorem costsAgree_self {c : WithTop K} (hc : c ≠ ⊤) : costsAgree c c = true := by
  have hinf : CostArith.isInf c = false := decide_eq_false hc
  have hzero : CostArith.abs (c - c) = 0 := by
    lift c to K using hc
    show ((|c - c| : K) : WithTop K) = 0
    rw [sub_self, abs_zero]
    rfl
  have htolerance : (0 : K) < 1 / 10 ^ 9 := by positivity
  have hbound : ∀ scale : WithTop K, 0 ≤ scale → 0 ≤ CostArith.tolerance * scale := by
    intro scale hscale
    show 0 ≤ ((1 / 10 ^ 9 : K) : WithTop K) * scale
    cases scale with
    | top =>
        rw [WithTop.mul_top (by exact_mod_cast htolerance.ne')]
        exact le_top
    | coe s =>
        rw [← WithTop.coe_mul]
        exact_mod_cast mul_nonneg htolerance.le (by exact_mod_cast hscale)
  unfold costsAgree
  rw [hinf, hzero]
  exact decide_eq_true (hbound _ (zero_le_one.trans (le_maxElement _ _)))

/-- Every algorithm returns a least cost for a query within the graph. -/
theorem runSearch_least (hg : g.OverArcs d.lift staged) (hpass : g.metric.passes = true)
    {query : QueryPair} (hquery : query.Within g) (algorithm : Algorithm) :
    ∃ result, runSearch d.lift g query.source query.target algorithm = .ok result ∧
      IsLeast (insert ⊤ {c | Digraph.WalkCost g.HasArc query.source query.target c})
        result.cost ∧
      (result.status = .found ↔ result.cost ≠ ⊤) := by
  apply runSearch_rule (p := fun outcome => ∃ result, outcome = .ok result ∧
    IsLeast (insert ⊤ {c | Digraph.WalkCost g.HasArc query.source query.target c}) result.cost ∧
    (result.status = .found ↔ result.cost ≠ ⊤))
  · obtain ⟨result, hresult, hleast, hfound, -⟩ :=
      dijkstra_least hg hquery.1 hquery.2 WithTop.zero_ne_top
    exact ⟨result, hresult, hleast, hfound⟩
  · intro _
    obtain ⟨result, hresult, hleast, hfound, -⟩ :=
      astarEuclidean_least hg hpass hquery.1 hquery.2
    exact ⟨result, hresult, hleast, hfound⟩

/-- The answer of the oracle is that of the search. -/
theorem searchOracle_least (hg : g.OverArcs d.lift staged) (hpass : g.metric.passes = true)
    {query : QueryPair} (hquery : query.Within g) (calls : Nat) (slot : Fin 3) :
    runSearch d.lift g query.source query.target (kBenchmarkAlgorithms slot)
        = .ok ((searchOracle d.lift g).answer calls query slot) ∧
      IsLeast (insert ⊤ {c | Digraph.WalkCost g.HasArc query.source query.target c})
        ((searchOracle d.lift g).answer calls query slot).cost ∧
      (((searchOracle d.lift g).answer calls query slot).found = true ↔
        ((searchOracle d.lift g).answer calls query slot).cost ≠ ⊤) := by
  obtain ⟨result, hresult, hleast, hfound⟩ :=
    runSearch_least hg hpass hquery (kBenchmarkAlgorithms slot)
  have hanswer : (searchOracle d.lift g).answer calls query slot = result := by
    unfold Oracle.answer searchOracle
    rw [hresult]
  rw [hanswer]
  exact ⟨hresult, hleast, by rw [SearchResult.found, decide_eq_true_iff, hfound]⟩

/-- The searches of a graph script its benchmark. -/
def searchScripted (hg : g.OverArcs d.lift staged) (hpass : g.metric.passes = true)
    (hqueries : ∀ query ∈ queries, query.Within g) (clock : Nat → Int)
    (seconds : Int → WithTop K) (showCost : WithTop K → String) :
    Scripted (searchEnvironment d.lift g clock seconds showCost) queries where
  oracle := searchOracle d.lift g
  clock := clock
  state _ readings := readings
  call_runSearch query hquery slot calls readings := by
    show (Method.lift _).call readings = _
    rw [Method.call_lift, (searchOracle_least hg hpass (hqueries query hquery) calls slot).1]
    rfl
  call_now _ _ := rfl

/-- The counters of one answer to each query. -/
def queryStats (d : PlaneDistance K) (g : Graph (WithTop K)) (queries : List QueryPair)
    (slot : Fin 3) : List SearchStats :=
  queries.map fun query => ((searchOracle d.lift g).answer 0 query slot).stats

omit [IsStrictOrderedRing K] in
theorem totalOf_measuredCounters (d : PlaneDistance K) (g : Graph (WithTop K))
    (queries : List QueryPair) (repetition : Nat) (slot : Fin 3) :
    ((searchOracle d.lift g).measuredCounters queries repetition slot).TotalOf
      (queryStats d g queries slot) := by
  have htotal := totalOf_foldl_accumulate (F := WithTop K) (kBenchmarkAlgorithms slot)
    (queryStats d g queries slot)
  rw [queryStats, List.foldl_map] at htotal
  unfold Oracle.measuredCounters Oracle.measured AlgorithmSummary.total
  rw [pass_searchOracle, List.foldl_map]
  exact htotal

omit [IsStrictOrderedRing K] in
/-- The same searches are counted the same. -/
theorem countersRepeat_searchOracle (d : PlaneDistance K) (g : Graph (WithTop K))
    (queries : List QueryPair) (repetitions : Nat) :
    (searchOracle d.lift g).CountersRepeat queries repetitions := by
  intro slot r _
  exact (totalOf_measuredCounters d g queries r slot).unique
    (totalOf_measuredCounters d g queries 0 slot)

/-- Least costs agree. -/
theorem warmupAgrees_searchOracle (hg : g.OverArcs d.lift staged) (hpass : g.metric.passes = true)
    (hqueries : ∀ query ∈ queries, query.Within g) :
    (searchOracle d.lift g).WarmupAgrees queries := by
  intro slot _ i query hquery
  have hwithin := hqueries query (List.mem_of_getElem? hquery)
  obtain ⟨-, hleast, hfound⟩ :=
    searchOracle_least hg hpass hwithin (slot * queries.length + i) slot
  obtain ⟨-, hleast', hfound'⟩ := searchOracle_least hg hpass hwithin i referenceSlot
  have hcost := hleast.unique hleast'
  constructor
  · rw [Bool.eq_iff_iff, hfound, hfound', hcost]
  · intro h
    rw [← hcost]
    exact costsAgree_self (hfound.mp h)

open Classical in
/-- The routes found are the queries whose target can be reached. -/
theorem countP_found (hg : g.OverArcs d.lift staged) (hpass : g.metric.passes = true)
    (hqueries : ∀ query ∈ queries, query.Within g) :
    ((searchOracle d.lift g).pass queries referenceSlot 0).countP SearchResult.found
      = queries.countP
          (fun query => decide (Digraph.Reachable g.HasArc query.source query.target)) := by
  rw [pass_searchOracle, List.countP_map]
  refine List.countP_congr (fun query hquery => ?_)
  obtain ⟨-, hleast, hfound⟩ := searchOracle_least hg hpass (hqueries query hquery) 0 referenceSlot
  rw [Function.comp_apply, hfound, (ne_top_iff_reachable hg hleast).1, decide_eq_true_iff]

/-- The counters that the searches of a slot return. -/
theorem mapM_stats (hg : g.OverArcs d.lift staged) (hpass : g.metric.passes = true)
    (slot : Fin 3) (l : List QueryPair) (hl : ∀ query ∈ l, query.Within g) :
    l.mapM (fun query => (runSearch d.lift g query.source query.target
        (kBenchmarkAlgorithms slot)).map SearchResult.stats)
      = .ok (queryStats d g l slot) := by
  induction l with
  | nil => rfl
  | cons query l ih =>
      obtain ⟨hrun, -⟩ := searchOracle_least hg hpass (hl query (by simp)) 0 slot
      rw [List.mapM_cons, hrun, ih (fun q hq => hl q (by simp [hq]))]
      rfl

end Exact

open Classical in
/-- **The benchmark of a graph that keeps the metric contract.** Over exact arithmetic no check
fails; the report counts the reachable targets, and each algorithm's counters are the totals of
its searches, one pass whatever the number of repetitions. A repetition measures each algorithm
once: its pass is number `passNumber`, between two readings of the clock. -/
theorem runBenchmark_report {K : Type} [Field K] [LinearOrder K] [IsStrictOrderedRing K]
    (d : PlaneDistance K)
    (std : Comparison.Sorter (GraphBuilder.stagedBefore (F := WithTop K)))
    (g : Graph (WithTop K)) (hg : g.Built d.lift std) (hpass : g.metric.passes = true)
    (queries : List QueryPair) (hne : queries ≠ [])
    (hqueries : ∀ query ∈ queries, query.Within g) :
    ∃ stats : Fin 3 → List SearchStats,
      (∀ slot, queries.mapM (fun query => (runSearch d.lift g query.source query.target
        (kBenchmarkAlgorithms slot)).map SearchResult.stats) = .ok (stats slot)) ∧
      ∀ repetitions, 1 ≤ repetitions → ∀ clock seconds showCost, ∃ report readings,
        (runBenchmark (searchEnvironment d.lift g clock seconds showCost) g queries
          repetitions).call 0 = .ok (report, readings) ∧
        report.queries = queries.length ∧ report.repetitions = repetitions ∧
        report.routesFound = queries.countP
          (fun query => decide (Digraph.Reachable g.HasArc query.source query.target)) ∧
        (∀ slot, (report.algorithms slot).algorithm = kBenchmarkAlgorithms slot ∧
          (report.algorithms slot).counters.TotalOf (stats slot) ∧
          (report.algorithms slot).repetitionSeconds.length = repetitions ∧
          (report.algorithms slot).repetitionSeconds = (List.range repetitions).map fun r =>
            seconds (clock (2 * passNumber r slot + 1) - clock (2 * passNumber r slot))) ∧
        (report.algorithms 0).counters = (report.algorithms 1).counters := by
  obtain ⟨staged, hover⟩ := hg.exists_overArcs
  refine ⟨queryStats d g queries, fun slot => mapM_stats hover hpass slot queries hqueries,
    fun repetitions hrep clock seconds showCost => ?_⟩
  let env := searchEnvironment d.lift g clock seconds showCost
  let script : Scripted env queries :=
    searchScripted hover hpass hqueries clock seconds showCost
  -- the answers agree because all searches find least costs, and they do not depend on the call
  have hnone : script.oracle.runFailure env g queries repetitions = none :=
    (runFailure_eq_none_iff _ env g queries repetitions).mpr
      ⟨warmupAgrees_searchOracle hover hpass hqueries, countersRepeat_searchOracle d g queries _⟩
  have hrun := script.call_runBenchmark g hpass hne hrep
  rw [hnone, Script.passOr_none] at hrun
  have htotal : ∀ slot, ((script.report repetitions).algorithms slot).counters.TotalOf
      (queryStats d g queries slot) := by
    intro slot
    show (script.summaryAfter slot repetitions).counters.TotalOf _
    rw [script.counters_summaryAfter slot hrep]
    exact totalOf_measuredCounters d g queries 0 slot
  refine ⟨script.report repetitions, _, hrun, rfl, rfl, countP_found hover hpass hqueries,
    fun slot => ⟨script.algorithm_summaryAfter slot repetitions, htotal slot, ?_, rfl⟩, ?_⟩
  · exact (List.length_map _).trans List.length_range
  · exact (htotal 0).unique (htotal 1)

/-- The benchmark of the road, with a query in each direction. -/
theorem runBenchmark_report_road :
    ∃ report readings, (runBenchmark (searchEnvironment taxicab.lift road (fun n => n)
        (fun _ => 0) (fun _ => "")) road [⟨0, 2⟩, ⟨2, 0⟩] 4).call 0 = .ok (report, readings) ∧
      (∀ slot, (report.algorithms slot).repetitionSeconds.length = 4) ∧
      (report.algorithms 0).counters = (report.algorithms 1).counters := by
  obtain ⟨stats, -, hreport⟩ := runBenchmark_report taxicab _ road road_built rfl
    [⟨0, 2⟩, ⟨2, 0⟩] (by simp) (by decide)
  obtain ⟨report, readings, hrun, -, -, -, hslots, hsame⟩ :=
    hreport 4 (by omega) (fun n => n) (fun _ => 0) (fun _ => "")
  exact ⟨report, readings, hrun, fun slot => (hslots slot).2.2.1, hsame⟩

end RouteEngine
