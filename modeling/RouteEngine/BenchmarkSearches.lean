import RouteEngine.Commands
import RouteEngine.SearchDoubles

set_option autoImplicit false

/-! # The benchmark of a loaded graph

All that the commands need of the arithmetic is that searches end (`SearchesEnd`): on doubles
they do (`searchesEnd_doubles`), and over exact numbers (`searchesEnd_exact`). The benchmark of a
graph then either returns a report or names a query on which the two heuristics disagree
(`SearchesEnd.benchmark_cases`). -/

namespace RouteEngine

variable {F : Type}

/-! ## Searches that end -/

section

variable [IsFinite F] [Zero F] [One F] [Top F] [Add F] [Sub F] [Mul F] [Div F] [LT F]
  [DecidableLT F] [LE F] [DecidableLE F] [BEq F] [CostArith F]

/-- Every search that does not refuse a built graph returns; a route leads over nodes of the
graph, at a cost that agrees with itself. -/
def SearchesEnd (distance : Coord F → Coord F → F) : Prop :=
  ∀ (g : Graph F) staged, g.OverArcs distance staged → ∀ source target,
    g.contains source = true → g.contains target = true → ∀ algorithm,
      (algorithm = .astarEuclidean → g.metric.passes = true) →
        ∃ result, runSearch distance g source target algorithm = .ok result ∧
          (result.status = .found → (∀ v ∈ result.path, g.contains v = true) ∧
            costsAgree result.cost result.cost = true)

end

/-- The largest of some elements is one of them. -/
theorem maxElement_mem [LT F] [DecidableLT F] (first : F) (rest : List F) :
    maxElement first rest ∈ first :: rest := by
  induction rest generalizing first with
  | nil => exact List.mem_cons_self
  | cons x rest ih =>
      show maxElement (if first < x then x else first) rest ∈ first :: x :: rest
      have hmem := ih (if first < x then x else first)
      split_ifs at hmem ⊢
      · exact List.mem_cons_of_mem _ hmem
      · simp only [List.mem_cons] at hmem ⊢
        tauto

section Doubles

open NonnegBinary64 Binary64

theorem exists_toBinary64 {x : Binary64} (hx : x.isFinite = true) (hsign : x.negative = false) :
    ∃ s : NonnegBinary64, s ≠ ⊤ ∧ x = s.toBinary64 :=
  ⟨ofBinary64 x, ofBinary64_ne_top hx,
    (toBinary64_ofBinary64 (not_isNaN_of_isFinite hx) hsign).symm⟩

theorem isFinite_abs {x : Binary64} (hx : x.isFinite = true) : x.abs.isFinite = true := by
  unfold Binary64.isFinite Binary64.abs at *
  rwa [magnitude_ofMagnitude _ (magnitude_lt x)]

/-- A finite cost agrees with itself. -/
theorem costsAgree_self_doubles {c : Binary64} (hc : c.isFinite = true) :
    costsAgree c c = true := by
  have hinf : CostArith.isInf c = false := not_isInf_of_isFinite hc
  have hzero : CostArith.abs (c - c) = (0 : NonnegBinary64).toBinary64 := by
    rw [sub_of_isFinite hc hc, if_pos (sub_self _)]
    show Binary64.abs _ = _
    unfold Binary64.abs
    rw [magnitude_ofMagnitude _ (by decide)]
    rfl
  -- the scale is finite, so that the product is a number
  have hscale : ∃ s : NonnegBinary64, s ≠ ⊤ ∧
      maxElement 1 [CostArith.abs c, CostArith.abs c] = s.toBinary64 := by
    have hmem := maxElement_mem 1 [CostArith.abs c, CostArith.abs c]
    simp only [List.mem_cons, List.not_mem_nil, or_false, or_self] at hmem
    rcases hmem with h | h
    · rw [h]
      exact exists_toBinary64 (by decide) (by decide)
    · rw [h]
      exact exists_toBinary64 (isFinite_abs hc) (negative_ofMagnitude _ (magnitude_lt c))
  obtain ⟨s, hs, hmax⟩ := hscale
  obtain ⟨t, ht, htolerance⟩ :=
    exists_toBinary64 (x := CostArith.tolerance) (by decide) (by decide)
  unfold costsAgree
  rw [hinf, if_neg (by simp)]
  dsimp only
  rw [hmax, hzero, htolerance, toBinary64_mul ht hs]
  exact decide_eq_true (toBinary64_le.mpr (NonnegBinary64.zero_le _))

/-- Searches on doubles end. -/
theorem searchesEnd_doubles {distance : Coord Binary64 → Coord Binary64 → Binary64}
    (hdistance : UnsignedDistance distance) : SearchesEnd distance := by
  intro g staged hg source target hs ht algorithm hpass
  obtain ⟨result, hresult, hsound⟩ := runSearch_sound hg hdistance hs ht algorithm hpass
  exact ⟨result, hresult, fun hfound =>
    ⟨hsound.nodes hfound, costsAgree_self_doubles (hsound.finite hfound)⟩⟩

end Doubles

/-- Searches over exact numbers end. -/
theorem searchesEnd_exact {K : Type} [Field K] [LinearOrder K] [IsStrictOrderedRing K]
    (d : PlaneDistance K) : SearchesEnd d.lift := by
  intro g staged hg source target hs ht algorithm hpass
  obtain ⟨result, hresult, hanswers⟩ := runSearch_answers hg hs ht algorithm hpass
  refine ⟨result, hresult, fun hfound => ⟨fun v hv => ?_, ?_⟩⟩
  · obtain ⟨before, hpath, hwalk⟩ := hanswers.walk hfound
    rw [hpath, List.mem_reverse] at hv
    exact hg.contains_of_walk hs hwalk v hv
  · exact costsAgree_self (walkCost_ne_top hg (hanswers.isLeast hfound).1)

/-! ## The run of the benchmark -/

/-- The query set of `benchmark` can be drawn. -/
theorem exists_makeQueryPairs {g : Graph F} (h2 : 2 ≤ g.nodeCount)
    (hn : g.nodeCount ≤ maxSupportedNodeCount) (seed : UInt64) {count : Nat} (hcount : 1 ≤ count)
    (hfits : count ≤ vectorMaxSize) :
    ∃ queries, makeQueryPairs g seed count = .ok queries ∧ queries.length = count ∧
      ∀ query ∈ queries, query.Valid g := by
  obtain ⟨queries, k, hloop, hlen, hdrawn⟩ :=
    drawQueries_spec (two_le_toNat_nodeCount h2 hn) count ⟨seed⟩
  refine ⟨queries, makeQueryPairs_eq h2 hcount hfits hloop, hlen, fun query hmem => ?_⟩
  obtain ⟨source, offset, hdrawable, rfl⟩ := hdrawn.exists_drawable hmem
  exact queryOf_valid hn hdrawable

section Run

variable [IsFinite F] [Zero F] [One F] [Top F] [Add F] [Sub F] [Mul F] [Div F] [LT F]
  [DecidableLT F] [LE F] [DecidableLE F] [BEq F] [CostArith F]
variable {distance : Coord F → Coord F → F} {g : Graph F} {staged : List (StagedArc F)}
  {queries : List QueryPair}

/-- The oracle tells the answers of the searches of a graph that keeps the contract. -/
theorem SearchesEnd.runSearch_eq (hends : SearchesEnd distance) (hg : g.OverArcs distance staged)
    (hpass : g.metric.passes = true) {query : QueryPair} (hquery : query.Within g) (calls : Nat)
    (slot : Fin 3) :
    runSearch distance g query.source query.target (kBenchmarkAlgorithms slot)
        = .ok ((searchOracle distance g).answer calls query slot) ∧
      (((searchOracle distance g).answer calls query slot).found = true →
        costsAgree ((searchOracle distance g).answer calls query slot).cost
          ((searchOracle distance g).answer calls query slot).cost = true) := by
  obtain ⟨result, hresult, hroute⟩ := hends g staged hg query.source query.target hquery.1
    hquery.2 (kBenchmarkAlgorithms slot) (fun _ => hpass)
  have hanswer : (searchOracle distance g).answer calls query slot = result := by
    unfold Oracle.answer searchOracle
    rw [hresult]
  rw [hanswer]
  exact ⟨hresult, fun hfound => (hroute (of_decide_eq_true hfound)).2⟩

/-- Searches that end script the benchmark. -/
def SearchesEnd.scripted (hends : SearchesEnd distance) (hg : g.OverArcs distance staged)
    (hpass : g.metric.passes = true) (hqueries : ∀ query ∈ queries, query.Within g)
    (clock : Nat → Int) (seconds : Int → F) (showCost : F → String) :
    Scripted (searchEnvironment distance g clock seconds showCost) queries where
  oracle := searchOracle distance g
  clock := clock
  state _ readings := readings
  call_runSearch query hquery slot calls readings := by
    show (Method.lift _).call readings = _
    rw [Method.call_lift, (hends.runSearch_eq hg hpass (hqueries query hquery) calls slot).1]
    rfl
  call_now _ _ := rfl

/-- Dijkstra and A* with the straight-line heuristic answer a query alike. -/
def HeuristicsAgree (distance : Coord F → Coord F → F) (g : Graph F) (query : QueryPair) : Prop :=
  SearchesAgree ((searchOracle distance g).answer 0 query (Fin.last 2))
    ((searchOracle distance g).answer 0 query referenceSlot)

/-- **The warm-up compares the two heuristics**: A* without one is Dijkstra, and the searches do
not depend on when they are made. -/
theorem SearchesEnd.warmupAgrees_iff (hends : SearchesEnd distance)
    (hg : g.OverArcs distance staged) (hpass : g.metric.passes = true)
    (hqueries : ∀ query ∈ queries, query.Within g) :
    (searchOracle distance g).WarmupAgrees queries ↔
      ∀ query ∈ queries, HeuristicsAgree distance g query := by
  constructor
  · intro h query hquery
    obtain ⟨i, hi⟩ := List.mem_iff_getElem?.mp hquery
    exact h 2 (by decide) i query hi
  · intro h slot hslot i query hquery
    have hmem := List.mem_of_getElem? hquery
    rcases eq_one_or_two hslot with rfl | rfl
    · obtain ⟨-, hself⟩ := hends.runSearch_eq hg hpass (hqueries query hmem) 0 0
      exact ⟨rfl, hself⟩
    · exact h query hmem

omit [IsFinite F] [One F] [Sub F] [Mul F] [Div F] [LE F] [DecidableLE F] [CostArith F] in
/-- Every measured pass counts the same. -/
theorem measuredCounters_searches (distance : Coord F → Coord F → F) (g : Graph F)
    (queries : List QueryPair) (repetition : Nat) (slot : Fin 3) :
    ((searchOracle distance g).measuredCounters queries repetition slot).TotalOf
      (queries.map fun query => ((searchOracle distance g).answer 0 query slot).stats) := by
  have htotal := totalOf_foldl_accumulate (F := F) (kBenchmarkAlgorithms slot)
    (queries.map fun query => ((searchOracle distance g).answer 0 query slot).stats)
  rw [List.foldl_map] at htotal
  unfold Oracle.measuredCounters Oracle.measured AlgorithmSummary.total
  rw [pass_searchOracle, List.foldl_map]
  exact htotal

/-- What the report of a benchmark says: the queries for which Dijkstra finds a route are
counted, and each algorithm has the totals of its own searches and a time for each repetition. -/
structure BenchmarkReport.Tells (distance : Coord F → Coord F → F) (g : Graph F)
    (queries : List QueryPair) (repetitions : Nat) (report : BenchmarkReport F) : Prop where
  queries_eq : report.queries = queries.length
  repetitions_eq : report.repetitions = repetitions
  routesFound : report.routesFound = queries.countP fun query =>
    ((searchOracle distance g).answer 0 query referenceSlot).found
  algorithm : ∀ slot, (report.algorithms slot).algorithm = kBenchmarkAlgorithms slot
  counters : ∀ slot, (report.algorithms slot).counters.TotalOf
    (queries.map fun query => ((searchOracle distance g).answer 0 query slot).stats)
  times : ∀ slot, (report.algorithms slot).repetitionSeconds.length = repetitions

/-- **A benchmark run over searches that end**: a report, or the error about a query on which the
two heuristics disagree. -/
theorem SearchesEnd.benchmark_cases (hends : SearchesEnd distance)
    (hg : g.OverArcs distance staged) (hpass : g.metric.passes = true) (hne : queries ≠ [])
    (hqueries : ∀ query ∈ queries, query.Within g) {repetitions : Nat} (hrep : 1 ≤ repetitions)
    (clock : Nat → Int) (seconds : Int → F) (showCost : F → String) :
    ((∀ query ∈ queries, HeuristicsAgree distance g query) ∧
      ∃ report readings, (runBenchmark (searchEnvironment distance g clock seconds showCost) g
          queries repetitions).call 0 = .ok (report, readings) ∧
        report.Tells distance g queries repetitions) ∨
    (¬ ∀ query ∈ queries, HeuristicsAgree distance g query) ∧
      ∃ message, (runBenchmark (searchEnvironment distance g clock seconds showCost) g
        queries repetitions).call 0 = .error (.benchmarkAgreement message) := by
  let env := searchEnvironment distance g clock seconds showCost
  let script : Scripted env queries := hends.scripted hg hpass hqueries clock seconds showCost
  have hrun := script.call_runBenchmark g hpass hne hrep
  have hrepeat : (searchOracle distance g).CountersRepeat queries repetitions :=
    fun slot r _ => (measuredCounters_searches distance g queries r slot).unique
      (measuredCounters_searches distance g queries 0 slot)
  by_cases hagree : ∀ query ∈ queries, HeuristicsAgree distance g query
  · have hnone : script.oracle.runFailure env g queries repetitions = none :=
      (runFailure_eq_none_iff _ env g queries repetitions).mpr
        ⟨(hends.warmupAgrees_iff hg hpass hqueries).mpr hagree, hrepeat⟩
    rw [hnone, Script.passOr_none] at hrun
    refine .inl ⟨hagree, script.report repetitions, _, hrun, rfl, rfl, ?_, fun slot =>
      script.algorithm_summaryAfter slot repetitions, fun slot => ?_, fun slot => ?_⟩
    · show ((searchOracle distance g).pass queries 0 0).countP SearchResult.found = _
      rw [pass_searchOracle, List.countP_map]
      rfl
    · show (script.summaryAfter slot repetitions).counters.TotalOf _
      rw [script.counters_summaryAfter slot hrep]
      exact measuredCounters_searches distance g queries 0 slot
    · exact (List.length_map _).trans List.length_range
  · -- the first disagreement is about a query of the graph, so that it can be told
    have hnot : ¬ (searchOracle distance g).WarmupAgrees queries :=
      mt (hends.warmupAgrees_iff hg hpass hqueries).mp hagree
    obtain ⟨slot, i, hfirst⟩ := exists_firstDisagreement hnot
    obtain ⟨query, e, hquery, hdis, he⟩ := hfirst.runFailure_eq env g repetitions
    obtain ⟨message, rfl⟩ :=
      disagreement_within hg (hqueries query (List.mem_of_getElem? hquery)) hdis
    refine .inr ⟨hagree, message, hrun.trans ?_⟩
    show Script.passOr ((searchOracle distance g).runFailure env g queries repetitions) _ = _
    rw [he]
    rfl

end Run

end RouteEngine
