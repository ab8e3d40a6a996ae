import RouteEngine.BenchmarkCommand

set_option autoImplicit false

/-! # What the outcome of a benchmark depends on

`print_benchmark` says that elapsed time is an observation and that the counts reproduce exactly.
Two runs of `benchmark` on the same files that read the clock differently end with the same exit
code, after the same messages; and what they print differs in the three medians at most
(`main_benchmark_clock`). Where the arithmetic is exact, the gate that compares the algorithms
never closes (`main_benchmark_exact`), so that exit code 5 is for rounding alone. -/

namespace RouteEngine

variable {F Φ : Type}

/-- The stopwatch with another clock. -/
def Stopwatch.withClock [LT F] [DecidableLT F] (watch : Stopwatch F) (clock : Nat → Int) :
    Stopwatch F :=
  { watch with clock := clock }

section

variable [IsFinite F] [Zero F] [One F] [Top F] [UnitArith F] [Add F] [Sub F] [Mul F] [Div F]
  [LT F] [DecidableLT F] [LE F] [DecidableLE F] [BEq F] [CostArith F]

/-! ## The run -/

section Run

variable {distance : Coord F → Coord F → F} {g : Graph F} {staged : List (StagedArc F)}
  {queries : List QueryPair}

omit [UnitArith F] in
/-- A run fails for every clock, in the same way, or for none. -/
theorem SearchesEnd.runBenchmark_clock (hends : SearchesEnd distance)
    (hg : g.OverArcs distance staged) (hpass : g.metric.passes = true) (hne : queries ≠ [])
    (hqueries : ∀ query ∈ queries, query.Within g) {repetitions : Nat} (hrep : 1 ≤ repetitions)
    (seconds : Int → F) (showCost : F → String) :
    (∃ message, ∀ clock, (runBenchmark (searchEnvironment distance g clock seconds showCost) g
        queries repetitions).call 0 = .error (.benchmarkAgreement message)) ∨
    ∀ clock, ∃ report readings, (runBenchmark (searchEnvironment distance g clock seconds showCost)
        g queries repetitions).call 0 = .ok (report, readings) ∧
      report.Tells distance g queries repetitions := by
  have hrun := fun clock => (hends.scripted hg hpass hqueries clock seconds showCost
    ).call_runBenchmark g hpass hne hrep
  have hcases := fun clock =>
    hends.benchmark_cases hg hpass hne hqueries hrep clock seconds showCost
  -- the failure of a run is that of its searches
  have hsame : ∀ clock, (searchOracle distance g).runFailure
      (searchEnvironment distance g clock seconds showCost) g queries repetitions
        = (searchOracle distance g).runFailure
          (searchEnvironment distance g (fun _ => 0) seconds showCost) g queries repetitions :=
    fun _ => rfl
  rcases hcases fun _ => 0 with ⟨hagree, -⟩ | ⟨hdisagree, message, herror⟩
  · refine .inr fun clock => ?_
    rcases hcases clock with ⟨-, hreport⟩ | ⟨hdisagree, -⟩
    · exact hreport
    · exact absurd hagree hdisagree
  · refine .inl ⟨message, fun clock => ?_⟩
    have hfailure := Script.passOr_eq_error.mp ((hrun fun _ => 0).symm.trans herror)
    exact (hrun clock).trans (Script.passOr_eq_error.mpr ((hsame clock).trans hfailure))

end Run

/-! ## What is printed -/

omit [IsFinite F] [One F] [Sub F] [Mul F] [LE F] [DecidableLE F] [CostArith F] in
/-- Two reports on the same searches have the same tables, up to the medians. -/
theorem BenchmarkReport.Tells.tablesText_eq {distance : Coord F → Coord F → F} {g : Graph F}
    {queries : List QueryPair} {repetitions : Nat} {report report' : BenchmarkReport F}
    (h : report.Tells distance g queries repetitions)
    (h' : report'.Tells distance g queries repetitions) (watch : Stopwatch F)
    (median : Fin 3 → F) : tablesText watch report median = tablesText watch report' median := by
  have hcounters : ∀ slot, (report.algorithms slot).counters = (report'.algorithms slot).counters :=
    fun slot => (h.counters slot).unique (h'.counters slot)
  have hnames : ∀ slot, (report.algorithms slot).algorithm = (report'.algorithms slot).algorithm :=
    fun slot => (h.algorithm slot).trans (h'.algorithm slot).symm
  have hexpanded : ∀ slot, (report.algorithms slot).nodesExpanded
      = (report'.algorithms slot).nodesExpanded :=
    fun slot => congrArg SearchStats.nodesExpanded (hcounters slot)
  have hrow : ∀ slot text, totalsRow text (report.algorithms slot)
      = totalsRow text (report'.algorithms slot) := by
    intro slot text
    have hfields := hcounters slot
    simp only [AlgorithmSummary.counters, SearchStats.mk.injEq] at hfields
    obtain ⟨hpushes, hpops, hstale, hnodes, harcs, -, hqueue⟩ := hfields
    unfold totalsRow
    rw [hnames, hnodes, harcs, hpushes, hpops, hstale, hqueue]
  have hratio : ∀ slot baseline, expansionRatio baseline (report.algorithms slot)
      = expansionRatio baseline (report'.algorithms slot) := by
    intro slot baseline
    unfold expansionRatio
    rw [hexpanded]
  unfold tablesText
  simp only [hrow, hratio, hnames, hexpanded, h.queries_eq, h'.queries_eq]

omit [IsFinite F] [One F] [UnitArith F] [Sub F] [Mul F] [Div F] [LE F] [DecidableLE F]
  [CostArith F] in
theorem BenchmarkReport.Tells.benchmarkText_eq {distance : Coord F → Coord F → F} {g : Graph F}
    {queries : List QueryPair} {repetitions : Nat} {report report' : BenchmarkReport F}
    (h : report.Tells distance g queries repetitions)
    (h' : report'.Tells distance g queries repetitions) (seed : UInt64) :
    benchmarkText seed report = benchmarkText seed report' := by
  unfold benchmarkText
  rw [h.queries_eq, h'.queries_eq, h.repetitions_eq, h'.repetitions_eq, h.routesFound,
    h'.routesFound]

/-! ## The command -/

variable [FiniteOrder F] {env : Platform Φ F} {options : Options} {params : BenchmarkParams}

/-- What the output of a benchmark tells of its searches, with given medians. -/
def reportText (watch : Stopwatch F) (options : Options) (params : BenchmarkParams) (g : Graph F)
    (report : BenchmarkReport F) (median : Fin 3 → F) : String :=
  graphText options g ++ benchmarkText params.seed report ++ tablesText watch report median

omit [FiniteOrder F] in
/-- Without a measurement the clock is not read. -/
theorem answerBenchmark_unmeasured {g : Graph F} {w : World Φ}
    (hload : loadGraphFiles env w.files (options.text .nodes) (options.text .edges) = .ok g)
    (h : g.nodeCount < 2 ∨ g.metric.passes = false) (watch watch' : Stopwatch F) :
    answerBenchmark env watch' options params w = answerBenchmark env watch options params w := by
  unfold answerBenchmark
  simp only [Method.bind_apply, Method.get_apply, hload, Method.lift_ok]
  by_cases hfew : g.nodeCount < 2
  · rw [if_pos hfew, if_pos hfew]
  · have hfails := h.resolve_left hfew
    rw [if_neg hfew, if_neg hfew, if_pos (by simp [hfails]), if_pos (by simp [hfails])]

/-- With its arguments taken the command ends in the same way for every clock, or it prints the
same text around the medians. -/
theorem answerBenchmark_clock (hends : SearchesEnd env.distance) (watch : Stopwatch F)
    (hcount : params.queryCount ≠ 0) (hrep : params.repetitions ≠ 0) (w : World Φ) :
    (∃ result, ∀ clock, answerBenchmark env (watch.withClock clock) options params w = result) ∨
    ∃ g report, loadGraphFiles env w.files (options.text .nodes) (options.text .edges) = .ok g ∧
      ∀ clock, ∃ median, answerBenchmark env (watch.withClock clock) options params w
        = .ok kExitSuccess
          { w with out := w.out ++ reportText watch options params g report median } := by
  rcases loadGraphFiles_cases env w.files (options.text .nodes) (options.text .edges) with
    ⟨g, staged, hload, hover, -⟩ | ⟨file, line, message, herror⟩
  swap
  · refine .inl ⟨.error (.graphLoad file line message) w, fun clock => ?_⟩
    simp [answerBenchmark, herror]
  by_cases hstops : g.nodeCount < 2 ∨ g.metric.passes = false
  · exact .inl ⟨answerBenchmark env watch options params w, fun clock =>
      answerBenchmark_unmeasured hload hstops watch _⟩
  simp only [not_or, Nat.not_lt, Bool.not_eq_false] at hstops
  obtain ⟨h2, hpass⟩ := hstops
  -- the room for the queries does not depend on the clock
  have hroom : ∀ clock, params.reserveFailure (watch.withClock clock)
      = params.reserveFailure watch := fun _ => rfl
  cases hreserve : params.reserveFailure watch with
  | some message =>
      exact .inl ⟨.error (.standard message) w, fun clock => answerBenchmark_of_error hload h2 hpass
        (measure_of_reserveFailure h2 hover.nodes_le (one_le_toNat hcount)
          ((hroom clock).trans hreserve))⟩
  | none =>
  obtain ⟨queries, hqueries, hlen, hvalid⟩ :=
    exists_makeQueryPairs h2 hover.nodes_le params.seed (one_le_toNat hcount)
      (BenchmarkParams.reserveFailure_eq_none_iff.mp hreserve).1
  have hne : queries ≠ [] := by
    rintro rfl
    exact absurd (one_le_toNat hcount) (by simp [← hlen])
  have hmeasure : ∀ clock, measure env (watch.withClock clock) g params
      = (runBenchmark (searchEnvironment env.distance g clock watch.seconds watch.showCost) g
          queries params.repetitions.toNat).call 0 >>= fun result => .ok result.1 :=
    fun clock => measure_of_reserves ((hroom clock).trans hreserve) hqueries
  rcases hends.runBenchmark_clock hover hpass hne
    (fun query hquery => ⟨(hvalid query hquery).source, (hvalid query hquery).target⟩)
    (one_le_toNat hrep) watch.seconds watch.showCost with ⟨message, herror⟩ | hreport
  · refine .inl ⟨.error (.benchmarkAgreement message) w, fun clock => ?_⟩
    refine answerBenchmark_of_error hload h2 hpass ?_
    rw [hmeasure, herror, error_bind]
  · obtain ⟨report, -, -, htells⟩ := hreport watch.clock
    refine .inr ⟨g, report, hload, fun clock => ?_⟩
    obtain ⟨report', readings, hrun, htells'⟩ := hreport clock
    obtain ⟨median, hmedian⟩ := htells'.exists_median (watch.withClock clock) (one_le_toNat hrep)
    have hanswer : answerBenchmark env (watch.withClock clock) options params w = _ :=
      answerBenchmark_of_report hload h2 hpass
        ((hmeasure clock).trans (by rw [hrun, ok_bind])) hmedian
    rw [htells'.benchmarkText_eq htells, htells'.tablesText_eq htells] at hanswer
    exact ⟨median, hanswer⟩

variable {others : OtherCommands Φ} {arguments : List String}

omit [One F] [UnitArith F] [Sub F] [Mul F] [CostArith F] [FiniteOrder F] in
/-- `main` adds to `run` what does not depend on the commands. -/
theorem main_eq_of_run_eq {others' : OtherCommands Φ} {w : World Φ}
    (h : run env others arguments w = run env others' arguments w) :
    main env others arguments w = main env others' arguments w := by
  unfold main
  rw [h]

omit [FiniteOrder F] in
/-- However the command ends, `main` turns it into an exit code. -/
theorem BenchmarkEnd.exists_main {watch : Stopwatch F} {w : World Φ}
    {result : EStateM.Result Failure (World Φ) Nat}
    (h : BenchmarkEnd env watch options params w result)
    (hrun : run env others arguments w = result) :
    ∃ code out err, main env others arguments w = .ok (code, ⟨out, err, w.files⟩) := by
  cases h with
  | notLoaded _ => exact ⟨_, _, _, main_of_run_error hrun rfl⟩
  | tooFew _ _ => exact ⟨_, _, _, main_of_run_ok hrun⟩
  | refused _ _ _ => exact ⟨_, _, _, main_of_run_ok hrun⟩
  | noRoom _ _ _ _ => exact ⟨_, _, _, main_of_run_error hrun rfl⟩
  | disagrees _ _ _ _ _ _ => exact ⟨_, _, _, main_of_run_error hrun rfl⟩
  | reported _ _ _ _ _ _ _ _ => exact ⟨_, _, _, main_of_run_ok hrun⟩

end

/-- **The clock only shows in the medians**, on doubles and for all arguments and files: either
the program ends with the same exit code, output and messages whatever the clock reads, or it ends
with code 0 for every clock and prints the same text around the medians of the three algorithms. -/
theorem main_benchmark_clock {Φ : Type} (env : Platform Φ Binary64)
    (hdistance : UnsignedDistance env.distance) (watch : Stopwatch Binary64)
    (others : OtherCommands Φ) (arguments : List String) (w : World Φ) :
    (∃ code out err, ∀ clock, main env
        { others with commandBenchmark := commandBenchmark env (watch.withClock clock) }
        ("benchmark" :: arguments) w = .ok (code, ⟨out, err, w.files⟩)) ∨
    ∃ options params g report, Options.GivesBenchmark arguments options params ∧
      loadGraphFiles env w.files (options.text .nodes) (options.text .edges) = .ok g ∧
      ∀ clock, ∃ median : Fin 3 → Binary64, main env
        { others with commandBenchmark := commandBenchmark env (watch.withClock clock) }
        ("benchmark" :: arguments) w = .ok (kExitSuccess,
          { w with out := w.out ++ reportText watch options params g report median }) := by
  by_cases hgives : ∃ (options : Options) (params : BenchmarkParams),
      options.GivesBenchmark arguments params
  swap
  · simp only [not_exists] at hgives
    obtain ⟨message, hrun⟩ := run_benchmark_of_not_gives (Φ := Φ) (F := Binary64) hgives
    exact .inl ⟨_, _, _, fun clock => main_of_usageError
      (congrFun (hrun env (watch.withClock clock) _ rfl) w)⟩
  obtain ⟨options, params, hgives⟩ := hgives
  have hrun : ∀ clock, run env
      { others with commandBenchmark := commandBenchmark env (watch.withClock clock) }
      ("benchmark" :: arguments) w
        = answerBenchmark env (watch.withClock clock) options params w :=
    fun clock => congrFun (run_benchmark_of_gives rfl hgives) w
  have hends := searchesEnd_doubles hdistance
  rcases answerBenchmark_clock hends watch hgives.params.queryCount_ne
    hgives.params.repetitions_ne w with ⟨result, hresult⟩ | ⟨g, report, hload, hreport⟩
  · have hend := answerBenchmark_ends hends (watch.withClock fun _ => 0) options
      hgives.params.queryCount_ne hgives.params.repetitions_ne w
    obtain ⟨code, out, err, hmain⟩ := hend.exists_main (hrun fun _ => 0)
    refine .inl ⟨code, out, err, fun clock => ?_⟩
    have hsame := (hrun clock).trans ((hresult clock).trans (hresult fun _ => 0).symm)
    exact (main_eq_of_run_eq (hsame.trans (hrun fun _ => 0).symm)).trans hmain
  · refine .inr ⟨options, params, g, report, hgives, hload, fun clock => ?_⟩
    obtain ⟨median, hanswer⟩ := hreport clock
    exact ⟨median, main_of_run_ok ((hrun clock).trans hanswer)⟩

/-- One exit code for the benchmark of the street, whatever the clock reads. -/
theorem main_benchmark_clock_street :
    ∃ code, ∀ clock, ∃ out err, main streetPlatform ⟨fun _ => return 0, fun _ => return 0,
        commandBenchmark streetPlatform (evenStopwatch.withClock clock)⟩
        ("benchmark" :: streetArguments) ⟨"", "", streetFiles⟩
      = .ok (code, ⟨out, err, streetFiles⟩) := by
  rcases main_benchmark_clock streetPlatform lineDistance_unsigned evenStopwatch
      ⟨fun _ => return 0, fun _ => return 0, fun _ => return 0⟩ streetArguments
      ⟨"", "", streetFiles⟩ with
    ⟨code, out, err, hmain⟩ | ⟨options, params, g, report, -, -, hmain⟩
  · exact ⟨code, fun clock => ⟨out, err, hmain clock⟩⟩
  · refine ⟨kExitSuccess, fun clock => ?_⟩
    obtain ⟨median, hmain⟩ := hmain clock
    exact ⟨_, _, hmain⟩

/-! ## Exact arithmetic -/

section Exact

variable {K : Type} [Field K] [LinearOrder K] [IsStrictOrderedRing K] {d : PlaneDistance K}
  {env : Platform Φ (WithTop K)}

/-- Exact searches agree on every query. -/
theorem heuristicsAgree_exact {g : Graph (WithTop K)} {staged : List (StagedArc (WithTop K))}
    (hg : g.OverArcs d.lift staged) (hpass : g.metric.passes = true) {query : QueryPair}
    (hquery : query.Within g) : HeuristicsAgree d.lift g query := by
  have hqueries : ∀ other ∈ [query], other.Within g := by simpa using hquery
  exact ((searchesEnd_exact d).warmupAgrees_iff hg hpass hqueries).mp
    (warmupAgrees_searchOracle hg hpass hqueries) query List.mem_cons_self

open Classical in
/-- The routes that a report counts are those that there are. -/
theorem BenchmarkReport.Tells.routesFound_exact {g : Graph (WithTop K)}
    {staged : List (StagedArc (WithTop K))} {queries : List QueryPair} {repetitions : Nat}
    {report : BenchmarkReport (WithTop K)} (h : report.Tells d.lift g queries repetitions)
    (hg : g.OverArcs d.lift staged) (hpass : g.metric.passes = true)
    (hqueries : ∀ query ∈ queries, query.Within g) :
    report.routesFound = queries.countP
      fun query => decide (Digraph.Reachable g.HasArc query.source query.target) := by
  rw [h.routesFound, ← countP_found hg hpass hqueries, pass_searchOracle, List.countP_map]
  rfl

omit [IsStrictOrderedRing K] in
/-- The queries that were drawn for a loaded graph are about its nodes. -/
theorem within_of_drawn (hdistance : env.distance = d.lift) {files : Φ}
    {nodesPath edgesPath : String} {g : Graph (WithTop K)}
    (hload : loadGraphFiles env files nodesPath edgesPath = .ok g) (h2 : 2 ≤ g.nodeCount)
    {params : BenchmarkParams} (hcount : params.queryCount ≠ 0) {watch : Stopwatch (WithTop K)}
    (hreserve : params.reserveFailure watch = none) {queries : List QueryPair}
    (hqueries : makeQueryPairs g params.seed params.queryCount.toNat = .ok queries) :
    (∃ staged, g.OverArcs d.lift staged) ∧ ∀ query ∈ queries, query.Within g := by
  obtain ⟨staged, hover⟩ := exists_overArcs_of_load hload
  rw [hdistance] at hover
  obtain ⟨hfits, -⟩ := BenchmarkParams.reserveFailure_eq_none_iff.mp hreserve
  obtain ⟨queries', hqueries', -, hvalid⟩ :=
    exists_makeQueryPairs h2 hover.nodes_le params.seed (one_le_toNat hcount) hfits
  obtain rfl : queries' = queries := Except.ok.inj (hqueries'.symm.trans hqueries)
  exact ⟨⟨staged, hover⟩,
    fun query hquery => ⟨(hvalid query hquery).source, (hvalid query hquery).target⟩⟩

end Exact

open Classical in
/-- **The gate never closes over exact arithmetic**: for all arguments, files and readings of the
clock `benchmark` does not return code 5. On two nodes or more that keep the metric contract, and
with room for the queries and for the times of all repetitions, it returns 0, and the number of
routes it prints is the number of drawn queries whose target can be reached. -/
theorem main_benchmark_exact {Φ K : Type} [Field K] [LinearOrder K] [IsStrictOrderedRing K]
    (d : PlaneDistance K) (env : Platform Φ (WithTop K)) (hdistance : env.distance = d.lift)
    (watch : Stopwatch (WithTop K)) (others : OtherCommands Φ)
    (hothers : others.commandBenchmark = commandBenchmark env watch) (arguments : List String)
    (w : World Φ) :
    ∃ code out err, main env others ("benchmark" :: arguments) w
        = .ok (code, ⟨out, err, w.files⟩) ∧
      code ≠ kExitInternalDisagreement ∧
      ∀ (options : Options) params, options.GivesBenchmark arguments params →
        params.repetitions.toNat ≤ vectorMaxSize → params.reserveFailure watch = none → ∀ g,
        loadGraphFiles env w.files (options.text .nodes) (options.text .edges) = .ok g →
        2 ≤ g.nodeCount → g.metric.passes = true →
          code = kExitSuccess ∧ ∃ queries report median,
            makeQueryPairs g params.seed params.queryCount.toNat = .ok queries ∧
            out = w.out ++ reportText watch options params g report median ∧
            report.routesFound = queries.countP fun query =>
              decide (Digraph.Reachable g.HasArc query.source query.target) := by
  by_cases hgives : ∃ (options : Options) (params : BenchmarkParams),
      options.GivesBenchmark arguments params
  swap
  · simp only [not_exists] at hgives
    obtain ⟨message, hrun⟩ := run_benchmark_of_not_gives (Φ := Φ) (F := WithTop K) hgives
    exact ⟨_, _, _, main_of_usageError (congrFun (hrun env watch others hothers) w), by decide,
      fun options params h => absurd h (hgives options params)⟩
  obtain ⟨options, params, hgives⟩ := hgives
  have hrun := run_benchmark_of_gives hothers hgives
  have hends : SearchesEnd env.distance := hdistance ▸ searchesEnd_exact d
  have hend := answerBenchmark_ends hends watch options hgives.params.queryCount_ne
    hgives.params.repetitions_ne w
  rw [← hrun] at hend
  generalize hresult : run env others ("benchmark" :: arguments) w = result at hend
  cases hend with
  | notLoaded herror =>
      refine ⟨_, _, _, main_of_run_error hresult rfl, by decide,
        fun options' params' hgives' _ _ => ?_⟩
      obtain ⟨rfl, rfl⟩ := hgives.unique hgives'
      rw [herror]
      exact fun g h => by cases h
  | tooFew hload hfew =>
      refine ⟨_, _, _, main_of_run_ok hresult, by decide,
        fun options' params' hgives' _ _ => ?_⟩
      obtain ⟨rfl, rfl⟩ := hgives.unique hgives'
      rw [hload]
      exact fun g h h2 => absurd (Except.ok.inj h ▸ hfew) (Nat.not_lt.mpr h2)
  | refused hload h2 hfails =>
      refine ⟨_, _, _, main_of_run_ok hresult, by decide,
        fun options' params' hgives' _ _ => ?_⟩
      obtain ⟨rfl, rfl⟩ := hgives.unique hgives'
      rw [hload]
      intro g h _ hpass
      obtain rfl := Except.ok.inj h
      rw [hfails] at hpass
      cases hpass
  | noRoom hload h2 hpass hreserve =>
      refine ⟨_, _, _, main_of_run_error hresult rfl, by decide,
        fun options' params' hgives' _ hroom => ?_⟩
      obtain ⟨rfl, rfl⟩ := hgives.unique hgives'
      rw [hreserve] at hroom
      cases hroom
  | disagrees hload h2 hpass hreserve hqueries hdisagree =>
      -- exact searches do not disagree
      obtain ⟨⟨staged, hover⟩, hwithin⟩ :=
        within_of_drawn hdistance hload h2 hgives.params.queryCount_ne hreserve hqueries
      rw [hdistance] at hdisagree
      exact absurd (fun query hquery => heuristicsAgree_exact hover hpass (hwithin query hquery))
        hdisagree
  | reported hload h2 hpass hreserve hqueries hagree htells hmedian =>
      refine ⟨_, _, _, main_of_run_ok hresult, by decide,
        fun options' params' hgives' _ _ => ?_⟩
      obtain ⟨rfl, rfl⟩ := hgives.unique hgives'
      rw [hload]
      intro g h _ _
      obtain rfl := Except.ok.inj h
      obtain ⟨⟨staged, hover⟩, hwithin⟩ :=
        within_of_drawn hdistance hload h2 hgives.params.queryCount_ne hreserve hqueries
      rw [hdistance] at htells
      exact ⟨rfl, _, _, _, hqueries, rfl, htells.routesFound_exact hover hpass hwithin⟩

/-- A clock that stands still. -/
def stillStopwatch : Stopwatch (WithTop ℚ) where
  clock := fun _ => 0
  seconds := fun _ => 0
  showCost := fun _ => ""
  std := Comparison.insertionSort _
  quietNaN := ⊤
  fixedText := fun _ _ => ""
  reserveError := fun count => if count ≤ 2 ^ 40 then none else some "std::bad_alloc"

/-- The benchmark of the road succeeds. -/
theorem main_benchmark_exact_road :
    ∃ out err, main roadPlatform ⟨fun _ => return 0, fun _ => return 0,
        commandBenchmark roadPlatform stillStopwatch⟩ ("benchmark" :: streetArguments)
        ⟨"", "", roadFiles⟩
      = .ok (kExitSuccess, ⟨out, err, roadFiles⟩) := by
  obtain ⟨code, out, err, hmain, -, hgiven⟩ := main_benchmark_exact taxicab roadPlatform rfl
    stillStopwatch ⟨fun _ => return 0, fun _ => return 0,
      commandBenchmark roadPlatform stillStopwatch⟩ rfl streetArguments ⟨"", "", roadFiles⟩
  have hload : loadGraphFiles roadPlatform roadFiles "nodes.csv" "edges.csv" = .ok road := by
    decide +kernel
  obtain ⟨rfl, -⟩ := hgiven _ _ givesBenchmark_street (by decide) (by decide) road hload
    (by decide) rfl
  exact ⟨out, err, hmain⟩

end RouteEngine
