import RouteEngine.BenchmarkSearches
import RouteEngine.ValidateCommand

set_option autoImplicit false

/-! # The exit codes of the command benchmark

What `print_benchmark` prints (`printBenchmark_eq`), which arguments the command takes
(`benchmarkArguments_eq_ok_iff`), and how `main` ends for all arguments and files
(`main_benchmark_exit_codes`). -/

namespace RouteEngine

variable {Φ F : Type}

/-! ## What print_benchmark prints -/

/-- A loop that prints. -/
theorem forM_printOut {α : Type} (text : α → String) (l : List α) (w : World Φ) :
    (l.forM fun a => (printOut (text a) : Session Φ Unit)) w
      = .ok () { w with out := w.out ++ String.join (l.map text) } := by
  induction l generalizing w with
  | nil =>
      show EStateM.Result.ok () w = _
      simp
  | cons a l ih =>
      show (l.forM fun a => (printOut (text a) : Session Φ Unit))
        { w with out := w.out ++ text a } = _
      rw [ih]
      simp [String.append_assoc]

section Print

variable [UnitArith F] [Add F] [Mul F] [LT F] [DecidableLT F] (watch : Stopwatch F)

/-- The median of measured times is one of them or the middle of two. -/
theorem exists_medianSeconds {summary : AlgorithmSummary F} (h : summary.repetitionSeconds ≠ []) :
    ∃ median, summary.medianSeconds watch = .ok median := by
  have hlen := (watch.std.perm summary.repetitionSeconds).length_eq
  have hpos := List.length_pos_iff.mpr h
  unfold AlgorithmSummary.medianSeconds
  rw [if_neg (by simpa using h)]
  dsimp only
  have hat : ∀ i, i < (watch.std.sort summary.repetitionSeconds).length →
      ∃ x, subscript (watch.std.sort summary.repetitionSeconds) i = .ok x := by
    intro i hi
    exact ⟨_, subscript_eq_ok.mpr (List.getElem?_eq_getElem hi)⟩
  obtain ⟨above, habove⟩ := hat ((watch.std.sort summary.repetitionSeconds).length / 2) (by omega)
  obtain ⟨below, hbelow⟩ :=
    hat ((watch.std.sort summary.repetitionSeconds).length / 2 - 1) (by omega)
  split_ifs
  · exact ⟨above, habove⟩
  · rw [hbelow, habove]
    exact ⟨_, rfl⟩

variable [Zero F] [Div F]

/-- The text of `print_benchmark`, with the medians of the three algorithms. -/
def tablesText (report : BenchmarkReport F) (median : Fin 3 → F) : String :=
  totalsHead report.queries ++
  String.join ((List.finRange 3).map fun slot =>
    totalsRow (watch.fixedText 6 (median slot)) (report.algorithms slot)) ++
  "\nnode expansions relative to " ++
    algorithmName (report.algorithms referenceSlot).algorithm ++ ":\n" ++
  String.join ((List.finRange 3).map fun slot =>
    "  " ++ leftText 18 (algorithmName (report.algorithms slot).algorithm) ++
      watch.fixedText 3 (expansionRatio
        (UnitArith.ofNat (report.algorithms referenceSlot).nodesExpanded.toNat)
        (report.algorithms slot)) ++ "\n") ++
  benchmarkRemarks

/-- A report whose medians exist is printed. -/
theorem printBenchmark_eq {report : BenchmarkReport F} {median : Fin 3 → F}
    (hmedian : ∀ slot, (report.algorithms slot).medianSeconds watch = .ok (median slot))
    (w : World Φ) :
    printBenchmark watch report w
      = .ok () { w with out := w.out ++ tablesText watch report median } := by
  have htotals : (printTotals watch report : Fin 3 → Session Φ Unit) = fun slot =>
      printOut (totalsRow (watch.fixedText 6 (median slot)) (report.algorithms slot)) := by
    funext slot
    unfold printTotals
    rw [hmedian]
    rfl
  have hratios : (printRatio watch report : Fin 3 → Session Φ Unit) = fun slot =>
      printOut ("  " ++ leftText 18 (algorithmName (report.algorithms slot).algorithm) ++
        watch.fixedText 3 (expansionRatio
          (UnitArith.ofNat (report.algorithms referenceSlot).nodesExpanded.toNat)
          (report.algorithms slot)) ++ "\n") := rfl
  unfold printBenchmark tablesText
  rw [htotals, hratios]
  simp only [Method.bind_apply, forM_printOut]
  simp only [printOut, String.append_assoc]

end Print

/-! ## The arguments -/

/-- The options of `benchmark`. -/
def benchmarkFields : List OptionField := [.nodes, .edges, .queries, .seed, .repetitions]

/-- The numbers are written in the options, and two of them are positive. -/
structure BenchmarkParams.ReadFrom (params : BenchmarkParams) (options : Options) : Prop where
  queryCount : IsDecimal (options.text .queries).toList params.queryCount
  queryCount_ne : params.queryCount ≠ 0
  repetitions : IsDecimal (options.text .repetitions).toList params.repetitions
  repetitions_ne : params.repetitions ≠ 0
  seed : IsDecimal (options.text .seed).toList params.seed

theorem readPositive_eq_ok_iff {key text : String} {value : UInt64} :
    readPositive key text = .ok value ↔ IsDecimal text.toList value ∧ value ≠ 0 := by
  rw [← parseInteger_eq_some_iff]
  unfold readPositive readAs
  cases parseInteger text with
  | none => simp
  | some read =>
      by_cases hzero : read = 0
      · simp only [hzero, ne_eq, not_true_eq_false, decide_false, Option.filter_some,
          Bool.false_eq_true, if_false, reduceCtorEq, Option.some.injEq, false_iff, not_and,
          not_not]
        exact fun h => h.symm
      · simp only [hzero, ne_eq, not_false_eq_true, decide_true, Option.filter_some, if_true,
          Except.ok.injEq, Option.some.injEq]
        exact ⟨fun h => ⟨h, h ▸ hzero⟩, fun h => h.1⟩

theorem readSeed_eq_ok_iff {problem text : String} {value : UInt64} :
    readAs (parseInteger text) problem text = .ok value ↔ IsDecimal text.toList value := by
  rw [← parseInteger_eq_some_iff]
  unfold readAs
  cases parseInteger text <;> simp

theorem forall_benchmarkFields {p : OptionField → Prop} :
    (∀ field ∈ benchmarkFields, p field) ↔
      p .nodes ∧ p .edges ∧ p .queries ∧ p .seed ∧ p .repetitions := by
  simp [benchmarkFields]

/-- **What `benchmark` takes** once the options are parsed. -/
theorem benchmarkArguments_eq_ok_iff {options : Options} {params : BenchmarkParams} :
    benchmarkArguments options = .ok params ↔
      options.rejectUnaccepted "benchmark" (benchmarkFields.map OptionField.key) false = "" ∧
        (∀ field ∈ benchmarkFields, options.text field ≠ "") ∧ params.ReadFrom options := by
  have hkeys : benchmarkFields.map OptionField.key
      = ["--nodes", "--edges", "--queries", "--seed", "--repetitions"] := by decide
  rw [hkeys, forall_benchmarkFields]
  unfold benchmarkArguments
  by_cases haccepted : options.rejectUnaccepted "benchmark"
      ["--nodes", "--edges", "--queries", "--seed", "--repetitions"] false = ""
  swap
  · simp [haccepted, throw, throwThe, MonadExceptOf.throw, bind, Except.bind]
  by_cases hmissing : options.text .nodes = "" ∨ options.text .edges = "" ∨
      options.text .queries = "" ∨ options.text .seed = "" ∨ options.text .repetitions = ""
  · simp [haccepted, hmissing, or_assoc, throw, throwThe, MonadExceptOf.throw, bind, Except.bind]
    tauto
  -- every option was given, and the three numbers are read in turn
  simp only [not_or] at hmissing
  simp only [haccepted, hmissing, not_false_eq_true, ne_eq, true_and]
  have hread : params.ReadFrom options ↔
      readPositive "--queries" (options.text .queries) = .ok params.queryCount ∧
      readPositive "--repetitions" (options.text .repetitions) = .ok params.repetitions ∧
      readAs (parseInteger (options.text .seed)) "--seed must be a decimal unsigned 64-bit integer"
        (options.text .seed) = .ok params.seed := by
    rw [readPositive_eq_ok_iff, readPositive_eq_ok_iff, readSeed_eq_ok_iff]
    exact ⟨fun h => ⟨⟨h.1, h.2⟩, ⟨h.3, h.4⟩, h.5⟩, fun h => ⟨h.1.1, h.1.2, h.2.1.1, h.2.1.2, h.2.2⟩⟩
  rw [hread]
  obtain ⟨queryCount, repetitions, seed⟩ := params
  cases readPositive "--queries" (options.text .queries) <;>
    cases readPositive "--repetitions" (options.text .repetitions) <;>
      cases readAs (parseInteger (options.text .seed))
        "--seed must be a decimal unsigned 64-bit integer" (options.text .seed) <;>
        simp [hmissing, bind, Except.bind, pure, Except.pure]

/-- The arguments are exactly the five options, with numbers of the right form. -/
structure Options.GivesBenchmark (arguments : List String) (options : Options)
    (params : BenchmarkParams) : Prop where
  gives : GivesAll "benchmark" benchmarkFields arguments options
  params : params.ReadFrom options

/-! ## The exit codes -/

section Answer

variable [IsFinite F] [Zero F] [One F] [Top F] [UnitArith F] [Add F] [Sub F] [Mul F] [Div F]
  [LT F] [DecidableLT F] [LE F] [DecidableLE F] [BEq F] [CostArith F] [FiniteOrder F]
variable {env : Platform Φ F} {watch : Stopwatch F} {options : Options}
  {params : BenchmarkParams}

/-- The text of the exception with which `reserve` ends for the queries of a benchmark, if there
is no room for so many. -/
def BenchmarkParams.reserveFailure (params : BenchmarkParams) (watch : Stopwatch F) :
    Option String :=
  if vectorMaxSize < params.queryCount.toNat then some "vector::reserve"
  else watch.reserveError params.queryCount.toNat

/-- How `command_benchmark` ends once its arguments are taken. -/
inductive BenchmarkEnd (env : Platform Φ F) (watch : Stopwatch F) (options : Options)
    (params : BenchmarkParams) (w : World Φ) : EStateM.Result Failure (World Φ) Nat → Prop where
  | notLoaded {file : String} {line : Nat} {message : String} :
      loadGraphFiles env w.files (options.text .nodes) (options.text .edges)
        = .error (.graphLoad file line message) →
      BenchmarkEnd env watch options params w (.error (.graphLoad file line message) w)
  | tooFew {g : Graph F} {message : String} :
      loadGraphFiles env w.files (options.text .nodes) (options.text .edges) = .ok g →
      g.nodeCount < 2 →
      BenchmarkEnd env watch options params w
        (.ok kExitData { w with err := w.err ++ ("route-engine: " ++ message) })
  | refused {g : Graph F} {message : String} :
      loadGraphFiles env w.files (options.text .nodes) (options.text .edges) = .ok g →
      2 ≤ g.nodeCount → g.metric.passes = false →
      BenchmarkEnd env watch options params w
        (.ok kExitHeuristicContract { w with err := w.err ++ ("route-engine: " ++ message) })
  | noRoom {g : Graph F} {message : String} :
      loadGraphFiles env w.files (options.text .nodes) (options.text .edges) = .ok g →
      2 ≤ g.nodeCount → g.metric.passes = true → params.reserveFailure watch = some message →
      BenchmarkEnd env watch options params w (.error (.standard message) w)
  | disagrees {g : Graph F} {queries : List QueryPair} {message : String} :
      loadGraphFiles env w.files (options.text .nodes) (options.text .edges) = .ok g →
      2 ≤ g.nodeCount → g.metric.passes = true → params.reserveFailure watch = none →
      makeQueryPairs g params.seed params.queryCount.toNat = .ok queries →
      (¬ ∀ query ∈ queries, HeuristicsAgree env.distance g query) →
      BenchmarkEnd env watch options params w (.error (.benchmarkAgreement message) w)
  | reported {g : Graph F} {queries : List QueryPair} {report : BenchmarkReport F}
      {median : Fin 3 → F} :
      loadGraphFiles env w.files (options.text .nodes) (options.text .edges) = .ok g →
      2 ≤ g.nodeCount → g.metric.passes = true → params.reserveFailure watch = none →
      makeQueryPairs g params.seed params.queryCount.toNat = .ok queries →
      (∀ query ∈ queries, HeuristicsAgree env.distance g query) →
      report.Tells env.distance g queries params.repetitions.toNat →
      (∀ slot, (report.algorithms slot).medianSeconds watch = .ok (median slot)) →
      BenchmarkEnd env watch options params w (.ok kExitSuccess { w with
        out := w.out ++ (graphText options g ++ benchmarkText params.seed report ++
          tablesText watch report median) })

section Reserve

variable {g : Graph F}

omit [IsFinite F] [Zero F] [One F] [Top F] [UnitArith F] [Add F] [Sub F] [Mul F] [Div F] [LE F]
  [DecidableLE F] [BEq F] [CostArith F] [FiniteOrder F] in
theorem BenchmarkParams.reserveFailure_eq_none_iff :
    params.reserveFailure watch = none ↔
      params.queryCount.toNat ≤ vectorMaxSize ∧
        watch.reserveError params.queryCount.toNat = none := by
  unfold reserveFailure
  split_ifs with hmany
  · simp [hmany]
  · simp [Nat.not_lt.mp hmany]

omit [IsFinite F] [UnitArith F] [Div F] [FiniteOrder F] in
/-- Nothing is measured where there is no room for the queries. -/
theorem measure_of_reserveFailure (h2 : 2 ≤ g.nodeCount)
    (hn : g.nodeCount ≤ maxSupportedNodeCount) (hcount : 1 ≤ params.queryCount.toNat)
    {message : String} (h : params.reserveFailure watch = some message) :
    measure env watch g params = .error (.standard message) := by
  unfold BenchmarkParams.reserveFailure at h
  unfold measure
  split_ifs at h with hmany
  · rw [makeQueryPairs_of_tooMany h2 _ hmany, ← Option.some.inj h]
    rfl
  · obtain ⟨queries, hqueries, -⟩ :=
      exists_makeQueryPairs h2 hn params.seed hcount (Nat.not_lt.mp hmany)
    rw [hqueries, ok_bind, h]
    rfl

omit [IsFinite F] [UnitArith F] [Div F] [FiniteOrder F] in
/-- Otherwise the queries are drawn and run. -/
theorem measure_of_reserves (h : params.reserveFailure watch = none) {queries : List QueryPair}
    (hqueries : makeQueryPairs g params.seed params.queryCount.toNat = .ok queries) :
    measure env watch g params
      = (runBenchmark (searchEnvironment env.distance g watch.clock watch.seconds watch.showCost) g
          queries params.repetitions.toNat).call 0 >>= fun result => .ok result.1 := by
  unfold measure
  rw [hqueries, ok_bind, (BenchmarkParams.reserveFailure_eq_none_iff.mp h).2]
  rfl

end Reserve

theorem one_le_toNat {n : UInt64} (hn : n ≠ 0) : 1 ≤ n.toNat := by
  rw [Nat.one_le_iff_ne_zero]
  exact fun hzero => hn (UInt64.toNat_inj.mp hzero)

omit [IsFinite F] [One F] [Sub F] [Div F] [LE F] [DecidableLE F] [CostArith F] [FiniteOrder F] in
/-- A run with at least one repetition has medians. -/
theorem BenchmarkReport.Tells.exists_median {distance : Coord F → Coord F → F} {g : Graph F}
    {queries : List QueryPair} {repetitions : Nat} {report : BenchmarkReport F}
    (h : report.Tells distance g queries repetitions) (watch : Stopwatch F)
    (hrep : 1 ≤ repetitions) :
    ∃ median : Fin 3 → F, ∀ slot,
      (report.algorithms slot).medianSeconds watch = .ok (median slot) := by
  have hmedian : ∀ slot, ∃ median, (report.algorithms slot).medianSeconds watch = .ok median := by
    intro slot
    refine exists_medianSeconds watch fun hnil => ?_
    have htimes := h.times slot
    rw [hnil] at htimes
    exact absurd hrep (by simp [← htimes])
  choose median hmedian using hmedian
  exact ⟨median, hmedian⟩

section Measured

variable {g : Graph F} {w : World Φ}
  (hload : loadGraphFiles env w.files (options.text .nodes) (options.text .edges) = .ok g)
  (h2 : 2 ≤ g.nodeCount) (hpass : g.metric.passes = true)

include hload h2 hpass

omit [FiniteOrder F] in
theorem answerBenchmark_of_error {e : Failure} (h : measure env watch g params = .error e) :
    answerBenchmark env watch options params w = .error e w := by
  unfold answerBenchmark
  simp only [Method.bind_apply, Method.get_apply, hload, Method.lift_ok]
  rw [if_neg (Nat.not_lt.mpr h2), if_neg (by simp [hpass])]
  simp [h]

omit [FiniteOrder F] in
theorem answerBenchmark_of_report {report : BenchmarkReport F} {median : Fin 3 → F}
    (h : measure env watch g params = .ok report)
    (hmedian : ∀ slot, (report.algorithms slot).medianSeconds watch = .ok (median slot)) :
    answerBenchmark env watch options params w = .ok kExitSuccess { w with
      out := w.out ++ (graphText options g ++ benchmarkText params.seed report ++
        tablesText watch report median) } := by
  unfold answerBenchmark
  simp only [Method.bind_apply, Method.get_apply, hload, Method.lift_ok]
  rw [if_neg (Nat.not_lt.mpr h2), if_neg (by simp [hpass])]
  simp [h, printOut, printBenchmark_eq watch hmedian, String.append_assoc]

end Measured

/-- **The command ends in one of six ways.** -/
theorem answerBenchmark_ends (hends : SearchesEnd env.distance) (watch : Stopwatch F)
    (options : Options) (hcount : params.queryCount ≠ 0) (hrep : params.repetitions ≠ 0)
    (w : World Φ) :
    BenchmarkEnd env watch options params w (answerBenchmark env watch options params w) := by
  rcases loadGraphFiles_cases env w.files (options.text .nodes) (options.text .edges) with
    ⟨g, staged, hload, hover, -⟩ | ⟨file, line, message, herror⟩
  swap
  · have hstop : BenchmarkEnd env watch options params w
        (.error (.graphLoad file line message) w) := .notLoaded herror
    simpa [answerBenchmark, herror] using hstop
  by_cases hfew : g.nodeCount < 2
  · have hstop : BenchmarkEnd env watch options params w (.ok kExitData { w with
        err := w.err ++ ("route-engine: " ++ ("a benchmark needs at least two nodes, " ++
          options.text .nodes ++ " defines " ++ toString g.nodeCount ++ "\n")) }) :=
      .tooFew hload hfew
    simp only [answerBenchmark, Method.bind_apply, Method.get_apply, hload, Method.lift_ok]
    simpa [hfew, dataError, printErr, String.append_assoc] using hstop
  have h2 : 2 ≤ g.nodeCount := Nat.not_lt.mp hfew
  cases hpass : g.metric.passes with
  | false =>
      have hstop : BenchmarkEnd env watch options params w (.ok kExitHeuristicContract { w with
          err := w.err ++ ("route-engine: " ++ ("this graph violates the metric contract on " ++
            toString g.metric.violatingArcs.toNat ++
            " arc(s), so Euclidean A* cannot take part in a fair comparison and no\n" ++
            "benchmark was run\n")) }) := .refused hload h2 hpass
      have hprefix : "route-engine: this graph violates the metric contract on "
          = "route-engine: " ++ "this graph violates the metric contract on " := rfl
      simp only [answerBenchmark, Method.bind_apply, Method.get_apply, hload, Method.lift_ok]
      rw [if_neg hfew, if_pos (by simp [hpass])]
      simp only [Method.bind_apply, printErr, hprefix, String.append_assoc] at hstop ⊢
      exact hstop
  | true =>
  cases hreserve : params.reserveFailure watch with
  | some message =>
      rw [answerBenchmark_of_error hload h2 hpass
        (measure_of_reserveFailure h2 hover.nodes_le (one_le_toNat hcount) hreserve)]
      exact .noRoom hload h2 hpass hreserve
  | none =>
      obtain ⟨queries, hqueries, hlen, hvalid⟩ :=
        exists_makeQueryPairs h2 hover.nodes_le params.seed (one_le_toNat hcount)
          (BenchmarkParams.reserveFailure_eq_none_iff.mp hreserve).1
      have hne : queries ≠ [] := by
        rintro rfl
        exact absurd (one_le_toNat hcount) (by simp [← hlen])
      rcases hends.benchmark_cases hover hpass hne
        (fun query hquery => ⟨(hvalid query hquery).source, (hvalid query hquery).target⟩)
        (one_le_toNat hrep) watch.clock watch.seconds watch.showCost with
        ⟨hagree, report, readings, hrun, htells⟩ | ⟨hdisagree, message, hrun⟩
      · have hmeasure : measure env watch g params = .ok report := by
          rw [measure_of_reserves hreserve hqueries, hrun, ok_bind]
        obtain ⟨median, hmedian⟩ := htells.exists_median watch (one_le_toNat hrep)
        rw [answerBenchmark_of_report hload h2 hpass hmeasure hmedian]
        exact .reported hload h2 hpass hreserve hqueries hagree htells hmedian
      · have hmeasure : measure env watch g params = .error (.benchmarkAgreement message) := by
          rw [measure_of_reserves hreserve hqueries, hrun, error_bind]
        rw [answerBenchmark_of_error hload h2 hpass hmeasure]
        exact .disagrees hload h2 hpass hreserve hqueries hdisagree

variable {others : OtherCommands Φ} {arguments : List String}

omit [One F] [UnitArith F] [Sub F] [Mul F] [CostArith F] [FiniteOrder F] in
theorem run_benchmark_of_ok (h : Options.none.parse arguments = .ok options) :
    run env others ("benchmark" :: arguments) = others.commandBenchmark options := by
  simp [run, h]

omit [One F] [UnitArith F] [Sub F] [Mul F] [CostArith F] [FiniteOrder F] in
theorem run_benchmark_of_error {message : String}
    (h : Options.none.parse arguments = .error message) :
    run env others ("benchmark" :: arguments) = usageError message := by
  simp [run, h]

omit [FiniteOrder F] in
/-- `benchmark` on arguments that it takes. -/
theorem run_benchmark_of_gives (hothers : others.commandBenchmark = commandBenchmark env watch)
    (h : options.GivesBenchmark arguments params) :
    run env others ("benchmark" :: arguments) = answerBenchmark env watch options params := by
  have hok : benchmarkArguments options = .ok params :=
    benchmarkArguments_eq_ok_iff.mpr ⟨h.gives.taken.2, h.gives.given, h.params⟩
  rw [run_benchmark_of_ok h.gives.taken.1, hothers, commandBenchmark, hok]

omit [FiniteOrder F] in
/-- `benchmark` on all other arguments: the message depends on nothing but them. -/
theorem run_benchmark_of_not_gives
    (h : ∀ (options : Options) params, ¬ options.GivesBenchmark arguments params) :
    ∃ message, ∀ (env : Platform Φ F) (watch : Stopwatch F) (others : OtherCommands Φ),
      others.commandBenchmark = commandBenchmark env watch →
        run env others ("benchmark" :: arguments) = usageError message := by
  cases hparse : Options.none.parse arguments with
  | error message => exact ⟨message, fun _ _ _ _ => run_benchmark_of_error hparse⟩
  | ok options =>
      cases hcheck : benchmarkArguments options with
      | error message =>
          refine ⟨message, fun env watch others hothers => ?_⟩
          rw [run_benchmark_of_ok hparse, hothers, commandBenchmark, hcheck]
      | ok params =>
          obtain ⟨haccepted, hgiven, hread⟩ := benchmarkArguments_eq_ok_iff.mp hcheck
          exact absurd ⟨⟨⟨hparse, haccepted⟩, hgiven⟩, hread⟩ (h options params)

omit [FiniteOrder F] in
theorem Options.GivesBenchmark.unique {options options' : Options}
    {params params' : BenchmarkParams} (h : options.GivesBenchmark arguments params)
    (h' : options'.GivesBenchmark arguments params') : options' = options ∧ params' = params := by
  obtain rfl : options' = options :=
    Except.ok.inj (h'.gives.taken.1.symm.trans h.gives.taken.1)
  have hok := benchmarkArguments_eq_ok_iff.mpr ⟨h.gives.taken.2, h.gives.given, h.params⟩
  have hok' := benchmarkArguments_eq_ok_iff.mpr ⟨h'.gives.taken.2, h'.gives.given, h'.params⟩
  exact ⟨rfl, Except.ok.inj (hok'.symm.trans hok)⟩

end Answer

/-- **The exit codes of `benchmark`** on doubles, for all arguments, files and readings of the
clock. Code 2 is for arguments that are not exactly the five options with numbers. With as many
repetitions as a vector has room for times, code 3 is for files that cannot be loaded, or hold
fewer than two nodes, or for more queries than there is room for; code 4 for a graph that violates
the metric contract; code 5 exactly when Dijkstra and A* with the straight-line heuristic disagree
on a query that was drawn; and otherwise the code is 0 and the printed report tells the totals of
the searches. No file is changed. -/
theorem main_benchmark_exit_codes {Φ : Type} (env : Platform Φ Binary64)
    (hdistance : UnsignedDistance env.distance) (watch : Stopwatch Binary64)
    (others : OtherCommands Φ) (hothers : others.commandBenchmark = commandBenchmark env watch)
    (arguments : List String) (w : World Φ) :
    ∃ code out err, main env others ("benchmark" :: arguments) w
        = .ok (code, ⟨out, err, w.files⟩) ∧
      (code = kExitUsage ↔
        ∀ (options : Options) params, ¬ options.GivesBenchmark arguments params) ∧
      ∀ (options : Options) params, options.GivesBenchmark arguments params →
        params.repetitions.toNat ≤ vectorMaxSize →
        (code = kExitData ↔ ∀ g,
          loadGraphFiles env w.files (options.text .nodes) (options.text .edges) = .ok g →
            g.nodeCount < 2 ∨ g.metric.passes = true ∧ params.reserveFailure watch ≠ none) ∧
        ∀ g, loadGraphFiles env w.files (options.text .nodes) (options.text .edges) = .ok g →
          2 ≤ g.nodeCount →
          (code = kExitHeuristicContract ↔ g.metric.passes = false) ∧
          (g.metric.passes = true → params.reserveFailure watch = none → ∃ queries,
            makeQueryPairs g params.seed params.queryCount.toNat = .ok queries ∧
            (code = kExitInternalDisagreement ↔
              ¬ ∀ query ∈ queries, HeuristicsAgree env.distance g query) ∧
            (code ≠ kExitInternalDisagreement → code = kExitSuccess ∧ err = w.err ∧
              ∃ report median, report.Tells env.distance g queries params.repetitions.toNat ∧
                (∀ slot, (report.algorithms slot).medianSeconds watch = .ok (median slot)) ∧
                out = w.out ++ (graphText options g ++ benchmarkText params.seed report ++
                  tablesText watch report median))) := by
  by_cases hgives : ∃ (options : Options) (params : BenchmarkParams),
      options.GivesBenchmark arguments params
  swap
  · simp only [not_exists] at hgives
    obtain ⟨message, hrun⟩ := run_benchmark_of_not_gives (Φ := Φ) (F := Binary64) hgives
    exact ⟨_, _, _, main_of_usageError (congrFun (hrun env watch others hothers) w),
      iff_of_true rfl hgives,
      fun options params h => absurd h (hgives options params)⟩
  obtain ⟨options, params, hgives⟩ := hgives
  have hrun := run_benchmark_of_gives hothers hgives
  have hend := answerBenchmark_ends (searchesEnd_doubles hdistance) watch options
    hgives.params.queryCount_ne hgives.params.repetitions_ne w
  rw [← hrun] at hend
  generalize hresult : run env others ("benchmark" :: arguments) w = result at hend
  -- only these options and numbers are given
  have hnot : ¬ ∀ (options : Options) params, ¬ options.GivesBenchmark arguments params :=
    fun h => h options params hgives
  have hsame : ∀ {P : Options → BenchmarkParams → Prop}, P options params →
      ∀ options' params', Options.GivesBenchmark arguments options' params' →
        P options' params' := by
    intro P hP options' params' hgives'
    obtain ⟨rfl, rfl⟩ := hgives.unique hgives'
    exact hP
  -- a measured graph is none of those for which code 3 is
  have hmeasured : ∀ {g : Graph Binary64}, 2 ≤ g.nodeCount →
      params.reserveFailure watch = none → ¬ ∀ g', Except.ok (ε := Failure) g = .ok g' →
        g'.nodeCount < 2 ∨ g'.metric.passes = true ∧ params.reserveFailure watch ≠ none := by
    intro g h2 hreserve h
    rcases h g rfl with hfew | ⟨-, hfails⟩
    · exact Nat.not_lt.mpr h2 hfew
    · exact hfails hreserve
  cases hend with
  | notLoaded herror =>
      refine ⟨_, _, _, main_of_run_error hresult rfl, iff_of_false (by decide) hnot,
        hsame fun _ => ?_⟩
      rw [herror]
      exact ⟨iff_of_true rfl (fun g h => by cases h), fun g h => by cases h⟩
  | tooFew hload hfew =>
      refine ⟨_, _, _, main_of_run_ok hresult, iff_of_false (by decide) hnot,
        hsame fun _ => ?_⟩
      rw [hload]
      refine ⟨iff_of_true rfl fun g h => .inl (Except.ok.inj h ▸ hfew), fun g h h2 => ?_⟩
      exact absurd (Except.ok.inj h ▸ hfew) (Nat.not_lt.mpr h2)
  | refused hload h2 hfails =>
      refine ⟨_, _, _, main_of_run_ok hresult, iff_of_false (by decide) hnot,
        hsame fun _ => ?_⟩
      rw [hload]
      refine ⟨iff_of_false (by decide) fun h => ?_, fun g h _ => ?_⟩
      · rcases h _ rfl with hfew | ⟨hpass, -⟩
        · exact Nat.not_lt.mpr h2 hfew
        · rw [hfails] at hpass
          cases hpass
      · obtain rfl := Except.ok.inj h
        exact ⟨iff_of_true rfl hfails, fun hpass => by rw [hfails] at hpass; cases hpass⟩
  | noRoom hload h2 hpass hreserve =>
      refine ⟨_, _, _, main_of_run_error hresult rfl, iff_of_false (by decide) hnot,
        hsame fun _ => ?_⟩
      have hfails : params.reserveFailure watch ≠ none := by simp [hreserve]
      rw [hload]
      refine ⟨iff_of_true rfl fun g h => .inr ⟨Except.ok.inj h ▸ hpass, hfails⟩, fun g h _ => ?_⟩
      obtain rfl := Except.ok.inj h
      exact ⟨iff_of_false (by decide) (by simp [hpass]), fun _ hroom => absurd hroom hfails⟩
  | disagrees hload h2 hpass hreserve hqueries hdisagree =>
      refine ⟨_, _, _, main_of_run_error hresult rfl, iff_of_false (by decide) hnot,
        hsame fun _ => ?_⟩
      rw [hload]
      refine ⟨iff_of_false (by decide) (hmeasured h2 hreserve), fun g h _ => ?_⟩
      obtain rfl := Except.ok.inj h
      exact ⟨iff_of_false (by decide) (by simp [hpass]), fun _ _ =>
        ⟨_, hqueries, iff_of_true rfl hdisagree, fun hne => absurd rfl hne⟩⟩
  | reported hload h2 hpass hreserve hqueries hagree htells hmedian =>
      refine ⟨_, _, _, main_of_run_ok hresult, iff_of_false (by decide) hnot,
        hsame fun _ => ?_⟩
      rw [hload]
      refine ⟨iff_of_false (by decide) (hmeasured h2 hreserve), fun g h _ => ?_⟩
      obtain rfl := Except.ok.inj h
      exact ⟨iff_of_false (by decide) (by simp [hpass]), fun _ _ =>
        ⟨_, hqueries, iff_of_false (by decide) (not_not.mpr hagree), fun _ =>
          ⟨rfl, rfl, _, _, htells, hmedian, rfl⟩⟩⟩

/-- A street of two nodes, with an arc in each direction. -/
def streetFiles (path : String) : Option Text :=
  if path = "nodes.csv" then some "id,x,y\n7,0,0\n8,1,0\n".toList
  else if path = "edges.csv" then some "source,target,weight\n7,8,1\n8,7,1.5\n".toList
  else none

/-- A program over doubles that reads these files. -/
def streetPlatform : Platform (String → Option Text) Binary64 where
  fromChars := Binary64.ofText
  distance := lineDistance
  std := Comparison.insertionSort _
  openFile files path := (files path).map (fun text => (text, .endOfFile))
  numberText := fun x => String.ofList ((Binary64.toText x).getD [])

/-- A clock that ticks at every reading. -/
def evenStopwatch : Stopwatch Binary64 where
  clock := fun readings => readings
  seconds := fun ticks => UnitArith.ofNat ticks.toNat
  showCost := fun _ => ""
  std := Comparison.insertionSort _
  quietNaN := Binary64.nan
  fixedText := fun _ x => String.ofList ((Binary64.toText x).getD [])
  reserveError := fun count => if count ≤ 2 ^ 40 then none else some "std::bad_alloc"

/-- The graph in the files. -/
def street : Graph Binary64 where
  coordinates := [⟨0, 0⟩, ⟨1, 0⟩]
  externalIds := [7, 8]
  offsets := [0, 1, 2]
  arcs := [⟨1, 1⟩, ⟨0, ⟨0x3FF8000000000000⟩⟩]
  metric := ⟨true, 0, 0, 0, 1⟩

def streetArguments : List String :=
  ["--nodes", "nodes.csv", "--edges", "edges.csv", "--queries", "2", "--seed", "5",
    "--repetitions", "3"]

/-- The options of a call of `benchmark`. -/
def streetGroups : List OptionGroup :=
  [.value .nodes "nodes.csv", .value .edges "edges.csv", .value .queries "2", .value .seed "5",
    .value .repetitions "3"]

theorem givesBenchmark_street :
    Options.GivesBenchmark streetArguments (streetGroups.foldl Options.apply Options.none)
      ⟨2, 3, 5⟩ := by
  have hnodup : (streetGroups.map OptionGroup.label).Nodup := by decide
  have hwell : Options.WellFormed benchmarkFields false streetGroups :=
    Options.wellFormed_of_gives hnodup (by decide)
  have hread : benchmarkArguments (streetGroups.foldl Options.apply Options.none)
      = .ok ⟨2, 3, 5⟩ := by
    rfl
  obtain ⟨haccepted, hgiven, hnumbers⟩ := benchmarkArguments_eq_ok_iff.mp hread
  exact ⟨⟨hwell.taken (Options.holds_foldl hnodup), hgiven⟩, hnumbers⟩

/-- The benchmark of the street succeeds: the two heuristics agree in both directions. -/
theorem main_benchmark_exit_codes_street :
    ∃ out, main streetPlatform
        ⟨fun _ => return 0, fun _ => return 0, commandBenchmark streetPlatform evenStopwatch⟩
        ("benchmark" :: streetArguments) ⟨"", "", streetFiles⟩
      = .ok (kExitSuccess, ⟨out, "", streetFiles⟩) := by
  obtain ⟨code, out, err, hmain, -, hgiven⟩ := main_benchmark_exit_codes streetPlatform
    lineDistance_unsigned evenStopwatch
    ⟨fun _ => return 0, fun _ => return 0, commandBenchmark streetPlatform evenStopwatch⟩ rfl
    streetArguments ⟨"", "", streetFiles⟩
  have hload : loadGraphFiles streetPlatform streetFiles "nodes.csv" "edges.csv" = .ok street := by
    decide +kernel
  have hagree : ∀ query ∈ [⟨0, 1⟩, ⟨1, 0⟩], HeuristicsAgree lineDistance street query := by
    intro query hquery
    simp only [List.mem_cons, List.not_mem_nil, or_false] at hquery
    rcases hquery with rfl | rfl
    · exact ⟨by decide +kernel, fun _ => by decide +kernel⟩
    · exact ⟨by decide +kernel, fun _ => by decide +kernel⟩
  obtain ⟨-, hloaded⟩ := hgiven _ _ givesBenchmark_street (by decide)
  obtain ⟨-, hpasses⟩ := hloaded street hload (by decide)
  obtain ⟨queries, hqueries, hcode, hsuccess⟩ := hpasses rfl (by decide)
  obtain rfl : [⟨0, 1⟩, ⟨1, 0⟩] = queries :=
    Except.ok.inj ((by decide +kernel : Except.ok _ = makeQueryPairs street 5 2).trans hqueries)
  obtain ⟨rfl, rfl, -⟩ := hsuccess (mt hcode.mp (not_not.mpr hagree))
  exact ⟨out, hmain⟩

end RouteEngine
