import RouteEngine.Commands
import RouteEngine.GenerateKeeps
import RouteEngine.RouteCommand

set_option autoImplicit false

/-! # The exit codes of the command validate

How `main` ends after a failure (`main_of_run_error`), what `print_metric_report` prints
(`printMetricReport_eq`) and that it names the first violating arc of the rows
(`canonicalReport_counts`). From these, what `validate` returns and prints for all arguments and
files (`main_validate_exit_codes`). Nothing here depends on the arithmetic of the weights. -/

namespace RouteEngine

/-! ## The handlers of main -/

section Handlers

/-- The exit code and the message with which `main` reports a failure. Nothing catches undefined
behaviour. -/
def Failure.report : Failure → Option (Nat × String)
  | .graphLoad file line message => some (kExitData, formatLoadMessage file line message)
  | .heuristicContract message => some (kExitHeuristicContract, message)
  | .benchmarkAgreement message => some (kExitInternalDisagreement, message)
  | .graphValidation message => some (kExitData, message)
  | .outOfRange message => some (kExitData, "unexpected error: " ++ message)
  | .standard message => some (kExitData, "unexpected error: " ++ message)
  | .undefinedBehavior => none
  | .diverged => none

variable {Φ F : Type} [IsFinite F] [Zero F] [Top F] [LT F] [DecidableLT F] [LE F] [DecidableLE F]
  [Div F] [Add F] [BEq F]
variable {env : Platform Φ F} {others : OtherCommands Φ} {arguments : List String}
  {w w' : World Φ}

/-- A failure is reported on the error stream. -/
theorem main_of_run_error {e : Failure} {code : Nat} {text : String}
    (h : run env others arguments w = .error e w') (hreport : e.report = some (code, text)) :
    main env others arguments w
      = .ok (code, { w' with err := w'.err ++ ("route-engine: " ++ text ++ "\n") }) := by
  unfold main
  rw [h]
  cases e <;> simp only [Failure.report, Option.some.injEq, Prod.mk.injEq, reduceCtorEq] at hreport
  all_goals
    obtain ⟨rfl, rfl⟩ := hreport
    exact reportError_eq _ _ _

/-- A command that refuses its options. -/
theorem main_of_usageError {message : String}
    (h : run env others arguments w = usageError message w) :
    main env others arguments w = .ok (kExitUsage,
      { w with err := w.err ++ ("route-engine: " ++ message ++ "\n\n" ++ usageText) }) := by
  refine main_of_run_ok (h.trans ?_)
  simp [usageError, printErr, String.append_assoc]

end Handlers

/-! ## The metric report of a built graph -/

section Metric

variable {F : Type} [Zero F] [LT F] [DecidableLT F] [LE F] [DecidableLE F] [Div F]

/-- The arc is shorter than the distance between its endpoints, or they do not compare. -/
def isShort (distance : Coord F → Coord F → F) (coordinates : List (Coord F))
    (a : StagedArc F) : Bool :=
  !decide (distance (coordAt coordinates a.source) (coordAt coordinates a.target) ≤ a.weight)

/-- The count and the first violation after some arcs. -/
structure MetricReport.Counts (distance : Coord F → Coord F → F) (coordinates : List (Coord F))
    (seen : List (StagedArc F)) (report : MetricReport F) : Prop where
  count : report.violatingArcs.toNat = seen.countP (isShort distance coordinates)
  passes : report.passes = true ↔ ∀ a ∈ seen, isShort distance coordinates a = false
  first : ∀ a, seen.find? (isShort distance coordinates) = some a →
    report.firstViolationSource = a.source ∧ report.firstViolationTarget = a.target

omit [LE F] [DecidableLE F] in
theorem MetricReport.lowerRatio_keeps (report : MetricReport F) (arc : Arc F) (d : F) :
    ∃ ratio, report.lowerRatio arc d = { report with worstRatio := ratio } := by
  unfold MetricReport.lowerRatio
  dsimp only
  split_ifs <;> exact ⟨_, rfl⟩

/-- One more arc is counted, and named if it is the first violation. -/
theorem MetricReport.Counts.observe {distance : Coord F → Coord F → F}
    {coordinates : List (Coord F)} {seen : List (StagedArc F)} {report : MetricReport F}
    (h : report.Counts distance coordinates seen) (hfew : seen.length + 1 < 2 ^ 64)
    (a : StagedArc F) :
    (observeStaged distance coordinates report a).Counts distance coordinates (seen ++ [a]) := by
  obtain ⟨ratio, hratio⟩ := (report.countViolation a.source a.toArc
    (distance (coordAt coordinates a.source) (coordAt coordinates a.target))).lowerRatio_keeps
      a.toArc (distance (coordAt coordinates a.source) (coordAt coordinates a.target))
  unfold observeStaged MetricReport.observe
  rw [hratio]
  unfold MetricReport.countViolation
  by_cases hle : distance (coordAt coordinates a.source) (coordAt coordinates a.target) ≤ a.weight
  · -- the arc is long enough, and nothing changes
    have hnot : isShort distance coordinates a = false := by simp [isShort, hle]
    have hgood : ¬ ¬ a.toArc.weight
        ≥ distance (coordAt coordinates a.source) (coordAt coordinates a.target) := not_not.mpr hle
    rw [if_neg hgood]
    refine ⟨?_, ?_, fun b hb => ?_⟩
    · simpa [hnot] using h.count
    · simpa [hnot, or_imp, forall_and] using h.passes
    · rw [List.find?_append] at hb
      simp only [List.find?_singleton, hnot, Bool.false_eq_true, if_false, Option.or_none] at hb
      exact h.first b hb
  · have hshort : isShort distance coordinates a = true := by simp [isShort, hle]
    have hbad : ¬ a.toArc.weight
        ≥ distance (coordAt coordinates a.source) (coordAt coordinates a.target) := hle
    have hcount : (report.violatingArcs + 1).toNat
        = (seen ++ [a]).countP (isShort distance coordinates) := by
      -- the counter does not wrap
      have hbound := List.countP_le_length (p := isShort distance coordinates) (l := seen)
      rw [UInt64.toNat_add, h.count, List.countP_append, List.countP_singleton, hshort, if_pos rfl]
      show (_ + 1) % 2 ^ 64 = _
      exact Nat.mod_eq_of_lt (by omega)
    have hfails : (false = true) ↔ ∀ b ∈ seen ++ [a], isShort distance coordinates b = false := by
      refine iff_of_false Bool.false_ne_true fun hall => ?_
      exact Bool.false_ne_true ((hall a (by simp)).symm.trans hshort)
    rw [if_pos hbad]
    by_cases hone : report.violatingArcs + 1 = 1
    · -- no arc before it is short
      have hnone : seen.find? (isShort distance coordinates) = none := by
        rw [hone] at hcount
        have hzero : seen.countP (isShort distance coordinates) = 0 := by
          have hsum := hcount
          rw [List.countP_append, List.countP_singleton, hshort, if_pos rfl] at hsum
          have hone' : (1 : UInt64).toNat = 1 := rfl
          omega
        rw [List.find?_eq_none]
        exact List.countP_eq_zero.mp hzero
      simp only [hone, if_true]
      refine ⟨hone ▸ hcount, hfails, fun b hb => ?_⟩
      rw [List.find?_append, hnone, Option.none_or, List.find?_singleton, hshort, if_pos rfl] at hb
      obtain rfl := Option.some.inj hb
      exact ⟨rfl, rfl⟩
    · simp only [hone, if_false]
      refine ⟨hcount, hfails, fun b hb => ?_⟩
      cases hseen : seen.find? (isShort distance coordinates) with
      | none =>
          have hzero : seen.countP (isShort distance coordinates) = 0 :=
            List.countP_eq_zero.mpr (List.find?_eq_none.mp hseen)
          have hnat : report.violatingArcs = 0 := by
            rw [← UInt64.toNat_inj, h.count, hzero]
            rfl
          exact absurd (by rw [hnat]; rfl) hone
      | some c =>
          rw [List.find?_append, hseen, Option.some_or] at hb
          exact h.first b (hseen.trans hb)

/-- **What the report of sorted arcs says**: how many are short, and which one is the first. -/
theorem canonicalReport_counts [Top F] (distance : Coord F → Coord F → F)
    (coordinates : List (Coord F)) {staged : List (StagedArc F)}
    (hfew : staged.length ≤ maxArcCount) :
    (canonicalReport distance coordinates staged).Counts distance coordinates staged := by
  have hfold : ∀ (rest seen : List (StagedArc F)) (report : MetricReport F),
      seen.length + rest.length < 2 ^ 64 → report.Counts distance coordinates seen →
        (rest.foldl (observeStaged distance coordinates) report).Counts distance coordinates
          (seen ++ rest) := by
    intro rest
    induction rest with
    | nil =>
        intro seen report _ h
        rwa [List.append_nil]
    | cons a rest ih =>
        intro seen report hlen h
        rw [List.length_cons] at hlen
        have hstep := ih (seen ++ [a]) _ (by simp; omega) (h.observe (by omega) a)
        rwa [List.append_assoc] at hstep
  have hstart : (MetricReport.initial (F := F)).Counts distance coordinates [] := by
    refine ⟨rfl, ?_, ?_⟩ <;> simp [MetricReport.initial]
  unfold maxArcCount at hfew
  exact hfold staged [] .initial (by simp; omega) hstart

end Metric

/-! ## What print_metric_report prints -/

section Print

variable {Φ F : Type} [IsFinite F] [Zero F] [Top F] [LT F] [DecidableLT F] [LE F] [DecidableLE F]
  [Div F] [BEq F]

/-- The text of `print_metric_report`. -/
def metricText (numberText : F → String) (g : Graph F) : String :=
  "metric contract:  " ++ (if g.metric.passes then "satisfied" else "VIOLATED") ++ "\n" ++
  (if g.metric.passes then
    "  every arc weight is at least the straight-line distance between its endpoints,\n" ++
    "  so Euclidean A* is admissible on this graph\n"
  else
    "  violating arcs: " ++ toString g.metric.violatingArcs.toNat ++ "\n" ++
    "  first violation: node " ++ toString (idAt g g.metric.firstViolationSource).toNat ++
    " -> " ++ toString (idAt g g.metric.firstViolationTarget).toNat ++ "\n" ++
    "  Euclidean A* will be refused on this graph; dijkstra and astar-zero remain available\n") ++
  (if g.metric.worstRatio == ⊤ then
    "  worst weight/distance ratio: n/a (no arc with a positive distance)\n"
  else "  worst weight/distance ratio: " ++ numberText g.metric.worstRatio ++ "\n")

variable {distance : Coord F → Coord F → F} {g : Graph F} {staged : List (StagedArc F)}

omit [BEq F] in
theorem Graph.OverArcs.counts (hg : g.OverArcs distance staged) :
    g.metric.Counts distance g.coordinates staged := by
  have heq : g.metric = canonicalReport distance g.coordinates staged :=
    congrArg Graph.metric hg.eq
  rw [heq]
  exact canonicalReport_counts distance g.coordinates hg.arcs_le

omit [BEq F] in
/-- A graph that violates the contract has a first short arc, between two of its nodes. -/
theorem Graph.OverArcs.exists_first (hg : g.OverArcs distance staged)
    (hfails : g.metric.passes = false) :
    ∃ a ∈ staged, staged.find? (isShort distance g.coordinates) = some a ∧
      g.metric.firstViolationSource = a.source ∧ g.metric.firstViolationTarget = a.target := by
  cases hfind : staged.find? (isShort distance g.coordinates) with
  | none =>
      have hall : ∀ a ∈ staged, isShort distance g.coordinates a = false := by
        intro a ha
        exact Bool.eq_false_of_not_eq_true (List.find?_eq_none.mp hfind a ha)
      rw [hg.counts.passes.mpr hall] at hfails
      cases hfails
  | some a => exact ⟨a, List.mem_of_find?_eq_some hfind, rfl, hg.counts.first a hfind⟩

/-- The report of a built graph can always be printed. -/
theorem printMetricReport_eq (hg : g.OverArcs distance staged) (numberText : F → String)
    (w : World Φ) :
    printMetricReport numberText g w
      = .ok () { w with out := w.out ++ metricText numberText g } := by
  unfold printMetricReport metricText
  by_cases hratio : (g.metric.worstRatio == ⊤) = true
  all_goals cases hpasses : g.metric.passes with
    | true => simp [hratio, printOut, String.append_assoc]
    | false =>
        obtain ⟨a, ha, -, hsource, htarget⟩ := hg.exists_first hpasses
        have hadmissible := hg.admissible a ha
        have hfrom := hg.externalId_eq hadmissible.source_lt
        have hto := hg.externalId_eq hadmissible.target_lt
        simp [hratio, hsource, htarget, hfrom, hto, printOut, String.append_assoc]

end Print

/-! ## The arguments of a command -/

/-- The command takes the arguments as these options, and all its options are among them. -/
structure Options.GivesAll (command : String) (fields : List OptionField)
    (arguments : List String) (options : Options) : Prop where
  taken : TakenBy command fields false arguments options
  given : ∀ field ∈ fields, options.text field ≠ ""

/-- The group gives a value to one of the options. -/
def OptionGroup.gives (accepted : List OptionField) : OptionGroup → Bool
  | .value field text => accepted.contains field && text ≠ ""
  | .force => false

theorem Options.wellFormed_of_gives {accepted : List OptionField} {acceptsForce : Bool}
    {groups : List OptionGroup} (hnodup : (groups.map OptionGroup.label).Nodup)
    (hgives : groups.all (OptionGroup.gives accepted) = true) :
    WellFormed accepted acceptsForce groups := by
  rw [List.all_eq_true] at hgives
  have hvalue : ∀ field text, .value field text ∈ groups → field ∈ accepted ∧ text ≠ "" := by
    intro field text hmem
    simpa [OptionGroup.gives] using hgives _ hmem
  refine ⟨hnodup, fun _ _ hmem => (hvalue _ _ hmem).2, fun _ _ hmem => (hvalue _ _ hmem).1, ?_⟩
  intro hmem
  simpa [OptionGroup.gives] using hgives _ hmem

/-- The options of `validate`. -/
def validateFields : List OptionField := [.nodes, .edges]

theorem validateArguments_eq_ok_iff {options : Options} :
    validateArguments options = .ok () ↔
      options.rejectUnaccepted "validate" (validateFields.map OptionField.key) false = "" ∧
        ∀ field ∈ validateFields, options.text field ≠ "" := by
  have hkeys : validateFields.map OptionField.key = ["--nodes", "--edges"] := by decide
  rw [hkeys]
  unfold validateArguments validateFields
  by_cases haccepted : options.rejectUnaccepted "validate" ["--nodes", "--edges"] false = ""
  · by_cases hmissing : options.text .nodes = "" ∨ options.text .edges = ""
    · simp [haccepted, hmissing, throw, throwThe, MonadExceptOf.throw]
      tauto
    · simp [haccepted, hmissing, pure, Except.pure]
      tauto
  · simp [haccepted, throw, throwThe, MonadExceptOf.throw, bind, Except.bind]

/-! ## The exit codes -/

section ExitCodes

variable {Φ F : Type} [IsFinite F] [Zero F] [Top F] [LT F] [DecidableLT F] [LE F] [DecidableLE F]
  [Div F] [BEq F]
variable (env : Platform Φ F) (others : OtherCommands Φ) {arguments : List String}
  {options : Options}

theorem run_validate_of_ok [Add F] (h : Options.none.parse arguments = .ok options) :
    run env others ("validate" :: arguments) = others.commandValidate options := by
  simp [run, h]

theorem run_validate_of_error [Add F] {message : String}
    (h : Options.none.parse arguments = .error message) :
    run env others ("validate" :: arguments) = usageError message := by
  simp [run, h]

/-- What a valid request does with the files. -/
theorem answerValidate_cases [FiniteOrder F] (options : Options) (w : World Φ) :
    (∃ g staged, loadGraphFiles env w.files (options.text .nodes) (options.text .edges) = .ok g ∧
        g.OverArcs env.distance staged ∧
        answerValidate env options w = .ok kExitSuccess { w with
          out := w.out ++ (graphText options g ++ metricText env.numberText g) }) ∨
      ∃ file line message,
        loadGraphFiles env w.files (options.text .nodes) (options.text .edges)
          = .error (.graphLoad file line message) ∧
        answerValidate env options w = .error (.graphLoad file line message) w := by
  unfold answerValidate
  rcases loadGraphFiles_cases env w.files (options.text .nodes) (options.text .edges) with
    ⟨g, staged, hload, hover, -⟩ | ⟨file, line, message, herror⟩
  · refine .inl ⟨g, staged, hload, hover, ?_⟩
    simp [hload, printOut, printMetricReport_eq hover, String.append_assoc]
  · refine .inr ⟨file, line, message, herror, ?_⟩
    simp [herror]

/-- `validate` on options that it takes. -/
theorem run_validate_of_gives [Add F] (hothers : others.commandValidate = commandValidate env)
    (h : Options.GivesAll "validate" validateFields arguments options) :
    run env others ("validate" :: arguments) = answerValidate env options := by
  have hok : validateArguments options = .ok () :=
    validateArguments_eq_ok_iff.mpr ⟨h.taken.2, h.given⟩
  rw [run_validate_of_ok env others h.taken.1, hothers, commandValidate, hok]

/-- `validate` on all other arguments. -/
theorem run_validate_of_not_gives [Add F] (hothers : others.commandValidate = commandValidate env)
    (h : ∀ options, ¬ Options.GivesAll "validate" validateFields arguments options) :
    ∃ message, run env others ("validate" :: arguments) = usageError message := by
  cases hparse : Options.none.parse arguments with
  | error message => exact ⟨message, run_validate_of_error env others hparse⟩
  | ok options =>
      rw [run_validate_of_ok env others hparse, hothers, commandValidate]
      cases hcheck : validateArguments options with
      | error message => exact ⟨message, rfl⟩
      | ok _ =>
          obtain ⟨haccepted, hgiven⟩ := validateArguments_eq_ok_iff.mp hcheck
          exact absurd ⟨⟨hparse, haccepted⟩, hgiven⟩ (h options)

/-- **The exit codes of `validate`**, for all arguments and files and any arithmetic. Code 2 is
for arguments that are not exactly the two options; code 3 for files that cannot be loaded;
otherwise the code is 0, also on a graph that violates the metric contract. The printed report
then counts the arcs that are shorter than the distance between their endpoints, and names the
first one in the order of the rows. No file is changed. -/
theorem main_validate_exit_codes {Φ F : Type} [IsFinite F] [Zero F] [Top F] [LT F] [DecidableLT F]
    [LE F] [DecidableLE F] [Div F] [BEq F] [Add F] [FiniteOrder F] (env : Platform Φ F)
    (others : OtherCommands Φ) (hothers : others.commandValidate = commandValidate env)
    (arguments : List String) (w : World Φ) :
    ∃ code out err, main env others ("validate" :: arguments) w = .ok (code, ⟨out, err, w.files⟩) ∧
      (code = kExitUsage ↔
        ∀ options, ¬ Options.GivesAll "validate" validateFields arguments options) ∧
      ∀ options, Options.GivesAll "validate" validateFields arguments options →
        (code = kExitData ↔ ∀ g,
          loadGraphFiles env w.files (options.text .nodes) (options.text .edges) ≠ .ok g) ∧
        ∀ g, loadGraphFiles env w.files (options.text .nodes) (options.text .edges) = .ok g →
          code = kExitSuccess ∧ err = w.err ∧
            out = w.out ++ (graphText options g ++ metricText env.numberText g) ∧
            ∃ staged, g.OverArcs env.distance staged ∧
              g.metric.Counts env.distance g.coordinates staged := by
  by_cases hgives : ∃ options, Options.GivesAll "validate" validateFields arguments options
  · obtain ⟨options, hgives⟩ := hgives
    have hrun := run_validate_of_gives env others hothers hgives
    have hsame : ∀ options', Options.GivesAll "validate" validateFields arguments options' →
        options' = options := by
      intro options' hgives'
      exact Except.ok.inj (hgives'.taken.1.symm.trans hgives.taken.1)
    rcases answerValidate_cases env options w with
      ⟨g, staged, hload, hover, hanswer⟩ | ⟨file, line, message, herror, hanswer⟩
    · have hmain := main_of_run_ok
        ((congrFun hrun w).trans hanswer)
      refine ⟨_, _, _, hmain, iff_of_false (by decide) (fun h => h options hgives), ?_⟩
      intro options' hgives'
      obtain rfl := hsame options' hgives'
      refine ⟨iff_of_false (by decide) (fun h => h g hload), fun g' hload' => ?_⟩
      obtain rfl : g = g' := Except.ok.inj (hload.symm.trans hload')
      exact ⟨rfl, rfl, rfl, staged, hover, hover.counts⟩
    · have hmain := main_of_run_error
        ((congrFun hrun w).trans hanswer) rfl
      refine ⟨_, _, _, hmain, iff_of_false (by decide) (fun h => h options hgives), ?_⟩
      intro options' hgives'
      obtain rfl := hsame options' hgives'
      have hnone : ∀ g, loadGraphFiles env w.files (options'.text .nodes) (options'.text .edges)
          ≠ .ok g := by
        intro g hload
        rw [herror] at hload
        cases hload
      exact ⟨iff_of_true rfl hnone, fun g hload => absurd hload (hnone g)⟩
  · rw [not_exists] at hgives
    obtain ⟨message, hrun⟩ := run_validate_of_not_gives env others hothers hgives
    exact ⟨_, _, _, main_of_usageError (congrFun hrun w), iff_of_true rfl hgives,
      fun options h => absurd h (hgives options)⟩

end ExitCodes

/-- A road whose second arc is shorter than the distance between its ends. -/
def shortFiles (path : String) : Option Text :=
  if path = "nodes.csv" then some "id,x,y\n7,0,0\n8,1,0\n9,2,0\n".toList
  else if path = "edges.csv" then some "source,target,weight\n7,9,1\n8,9,1\n7,8,1\n".toList
  else none

/-- The graph in the files. -/
def shortRoad : Graph (WithTop ℚ) where
  coordinates := [⟨0, 0⟩, ⟨1, 0⟩, ⟨(2 : ℚ), 0⟩]
  externalIds := [7, 8, 9]
  offsets := [0, 2, 3, 3]
  arcs := [⟨1, 1⟩, ⟨2, 1⟩, ⟨2, 1⟩]
  metric := ⟨false, 1, 0, 2, (1 / 2 : ℚ)⟩

/-- The options of a call of `validate`. -/
def validateGroups : List OptionGroup := [.value .edges "edges.csv", .value .nodes "nodes.csv"]

theorem givesAll_validateGroups :
    Options.GivesAll "validate" validateFields ["--edges", "edges.csv", "--nodes", "nodes.csv"]
      (validateGroups.foldl Options.apply Options.none) := by
  have hnodup : (validateGroups.map OptionGroup.label).Nodup := by decide
  have hwell : Options.WellFormed validateFields false validateGroups :=
    Options.wellFormed_of_gives hnodup (by decide)
  refine ⟨hwell.taken (Options.holds_foldl hnodup), ?_⟩
  decide

/-- What is printed about it. -/
def shortText : String :=
  "nodes file:       nodes.csv\n" ++
  "edges file:       edges.csv\n" ++
  "nodes:            3\n" ++
  "arcs:             3\n" ++
  "metric contract:  VIOLATED\n" ++
  "  violating arcs: 1\n" ++
  "  first violation: node 7 -> 9\n" ++
  "  Euclidean A* will be refused on this graph; dijkstra and astar-zero remain available\n" ++
  "  worst weight/distance ratio: 1\n"

theorem main_validate_exit_codes_short :
    main roadPlatform ⟨commandValidate roadPlatform, fun _ => return 0, fun _ => return 0⟩
        ["validate", "--edges", "edges.csv", "--nodes", "nodes.csv"] ⟨"", "", shortFiles⟩
      = .ok (kExitSuccess, ⟨"" ++ shortText, "", shortFiles⟩) := by
  obtain ⟨code, out, err, hmain, -, hgiven⟩ := main_validate_exit_codes roadPlatform
    ⟨commandValidate roadPlatform, fun _ => return 0, fun _ => return 0⟩ rfl
    ["--edges", "edges.csv", "--nodes", "nodes.csv"] ⟨"", "", shortFiles⟩
  have hload : loadGraphFiles roadPlatform shortFiles "nodes.csv" "edges.csv" = .ok shortRoad := by
    decide +kernel
  obtain ⟨-, hloaded⟩ := hgiven _ givesAll_validateGroups
  obtain ⟨rfl, rfl, rfl, -⟩ := hloaded shortRoad hload
  have htext : graphText (validateGroups.foldl Options.apply Options.none) shortRoad ++
      metricText roadPlatform.numberText shortRoad = shortText := by
    decide +kernel
  rw [hmain]
  exact congrArg (fun out => Except.ok (kExitSuccess, World.mk ("" ++ out) "" shortFiles)) htext

end RouteEngine
