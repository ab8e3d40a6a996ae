import RouteEngine.BenchmarkCommand
import RouteEngine.CommandEnds

set_option autoImplicit false

/-! # The whole program

Every call of the program ends: for all arguments, files and readings of the clock `main` returns
one of the exit codes of the subcommand (`program_ends`). An answer goes to the output and
everything else to the error stream, and only `generate` touches files, which are its two outputs.

Use `Ends` to state how a command ends, and `Ends.exists_main` to pass it on to `main`. -/

namespace RouteEngine

/-! ## How a run ends -/

section Ends

variable {Φ : Type}

/-- What a run with an exit code has printed: an answer on the output, if the code is zero or
reports that there is no route, and otherwise a message on the error stream. -/
inductive World.Speaks (w : World Φ) : Nat → World Φ → Prop where
  | answer {code : Nat} {text : String} {files : Φ} :
      code = kExitSuccess ∨ code = kExitNoRoute → text ≠ "" →
      w.Speaks code ⟨w.out ++ text, w.err, files⟩
  | message {code : Nat} {text : String} {files : Φ} :
      code ≠ kExitSuccess → code ≠ kExitNoRoute →
      w.Speaks code ⟨w.out, w.err ++ ("route-engine: " ++ text), files⟩

/-- The run returns one of the codes, or has changed nothing and throws what `main` reports with
one of them. -/
def Ends (codes : List Nat) (R : Φ → Φ → Prop) (w : World Φ) :
    EStateM.Result Failure (World Φ) Nat → Prop
  | .ok code w' => code ∈ codes ∧ w.Speaks code w' ∧ R w.files w'.files
  | .error e w' => w' = w ∧ ∃ code text, e.report = some (code, text) ∧ code ∈ codes

variable {codes : List Nat} {R : Φ → Φ → Prop} {w : World Φ}

/-- The handlers report no success. -/
theorem Failure.report_ne {e : Failure} {code : Nat} {text : String}
    (h : e.report = some (code, text)) : code ≠ kExitSuccess ∧ code ≠ kExitNoRoute := by
  cases e <;> simp only [Failure.report, Option.some.injEq, Prod.mk.injEq, reduceCtorEq] at h <;>
    (obtain ⟨rfl, -⟩ := h; decide)

theorem ends_usageError (hcode : kExitUsage ∈ codes) (hrefl : R w.files w.files)
    (message : String) : Ends codes R w (usageError message w) := by
  rw [usageError_eq]
  exact ⟨hcode, .message (by decide) (by decide), hrefl⟩

theorem Ends.mono {codes' : List Nat} {R' : Φ → Φ → Prop}
    {result : EStateM.Result Failure (World Φ) Nat} (h : Ends codes R w result)
    (hcodes : ∀ code ∈ codes, code ∈ codes') (hR : ∀ files, R w.files files → R' w.files files) :
    Ends codes' R' w result := by
  cases result with
  | ok code w' => exact ⟨hcodes _ h.1, h.2.1, hR _ h.2.2⟩
  | error e w' =>
      obtain ⟨hw, code, text, hreport, hcode⟩ := h
      exact ⟨hw, code, text, hreport, hcodes _ hcode⟩

variable {F : Type} [IsFinite F] [Zero F] [Top F] [LT F] [DecidableLT F] [LE F] [DecidableLE F]
  [Div F] [Add F] [BEq F]
variable {env : Platform Φ F} {others : OtherCommands Φ} {arguments : List String}

/-- `main` returns. -/
theorem Ends.exists_main (h : Ends codes R w (run env others arguments w))
    (hrefl : R w.files w.files) :
    ∃ code w', main env others arguments w = .ok (code, w') ∧ code ∈ codes ∧
      w.Speaks code w' ∧ R w.files w'.files := by
  cases hrun : run env others arguments w with
  | ok code w' =>
      rw [hrun] at h
      exact ⟨code, w', main_of_run_ok hrun, h⟩
  | error e w' =>
      rw [hrun] at h
      obtain ⟨rfl, code, text, hreport, hcode⟩ := h
      obtain ⟨hsuccess, hroute⟩ := Failure.report_ne hreport
      refine ⟨code, _, main_of_run_error hrun hreport, hcode, ?_, hrefl⟩
      rw [String.append_assoc]
      exact .message hsuccess hroute

end Ends

/-! ## The four commands -/

/-- The exit codes of a subcommand. -/
def exitCodes : List String → List Nat
  | [] => [kExitUsage]
  | command :: _ =>
      if command = "--help" ∨ command = "-h" ∨ command = "help" then [kExitSuccess]
      else if command = "validate" then [kExitSuccess, kExitUsage, kExitData]
      else if command = "route" then
        [kExitSuccess, kExitNoRoute, kExitUsage, kExitData, kExitHeuristicContract]
      else if command = "generate" then [kExitSuccess, kExitUsage, kExitData]
      else if command = "benchmark" then
        [kExitSuccess, kExitUsage, kExitData, kExitHeuristicContract, kExitInternalDisagreement]
      else [kExitUsage]

section Commands

variable {Φ F : Type} [IsFinite F] [Zero F] [One F] [Top F] [UnitArith F] [Add F] [Sub F] [Mul F]
  [Div F] [LT F] [DecidableLT F] [LE F] [DecidableLE F] [BEq F] [CostArith F] [FiniteOrder F]
variable {env : Platform Φ F} {w : World Φ}

omit [IsFinite F] [One F] [UnitArith F] [Add F] [Sub F] [Mul F] [Top F] [Div F] [LE F]
  [DecidableLE F] [LT F] [DecidableLT F] [Zero F] [BEq F] [CostArith F] [FiniteOrder F] in
/-- What is printed about a graph is not empty. -/
theorem graphText_append_ne (options : Options) (g : Graph F) (text : String) :
    graphText options g ++ text ≠ "" := by
  unfold graphText
  simp only [String.append_assoc, ne_eq, String.append_eq_empty_iff]
  exact fun h => absurd h.1 (by decide)

omit [One F] [UnitArith F] [Add F] [Sub F] [Mul F] [CostArith F] in
theorem ends_commandValidate (options : Options) :
    Ends [kExitSuccess, kExitUsage, kExitData] Eq w (commandValidate env options w) := by
  unfold commandValidate
  cases validateArguments options with
  | error message => exact ends_usageError (by decide) rfl message
  | ok _ =>
      rcases answerValidate_cases env options w with
        ⟨g, staged, -, -, hanswer⟩ | ⟨file, line, message, -, hanswer⟩
      · dsimp only
        rw [hanswer]
        exact ⟨by decide, .answer (.inl rfl) (graphText_append_ne _ _ _), rfl⟩
      · dsimp only
        rw [hanswer]
        exact ⟨rfl, _, _, rfl, by decide⟩

omit [One F] [UnitArith F] [Add F] [Sub F] [Mul F] [BEq F] [CostArith F] [FiniteOrder F]
  [IsFinite F] [Zero F] [Top F] [Div F] [LE F] [DecidableLE F] in
/-- What is printed about a search is not empty. -/
theorem resultText_ne (env : Platform Φ F) (request : RouteRequest) (g : Graph F)
    (result : SearchResult F) : resultText env request g result ≠ "" := by
  unfold resultText routeText noRouteText queryText
  split_ifs <;>
    (simp only [String.append_assoc, ne_eq, String.append_eq_empty_iff]
     exact fun h => absurd h.1 (by decide))

omit [UnitArith F] in
theorem ends_commandRoute (hends : SearchesEnd env.distance) (options : Options) :
    Ends [kExitSuccess, kExitNoRoute, kExitUsage, kExitData, kExitHeuristicContract] Eq w
      (commandRoute env options w) := by
  by_cases hheld : ∃ request : RouteRequest, request.Held options
  · obtain ⟨request, hheld⟩ := hheld
    rw [commandRoute_of_held env hheld]
    have hend := answerRoute_ends hends request w
    generalize answerRoute env request.nodes request.edges request.fromId request.toId
      request.algorithm w = result at hend
    cases hend with
    | notLoaded => exact ⟨rfl, _, _, rfl, by decide⟩
    | unknownNode => exact ⟨by decide, .message (by decide) (by decide), rfl⟩
    | refused => exact ⟨rfl, _, _, rfl, by decide⟩
    | answered =>
        split_ifs
        · exact ⟨by decide, .answer (.inl rfl) (resultText_ne _ _ _ _), rfl⟩
        · exact ⟨by decide, .answer (.inr rfl) (resultText_ne _ _ _ _), rfl⟩
  · obtain ⟨message, husage⟩ := commandRoute_of_not_held (Φ := Φ) (F := F) (not_exists.mp hheld)
    rw [husage env]
    exact ends_usageError (by decide) rfl message

theorem ends_commandBenchmark (hends : SearchesEnd env.distance) (watch : Stopwatch F)
    (options : Options) :
    Ends [kExitSuccess, kExitUsage, kExitData, kExitHeuristicContract, kExitInternalDisagreement]
      Eq w (commandBenchmark env watch options w) := by
  unfold commandBenchmark
  cases harguments : benchmarkArguments options with
  | error message => exact ends_usageError (by decide) rfl message
  | ok params =>
      obtain ⟨-, -, hread⟩ := benchmarkArguments_eq_ok_iff.mp harguments
      have hend := answerBenchmark_ends hends watch options hread.queryCount_ne
        hread.repetitions_ne w
      dsimp only
      generalize answerBenchmark env watch options params w = result at hend
      cases hend with
      | notLoaded => exact ⟨rfl, _, _, rfl, by decide⟩
      | tooFew => exact ⟨by decide, .message (by decide) (by decide), rfl⟩
      | refused => exact ⟨by decide, .message (by decide) (by decide), rfl⟩
      | noRoom => exact ⟨rfl, _, _, rfl, by decide⟩
      | disagrees => exact ⟨rfl, _, _, rfl, by decide⟩
      | reported =>
          rw [String.append_assoc]
          exact ⟨by decide, .answer (.inl rfl) (graphText_append_ne _ _ _), rfl⟩

end Commands

section Generate

variable {ι F : Type} [DecidableEq ι] [IsFinite F] [Zero F] [One F] [Top F] [UnitArith F]
  [DefaultParams F] [LT F] [DecidableLT F] [LE F] [DecidableLE F] [Add F] [Sub F] [Mul F] [Div F]
  [BEq F] [FiniteOrder F]
variable {env : Platform (FileStore ι Char) F} {output : NumberOutput F} {format : F → Text}
  {w : World (FileStore ι Char)}

theorem ends_commandGenerate (hformat : Formats output.toChars format) (system : FileSystem ι)
    (options : Options) :
    Ends [kExitSuccess, kExitUsage, kExitData] (FileStore.Frame (system.outputs options)) w
      (commandGenerate system env output options w) := by
  have hend := commandGenerate_ends hformat system env options w
  have hframe : FileStore.Frame (system.outputs options) w.files
      ((commandGenerate system env output options).stateAfter w).files := frame_commandGenerate w
  unfold Method.stateAfter at hframe
  generalize commandGenerate system env output options w = result at hend hframe
  cases hend with
  | notTaken => exact ⟨by decide, .message (by decide) (by decide), hframe⟩
  | alreadyThere => exact ⟨by decide, .message (by decide) (by decide), hframe⟩
  | notGenerated => exact ⟨rfl, _, _, rfl, by decide⟩
  | notWritten => exact ⟨by decide, .message (by decide) (by decide), hframe⟩
  | written _ _ hne => exact ⟨by decide, .answer (.inl rfl) hne, hframe⟩

end Generate

/-! ## The program -/

/-- What a run may do to the files: only `generate` with options that are parsed opens any, and
then only its outputs. -/
structure KeepsTo {ι : Type} (system : FileSystem ι) (arguments : List String)
    (before after : FileStore ι Char) : Prop where
  unchanged : (∀ rest options, arguments = "generate" :: rest →
    Options.none.parse rest ≠ .ok options) → after = before
  outputs : ∀ rest options, arguments = "generate" :: rest → Options.none.parse rest = .ok options →
    FileStore.Frame (system.outputs options) before after

theorem KeepsTo.refl {ι : Type} (system : FileSystem ι) (arguments : List String)
    (files : FileStore ι Char) : KeepsTo system arguments files files :=
  ⟨fun _ => rfl, fun _ _ _ _ => .refl _ _⟩

section Program

variable {ι F : Type} [DecidableEq ι] [IsFinite F] [Zero F] [One F] [Top F] [UnitArith F]
  [CostArith F] [DefaultParams F] [LT F] [DecidableLT F] [LE F] [DecidableLE F] [Add F] [Sub F]
  [Mul F] [Div F] [BEq F] [FiniteOrder F]
variable {env : Platform (FileStore ι Char) F} {output : NumberOutput F} {format : F → Text}

/-- **Every run ends**, in any arithmetic in which searches end and numbers can be printed. -/
theorem ends_run (hends : SearchesEnd env.distance) (hformat : Formats output.toChars format)
    (system : FileSystem ι) (watch : Stopwatch F) (arguments : List String)
    (w : World (FileStore ι Char)) :
    Ends (exitCodes arguments) (KeepsTo system arguments) w
      (run env (engineCommands system env output watch) arguments w) := by
  cases arguments with
  | nil => exact ends_usageError (by decide) (.refl _ _ _) _
  | cons command rest =>
      have hkeep : ∀ files, w.files = files → KeepsTo system (command :: rest) w.files files := by
        rintro files rfl
        exact .refl _ _ _
      by_cases hhelp : command = "--help" ∨ command = "-h" ∨ command = "help"
      · simp only [run, exitCodes, if_pos hhelp]
        exact ⟨by decide, .answer (.inl rfl) (by decide), .refl _ _ _⟩
      have husage : ∀ message, Ends (exitCodes (command :: rest))
          (KeepsTo system (command :: rest)) w (usageError message w) := by
        refine fun message => ends_usageError ?_ (.refl _ _ _) message
        simp only [exitCodes, if_neg hhelp]
        split_ifs <;> decide
      by_cases hvalidate : command = "validate"
      · subst hvalidate
        cases hparse : Options.none.parse rest with
        | error message =>
            rw [run_validate_of_error _ _ hparse]
            exact husage message
        | ok options =>
            rw [run_validate_of_ok _ _ hparse]
            exact (ends_commandValidate options).mono (fun _ h => h) hkeep
      by_cases hroute : command = "route"
      · subst hroute
        cases hparse : Options.none.parse rest with
        | error message =>
            rw [run_route_of_error _ _ hparse]
            exact husage message
        | ok options =>
            rw [run_route_of_ok _ _ hparse]
            exact (ends_commandRoute hends options).mono (fun _ h => h) hkeep
      by_cases hgenerate : command = "generate"
      · subst hgenerate
        cases hparse : Options.none.parse rest with
        | error message =>
            rw [run_generate_of_error _ _ hparse]
            exact husage message
        | ok options =>
            rw [run_generate_of_ok _ _ hparse]
            refine (ends_commandGenerate hformat system options).mono (fun _ h => h)
              fun files hframe => ⟨fun h => absurd hparse (h rest options rfl), ?_⟩
            intro rest' options' harguments h
            obtain rfl : rest = rest' := (List.cons.inj harguments).2
            obtain rfl : options = options' := Except.ok.inj (hparse.symm.trans h)
            exact hframe
      by_cases hbenchmark : command = "benchmark"
      · subst hbenchmark
        cases hparse : Options.none.parse rest with
        | error message =>
            rw [run_benchmark_of_error hparse]
            exact husage message
        | ok options =>
            rw [run_benchmark_of_ok hparse]
            exact (ends_commandBenchmark hends watch options).mono (fun _ h => h) hkeep
      · have hunknown : command ≠ "validate" ∧ command ≠ "route" ∧ command ≠ "generate" ∧
            command ≠ "benchmark" := ⟨hvalidate, hroute, hgenerate, hbenchmark⟩
        simp only [run, if_neg hhelp, if_pos hunknown]
        exact husage _

end Program

/-- **Every call of the program ends**, on doubles and for all arguments, files and readings of
the clock, whatever the file system does. `main` returns one of the exit codes of the subcommand:
no exception leaves it, and no run loops for ever or subscripts outside a vector. An answer is
printed to the output alone, and for every other code a message to the error stream alone. Only
`generate` changes files, and no others than its outputs. -/
theorem program_ends {ι : Type} [DecidableEq ι] (system : FileSystem ι)
    (env : Platform (FileStore ι Char) Binary64) (hdistance : UnsignedDistance env.distance)
    (output : NumberOutput Binary64) {format : Binary64 → Text}
    (hformat : Formats output.toChars format) (watch : Stopwatch Binary64)
    (arguments : List String) (w : World (FileStore ι Char)) :
    ∃ code w', main env (engineCommands system env output watch) arguments w = .ok (code, w') ∧
      code ∈ exitCodes arguments ∧ w.Speaks code w' ∧
      KeepsTo system arguments w.files w'.files :=
  (ends_run (searchesEnd_doubles hdistance) hformat system watch arguments w).exists_main
    (.refl _ _ _)

/-- A lattice is not written over a file. -/
theorem program_ends_existing :
    ∃ code w', main workPlatform (engineCommands (.reliable inWork) workPlatform workOutput
        evenStopwatch) ("generate" :: latticeArguments "a.csv" "b.csv") keptWorld
        = .ok (code, w') ∧
      code ∈ exitCodes ("generate" :: latticeArguments "a.csv" "b.csv") ∧
      keptWorld.Speaks code w' ∧
      KeepsTo (.reliable inWork) ("generate" :: latticeArguments "a.csv" "b.csv")
        keptWorld.files w'.files :=
  program_ends (.reliable inWork) workPlatform gridHypot_unsigned workOutput formats_toText
    evenStopwatch _ keptWorld

end RouteEngine
