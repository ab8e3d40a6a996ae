import RouteEngine.GenerateSound

set_option autoImplicit false

/-! # What a failed generate leaves behind

The command opens the two files one after the other and writes to them in place. A run that ends
without success before it opens a file changes none. After that nothing is undone: an opened file
has lost what it held, and a file that was not opened has not (`generate_keeps_files`). -/

namespace RouteEngine

/-! ## Through main -/

section Main

variable {Φ F : Type} [IsFinite F] [Zero F] [Top F] [LT F] [DecidableLT F] [LE F] [DecidableLE F]
  [Div F] [Add F] [BEq F]
variable (env : Platform Φ F) (others : OtherCommands Φ) {arguments : List String}

theorem run_generate_of_ok {options : Options} (h : Options.none.parse arguments = .ok options) :
    run env others ("generate" :: arguments) = others.commandGenerate options := by
  simp [run, h]

theorem run_generate_of_error {message : String}
    (h : Options.none.parse arguments = .error message) :
    run env others ("generate" :: arguments) = usageError message := by
  simp [run, h]

variable {env others} {w w' : World Φ} {code : Nat}

theorem main_of_run_ok {s : World Φ} (h : run env others arguments w = .ok code s) :
    main env others arguments w = .ok (code, s) := by
  unfold main
  rw [h]

/-- The handlers of `main` change no file, and report no success. -/
theorem main_eq_ok (h : main env others arguments w = .ok (code, w')) :
    w'.files = ((run env others arguments).stateAfter w).files ∧
      (code = kExitSuccess → run env others arguments w = .ok kExitSuccess w') := by
  unfold main at h
  unfold Method.stateAfter
  cases hrun : run env others arguments w with
  | ok code' s =>
      rw [hrun] at h
      cases h
      exact ⟨rfl, fun hcode => by rw [hcode]⟩
  | error e s =>
      rw [hrun] at h
      -- a handler prints a line and returns a code of its own
      have hreport : ∀ text handled, handled ≠ kExitSuccess →
          reportError text handled s = .ok (code, w') →
          w'.files = s.files ∧
            (code = kExitSuccess → EStateM.Result.error e s = .ok kExitSuccess w') := by
        intro text handled hne heq
        rw [reportError_eq] at heq
        cases heq
        exact ⟨rfl, fun hcode => absurd hcode hne⟩
      cases e with
      | graphLoad file line message => exact hreport _ _ (by decide) h
      | heuristicContract message => exact hreport _ _ (by decide) h
      | benchmarkAgreement message => exact hreport _ _ (by decide) h
      | graphValidation message => exact hreport _ _ (by decide) h
      | outOfRange message => exact hreport _ _ (by decide) h
      | standard message => exact hreport _ _ (by decide) h
      | undefinedBehavior => cases h
      | diverged => cases h

end Main

/-! ## Failures after the files were opened -/

section Keeps

variable {ι F : Type} [DecidableEq ι] [IsFinite F] [Zero F] [One F] [Top F] [UnitArith F]
  [DefaultParams F] [LT F] [DecidableLT F] [LE F] [DecidableLE F] [Add F] [Sub F] [Mul F] [Div F]
  [BEq F]

/-- The files that a run without success may leave: those that there were; or, when the edges file
could not be opened, only the nodes file is emptied; or else a write has failed. In that case an
output to which no write has failed holds its text, if the two paths lead apart. -/
inductive LeavesFailed (system : FileSystem ι) (env : Platform (FileStore ι Char) F)
    (output : NumberOutput F) (options : Options) (before : FileStore ι Char) :
    FileStore ι Char → Prop where
  | untouched : LeavesFailed system env output options before before
  | nodesOnly {params : GeneratorParams F} {g : Graph F} :
      ReadyToOpen system env options before params g →
      system.opens (outputPath options .nodes) = true →
      system.opens (outputPath options .edges) = false →
      LeavesFailed system env output options before
        (before.truncate (system.identity (outputPath options .nodes)))
  | notWritten {params : GeneratorParams F} {g : Graph F} {streams : OutputStream × OutputStream}
      {after : FileStore ι Char} :
      ReadyToOpen system env options before params g →
      (∀ file, system.opens (outputPath options file) = true) → ¬ system.Writes →
      printLattice output params g = .ok streams →
      (system.identity (outputPath options .nodes) ≠ system.identity (outputPath options .edges) →
        ∀ file, system.WritesTo file →
          after.contents (system.identity (outputPath options file))
            = some (streamOf streams file).text) →
      LeavesFailed system env output options before after

/-- What a run of the command with an exit code keeps of the files before it. Without `--force` a
file that existed is changed only if it is an output, and the probe of every output that existed
has failed. -/
structure KeepsFiles (system : FileSystem ι) (env : Platform (FileStore ι Char) F)
    (output : NumberOutput F) (options : Options) (code : Nat)
    (before after : FileStore ι Char) : Prop where
  failed : code ≠ kExitSuccess → LeavesFailed system env output options before after
  frame : FileStore.Frame (system.outputs options) before after
  existing : options.force = false → ∀ file, (before.contents file).isSome = true →
    after.contents file ≠ before.contents file → file ∈ system.outputs options ∧
      ∀ other : OutputFile,
        (before.contents (system.identity (outputPath options other))).isSome = true →
          system.probeFails (outputPath options other) = true

variable {system : FileSystem ι} {env : Platform (FileStore ι Char) F} {output : NumberOutput F}
  {options : Options}

omit [DecidableEq ι] [IsFinite F] [Zero F] [One F] [Top F] [UnitArith F] [DefaultParams F] [LT F]
  [DecidableLT F] [LE F] [DecidableLE F] [Add F] [Sub F] [Mul F] [Div F] [BEq F] in
/-- Without `--force` the command goes on only if every output that exists has a failed probe. -/
theorem probeFails_of_unprotected {files : FileStore ι Char} (hforce : options.force = false)
    (hnone : protectedPath system options files = none) (file : OutputFile)
    (hfile : (files.contents (system.identity (outputPath options file))).isSome = true) :
    system.probeFails (outputPath options file) = true := by
  rw [protectedPath, hforce, if_neg (by decide), List.find?_eq_none] at hnone
  have hmem : outputPath options file ∈ [outputPath options .nodes, outputPath options .edges] := by
    cases file <;> simp
  have hnot := hnone _ hmem
  rw [FileSystem.pathExists, hfile, Bool.and_true] at hnot
  simpa using hnot

variable {format : F → Text} [FiniteOrder F]

omit [DefaultParams F] [BEq F] in
/-- Numbers that can be formatted let no stream fail. -/
theorem printLattice_good {params : GeneratorParams F} {g : Graph F}
    {distance : Coord F → Coord F → F}
    {std : Comparison.Sorter (GraphBuilder.stagedBefore (F := F))}
    (hformat : Formats output.toChars format) (h : generate distance std params = .ok g) :
    ∃ streams, printLattice output params g = .ok streams ∧
      ∀ output, (streamOf streams output).failed = false := by
  obtain ⟨staged, hover, -⟩ := lattice_loadable h
  refine ⟨_, writeCsv_eq hover hformat _ _, fun output => ?_⟩
  cases output <;> rfl

/-- What is left when a write has failed. -/
theorem leavesFailed_of_not_writes (hformat : Formats output.toChars format)
    {w : World (FileStore ι Char)} {params : GeneratorParams F} {g : Graph F}
    (hready : ReadyToOpen system env options w.files params g)
    (hopens : ∀ file, system.opens (outputPath options file) = true) (hwrites : ¬ system.Writes) :
    LeavesFailed system env output options w.files
      ((openFiles system env output options params g).stateAfter w).files := by
  obtain ⟨streams, hprint, hgood⟩ := printLattice_good hformat hready.graph_eq
  have hfiles : ((openFiles system env output options params g).stateAfter w).files
      = closedFiles system (writeStreams system options streams
          (system.bothOpened options w.files)) := by
    have hreport : Session.Effect Eq (reportWritten env options params g
        (writeStreams system options streams (system.bothOpened options w.files))) :=
      effect_reportWritten
    rw [Method.stateAfter, openFiles_of_opens hopens, writeGraph_of_ok hprint, ← Method.stateAfter,
      ← hreport]
  refine .notWritten hready hopens hwrites hprint fun hapart file hto => ?_
  rw [hfiles]
  exact contents_closedFiles (OutputFile.injective_of_ne hapart)
    (fun other => contents_bothOpened w.files other)
    ((failed_writeStreams hto).trans (hgood file))

/-- **A failure of the command** leaves all files alone, or comes after the nodes file was
opened. -/
theorem failed_commandGenerate (hformat : Formats output.toChars format)
    (w : World (FileStore ι Char))
    (h : ∀ w', commandGenerate system env output options w ≠ .ok kExitSuccess w') :
    LeavesFailed system env output options w.files
      ((commandGenerate system env output options).stateAfter w).files := by
  rcases commandGenerate_cases system env output options w with
    hrefuses | ⟨params, g, hready, hrun⟩
  · rw [hrefuses.1]
    exact .untouched
  rw [Method.stateAfter, hrun, ← Method.stateAfter]
  cases hnodes : system.opens (outputPath options .nodes) with
  | false =>
      have hrefuses : (openFiles system env output options params g).Refuses w :=
        refuses_openFiles hnodes w
      rw [hrefuses.1]
      exact .untouched
  | true =>
  cases hedges : system.opens (outputPath options .edges) with
  | false =>
      rw [Method.stateAfter, openFiles_of_nodes_only hnodes hedges]
      exact .nodesOnly hready hnodes hedges
  | true =>
      have hopens : ∀ file, system.opens (outputPath options file) = true :=
        OutputFile.forall_of hnodes hedges
      refine leavesFailed_of_not_writes hformat hready hopens fun hwrites => ?_
      -- otherwise the command succeeds
      obtain ⟨streams, hprint, hgood⟩ := printLattice_good hformat hready.graph_eq
      obtain ⟨staged, -, -, -, hpasses⟩ := lattice_loadable hready.graph_eq
      obtain ⟨out, hsuccess⟩ := commandGenerate_succeeds hready hopens hprint hpasses
        (fun file => (failed_writeStreams (hwrites.writesTo file)).trans (hgood file))
      exact h _ hsuccess

omit [FiniteOrder F] in
/-- Without `--force` a file is replaced only if the probes have failed. -/
theorem existing_commandGenerate (hforce : options.force = false) (w : World (FileStore ι Char))
    {file : ι}
    (hchanged : ((commandGenerate system env output options).stateAfter w).files.contents file
      ≠ w.files.contents file) :
    file ∈ system.outputs options ∧ ∀ other : OutputFile,
      (w.files.contents (system.identity (outputPath options other))).isSome = true →
        system.probeFails (outputPath options other) = true := by
  refine ⟨by_contra fun hnot => hchanged ((frame_commandGenerate w).contents file hnot), ?_⟩
  rcases commandGenerate_cases system env output options w with
    hrefuses | ⟨params, g, hready, -⟩
  · exact absurd (congrArg (fun files => files.contents file) hrefuses.1) hchanged
  · exact probeFails_of_unprotected hforce hready.unprotected

/-- **What generate keeps.** A run that ends with another exit code than zero has changed no
file, unless it had passed its checks and opened the nodes file. If the edges file could not be
opened then, the nodes file is empty and every other file as it was; otherwise a write has failed,
and each output to which none has failed holds its text. No run touches any file but its two
outputs. Without `--force` no run changes a file that existed, as long as the probe of one output
that existed has worked. -/
theorem generate_keeps_files (hformat : Formats output.toChars format)
    (others : OtherCommands (FileStore ι Char))
    (hothers : others.commandGenerate = commandGenerate system env output)
    (arguments : List String) (w w' : World (FileStore ι Char)) (code : Nat)
    (h : main env others ("generate" :: arguments) w = .ok (code, w')) :
    (∀ message, Options.none.parse arguments = .error message →
      code ≠ kExitSuccess ∧ w'.files = w.files) ∧
    ∀ options, Options.none.parse arguments = .ok options →
      KeepsFiles system env output options code w.files w'.files := by
  obtain ⟨hfiles, hsuccess⟩ := main_eq_ok h
  refine ⟨fun message hparse => ?_, fun options hparse => ?_⟩
  · rw [run_generate_of_error env others hparse] at hfiles hsuccess
    have hrefuses := Session.refuses_usageError message w
    exact ⟨fun hcode => hrefuses.2 w' (hsuccess hcode), hfiles.trans hrefuses.1⟩
  · rw [run_generate_of_ok env others hparse, hothers] at hfiles hsuccess
    rw [hfiles]
    refine ⟨fun hcode => ?_, frame_commandGenerate w,
      fun hforce file _ => existing_commandGenerate hforce w⟩
    apply failed_commandGenerate hformat
    intro s hrun
    -- a success of the command would be the exit code
    rw [← hothers, ← run_generate_of_ok env others hparse] at hrun
    rw [main_of_run_ok hrun, Except.ok.injEq, Prod.mk.injEq] at h
    exact hcode h.1.symm

end Keeps

/-! ## Runs in a directory with a file -/

/-- The arguments for a lattice of two sites without jitter. -/
def latticeArguments (nodes edges : String) : List String :=
  ["--width", "2", "--height", "1", "--seed", "7", "--jitter", "0", "--nodes", nodes,
    "--edges", edges]

/-- The commands, with `generate` over a file system. -/
def workCommands (system : FileSystem String) : OtherCommands (FileStore String Char) where
  commandValidate _ := pure kExitSuccess
  commandGenerate := commandGenerate system workPlatform workOutput
  commandBenchmark _ := pure kExitSuccess

/-- The file `a.csv` exists. -/
def keptWorld : World (FileStore String Char) where
  out := ""
  err := ""
  files := ⟨fun path => if path = "/work/a.csv" then some "kept".toList else none, []⟩

theorem formats_toText : Formats workOutput.toChars (formatOf Binary64.toText) :=
  fun _ hx => (formatOf_spec roundTrips_toText hx).1

/-- The run ends with a code and leaves a text in `a.csv`. -/
def EndsWith (system : FileSystem String) (arguments : List String) (code : Nat)
    (text : Text) : Prop :=
  (main workPlatform (workCommands system) ("generate" :: arguments) keptWorld).toOption.map
    (fun p => (p.1, p.2.files.contents "/work/a.csv")) = some (code, some text)

instance (system : FileSystem String) (arguments : List String) (code : Nat) (text : Text) :
    Decidable (EndsWith system arguments code text) :=
  inferInstanceAs (Decidable (_ = _))

theorem EndsWith.exists_run {system : FileSystem String} {arguments : List String} {code : Nat}
    {text : Text} (h : EndsWith system arguments code text) :
    ∃ w', main workPlatform (workCommands system) ("generate" :: arguments) keptWorld
        = .ok (code, w') ∧ w'.files.contents "/work/a.csv" = some text := by
  unfold EndsWith at h
  cases hrun : main workPlatform (workCommands system) ("generate" :: arguments) keptWorld with
  | error e =>
      rw [hrun] at h
      cases h
  | ok p =>
      rw [hrun] at h
      simp only [Except.toOption, Option.map_some, Option.some.injEq, Prod.mk.injEq] at h
      exact ⟨p.2, by rw [← h.1], h.2⟩

theorem exists_parse {arguments : List String} {nodes : String}
    (h : (Options.none.parse arguments).toOption.map (fun options => outputPath options .nodes)
      = some nodes) :
    ∃ options, Options.none.parse arguments = .ok options ∧ outputPath options .nodes = nodes := by
  cases hparse : Options.none.parse arguments with
  | error message =>
      rw [hparse] at h
      cases h
  | ok options =>
      rw [hparse] at h
      exact ⟨options, rfl, Option.some.inj h⟩

/-- A file that exists is not replaced. -/
theorem generate_keeps_files_existing :
    ∃ w' options, main workPlatform (workCommands (.reliable inWork))
        ("generate" :: latticeArguments "a.csv" "b.csv") keptWorld = .ok (kExitData, w') ∧
      Options.none.parse (latticeArguments "a.csv" "b.csv") = .ok options ∧
      KeepsFiles (.reliable inWork) workPlatform workOutput options kExitData keptWorld.files
        w'.files := by
  have hends : EndsWith (.reliable inWork) (latticeArguments "a.csv" "b.csv") kExitData
      "kept".toList := by decide +kernel
  obtain ⟨w', hrun, -⟩ := hends.exists_run
  obtain ⟨options, hparse, -⟩ : ∃ options, Options.none.parse (latticeArguments "a.csv" "b.csv")
      = .ok options ∧ outputPath options .nodes = "a.csv" := exists_parse (by decide +kernel)
  have hkeeps := generate_keeps_files formats_toText (workCommands (.reliable inWork)) rfl
    (latticeArguments "a.csv" "b.csv") keptWorld w' kExitData hrun
  exact ⟨w', options, hrun, hparse, hkeeps.2 options hparse⟩

/-- With `--force` and an edges file that cannot be opened, the nodes file is lost. Without it a
file is replaced when its probe fails. -/
theorem generate_not_atomic :
    (¬ ∀ (system : FileSystem String) (arguments : List String)
        (w w' : World (FileStore String Char)) (code : Nat) (options : Options),
      main workPlatform (workCommands system) ("generate" :: arguments) w = .ok (code, w') →
      code ≠ kExitSuccess → Options.none.parse arguments = .ok options →
      ∀ output : OutputFile, w'.files.contents (system.identity (outputPath options output))
        = w.files.contents (system.identity (outputPath options output))) ∧
    ¬ ∀ (system : FileSystem String) (arguments : List String)
        (w w' : World (FileStore String Char)) (code : Nat),
      main workPlatform (workCommands system) ("generate" :: arguments) w = .ok (code, w') →
      "--force" ∉ arguments → ∀ file, (w.files.contents file).isSome = true →
        w'.files.contents file = w.files.contents file := by
  constructor
  · intro hclaim
    have hends : EndsWith { FileSystem.reliable inWork with opens := (· == "a.csv") }
        ("--force" :: latticeArguments "a.csv" "b.csv") kExitData [] := by decide +kernel
    obtain ⟨w', hrun, htext⟩ := hends.exists_run
    obtain ⟨options, hparse, hpath⟩ : ∃ options,
        Options.none.parse ("--force" :: latticeArguments "a.csv" "b.csv") = .ok options ∧
          outputPath options .nodes = "a.csv" := exists_parse (by decide +kernel)
    have hsame := hclaim _ _ keptWorld w' _ options hrun (by decide) hparse .nodes
    have hfile : inWork (outputPath options .nodes) = "/work/a.csv" := by
      rw [hpath]
      decide +kernel
    change w'.files.contents (inWork _) = keptWorld.files.contents (inWork _) at hsame
    rw [hfile, htext] at hsame
    exact absurd hsame (by decide)
  · intro hclaim
    have hends : EndsWith { FileSystem.reliable inWork with probeFails := fun _ => true }
        (latticeArguments "a.csv" "b.csv") kExitSuccess
        ("# route-engine generated lattice: width=2 height=1 seed=7\n" ++
          "id,x,y\n1,0,0\n2,100,0\n").toList := by decide +kernel
    obtain ⟨w', hrun, htext⟩ := hends.exists_run
    have hsame := hclaim _ _ keptWorld w' _ hrun (by decide) "/work/a.csv" (by decide)
    rw [htext] at hsame
    exact absurd hsame (by decide)

end RouteEngine
