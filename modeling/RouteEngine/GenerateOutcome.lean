import RouteEngine.GenerateFiles

set_option autoImplicit false

/-! # How generate ends

Either the command is refused before it opens a file (`Session.Refuses`), or it opens both files
or one of them. It succeeds exactly when both files were opened, the graph was printed and
neither stream has failed. -/

namespace RouteEngine

/-! ## Calls and the files -/

section Effect

variable {Φ α β : Type} {R : Φ → Φ → Prop}

/-- Whatever a call does to the files is in the relation. -/
def Session.Effect (R : Φ → Φ → Prop) (m : Session Φ α) : Prop :=
  ∀ w, R w.files (m.stateAfter w).files

/-- The call ends without success, and the files are as they were. -/
def Session.Refuses (m : Session Φ Nat) (w : World Φ) : Prop :=
  (m.stateAfter w).files = w.files ∧ ∀ w', m w ≠ .ok kExitSuccess w'

namespace Session

theorem Effect.of_eq {m : Session Φ α} (h : Effect Eq m) (hrefl : ∀ files, R files files) :
    Effect R m := by
  intro w
  rw [← h w]
  exact hrefl w.files

theorem Effect.stateAfter_ok {m : Session Φ α} (h : Effect R m) {w w' : World Φ} {a : α}
    (hrun : m w = .ok a w') : R w.files w'.files := by
  have hstep := h w
  rwa [Method.stateAfter, hrun] at hstep

/-- Two calls in a row. -/
theorem Effect.bind {m : Session Φ α} {f : α → Session Φ β} (hm : Effect R m)
    (hf : ∀ a, Effect R (f a)) (htrans : ∀ {a b c}, R a b → R b c → R a c) :
    Effect R (m >>= f) := by
  intro w
  have hfirst := hm w
  unfold Method.stateAfter at hfirst ⊢
  rw [Method.bind_apply]
  cases hrun : m w with
  | ok a w' =>
      rw [hrun] at hfirst
      exact htrans hfirst (hf a w')
  | error e w' =>
      rw [hrun] at hfirst
      exact hfirst

theorem Effect.bind_eq {m : Session Φ α} {f : α → Session Φ β} (hm : Effect Eq m)
    (hf : ∀ a, Effect Eq (f a)) : Effect Eq (m >>= f) := hm.bind hf Eq.trans

theorem Effect.ite {m m' : Session Φ α} {p : Prop} [Decidable p] (hm : Effect R m)
    (hm' : Effect R m') : Effect R (if p then m else m') := by
  split_ifs
  · exact hm
  · exact hm'

theorem effect_pure (a : α) : Effect Eq (pure a : Session Φ α) := fun _ => rfl

theorem effect_get : Effect Eq (get : Session Φ (World Φ)) := fun _ => rfl

theorem effect_printOut (text : String) : Effect Eq (printOut text : Session Φ Unit) :=
  fun _ => rfl

theorem effect_lift (x : Outcome α) : Effect Eq (Method.lift x : Session Φ α) := by
  intro w
  cases x <;> rfl

theorem effect_usageError (message : String) : Effect Eq (usageError message : Session Φ Nat) :=
  fun _ => rfl

theorem effect_dataError (message : String) : Effect Eq (dataError message : Session Φ Nat) :=
  fun _ => rfl

theorem refuses_usageError (message : String) (w : World Φ) :
    Refuses (usageError message : Session Φ Nat) w := by
  refine ⟨rfl, fun w' h => ?_⟩
  injection h with hcode
  exact absurd hcode (by decide)

theorem refuses_dataError (message : String) (w : World Φ) :
    Refuses (dataError message : Session Φ Nat) w := by
  refine ⟨rfl, fun w' h => ?_⟩
  injection h with hcode
  exact absurd hcode (by decide)

end Session

end Effect

/-! ## What is printed -/

section Print

variable {Φ F : Type} [Top F] [BEq F] {g : Graph F}

theorem effect_printMetricReport (numberText : F → String) (g : Graph F) :
    Session.Effect Eq (printMetricReport numberText g : Session Φ Unit) := by
  have hratio : Session.Effect Eq (if (g.metric.worstRatio == ⊤) = true then
      printOut "  worst weight/distance ratio: n/a (no arc with a positive distance)\n"
      else printOut ("  worst weight/distance ratio: " ++ numberText g.metric.worstRatio ++ "\n") :
        Session Φ Unit) :=
    .ite (Session.effect_printOut _) (Session.effect_printOut _)
  unfold printMetricReport
  refine .bind_eq (Session.effect_printOut _) fun _ => .ite ?_ ?_
  · exact .bind_eq (Session.effect_printOut _) fun _ => hratio
  · refine .bind_eq (Session.effect_printOut _) fun _ => ?_
    refine .bind_eq (Session.effect_lift _) fun _ => ?_
    refine .bind_eq (Session.effect_printOut _) fun _ => ?_
    refine .bind_eq (Session.effect_lift _) fun _ => ?_
    exact .bind_eq (Session.effect_printOut _) fun _ => hratio

/-- The report of a graph that passes can be printed. -/
theorem printMetricReport_of_passes (numberText : F → String) (h : g.metric.passes = true)
    (w : World Φ) :
    ∃ out, printMetricReport numberText g w = .ok () { w with out } := by
  unfold printMetricReport
  simp only [h, if_true]
  split_ifs <;> exact ⟨_, rfl⟩

end Print

section Command

variable {ι F : Type} [Top F] [LT F] [DecidableLT F] [BEq F]
variable {system : FileSystem ι} {env : Platform (FileStore ι Char) F} {output : NumberOutput F}
  {options : Options} {params : GeneratorParams F} {g : Graph F} {s : Writing ι}

theorem effect_reportWritten :
    Session.Effect Eq (reportWritten env options params g s) := by
  refine .ite (Session.effect_dataError _) (.ite (Session.effect_dataError _) ?_)
  refine .bind_eq ?_ fun _ => Session.effect_pure _
  exact .bind_eq (Session.effect_printOut _) fun _ => effect_printMetricReport _ _

/-- Without a failure the command succeeds, for a graph that passes the metric check. -/
theorem reportWritten_of_good (hpasses : g.metric.passes = true)
    (hgood : ∀ output, (s.streams output).failed = false) (w : World (FileStore ι Char)) :
    ∃ out, reportWritten env options params g s w = .ok kExitSuccess { w with out } := by
  unfold reportWritten printSummary
  rw [hgood, hgood, if_neg (by simp), if_neg (by simp)]
  simp only [Method.bind_apply, printOut]
  rcases printMetricReport_of_passes env.numberText hpasses _ with ⟨out, hout⟩
  rw [hout]
  exact ⟨out, rfl⟩

/-- The command succeeds only if no stream has failed. -/
theorem good_of_reportWritten {w w' : World (FileStore ι Char)}
    (h : reportWritten env options params g s w = .ok kExitSuccess w') (output : OutputFile) :
    (s.streams output).failed = false := by
  unfold reportWritten at h
  split_ifs at h with hnodes hedges
  · exact absurd h ((Session.refuses_dataError _ w).2 w')
  · exact absurd h ((Session.refuses_dataError _ w).2 w')
  · cases output with
    | nodes => exact Bool.eq_false_of_not_eq_true hnodes
    | edges => exact Bool.eq_false_of_not_eq_true hedges

variable [DecidableEq ι]

theorem writeGraph_of_ok {streams : OutputStream × OutputStream}
    (h : printLattice output params g = .ok streams) (w : World (FileStore ι Char)) :
    writeGraph system env output options params g w
      = reportWritten env options params g (writeStreams system options streams w.files)
          { w with files := closedFiles system (writeStreams system options streams w.files) } := by
  unfold writeGraph
  rw [h]
  rfl

theorem writeGraph_of_error {e : Failure} (h : printLattice output params g = .error e)
    (w : World (FileStore ι Char)) :
    writeGraph system env output options params g w = .error e w := by
  unfold writeGraph
  rw [h]
  rfl

/-! ## The files that are touched -/

omit [Top F] [LT F] [DecidableLT F] [BEq F] [DecidableEq ι] in
theorem Session.Effect.frame {α : Type} {m : Session (FileStore ι Char) α}
    (h : Session.Effect Eq m) (touched : Set ι) : Session.Effect (FileStore.Frame touched) m :=
  .of_eq h (FileStore.Frame.refl touched)

theorem frame_openForWriting (output : OutputFile) :
    Session.Effect (FileStore.Frame (system.outputs options))
      (system.openForWriting (outputPath options output)) := by
  intro w
  unfold FileSystem.openForWriting Method.stateAfter
  split_ifs
  · exact .truncate (Set.mem_range_self output)
  · exact .refl _ _

theorem frame_writeGraph : Session.Effect (FileStore.Frame (system.outputs options))
    (writeGraph system env output options params g) := by
  intro w
  cases hprint : printLattice output params g with
  | error e =>
      rw [Method.stateAfter, writeGraph_of_error hprint]
      exact .refl _ _
  | ok streams =>
      -- the streams keep to their files, and the report touches none
      have hwithin := within_writeStreams system options streams w.files
      have hreport : Session.Effect Eq (reportWritten env options params g
          (writeStreams system options streams w.files)) := effect_reportWritten
      rw [Method.stateAfter, writeGraph_of_ok hprint, ← Method.stateAfter, ← hreport]
      exact ((hwithin.close system .edges).close system .nodes).frame

theorem frame_openFiles : Session.Effect (FileStore.Frame (system.outputs options))
    (openFiles system env output options params g) := by
  refine .bind (frame_openForWriting .nodes) (fun _ => .ite ?_ ?_) .trans
  · exact (Session.effect_dataError _).frame _
  · refine .bind (frame_openForWriting .edges) (fun _ => .ite ?_ ?_) .trans
    · exact (Session.effect_dataError _).frame _
    · exact frame_writeGraph

/-! ## Opening the two files -/

theorem openForWriting_of_opens {path : String} (h : system.opens path = true)
    (w : World (FileStore ι Char)) :
    system.openForWriting path w
      = .ok true { w with files := w.files.truncate (system.identity path) } := if_pos h

theorem openForWriting_of_not_opens {path : String} (h : system.opens path = false)
    (w : World (FileStore ι Char)) : system.openForWriting path w = .ok false w :=
  if_neg (by simp [h])

theorem refuses_openFiles (h : system.opens (outputPath options .nodes) = false)
    (w : World (FileStore ι Char)) :
    (openFiles system env output options params g).Refuses w := by
  have heq : openFiles system env output options params g w
      = dataError (outputPath options .nodes ++ " cannot be opened for writing") w := by
    unfold openFiles
    rw [Method.bind_apply, openForWriting_of_not_opens h]
    rfl
  have hrefuses := Session.refuses_dataError (outputPath options .nodes ++
    " cannot be opened for writing") w
  refine ⟨?_, ?_⟩
  · rw [Method.stateAfter, heq]
    exact hrefuses.1
  · rw [heq]
    exact hrefuses.2

/-- The nodes file stays, empty, when the edges file cannot be opened. -/
theorem openFiles_of_nodes_only (hnodes : system.opens (outputPath options .nodes) = true)
    (hedges : system.opens (outputPath options .edges) = false) (w : World (FileStore ι Char)) :
    openFiles system env output options params g w
      = dataError (outputPath options .edges ++ " cannot be opened for writing")
          { w with files := w.files.truncate (system.identity (outputPath options .nodes)) } := by
  unfold openFiles
  rw [Method.bind_apply, openForWriting_of_opens hnodes]
  show (system.openForWriting (outputPath options .edges) >>= _) _ = _
  rw [Method.bind_apply, openForWriting_of_not_opens hedges]
  rfl

theorem openFiles_of_opens (hopens : ∀ output, system.opens (outputPath options output) = true)
    (w : World (FileStore ι Char)) :
    openFiles system env output options params g w
      = writeGraph system env output options params g
          { w with files := system.bothOpened options w.files } := by
  unfold openFiles
  rw [Method.bind_apply, openForWriting_of_opens (hopens .nodes)]
  show (system.openForWriting (outputPath options .edges) >>= _) _ = _
  rw [Method.bind_apply, openForWriting_of_opens (hopens .edges)]
  rfl

/-- The command does not succeed unless both outputs can be opened. -/
theorem opens_of_openFiles {w w' : World (FileStore ι Char)}
    (h : openFiles system env output options params g w = .ok kExitSuccess w') :
    ∀ output, system.opens (outputPath options output) = true := by
  cases hnodes : system.opens (outputPath options .nodes) with
  | false => exact absurd h ((refuses_openFiles hnodes w).2 w')
  | true =>
      cases hedges : system.opens (outputPath options .edges) with
      | false =>
          rw [openFiles_of_nodes_only hnodes hedges] at h
          exact absurd h ((Session.refuses_dataError _ _).2 w')
      | true => exact OutputFile.forall_of hnodes hedges

end Command

/-! ## The command -/

section Generate

variable {ι F : Type} [DecidableEq ι] [IsFinite F] [Zero F] [One F] [Top F] [UnitArith F]
  [DefaultParams F] [LT F] [DecidableLT F] [LE F] [DecidableLE F] [Add F] [Sub F] [Mul F] [Div F]
  [BEq F]
variable {system : FileSystem ι} {env : Platform (FileStore ι Char) F} {output : NumberOutput F}
  {options : Options}

/-- **The command touches no file but its two outputs**, whatever happens. -/
theorem frame_commandGenerate : Session.Effect (FileStore.Frame (system.outputs options))
    (commandGenerate system env output options) := by
  unfold commandGenerate
  cases generateParams env.fromChars options with
  | error message => exact (Session.effect_usageError message).frame _
  | ok params =>
      refine .bind (Session.effect_get.frame _) (fun w => ?_) .trans
      cases protectedPath system options w.files with
      | some path => exact (Session.effect_dataError _).frame _
      | none =>
          exact .bind ((Session.effect_lift _).frame _) (fun g => frame_openFiles) .trans

/-- What the command has found out when it starts to open files. -/
structure ReadyToOpen (system : FileSystem ι) (env : Platform (FileStore ι Char) F)
    (options : Options) (files : FileStore ι Char) (params : GeneratorParams F) (g : Graph F) :
    Prop where
  params_eq : generateParams env.fromChars options = .ok params
  unprotected : protectedPath system options files = none
  graph_eq : generate env.distance env.std params = .ok g

theorem commandGenerate_of_ready {w : World (FileStore ι Char)} {params : GeneratorParams F}
    {g : Graph F} (h : ReadyToOpen system env options w.files params g) :
    commandGenerate system env output options w
      = openFiles system env output options params g w := by
  unfold commandGenerate
  rw [h.params_eq]
  simp only [Method.bind_apply, Method.get_apply, h.unprotected, h.graph_eq, Method.lift_ok]

/-- **The command is refused, or it goes on to open the files.** -/
theorem commandGenerate_cases (system : FileSystem ι) (env : Platform (FileStore ι Char) F)
    (output : NumberOutput F) (options : Options) (w : World (FileStore ι Char)) :
    (commandGenerate system env output options).Refuses w ∨
      ∃ params g, ReadyToOpen system env options w.files params g ∧
        commandGenerate system env output options w
          = openFiles system env output options params g w := by
  cases hparams : generateParams env.fromChars options with
  | error message =>
      have heq : commandGenerate system env output options = usageError message := by
        unfold commandGenerate
        rw [hparams]
      rw [heq]
      exact Or.inl (Session.refuses_usageError message w)
  | ok params =>
      cases hprotected : protectedPath system options w.files with
      | some path =>
          refine Or.inl ?_
          unfold Session.Refuses Method.stateAfter commandGenerate
          simp only [hparams, Method.bind_apply, Method.get_apply, hprotected]
          exact Session.refuses_dataError _ w
      | none =>
          cases hgraph : generate env.distance env.std params with
          | error e =>
              have hrun : commandGenerate system env output options w = .error e w := by
                unfold commandGenerate
                simp only [hparams, Method.bind_apply, Method.get_apply, hprotected, hgraph,
                  Method.lift_error]
              unfold Session.Refuses Method.stateAfter
              rw [hrun]
              exact Or.inl ⟨rfl, fun _ h => by cases h⟩
          | ok g =>
              have hready : ReadyToOpen system env options w.files params g :=
                ⟨hparams, hprotected, hgraph⟩
              exact Or.inr ⟨params, g, hready, commandGenerate_of_ready hready⟩

/-- **How a successful run went.** -/
theorem exists_of_success {w w' : World (FileStore ι Char)}
    (h : commandGenerate system env output options w = .ok kExitSuccess w') :
    ∃ params g streams, ReadyToOpen system env options w.files params g ∧
      printLattice output params g = .ok streams ∧
      (∀ output, ((writeStreams system options streams
        (system.bothOpened options w.files)).streams output).failed = false) ∧
      w'.files = (writeStreams system options streams
        (system.bothOpened options w.files)).files := by
  rcases commandGenerate_cases system env output options w with hrefuses | ⟨params, g, hready, heq⟩
  · exact absurd h (hrefuses.2 w')
  · rw [heq] at h
    rw [openFiles_of_opens (opens_of_openFiles h)] at h
    cases hprint : printLattice output params g with
    | error e =>
        -- an exception is no exit code
        rw [writeGraph_of_error hprint] at h
        cases h
    | ok streams =>
        rw [writeGraph_of_ok hprint] at h
        have hgood := good_of_reportWritten h
        refine ⟨params, g, streams, hready, hprint, hgood, ?_⟩
        have hfiles := Session.Effect.stateAfter_ok effect_reportWritten h
        rw [← hfiles]
        exact closedFiles_of_good hgood

/-- **When the command succeeds**: both files can be opened and nothing fails afterwards. -/
theorem commandGenerate_succeeds {w : World (FileStore ι Char)} {params : GeneratorParams F}
    {g : Graph F} {streams : OutputStream × OutputStream}
    (hready : ReadyToOpen system env options w.files params g)
    (hopens : ∀ output, system.opens (outputPath options output) = true)
    (hprint : printLattice output params g = .ok streams) (hpasses : g.metric.passes = true)
    (hgood : ∀ output, ((writeStreams system options streams
      (system.bothOpened options w.files)).streams output).failed = false) :
    ∃ out, commandGenerate system env output options w
      = .ok kExitSuccess { w with
          out
          files := (writeStreams system options streams
            (system.bothOpened options w.files)).files } := by
  rw [commandGenerate_of_ready hready, openFiles_of_opens hopens, writeGraph_of_ok hprint,
    closedFiles_of_good hgood]
  exact reportWritten_of_good hpasses hgood _

end Generate

end RouteEngine
