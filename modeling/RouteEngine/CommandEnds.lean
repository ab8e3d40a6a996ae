import RouteEngine.BenchmarkSearches
import RouteEngine.ValidateCommand

set_option autoImplicit false

/-! # How the commands route and generate end

`generate` throws validation errors only (`generate_cases`). Once the arguments are taken, `route`
ends in one of four ways (`answerRoute_ends`), and `generate` in one of five, refused arguments
included (`commandGenerate_ends`). Both hold for any arithmetic in which searches end and numbers
can be printed. -/

namespace RouteEngine

/-! ## Calls that throw validation errors only -/

/-- The call returns a value with the property, or throws a `GraphValidationError`. -/
def Yields {α : Type} (P : α → Prop) : Outcome α → Prop
  | .ok a => P a
  | .error e => ∃ message, e = .graphValidation message

section Yields

variable {α β : Type} {P : α → Prop} {Q : β → Prop}

theorem Yields.bind {x : Outcome α} {f : α → Outcome β} (hx : Yields P x)
    (hf : ∀ a, P a → Yields Q (f a)) : Yields Q (x >>= f) := by
  cases x with
  | ok a => exact hf a hx
  | error e => exact hx

/-- A value that is returned may be taken for the one that was returned. -/
theorem Yields.of_map {x : Outcome α} {f : α → β} (h : Yields Q (x.map f)) :
    Yields (fun a => x = .ok a) x := by
  cases x with
  | ok a => exact rfl
  | error e => exact h

/-- A loop whose rounds keep an invariant. -/
theorem Yields.foldlM {f : β → α → Outcome β} {l : List α}
    (hround : ∀ b a, a ∈ l → Q b → Yields Q (f b a)) {b : β} (hb : Q b) :
    Yields Q (l.foldlM f b) := by
  induction l generalizing b with
  | nil => exact hb
  | cons a l ih =>
      rw [List.foldlM_cons]
      refine (hround b a (by simp) hb).bind fun b' hb' => ?_
      exact ih (fun b a ha => hround b a (by simp [ha])) hb'

end Yields

/-! ## The errors of generate -/

section Generate

variable {F : Type} [IsFinite F] [Zero F] [LT F] [DecidableLT F]

/-- A call of a member function keeps the builder valid, or throws a validation error. -/
theorem BuilderCall.yields {m : Method (GraphBuilder F) Unit} {b : GraphBuilder F} (hb : b.Valid)
    (call : BuilderCall F)
    (h : m b = match call.failure b with
      | some e => .error e b
      | none => .ok () (call.update b)) :
    Yields GraphBuilder.Valid ((m.call b).map Prod.snd) := by
  unfold Method.call
  rw [h]
  cases hf : call.failure b with
  | some e => exact call.failure_validation hf
  | none => exact valid_update hb hf

namespace GeneratorParams

variable [UnitArith F] [Add F] [Sub F] [Mul F] {distance : Coord F → Coord F → F}
  {params : GeneratorParams F}

/-- The passes throw validation errors only. -/
theorem Fits.yields_runPasses (h : params.Fits) {b : GraphBuilder F} (hb : b.Valid) :
    Yields (fun s => runPasses distance params b = .ok s) (runPasses distance params b) := by
  refine Yields.of_map (f := Lattice.builder) (Q := GraphBuilder.Valid) ?_
  rw [runPasses_eq distance h]
  have hplace : ∀ (b : GraphBuilder F) i, i ∈ List.range params.sites → b.Valid →
      Yields GraphBuilder.Valid (params.place b i) := by
    intro b i _ hb
    exact BuilderCall.yields hb (.setNode _ (params.siteAt i) _)
      (GraphBuilder.setNode_eq b hb.assigned_length _ _ _)
  have hstage : ∀ (b : GraphBuilder F) a, a ∈ params.latticeArcs distance → b.Valid →
      Yields GraphBuilder.Valid (b.stage a) := by
    intro b a _ hb
    exact BuilderCall.yields hb (.addArc a.source a.target a.weight)
      (GraphBuilder.addArc_eq b _ _ _)
  exact (Yields.foldlM hplace hb).bind fun b' hb' => Yields.foldlM hstage hb'

variable [One F] [Top F] [LE F] [DecidableLE F] [Div F] [FiniteOrder F]

/-- **`generate` throws validation errors only.** -/
theorem generate_cases (distance : Coord F → Coord F → F)
    (std : Comparison.Sorter (GraphBuilder.stagedBefore (F := F))) (params : GeneratorParams F) :
    (∃ g, generate distance std params = .ok g) ∨
      ∃ message, generate distance std params = .error (.graphValidation message) := by
  suffices h : Yields (fun _ => True) (generate distance std params) by
    cases hrun : generate distance std params with
    | ok g => exact .inl ⟨g, rfl⟩
    | error e =>
        rw [hrun] at h
        obtain ⟨message, rfl⟩ := h
        exact .inr ⟨message, rfl⟩
  unfold generate
  by_cases hvalid : validateGeneratorParams params = ""
  swap
  · rw [if_pos (by simpa using hvalid)]
    exact ⟨_, rfl⟩
  have husable := validateGeneratorParams_eq_empty_iff.mp hvalid
  have hnew : (GraphBuilder.new params.sites : Outcome (GraphBuilder F))
      = .ok (GraphBuilder.fresh params.sites) := by
    rw [GraphBuilder.new, validateNodeCapacity, if_neg (Nat.not_lt.mpr husable.sites_le)]
    rfl
  rw [if_neg (by simp [hvalid])]
  simp only [pure_eq_ok, husable.toNat_mul, hnew, ok_bind]
  refine (husable.yields_runPasses (GraphBuilder.valid_new hnew)).bind fun s hs => ?_
  -- the passes have filled the builder, so that the build succeeds
  obtain ⟨hadmits, hfilled⟩ := husable.runPasses_eq_ok_iff.mp
    (congrArg (Except.map Lattice.builder) hs)
  rw [hfilled, husable.build_lattice std hadmits, ok_bind]
  change Yields _ (if (!(params.latticeGraph distance std).metric.passes) = true then _ else _)
  split_ifs
  · exact ⟨_, rfl⟩
  · trivial

end GeneratorParams

end Generate

/-! ## Printing -/

/-- The function prints a text on the output and returns a value. -/
def Session.Prints {Φ α : Type} (a : α) (text : String) (m : Session Φ α) : Prop :=
  ∀ w, m w = .ok a { w with out := w.out ++ text }

section Prints

variable {Φ α β : Type}

namespace Session

theorem prints_pure (a : α) : Prints a "" (pure a : Session Φ α) := by
  intro w
  simp

theorem prints_printOut (text : String) : Prints () text (printOut text : Session Φ Unit) :=
  fun _ => rfl

theorem Prints.bind {m : Session Φ α} {f : α → Session Φ β} {a : α} {b : β} {text more : String}
    (hm : Prints a text m) (hf : Prints b more (f a)) : Prints b (text ++ more) (m >>= f) := by
  intro w
  rw [Method.bind_apply, hm w]
  dsimp only
  rw [hf, String.append_assoc]

end Session

end Prints

theorem dataError_eq {Φ : Type} (message : String) (w : World Φ) :
    dataError message w = .ok kExitData
      { w with err := w.err ++ ("route-engine: " ++ (message ++ "\n")) } := by
  simp [dataError, printErr, String.append_assoc]

theorem usageError_eq {Φ : Type} (message : String) (w : World Φ) :
    usageError message w = .ok kExitUsage
      { w with err := w.err ++ ("route-engine: " ++ (message ++ "\n\n" ++ usageText)) } := by
  simp [usageError, printErr, String.append_assoc]

/-! ## The command route -/

section Route

theorem contains_of_externalId {F : Type} {g : Graph F} {v : NodeId} {externalId : ExternalId}
    (h : g.externalId v = .ok externalId) : g.contains v = true := by
  rw [g.contains_iff]
  by_contra hlt
  exact externalId_ne_of_not_lt hlt _ h

variable {Φ F : Type} [IsFinite F] [Zero F] [One F] [Top F] [Add F] [Sub F] [Mul F] [Div F] [LT F]
  [DecidableLT F] [LE F] [DecidableLE F] [BEq F] [CostArith F]
variable {env : Platform Φ F} {request : RouteRequest} {w : World Φ}

omit [IsFinite F] [Zero F] [One F] [Top F] [Add F] [Sub F] [Mul F] [Div F] [LT F] [DecidableLT F]
  [LE F] [DecidableLE F] [BEq F] [CostArith F] in
/-- The texts that are printed about a route, one after the other. -/
theorem routeText_eq (request : RouteRequest) (costText : String) (g : Graph F)
    (path : List NodeId) (stats : SearchStats) :
    "algorithm:        " ++ algorithmName request.algorithm ++ "\n" ++
        "from:             " ++ toString request.fromId.toNat ++ "\n" ++
        "to:               " ++ toString request.toId.toNat ++ "\n" ++
      ("route:            found\n" ++ "total cost:       " ++ costText ++ "\n" ++
          "nodes on path:    " ++ toString path.length ++ "\n" ++ "path:             " ++
        ((if 0 ≠ 0 ∧ path ≠ [] then " -> " else "") ++ pathText (path.map (idAt g)) ++
          ("\n" ++ (statsText stats ++ ""))))
      = routeText request costText (path.map (idAt g)) stats := by
  unfold routeText queryText
  rw [if_neg (by simp), List.length_map]
  simp only [String.append_assoc, String.empty_append, String.append_empty]

/-- What is printed about the result of a search. -/
def resultText (env : Platform Φ F) (request : RouteRequest) (g : Graph F)
    (result : SearchResult F) : String :=
  if result.status = .found then
    routeText request (env.numberText result.cost) (result.path.map (idAt g)) result.stats
  else noRouteText request result.stats

/-- How `command_route` ends on a request. -/
inductive RouteEnd (env : Platform Φ F) (request : RouteRequest) (w : World Φ) :
    EStateM.Result Failure (World Φ) Nat → Prop where
  | notLoaded {file : String} {line : Nat} {message : String} :
      loadGraphFiles env w.files request.nodes request.edges
        = .error (.graphLoad file line message) →
      RouteEnd env request w (.error (.graphLoad file line message) w)
  | unknownNode {g : Graph F} {message : String} :
      loadGraphFiles env w.files request.nodes request.edges = .ok g →
      ((∀ v, g.externalId v ≠ .ok request.fromId) ∨ ∀ v, g.externalId v ≠ .ok request.toId) →
      RouteEnd env request w
        (.ok kExitData { w with err := w.err ++ ("route-engine: " ++ message) })
  | refused {g : Graph F} {source target : NodeId} :
      loadGraphFiles env w.files request.nodes request.edges = .ok g →
      g.externalId source = .ok request.fromId → g.externalId target = .ok request.toId →
      request.algorithm = .astarEuclidean → g.metric.passes = false →
      RouteEnd env request w (.error (heuristicContractError g.metric.violatingArcs) w)
  | answered {g : Graph F} {source target : NodeId} {result : SearchResult F} :
      loadGraphFiles env w.files request.nodes request.edges = .ok g →
      g.externalId source = .ok request.fromId → g.externalId target = .ok request.toId →
      (request.algorithm = .astarEuclidean → g.metric.passes = true) →
      runSearch env.distance g source target request.algorithm = .ok result →
      RouteEnd env request w (.ok (if result.status = .found then kExitSuccess else kExitNoRoute)
        { w with out := w.out ++ resultText env request g result })

/-- **The command ends in one of four ways.** -/
theorem answerRoute_ends [FiniteOrder F] (hends : SearchesEnd env.distance)
    (request : RouteRequest) (w : World Φ) :
    RouteEnd env request w (answerRoute env request.nodes request.edges request.fromId
      request.toId request.algorithm w) := by
  unfold answerRoute
  rcases loadGraphFiles_cases env w.files request.nodes request.edges with
    ⟨g, staged, hload, hover, -⟩ | ⟨file, line, message, herror⟩
  swap
  · simpa [herror] using RouteEnd.notLoaded herror
  simp only [Method.bind_apply, Method.get_apply, hload, Method.lift_ok]
  rcases findNode_cases hover request.fromId with ⟨source, hfind, hsource⟩ | ⟨hnone, hall⟩
  swap
  · simp only [hnone, Method.lift_ok, dataError_eq]
    exact .unknownNode hload (.inl hall)
  simp only [hfind, Method.lift_ok, Method.bind_apply]
  rcases findNode_cases hover request.toId with ⟨target, hfind, htarget⟩ | ⟨hnone, hall⟩
  swap
  · simp only [hnone, Method.lift_ok, dataError_eq]
    exact .unknownNode hload (.inr hall)
  simp only [hfind, Method.lift_ok]
  rw [Method.bind_apply]
  have hs := contains_of_externalId hsource
  have ht := contains_of_externalId htarget
  by_cases hrefused : request.algorithm = .astarEuclidean ∧ g.metric.passes = false
  · obtain ⟨halgorithm, hfails⟩ := hrefused
    rw [halgorithm, runSearch_refused hs ht hfails]
    exact .refused hload hsource htarget halgorithm hfails
  have hpass : request.algorithm = .astarEuclidean → g.metric.passes = true :=
    fun h => Bool.eq_true_of_not_eq_false (fun hfails => hrefused ⟨h, hfails⟩)
  obtain ⟨result, hresult, hroute⟩ := hends g staged hover source target hs ht request.algorithm
    hpass
  simp only [hresult, Method.lift_ok]
  -- what is left prints the answer
  have hanswer : ∀ {m : Session Φ Nat}, Session.Prints
      (if result.status = .found then kExitSuccess else kExitNoRoute)
        (resultText env request g result) m → RouteEnd env request w (m w) := by
    intro m hprints
    rw [hprints w]
    exact .answered hload hsource htarget hpass hresult
  by_cases hfound : result.status = .found
  · have hids : ∀ v ∈ result.path, g.externalId v = .ok (idAt g v) := fun v hv =>
      hover.externalId_eq ((g.contains_iff v).mp ((hroute hfound).1 v hv))
    rw [if_neg (by simp [SearchResult.found, hfound])]
    rw [resultText, if_pos hfound, if_pos hfound] at hanswer
    rw [← routeText_eq] at hanswer
    exact hanswer (.bind (Session.prints_printOut _) (.bind (Session.prints_printOut _)
      (.bind (printPath_eq hids 0) (.bind (Session.prints_printOut _)
        (.bind (Session.prints_printOut _) (Session.prints_pure _))))))
  · rw [if_pos (by simp [SearchResult.found, hfound])]
    rw [resultText, if_neg hfound, if_neg hfound] at hanswer
    have htext : queryText request ++ ("route:            not found\n" ++
        (statsText result.stats ++ "")) = noRouteText request result.stats := by
      unfold noRouteText
      simp only [String.append_assoc, String.append_empty]
    rw [← htext] at hanswer
    exact hanswer (.bind (Session.prints_printOut _) (.bind (Session.prints_printOut _)
      (.bind (Session.prints_printOut _) (Session.prints_pure _))))

end Route

/-! ## The command generate -/

section GenerateCommand

variable {ι F : Type} [DecidableEq ι] [IsFinite F] [Zero F] [One F] [Top F] [UnitArith F]
  [DefaultParams F] [LT F] [DecidableLT F] [LE F] [DecidableLE F] [Add F] [Sub F] [Mul F] [Div F]
  [BEq F]
variable {system : FileSystem ι} {env : Platform (FileStore ι Char) F} {output : NumberOutput F}
  {options : Options} {format : F → Text}

/-- How `command_generate` ends. -/
inductive GenerateEnd (system : FileSystem ι) (env : Platform (FileStore ι Char) F)
    (options : Options) (w : World (FileStore ι Char)) :
    EStateM.Result Failure (World (FileStore ι Char)) Nat → Prop where
  | notTaken {problem message : String} :
      generateParams env.fromChars options = .error problem →
      GenerateEnd system env options w
        (.ok kExitUsage { w with err := w.err ++ ("route-engine: " ++ message) })
  | alreadyThere {params : GeneratorParams F} {path message : String} :
      generateParams env.fromChars options = .ok params →
      protectedPath system options w.files = some path →
      GenerateEnd system env options w
        (.ok kExitData { w with err := w.err ++ ("route-engine: " ++ message) })
  | notGenerated {params : GeneratorParams F} {message : String} :
      generateParams env.fromChars options = .ok params →
      protectedPath system options w.files = none →
      generate env.distance env.std params = .error (.graphValidation message) →
      GenerateEnd system env options w (.error (.graphValidation message) w)
  | notWritten {params : GeneratorParams F} {g : Graph F} {message : String}
      {files : FileStore ι Char} :
      ReadyToOpen system env options w.files params g →
      ((∀ output, system.opens (outputPath options output) = true) → ¬ system.Writes) →
      GenerateEnd system env options w
        (.ok kExitData ⟨w.out, w.err ++ ("route-engine: " ++ message), files⟩)
  | written {params : GeneratorParams F} {g : Graph F} {text : String}
      {files : FileStore ι Char} :
      ReadyToOpen system env options w.files params g →
      (∀ output, system.opens (outputPath options output) = true) → text ≠ "" →
      GenerateEnd system env options w (.ok kExitSuccess ⟨w.out ++ text, w.err, files⟩)

variable [FiniteOrder F]

omit [DecidableEq ι] [DefaultParams F] in
/-- The summary of a generated graph can be printed. -/
theorem prints_printSummary (options : Options) {params : GeneratorParams F} {g : Graph F}
    (h : generate env.distance env.std params = .ok g) :
    ∃ text, text ≠ "" ∧ Session.Prints () text (printSummary env options params g) := by
  obtain ⟨staged, hover, -⟩ := lattice_loadable h
  refine ⟨_, ?_, .bind (Session.prints_printOut _) (printMetricReport_eq hover _)⟩
  simp

/-- How the command ends once its checks have passed. -/
theorem openFiles_ends (hformat : Formats output.toChars format) {w : World (FileStore ι Char)}
    {params : GeneratorParams F} {g : Graph F}
    (hready : ReadyToOpen system env options w.files params g) :
    GenerateEnd system env options w (openFiles system env output options params g w) := by
  cases hnodes : system.opens (outputPath options .nodes) with
  | false =>
      unfold openFiles
      rw [Method.bind_apply, openForWriting_of_not_opens hnodes]
      simp only [Bool.not_false, if_true, dataError_eq]
      exact .notWritten hready fun hopens => absurd (hopens .nodes) (by simp [hnodes])
  | true =>
  cases hedges : system.opens (outputPath options .edges) with
  | false =>
      rw [openFiles_of_nodes_only hnodes hedges, dataError_eq]
      exact .notWritten hready fun hopens => absurd (hopens .edges) (by simp [hedges])
  | true =>
      have hopens : ∀ output, system.opens (outputPath options output) = true :=
        OutputFile.forall_of hnodes hedges
      obtain ⟨streams, hprint, hgood⟩ := printLattice_good hformat hready.graph_eq
      rw [openFiles_of_opens hopens, writeGraph_of_ok hprint]
      generalize hs : writeStreams system options streams (system.bothOpened options w.files) = s
      -- a stream that has failed was written to by a file system that fails
      have hfails : ∀ output, (s.streams output).failed = true → ¬ system.Writes := by
        intro output hfailed hwrites
        rw [← hs, failed_writeStreams (hwrites.writesTo output), hgood] at hfailed
        cases hfailed
      unfold reportWritten
      split_ifs with hnodesFailed hedgesFailed
      · rw [dataError_eq]
        exact .notWritten hready fun _ => hfails .nodes hnodesFailed
      · rw [dataError_eq]
        exact .notWritten hready fun _ => hfails .edges hedgesFailed
      · obtain ⟨text, hne, hsummary⟩ := prints_printSummary options hready.graph_eq
        rw [hsummary.bind (Session.prints_pure kExitSuccess)]
        exact .written hready hopens (by simpa using hne)

/-- **The command ends in one of five ways.** -/
theorem commandGenerate_ends (hformat : Formats output.toChars format) (system : FileSystem ι)
    (env : Platform (FileStore ι Char) F) (options : Options) (w : World (FileStore ι Char)) :
    GenerateEnd system env options w (commandGenerate system env output options w) := by
  cases hparams : generateParams env.fromChars options with
  | error problem =>
      unfold commandGenerate
      simp only [hparams, usageError_eq]
      exact .notTaken hparams
  | ok params =>
  cases hprotected : protectedPath system options w.files with
  | some path =>
      unfold commandGenerate
      simp only [hparams, Method.bind_apply, Method.get_apply, hprotected, dataError_eq]
      exact .alreadyThere hparams hprotected
  | none =>
  rcases GeneratorParams.generate_cases env.distance env.std params with
    ⟨g, hgraph⟩ | ⟨message, herror⟩
  · have hready : ReadyToOpen system env options w.files params g := ⟨hparams, hprotected, hgraph⟩
    rw [commandGenerate_of_ready hready]
    exact openFiles_ends hformat hready
  · unfold commandGenerate
    simp only [hparams, Method.bind_apply, Method.get_apply, hprotected, herror,
      Method.lift_error]
    exact .notGenerated hparams hprotected herror

end GenerateCommand

end RouteEngine
