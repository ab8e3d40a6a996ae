import RouteEngine.Program

set_option autoImplicit false

/-! # Sessions

Calls of the program follow each other over the same files. A network that `generate` has written
lasts: whatever is called afterwards, as long as no other call of `generate` has one of its two
files as an output, the commands go on to load the graph that was generated
(`generated_network_lasts`). -/

namespace RouteEngine

section Program

variable {ι F : Type} [DecidableEq ι] [IsFinite F] [Zero F] [One F] [Top F] [UnitArith F]
  [CostArith F] [DefaultParams F] [LT F] [DecidableLT F] [LE F] [DecidableLE F] [Add F] [Sub F]
  [Mul F] [Div F] [BEq F]

/-- The program over a file system. -/
def FileSystem.program (system : FileSystem ι) (env : Platform (FileStore ι Char) F)
    (output : NumberOutput F) (watch : Stopwatch F) (arguments : List String)
    (w : World (FileStore ι Char)) : Outcome (Nat × World (FileStore ι Char)) :=
  main (system.platform env) (engineCommands system (system.platform env) output watch) arguments w

/-- Calls of the program one after the other: the exit codes, and what is left in the end. -/
def FileSystem.session (system : FileSystem ι) (env : Platform (FileStore ι Char) F)
    (output : NumberOutput F) (watch : Stopwatch F) :
    List (List String) → World (FileStore ι Char) →
      Outcome (List Nat × World (FileStore ι Char))
  | [], w => .ok ([], w)
  | arguments :: calls, w => do
      let (code, w) ← system.program env output watch arguments w
      let (codes, w) ← FileSystem.session system env output watch calls w
      return (code :: codes, w)

end Program

/-! ## What a session keeps -/

section Keeps

variable {ι F : Type} [DecidableEq ι] [IsFinite F] [Zero F] [One F] [Top F] [UnitArith F]
  [CostArith F] [DefaultParams F] [LT F] [DecidableLT F] [LE F] [DecidableLE F] [Add F] [Sub F]
  [Mul F] [Div F] [BEq F] [FiniteOrder F]
variable {system : FileSystem ι} {env : Platform (FileStore ι Char) F} {output : NumberOutput F}
  {format : F → Text}

/-- The arguments do not make `generate` open one of the files. -/
def FileSystem.Spares (system : FileSystem ι) (protect : Set ι) (arguments : List String) : Prop :=
  ∀ rest options, arguments = "generate" :: rest → Options.none.parse rest = .ok options →
    ∀ file ∈ protect, file ∉ system.outputs options

omit [DecidableEq ι] in
/-- A call keeps the files that it spares. -/
theorem KeepsTo.contents_eq {arguments : List String} {before after : FileStore ι Char}
    (h : KeepsTo system arguments before after) {protect : Set ι}
    (hspares : system.Spares protect arguments) {file : ι} (hfile : file ∈ protect) :
    after.contents file = before.contents file := by
  by_cases hgenerate : ∃ rest options, arguments = "generate" :: rest ∧
      Options.none.parse rest = .ok options
  · obtain ⟨rest, options, harguments, hparse⟩ := hgenerate
    exact (h.outputs rest options harguments hparse).contents file
      (hspares rest options harguments hparse file hfile)
  · rw [h.unchanged fun rest options harguments hparse =>
      hgenerate ⟨rest, options, harguments, hparse⟩]

/-- A call of the program returns and keeps the files that it spares. -/
theorem FileSystem.exists_program (hends : SearchesEnd env.distance)
    (hformat : Formats output.toChars format) (watch : Stopwatch F) {protect : Set ι}
    {arguments : List String} (hspares : system.Spares protect arguments)
    (w : World (FileStore ι Char)) :
    ∃ code w', system.program env output watch arguments w = .ok (code, w') ∧
      ∀ file ∈ protect, w'.files.contents file = w.files.contents file := by
  have hends : SearchesEnd (system.platform env).distance := hends
  obtain ⟨code, w', hmain, -, -, hkeeps⟩ :=
    (ends_run hends hformat system watch arguments w).exists_main (.refl _ _ _)
  exact ⟨code, w', hmain, fun file hfile => hkeeps.contents_eq hspares hfile⟩

/-- **A session** returns and keeps the files that all its calls spare. -/
theorem FileSystem.exists_session (hends : SearchesEnd env.distance)
    (hformat : Formats output.toChars format) (watch : Stopwatch F) {protect : Set ι}
    {calls : List (List String)} (hspares : ∀ arguments ∈ calls, system.Spares protect arguments)
    (w : World (FileStore ι Char)) :
    ∃ codes w', system.session env output watch calls w = .ok (codes, w') ∧
      codes.length = calls.length ∧
      ∀ file ∈ protect, w'.files.contents file = w.files.contents file := by
  induction calls generalizing w with
  | nil => exact ⟨[], w, rfl, rfl, fun _ _ => rfl⟩
  | cons arguments calls ih =>
      obtain ⟨code, w₁, hfirst, hkeeps⟩ :=
        exists_program hends hformat watch (hspares arguments (by simp)) w
      obtain ⟨codes, w₂, hrest, hlen, hkeeps'⟩ :=
        ih (fun arguments h => hspares arguments (by simp [h])) w₁
      refine ⟨code :: codes, w₂, ?_, by simp [hlen], fun file hfile => ?_⟩
      · unfold session
        rw [hfirst, ok_bind]
        dsimp only
        rw [hrest]
        rfl
      · rw [hkeeps' file hfile, hkeeps file hfile]

end Keeps

/-! ## A generated network -/

section Network

variable {ι F : Type} [IsFinite F] [Zero F] [Top F] [LT F] [DecidableLT F] [LE F] [DecidableLE F]
  [Div F]

/-- What is loaded depends on the two files only. -/
theorem loadGraphFiles_congr {system : FileSystem ι} (env : Platform (FileStore ι Char) F)
    {files files' : FileStore ι Char} {nodesPath edgesPath : String}
    (hnodes : files'.contents (system.identity nodesPath)
      = files.contents (system.identity nodesPath))
    (hedges : files'.contents (system.identity edgesPath)
      = files.contents (system.identity edgesPath)) :
    loadGraphFiles (system.platform env) files' nodesPath edgesPath
      = loadGraphFiles (system.platform env) files nodesPath edgesPath := by
  simp only [loadGraphFiles, FileSystem.platform, FileSystem.readFile, hnodes, hedges]

namespace GeneratorParams

variable [UnitArith F] [Add F] [Sub F] [Mul F] [FiniteOrder F] {params : GeneratorParams F}
  {distance : Coord F → Coord F → F}
  {std : Comparison.Sorter (GraphBuilder.stagedBefore (F := F))}

/-- The identifiers of the network are the numbers from one on. -/
theorem Fits.exists_externalId_iff (h : params.Fits) (hadmits : params.Admits distance)
    {externalId : ExternalId} :
    (∃ v, (params.latticeGraph distance std).externalId v = .ok externalId) ↔
      1 ≤ externalId.toNat ∧ externalId.toNat ≤ params.sites := by
  have hover : (params.latticeGraph distance std).OverArcs distance _ := h.overArcs hadmits
  have hids : (params.latticeGraph distance std).externalIds = params.externalIds := rfl
  have hsites := h.sites_le
  unfold maxSupportedNodeCount at hsites
  have hword : ∀ i, i < params.sites → (UInt64.ofNat (i + 1)).toNat = i + 1 := fun i hi =>
    UInt64.toNat_ofNat_of_lt' (by simp only [UInt64.size]; omega)
  simp only [externalId_eq_ok_iff hover, hids, externalIds, List.getElem?_map,
    Option.map_eq_some_iff, List.getElem?_eq_some_iff, List.getElem_range, List.length_range]
  constructor
  · rintro ⟨v, i, ⟨hi, rfl⟩, rfl⟩
    rw [hword _ hi]
    omega
  · rintro ⟨hpos, hle⟩
    have hlt : externalId.toNat - 1 < params.sites := by omega
    refine ⟨UInt32.ofNat (externalId.toNat - 1), externalId.toNat - 1, ?_, ?_⟩
    · rw [h.toNat_ofNat hlt]
      exact ⟨hlt, rfl⟩
    · rw [← UInt64.toNat_inj, hword _ hlt]
      omega

end GeneratorParams

end Network

/-! ## How a network is served -/

section Serves

variable {ι F : Type} [DecidableEq ι] [IsFinite F] [Zero F] [One F] [Top F] [UnitArith F]
  [CostArith F] [DefaultParams F] [LT F] [DecidableLT F] [LE F] [DecidableLE F] [Add F] [Sub F]
  [Mul F] [Div F] [BEq F]

/-- The commands that load the two files answer about a network: `validate` reports that the
contract holds, `route` knows the nodes that are numbered from one on and refuses no algorithm,
and `benchmark` takes part unless there is one node only, or no room for the queries. -/
structure FileSystem.Serves (system : FileSystem ι) (env : Platform (FileStore ι Char) F)
    (output : NumberOutput F) (watch : Stopwatch F) (nodesPath edgesPath : String) (sites : Nat)
    (g : Graph F) (w : World (FileStore ι Char)) : Prop where
  load : loadGraphFiles (system.platform env) w.files nodesPath edgesPath = .ok g
  passes : g.metric.passes = true
  validate : ∀ arguments options, Options.GivesAll "validate" validateFields arguments options →
    options.text .nodes = nodesPath → options.text .edges = edgesPath →
    system.program env output watch ("validate" :: arguments) w = .ok (kExitSuccess,
      { w with out := w.out ++ (graphText options g ++ metricText env.numberText g) })
  route : ∀ arguments, ∀ request : RouteRequest, request.Given arguments →
    request.nodes = nodesPath → request.edges = edgesPath →
    ∃ code w', system.program env output watch ("route" :: arguments) w = .ok (code, w') ∧
      (code = kExitData ↔ ¬ ∀ externalId ∈ [request.fromId, request.toId],
        1 ≤ externalId.toNat ∧ externalId.toNat ≤ sites) ∧
      (code ≠ kExitData → code = kExitSuccess ∨ code = kExitNoRoute)
  benchmark : ∀ arguments options params, Options.GivesBenchmark arguments options params →
    options.text .nodes = nodesPath → options.text .edges = edgesPath →
    params.repetitions.toNat ≤ vectorMaxSize →
    ∃ code w', system.program env output watch ("benchmark" :: arguments) w = .ok (code, w') ∧
      (code = kExitData ↔ sites < 2 ∨ params.reserveFailure watch ≠ none) ∧
      (code ≠ kExitData → code = kExitSuccess ∨ code = kExitInternalDisagreement)

variable [FiniteOrder F] {system : FileSystem ι} {env : Platform (FileStore ι Char) F}
  {output : NumberOutput F} {nodesPath edgesPath : String} {g : Graph F}
  {w : World (FileStore ι Char)}

/-- A graph that passes the metric check is served by whoever can load it. -/
theorem serves_of_load (hends : SearchesEnd env.distance) (output : NumberOutput F)
    (watch : Stopwatch F)
    (hload : loadGraphFiles (system.platform env) w.files nodesPath edgesPath = .ok g)
    (hpasses : g.metric.passes = true) {sites : Nat} (hsites : g.nodeCount = sites)
    (hids : ∀ externalId, (∃ v, g.externalId v = .ok externalId) ↔
      1 ≤ externalId.toNat ∧ externalId.toNat ≤ sites) :
    system.Serves env output watch nodesPath edgesPath sites g w := by
  have hends : SearchesEnd (system.platform env).distance := hends
  refine ⟨hload, hpasses, ?_, ?_, ?_⟩
  · rintro arguments options hgives rfl rfl
    have hrun := run_validate_of_gives (system.platform env)
      (engineCommands system (system.platform env) output watch) rfl hgives
    rcases answerValidate_cases (system.platform env) options w with
      ⟨g', staged, hload', -, hanswer⟩ | ⟨file, line, message, herror, -⟩
    · obtain rfl : g = g' := Except.ok.inj (hload.symm.trans hload')
      exact main_of_run_ok ((congrFun hrun w).trans hanswer)
    · rw [hload] at herror
      cases herror
  · rintro arguments request hgiven rfl rfl
    have hrun := run_of_given (system.platform env)
      (engineCommands system (system.platform env) output watch) hgiven
    have hend := answerRoute_ends hends request w
    rw [← hrun] at hend
    generalize hresult : run (system.platform env)
      (engineCommands system (system.platform env) output watch) ("route" :: arguments) w
        = result at hend
    simp only [List.forall_mem_cons, List.not_mem_nil, false_implies, implies_true, and_true,
      ← hids]
    cases hend with
    | notLoaded herror =>
        rw [hload] at herror
        cases herror
    | unknownNode hload' hunknown =>
        obtain rfl := Except.ok.inj (hload.symm.trans hload')
        refine ⟨_, _, main_of_run_ok hresult, iff_of_true rfl ?_, fun hne => absurd rfl hne⟩
        rintro ⟨⟨u, hu⟩, v, hv⟩
        rcases hunknown with hnone | hnone
        · exact hnone u hu
        · exact hnone v hv
    | refused hload' _ _ _ hfails =>
        obtain rfl := Except.ok.inj (hload.symm.trans hload')
        rw [hpasses] at hfails
        cases hfails
    | answered hload' hsource htarget =>
        obtain rfl := Except.ok.inj (hload.symm.trans hload')
        refine ⟨_, _, main_of_run_ok hresult, iff_of_false ?_ (not_not.mpr
          ⟨⟨_, hsource⟩, _, htarget⟩), fun _ => ?_⟩
        · split_ifs <;> decide
        · split_ifs <;> simp
  · rintro arguments options params hgives rfl rfl _
    have hrun : run (system.platform env)
        (engineCommands system (system.platform env) output watch) ("benchmark" :: arguments)
          = answerBenchmark (system.platform env) watch options params :=
      run_benchmark_of_gives rfl hgives
    have hend := answerBenchmark_ends hends watch options hgives.params.queryCount_ne
      hgives.params.repetitions_ne w
    rw [← hrun] at hend
    generalize hresult : run (system.platform env)
      (engineCommands system (system.platform env) output watch) ("benchmark" :: arguments) w
        = result at hend
    -- the benchmark of this graph is run
    have hmeasured : ∀ {g' : Graph F}, loadGraphFiles (system.platform env) w.files
        (options.text .nodes) (options.text .edges) = .ok g' → 2 ≤ g'.nodeCount →
        params.reserveFailure watch = none →
          ¬ (sites < 2 ∨ params.reserveFailure watch ≠ none) := by
      rintro g' hload' h2 hreserve (hfew | hfails)
      · obtain rfl := Except.ok.inj (hload.symm.trans hload')
        exact Nat.not_lt.mpr h2 (hsites ▸ hfew)
      · exact hfails hreserve
    cases hend with
    | notLoaded herror =>
        rw [hload] at herror
        cases herror
    | tooFew hload' hfew =>
        obtain rfl := Except.ok.inj (hload.symm.trans hload')
        exact ⟨_, _, main_of_run_ok hresult, iff_of_true rfl (.inl (hsites ▸ hfew)),
          fun hne => absurd rfl hne⟩
    | refused hload' _ hfails =>
        obtain rfl := Except.ok.inj (hload.symm.trans hload')
        rw [hpasses] at hfails
        cases hfails
    | noRoom _ _ _ hreserve =>
        exact ⟨_, _, main_of_run_error hresult rfl, iff_of_true rfl (.inr (by simp [hreserve])),
          fun hne => absurd rfl hne⟩
    | disagrees hload' h2 _ hreserve =>
        exact ⟨_, _, main_of_run_error hresult rfl,
          iff_of_false (by decide) (hmeasured hload' h2 hreserve), fun _ => .inr rfl⟩
    | reported hload' h2 _ hreserve =>
        exact ⟨_, _, main_of_run_ok hresult,
          iff_of_false (by decide) (hmeasured hload' h2 hreserve), fun _ => .inl rfl⟩

end Serves

/-- **A generated network lasts**, on doubles. When `generate` has returned zero for two paths
that lead to different files, then after every later session whose calls do not make `generate`
write to these two files, the commands that load them answer about the graph that was
generated. -/
theorem generated_network_lasts {ι : Type} [DecidableEq ι] (system : FileSystem ι)
    (env : Platform (FileStore ι Char) Binary64) (hdistance : UnsignedDistance env.distance)
    (output : NumberOutput Binary64) (hnumbers : output.Faithful env.fromChars)
    (watch : Stopwatch Binary64) (rest : List String) (options : Options)
    (hparse : Options.none.parse rest = .ok options) (hapart : Apart system.identity options)
    (w w₁ : World (FileStore ι Char))
    (hrun : system.program env output watch ("generate" :: rest) w = .ok (kExitSuccess, w₁)) :
    ∃ params g, generateParams env.fromChars options = .ok params ∧
      generate env.distance env.std params = .ok g ∧
      ∀ calls, (∀ arguments ∈ calls, system.Spares (system.outputs options) arguments) →
        ∃ codes w₂, system.session env output watch calls w₁ = .ok (codes, w₂) ∧
          codes.length = calls.length ∧
          system.Serves env output watch (options.text .nodes) (options.text .edges) params.sites g
            w₂ := by
  have hends := searchesEnd_doubles hdistance
  have hformat : Formats output.toChars (formatOf output.toChars) :=
    fun _ hx => (formatOf_spec hnumbers.roundTrips hx).1
  have hsound : SuccessIsSound system (system.platform env) output options w :=
    hapart.successIsSound hnumbers w
  have hsuccess := (main_eq_ok hrun).2 rfl
  rw [run_generate_of_ok _ _ hparse] at hsuccess
  obtain ⟨-, params, g, hparams, hgraph, hload⟩ := hsound w₁ hsuccess
  refine ⟨params, g, hparams, hgraph, fun calls hcalls => ?_⟩
  obtain ⟨codes, w₂, hsession, hlen, hkeeps⟩ :=
    FileSystem.exists_session hends hformat watch hcalls w₁
  refine ⟨codes, w₂, hsession, hlen, ?_⟩
  -- the two files are as `generate` left them
  have hsame : ∀ output : OutputFile,
      w₂.files.contents (system.identity (options.text output.field))
        = w₁.files.contents (system.identity (options.text output.field)) := by
    intro output
    rw [hapart.normal]
    exact hkeeps _ ⟨output, rfl⟩
  obtain ⟨husable, hadmits, hpasses, rfl⟩ := GeneratorParams.generate_eq_ok_iff.mp hgraph
  refine serves_of_load hends output watch ?_ hpasses params.length_coordinates
    (fun externalId => husable.exists_externalId_iff hadmits)
  exact (loadGraphFiles_congr env (hsame .nodes) (hsame .edges)).trans hload

/-- The options of a lattice of two sites. -/
def latticeGroups (nodes edges : String) : List OptionGroup :=
  [.value .width "2", .value .height "1", .value .seed "7", .value .jitter "0",
    .value .nodes nodes, .value .edges edges]

/-- A lattice is written and then checked. -/
theorem generated_network_lasts_validate :
    ∃ w₁ g codes w₂, FileSystem.program (.reliable inWork) workPlatform workOutput evenStopwatch
        ("generate" :: latticeArguments "a.csv" "/work/b.csv") emptyWorld
        = .ok (kExitSuccess, w₁) ∧
      FileSystem.session (.reliable inWork) workPlatform workOutput evenStopwatch
        [["validate", "--nodes", "a.csv", "--edges", "b.csv"]] w₁ = .ok (codes, w₂) ∧
      FileSystem.Serves (.reliable inWork) workPlatform workOutput evenStopwatch "a.csv"
        "/work/b.csv" 2 g w₂ := by
  obtain ⟨w₁, hrun⟩ : ∃ w₁, FileSystem.program (.reliable inWork) workPlatform workOutput
      evenStopwatch ("generate" :: latticeArguments "a.csv" "/work/b.csv") emptyWorld
      = .ok (kExitSuccess, w₁) := by
    have hcode : (FileSystem.program (.reliable inWork) workPlatform workOutput evenStopwatch
        ("generate" :: latticeArguments "a.csv" "/work/b.csv") emptyWorld).map Prod.fst
        = .ok kExitSuccess := by
      decide +kernel
    obtain ⟨⟨code, w₁⟩, hrun, rfl⟩ := map_eq_ok.mp hcode
    exact ⟨w₁, hrun⟩
  have hnodup : ((latticeGroups "a.csv" "/work/b.csv").map OptionGroup.label).Nodup := by decide
  have hwell : Options.WellFormed [.width, .height, .seed, .jitter, .nodes, .edges] true
      (latticeGroups "a.csv" "/work/b.csv") := Options.wellFormed_of_gives hnodup (by decide)
  have hparse : Options.none.parse (latticeArguments "a.csv" "/work/b.csv")
      = .ok ((latticeGroups "a.csv" "/work/b.csv").foldl Options.apply Options.none) :=
    Options.parse_words (Options.accepts_none_iff.mpr ⟨hnodup, hwell.value_ne⟩)
  have hapart : Apart inWork ((latticeGroups "a.csv" "/work/b.csv").foldl Options.apply
      Options.none) := by
    refine ⟨by decide +kernel, fun output => ?_⟩
    cases output <;> decide +kernel
  obtain ⟨params, g, hparams, -, hlasts⟩ := generated_network_lasts (.reliable inWork)
    workPlatform gridHypot_unsigned workOutput workOutput_faithful evenStopwatch _ _ hparse hapart
    emptyWorld w₁ hrun
  obtain ⟨codes, w₂, hsession, -, hserves⟩ := hlasts
    [["validate", "--nodes", "a.csv", "--edges", "b.csv"]] (by simp [FileSystem.Spares])
  have hsites : params.sites = 2 := by
    have hread : (generateParams workPlatform.fromChars ((latticeGroups "a.csv"
        "/work/b.csv").foldl Options.apply Options.none)).map GeneratorParams.sites = .ok 2 := by
      decide +kernel
    rw [hparams] at hread
    exact Except.ok.inj hread
  rw [hsites] at hserves
  exact ⟨w₁, g, codes, w₂, hrun, hsession, hserves⟩

end RouteEngine
