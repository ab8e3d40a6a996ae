import RouteEngine.CsvRoundTrip
import RouteEngine.GenerateOutcome
import RouteEngine.GeneratorDouble

set_option autoImplicit false

/-! # What a successful generate leaves behind

The command compares the normal forms of the two paths and writes to them, while the loader opens
the paths as they were given. When these lead to two files, the graph is loaded again from what
was written (`generate_sound_iff`). When the two paths lead to one file the command still
succeeds, and no graph can be loaded. -/

namespace RouteEngine

/-! ## What is printed -/

section Printed

variable {F : Type}

/-- Numbers survive printing and parsing, and the rate is printed on one line. -/
structure NumberOutput.Faithful [IsFinite F] (output : NumberOutput F)
    (fromChars : Text → Option (F × Text)) : Prop where
  roundTrips : RoundTrips output.toChars fromChars
  rate_line : ∀ x, '\n' ∉ (output.rateText x).toList

theorem not_mem_toString (n : Nat) : '\n' ∉ (toString n).toList := by
  intro hmem
  rw [Nat.toString_eq_repr, Nat.toList_repr] at hmem
  exact absurd (Nat.isDigit_of_mem_toDigits (by decide) (by decide) hmem) (by decide)

/-- A line that starts with `#` is a comment. -/
theorem exists_comment {line : Text} (hstart : line.head? = some '#') (hline : '\n' ∉ line) :
    ∃ comment, '\n' ∉ comment ∧ line = '#' :: comment := by
  cases line with
  | nil => cases hstart
  | cons c comment =>
      cases hstart
      exact ⟨comment, fun hmem => hline (List.mem_cons_of_mem _ hmem), rfl⟩

theorem latticeComment_line (params : GeneratorParams F) :
    (latticeComment params).toList.head? = some '#' ∧ '\n' ∉ (latticeComment params).toList := by
  have hwidth := not_mem_toString params.width.toNat
  have hheight := not_mem_toString params.height.toNat
  have hseed := not_mem_toString params.seed.toNat
  unfold latticeComment
  simp only [String.toList_append, List.mem_append, not_or]
  refine ⟨rfl, ⟨⟨⟨⟨by decide, hwidth⟩, by decide⟩, hheight⟩, by decide⟩, hseed⟩

theorem GeneratorParams.Fits.nodup_externalIds {params : GeneratorParams F}
    (h : params.Fits) : params.externalIds.Nodup := by
  refine List.Nodup.map_on (fun i hi j hj heq => ?_) List.nodup_range
  have hle := h.sites_le
  unfold maxSupportedNodeCount at hle
  rw [List.mem_range] at hi hj
  have hnat := congrArg UInt64.toNat heq
  rw [UInt64.toNat_ofNat_of_lt' (by unfold UInt64.size; omega),
    UInt64.toNat_ofNat_of_lt' (by unfold UInt64.size; omega)] at hnat
  omega

variable [IsFinite F] [Zero F] [One F] [Top F] [UnitArith F] [LT F] [DecidableLT F] [LE F]
  [DecidableLE F] [Add F] [Sub F] [Mul F] [Div F] [FiniteOrder F]
variable {distance : Coord F → Coord F → F} {params : GeneratorParams F} {g : Graph F}
  {std : Comparison.Sorter (GraphBuilder.stagedBefore (F := F))}

/-- A lattice can be written and loaded again. -/
theorem lattice_loadable (h : generate distance std params = .ok g) :
    ∃ staged, g.OverArcs distance staged ∧ g.externalIds.Nodup ∧ g.WeightsDistinguished ∧
      g.metric.passes = true := by
  obtain ⟨husable, hadmits, hpasses, rfl⟩ := GeneratorParams.generate_eq_ok_iff.mp h
  have hfits := husable.toFits
  have hover : (params.latticeGraph distance std).OverArcs distance _ := hfits.overArcs hadmits
  refine ⟨_, hover, hfits.nodup_externalIds, ?_, hpasses⟩
  apply hover.weightsDistinguished
  intro a ha b hb hsource htarget _ _
  -- no two arcs have the same ends
  have hends : ((params.latticeArcs distance).map StagedArc.ends).Nodup := hfits.nodup_ends
  have hsame : a = b := List.inj_on_of_nodup_map hends ((std.perm _).mem_iff.mp ha)
    ((std.perm _).mem_iff.mp hb) (Prod.ext hsource htarget)
  rw [hsame]

/-- The second comment of the edge file. -/
def weightComment : String :=
  " every weight is exactly the Euclidean distance between its endpoints"

/-- **The two texts of the command** make the loader return the generated graph. -/
theorem printLattice_loads {output : NumberOutput F} {fromChars : Text → Option (F × Text)}
    (hnumbers : output.Faithful fromChars) (h : generate distance std params = .ok g) :
    ∃ nodes edges : Text, printLattice output params g = .ok (⟨nodes, false⟩, ⟨edges, false⟩) ∧
      ∀ nodesName edgesName,
        loadGraph fromChars distance std (.ofText nodes) nodesName (.ofText edges) edgesName
          = .ok g := by
  obtain ⟨staged, hover, hids, hweights, -⟩ := lattice_loadable h
  have hline := latticeComment_line params
  rcases exists_comment hline.1 hline.2 with ⟨first, hfirst, hnodes⟩
  obtain ⟨second, hsecond, hedges⟩ : ∃ comment, '\n' ∉ comment ∧
      (latticeComment params ++ " diagonal-rate=" ++ output.rateText params.diagonalRate).toList
        = '#' :: comment := by
    apply exists_comment
    · rw [String.toList_append, String.toList_append, hnodes]
      rfl
    · simp only [String.toList_append, List.mem_append, not_or]
      exact ⟨⟨hline.2, by decide⟩, hnumbers.rate_line _⟩
  have hnc : ∀ c ∈ [first], '\n' ∉ c := by simpa using hfirst
  have hec : ∀ c ∈ [second, weightComment.toList], '\n' ∉ c := by
    intro c hc
    simp only [List.mem_cons, List.not_mem_nil, or_false] at hc
    rcases hc with rfl | rfl
    · exact hsecond
    · decide
  rcases hover.load_written std hnumbers.roundTrips hids hweights hnc hec with
    ⟨nodes, edges, hwrite, hload⟩
  refine ⟨nodes, edges, ?_, hload⟩
  have hnodeText : (latticeComment params ++ "\n").toList = commentLines [first] := by
    rw [String.toList_append, hnodes]
    simp [commentLines, unlines]
  have hlast : "# every weight is exactly the Euclidean distance between its endpoints\n".toList
      = '#' :: (weightComment.toList ++ ['\n']) := by decide
  have hedgeText : (latticeComment params ++ " diagonal-rate="
      ++ output.rateText params.diagonalRate ++ "\n" ++
        "# every weight is exactly the Euclidean distance between its endpoints\n").toList
      = commentLines [second, weightComment.toList] := by
    rw [String.toList_append, String.toList_append, hedges, hlast]
    simp [commentLines, unlines]
  unfold printLattice
  show writeCsv output.toChars g ⟨[] ++ _, false⟩ ⟨[] ++ _, false⟩ = _
  rw [List.nil_append, List.nil_append, hnodeText, hedgeText]
  exact hwrite

end Printed

/-! ## What is loaded -/

section Loaded

variable {ι F : Type} [IsFinite F] [Zero F] [Top F] [LT F] [DecidableLT F] [LE F] [DecidableLE F]
  [Div F]

/-- The platform that opens files through the file system. -/
def FileSystem.platform (system : FileSystem ι) (env : Platform (FileStore ι Char) F) :
    Platform (FileStore ι Char) F :=
  { env with openFile := system.readFile }

variable {system : FileSystem ι} {env : Platform (FileStore ι Char) F}
  {files : FileStore ι Char} {nodesPath edgesPath : String} {g : Graph F}

theorem loadGraphFiles_eq_ok_iff :
    loadGraphFiles (system.platform env) files nodesPath edgesPath = .ok g ↔
      ∃ nodes edges, files.contents (system.identity nodesPath) = some nodes ∧
        files.contents (system.identity edgesPath) = some edges ∧
        loadGraph env.fromChars env.distance env.std (.ofText nodes) nodesPath (.ofText edges)
          edgesPath = .ok g := by
  simp only [loadGraphFiles, FileSystem.platform, FileSystem.readFile]
  cases files.contents (system.identity nodesPath) with
  | none => simp
  | some nodes =>
      cases files.contents (system.identity edgesPath) with
      | none => simp
      | some edges => simp [InputStream.ofText]

variable {fromChars : Text → Option (F × Text)} {distance : Coord F → Coord F → F}
  {std : Comparison.Sorter (GraphBuilder.stagedBefore (F := F))}

/-- A text that is loaded as nodes is not loaded as edges: the headers differ. -/
theorem not_loaded_as_edges {text nodes edges : Text} {n₁ n₂ n₃ n₄ : String} {g g' : Graph F}
    (h : loadGraph fromChars distance std (.ofText text) n₁ (.ofText edges) n₂ = .ok g) :
    loadGraph fromChars distance std (.ofText nodes) n₃ (.ofText text) n₄ ≠ .ok g' := by
  intro h'
  obtain ⟨rows, -, hnodes, -⟩ := files_of_loadGraph h
  obtain ⟨rows', arcs, -, hedges⟩ := files_of_loadGraph h'
  obtain ⟨header, body, hlines, hheader, -⟩ := hnodes.lines
  obtain ⟨header', body', hlines', hheader', -⟩ := hedges.lines
  rw [hlines, List.cons.injEq] at hlines'
  rw [← hlines'.1, ← splitFields_eq_ok_iff, splitFields_eq_ok_iff.mpr hheader] at hheader'
  exact absurd (Except.ok.inj hheader') (by decide)

end Loaded

/-! ## The exit code zero -/

section Success

variable {ι F : Type} [DecidableEq ι] [IsFinite F] [Zero F] [One F] [Top F] [UnitArith F]
  [DefaultParams F] [LT F] [DecidableLT F] [LE F] [DecidableLE F] [Add F] [Sub F] [Mul F] [Div F]
  [BEq F]

/-- If the command succeeds, the two paths lead to different files, and the loader returns the
generated graph from them. -/
def SuccessIsSound (system : FileSystem ι) (env : Platform (FileStore ι Char) F)
    (output : NumberOutput F) (options : Options) (w : World (FileStore ι Char)) : Prop :=
  ∀ w', commandGenerate system env output options w = .ok kExitSuccess w' →
    system.identity (options.text .nodes) ≠ system.identity (options.text .edges) ∧
      ∃ params g, generateParams env.fromChars options = .ok params ∧
        generate env.distance env.std params = .ok g ∧
        loadGraphFiles (system.platform env) w'.files (options.text .nodes) (options.text .edges)
          = .ok g

/-- The options pass the checks, and there is a graph to be written. -/
def Generates (env : Platform (FileStore ι Char) F) (options : Options) : Prop :=
  ∃ params g, generateParams env.fromChars options = .ok params ∧
    generate env.distance env.std params = .ok g

/-- The two normal forms lead to different files, and each to the file of the path given. -/
structure Apart (identity : String → ι) (options : Options) : Prop where
  ne : identity (outputPath options .nodes) ≠ identity (outputPath options .edges)
  normal : ∀ output : OutputFile,
    identity (options.text output.field) = identity (outputPath options output)

omit [DecidableEq ι] in
theorem Apart.injective {identity : String → ι} {options : Options}
    (h : Apart identity options) :
    Function.Injective fun output => identity (outputPath options output) :=
  OutputFile.injective_of_ne h.ne

/-- A file system in which nothing fails. -/
def FileSystem.reliable (identity : String → ι) : FileSystem ι where
  identity
  probeFails _ := false
  opens _ := true
  writes := []
  flush _ := none
  residue _ := []

/-- There are no files. -/
def emptyWorld : World (FileStore ι Char) := ⟨"", "", ⟨fun _ => none, []⟩⟩

variable [FiniteOrder F] {env : Platform (FileStore ι Char) F} {output : NumberOutput F}
  {options : Options} {params : GeneratorParams F} {g : Graph F}

/-- Where nothing fails and there are no files, the command succeeds. -/
theorem succeeds_on_reliable (hnumbers : output.Faithful env.fromChars) (identity : String → ι)
    (hparams : generateParams env.fromChars options = .ok params)
    (hgraph : generate env.distance env.std params = .ok g) :
    ∃ w', commandGenerate (.reliable identity) env output options emptyWorld
      = .ok kExitSuccess w' := by
  obtain ⟨nodes, edges, hprint, -⟩ := printLattice_loads hnumbers hgraph
  obtain ⟨staged, -, -, -, hpasses⟩ := lattice_loadable hgraph
  have hunprotected : protectedPath (.reliable identity) options
      (emptyWorld (ι := ι)).files = none := by
    unfold protectedPath
    split_ifs
    · rfl
    · rfl
  have hready : ReadyToOpen (.reliable identity) env options emptyWorld.files params g :=
    ⟨hparams, hunprotected, hgraph⟩
  have hwrites : (FileSystem.reliable identity).Writes :=
    ⟨fun _ hmem => absurd hmem List.not_mem_nil, fun _ => rfl⟩
  obtain ⟨out, hrun⟩ := commandGenerate_succeeds hready (fun _ => rfl) hprint hpasses
    (fun output => by rw [failed_writeStreams (hwrites.writesTo output)]; cases output <;> rfl)
  exact ⟨_, hrun⟩

/-- **Soundness for paths that lead apart**: what was written is what is loaded. -/
theorem Apart.successIsSound {system : FileSystem ι} (hapart : Apart system.identity options)
    (hnumbers : output.Faithful env.fromChars) (w : World (FileStore ι Char)) :
    SuccessIsSound system env output options w := by
  intro w' hrun
  obtain ⟨params, g, streams, hready, hprint, hgood, hfiles⟩ := exists_of_success hrun
  obtain ⟨nodes, edges, hwritten, hload⟩ := printLattice_loads hnumbers hready.graph_eq
  rw [hprint, Except.ok.injEq] at hwritten
  subst hwritten
  have hcontents := fun output => contents_writeStreams hapart.injective
    (fun output => contents_bothOpened w.files output) (hgood output)
  have hnodes : system.identity (options.text .nodes)
      = system.identity (outputPath options .nodes) := hapart.normal .nodes
  have hedges : system.identity (options.text .edges)
      = system.identity (outputPath options .edges) := hapart.normal .edges
  refine ⟨?_, params, g, hready.params_eq, hready.graph_eq, ?_⟩
  · rw [hnodes, hedges]
    exact hapart.ne
  · rw [loadGraphFiles_eq_ok_iff, hfiles, hnodes, hedges]
    exact ⟨nodes, edges, hcontents .nodes, hcontents .edges, hload _ _⟩

/-- **The paths must lead apart**: already without other files and without failures. -/
theorem apart_of_successIsSound (hnumbers : output.Faithful env.fromChars) {identity : String → ι}
    (hsound : SuccessIsSound (.reliable identity) env output options emptyWorld)
    (hgenerates : Generates env options) : Apart identity options := by
  rcases hgenerates with ⟨params, g, hparams, hgraph⟩
  rcases succeeds_on_reliable hnumbers identity hparams hgraph with ⟨w', hrun⟩
  rcases hsound w' hrun with ⟨hne, -, g', -, -, hload⟩
  rcases loadGraphFiles_eq_ok_iff.mp hload with ⟨nodes, edges, hnodes, hedges, hload⟩
  change w'.files.contents (identity (options.text .nodes)) = _ at hnodes
  change w'.files.contents (identity (options.text .edges)) = _ at hedges
  change identity (options.text .nodes) ≠ identity (options.text .edges) at hne
  -- no file exists but the two that were written
  have hframe := Session.Effect.stateAfter_ok frame_commandGenerate hrun
  have hwritten : ∀ {path text}, w'.files.contents (identity path) = some text →
      ∃ output, identity (outputPath options output) = identity path := by
    intro path text hcontents
    by_contra hnone
    rw [hframe.contents _ hnone] at hcontents
    cases hcontents
  obtain ⟨first, hfirst⟩ := hwritten hnodes
  obtain ⟨second, hsecond⟩ := hwritten hedges
  have hapart : identity (outputPath options .nodes) ≠ identity (outputPath options .edges) := by
    intro hsame
    apply hne
    rw [← hfirst, ← hsecond]
    exact OutputFile.eq_of_eq (f := fun output => identity (outputPath options output)) hsame
      first second
  -- what they hold is what was printed
  obtain ⟨params, g, streams, hready, hprint, hgood, hfiles⟩ := exists_of_success hrun
  obtain ⟨nodes', edges', hprint', hreload⟩ := printLattice_loads hnumbers hready.graph_eq
  rw [hprint, Except.ok.injEq] at hprint'
  subst hprint'
  have hcontents : ∀ output : OutputFile, w'.files.contents (identity (outputPath options output))
      = some (streamOf (⟨nodes', false⟩, ⟨edges', false⟩) output).text := by
    intro output
    rw [hfiles]
    exact contents_writeStreams (OutputFile.injective_of_ne hapart)
      (fun output => contents_bothOpened emptyWorld.files output) (hgood output)
  -- the edges are not loaded as nodes, so each path leads to the file of its own
  have hnodesPath : identity (outputPath options .nodes) = identity (options.text .nodes) := by
    cases first with
    | nodes => exact hfirst
    | edges =>
        rw [← hfirst, hcontents, Option.some.injEq] at hnodes
        subst hnodes
        exact absurd (hreload "" "") (not_loaded_as_edges hload)
  have hedgesPath : identity (outputPath options .edges) = identity (options.text .edges) := by
    cases second with
    | edges => exact hsecond
    | nodes => exact absurd (hnodesPath.symm.trans hsecond) hne
  exact ⟨hapart, OutputFile.forall_of hnodesPath.symm hedgesPath.symm⟩

/-- **When a successful exit is sound.** The command keeps its promise for all contents of the
files and all failures exactly if the normal forms of the two paths lead to different files, and
each path leads to the file of its normal form, whenever there is a graph to be written. From two
paths that lead to one file nothing can be loaded. -/
theorem generate_sound_iff (env : Platform (FileStore ι Char) F) (output : NumberOutput F)
    (hnumbers : output.Faithful env.fromChars) (identity : String → ι) (options : Options) :
    ((∀ system : FileSystem ι, system.identity = identity →
        ∀ w, SuccessIsSound system env output options w) ↔
      (Generates env options → Apart identity options)) ∧
    (identity (options.text .nodes) = identity (options.text .edges) →
      ∀ system : FileSystem ι, system.identity = identity → ∀ files g,
        loadGraphFiles (system.platform env) files (options.text .nodes) (options.text .edges)
          ≠ .ok g) := by
  refine ⟨⟨?_, ?_⟩, ?_⟩
  · intro hsound hgenerates
    exact apart_of_successIsSound hnumbers (hsound (.reliable identity) rfl emptyWorld) hgenerates
  · rintro hcondition system rfl w w' hrun
    obtain ⟨params, g, -, hready, -⟩ := exists_of_success hrun
    have hapart := hcondition ⟨params, g, hready.params_eq, hready.graph_eq⟩
    exact hapart.successIsSound hnumbers w w' hrun
  · rintro hsame system rfl files g hload
    obtain ⟨nodes, edges, hnodes, hedges, hload⟩ := loadGraphFiles_eq_ok_iff.mp hload
    rw [hsame, hedges, Option.some.injEq] at hnodes
    subst hnodes
    exact absurd hload (not_loaded_as_edges hload)

end Success

/-! ## A lattice of two sites -/

/-- The options of a lattice of two sites without jitter. -/
def latticeOptions (nodes edges : String) : Options where
  text
    | .nodes => nodes
    | .edges => edges
    | .width => "2"
    | .height => "1"
    | .seed => "7"
    | .jitter => "0"
    | _ => ""
  force := false

/-- Paths are relative to the directory `/work`. -/
def inWork (path : String) : String := if path.startsWith "/" then path else "/work/" ++ path

/-- The decimal expansion of a number. -/
def decimalText (x : Binary64) : String := String.ofList ((Binary64.toText x).getD [])

def workPlatform : Platform (FileStore String Char) Binary64 where
  fromChars := Binary64.ofText
  distance := gridHypot.length
  std := Comparison.insertionSort _
  openFile _ _ := none
  numberText := decimalText

def workOutput : NumberOutput Binary64 := ⟨Binary64.toText, decimalText⟩

theorem workOutput_faithful : workOutput.Faithful workPlatform.fromChars where
  roundTrips := roundTrips_toText
  rate_line x hmem := by
    change '\n' ∈ (String.ofList ((Binary64.toText x).getD [])).toList at hmem
    rw [String.toList_ofList] at hmem
    cases htext : Binary64.toText x with
    | none =>
        rw [htext] at hmem
        cases hmem
    | some text =>
        rw [htext] at hmem
        exact absurd ((Binary64.mem_toText htext).2 _ hmem) (by decide)

/-- The generator run on options, as a Boolean. -/
theorem generates_of_isSome {ι : Type} {env : Platform (FileStore ι Char) Binary64}
    {options : Options}
    (h : ((generateParams env.fromChars options).toOption.bind fun params =>
      (generate env.distance env.std params).toOption).isSome = true) : Generates env options := by
  cases hparams : generateParams env.fromChars options with
  | error message =>
      rw [hparams] at h
      cases h
  | ok params =>
      cases hgraph : generate env.distance env.std params with
      | error e =>
          rw [hparams] at h
          simp [Except.toOption, hgraph] at h
      | ok g => exact ⟨params, g, hparams, hgraph⟩

theorem generates_latticeOptions :
    Generates workPlatform (latticeOptions "a.csv" "/work/b.csv") ∧
      Generates workPlatform (latticeOptions "a.csv" "/work/a.csv") :=
  ⟨generates_of_isSome (by decide +kernel), generates_of_isSome (by decide +kernel)⟩

/-- Two files in one directory, one of them named by a relative path. -/
theorem generate_sound_iff_apart :
    (∃ w', commandGenerate (.reliable inWork) workPlatform workOutput
        (latticeOptions "a.csv" "/work/b.csv") emptyWorld = .ok kExitSuccess w') ∧
      SuccessIsSound (.reliable inWork) workPlatform workOutput
        (latticeOptions "a.csv" "/work/b.csv") emptyWorld := by
  obtain ⟨params, g, hparams, hgraph⟩ := generates_latticeOptions.1
  have hapart : Apart inWork (latticeOptions "a.csv" "/work/b.csv") := by
    refine ⟨by decide +kernel, fun output => ?_⟩
    cases output <;> decide +kernel
  have hsound := (generate_sound_iff workPlatform workOutput workOutput_faithful inWork
    (latticeOptions "a.csv" "/work/b.csv")).1.mpr (fun _ => hapart)
  exact ⟨succeeds_on_reliable workOutput_faithful inWork hparams hgraph,
    hsound (.reliable inWork) rfl emptyWorld⟩

/-- One file, named by a relative and by an absolute path: the command succeeds. -/
theorem generate_unsound_one_file :
    ¬ ∀ (system : FileSystem String) (options : Options) (w : World (FileStore String Char)),
      SuccessIsSound system workPlatform workOutput options w := by
  intro hsound
  obtain ⟨params, g, hparams, hgraph⟩ := generates_latticeOptions.2
  obtain ⟨w', hrun⟩ := succeeds_on_reliable workOutput_faithful inWork hparams hgraph
  have hsame : inWork "a.csv" = inWork "/work/a.csv" := by decide +kernel
  exact (hsound _ _ _ w' hrun).1 hsame

end RouteEngine
