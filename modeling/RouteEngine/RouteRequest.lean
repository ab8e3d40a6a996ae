import RouteEngine.BuilderSpec
import RouteEngine.CliOptions
import RouteEngine.CsvFormat

set_option autoImplicit false

/-! # Requests to the command route

What a request to `route` is (`RouteRequest.Given`): the arguments are the five options of the
command, in any order, with values of the right form. On these `run` goes on to answer the
request (`run_of_given`), on all others `main` reports a usage error (`main_of_not_given`), and
neither depends on a file. -/

namespace RouteEngine

/-! ## Requests -/

/-- What the command `route` is asked for. -/
structure RouteRequest where
  nodes : String
  edges : String
  fromId : ExternalId
  toId : ExternalId
  algorithm : Algorithm

/-- The five options of a request, with the texts of its two identifiers. -/
def RouteRequest.groups (request : RouteRequest) (fromText toText : String) : List OptionGroup :=
  [.value .nodes request.nodes, .value .edges request.edges, .value .source fromText,
    .value .target toText, .value .algorithm (algorithmName request.algorithm)]

/-- The arguments after the subcommand are the five options, in any order. -/
def RouteRequest.Given (request : RouteRequest) (arguments : List String) : Prop :=
  ∃ (fromText toText : String) (groups : List OptionGroup),
    request.nodes ≠ "" ∧ request.edges ≠ "" ∧
    IsDecimal fromText.toList request.fromId ∧ IsDecimal toText.toList request.toId ∧
    groups.Perm (request.groups fromText toText) ∧ arguments = groups.flatMap OptionGroup.words

theorem parseAlgorithm_eq_some_iff {name : String} {algorithm : Algorithm} :
    parseAlgorithm name = some algorithm ↔ name = algorithmName algorithm := by
  constructor
  · intro h
    unfold parseAlgorithm at h
    split_ifs at h with h1 h2 h3
    · cases h
      exact h1
    · cases h
      exact h2
    · cases h
      exact h3
  · rintro rfl
    cases algorithm <;> decide

theorem parseInteger_eq_some_iff {text : String} {value : ExternalId} :
    parseInteger text = some value ↔ IsDecimal text.toList value := by
  rw [← fromCharsU64_eq_some_iff]
  unfold parseInteger
  cases fromCharsU64 text.toList with
  | none => simp
  | some read =>
      cases read with
      | mk v rest => cases rest <;> simp

theorem IsDecimal.text_ne {text : String} {value : ExternalId} (h : IsDecimal text.toList value) :
    text ≠ "" := by
  rintro rfl
  exact h.ne_nil rfl

/-- The options that `route` accepts. -/
def routeKeys : List String := ["--nodes", "--edges", "--from", "--to", "--algorithm"]

/-- The options hold the request, and nothing that `route` does not take. -/
structure RouteRequest.Held (request : RouteRequest) (options : Options) : Prop where
  accepted : options.rejectUnaccepted "route" routeKeys false = ""
  nodes : options.text .nodes = request.nodes ∧ request.nodes ≠ ""
  edges : options.text .edges = request.edges ∧ request.edges ≠ ""
  fromId : IsDecimal (options.text .source).toList request.fromId
  toId : IsDecimal (options.text .target).toList request.toId
  algorithm : options.text .algorithm = algorithmName request.algorithm

/-- No member is set twice. -/
theorem RouteRequest.nodup_groups (request : RouteRequest) (fromText toText : String) :
    ((request.groups fromText toText).map OptionGroup.label).Nodup := by
  show [some OptionField.nodes, some .edges, some .source, some .target, some .algorithm].Nodup
  decide

theorem mem_routeKeys_iff {field : OptionField} :
    field.key ∈ routeKeys ↔ field = .nodes ∨ field = .edges ∨ field = .source ∨
      field = .target ∨ field = .algorithm := by
  cases field <;> decide

theorem RouteRequest.mem_groups {request : RouteRequest} {fromText toText : String}
    {group : OptionGroup} :
    group ∈ request.groups fromText toText ↔ group = .value .nodes request.nodes ∨
      group = .value .edges request.edges ∨ group = .value .source fromText ∨
      group = .value .target toText ∨
      group = .value .algorithm (algorithmName request.algorithm) := by
  simp [RouteRequest.groups]

theorem algorithmName_ne (algorithm : Algorithm) : algorithmName algorithm ≠ "" := by
  cases algorithm <;> decide

/-- The arguments of a request are parsed into options that hold it. -/
theorem RouteRequest.Given.exists_held {request : RouteRequest} {arguments : List String}
    (h : request.Given arguments) :
    ∃ options, Options.none.parse arguments = .ok options ∧ request.Held options := by
  rcases h with ⟨fromText, toText, groups, hnodes, hedges, hfrom, hto, hperm, rfl⟩
  have hmem : ∀ group, group ∈ groups ↔ group ∈ request.groups fromText toText :=
    fun _ => hperm.mem_iff
  have hnodup : (groups.map OptionGroup.label).Nodup :=
    (hperm.map OptionGroup.label).nodup_iff.mpr (request.nodup_groups fromText toText)
  have haccepts : Options.none.Accepts groups := by
    refine ⟨hnodup, ?_, ?_⟩
    · intro group _
      cases group <;> simp [OptionGroup.label, Options.Given, Options.none]
    · intro field text hgroup
      have hgroup := RouteRequest.mem_groups.mp ((hmem _).mp hgroup)
      simp only [OptionGroup.value.injEq] at hgroup
      rcases hgroup with ⟨-, rfl⟩ | ⟨-, rfl⟩ | ⟨-, rfl⟩ | ⟨-, rfl⟩ | ⟨-, rfl⟩
      · exact hnodes
      · exact hedges
      · exact hfrom.text_ne
      · exact hto.text_ne
      · exact algorithmName_ne _
  have htext : ∀ field text, .value field text ∈ request.groups fromText toText →
      (groups.foldl Options.apply Options.none).text field = text := by
    intro field text hgroup
    exact Options.text_foldl_of_mem hnodup ((hmem _).mpr hgroup)
  refine ⟨groups.foldl Options.apply Options.none, Options.parse_words haccepts, ?_, ?_, ?_, ?_,
    ?_, ?_⟩
  · -- every option that was given is one of the command's
    rw [Options.rejectUnaccepted_eq_empty_iff]
    constructor
    · intro field hfield
      have hgroup := (hmem _).mp (Options.mem_of_text_foldl hnodup hfield)
      rw [RouteRequest.mem_groups] at hgroup
      simp only [OptionGroup.value.injEq] at hgroup
      apply mem_routeKeys_iff.mpr
      tauto
    · intro hforce
      rcases Options.force_foldl.mp hforce with hfalse | hgroup
      · cases hfalse
      · have hgroup := RouteRequest.mem_groups.mp ((hmem _).mp hgroup)
        simp at hgroup
  · exact ⟨htext _ _ (by simp [RouteRequest.groups]), hnodes⟩
  · exact ⟨htext _ _ (by simp [RouteRequest.groups]), hedges⟩
  · rw [htext .source fromText (by simp [RouteRequest.groups])]
    exact hfrom
  · rw [htext .target toText (by simp [RouteRequest.groups])]
    exact hto
  · exact htext _ _ (by simp [RouteRequest.groups])

/-- Options that hold a request were parsed from its arguments. -/
theorem RouteRequest.Held.given {request : RouteRequest} {arguments : List String}
    {options : Options} (hparse : Options.none.parse arguments = .ok options)
    (h : request.Held options) : request.Given arguments := by
  rcases Options.parse_eq_ok_iff.mp hparse with ⟨groups, rfl, haccepts, rfl⟩
  rcases Options.rejectUnaccepted_eq_empty_iff.mp h.accepted with ⟨hkeys, hforce⟩
  refine ⟨_, _, groups, h.nodes.2, h.edges.2, h.fromId, h.toId, ?_, rfl⟩
  apply (List.perm_ext_iff_of_nodup (haccepts.nodup.of_map _)
    ((request.nodup_groups _ _).of_map _)).mpr
  intro group
  rw [RouteRequest.mem_groups, ← h.nodes.1, ← h.edges.1, ← h.algorithm]
  constructor
  · intro hgroup
    cases group with
    | force => exact absurd (hforce (Options.force_foldl.mpr (.inr hgroup))) (by decide)
    | value field text =>
        have htext : (groups.foldl Options.apply Options.none).text field = text :=
          Options.text_foldl_of_mem haccepts.nodup hgroup
        have hkey := hkeys field (by rw [htext]; exact haccepts.value_ne _ _ hgroup)
        subst htext
        rcases mem_routeKeys_iff.mp hkey with rfl | rfl | rfl | rfl | rfl <;> simp
  · have hmem : ∀ field, (groups.foldl Options.apply Options.none).text field ≠ "" →
        .value field ((groups.foldl Options.apply Options.none).text field) ∈ groups :=
      fun _ => Options.mem_of_text_foldl haccepts.nodup
    rintro (rfl | rfl | rfl | rfl | rfl)
    · exact hmem .nodes (by rw [h.nodes.1]; exact h.nodes.2)
    · exact hmem .edges (by rw [h.edges.1]; exact h.edges.2)
    · exact hmem .source h.fromId.text_ne
    · exact hmem .target h.toId.text_ne
    · exact hmem .algorithm (by rw [h.algorithm]; exact algorithmName_ne _)

/-! ## The options -/

section Options

variable {Φ F : Type} [IsFinite F] [Zero F] [Top F] [LT F] [DecidableLT F] [LE F] [DecidableLE F]
  [Div F] [Add F] [BEq F]
variable (env : Platform Φ F) (others : OtherCommands Φ) {request : RouteRequest}
  {arguments : List String} (w : World Φ)

/-- `command_route` on options that hold a request. -/
theorem commandRoute_of_held {options : Options} (h : request.Held options) :
    commandRoute env options = answerRoute env request.nodes request.edges request.fromId
      request.toId request.algorithm := by
  have haccepted := h.accepted
  unfold routeKeys at haccepted
  have hnodes : options.text .nodes ≠ "" := by rw [h.nodes.1]; exact h.nodes.2
  have hedges : options.text .edges ≠ "" := by rw [h.edges.1]; exact h.edges.2
  have halgorithm : options.text .algorithm ≠ "" := by
    rw [h.algorithm]
    exact algorithmName_ne _
  have hfrom := parseInteger_eq_some_iff.mpr h.fromId
  have hto := parseInteger_eq_some_iff.mpr h.toId
  have hparse := parseAlgorithm_eq_some_iff.mpr h.algorithm
  unfold commandRoute
  simp only [haccepted, hparse, hfrom, hto, h.nodes.1, h.edges.1]
  simp [h.nodes.2, h.edges.2, h.fromId.text_ne, h.toId.text_ne, halgorithm]

/-- `command_route` on other options is a usage error, whatever the files hold. -/
theorem commandRoute_of_not_held {options : Options}
    (h : ∀ request : RouteRequest, ¬ request.Held options) :
    ∃ message, ∀ env : Platform Φ F, commandRoute env options = usageError message := by
  by_cases haccepted : options.rejectUnaccepted "route" routeKeys false = ""
  swap
  · refine ⟨options.rejectUnaccepted "route" routeKeys false, fun env => ?_⟩
    unfold routeKeys at haccepted ⊢
    simp [commandRoute, haccepted]
  have haccepted' := haccepted
  unfold routeKeys at haccepted'
  by_cases hmissing : options.text .nodes = "" ∨ options.text .edges = "" ∨
      options.text .source = "" ∨ options.text .target = "" ∨ options.text .algorithm = ""
  · refine ⟨"route requires --nodes, --edges, --from, --to and --algorithm", fun env => ?_⟩
    simp only [commandRoute, haccepted', Bool.or_eq_true, String.isEmpty_iff, or_assoc]
    simp [hmissing]
  -- every option was given, so one of the three texts is not understood
  unfold commandRoute
  simp only [haccepted', Bool.or_eq_true, String.isEmpty_iff, or_assoc, if_neg hmissing]
  simp only [not_or] at hmissing
  cases halgorithm : parseAlgorithm (options.text .algorithm) with
  | none => exact ⟨_, fun _ => rfl⟩
  | some algorithm =>
  cases hfrom : parseInteger (options.text .source) with
  | none => exact ⟨_, fun _ => rfl⟩
  | some fromId =>
  cases hto : parseInteger (options.text .target) with
  | none => exact ⟨_, fun _ => rfl⟩
  | some toId =>
      apply absurd ?_ (h ⟨options.text .nodes, options.text .edges, fromId, toId, algorithm⟩)
      exact ⟨haccepted, ⟨rfl, hmissing.1⟩, ⟨rfl, hmissing.2.1⟩, parseInteger_eq_some_iff.mp hfrom,
        parseInteger_eq_some_iff.mp hto, parseAlgorithm_eq_some_iff.mp halgorithm⟩

theorem run_route_of_ok {options : Options} (h : Options.none.parse arguments = .ok options) :
    run env others ("route" :: arguments) = commandRoute env options := by
  simp [run, h]

theorem run_route_of_error {message : String}
    (h : Options.none.parse arguments = .error message) :
    run env others ("route" :: arguments) = usageError message := by
  simp [run, h]

theorem run_of_given (h : request.Given arguments) :
    run env others ("route" :: arguments) = answerRoute env request.nodes request.edges
      request.fromId request.toId request.algorithm := by
  rcases h.exists_held with ⟨options, hparse, hheld⟩
  rw [run_route_of_ok env others hparse]
  exact commandRoute_of_held env hheld

/-- Without a request `main` reports a usage error, whatever the files hold. -/
theorem main_of_not_given (h : ∀ request : RouteRequest, ¬ request.Given arguments) :
    ∃ message, ∀ (env : Platform Φ F) (others : OtherCommands Φ) (w : World Φ),
      main env others ("route" :: arguments) w
        = .ok (kExitUsage, { w with err := w.err ++ message }) := by
  have husage : ∃ message, ∀ (env : Platform Φ F) (others : OtherCommands Φ),
      run env others ("route" :: arguments) = usageError message := by
    cases hparse : Options.none.parse arguments with
    | error message => exact ⟨message, fun env others => run_route_of_error env others hparse⟩
    | ok options =>
        rcases commandRoute_of_not_held (Φ := Φ) (F := F)
          (fun request hheld => h request (hheld.given hparse)) with ⟨message, hmessage⟩
        refine ⟨message, fun env others => ?_⟩
        rw [run_route_of_ok env others hparse]
        exact hmessage env
  rcases husage with ⟨message, hmessage⟩
  refine ⟨"route-engine: " ++ message ++ "\n\n" ++ usageText, fun env others w => ?_⟩
  unfold main
  rw [hmessage]
  simp [usageError, printErr, String.append_assoc]

end Options

end RouteEngine
