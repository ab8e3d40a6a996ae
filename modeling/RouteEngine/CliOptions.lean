import RouteEngine.Cli

set_option autoImplicit false

/-! # What the option parser accepts

The arguments that `parse` accepts are a sequence of groups, `--force` or an option with its
value, and no group is repeated (`parse_eq_ok_iff`). With the check of `reject_unaccepted` they
are the sequences that a command takes (`taken_iff`): the options afterwards hold the values of
the groups, in whatever order the groups stand. -/

namespace RouteEngine

/-- The option that a member belongs to. -/
def OptionField.key : OptionField → String
  | .nodes => "--nodes"
  | .edges => "--edges"
  | .source => "--from"
  | .target => "--to"
  | .algorithm => "--algorithm"
  | .width => "--width"
  | .height => "--height"
  | .seed => "--seed"
  | .spacing => "--spacing"
  | .jitter => "--jitter"
  | .diagonalRate => "--diagonal-rate"
  | .queries => "--queries"
  | .repetitions => "--repetitions"

/-- `--force`, or an option with its value. -/
inductive OptionGroup where
  | force
  | value (field : OptionField) (text : String)

namespace OptionGroup

def words : OptionGroup → List String
  | .force => ["--force"]
  | .value field text => [field.key, text]

/-- What a group sets: a member, or the flag. -/
def label : OptionGroup → Option OptionField
  | .force => none
  | .value field _ => some field

end OptionGroup

namespace Options

/-- The options after a group. -/
def apply (options : Options) : OptionGroup → Options
  | .force => { options with force := true }
  | .value field text => options.set field text

/-- The member or the flag was set before. -/
def Given (options : Options) : Option OptionField → Prop
  | .none => options.force = true
  | some field => options.text field ≠ ""

/-- The groups can follow the options: nothing is set twice and no value is empty. -/
structure Accepts (options : Options) (groups : List OptionGroup) : Prop where
  nodup : (groups.map OptionGroup.label).Nodup
  unset : ∀ group ∈ groups, ¬ options.Given group.label
  value_ne : ∀ field text, .value field text ∈ groups → text ≠ ""

/-! ## The table of options -/

theorem slotFor_eq_some_iff {key : String} {field : OptionField} :
    slotFor key = some field ↔ key = field.key := by
  constructor
  · intro h
    have hall : ∀ slot ∈ slots, slot.1 = slot.2.key := by decide
    rcases List.lookup_eq_some_iff.mp h with ⟨before, after, hslots, -⟩
    apply hall (key, field)
    rw [hslots]
    simp
  · rintro rfl
    cases field <;> rfl

theorem startsWith_key (field : OptionField) : field.key.startsWith "--" = true := by
  cases field <;> decide +kernel

theorem key_ne_force (field : OptionField) : field.key ≠ "--force" := by
  cases field <;> decide

/-! ## Groups and options -/

theorem text_set (options : Options) (field other : OptionField) (value : String) :
    (options.set field value).text other = if other = field then value else options.text other :=
  rfl

/-- A group with its value gives what it is labelled with, and nothing else. -/
theorem given_apply {options : Options} {group : OptionGroup}
    (hvalue : ∀ field text, group = .value field text → text ≠ "") (l : Option OptionField) :
    (options.apply group).Given l ↔ l = group.label ∨ options.Given l := by
  cases group with
  | force => cases l <;> simp [apply, Given, OptionGroup.label]
  | value field text =>
      have htext : text ≠ "" := hvalue field text rfl
      cases l with
      | none => simp [apply, Given, OptionGroup.label, set]
      | some other =>
          by_cases hother : other = field
          · simp [apply, Given, OptionGroup.label, text_set, hother, htext]
          · simp [apply, Given, OptionGroup.label, text_set, hother]

theorem accepts_nil (options : Options) : options.Accepts [] :=
  ⟨List.nodup_nil, by simp, by simp⟩

theorem accepts_cons {options : Options} {group : OptionGroup} {groups : List OptionGroup} :
    options.Accepts (group :: groups) ↔
      ¬ options.Given group.label ∧ (∀ field text, group = .value field text → text ≠ "") ∧
        (options.apply group).Accepts groups := by
  constructor
  · intro h
    have hvalue : ∀ field text, group = .value field text → text ≠ "" := by
      intro field text hgroup
      apply h.value_ne field text
      simp [hgroup]
    have hnodup := List.nodup_cons.mp h.nodup
    refine ⟨h.unset group (by simp), hvalue, hnodup.2, ?_, ?_⟩
    · intro other hother hgiven
      rcases (given_apply hvalue _).mp hgiven with hlabel | hgiven
      · exact hnodup.1 (hlabel ▸ List.mem_map_of_mem hother)
      · exact h.unset other (List.mem_cons_of_mem _ hother) hgiven
    · intro field text hmem
      exact h.value_ne field text (List.mem_cons_of_mem _ hmem)
  · rintro ⟨hunset, hvalue, h⟩
    refine ⟨List.nodup_cons.mpr ⟨?_, h.nodup⟩, ?_, ?_⟩
    · intro hmem
      rcases List.mem_map.mp hmem with ⟨other, hother, hlabel⟩
      exact h.unset other hother ((given_apply hvalue _).mpr (.inl hlabel))
    · intro other hother
      rcases List.mem_cons.mp hother with rfl | hother
      · exact hunset
      · intro hgiven
        exact h.unset other hother ((given_apply hvalue _).mpr (.inr hgiven))
    · intro field text hmem
      rcases List.mem_cons.mp hmem with hgroup | hmem
      · exact hvalue field text hgroup.symm
      · exact h.value_ne field text hmem

/-! ## The parser -/

/-- The parser reads a sequence of groups. -/
theorem parse_words {groups : List OptionGroup} {options : Options}
    (h : options.Accepts groups) :
    parse (groups.flatMap OptionGroup.words) options = .ok (groups.foldl apply options) := by
  induction groups generalizing options with
  | nil => rfl
  | cons group groups ih =>
      rcases accepts_cons.mp h with ⟨hunset, hvalue, hrest⟩
      have hih := ih hrest
      cases group with
      | force =>
          have hforce : options.force = false := by simpa [Given, OptionGroup.label] using hunset
          have hstart : "--force".startsWith "--" = true := by decide +kernel
          rw [List.flatMap_cons]
          simp only [OptionGroup.words, List.cons_append, List.nil_append, parse, hforce, hstart]
          exact hih
      | value field text =>
          have hempty : options.text field = "" := by simpa [Given, OptionGroup.label] using hunset
          have htext : text ≠ "" := hvalue field text rfl
          rw [List.flatMap_cons]
          simp only [OptionGroup.words, List.cons_append, List.nil_append, parse, startsWith_key,
            key_ne_force, slotFor_eq_some_iff.mpr rfl, hempty]
          simpa [htext, apply] using hih

/-- What the parser accepts is a sequence of groups. -/
theorem exists_groups {arguments : List String} {options options' : Options}
    (h : parse arguments options = .ok options') :
    ∃ groups : List OptionGroup, arguments = groups.flatMap OptionGroup.words ∧
      options.Accepts groups ∧ options' = groups.foldl apply options := by
  -- a case for each branch of the parser: the end of the arguments, the flag and an option with
  -- its value go on, and the others throw
  fun_induction parse arguments options with
  | case1 options => exact ⟨[], rfl, accepts_nil options, by simpa using h.symm⟩
  | case2 => cases h
  | case3 => cases h
  | case4 rest options hforce _ ih =>
      rcases ih h with ⟨groups, hrest, haccepts, hfold⟩
      refine ⟨.force :: groups, by simp [hrest, OptionGroup.words], accepts_cons.mpr ⟨?_, ?_, ?_⟩,
        hfold⟩
      · simpa [Given, OptionGroup.label] using hforce
      · intro field text hgroup
        cases hgroup
      · exact haccepts
  | case5 => cases h
  | case6 => cases h
  | case7 => cases h
  | case8 => cases h
  | case9 key options _ _ field hslot value rest hunset hvalue ih =>
      -- the value is taken whatever it is, also when it looks like an option
      rcases ih h with ⟨groups, hrest, haccepts, hfold⟩
      have hkey : key = field.key := slotFor_eq_some_iff.mp hslot
      refine ⟨.value field value :: groups, by simp [hrest, hkey, OptionGroup.words],
        accepts_cons.mpr ⟨?_, ?_, haccepts⟩, hfold⟩
      · simpa [Given, OptionGroup.label] using hunset
      · rintro _ _ ⟨⟩
        simpa using hvalue

/-- The parser accepts exactly the sequences of groups that can follow the options. -/
theorem parse_eq_ok_iff {arguments : List String} {options options' : Options} :
    parse arguments options = .ok options' ↔
      ∃ groups : List OptionGroup, arguments = groups.flatMap OptionGroup.words ∧
        options.Accepts groups ∧ options' = groups.foldl apply options := by
  constructor
  · exact exists_groups
  · rintro ⟨groups, rfl, haccepts, rfl⟩
    exact parse_words haccepts

/-! ## The options after the parser -/

theorem text_apply (options : Options) (group : OptionGroup) (field : OptionField) :
    (options.apply group).text field = options.text field ∨
      ∃ text, group = .value field text ∧ (options.apply group).text field = text := by
  cases group with
  | force => exact .inl rfl
  | value other text =>
      by_cases hfield : field = other
      · subst hfield
        exact .inr ⟨text, rfl, by simp [apply, text_set]⟩
      · exact .inl (by simp [apply, text_set, hfield])

/-- A member that no group sets keeps its text. -/
theorem text_foldl_of_not_mem {groups : List OptionGroup} {options : Options}
    {field : OptionField} (h : some field ∉ groups.map OptionGroup.label) :
    (groups.foldl apply options).text field = options.text field := by
  induction groups generalizing options with
  | nil => rfl
  | cons group groups ih =>
      rw [List.map_cons, List.mem_cons, not_or] at h
      rw [List.foldl_cons, ih h.2]
      rcases text_apply options group field with hkeep | ⟨text, rfl, -⟩
      · exact hkeep
      · exact absurd rfl h.1

/-- A member holds the value that its group gives it. -/
theorem text_foldl_of_mem {groups : List OptionGroup} {options : Options}
    (hnodup : (groups.map OptionGroup.label).Nodup) {field : OptionField} {text : String}
    (h : .value field text ∈ groups) : (groups.foldl apply options).text field = text := by
  induction groups generalizing options with
  | nil => cases h
  | cons group groups ih =>
      rw [List.map_cons, List.nodup_cons] at hnodup
      rw [List.foldl_cons]
      rcases List.mem_cons.mp h with rfl | h
      · rw [text_foldl_of_not_mem hnodup.1]
        simp [apply, text_set]
      · exact ih hnodup.2 h

theorem force_foldl {groups : List OptionGroup} {options : Options} :
    (groups.foldl apply options).force = true ↔ options.force = true ∨ .force ∈ groups := by
  induction groups generalizing options with
  | nil => simp
  | cons group groups ih =>
      rw [List.foldl_cons, ih]
      cases group <;> simp [apply, set]

/-- Only a group gives a member that was empty a text. -/
theorem mem_of_text_foldl {groups : List OptionGroup} {field : OptionField}
    (hnodup : (groups.map OptionGroup.label).Nodup)
    (h : (groups.foldl apply Options.none).text field ≠ "") :
    .value field ((groups.foldl apply Options.none).text field) ∈ groups := by
  have hmem : some field ∈ groups.map OptionGroup.label := by
    by_contra hnot
    exact h (text_foldl_of_not_mem hnot)
  rcases List.mem_map.mp hmem with ⟨group, hgroup, hlabel⟩
  cases group with
  | force => cases hlabel
  | value other text =>
      have hfield : other = field := Option.some.inj hlabel
      subst hfield
      rw [text_foldl_of_mem hnodup hgroup]
      exact hgroup

/-! ## Options that a command does not take -/

/-- `reject_unaccepted` returns the empty string exactly when every given option is accepted. -/
theorem rejectUnaccepted_eq_empty_iff {options : Options} {command : String}
    {accepted : List String} {acceptsForce : Bool} :
    options.rejectUnaccepted command accepted acceptsForce = "" ↔
      (∀ field, options.text field ≠ "" → field.key ∈ accepted) ∧
        (options.force = true → acceptsForce = true) := by
  -- the messages are not empty, whatever the command is called
  have hmessage : ∀ key : String, command ++ " does not accept \"" ++ key ++ "\"" ≠ "" := by
    intro key h
    exact absurd (String.append_eq_empty_iff.mp h).2 (by decide)
  have hforceMessage : command ++ " does not accept \"--force\"" ≠ "" := by
    intro h
    exact absurd (String.append_eq_empty_iff.mp h).2 (by decide)
  have hslot : ∀ field : OptionField, (field.key, field) ∈ slots := by
    intro field
    cases field <;> decide
  have hkey : ∀ slot ∈ slots, slot.1 = slot.2.key := by decide
  unfold rejectUnaccepted
  cases hfind : slots.find?
      (fun slot => !(options.text slot.2).isEmpty && !accepted.contains slot.1) with
  | some slot =>
      have htest := List.find?_some hfind
      have hmem := List.mem_of_find?_eq_some hfind
      simp only [Bool.and_eq_true, Bool.not_eq_true', String.isEmpty_eq_false_iff] at htest
      simp only [hmessage, false_iff, not_and]
      intro hall
      have haccepted := hall slot.2 htest.1
      rw [← hkey slot hmem] at haccepted
      simp [haccepted] at htest
  | none =>
      have hall : ∀ field, options.text field ≠ "" → field.key ∈ accepted := by
        intro field hfield
        have htest := List.find?_eq_none.mp hfind _ (hslot field)
        simpa [hfield] using htest
      rw [and_iff_right hall]
      cases options.force <;> cases acceptsForce <;> simp [hforceMessage]

/-! ## What a command takes -/

/-- The groups a command takes: no option and no flag twice, every value given and of an option
that is accepted, and the flag only where it is. -/
structure WellFormed (accepted : List OptionField) (acceptsForce : Bool)
    (groups : List OptionGroup) : Prop where
  nodup : (groups.map OptionGroup.label).Nodup
  value_ne : ∀ field text, .value field text ∈ groups → text ≠ ""
  accepted : ∀ field text, .value field text ∈ groups → field ∈ accepted
  force : .force ∈ groups → acceptsForce = true

/-- The options hold exactly the values of the groups. -/
structure Holds (options : Options) (groups : List OptionGroup) : Prop where
  given : ∀ field text, .value field text ∈ groups → options.text field = text
  others : ∀ field, (∀ text, .value field text ∉ groups) → options.text field = ""
  force : options.force = true ↔ .force ∈ groups

/-- The parser reads the arguments as the options, and the command accepts them. -/
def TakenBy (command : String) (accepted : List OptionField) (acceptsForce : Bool)
    (arguments : List String) (options : Options) : Prop :=
  parse arguments none = .ok options ∧
    options.rejectUnaccepted command (accepted.map OptionField.key) acceptsForce = ""

theorem key_injective {field other : OptionField} (h : field.key = other.key) :
    field = other := by
  have hslot := slotFor_eq_some_iff.mpr h
  rw [slotFor_eq_some_iff.mpr rfl, Option.some.injEq] at hslot
  exact hslot

theorem key_mem_map_iff {field : OptionField} {accepted : List OptionField} :
    field.key ∈ accepted.map OptionField.key ↔ field ∈ accepted := by
  constructor
  · intro h
    rcases List.mem_map.mp h with ⟨other, hother, hkey⟩
    exact key_injective hkey ▸ hother
  · exact List.mem_map_of_mem

/-- No two options hold the same groups. -/
theorem Holds.unique {options options' : Options} {groups : List OptionGroup}
    (h : options.Holds groups) (h' : options'.Holds groups) : options = options' := by
  have htext : options.text = options'.text := by
    funext field
    by_cases hgiven : ∃ text, .value field text ∈ groups
    · rcases hgiven with ⟨text, hmem⟩
      rw [h.given field text hmem, h'.given field text hmem]
    · have hnot : ∀ text, .value field text ∉ groups := not_exists.mp hgiven
      rw [h.others field hnot, h'.others field hnot]
  have hforce : options.force = options'.force := Bool.eq_iff_iff.mpr (h.force.trans h'.force.symm)
  rcases options with ⟨text, force⟩
  rcases options' with ⟨text', force'⟩
  exact congrArg₂ Options.mk htext hforce

/-- The order of the groups does not matter. -/
theorem Holds.perm {options : Options} {groups groups' : List OptionGroup}
    (h : options.Holds groups) (hperm : groups.Perm groups') : options.Holds groups' := by
  constructor
  · intro field text hmem
    exact h.given field text (hperm.mem_iff.mpr hmem)
  · intro field hnot
    apply h.others field
    intro text hmem
    exact hnot text (hperm.mem_iff.mp hmem)
  · rw [h.force]
    exact hperm.mem_iff

theorem WellFormed.perm {accepted : List OptionField} {acceptsForce : Bool}
    {groups groups' : List OptionGroup} (h : WellFormed accepted acceptsForce groups)
    (hperm : groups.Perm groups') : WellFormed accepted acceptsForce groups' := by
  refine ⟨(hperm.map _).nodup_iff.mp h.nodup, ?_, ?_, ?_⟩
  · intro field text hmem
    exact h.value_ne field text (hperm.mem_iff.mpr hmem)
  · intro field text hmem
    exact h.accepted field text (hperm.mem_iff.mpr hmem)
  · intro hmem
    exact h.force (hperm.mem_iff.mpr hmem)

/-- The groups are folded into the options that hold them. -/
theorem holds_foldl {groups : List OptionGroup} (hnodup : (groups.map OptionGroup.label).Nodup) :
    (groups.foldl apply Options.none).Holds groups := by
  constructor
  · intro field text hmem
    exact text_foldl_of_mem hnodup hmem
  · intro field hnot
    by_contra htext
    exact hnot _ (mem_of_text_foldl hnodup htext)
  · rw [force_foldl]
    exact or_iff_right (by simp [Options.none])

/-- Nothing is given before the first group. -/
theorem accepts_none_iff {groups : List OptionGroup} :
    Options.none.Accepts groups ↔ (groups.map OptionGroup.label).Nodup ∧
      ∀ field text, .value field text ∈ groups → text ≠ "" := by
  constructor
  · intro h
    exact ⟨h.nodup, h.value_ne⟩
  · rintro ⟨hnodup, hvalue⟩
    refine ⟨hnodup, ?_, hvalue⟩
    intro group _
    cases group <;> simp [Options.none, Given, OptionGroup.label]

section Taken

variable {command : String} {accepted : List OptionField} {acceptsForce : Bool}
  {groups : List OptionGroup} {options : Options}

/-- The command takes every well-formed sequence of groups, as the options that hold it. -/
theorem WellFormed.taken (h : WellFormed accepted acceptsForce groups)
    (hholds : options.Holds groups) :
    TakenBy command accepted acceptsForce (groups.flatMap OptionGroup.words) options := by
  have hparse := parse_words (accepts_none_iff.mpr ⟨h.nodup, h.value_ne⟩)
  rw [(holds_foldl h.nodup).unique hholds] at hparse
  refine ⟨hparse, rejectUnaccepted_eq_empty_iff.mpr ⟨?_, ?_⟩⟩
  · intro field hfield
    rw [key_mem_map_iff]
    by_contra hnot
    apply hfield
    apply hholds.others
    intro text hmem
    exact hnot (h.accepted field text hmem)
  · intro hforce
    exact h.force (hholds.force.mp hforce)

/-- What the command takes is a well-formed sequence of groups, held by the options. -/
theorem TakenBy.exists_groups {arguments : List String}
    (h : TakenBy command accepted acceptsForce arguments options) :
    ∃ groups, WellFormed accepted acceptsForce groups ∧
      arguments = groups.flatMap OptionGroup.words ∧ options.Holds groups := by
  rcases h with ⟨hparse, hreject⟩
  rcases Options.exists_groups hparse with ⟨groups, harguments, haccepts, hfold⟩
  rcases rejectUnaccepted_eq_empty_iff.mp hreject with ⟨hkeys, hforce⟩
  have hholds : options.Holds groups := hfold ▸ holds_foldl haccepts.nodup
  refine ⟨groups, ⟨haccepts.nodup, haccepts.value_ne, ?_, ?_⟩, harguments, hholds⟩
  · intro field text hmem
    have htext : options.text field ≠ "" := by
      rw [hholds.given field text hmem]
      exact haccepts.value_ne field text hmem
    exact key_mem_map_iff.mp (hkeys field htext)
  · intro hmem
    exact hforce (hholds.force.mpr hmem)

end Taken

/-- Equal words come from equal groups: an option takes the word after it as its value,
whatever that word is. -/
theorem words_injective {groups groups' : List OptionGroup}
    (h : groups.flatMap OptionGroup.words = groups'.flatMap OptionGroup.words) :
    groups = groups' := by
  -- the first word of a group decides what it is
  induction groups generalizing groups' with
  | nil =>
      rcases groups' with _ | ⟨_ | ⟨field, text⟩, groups'⟩
      · rfl
      · cases h
      · cases h
  | cons group groups ih =>
      rcases group with _ | ⟨field, text⟩
      · rcases groups' with _ | ⟨_ | ⟨field', text'⟩, groups'⟩
        · cases h
        · rw [ih (List.cons.inj h).2]
        · exact absurd (List.cons.inj h).1.symm (key_ne_force field')
      · rcases groups' with _ | ⟨_ | ⟨field', text'⟩, groups'⟩
        · cases h
        · exact absurd (List.cons.inj h).1 (key_ne_force field)
        · rcases List.cons.inj h with ⟨hkey, hrest⟩
          rcases List.cons.inj hrest with ⟨htext, hrest⟩
          rw [key_injective hkey, htext, ih hrest]

/-- **What a command takes.** The arguments after a subcommand are taken exactly when they are a
well-formed sequence of groups; the options then hold the values of these groups and nothing
else, and the same groups in another order give the same options. -/
theorem taken_iff (command : String) (accepted : List OptionField) (acceptsForce : Bool)
    (arguments : List String) :
    ((∃ options, TakenBy command accepted acceptsForce arguments options) ↔
      ∃ groups, WellFormed accepted acceptsForce groups ∧
        arguments = groups.flatMap OptionGroup.words) ∧
    (∀ options, TakenBy command accepted acceptsForce arguments options →
      ∀ groups, arguments = groups.flatMap OptionGroup.words →
        options.Holds groups ∧
        ∀ groups', groups.Perm groups' →
          TakenBy command accepted acceptsForce (groups'.flatMap OptionGroup.words) options) := by
  refine ⟨⟨?_, ?_⟩, ?_⟩
  · rintro ⟨options, htaken⟩
    rcases htaken.exists_groups with ⟨groups, hwell, harguments, -⟩
    exact ⟨groups, hwell, harguments⟩
  · rintro ⟨groups, hwell, rfl⟩
    exact ⟨_, hwell.taken (holds_foldl hwell.nodup)⟩
  · intro options htaken groups harguments
    rcases htaken.exists_groups with ⟨read, hwell, hread, hholds⟩
    -- the arguments can be cut into groups in one way only
    have hsame : read = groups := words_injective (hread.symm.trans harguments)
    subst hsame
    refine ⟨hholds, ?_⟩
    intro groups' hperm
    exact (hwell.perm hperm).taken (hholds.perm hperm)

/-- A value may look like an option. -/
example : (parse ["--edges", "--nodes", "--nodes", "--force"] none).map
    (fun options => (options.text .nodes, options.text .edges, options.force))
      = .ok ("--force", "--nodes", false) := by
  decide +kernel

end Options

end RouteEngine
