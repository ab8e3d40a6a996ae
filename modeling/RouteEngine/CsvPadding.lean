import RouteEngine.CsvText

set_option autoImplicit false

/-! # Blanks around fields

A line to which blanks were added around its fields or at its ends (`Padded`) is skipped when the
line is, and has the same trimmed fields (`Padded.splitFields_trim`). -/

namespace RouteEngine

/-- Spaces and tabs only. -/
def Blank (text : Text) : Prop := ∀ c ∈ text, isSpace c = true

/-- The field with blanks around it. -/
def PaddedField (field field' : Text) : Prop :=
  ∃ before after, Blank before ∧ Blank after ∧ field' = before ++ field ++ after

/-- The line with blanks around its fields; an end of the line is an end of a field. -/
def Padded (line line' : Text) : Prop :=
  List.Forall₂ PaddedField (line.splitOn ',') (line'.splitOn ',')

theorem Blank.no_comma {text : Text} (h : Blank text) : ',' ∉ text :=
  fun hmem => absurd (h ',' hmem) (by decide)

instance (text : Text) : Decidable (Blank text) :=
  List.decidableBAll (fun c => isSpace c = true) text

theorem blank_nil : Blank [] := fun _ hc => absurd hc List.not_mem_nil

/-! ## Trimming -/

theorem dropWhile_blank_append {blanks : Text} (h : Blank blanks) (text : Text) :
    (blanks ++ text).dropWhile isSpace = text.dropWhile isSpace := by
  induction blanks with
  | nil => rfl
  | cons c blanks ih =>
      rw [List.cons_append, List.dropWhile_cons_of_pos (h c (by simp))]
      exact ih (fun d hd => h d (List.mem_cons_of_mem c hd))

theorem rdropWhile_append_blank {blanks : Text} (h : Blank blanks) (text : Text) :
    (text ++ blanks).rdropWhile isSpace = text.rdropWhile isSpace := by
  have hreverse : Blank blanks.reverse := fun c hc => h c (List.mem_reverse.mp hc)
  unfold List.rdropWhile
  rw [List.reverse_append, dropWhile_blank_append hreverse]

/-- Blanks around a text are trimmed away. -/
theorem trim_padded {field field' : Text} (h : PaddedField field field') :
    trim field' = trim field := by
  rcases h with ⟨before, after, hbefore, hafter, rfl⟩
  unfold trim
  rw [List.append_assoc, dropWhile_blank_append hbefore]
  by_cases hblank : Blank field
  · -- nothing is left of either
    have hfield : field.dropWhile isSpace = [] := List.dropWhile_eq_nil_iff.mpr hblank
    have hafter' : after.dropWhile isSpace = [] := List.dropWhile_eq_nil_iff.mpr hafter
    rw [dropWhile_blank_append hblank, hfield, hafter']
  · have hne : (field.dropWhile isSpace).isEmpty = false := by
      rw [List.isEmpty_eq_false_iff]
      exact fun hnil => hblank (List.dropWhile_eq_nil_iff.mp hnil)
    rw [List.dropWhile_append, hne]
    exact rdropWhile_append_blank hafter _

/-- What is trimmed away is blank. -/
theorem padded_trim_field (text : Text) : PaddedField (trim text) text := by
  refine ⟨text.takeWhile isSpace, (text.dropWhile isSpace).rtakeWhile isSpace, ?_, ?_, ?_⟩
  · exact fun c hc => List.mem_takeWhile_imp hc
  · exact fun c hc => List.mem_rtakeWhile_imp hc
  · rw [trim, List.append_assoc, List.rdropWhile_append_rtakeWhile,
      List.takeWhile_append_dropWhile]

/-! ## Fields -/

theorem splitOn_append_left {before : Text} (h : ',' ∉ before) (text : Text) :
    (before ++ text).splitOn ',' = (text.splitOn ',').modifyHead (before ++ ·) := by
  induction before with
  | nil =>
      rw [List.nil_append]
      cases text.splitOn ',' <;> rfl
  | cons c before ih =>
      rw [List.mem_cons, not_or] at h
      rw [List.cons_append, List.splitOn_cons_eq_if_modifyHead,
        if_neg (by simpa using fun heq => h.1 heq.symm), ih h.2, List.modifyHead_modifyHead]
      rfl

theorem forall₂_splitOn_append_right {after : Text} (h : ',' ∉ after) (text : Text) :
    List.Forall₂ (fun field field' => ∃ rest, (rest = [] ∨ rest = after) ∧ field' = field ++ rest)
      (text.splitOn ',') ((text ++ after).splitOn ',') := by
  induction text with
  | nil =>
      rw [List.nil_append, List.splitOn_nil, List.splitOn_eq_singleton h]
      exact .cons ⟨after, .inr rfl, rfl⟩ .nil
  | cons c text ih =>
      rw [List.cons_append, List.splitOn_cons_eq_if_modifyHead, List.splitOn_cons_eq_if_modifyHead]
      by_cases hc : c = ','
      · rw [if_pos (by simpa using hc), if_pos (by simpa using hc)]
        exact .cons ⟨[], .inl rfl, rfl⟩ ih
      · rw [if_neg (by simpa using hc), if_neg (by simpa using hc)]
        generalize text.splitOn ',' = fields at ih
        generalize (text ++ after).splitOn ',' = fields' at ih
        cases ih with
        | nil => exact .nil
        | cons hfield hrest =>
            rcases hfield with ⟨rest, hrest', rfl⟩
            exact .cons ⟨rest, hrest', rfl⟩ hrest

/-- Blanks at the ends of a line are blanks around its first and its last field. -/
theorem padded_of_paddedField {line line' : Text} (h : PaddedField line line') :
    Padded line line' := by
  rcases h with ⟨before, after, hbefore, hafter, rfl⟩
  unfold Padded
  rw [List.append_assoc, splitOn_append_left hbefore.no_comma]
  have hright := forall₂_splitOn_append_right hafter.no_comma line
  have hfield : ∀ {field field' : Text}, (∃ rest, (rest = [] ∨ rest = after) ∧
      field' = field ++ rest) → ∃ rest, Blank rest ∧ field' = field ++ rest := by
    rintro field field' ⟨rest, rfl | rfl, heq⟩
    · exact ⟨[], blank_nil, heq⟩
    · exact ⟨rest, hafter, heq⟩
  generalize line.splitOn ',' = fields at hright
  generalize (line ++ after).splitOn ',' = fields' at hright
  cases hright with
  | nil => exact .nil
  | cons hfirst hrest =>
      rcases hfield hfirst with ⟨rest, hblank, rfl⟩
      refine .cons ⟨before, rest, hbefore, hblank, (List.append_assoc _ _ _).symm⟩ ?_
      apply hrest.imp
      intro field field' hf
      rcases hfield hf with ⟨rest, hblank, rfl⟩
      exact ⟨[], rest, blank_nil, hblank, rfl⟩

/-- A padded field before a padded rest of the line. -/
theorem Padded.comma {field field' rest rest' : Text} (h : PaddedField field field')
    (hcomma : ',' ∉ field) (hrest : Padded rest rest') :
    Padded (field ++ ',' :: rest) (field' ++ ',' :: rest') := by
  have hcomma' : ',' ∉ field' := by
    rcases h with ⟨before, after, hbefore, hafter, rfl⟩
    simp [hbefore.no_comma, hafter.no_comma, hcomma]
  unfold Padded
  rw [List.splitOn_append_cons_self_of_not_mem hcomma,
    List.splitOn_append_cons_self_of_not_mem hcomma']
  exact .cons h hrest

/-- Padding changes neither the number of fields nor the trimmed fields. -/
theorem Padded.splitFields_eq {line line' : Text} (h : Padded line line') :
    splitFields line' = splitFields line := by
  unfold Padded at h
  unfold splitFields
  generalize line.splitOn ',' = fields at h
  generalize line'.splitOn ',' = fields' at h
  -- three fields stand against three, any other number against the same number
  rcases h with _ | ⟨h1, _ | ⟨h2, _ | ⟨h3, _ | ⟨h4, hrest⟩⟩⟩⟩
  · rfl
  · rfl
  · rfl
  · simp only [trim_padded h1, trim_padded h2, trim_padded h3]
  · simp only [List.length_cons, hrest.length_eq]

/-- The whole line may be trimmed first. -/
theorem splitFields_trim (line : Text) : splitFields (trim line) = splitFields line :=
  (padded_of_paddedField (padded_trim_field line)).splitFields_eq.symm

/-! ## Lines without data -/

/-- The characters that are not blank. -/
def ink (text : Text) : Text := text.filter (fun c => !isSpace c)

theorem ink_padded {field field' : Text} (h : PaddedField field field') :
    ink field' = ink field := by
  rcases h with ⟨before, after, hbefore, hafter, rfl⟩
  have hnone : ∀ {blanks : Text}, Blank blanks → ink blanks = [] := by
    intro blanks hblank
    rw [ink, List.filter_eq_nil_iff]
    intro c hc
    simp [hblank c hc]
  have happend : ∀ a b : Text, ink (a ++ b) = ink a ++ ink b := fun a b => List.filter_append a b
  rw [happend, happend, hnone hbefore, hnone hafter, List.nil_append, List.append_nil]

theorem intercalate_cons_cons (field next : Text) (fields : List Text) :
    [','].intercalate (field :: next :: fields)
      = field ++ ',' :: [','].intercalate (next :: fields) := by
  simp [List.intercalate]

theorem ink_intercalate (fields : List Text) :
    ink ([','].intercalate fields) = [','].intercalate (fields.map ink) := by
  induction fields with
  | nil => rfl
  | cons field fields ih =>
      cases fields with
      | nil => simp [List.intercalate]
      | cons next fields =>
          have hcomma : ∀ text : Text, ink (',' :: text) = ',' :: ink text := fun _ => rfl
          rw [intercalate_cons_cons, List.map_cons, List.map_cons, intercalate_cons_cons,
            ← List.map_cons, ← ih, ink, List.filter_append]
          exact congrArg _ (hcomma _)

theorem Padded.ink_eq {line line' : Text} (h : Padded line line') : ink line' = ink line := by
  have hfields : (line'.splitOn ',').map ink = (line.splitOn ',').map ink := by
    rw [← List.forall₂_eq_eq_eq, List.forall₂_map_left_iff, List.forall₂_map_right_iff]
    exact h.flip.imp (fun _ _ => ink_padded)
  have hline : ∀ text : Text, ink text = [','].intercalate ((text.splitOn ',').map ink) := by
    intro text
    rw [← ink_intercalate, List.intercalate_splitOn]
  rw [hline line', hline line, hfields]

/-- Whether a line is skipped depends on the first character that is not blank. -/
theorem isSkippable_trim (line : Text) :
    isSkippable (trim line) = ((ink line).isEmpty || (ink line).head? == some '#') := by
  have hink : ink line = ink (trim line) :=
    ink_padded (padded_trim_field line)
  rw [hink]
  cases htrim : trim line with
  | nil => rfl
  | cons c text =>
      -- the first character of a trimmed line is not blank
      have hc : isSpace c = false := by
        have hstart : (c :: text) <+: line.dropWhile isSpace := by
          rw [← htrim]
          exact List.rdropWhile_prefix isSpace _
        rcases hstart with ⟨rest, hrest⟩
        have hfirst := List.head?_dropWhile_not isSpace line
        rw [← hrest, List.cons_append, List.head?_cons] at hfirst
        simpa using hfirst
      simp [isSkippable, ink, hc]

theorem Padded.isSkippable_eq {line line' : Text} (h : Padded line line') :
    isSkippable (trim line') = isSkippable (trim line) := by
  rw [isSkippable_trim, isSkippable_trim, h.ink_eq]

/-- Padding adds nothing but blanks. -/
theorem Padded.mem_of_mem {line line' : Text} (h : Padded line line') {c : Char} (hc : c ∈ line')
    (hspace : isSpace c = false) : c ∈ line := by
  have hink : c ∈ ink line' := List.mem_filter.mpr ⟨hc, by simp [hspace]⟩
  rw [h.ink_eq] at hink
  exact (List.mem_filter.mp hink).1

/-! ## The byte order mark -/

/-- A start that goes on with a foreign character ends before it. -/
theorem prefix_of_prefix_append {start text rest : Text} (h : start <+: text ++ rest)
    (hrest : ∀ c ∈ rest.head?, c ∉ start) : start <+: text := by
  induction text generalizing start with
  | nil =>
      cases rest with
      | nil => exact h
      | cons c rest =>
          cases start with
          | nil => exact List.nil_prefix
          | cons d start =>
              rw [List.nil_append, List.cons_prefix_cons] at h
              exact absurd (h.1 ▸ List.mem_cons_self) (hrest c rfl)
  | cons c text ih =>
      cases start with
      | nil => exact List.nil_prefix
      | cons d start =>
          rw [List.cons_append, List.cons_prefix_cons] at h
          rw [List.cons_prefix_cons]
          exact ⟨h.1, ih h.2 (fun e he hmem => hrest e he (List.mem_cons_of_mem d hmem))⟩

/-- What follows the first field begins with a comma. -/
theorem intercalate_eq_append (field : Text) (fields : List Text) :
    ∃ rest, [','].intercalate (field :: fields) = field ++ rest ∧ ∀ c ∈ rest.head?, c = ',' := by
  cases fields with
  | nil => exact ⟨[], by simp [List.intercalate], by simp⟩
  | cons next fields =>
      refine ⟨',' :: [','].intercalate (next :: fields), intercalate_cons_cons _ _ _, ?_⟩
      intro c hc
      exact (Option.some.inj hc).symm

/-- A blank before the byte order mark hides it, and padding after a field adds nothing to it. -/
theorem bom_prefix_of_paddedField {field field' rest : Text} (h : PaddedField field field')
    (hrest : ∀ c ∈ rest.head?, c = ',') (hbom : kUtf8Bom <+: field' ++ rest) :
    kUtf8Bom <+: field := by
  have hall : kUtf8Bom.all (fun c => !isSpace c && c != ',') = true := by decide
  have hnone : ∀ c ∈ kUtf8Bom, isSpace c = false ∧ c ≠ ',' := by
    intro c hc
    simpa using List.all_eq_true.mp hall c hc
  rcases h with ⟨before, after, hbefore, hafter, rfl⟩
  cases before with
  | nil =>
      rw [List.nil_append, List.append_assoc] at hbom
      apply prefix_of_prefix_append hbom
      intro c hc hmem
      cases after with
      | nil => exact (hnone c hmem).2 (hrest c hc)
      | cons d after =>
          have hspace : isSpace c = true :=
            hafter c (by simpa using Or.inl (Option.some.inj hc).symm)
          rw [(hnone c hmem).1] at hspace
          cases hspace
  | cons d before =>
      have hspace : isSpace d = true := hbefore d List.mem_cons_self
      have hd : d ∈ kUtf8Bom := by
        have hfirst : Char.ofNat 0xEF = d := (List.cons_prefix_cons.mp hbom).1
        exact hfirst ▸ List.mem_cons_self
      rw [(hnone d hd).1] at hspace
      cases hspace

/-- Padding brings no byte order mark to the start of a line. -/
theorem Padded.bom_prefix {line line' : Text} (h : Padded line line')
    (hbom : kUtf8Bom <+: line') : kUtf8Bom <+: line := by
  have hline : [','].intercalate (line.splitOn ',') = line := List.intercalate_splitOn ','
  have hline' : [','].intercalate (line'.splitOn ',') = line' := List.intercalate_splitOn ','
  unfold Padded at h
  rw [← hline'] at hbom
  rw [← hline]
  generalize line.splitOn ',' = fields at h
  generalize line'.splitOn ',' = fields' at h hbom
  cases h with
  | nil => exact hbom
  | @cons field field' fields fields' hfield _ =>
      rcases intercalate_eq_append field' fields' with ⟨rest', heq', hrest'⟩
      rcases intercalate_eq_append field fields with ⟨rest, heq, _⟩
      rw [heq'] at hbom
      rw [heq]
      exact (bom_prefix_of_paddedField hfield hrest' hbom).trans (List.prefix_append _ _)

end RouteEngine
