import RouteEngine.Csv

set_option autoImplicit false

/-! # The format of the two files

What a well-formed node file and a well-formed edge file are, stated without the loader
(`NodeFile`, `EdgeFile`). The lemmas of this module connect the loader's helpers to these
words: `split_fields` to lines of three fields, the number parsers to numerals, and the lines
that carry data to the text. -/

namespace RouteEngine

variable {F : Type}

/-! ## The grammar -/

/-- The trimmed lines of a file that carry data. -/
def dataLines (text : Text) : List Text :=
  ((splitLines (dropBom text)).map (fun line => trim (dropCr line))).filter
    (fun line => !isSkippable line)

/-- The line has exactly three fields between commas; `fields` are these fields, trimmed. -/
def HasFields (line : Text) (fields : Fields) : Prop :=
  ∃ first second third : Text, ',' ∉ first ∧ ',' ∉ second ∧ ',' ∉ third ∧
    line = first ++ ',' :: (second ++ ',' :: third) ∧
    fields = (trim first, trim second, trim third)

/-- A line of three fields, none of them empty. -/
structure IsRow (line : Text) (fields : Fields) : Prop where
  hasFields : HasFields line fields
  first : fields.1 ≠ []
  second : fields.2.1 ≠ []
  third : fields.2.2 ≠ []

/-- A decimal numeral of an unsigned 64-bit integer; leading zeros are allowed. -/
structure IsDecimal (field : Text) (value : ExternalId) : Prop where
  ne_nil : field ≠ []
  digits : ∀ c ∈ field, c.isDigit = true
  value_eq : Nat.ofDigitChars 10 field 0 = value.toNat

/-- A numeral that `std::from_chars` reads in full as a finite number. -/
def IsFiniteNumber [IsFinite F] (fromChars : Text → Option (F × Text)) (field : Text)
    (value : F) : Prop :=
  fromChars field = some (value, []) ∧ isFinite value = true

/-- A row of the node file. -/
structure NodeRow (F : Type) where
  externalId : ExternalId
  coordinate : Coord F
  deriving DecidableEq, Repr

/-- The fields are the text of the node row. -/
structure NodeFields [IsFinite F] (fromChars : Text → Option (F × Text)) (fields : Fields)
    (row : NodeRow F) : Prop where
  externalId : IsDecimal fields.1 row.externalId
  x : IsFiniteNumber fromChars fields.2.1 row.coordinate.x
  y : IsFiniteNumber fromChars fields.2.2 row.coordinate.y

/-- The field is the identifier of `node`, the number of its place in `ids`. -/
def IsNodeId (ids : List ExternalId) (field : Text) (node : NodeId) : Prop :=
  ∃ externalId, IsDecimal field externalId ∧ ids[node.toNat]? = some externalId

/-- The fields are the text of an arc between nodes with identifiers in `ids`. -/
structure EdgeFields [IsFinite F] [Zero F] [LT F] (fromChars : Text → Option (F × Text))
    (ids : List ExternalId) (fields : Fields) (arc : StagedArc F) : Prop where
  source : IsNodeId ids fields.1 arc.source
  target : IsNodeId ids fields.2.1 arc.target
  weight : IsFiniteNumber fromChars fields.2.2 arc.weight
  nonneg : ¬ arc.weight < 0

/-- The line is the text of the node row. -/
def IsNodeRow [IsFinite F] (fromChars : Text → Option (F × Text)) (line : Text)
    (row : NodeRow F) : Prop :=
  ∃ fields, IsRow line fields ∧ NodeFields fromChars fields row

/-- The line is the text of an arc between nodes with identifiers in `ids`. -/
def IsEdgeRow [IsFinite F] [Zero F] [LT F] (fromChars : Text → Option (F × Text))
    (ids : List ExternalId) (line : Text) (arc : StagedArc F) : Prop :=
  ∃ fields, IsRow line fields ∧ EdgeFields fromChars ids fields arc

/-- The text is a node file with the given rows. -/
structure NodeFile [IsFinite F] (fromChars : Text → Option (F × Text)) (text : Text)
    (rows : List (NodeRow F)) : Prop where
  lines : ∃ header body, dataLines text = header :: body ∧
    HasFields header ("id".toList, "x".toList, "y".toList) ∧
    List.Forall₂ (IsNodeRow fromChars) body rows
  distinct : (rows.map NodeRow.externalId).Nodup
  length_le : rows.length ≤ maxSupportedNodeCount

/-- The text is an edge file with the given arcs over nodes with identifiers `ids`. -/
structure EdgeFile [IsFinite F] [Zero F] [LT F] (fromChars : Text → Option (F × Text))
    (ids : List ExternalId) (text : Text) (arcs : List (StagedArc F)) : Prop where
  lines : ∃ header body, dataLines text = header :: body ∧
    HasFields header ("source".toList, "target".toList, "weight".toList) ∧
    List.Forall₂ (IsEdgeRow fromChars ids) body arcs
  length_le : arcs.length ≤ maxArcCount

/-! ## Fields -/

theorem not_mem_of_mem_splitOn {α : Type} [BEq α] [LawfulBEq α] {a : α} :
    ∀ {l piece : List α}, piece ∈ l.splitOn a → a ∉ piece := by
  intro l
  induction l with
  | nil =>
      intro piece h
      rw [List.splitOn_nil, List.mem_singleton] at h
      simp [h]
  | cons x l ih =>
      intro piece h
      rw [List.splitOn_cons_eq_if_modifyHead] at h
      by_cases hx : x = a
      · rw [if_pos (by simpa using hx)] at h
        rcases List.mem_cons.mp h with rfl | h
        · simp
        · exact ih h
      · rw [if_neg (by simpa using hx)] at h
        cases hsplit : l.splitOn a with
        | nil => exact absurd hsplit (List.splitOn_ne_nil a l)
        | cons first rest =>
            rw [hsplit, List.modifyHead_cons] at h
            rw [hsplit] at ih
            rcases List.mem_cons.mp h with rfl | h
            · -- the first piece grows by `x`
              intro ha
              rcases List.mem_cons.mp ha with rfl | ha
              · exact hx rfl
              · exact ih (by simp) ha
            · exact ih (List.mem_cons_of_mem _ h)

/-- **`split_fields`** accepts the lines of three fields. -/
theorem splitFields_eq_ok_iff {line : Text} {fields : Fields} :
    splitFields line = .ok fields ↔ HasFields line fields := by
  constructor
  · intro h
    unfold splitFields at h
    split at h
    · rename_i first second third hsplit
      have hmem : ∀ piece ∈ [first, second, third], ',' ∉ piece := fun piece hp =>
        not_mem_of_mem_splitOn (hsplit ▸ hp)
      have hline : [','].intercalate (line.splitOn ',') = line := List.intercalate_splitOn ','
      rw [hsplit] at hline
      refine ⟨first, second, third, hmem _ (by simp), hmem _ (by simp), hmem _ (by simp), ?_,
        (Except.ok.inj h).symm⟩
      rw [← hline]
      simp [List.intercalate]
    · cases h
  · rintro ⟨first, second, third, h1, h2, h3, rfl, rfl⟩
    unfold splitFields
    rw [List.splitOn_append_cons_self_of_not_mem h1, List.splitOn_append_cons_self_of_not_mem h2,
      List.splitOn_eq_singleton h3]

/-! ## Numbers -/

theorem fromCharsU64_eq_some_iff {field : Text} {value : ExternalId} :
    fromCharsU64 field = some (value, []) ↔ IsDecimal field value := by
  have hall : field.dropWhile Char.isDigit = [] ↔ ∀ c ∈ field, c.isDigit = true :=
    List.dropWhile_eq_nil_iff
  constructor
  · intro h
    simp only [fromCharsU64, List.isEmpty_iff] at h
    split_ifs at h with hnil hfits
    simp only [Option.some.injEq, Prod.mk.injEq] at h
    have htake : field.takeWhile Char.isDigit = field :=
      List.takeWhile_eq_self_iff.mpr (hall.mp h.2)
    rw [htake] at hnil hfits h
    refine ⟨hnil, hall.mp h.2, ?_⟩
    rw [← h.1, UInt64.toNat_ofNat_of_lt' hfits]
  · rintro ⟨hnil, hdigits, hvalue⟩
    have htake : field.takeWhile Char.isDigit = field := List.takeWhile_eq_self_iff.mpr hdigits
    simp only [fromCharsU64, List.isEmpty_iff, htake, hall.mpr hdigits, hvalue, if_neg hnil,
      if_pos value.toNat_lt, UInt64.ofNat_toNat]

theorem parseField_eq_some_iff {V : Type} {fromChars : Text → Option (V × Text)} {field : Text}
    {value : V} :
    parseField fromChars field = some value ↔ field ≠ [] ∧ fromChars field = some (value, []) := by
  unfold parseField
  by_cases hnil : field = []
  · simp [hnil]
  simp only [List.isEmpty_iff, if_neg hnil]
  cases fromChars field with
  | none => simp
  | some read =>
      cases read with
      | mk v rest => cases rest <;> simp [hnil]

theorem parseExternalId_eq_some_iff {field : Text} {value : ExternalId} :
    parseExternalId field = some value ↔ IsDecimal field value := by
  unfold parseExternalId
  rw [parseField_eq_some_iff, fromCharsU64_eq_some_iff]
  exact ⟨fun h => h.2, fun h => ⟨h.ne_nil, h⟩⟩

theorem parseFinite_eq_some_iff [IsFinite F] {fromChars : Text → Option (F × Text)}
    {field : Text} (hnil : field ≠ []) {value : F} :
    parseFinite fromChars field = some value ↔ IsFiniteNumber fromChars field value := by
  unfold parseFinite parseNumber IsFiniteNumber
  rw [Option.filter_eq_some_iff, parseField_eq_some_iff]
  simp [hnil]

/-! ## Lines -/

theorem splitLines_prefix_text :
    ∀ {text line : Text} {lines : List Text}, splitLines text = line :: lines → line <+: text := by
  intro text
  induction text with
  | nil => intro line lines h; cases h
  | cons c text ih =>
      intro line lines h
      unfold splitLines at h
      split_ifs at h with hc
      · simp only [List.cons.injEq] at h
        rw [← h.1]
        exact List.nil_prefix
      · split at h
        · simp only [List.cons.injEq] at h
          rw [← h.1]
          exact List.prefix_cons_inj c |>.mpr List.nil_prefix
        · rename_i first rest hsplit
          simp only [List.cons.injEq] at h
          rw [← h.1]
          exact (List.prefix_cons_inj c).mpr (ih hsplit)

/-- A start without LF belongs to the first line. -/
theorem splitLines_append {start : Text} (hstart : '\n' ∉ start) (hne : start ≠ []) (text : Text) :
    splitLines (start ++ text)
      = match splitLines text with
        | [] => [start]
        | line :: lines => (start ++ line) :: lines := by
  induction start with
  | nil => exact absurd rfl hne
  | cons c start ih =>
      have hc : c ≠ '\n' := fun h => hstart (by simp [h])
      rw [List.cons_append, splitLines, if_neg hc]
      by_cases hnil : start = []
      · subst hnil
        rfl
      · rw [ih (fun h => hstart (by simp [h])) hnil]
        cases splitLines text <;> rfl

theorem dropCr_prefix_line (line : Text) : dropCr line <+: line := by
  unfold dropCr
  split_ifs
  · exact List.dropLast_prefix line
  · exact List.prefix_refl line

/-- A start without CR is kept. -/
theorem dropCr_append {start : Text} (hstart : '\r' ∉ start) (line : Text) :
    dropCr (start ++ line) = start ++ dropCr line := by
  unfold dropCr
  by_cases hnil : line = []
  · subst hnil
    rw [List.append_nil]
    have hlast : start.getLast? ≠ some '\r' := fun h => hstart (List.mem_of_getLast? h)
    simp [hlast]
  · have hlast : (start ++ line).getLast? = line.getLast? := by
      rw [List.getLast?_append]
      cases h : line.getLast? with
      | none => exact absurd (List.getLast?_eq_none_iff.mp h) hnil
      | some c => rfl
    rw [hlast, List.dropLast_append_of_ne_nil hnil]
    split_ifs <;> rfl

theorem dropBom_append (text : Text) : dropBom (kUtf8Bom ++ text) = text := by
  unfold dropBom
  rw [if_pos (List.prefix_append _ _), List.drop_left]

/-! ## Rows -/

/-- The rows of a file, the header first: the fields of each line that carries data. -/
def dataRows (text : Text) : List (Except Nat Fields) := (dataLines text).map splitFields

/-- The row has three fields, none of them empty, that are the text of `a`. -/
def IsRowOf {α : Type} (P : Fields → α → Prop) (row : Except Nat Fields) (a : α) : Prop :=
  ∃ fields : Fields, row = .ok fields ∧ fields.1 ≠ [] ∧ fields.2.1 ≠ [] ∧ fields.2.2 ≠ [] ∧
    P fields a

theorem isRowOf_splitFields {α : Type} {P : Fields → α → Prop} {line : Text} {a : α} :
    IsRowOf P (splitFields line) a ↔ ∃ fields, IsRow line fields ∧ P fields a := by
  constructor
  · rintro ⟨fields, hline, h1, h2, h3, hP⟩
    exact ⟨fields, ⟨splitFields_eq_ok_iff.mp hline, h1, h2, h3⟩, hP⟩
  · rintro ⟨fields, hrow, hP⟩
    exact ⟨fields, splitFields_eq_ok_iff.mpr hrow.hasFields, hrow.first, hrow.second, hrow.third,
      hP⟩

/-- The text has the given header, and its data rows are the texts of the list. -/
def RowsAre {α : Type} (P : Fields → α → Prop) (header : Fields) (text : Text) (l : List α) :
    Prop :=
  ∃ body, dataRows text = .ok header :: body ∧ List.Forall₂ (IsRowOf P) body l

theorem rowsAre_iff {α : Type} {P : Fields → α → Prop} {names : Fields} {text : Text}
    {l : List α} :
    RowsAre P names text l ↔ ∃ header body, dataLines text = header :: body ∧
      HasFields header names ∧
      List.Forall₂ (fun line a => ∃ fields, IsRow line fields ∧ P fields a) body l := by
  constructor
  · rintro ⟨rows, htext, hrows⟩
    rcases List.map_eq_cons_iff.mp htext with ⟨header, body, hlines, hheader, rfl⟩
    refine ⟨header, body, hlines, splitFields_eq_ok_iff.mp hheader, ?_⟩
    exact (List.forall₂_map_left_iff.mp hrows).imp (fun _ _ => isRowOf_splitFields.mp)
  · rintro ⟨header, body, hlines, hheader, hrows⟩
    refine ⟨body.map splitFields, ?_, List.forall₂_map_left_iff.mpr ?_⟩
    · rw [dataRows, hlines, List.map_cons, splitFields_eq_ok_iff.mpr hheader]
    · exact hrows.imp (fun _ _ => isRowOf_splitFields.mpr)

end RouteEngine
