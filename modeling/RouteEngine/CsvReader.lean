import RouteEngine.CsvFormat

set_option autoImplicit false

/-! # What the reader does

The reader visits the lines that carry data (`contents`), each with its physical line number.
Both `read_nodes` and `read_edges` check the first of them against the header and run their
loop over the others; `readRows_eq` says so once for every loop body that looks only at the
reader's file name and line number. -/

namespace RouteEngine

/-! ## The lines that carry data -/

/-- The lines that carry data, each with its number; the first line has number
`before + 1`. -/
def contents : List Text → Nat → List (Nat × Text)
  | [], _ => []
  | line :: lines, before =>
      if isSkippable (Reader.view (before + 1) line) then contents lines (before + 1)
      else (before + 1, Reader.view (before + 1) line) :: contents lines (before + 1)

/-- The same for lines that are clean of CR and byte order mark. -/
def numbered : List Text → Nat → List (Nat × Text)
  | [], _ => []
  | line :: lines, before =>
      if isSkippable (trim line) then numbered lines (before + 1)
      else (before + 1, trim line) :: numbered lines (before + 1)

theorem map_numbered (lines : List Text) (before : Nat) :
    (numbered lines before).map Prod.snd
      = (lines.map trim).filter (fun line => !isSkippable line) := by
  induction lines generalizing before with
  | nil => rfl
  | cons line lines ih =>
      rw [numbered, List.map_cons, List.filter_cons]
      by_cases hskip : isSkippable (trim line) = true
      · simpa [hskip] using ih (before + 1)
      · simpa [hskip] using ih (before + 1)

/-- After the first line, only the CR is dropped. -/
theorem contents_eq_numbered (lines : List Text) {before : Nat} (hb : before ≠ 0) :
    contents lines before = numbered (lines.map dropCr) before := by
  induction lines generalizing before with
  | nil => rfl
  | cons line lines ih =>
      have hview : Reader.view (before + 1) line = trim (dropCr line) := by
        unfold Reader.view
        rw [if_neg (by omega)]
      rw [contents, hview, List.map_cons, numbered, ih (by omega)]

theorem contents_cons (line : Text) (lines : List Text) {content : Text}
    (h : Reader.view 1 line = trim (dropCr content)) :
    contents (line :: lines) 0 = numbered ((content :: lines).map dropCr) 0 := by
  rw [contents, h, List.map_cons, numbered, contents_eq_numbered lines Nat.one_ne_zero]

/-- **The reader visits the lines that carry data**, under their numbers: dropping the byte order
mark from the first line is dropping it from the text. -/
theorem contents_splitLines (text : Text) :
    contents (splitLines text) 0 = numbered ((splitLines (dropBom text)).map dropCr) 0 := by
  by_cases hbom : kUtf8Bom <+: text
  · obtain ⟨rest, rfl⟩ := hbom
    rw [dropBom_append, splitLines_append (by decide) (by decide)]
    cases splitLines rest with
    | nil => decide
    | cons line lines =>
        refine contents_cons _ lines ?_
        unfold Reader.view
        rw [if_pos rfl, dropCr_append (by decide), dropBom_append]
  · have htext : dropBom text = text := by
      unfold dropBom
      rw [if_neg hbom]
    rw [htext]
    cases hlines : splitLines text with
    | nil => rfl
    | cons line lines =>
        have hline : ¬ kUtf8Bom <+: dropCr line := fun h =>
          hbom ((h.trans (dropCr_prefix_line line)).trans (splitLines_prefix_text hlines))
        refine contents_cons line lines ?_
        unfold Reader.view dropBom
        rw [if_pos rfl, if_neg hline]

theorem map_contents_splitLines (text : Text) :
    (contents (splitLines text) 0).map Prod.snd = dataLines text := by
  rw [contents_splitLines, map_numbered, List.map_map]
  rfl

/-! ## Reading one line -/

namespace Reader

/-- The lines that carry data and are still to be read. -/
def contents (reader : Reader) : List (Nat × Text) :=
  RouteEngine.contents reader.input.lines reader.lineNumber

theorem nextContent_of_nil :
    ∀ {lines : List Text} {before : Nat}, RouteEngine.contents lines before = [] →
      ∃ after, nextContent lines before = (none, [], after) := by
  intro lines
  induction lines with
  | nil => intro before _; exact ⟨before, rfl⟩
  | cons line lines ih =>
      intro before h
      rw [RouteEngine.contents] at h
      split_ifs at h with hskip
      rw [nextContent, if_pos hskip]
      exact ih h

theorem nextContent_of_cons {number : Nat} {content : Text} {rest : List (Nat × Text)} :
    ∀ {lines : List Text} {before : Nat},
      RouteEngine.contents lines before = (number, content) :: rest →
      ∃ lines', nextContent lines before = (some content, lines', number) ∧
        RouteEngine.contents lines' number = rest ∧ lines'.length < lines.length := by
  intro lines
  induction lines with
  | nil => intro before h; cases h
  | cons line lines ih =>
      intro before h
      rw [RouteEngine.contents] at h
      split_ifs at h with hskip
      · obtain ⟨lines', hnext, hrest, hlt⟩ := ih h
        refine ⟨lines', ?_, hrest, ?_⟩
        · rw [nextContent, if_pos hskip, hnext]
        · rw [List.length_cons]
          omega
      · simp only [List.cons.injEq, Prod.mk.injEq] at h
        obtain ⟨⟨rfl, rfl⟩, hrest⟩ := h
        refine ⟨lines, ?_, hrest, by simp⟩
        rw [nextContent, if_neg hskip]

theorem next_of_nil {reader : Reader} (h : reader.contents = []) :
    ∃ reader' : Reader, reader.next = (none, reader') ∧ reader'.name = reader.name := by
  obtain ⟨after, hnext⟩ := nextContent_of_nil h
  refine ⟨⟨⟨[], reader.input.ending⟩, reader.name, after⟩, ?_, rfl⟩
  rw [next, hnext]

theorem next_of_cons {reader : Reader} {number : Nat} {content : Text}
    {rest : List (Nat × Text)} (h : reader.contents = (number, content) :: rest) :
    ∃ reader' : Reader, reader.next = (some content, reader') ∧ reader'.name = reader.name ∧
      reader'.lineNumber = number ∧ reader'.contents = rest ∧
      reader'.rowFuel < reader.rowFuel := by
  obtain ⟨lines', hnext, hrest, hlt⟩ := nextContent_of_cons h
  refine ⟨⟨⟨lines', reader.input.ending⟩, reader.name, number⟩, ?_, rfl, rfl, hrest, ?_⟩
  · rw [next, hnext]
  · simpa [rowFuel] using hlt

/-- A reader at a line of a file, with nothing left to read. -/
def atLine (name : String) (line : Nat) : Reader := ⟨⟨[], .endOfFile⟩, name, line⟩

end Reader

/-! ## The loop -/

section

variable {σ : Type}

/-- The error of `next_row` for a line of `found` fields. -/
def fieldCountError (name : String) (line found : Nat) : Failure :=
  .graphLoad name line ("expected " ++ toString kFieldCount ++
    " comma-separated fields, found " ++ toString found)

/-- One round of the loop, at a line that carries data. -/
def rowStep (name : String) (body : Reader → Fields → σ → Outcome σ) (state : σ)
    (line : Nat × Text) : Outcome σ :=
  match splitFields line.2 with
  | .error found => .error (fieldCountError name line.1 found)
  | .ok fields =>
      if fields.1.isEmpty || fields.2.1.isEmpty || fields.2.2.isEmpty then
        .error (.graphLoad name line.1 "fields must not be empty")
      else body (Reader.atLine name line.1) fields state

theorem rowStep_of_row {name : String} {body : Reader → Fields → σ → Outcome σ} {state : σ}
    {line : Nat × Text} {fields : Fields} (h : IsRow line.2 fields) :
    rowStep name body state line = body (Reader.atLine name line.1) fields state := by
  unfold rowStep
  rw [splitFields_eq_ok_iff.mpr h.hasFields]
  simp [h.first, h.second, h.third]

/-- A round fails on a line that is not a row. -/
theorem rowStep_cases (name : String) (body : Reader → Fields → σ → Outcome σ) (state : σ)
    (line : Nat × Text) :
    (∃ fields, IsRow line.2 fields) ∨
      ∃ message, rowStep name body state line = .error (.graphLoad name line.1 message) := by
  unfold rowStep
  cases hfields : splitFields line.2 with
  | error found => exact Or.inr ⟨_, rfl⟩
  | ok fields =>
      by_cases hempty : (fields.1.isEmpty || fields.2.1.isEmpty || fields.2.2.isEmpty) = true
      · simp only [hempty, if_true]
        exact Or.inr ⟨_, rfl⟩
      · simp only [Bool.or_eq_true, List.isEmpty_iff, not_or] at hempty
        exact Or.inl ⟨fields, splitFields_eq_ok_iff.mp hfields, hempty.1.1, hempty.1.2,
          hempty.2⟩

/-- **The loop runs over the lines that carry data.** -/
theorem eachRow_eq {body : Reader → Fields → σ → Outcome σ}
    (hbody : ∀ reader, body reader = body (Reader.atLine reader.name reader.lineNumber)) :
    ∀ (fuel : Nat) (reader : Reader) (state : σ), reader.rowFuel ≤ fuel →
      eachRow body fuel reader state
        = reader.contents.foldlM (rowStep reader.name body) state := by
  intro fuel
  induction fuel with
  | zero => intro reader state h; exact absurd h (by simp [Reader.rowFuel])
  | succ fuel ih =>
      intro reader state hfuel
      rw [eachRow, Reader.nextRow]
      cases hcontents : reader.contents with
      | nil =>
          obtain ⟨reader', hnext, _⟩ := Reader.next_of_nil hcontents
          rw [hnext]
          rfl
      | cons line rest =>
          obtain ⟨reader', hnext, hname, hline, hrest, hlt⟩ := Reader.next_of_cons hcontents
          rw [hnext, List.foldlM_cons, rowStep]
          simp only
          -- both sides check the fields and run the body; the loop then goes on from `reader'`
          cases hfields : splitFields line.2 with
          | error found =>
              simp only [Reader.fail, Reader.failAt, fieldCountError, hname, hline, error_bind]
          | ok fields =>
              by_cases hempty : (fields.1.isEmpty || fields.2.1.isEmpty ||
                  fields.2.2.isEmpty) = true
              · simp only [hempty, if_true, Reader.fail, Reader.failAt, hname, hline,
                  error_bind]
              · simp only [hempty, Bool.false_eq_true, if_false, ok_bind, hbody reader', hname,
                  hline]
                congr 1
                funext state'
                rw [ih reader' state' (by omega), hrest, hname]

/-- The text that a header must have. -/
def headerText (first second third : String) : String := first ++ "," ++ second ++ "," ++ third

/-- **Reading a file**: the first line that carries data must be the header, and the loop runs
over the others. -/
theorem readRows_eq {body : Reader → Fields → σ → Outcome σ}
    (hbody : ∀ reader, body reader = body (Reader.atLine reader.name reader.lineNumber))
    (input : InputStream) (name first second third : String) (state : σ) :
    (do
      let reader ← (Reader.new input name).expectHeader first second third
      eachRow body reader.rowFuel reader state)
      = match contents input.lines 0 with
        | [] => .error (.graphLoad name 0 ("file is empty; expected a header line \"" ++
            headerText first second third ++ "\""))
        | (number, header) :: rows =>
            if splitFields header = .ok (first.toList, second.toList, third.toList) then
              rows.foldlM (rowStep name body) state
            else .error (.graphLoad name number ("header must be exactly \"" ++
              headerText first second third ++ "\", found \"" ++ String.ofList header ++
              "\"")) := by
  have hname : (Reader.new input name).name = name := rfl
  have hcontents : (Reader.new input name).contents = contents input.lines 0 := rfl
  rw [Reader.expectHeader]
  cases hc : contents input.lines 0 with
  | nil =>
      obtain ⟨reader', hnext, hname'⟩ := Reader.next_of_nil (hcontents.trans hc)
      rw [hnext]
      simp only [Reader.failAt, headerText, hname', hname, error_bind]
  | cons line rows =>
      obtain ⟨reader', hnext, hname', hline, hrest, _⟩ :=
        Reader.next_of_cons (hcontents.trans hc)
      rw [hnext]
      simp only
      by_cases hheader : splitFields line.2 = .ok (first.toList, second.toList, third.toList)
      · rw [if_pos hheader, if_pos hheader, ok_bind,
          eachRow_eq hbody _ reader' state (le_refl _), hrest, hname', hname]
      · rw [if_neg hheader, if_neg hheader]
        simp only [Reader.fail, Reader.failAt, headerText, hname', hname, hline, error_bind]

end

end RouteEngine
