import RouteEngine.CsvFormat
import RouteEngine.CsvWriter

set_option autoImplicit false

/-! # Plain lines

A line without layout characters is read as it was written, and comment lines are skipped: the
data lines of a text written as comments, a header and plain lines are the header and the
lines. -/

namespace RouteEngine

/-! ## Plain text -/

/-- The characters that mean something in a line besides the comma. -/
def isLayout (c : Char) : Bool := isSpace c || c == '#' || c == '\r' || c == '\n'

/-- A text without layout characters. -/
structure IsPlain (text : Text) : Prop where
  ne_nil : text ≠ []
  plain : ∀ c ∈ text, isLayout c = false

/-- A plain text without commas. -/
structure IsPlainField (text : Text) : Prop extends IsPlain text where
  no_comma : ',' ∉ text

/-- The two conditions as a test. -/
theorem IsPlain.of_all {text : Text}
    (h : (!text.isEmpty && text.all (fun c => !isLayout c)) = true) : IsPlain text := by
  simp only [Bool.and_eq_true, Bool.not_eq_true', List.isEmpty_eq_false_iff, List.all_eq_true] at h
  exact ⟨h.1, h.2⟩

theorem IsPlain.not_mem {text : Text} (h : IsPlain text) {c : Char} (hc : isLayout c = true) :
    c ∉ text := fun hmem => absurd hc (by simp [h.plain c hmem])

/-- Nothing is trimmed from a text without blanks. -/
theorem trim_eq_self {text : Text} (h : ∀ c ∈ text, isSpace c = false) : trim text = text := by
  have hfront : text.dropWhile isSpace = text := by
    rw [List.dropWhile_eq_self_iff]
    intro hpos hspace
    exact absurd hspace (by simp [h _ (List.getElem_mem hpos)])
  unfold trim
  rw [hfront, List.rdropWhile_eq_self_iff]
  intro hne hspace
  exact absurd hspace (by simp [h _ (List.getLast_mem hne)])

theorem IsPlain.not_space {text : Text} (h : IsPlain text) : ∀ c ∈ text, isSpace c = false := by
  intro c hc
  have hplain := h.plain c hc
  simp only [isLayout, Bool.or_eq_false_iff] at hplain
  exact hplain.1.1.1

theorem dropCr_eq_self {line : Text} (h : '\r' ∉ line) : dropCr line = line := by
  unfold dropCr
  rw [if_neg (fun hlast => h (List.mem_of_getLast? hlast))]

/-- A plain line is read as it stands. -/
theorem IsPlain.trim_dropCr {line : Text} (h : IsPlain line) : trim (dropCr line) = line := by
  rw [dropCr_eq_self (h.not_mem (by decide)), trim_eq_self h.not_space]

theorem IsPlain.not_skippable {line : Text} (h : IsPlain line) : isSkippable line = false := by
  have hne := h.ne_nil
  have hhead : line.head? ≠ some '#' := fun hh =>
    h.not_mem (by decide) (List.mem_of_head? hh)
  simp [isSkippable, hne, hhead]

/-- A comment is skipped, whatever it says. -/
theorem isSkippable_comment (comment : Text) :
    isSkippable (trim (dropCr ('#' :: comment))) = true := by
  obtain ⟨rest, hrest⟩ : ∃ rest, dropCr ('#' :: comment) = '#' :: rest := by
    unfold dropCr
    split_ifs with hcr
    · cases comment with
      | nil => exact absurd hcr (by decide)
      | cons c comment => exact ⟨_, List.dropLast_cons_cons⟩
    · exact ⟨comment, rfl⟩
  have hfront : ('#' :: rest).dropWhile isSpace = '#' :: rest := rfl
  obtain ⟨tail, htail⟩ : ∃ tail, ('#' :: rest).rdropWhile isSpace = '#' :: tail := by
    have hfirst := List.rdropWhile_prefix isSpace (l := '#' :: rest)
    cases htrim : ('#' :: rest).rdropWhile isSpace with
    | nil =>
        rw [List.rdropWhile_eq_nil_iff] at htrim
        exact absurd (htrim '#' (by simp)) (by decide)
    | cons c tail =>
        rw [htrim, List.cons_prefix_cons] at hfirst
        exact ⟨tail, by rw [hfirst.1]⟩
  rw [hrest, trim, hfront, htail]
  rfl

/-! ## Lines written and read -/

theorem splitLines_line {line : Text} (h : '\n' ∉ line) (text : Text) :
    splitLines (line ++ '\n' :: text) = line :: splitLines text := by
  induction line with
  | nil => rw [List.nil_append, splitLines, if_pos rfl]
  | cons c line ih =>
      have hc : c ≠ '\n' := fun heq => h (by simp [heq])
      rw [List.cons_append, splitLines, if_neg hc, ih (fun hmem => h (by simp [hmem]))]

/-- **Lines that were written are read.** -/
theorem splitLines_unlines {lines : List Text} (h : ∀ line ∈ lines, '\n' ∉ line) :
    splitLines (unlines lines) = lines := by
  induction lines with
  | nil => rfl
  | cons line lines ih =>
      rw [unlines, List.flatMap_cons, List.append_assoc, List.singleton_append,
        splitLines_line (h line (by simp))]
      exact congrArg (line :: ·) (ih (fun l hl => h l (by simp [hl])))

theorem dropBom_eq_self {text : Text} (h : text.head? ≠ some (Char.ofNat 0xEF)) :
    dropBom text = text := by
  unfold dropBom
  rw [if_neg]
  intro hbom
  obtain ⟨rest, rfl⟩ := hbom
  exact h rfl

/-- Comment lines, each ended by LF. -/
def commentLines (comments : List Text) : Text := unlines (comments.map ('#' :: ·))

/-- **The data lines of a written text** are the lines after the comments. -/
theorem dataLines_written {comments : List Text} (hcomments : ∀ c ∈ comments, '\n' ∉ c)
    {header : Text} {lines : List Text} (hplain : ∀ line ∈ header :: lines, IsPlain line)
    (hbom : header.head? ≠ some (Char.ofNat 0xEF)) :
    dataLines (commentLines comments ++ unlines (header :: lines)) = header :: lines := by
  have htext : commentLines comments ++ unlines (header :: lines)
      = unlines (comments.map ('#' :: ·) ++ header :: lines) := by
    simp [commentLines, unlines]
  have hhead : (commentLines comments ++ unlines (header :: lines)).head?
      ≠ some (Char.ofNat 0xEF) := by
    cases comments with
    | nil =>
        have hne := (hplain header (by simp)).ne_nil
        obtain ⟨first, rest, rfl⟩ := List.exists_cons_of_ne_nil hne
        exact hbom
    | cons c comments =>
        have hfirst : '#' ≠ Char.ofNat 0xEF := by decide
        exact fun h => hfirst (Option.some.inj h)
  have hlf : ∀ line ∈ comments.map ('#' :: ·) ++ header :: lines, '\n' ∉ line := by
    intro line hline
    rcases List.mem_append.mp hline with hc | hl
    · obtain ⟨c, hmem, rfl⟩ := List.mem_map.mp hc
      simpa using hcomments c hmem
    · exact (hplain line hl).not_mem (by decide)
  -- the comments are skipped and the plain lines are kept as they are
  unfold dataLines
  rw [dropBom_eq_self hhead, htext, splitLines_unlines hlf, List.map_append, List.filter_append]
  have hskip : ((comments.map ('#' :: ·)).map (fun line => trim (dropCr line))).filter
      (fun line => !isSkippable line) = [] := by
    rw [List.filter_eq_nil_iff]
    intro line hline
    simp only [List.map_map, List.mem_map, Function.comp_apply] at hline
    obtain ⟨c, _, rfl⟩ := hline
    simp [isSkippable_comment]
  have hkeep : (header :: lines).map (fun line => trim (dropCr line)) = header :: lines :=
    (List.map_congr_left (g := id) (fun line hl => (hplain line hl).trim_dropCr)).trans
      (List.map_id _)
  rw [hskip, hkeep, List.nil_append, List.filter_eq_self]
  intro line hl
  simp [(hplain line hl).not_skippable]

/-- A header and one line for each row are the data lines of the text that they make up. -/
theorem dataLines_written_rows {α : Type} {comments : List Text}
    (hcomments : ∀ c ∈ comments, '\n' ∉ c) {header : Text} (hheader : IsPlain header)
    (hbom : header.head? ≠ some (Char.ofNat 0xEF)) {line : α → Text} {rows : List α}
    (hrows : ∀ row ∈ rows, IsPlain (line row)) :
    dataLines (commentLines comments ++ unlines (header :: rows.map line))
      = header :: rows.map line := by
  refine dataLines_written hcomments (fun text htext => ?_) hbom
  rcases List.mem_cons.mp htext with rfl | hmem
  · exact hheader
  · obtain ⟨row, hrow, rfl⟩ := List.mem_map.mp hmem
    exact hrows row hrow

end RouteEngine
