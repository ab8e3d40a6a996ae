import RouteEngine.CsvDefect
import RouteEngine.CsvPadding

set_option autoImplicit false

/-! # Files with another layout

A text may be given another layout (`Rewriting`): a byte order mark, CRLF for LF, no final
newline, inserted blank and comment lines, and blanks around fields. The loader returns the same
graph for it, or fails at the line that the first defect has come to (`physicalLine`). -/

namespace RouteEngine

/-! ## Layout -/

/-- Lines without LF and CR, and without a byte order mark at the start of the first. -/
structure PlainLines (lines : List Text) : Prop where
  no_lf : ∀ line ∈ lines, '\n' ∉ line
  no_cr : ∀ line ∈ lines, '\r' ∉ line
  no_bom : ∀ line ∈ lines.head?, ¬ kUtf8Bom <+: line

/-- A blank line, or a comment after blanks. -/
def BlankOrComment (line : Text) : Prop :=
  ∃ blanks rest, line = blanks ++ rest ∧ Blank blanks ∧ ∀ c ∈ rest.head?, c = '#'

/-- A line of the text with the new layout: an inserted line, or one that stands for a line of
the text before. -/
inductive Edit where
  | insert (line : Text) (crlf : Bool)
  | keep (line : Text) (crlf : Bool)

/-- The line up to LF. -/
def Edit.raw : Edit → Text
  | .insert line crlf => line ++ if crlf then ['\r'] else []
  | .keep line crlf => line ++ if crlf then ['\r'] else []

/-- The script gives the lines another layout. -/
inductive Edits : List Edit → List Text → Prop
  | nil : Edits [] []
  | insert {line : Text} {script : List Edit} {lines : List Text} (crlf : Bool) :
      BlankOrComment line → '\n' ∉ line → Edits script lines →
        Edits (.insert line crlf :: script) lines
  | keep {line line' : Text} {script : List Edit} {lines : List Text} (crlf : Bool) :
      Padded line line' → Edits script lines → Edits (.keep line' crlf :: script) (line :: lines)

/-- A text with a new layout. -/
structure Rewriting where
  script : List Edit
  bom : Bool
  finalNewline : Bool

def Rewriting.text (r : Rewriting) : Text :=
  let body := unlines (r.script.map Edit.raw)
  (if r.bom then kUtf8Bom else []) ++ if r.finalNewline then body else body.dropLast

/-- The number that line `number` gets; there is no line `0`. -/
def physicalLine : List Edit → Nat → Nat
  | _, 0 => 0
  | [], number + 1 => number + 1
  | .insert _ _ :: script, number + 1 => physicalLine script (number + 1) + 1
  | .keep _ _ :: script, number + 1 => physicalLine script number + 1

@[simp] theorem physicalLine_zero (script : List Edit) : physicalLine script 0 = 0 := by
  rw [physicalLine]

/-- **The physical line of a line** is the line that stands for it. -/
theorem physicalLine_spec {script : List Edit} {lines : List Text} (h : Edits script lines)
    {i : Nat} {line : Text} (hline : lines[i]? = some line) :
    ∃ j line' crlf, physicalLine script (i + 1) = j + 1 ∧ script[j]? = some (.keep line' crlf) ∧
      Padded line line' := by
  induction h generalizing i with
  | nil => cases hline
  | insert crlf _ _ _ ih =>
      rcases ih hline with ⟨j, line', crlf', hj, hscript, hpadded⟩
      refine ⟨j + 1, line', crlf', ?_, hscript, hpadded⟩
      rw [physicalLine, hj]
  | @keep first first' script lines crlf hfirst _ ih =>
      cases i with
      | zero =>
          rw [List.getElem?_cons_zero, Option.some.injEq] at hline
          exact ⟨0, first', crlf, by rw [physicalLine, physicalLine_zero], rfl, hline ▸ hfirst⟩
      | succ i =>
          rcases ih hline with ⟨j, line', crlf', hj, hscript, hpadded⟩
          refine ⟨j + 1, line', crlf', ?_, hscript, hpadded⟩
          rw [physicalLine, hj]

/-! ## Lines of a rewritten text -/

/-- A line is skipped when nothing, or a comment, is left of it. -/
theorem isSkippable_trim_iff {line : Text} :
    isSkippable (trim line) = true ↔ ∀ c ∈ (ink line).head?, c = '#' := by
  rw [isSkippable_trim]
  cases ink line <;> simp

theorem isSkippable_blankOrComment {line : Text} (h : BlankOrComment line) :
    isSkippable (trim line) = true := by
  rcases h with ⟨blanks, rest, rfl, hblank, hrest⟩
  rw [isSkippable_trim_iff]
  have hink : ink (blanks ++ rest) = ink rest :=
    ink_padded ⟨blanks, [], hblank, blank_nil, (List.append_nil _).symm⟩
  rw [hink]
  cases rest with
  | nil => intro c hc; cases hc
  | cons d rest =>
      have hd : d = '#' := hrest d rfl
      subst hd
      intro c hc
      exact (Option.some.inj hc).symm

/-- An end of a line that is skipped may be cut off. -/
theorem isSkippable_of_prefix {line line' : Text} (hstart : line' <+: line)
    (h : isSkippable (trim line) = true) : isSkippable (trim line') = true := by
  rw [isSkippable_trim_iff] at h ⊢
  intro c hc
  apply h c
  rcases hstart.filter (fun c => !isSpace c) with ⟨rest, hrest⟩
  have hc' : (ink line').head? = some c := hc
  show (ink line).head? = some c
  rw [show ink line = ink line' ++ rest from hrest.symm, List.head?_append, hc']
  rfl

theorem dropCr_append_cr {line : Text} (crlf : Bool) (h : '\r' ∉ line) :
    dropCr (line ++ if crlf then ['\r'] else []) = line := by
  rw [dropCr_append h]
  cases crlf <;> simp [dropCr]

theorem no_lf_append_cr {line : Text} (crlf : Bool) (h : '\n' ∉ line) :
    '\n' ∉ line ++ if crlf then ['\r'] else [] := by
  cases crlf <;> simpa using h

/-- Nothing that ends a line belongs to a byte order mark. -/
theorem bom_prefix_of_ended {line rest : Text} {c : Char} (hc : c ∉ kUtf8Bom)
    (h : kUtf8Bom <+: line ++ c :: rest) : kUtf8Bom <+: line := by
  apply prefix_of_prefix_append h
  intro d hd
  rwa [← Option.some.inj hd]

theorem bom_prefix_of_cr {line : Text} (crlf : Bool)
    (h : kUtf8Bom <+: line ++ if crlf then ['\r'] else []) : kUtf8Bom <+: line := by
  cases crlf with
  | false => simpa using h
  | true => exact bom_prefix_of_ended (by decide) h

theorem no_bom_unlines {raws : List Text} (h : ∀ raw ∈ raws.head?, ¬ kUtf8Bom <+: raw) :
    ¬ kUtf8Bom <+: unlines raws := by
  cases raws with
  | nil => exact fun hbom => absurd (List.prefix_nil.mp hbom) (by decide)
  | cons raw raws =>
      intro hbom
      rw [unlines, List.flatMap_cons, List.append_assoc, List.singleton_append] at hbom
      exact h raw rfl (bom_prefix_of_ended (by decide) hbom)

theorem no_bom_blankOrComment {line : Text} (h : BlankOrComment line) : ¬ kUtf8Bom <+: line := by
  rcases h with ⟨blanks, rest, rfl, hblank, hrest⟩
  intro hbom
  cases blanks with
  | nil =>
      rcases hbom with ⟨after, hafter⟩
      have hfirst := hrest (Char.ofNat 0xEF) (by rw [← List.nil_append rest, ← hafter]; rfl)
      exact absurd hfirst (by decide)
  | cons c blanks =>
      have hfirst : Char.ofNat 0xEF = c := (List.cons_prefix_cons.mp hbom).1
      have hspace : isSpace c = true := hblank c List.mem_cons_self
      rw [← hfirst] at hspace
      exact absurd hspace (by decide)

theorem Edits.no_lf {script : List Edit} {lines : List Text} (h : Edits script lines)
    (hlines : ∀ line ∈ lines, '\n' ∉ line) : ∀ raw ∈ script.map Edit.raw, '\n' ∉ raw := by
  induction h with
  | nil => simp
  | insert crlf _ hlf _ ih =>
      rw [List.map_cons, List.forall_mem_cons]
      exact ⟨no_lf_append_cr crlf hlf, ih hlines⟩
  | keep crlf hpadded _ ih =>
      rw [List.forall_mem_cons] at hlines
      rw [List.map_cons, List.forall_mem_cons]
      refine ⟨no_lf_append_cr crlf ?_, ih hlines.2⟩
      exact fun hmem => hlines.1 (hpadded.mem_of_mem hmem (by decide))

theorem Edits.no_bom {script : List Edit} {lines : List Text} (h : Edits script lines)
    (hlines : ∀ line ∈ lines.head?, ¬ kUtf8Bom <+: line) :
    ∀ raw ∈ (script.map Edit.raw).head?, ¬ kUtf8Bom <+: raw := by
  intro raw hraw hbom
  cases h with
  | nil => cases hraw
  | insert crlf hline _ _ =>
      rw [← Option.some.inj hraw] at hbom
      exact no_bom_blankOrComment hline (bom_prefix_of_cr crlf hbom)
  | @keep line _ _ _ crlf hpadded _ =>
      rw [← Option.some.inj hraw] at hbom
      exact hlines line rfl (hpadded.bom_prefix (bom_prefix_of_cr crlf hbom))

/-- Without the final LF, an empty last line is gone. -/
theorem splitLines_dropLast {raws : List Text} (h : ∀ raw ∈ raws, '\n' ∉ raw) :
    ∃ last, raws = splitLines (unlines raws).dropLast ++ last ∧ (last = [] ∨ last = [[]]) := by
  induction raws with
  | nil => exact ⟨[], rfl, .inl rfl⟩
  | cons raw raws ih =>
      rw [List.forall_mem_cons] at h
      have hunlines : unlines (raw :: raws) = raw ++ '\n' :: unlines raws := by
        rw [unlines, List.flatMap_cons, List.append_assoc, List.singleton_append]
        rfl
      rw [hunlines]
      by_cases hraws : raws = []
      · subst hraws
        have hlast : (raw ++ '\n' :: unlines []).dropLast = raw := List.dropLast_concat
        rw [hlast]
        by_cases hraw : raw = []
        · subst hraw
          exact ⟨[[]], rfl, .inr rfl⟩
        · have hline := splitLines_append h.1 hraw []
          rw [List.append_nil] at hline
          exact ⟨[], by rw [hline]; rfl, .inl rfl⟩
      · have hne : unlines raws ≠ [] := by
          rcases List.exists_cons_of_ne_nil hraws with ⟨next, rest, rfl⟩
          simp [unlines]
        have hlast : (raw ++ '\n' :: unlines raws).dropLast
            = raw ++ '\n' :: (unlines raws).dropLast := by
          rw [List.dropLast_append_of_ne_nil (List.cons_ne_nil _ _),
            List.dropLast_cons_of_ne_nil hne]
        rcases ih h.2 with ⟨last, heq, hcases⟩
        refine ⟨last, ?_, hcases⟩
        rw [hlast, splitLines_line h.1, List.cons_append, ← heq]

theorem numbered_append_empty (lines : List Text) (before : Nat) :
    numbered (lines ++ [[]]) before = numbered lines before := by
  induction lines generalizing before with
  | nil => rfl
  | cons line lines ih => rw [List.cons_append, numbered, numbered, ih (before + 1)]

/-- **The data lines of a rewritten text** are those of its script. -/
theorem Rewriting.contents_text {r : Rewriting} {lines : List Text} (h : Edits r.script lines)
    (hlines : PlainLines lines) :
    contents (splitLines r.text) 0 = numbered ((r.script.map Edit.raw).map dropCr) 0 := by
  have hlf := h.no_lf hlines.no_lf
  have hbom := no_bom_unlines (h.no_bom hlines.no_bom)
  -- the text after the byte order mark
  have hbody : dropBom r.text = if r.finalNewline then unlines (r.script.map Edit.raw)
      else (unlines (r.script.map Edit.raw)).dropLast := by
    unfold Rewriting.text
    cases r.bom with
    | true => exact dropBom_append _
    | false =>
        have hnone : ¬ kUtf8Bom <+: if r.finalNewline then unlines (r.script.map Edit.raw)
            else (unlines (r.script.map Edit.raw)).dropLast := by
          intro hstart
          apply hbom
          cases hfinal : r.finalNewline with
          | true => simpa [hfinal] using hstart
          | false =>
              rw [hfinal] at hstart
              exact hstart.trans (List.dropLast_prefix _)
        unfold dropBom
        exact if_neg hnone
  rw [contents_splitLines, hbody]
  cases r.finalNewline with
  | true => rw [if_pos rfl, splitLines_unlines hlf]
  | false =>
      rw [if_neg (by decide)]
      rcases splitLines_dropLast hlf with ⟨last, heq, rfl | rfl⟩
      · rw [List.append_nil] at heq
        rw [← heq]
      · have hempty : dropCr [] = [] := rfl
        conv_rhs => rw [heq, List.map_append, List.map_singleton, hempty, numbered_append_empty]

/-- The data lines of plain lines. -/
theorem contents_unlines {lines : List Text} (h : PlainLines lines) :
    contents (splitLines (unlines lines)) 0 = numbered lines 0 := by
  have hbom : dropBom (unlines lines) = unlines lines := by
    unfold dropBom
    exact if_neg (no_bom_unlines h.no_bom)
  have hcr : lines.map dropCr = lines :=
    (List.map_congr_left (g := id) (fun line hline => dropCr_eq_self (h.no_cr line hline))).trans
      (List.map_id lines)
  rw [contents_splitLines, hbom, splitLines_unlines h.no_lf, hcr]

/-! ## The same data under other line numbers -/

/-- A line with the same fields, renumbered. -/
def SameData (renumber : Nat → Nat) (line line' : Nat × Text) : Prop :=
  line'.1 = renumber line.1 ∧ splitFields line'.2 = splitFields line.2

theorem SameData.hasFields_iff {renumber : Nat → Nat} {line line' : Nat × Text}
    (h : SameData renumber line line') {fields : Fields} :
    HasFields line'.2 fields ↔ HasFields line.2 fields := by
  rw [← splitFields_eq_ok_iff, h.2, splitFields_eq_ok_iff]

theorem SameData.isRowOf_iff {renumber : Nat → Nat} {line line' : Nat × Text}
    (h : SameData renumber line line') {α : Type} {P : Fields → α → Prop} {a : α} :
    (∃ fields, IsRow line'.2 fields ∧ P fields a) ↔ ∃ fields, IsRow line.2 fields ∧ P fields a := by
  rw [← isRowOf_splitFields, h.2, isRowOf_splitFields]

/-- The step of the induction: inserted lines are skipped, and the others are kept under the next
number. -/
theorem Edits.forall₂_numbered {script : List Edit} {lines : List Text} (h : Edits script lines)
    (hcr : ∀ line ∈ lines, '\r' ∉ line) {renumber : Nat → Nat} {before before' : Nat}
    (hrenumber : ∀ k, renumber (before + (k + 1)) = before' + physicalLine script (k + 1)) :
    List.Forall₂ (SameData renumber) (numbered lines before)
      (numbered ((script.map Edit.raw).map dropCr) before') := by
  induction h generalizing before before' with
  | nil => exact .nil
  | @insert line script lines crlf hline _ _ ih =>
      have hskip : isSkippable (trim (dropCr (Edit.insert line crlf).raw)) = true := by
        cases crlf with
        | false =>
            have hraw : (Edit.insert line false).raw = line := List.append_nil line
            rw [hraw]
            exact isSkippable_of_prefix (dropCr_prefix_line line) (isSkippable_blankOrComment hline)
        | true =>
            have hraw : dropCr (Edit.insert line true).raw = line := by
              simp [Edit.raw, dropCr]
            rw [hraw]
            exact isSkippable_blankOrComment hline
      rw [List.map_cons, List.map_cons, numbered, if_pos hskip]
      apply ih hcr
      intro k
      rw [hrenumber k, physicalLine]
      omega
  | @keep line line' script lines crlf hpadded _ ih =>
      rw [List.forall_mem_cons] at hcr
      have hraw : dropCr (Edit.keep line' crlf).raw = line' :=
        dropCr_append_cr crlf (fun hmem => hcr.1 (hpadded.mem_of_mem hmem (by decide)))
      have hrest : List.Forall₂ (SameData renumber) (numbered lines (before + 1))
          (numbered ((script.map Edit.raw).map dropCr) (before' + 1)) := by
        apply ih hcr.2
        intro k
        rw [Nat.add_assoc, Nat.add_comm 1, hrenumber (k + 1), physicalLine]
        omega
      rw [List.map_cons, List.map_cons, hraw, numbered, numbered, hpadded.isSkippable_eq]
      by_cases hskip : isSkippable (trim line) = true
      · rwa [if_pos hskip, if_pos hskip]
      · rw [if_neg hskip, if_neg hskip]
        refine .cons ⟨?_, ?_⟩ hrest
        · have hfirst := hrenumber 0
          rw [physicalLine, physicalLine_zero] at hfirst
          exact hfirst.symm
        · show splitFields (trim line') = splitFields (trim line)
          rw [splitFields_trim, splitFields_trim, hpadded.splitFields_eq]

/-- **The rewritten text has the same data lines**, each under the number of its physical line. -/
theorem Rewriting.sameData {r : Rewriting} {lines : List Text} (h : Edits r.script lines)
    (hlines : PlainLines lines) :
    List.Forall₂ (SameData (physicalLine r.script)) (numbered lines 0)
      (contents (splitLines r.text) 0) := by
  rw [r.contents_text h hlines]
  apply h.forall₂_numbered hlines.no_cr
  intro k
  rw [Nat.zero_add, Nat.zero_add]

theorem dataRows_eq (text : Text) :
    dataRows text = (contents (splitLines text) 0).map (fun line => splitFields line.2) := by
  rw [dataRows, ← map_contents_splitLines, List.map_map]
  rfl

theorem Rewriting.dataRows_text {r : Rewriting} {lines : List Text} (h : Edits r.script lines)
    (hlines : PlainLines lines) : dataRows r.text = dataRows (unlines lines) := by
  rw [dataRows_eq, dataRows_eq, contents_unlines hlines, ← List.forall₂_eq_eq_eq,
    List.forall₂_map_left_iff, List.forall₂_map_right_iff]
  exact (r.sameData h hlines).flip.imp (fun _ _ hsame => hsame.2)

/-! ## The same defects -/

section Defects

variable {β : Type} {names : Fields} {good good' : List β → Nat × Text → β → Prop} {f : β → β}
  {renumber : Nat → Nat} {lines lines' : List (Nat × Text)}

theorem forall₂_append_cons {R : Nat × Text → Nat × Text → Prop} {before after : List (Nat × Text)}
    {bad : Nat × Text} {l' : List (Nat × Text)} (h : List.Forall₂ R (before ++ bad :: after) l') :
    ∃ before' bad' after', l' = before' ++ bad' :: after' ∧ List.Forall₂ R before before' ∧
      R bad bad' := by
  have hdrop := List.forall₂_drop_append _ _ _ h.flip
  have htake := List.forall₂_take_append _ _ _ h.flip
  rcases List.forall₂_cons_right_iff.mp hdrop with ⟨bad', after', hbad, _, hrest⟩
  refine ⟨l'.take before.length, bad', after', ?_, htake.flip, hbad⟩
  rw [← hrest, List.take_append_drop]

/-- The first defect of the renumbered lines is that of the lines. -/
theorem Defect.renumbered
    (hgood : ∀ done line line' value, SameData renumber line line' → good done line value →
      good' (done.map f) line' (f value))
    (hbad : ∀ done line line' value', SameData renumber line line' →
      good' (done.map f) line' value' → ∃ value, good done line value)
    (hzero : renumber 0 = 0) {number : Nat} (h : Defect names good lines number)
    (hlines : List.Forall₂ (SameData renumber) lines lines') :
    Defect names good' lines' (renumber number) := by
  cases h with
  | noHeader heq =>
      subst heq
      cases hlines
      rw [hzero]
      exact .noHeader rfl
  | header heq hheader =>
      subst heq
      rcases List.forall₂_cons_left_iff.mp hlines with ⟨header', rows', hsame, _, rfl⟩
      rw [← hsame.1]
      exact .header rfl (fun hfields => hheader (hsame.hasFields_iff.mp hfields))
  | @row header bad before after values heq hheader hread hfirst =>
      subst heq
      rcases List.forall₂_cons_left_iff.mp hlines with ⟨header', rows', hsame, hrows, rfl⟩
      rcases forall₂_append_cons hrows with ⟨before', bad', after', rfl, hbefore, hsame'⟩
      rw [← hsame'.1]
      refine .row rfl (hsame.hasFields_iff.mpr hheader) (hread.map hgood hbefore) ?_
      intro value' hvalue'
      rcases hbad values bad bad' value' hsame' hvalue' with ⟨value, hvalue⟩
      exact hfirst value hvalue

end Defects

section Files

variable {F : Type}

/-- The record of the renumbered line. -/
def NodeRecord.renumbered (renumber : Nat → Nat) (record : NodeRecord F) : NodeRecord F :=
  ⟨record.externalId, record.coordinate, renumber record.line⟩

theorem map_externalId_renumbered (renumber : Nat → Nat) (records : List (NodeRecord F)) :
    (records.map (NodeRecord.renumbered renumber)).map NodeRecord.externalId
      = records.map NodeRecord.externalId := by
  rw [List.map_map]
  rfl

variable [IsFinite F] {fromChars : Text → Option (F × Text)} {renumber : Nat → Nat}
  {lines lines' : List (Nat × Text)}

theorem GoodNode.renumbered (done : List (NodeRecord F)) (line line' : Nat × Text)
    (record : NodeRecord F) (hsame : SameData renumber line line')
    (h : GoodNode fromChars done line record) :
    GoodNode fromChars (done.map (NodeRecord.renumbered renumber)) line'
      (record.renumbered renumber) where
  row := hsame.isRowOf_iff.mpr h.row
  line_eq := by rw [hsame.1, ← h.line_eq]; rfl
  fresh := by rw [map_externalId_renumbered]; exact h.fresh
  room := by rw [List.length_map]; exact h.room

theorem GoodNode.of_renumbered (done : List (NodeRecord F)) (line line' : Nat × Text)
    (record' : NodeRecord F) (hsame : SameData renumber line line')
    (h : GoodNode fromChars (done.map (NodeRecord.renumbered renumber)) line' record') :
    ∃ record, GoodNode fromChars done line record := by
  refine ⟨⟨record'.externalId, record'.coordinate, line.1⟩, hsame.isRowOf_iff.mp h.row, rfl, ?_, ?_⟩
  · have hfresh := h.fresh
    rwa [map_externalId_renumbered] at hfresh
  · have hroom := h.room
    rwa [List.length_map] at hroom

/-- The first defect of a node file comes to the line that its line has come to. -/
theorem NodeDefect.renumbered (hzero : renumber 0 = 0) {number : Nat}
    (h : NodeDefect fromChars lines number)
    (hlines : List.Forall₂ (SameData renumber) lines lines') :
    NodeDefect fromChars lines' (renumber number) :=
  Defect.renumbered GoodNode.renumbered GoodNode.of_renumbered hzero h hlines

theorem RepeatsId.renumbered {line first : Nat} {externalId : ExternalId}
    (h : RepeatsId fromChars lines line first externalId)
    (hlines : List.Forall₂ (SameData renumber) lines lines') :
    RepeatsId fromChars lines' (renumber line) (renumber first) externalId := by
  rcases h with ⟨header, bad, before, after, records, record, row, rfl, hheader, hread, hroom, hrow,
    rfl, rfl, hrecord, hid, rfl⟩
  rcases List.forall₂_cons_left_iff.mp hlines with ⟨header', rows', hsame, hrows, rfl⟩
  rcases forall₂_append_cons hrows with ⟨before', bad', after', rfl, hbefore, hsame'⟩
  refine ⟨header', bad', before', after', records.map (NodeRecord.renumbered renumber),
    record.renumbered renumber, row, rfl, hsame.hasFields_iff.mpr hheader,
    hread.map GoodNode.renumbered hbefore, ?_, hsame'.isRowOf_iff.mpr hrow, rfl, hsame'.1,
    List.mem_map_of_mem hrecord, hid, rfl⟩
  rw [List.length_map]
  exact hroom

variable [Zero F] [LT F]

theorem GoodEdge.renumbered {ids : List ExternalId} (done : List (StagedArc F))
    (line line' : Nat × Text) (arc : StagedArc F) (hsame : SameData renumber line line') :
    GoodEdge fromChars ids done line' arc ↔ GoodEdge fromChars ids done line arc :=
  ⟨fun h => ⟨hsame.isRowOf_iff.mp h.row, h.room⟩, fun h => ⟨hsame.isRowOf_iff.mpr h.row, h.room⟩⟩

/-- The first defect of an edge file comes to the line that its line has come to. -/
theorem EdgeDefect.renumbered {ids : List ExternalId} (hzero : renumber 0 = 0) {number : Nat}
    (h : EdgeDefect fromChars ids lines number)
    (hlines : List.Forall₂ (SameData renumber) lines lines') :
    EdgeDefect fromChars ids lines' (renumber number) := by
  -- the arcs of the rows do not depend on their numbers
  apply Defect.renumbered (f := id) ?_ ?_ hzero h hlines
  · intro done line line' arc hsame hgood
    rw [List.map_id]
    exact (GoodEdge.renumbered done line line' arc hsame).mpr hgood
  · intro done line line' arc hsame hgood
    rw [List.map_id] at hgood
    exact ⟨arc, (GoodEdge.renumbered done line line' arc hsame).mp hgood⟩

end Files

/-! ## The loader -/

section Load

variable {F : Type} [IsFinite F] {fromChars : Text → Option (F × Text)} {text text' : Text}

theorem NodeFile.of_dataRows {rows : List (NodeRow F)} (h : NodeFile fromChars text rows)
    (heq : dataRows text' = dataRows text) : NodeFile fromChars text' rows := by
  rcases rowsAre_iff.mpr h.lines with ⟨body, htext, hrows⟩
  exact ⟨rowsAre_iff.mp ⟨body, heq.trans htext, hrows⟩, h.distinct, h.length_le⟩

theorem EdgeFile.of_dataRows [Zero F] [LT F] {ids : List ExternalId} {arcs : List (StagedArc F)}
    (h : EdgeFile fromChars ids text arcs) (heq : dataRows text' = dataRows text) :
    EdgeFile fromChars ids text' arcs := by
  rcases rowsAre_iff.mpr h.lines with ⟨body, htext, hrows⟩
  exact ⟨rowsAre_iff.mp ⟨body, heq.trans htext, hrows⟩, h.length_le⟩

/-- The run fails at a line of a file. -/
def FailsAt {α : Type} (outcome : Outcome α) (name : String) (line : Nat) : Prop :=
  ∃ message, outcome = .error (.graphLoad name line message)

variable [Zero F] [Top F] [LT F] [DecidableLT F] [LE F] [DecidableLE F] [Div F] [FiniteOrder F]

/-- **The loader does not see the layout.** Let two texts of plain lines be given new layouts.
Then the same graph is loaded from both pairs of texts; or both runs fail at the first defect of
the node file; or there is none, and both fail at the first defect of the edge file. The line
that is reported for the new layout is the one that the defect has come to. A repeated identifier
is reported with the line that its first definition has come to. -/
theorem loadGraph_rewriting (fromChars : Text → Option (F × Text))
    (distance : Coord F → Coord F → F)
    (std : Comparison.Sorter (GraphBuilder.stagedBefore (F := F))) (nodes edges : List Text)
    (hnodes : PlainLines nodes) (hedges : PlainLines edges) (newNodes newEdges : Rewriting)
    (hnewNodes : Edits newNodes.script nodes) (hnewEdges : Edits newEdges.script edges)
    (nodesName edgesName : String) :
    let before := loadGraph fromChars distance std (.ofText (unlines nodes)) nodesName
      (.ofText (unlines edges)) edgesName
    let after := loadGraph fromChars distance std (.ofText newNodes.text) nodesName
      (.ofText newEdges.text) edgesName
    ((∃ g, before = .ok g ∧ after = .ok g) ∨
      (∃ line, NodeDefect fromChars (numbered nodes 0) line ∧ FailsAt before nodesName line ∧
        FailsAt after nodesName (physicalLine newNodes.script line)) ∨
      ∃ rows line, NodeFile fromChars (unlines nodes) rows ∧
        EdgeDefect fromChars (idsOf rows) (numbered edges 0) line ∧
        FailsAt before edgesName line ∧
        FailsAt after edgesName (physicalLine newEdges.script line)) ∧
    ∀ line first externalId, RepeatsId fromChars (numbered nodes 0) line first externalId →
      before = .error (duplicateIdError nodesName line first externalId) ∧
      after = .error (duplicateIdError nodesName (physicalLine newNodes.script line)
        (physicalLine newNodes.script first) externalId) := by
  intro before after
  have hnodeLines := contents_unlines hnodes
  have hnodeData := newNodes.sameData hnewNodes hnodes
  have hnodeRows := newNodes.dataRows_text hnewNodes hnodes
  constructor
  swap
  · intro line first externalId hrepeats
    constructor
    · apply loadGraph_of_nodes_error
      exact readNodes_of_repeatsId (hnodeLines ▸ hrepeats) nodesName
    · apply loadGraph_of_nodes_error
      exact readNodes_of_repeatsId (hrepeats.renumbered hnodeData) nodesName
  rcases nodeFile_or_defect fromChars (unlines nodes) with ⟨rows, hnodeFile⟩ | ⟨line, hdefect⟩
  swap
  · -- the node file has a defect
    right; left
    have hdefect' : NodeDefect fromChars (contents (splitLines newNodes.text) 0)
        (physicalLine newNodes.script line) :=
      NodeDefect.renumbered (physicalLine_zero _) (hnodeLines ▸ hdefect) hnodeData
    exact ⟨line, hnodeLines ▸ hdefect, loadGraph_of_nodeDefect hdefect,
      loadGraph_of_nodeDefect hdefect'⟩
  have hnodeFile' := hnodeFile.of_dataRows hnodeRows
  have hedgeLines := contents_unlines hedges
  rcases edgeFile_or_defect fromChars (idsOf rows) (unlines edges) with ⟨arcs, hedgeFile⟩ |
    ⟨line, hdefect⟩
  · -- both pairs of texts have the same rows and the same arcs
    left
    have hedgeFile' := hedgeFile.of_dataRows (newEdges.dataRows_text hnewEdges hedges)
    exact ⟨_, loadGraph_of_files distance std hnodeFile hedgeFile nodesName edgesName,
      loadGraph_of_files distance std hnodeFile' hedgeFile' nodesName edgesName⟩
  · -- the edge file has a defect
    right; right
    have hdefect' : EdgeDefect fromChars (idsOf rows) (contents (splitLines newEdges.text) 0)
        (physicalLine newEdges.script line) :=
      EdgeDefect.renumbered (physicalLine_zero _) (hedgeLines ▸ hdefect)
        (newEdges.sameData hnewEdges hedges)
    exact ⟨rows, line, hnodeFile, hedgeLines ▸ hdefect, loadGraph_of_edgeDefect hnodeFile hdefect,
      loadGraph_of_edgeDefect hnodeFile' hdefect'⟩

end Load

/-- Two nodes with one identifier. -/
def twiceLines : List Text := ["id,x,y".toList, "10,0.5,2".toList, "10,3,0".toList]

/-- The same with a byte order mark, a comment, blank lines, CRLF and blanks. -/
def twiceRewriting : Rewriting where
  script := [.insert " # places".toList true, .keep "  id ,x,y".toList true, .insert [] false,
    .keep "10,0.5,2".toList false, .insert "\t".toList true, .keep "10,3,0 ".toList true]
  bom := true
  finalNewline := false

theorem twiceRewriting_edits : Edits twiceRewriting.script twiceLines := by
  have hid : PaddedField "id".toList "  id ".toList :=
    ⟨"  ".toList, " ".toList, by decide, by decide, by decide⟩
  have hrest : Padded "x,y".toList "x,y".toList :=
    padded_of_paddedField ⟨[], [], by decide, by decide, by decide⟩
  apply Edits.insert _ ⟨" ".toList, "# places".toList, by decide, by decide, by simp⟩ (by decide)
  apply Edits.keep _ (Padded.comma hid (by decide) hrest)
  apply Edits.insert _ ⟨[], [], by decide, by decide, by simp⟩ (by decide)
  apply Edits.keep _ (padded_of_paddedField ⟨[], [], by decide, by decide, by decide⟩)
  apply Edits.insert _ ⟨"\t".toList, [], by decide, by decide, by simp⟩ (by decide)
  apply Edits.keep _ (padded_of_paddedField ⟨[], " ".toList, by decide, by decide, by decide⟩)
  exact .nil

theorem twiceLines_repeatsId : RepeatsId Binary64.ofText (numbered twiceLines 0) 3 2 10 := by
  have hten : IsDecimal "10".toList 10 := fromCharsU64_eq_some_iff.mp (by decide)
  have hfirst : IsNodeRow Binary64.ofText "10,0.5,2".toList
      ⟨10, ⟨⟨0x3FE0000000000000⟩, ⟨0x4000000000000000⟩⟩⟩ := by
    apply isRowOf_splitFields.mp
    exact ⟨("10".toList, "0.5".toList, "2".toList), by decide, by decide, by decide, by decide,
      hten, ⟨by decide +kernel, by decide⟩, ⟨by decide +kernel, by decide⟩⟩
  have hsecond : IsNodeRow Binary64.ofText "10,3,0".toList
      ⟨10, ⟨⟨0x4008000000000000⟩, 0⟩⟩ := by
    apply isRowOf_splitFields.mp
    exact ⟨("10".toList, "3".toList, "0".toList), by decide, by decide, by decide, by decide,
      hten, ⟨by decide +kernel, by decide⟩, ⟨by decide +kernel, by decide⟩⟩
  refine ⟨(1, "id,x,y".toList), (3, "10,3,0".toList), [(2, "10,0.5,2".toList)], [],
    [⟨10, ⟨⟨0x3FE0000000000000⟩, ⟨0x4000000000000000⟩⟩, 2⟩], _, _, by decide,
    splitFields_eq_ok_iff.mp (by decide), ?_, by decide, hsecond, rfl, rfl,
    List.mem_singleton_self _, rfl, rfl⟩
  exact .cons ⟨hfirst, rfl, by simp, by decide⟩ .nil

/-- The repeated identifier is on line 3 of the one text and on line 6 of the other. -/
theorem loadGraph_rewriting_twice :
    twiceRewriting.text = kUtf8Bom ++
      " # places\r\n  id ,x,y\r\n\n10,0.5,2\n\t\r\n10,3,0 \r".toList ∧
    loadGraph Binary64.ofText lineDistance (Comparison.insertionSort _)
      (.ofText (unlines twiceLines)) "nodes.csv" (.ofText []) "edges.csv"
      = .error (duplicateIdError "nodes.csv" 3 2 10) ∧
    loadGraph Binary64.ofText lineDistance (Comparison.insertionSort _)
      (.ofText twiceRewriting.text) "nodes.csv" (.ofText []) "edges.csv"
      = .error (duplicateIdError "nodes.csv" 6 4 10) := by
  have h := loadGraph_rewriting Binary64.ofText lineDistance (Comparison.insertionSort _) twiceLines
    [] ⟨by decide, by decide, by decide⟩ ⟨by simp, by simp, by simp⟩ twiceRewriting
    ⟨[], false, true⟩ twiceRewriting_edits .nil "nodes.csv" "edges.csv"
  exact ⟨by decide, h.2 3 2 10 twiceLines_repeatsId⟩

end RouteEngine
