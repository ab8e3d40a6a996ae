import Mathlib.Data.List.Forall2

set_option autoImplicit false

/-! # Reading a list item by item

Items are read one after another, and whether an item is good may depend on the values that were
read before it. `Reads good done items values` says that all items are good; an item list that is
not read has a first item that is not good (`Reads.total_or_stuck`). A loop whose rounds accept
the good items computes the values (`Reads.foldlM_eq`). -/

variable {α α' β β' ε σ : Type}

section Loops

variable {step : σ → α → Except ε σ} {items : List α} {state : σ} {e : ε}

/-- A loop that fails fails at an item. -/
theorem exists_step_of_foldlM_error (h : items.foldlM step state = .error e) :
    ∃ s, ∃ item ∈ items, step s item = .error e := by
  induction items generalizing state with
  | nil => cases h
  | cons item items ih =>
      rw [List.foldlM_cons] at h
      cases hstep : step state item with
      | error e' =>
          rw [hstep] at h
          obtain rfl : e' = e := Except.error.inj h
          exact ⟨state, item, List.mem_cons_self, hstep⟩
      | ok state' =>
          rw [hstep] at h
          obtain ⟨s, other, hmem, herror⟩ := ih h
          exact ⟨s, other, List.mem_cons_of_mem item hmem, herror⟩

/-- After a failure it does not matter which items follow. -/
theorem foldlM_append_of_error (h : items.foldlM step state = .error e) (after : List α) :
    (items ++ after).foldlM step state = .error e := by
  rw [List.foldlM_append, h]
  rfl

/-- A loop that fails in a way in which none of the later items does fails before them. -/
theorem foldlM_error_of_append {after : List α}
    (h : (items ++ after).foldlM step state = .error e)
    (hafter : ∀ s, ∀ item ∈ after, step s item ≠ .error e) :
    items.foldlM step state = .error e := by
  rw [List.foldlM_append] at h
  cases hfirst : items.foldlM step state with
  | error e' =>
      rw [hfirst] at h
      exact congrArg Except.error (Except.error.inj h)
  | ok state' =>
      rw [hfirst] at h
      obtain ⟨s, item, hmem, herror⟩ := exists_step_of_foldlM_error h
      exact absurd herror (hafter s item hmem)

end Loops

/-- After the values `done`, the items have the values `values`, each good after those before. -/
inductive Reads (good : List β → α → β → Prop) : List β → List α → List β → Prop
  | nil {done : List β} : Reads good done [] []
  | cons {done : List β} {item : α} {value : β} {items : List α} {values : List β} :
      good done item value → Reads good (done ++ [value]) items values →
        Reads good done (item :: items) (value :: values)

namespace Reads

variable {good : List β → α → β → Prop} {done values : List β} {items : List α}

/-- All items are good, or there is a first one that is not. -/
theorem total_or_stuck (good : List β → α → β → Prop) (items : List α) (done : List β) :
    (∃ values, Reads good done items values) ∨
      ∃ before bad after values, items = before ++ bad :: after ∧ Reads good done before values ∧
        ∀ value, ¬ good (done ++ values) bad value := by
  induction items generalizing done with
  | nil => exact .inl ⟨[], .nil⟩
  | cons item items ih =>
      by_cases hitem : ∃ value, good done item value
      · rcases hitem with ⟨value, hvalue⟩
        rcases ih (done ++ [value]) with ⟨values, h⟩ | ⟨before, bad, after, values, rfl, h, hbad⟩
        · exact .inl ⟨value :: values, .cons hvalue h⟩
        · refine .inr ⟨item :: before, bad, after, value :: values, rfl, .cons hvalue h, ?_⟩
          rwa [List.append_assoc] at hbad
      · refine .inr ⟨[], item, items, [], rfl, .nil, ?_⟩
        rw [List.append_nil]
        exact not_exists.mp hitem

/-- A property that every good item adds to holds after all of them. -/
theorem induct {P : List β → Prop}
    (hstep : ∀ done item value, P done → good done item value → P (done ++ [value]))
    (h : Reads good done items values) (hdone : P done) : P (done ++ values) := by
  induction h with
  | nil => rwa [List.append_nil]
  | @cons done item value items values hvalue _ ih =>
      have hrest := ih (hstep done item value hdone hvalue)
      rwa [List.append_assoc] at hrest

theorem forall₂ {R : α → β → Prop} (hgood : ∀ done item value, good done item value → R item value)
    (h : Reads good done items values) : List.Forall₂ R items values := by
  induction h with
  | nil => exact .nil
  | cons hvalue _ ih => exact .cons (hgood _ _ _ hvalue) ih

/-- Corresponding items are read alike. -/
theorem map {good' : List β' → α' → β' → Prop} {f : β → β'} {R : α → α' → Prop}
    (hgood : ∀ done item item' value, R item item' → good done item value →
      good' (done.map f) item' (f value))
    (h : Reads good done items values) {items' : List α'} (hitems : List.Forall₂ R items items') :
    Reads good' (done.map f) items' (values.map f) := by
  induction h generalizing items' with
  | nil =>
      cases hitems
      exact .nil
  | @cons done item value items values hvalue _ ih =>
      rcases List.forall₂_cons_left_iff.mp hitems with ⟨item', items', hitem, hrest, rfl⟩
      apply Reads.cons (hgood done item item' value hitem hvalue)
      simpa using ih hrest

/-! ## Loops -/

variable {step : σ → α → Except ε σ} {state : List β → σ}

/-- A loop that accepts the good items computes the values. -/
theorem foldlM_eq
    (hstep : ∀ done item value, good done item value →
      step (state done) item = .ok (state (done ++ [value])))
    (h : Reads good done items values) :
    items.foldlM step (state done) = .ok (state (done ++ values)) := by
  induction h with
  | nil =>
      rw [List.append_nil]
      rfl
  | @cons done item value items values hvalue _ ih =>
      rw [List.foldlM_cons, hstep done item value hvalue]
      show items.foldlM step (state (done ++ [value])) = _
      rw [ih, List.append_assoc, List.singleton_append]

/-- A loop that refuses an item after good ones stops there. -/
theorem foldlM_stuck
    (hstep : ∀ done item value, good done item value →
      step (state done) item = .ok (state (done ++ [value])))
    (h : Reads good done items values) {bad : α} {e : ε}
    (hbad : step (state (done ++ values)) bad = .error e) (after : List α) :
    (items ++ bad :: after).foldlM step (state done) = .error e := by
  rw [List.foldlM_append, h.foldlM_eq hstep]
  show (bad :: after).foldlM step (state (done ++ values)) = .error e
  rw [List.foldlM_cons, hbad]
  rfl

end Reads
