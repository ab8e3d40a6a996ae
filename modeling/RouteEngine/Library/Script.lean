import Mathlib.Data.List.Basic

set_option autoImplicit false

/-! # Loops whose rounds are known in advance

A computation that throws is *scripted* when it is known for each of its rounds whether the
round throws, and what the state is after it if it does not. `passOr failure b` is the outcome
of one round, and a loop of scripted rounds is again one: it throws what its first failing
round throws (`foldlM_range`). -/

namespace Script

variable {ε β γ : Type}

/-- A round that fails with `failure`, or passes and leaves `b`. -/
def passOr (failure : Option ε) (b : β) : Except ε β := failure.elim (.ok b) .error

@[simp] theorem passOr_none (b : β) : passOr (none : Option ε) b = .ok b := rfl

@[simp] theorem passOr_some (e : ε) (b : β) : passOr (some e) b = .error e := rfl

theorem passOr_eq_ok {failure : Option ε} {b c : β} :
    passOr failure b = .ok c ↔ failure = none ∧ b = c := by
  cases failure <;> simp

theorem passOr_eq_error {failure : Option ε} {b : β} {e : ε} :
    passOr failure b = .error e ↔ failure = some e := by
  cases failure <;> simp

/-- One round after another. -/
theorem passOr_bind (f : β → Except ε γ) {first second : Option ε} {b : β} {c : γ}
    (h : f b = passOr second c) : (passOr first b >>= f) = passOr (first.or second) c := by
  cases first with
  | none => exact h
  | some e => rfl

/-- **A loop of scripted rounds is scripted**: round `i` takes the state `state i` to
`state (i + 1)` or throws `failure i`. -/
theorem foldlM_range (f : β → Nat → Except ε β) (state : Nat → β) (failure : Nat → Option ε)
    (n : Nat) (hround : ∀ i, i < n → f (state i) i = passOr (failure i) (state (i + 1))) :
    (List.range n).foldlM f (state 0)
      = passOr ((List.range n).findSome? failure) (state n) := by
  induction n with
  | zero => rfl
  | succ n ih =>
      have hlast : [n].foldlM f (state n) = passOr (failure n) (state (n + 1)) := by
        rw [List.foldlM_cons, hround n (by omega)]
        cases failure n <;> rfl
      have hfail : [n].findSome? failure = failure n := by
        rw [List.findSome?_cons]
        cases failure n <;> rfl
      rw [List.range_succ, List.foldlM_append, ih (fun i hi => hround i (by omega)),
        List.findSome?_append, hfail]
      exact passOr_bind (fun s => [n].foldlM f s) hlast

/-- The failure of a loop is that of its first failing round. -/
theorem findSome?_range_eq_some {failure : Nat → Option ε} {n : Nat} {e : ε} :
    (List.range n).findSome? failure = some e ↔
      ∃ i, i < n ∧ failure i = some e ∧ ∀ j, j < i → failure j = none := by
  induction n with
  | zero => simp
  | succ n ih =>
      rw [List.range_succ, List.findSome?_append, Option.or_eq_some_iff, ih,
        List.findSome?_eq_none_iff]
      constructor
      · rintro (⟨i, hi, hfail, hbefore⟩ | ⟨hbefore, hfail⟩)
        · exact ⟨i, by omega, hfail, hbefore⟩
        · exact ⟨n, by omega, by simpa using hfail, fun j hj => hbefore j (by simpa using hj)⟩
      · rintro ⟨i, hi, hfail, hbefore⟩
        rcases Nat.lt_succ_iff_lt_or_eq.mp hi with hlt | rfl
        · exact Or.inl ⟨i, hlt, hfail, hbefore⟩
        · exact Or.inr ⟨fun j hj => hbefore j (by simpa using hj), by simpa using hfail⟩

end Script
