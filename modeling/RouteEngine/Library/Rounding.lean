import Mathlib.Algebra.Order.Field.Basic
import Mathlib.Algebra.Order.Monoid.WithTop
import Mathlib.Tactic.Linarith

set_option autoImplicit false

/-! # Rounded arithmetic

A rounding maps the numbers of an ordered field to the representable ones. Sums of representable
numbers are rounded, so addition is monotone and has a zero, but is not associative. What the
rounded sum of non-negative numbers still knows of the exact one is a factor (`Rounding.Within`). -/

/-- A monotone and odd map onto the representable numbers. -/
structure Rounding (K : Type) [Field K] [LinearOrder K] where
  round : K → K
  mono : Monotone round
  idem : ∀ x, round (round x) = round x
  neg : ∀ x, round (-x) = -round x

/-- A representable number. -/
def Rounded {K : Type} [Field K] [LinearOrder K] (r : Rounding K) : Type :=
  {x : K // r.round x = x}

variable {K : Type} [Field K] [LinearOrder K]

namespace Rounding

/-- Rounding changes a non-negative number by a factor of at most `ρ`. -/
structure Within (r : Rounding K) (ρ : K) : Prop where
  one_le : 1 ≤ ρ
  round_le : ∀ x, 0 ≤ x → r.round x ≤ ρ * x
  le_round : ∀ x, 0 ≤ x → x ≤ ρ * r.round x

variable [IsStrictOrderedRing K] (r : Rounding K)

theorem round_zero : r.round 0 = 0 := by
  have h := r.neg 0
  rw [neg_zero] at h
  linarith

theorem round_nonneg {x : K} (h : 0 ≤ x) : 0 ≤ r.round x := by
  rw [← r.round_zero]
  exact r.mono h

theorem round_abs (x : K) : r.round |x| = |r.round x| := by
  rcases le_total 0 x with h | h
  · rw [abs_of_nonneg h, abs_of_nonneg (r.round_nonneg h)]
  · have hneg := r.round_nonneg (neg_nonneg.mpr h)
    rw [r.neg] at hneg
    rw [abs_of_nonpos h, abs_of_nonpos (neg_nonneg.mp hneg), r.neg]

end Rounding

namespace Rounded

variable {r : Rounding K}

instance : LinearOrder (Rounded r) := inferInstanceAs (LinearOrder {x : K // r.round x = x})

theorem le_iff {a b : Rounded r} : a ≤ b ↔ a.1 ≤ b.1 := Iff.rfl

/-- The rounded value of a number. -/
def of (r : Rounding K) (x : K) : Rounded r := ⟨r.round x, r.idem x⟩

instance : Add (Rounded r) := ⟨fun a b => of r (a.1 + b.1)⟩

instance : Sub (Rounded r) := ⟨fun a b => of r (a.1 - b.1)⟩

instance : Div (Rounded r) := ⟨fun a b => of r (a.1 / b.1)⟩

theorem val_add (a b : Rounded r) : (a + b).1 = r.round (a.1 + b.1) := rfl

theorem val_sub (a b : Rounded r) : (a - b).1 = r.round (a.1 - b.1) := rfl

variable [IsStrictOrderedRing K]

instance : Zero (Rounded r) := ⟨⟨0, r.round_zero⟩⟩

theorem val_zero : (0 : Rounded r).1 = 0 := rfl

/-- `fabs`, which needs no rounding. -/
def abs (a : Rounded r) : Rounded r := ⟨|a.1|, by rw [r.round_abs, a.2]⟩

instance : AddLeftMono (Rounded r) where
  elim a _ _ h := r.mono (add_le_add_right (Subtype.coe_le_coe.mpr h) a.1)

instance : AddRightMono (Rounded r) where
  elim a _ _ h := r.mono (add_le_add_left (Subtype.coe_le_coe.mpr h) a.1)

protected theorem add_zero (a : Rounded r) : a + 0 = a := by
  apply Subtype.ext
  rw [val_add, val_zero, add_zero, a.2]

protected theorem zero_add (a : Rounded r) : 0 + a = a := by
  apply Subtype.ext
  rw [val_add, val_zero, zero_add, a.2]

/-- Adding a non-negative number lowers nothing. -/
theorem le_add (a : Rounded r) {w : Rounded r} (hw : 0 ≤ w) : a ≤ a + w := by
  calc a = a + 0 := a.add_zero.symm
    _ ≤ a + w := add_le_add_right hw a

protected theorem sub_self (a : Rounded r) : a - a = 0 := by
  apply Subtype.ext
  rw [val_sub, sub_self, r.round_zero]
  rfl

end Rounded
