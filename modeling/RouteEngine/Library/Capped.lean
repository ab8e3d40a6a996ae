import Mathlib.Algebra.Order.Monoid.Defs
import Mathlib.Algebra.Order.Monoid.Unbundled.Basic
import Mathlib.Order.WithBot

set_option autoImplicit false

/-! # Numbers with a largest finite value

The values of an ordered additive monoid up to a bound, with an infinity above them. A sum is
exact as long as it stays within the bound and infinite beyond it, so that addition still is
monotone but no longer cancels or associates. -/

/-- The values up to `max`, and the infinity `⊤`. -/
abbrev Capped (K : Type) [AddCommMonoid K] [LinearOrder K] (max : {m : K // 0 ≤ m}) : Type :=
  WithTop {x : K // x ≤ max.1}

namespace Capped

variable {K : Type} [AddCommMonoid K] [LinearOrder K] {max : {m : K // 0 ≤ m}}

/-- The value `x` where it is within the bound, and infinity beyond. -/
def cap (x : K) : Capped K max :=
  if h : x ≤ max.1 then WithTop.some ⟨x, h⟩ else ⊤

/-- The number a finite value stands for. -/
def value (a : Capped K max) : K := (WithTop.map Subtype.val a).untopD 0

instance : Zero (Capped K max) := ⟨cap 0⟩

instance : Add (Capped K max) := ⟨fun a b => if a = ⊤ ∨ b = ⊤ then ⊤ else cap (a.value + b.value)⟩

/-! ## Finite values -/

theorem cap_ne_top_iff {x : K} : (cap x : Capped K max) ≠ ⊤ ↔ x ≤ max.1 := by
  unfold cap
  by_cases h : x ≤ max.1
  · rw [dif_pos h]
    exact ⟨fun _ => h, fun _ => WithTop.coe_ne_top⟩
  · rw [dif_neg h]
    exact ⟨fun hne => absurd rfl hne, fun hle => absurd hle h⟩

theorem cap_eq_top {x : K} (h : max.1 < x) : (cap x : Capped K max) = ⊤ := by
  unfold cap
  rw [dif_neg (not_le.mpr h)]

theorem value_cap {x : K} (h : x ≤ max.1) : (cap x : Capped K max).value = x := by
  unfold cap
  rw [dif_pos h]
  rfl

/-- A value is infinite, or the number it stands for. -/
theorem eq_top_or_cap (a : Capped K max) : a = ⊤ ∨ a.value ≤ max.1 ∧ a = cap a.value := by
  induction a using WithTop.recTopCoe with
  | top => exact Or.inl rfl
  | coe x =>
      have hvalue : Capped.value (K := K) (WithTop.some x) = x.1 := rfl
      refine Or.inr ⟨hvalue.le.trans x.2, ?_⟩
      rw [hvalue, cap, dif_pos x.2]

theorem value_le {a : Capped K max} (h : a ≠ ⊤) : a.value ≤ max.1 :=
  (a.eq_top_or_cap.resolve_left h).1

theorem cap_value {a : Capped K max} (h : a ≠ ⊤) : cap a.value = a :=
  (a.eq_top_or_cap.resolve_left h).2.symm

/-- Below the bound the order is that of the numbers. -/
theorem cap_le_cap_iff {x y : K} (hx : x ≤ max.1) :
    (cap x : Capped K max) ≤ cap y ↔ x ≤ y := by
  by_cases hy : y ≤ max.1
  · unfold cap
    rw [dif_pos hx, dif_pos hy]
    exact WithTop.coe_le_coe
  · rw [cap_eq_top (not_le.mp hy)]
    exact ⟨fun _ => hx.trans (not_le.mp hy).le, fun _ => le_top⟩

theorem cap_mono {x y : K} (h : x ≤ y) : (cap x : Capped K max) ≤ cap y := by
  by_cases hx : x ≤ max.1
  · exact (cap_le_cap_iff hx).mpr h
  · rw [cap_eq_top ((not_le.mp hx).trans_le h)]
    exact le_top

theorem zero_def : (0 : Capped K max) = cap 0 := rfl

theorem zero_ne_top : (0 : Capped K max) ≠ ⊤ := cap_ne_top_iff.mpr max.2

theorem value_nonneg {a : Capped K max} (h : 0 ≤ a) : 0 ≤ a.value := by
  rcases a.eq_top_or_cap with rfl | ⟨-, heq⟩
  · exact le_rfl
  · rw [heq] at h
    exact (cap_le_cap_iff max.2).mp h

theorem le_value_of_cap_le {x : K} {a : Capped K max} (h : cap x ≤ a) (ha : a ≠ ⊤) :
    x ≤ a.value := by
  have hx : x ≤ max.1 := cap_ne_top_iff.mp (ne_top_of_le_ne_top ha h)
  rw [← cap_value ha] at h
  exact (cap_le_cap_iff hx).mp h

/-! ## Sums -/

@[simp] theorem top_add (a : Capped K max) : ⊤ + a = ⊤ := if_pos (Or.inl rfl)

@[simp] theorem add_top (a : Capped K max) : a + ⊤ = ⊤ := if_pos (Or.inr rfl)

theorem add_eq {a b : Capped K max} (ha : a ≠ ⊤) (hb : b ≠ ⊤) :
    a + b = cap (a.value + b.value) := if_neg (not_or.mpr ⟨ha, hb⟩)

theorem add_zero (a : Capped K max) : a + 0 = a := by
  rcases eq_or_ne a ⊤ with rfl | ha
  · exact top_add 0
  · rw [add_eq ha zero_ne_top, zero_def, value_cap max.2, AddMonoid.add_zero, cap_value ha]

/-- A sum of numbers that are not negative is exact up to the bound. -/
theorem cap_add_cap [IsOrderedAddMonoid K] {x y : K} (hx : 0 ≤ x) (hy : 0 ≤ y) :
    (cap x : Capped K max) + cap y = cap (x + y) := by
  by_cases hxm : x ≤ max.1
  · by_cases hym : y ≤ max.1
    · rw [add_eq (cap_ne_top_iff.mpr hxm) (cap_ne_top_iff.mpr hym), value_cap hxm, value_cap hym]
    · rw [cap_eq_top (not_le.mp hym), add_top,
        cap_eq_top ((not_le.mp hym).trans_le (le_add_of_nonneg_left hx))]
  · rw [cap_eq_top (not_le.mp hxm), top_add,
      cap_eq_top ((not_le.mp hxm).trans_le (le_add_of_nonneg_right hy))]

theorem value_mono {a b : Capped K max} (hab : a ≤ b) (hb : b ≠ ⊤) : a.value ≤ b.value := by
  have ha : a ≠ ⊤ := ne_top_of_le_ne_top hb hab
  rw [← cap_value ha] at hab
  exact le_value_of_cap_le hab hb

section

variable [IsOrderedAddMonoid K]

instance : AddRightMono (Capped K max) where
  elim := by
    intro c a b hab
    show a + c ≤ b + c
    by_cases hc : c = ⊤
    · rw [hc, add_top, add_top]
    by_cases hb : b = ⊤
    · rw [hb, top_add]
      exact le_top
    have ha : a ≠ ⊤ := ne_top_of_le_ne_top hb hab
    rw [add_eq ha hc, add_eq hb hc]
    exact cap_mono (add_le_add_left (value_mono hab hb) _)

instance : AddLeftMono (Capped K max) where
  elim := by
    intro c a b hab
    show c + a ≤ c + b
    by_cases hc : c = ⊤
    · rw [hc, top_add, top_add]
    by_cases hb : b = ⊤
    · rw [hb, add_top]
      exact le_top
    have ha : a ≠ ⊤ := ne_top_of_le_ne_top hb hab
    rw [add_eq hc ha, add_eq hc hb]
    exact cap_mono (add_le_add_right (value_mono hab hb) _)

theorem le_add (a : Capped K max) {w : Capped K max} (hw : 0 ≤ w) : a ≤ a + w := by
  calc a = a + 0 := (add_zero a).symm
    _ ≤ a + w := add_le_add_right hw a

end

/-- A sum within the bound can be cancelled. -/
theorem le_of_add_le_add [IsOrderedCancelAddMonoid K] {a b c : Capped K max} (hfin : a + c ≠ ⊤)
    (hle : a + c ≤ b + c) : a ≤ b := by
  by_cases hb : b = ⊤
  · rw [hb]
    exact le_top
  have ha : a ≠ ⊤ := fun h => hfin (by rw [h, top_add])
  have hc : c ≠ ⊤ := fun h => hfin (by rw [h, add_top])
  rw [add_eq ha hc] at hfin hle
  rw [add_eq hb hc, cap_le_cap_iff (cap_ne_top_iff.mp hfin)] at hle
  rw [← cap_value ha, ← cap_value hb]
  exact cap_mono (le_of_add_le_add_right hle)

end Capped
