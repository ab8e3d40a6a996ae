import Mathlib.Algebra.Order.Floor.Ring
import Mathlib.Data.Int.Log
import Mathlib.Algebra.Order.Field.Basic
import Mathlib.Tactic.Linarith
import Mathlib.Tactic.NormNum
import Mathlib.Tactic.Positivity
import Mathlib.Tactic.Ring
import RouteEngine.Library.Rounding

set_option autoImplicit false

/-! # Rounding to nearest, ties to even

`roundEven` rounds to an integer. `nearestEven` rounds to a number of significant bits: the
spacing of the representable numbers around `x` is `spacing bits x`, and exponents are not
bounded. -/

variable {K : Type} [Field K] [LinearOrder K]

/-! ## To an integer -/

/-- `n` is nearer to `x` than its neighbour on the other side, or as near and even. -/
def IsNearestEven (x : K) (n : ℤ) : Prop :=
  |x - n| < 1 - |x - n| ∨ |x - n| = 1 - |x - n| ∧ Even n

variable [IsStrictOrderedRing K]

theorem IsNearestEven.dist_le {x : K} {n : ℤ} (h : IsNearestEven x n) : |x - n| ≤ 1 / 2 := by
  rcases h with hlt | ⟨heq, -⟩
  · linarith
  · linarith

theorem abs_sub_le_of_both {x : K} {n m : ℤ} {a b : K} (hn : |x - n| ≤ a) (hm : |x - m| ≤ b) :
    ((|n - m| : ℤ) : K) ≤ b + a := by
  have heq : ((n - m : ℤ) : K) = (x - m) - (x - n) := by
    push_cast
    ring
  rw [Int.cast_abs, heq]
  exact (abs_sub _ _).trans (add_le_add hm hn)

theorem IsNearestEven.unique {x : K} {n m : ℤ} (hn : IsNearestEven x n) (hm : IsNearestEven x m) :
    n = m := by
  have hle : |n - m| ≤ 1 := by
    have hone := abs_sub_le_of_both hn.dist_le hm.dist_le
    rw [add_halves] at hone
    exact_mod_cast hone
  by_contra hne
  have hone : |n - m| = 1 := le_antisymm hle (Int.one_le_abs (sub_ne_zero.mpr hne))
  -- neighbours are both at the distance one half, and one of them is odd
  have hfar : ∀ {a b : K}, |x - n| ≤ a → |x - m| ≤ b → 1 ≤ b + a := by
    intro a b ha hb
    have hsum := abs_sub_le_of_both ha hb
    rwa [hone, Int.cast_one] at hsum
  have hn' : Even n := by
    rcases hn with hlt | ⟨-, heven⟩
    · linarith [hfar le_rfl hm.dist_le]
    · exact heven
  have hm' : Even m := by
    rcases hm with hlt | ⟨-, heven⟩
    · linarith [hfar hn.dist_le le_rfl]
    · exact heven
  rcases hn' with ⟨a, rfl⟩
  rcases hm' with ⟨b, rfl⟩
  rw [abs_le] at hle
  omega

variable [FloorRing K]

/-- The integer nearest to `x`, the even one of two. -/
def roundEven (x : K) : ℤ :=
  if Int.fract x < 1 - Int.fract x then ⌊x⌋
  else if 1 - Int.fract x < Int.fract x then ⌊x⌋ + 1
  else ⌊x⌋ + ⌊x⌋ % 2

theorem isNearestEven_roundEven (x : K) : IsNearestEven x (roundEven x) := by
  have hsplit : x = ⌊x⌋ + Int.fract x := (Int.floor_add_fract x).symm
  have hnonneg := Int.fract_nonneg x
  have hlt := Int.fract_lt_one x
  unfold IsNearestEven roundEven
  split_ifs with hbelow habove
  · left
    have hdiff : x - ⌊x⌋ = Int.fract x := by linarith
    rw [hdiff, abs_of_nonneg hnonneg]
    exact hbelow
  · left
    push_cast
    have hdiff : x - (⌊x⌋ + 1) = -(1 - Int.fract x) := by linarith
    rw [hdiff, abs_neg, abs_of_pos (by linarith)]
    linarith
  · -- halfway between two integers
    have hhalf : Int.fract x = 1 / 2 := by linarith [not_lt.mp habove, not_lt.mp hbelow]
    right
    rcases Int.even_or_odd ⌊x⌋ with heven | hodd
    · rw [Int.even_iff.mp heven, add_zero]
      refine ⟨?_, heven⟩
      have hdiff : x - ⌊x⌋ = 1 / 2 := by linarith
      rw [hdiff, abs_of_pos one_half_pos, sub_half]
    · rw [Int.odd_iff.mp hodd]
      refine ⟨?_, hodd.add_odd odd_one⟩
      push_cast
      have hdiff : x - (⌊x⌋ + 1) = -(1 / 2) := by linarith
      rw [hdiff, abs_neg, abs_of_pos one_half_pos, sub_half]

theorem roundEven_eq_iff {x : K} {n : ℤ} : roundEven x = n ↔ IsNearestEven x n :=
  ⟨fun h => h ▸ isNearestEven_roundEven x, fun h => (isNearestEven_roundEven x).unique h⟩

@[simp] theorem roundEven_intCast (n : ℤ) : roundEven (n : K) = n := by
  rw [roundEven_eq_iff]
  left
  simp

theorem roundEven_neg (x : K) : roundEven (-x) = -roundEven x := by
  have hdist : |(-x) - ((-roundEven x : ℤ) : K)| = |x - roundEven x| := by
    push_cast
    rw [← abs_neg]
    congr 1
    ring
  rw [roundEven_eq_iff]
  unfold IsNearestEven
  rw [hdist, even_neg]
  exact isNearestEven_roundEven x

theorem roundEven_mono {x y : K} (h : x ≤ y) : roundEven x ≤ roundEven y := by
  by_contra hlt
  have hgap : ((roundEven y : ℤ) : K) + 1 ≤ roundEven x := by exact_mod_cast not_le.mp hlt
  have hx := abs_le.mp (isNearestEven_roundEven x).dist_le
  have hy := abs_le.mp (isNearestEven_roundEven y).dist_le
  -- only a number halfway between both integers is that near to both
  have heq : x = y := by linarith [hx.1, hy.2]
  rw [heq] at hlt
  exact hlt le_rfl

/-! ## To significant bits -/

/-- The spacing of the numbers with `fractionBits` bits after the leading one, around `x`. -/
def spacing (fractionBits : ℕ) (x : K) : K := ((2 : ℕ) : K) ^ (Int.log 2 |x| - fractionBits)

/-- The nearest number with `fractionBits` bits after the leading one, the even one of two. -/
def roundBits (fractionBits : ℕ) (x : K) : K :=
  roundEven (x / spacing fractionBits x) * spacing fractionBits x

theorem spacing_pos (fractionBits : ℕ) (x : K) : 0 < spacing fractionBits x :=
  zpow_pos two_pos _

theorem roundBits_zero (fractionBits : ℕ) : roundBits fractionBits (0 : K) = 0 := by
  have hround : roundEven (0 : K) = 0 := by exact_mod_cast roundEven_intCast (K := K) 0
  rw [roundBits, zero_div, hround, Int.cast_zero, zero_mul]

theorem roundBits_neg (fractionBits : ℕ) (x : K) :
    roundBits fractionBits (-x) = -roundBits fractionBits x := by
  have hspacing : spacing fractionBits (-x) = spacing fractionBits x := by
    rw [spacing, abs_neg, spacing]
  rw [roundBits, roundBits, hspacing, neg_div, roundEven_neg]
  push_cast
  ring

/-- Whole multiples of the spacing are representable. -/
theorem roundBits_eq_self {fractionBits : ℕ} {x : K} (n : ℤ) (h : x = n * spacing fractionBits x) :
    roundBits fractionBits x = x := by
  have hdiv : x / spacing fractionBits x = n := by
    rw [div_eq_iff (spacing_pos fractionBits x).ne']
    exact h
  rw [roundBits, hdiv, roundEven_intCast]
  exact h.symm

section Positive

variable (fractionBits : ℕ) {x : K} (hx : 0 < x)

include hx

theorem spacing_of_pos : spacing fractionBits x = 2 ^ (Int.log 2 x - fractionBits) := by
  rw [spacing, abs_of_pos hx, Nat.cast_ofNat]

theorem two_zpow_log_eq (k : ℕ) :
    (2 : K) ^ (Int.log 2 x + k)
      = ((2 ^ (fractionBits + k) : ℕ) : ℤ) * spacing fractionBits x := by
  rw [spacing_of_pos fractionBits hx]
  push_cast
  rw [← zpow_natCast, ← zpow_add₀ two_ne_zero]
  congr 1
  push_cast
  ring

/-- Rounding stays between the powers of two around the number. -/
theorem roundBits_mem :
    (2 : K) ^ Int.log 2 x ≤ roundBits fractionBits x ∧
      roundBits fractionBits x ≤ 2 ^ (Int.log 2 x + 1) := by
  have hpos := spacing_pos fractionBits x
  have hlow : ((2 : ℕ) : K) ^ Int.log 2 x ≤ x := Int.zpow_log_le_self (by decide) hx
  have hhigh : x < ((2 : ℕ) : K) ^ (Int.log 2 x + 1) := Int.lt_zpow_succ_log_self (by decide) x
  have hfirst := two_zpow_log_eq fractionBits hx 0
  have hlast := two_zpow_log_eq fractionBits hx 1
  rw [Nat.cast_zero, add_zero, add_zero] at hfirst
  rw [Nat.cast_one] at hlast
  rw [Nat.cast_ofNat] at hlow hhigh
  constructor
  · rw [hfirst] at hlow ⊢
    apply mul_le_mul_of_nonneg_right _ hpos.le
    rw [Int.cast_le, ← roundEven_intCast (K := K) ((2 ^ fractionBits : ℕ) : ℤ)]
    exact roundEven_mono ((le_div_iff₀ hpos).mpr hlow)
  · rw [hlast] at hhigh ⊢
    apply mul_le_mul_of_nonneg_right _ hpos.le
    rw [Int.cast_le, ← roundEven_intCast (K := K) ((2 ^ (fractionBits + 1) : ℕ) : ℤ)]
    exact roundEven_mono ((div_le_iff₀ hpos).mpr hhigh.le)

theorem roundBits_pos : 0 < roundBits fractionBits x :=
  (zpow_pos two_pos _).trans_le (roundBits_mem fractionBits hx).1

theorem roundBits_idem_of_pos :
    roundBits fractionBits (roundBits fractionBits x) = roundBits fractionBits x := by
  rcases roundBits_mem fractionBits hx with ⟨hlow, hhigh⟩
  have hpos := roundBits_pos fractionBits hx
  rcases hhigh.lt_or_eq with hlt | heq
  · -- the spacing is the same
    apply roundBits_eq_self (roundEven (x / spacing fractionBits x))
    have hlog : Int.log 2 (roundBits fractionBits x) = Int.log 2 x := by
      apply le_antisymm
      · have hlt' : roundBits fractionBits x < ((2 : ℕ) : K) ^ (Int.log 2 x + 1) := by
          rwa [Nat.cast_ofNat]
        exact Int.lt_add_one_iff.mp ((Int.lt_zpow_iff_log_lt (by decide) hpos).mp hlt')
      · have hlow' : ((2 : ℕ) : K) ^ Int.log 2 x ≤ roundBits fractionBits x := by
          rwa [Nat.cast_ofNat]
        exact (Int.zpow_le_iff_le_log (by decide) hpos).mp hlow'
    rw [spacing_of_pos fractionBits hpos, hlog, ← spacing_of_pos fractionBits hx]
    rfl
  · -- rounding up to a power of two doubles the spacing
    rw [heq]
    have hpow : (0 : K) < 2 ^ (Int.log 2 x + 1) := zpow_pos two_pos _
    have hlog : Int.log 2 ((2 : K) ^ (Int.log 2 x + 1)) = Int.log 2 x + 1 := by
      exact_mod_cast Int.log_zpow (R := K) (b := 2) (by decide) (Int.log 2 x + 1)
    apply roundBits_eq_self ((2 ^ fractionBits : ℕ) : ℤ)
    have hfirst := two_zpow_log_eq fractionBits hpow 0
    rwa [hlog, Nat.cast_zero, add_zero, add_zero] at hfirst

end Positive

/-! ## The rounding -/

section

variable (fractionBits : ℕ)

omit [FloorRing K] in
/-- What rounding does to a number follows from what it does to the positive ones. -/
theorem of_zero_of_pos_of_neg {P : K → Prop} (hzero : P 0) (hpos : ∀ x, 0 < x → P x)
    (hneg : ∀ x, P x → P (-x)) (x : K) : P x := by
  rcases lt_trichotomy x 0 with h | h | h
  · have hx := hneg _ (hpos _ (neg_pos.mpr h))
    rwa [neg_neg] at hx
  · rw [h]
    exact hzero
  · exact hpos x h

theorem roundBits_idem (x : K) :
    roundBits fractionBits (roundBits fractionBits x) = roundBits fractionBits x := by
  refine of_zero_of_pos_of_neg (P := fun x => roundBits fractionBits (roundBits fractionBits x)
    = roundBits fractionBits x) ?_ (fun x hx => roundBits_idem_of_pos fractionBits hx) ?_ x
  · rw [roundBits_zero, roundBits_zero]
  · intro x hx
    rw [roundBits_neg, roundBits_neg, hx]

/-- Within a power of two the spacing is fixed, and a greater one bounds the smaller numbers. -/
theorem roundBits_mono_of_pos {x y : K} (hx : 0 < x) (h : x ≤ y) :
    roundBits fractionBits x ≤ roundBits fractionBits y := by
  have hy := hx.trans_le h
  rcases (Int.log_mono_right (b := 2) hx h).lt_or_eq with hlt | heq
  · calc roundBits fractionBits x
        ≤ 2 ^ (Int.log 2 x + 1) := (roundBits_mem fractionBits hx).2
      _ ≤ 2 ^ Int.log 2 y := zpow_le_zpow_right₀ one_le_two (Int.add_one_le_of_lt hlt)
      _ ≤ roundBits fractionBits y := (roundBits_mem fractionBits hy).1
  · have hspacing : spacing fractionBits x = spacing fractionBits y := by
      rw [spacing_of_pos fractionBits hx, spacing_of_pos fractionBits hy, heq]
    rw [roundBits, roundBits, hspacing]
    apply mul_le_mul_of_nonneg_right _ (spacing_pos fractionBits y).le
    rw [Int.cast_le]
    exact roundEven_mono (div_le_div_of_nonneg_right h (spacing_pos fractionBits y).le)

theorem roundBits_nonneg {x : K} (h : 0 ≤ x) : 0 ≤ roundBits fractionBits x := by
  rcases h.eq_or_lt with rfl | hpos
  · rw [roundBits_zero]
  · exact (roundBits_pos fractionBits hpos).le

theorem roundBits_mono : Monotone (roundBits (K := K) fractionBits) := by
  intro x y h
  rcases lt_or_ge 0 x with hx | hx
  · exact roundBits_mono_of_pos fractionBits hx h
  have hxneg := roundBits_nonneg fractionBits (neg_nonneg.mpr hx)
  rw [roundBits_neg] at hxneg
  rcases lt_or_ge y 0 with hy | hy
  · have hneg := roundBits_mono_of_pos fractionBits (neg_pos.mpr hy) (neg_le_neg h)
    rw [roundBits_neg, roundBits_neg] at hneg
    exact neg_le_neg_iff.mp hneg
  · exact (neg_nonneg.mp hxneg).trans (roundBits_nonneg fractionBits hy)

/-- Rounding to nearest, ties to even, with `fractionBits` bits after the leading one. -/
def nearestEven : Rounding K where
  round := roundBits fractionBits
  mono := roundBits_mono fractionBits
  idem := roundBits_idem fractionBits
  neg := roundBits_neg fractionBits

/-- The error is at most half a spacing. -/
theorem roundBits_error {x : K} (hx : 0 ≤ x) :
    |x - roundBits fractionBits x| * 2 ^ (fractionBits + 1) ≤ x := by
  rcases hx.eq_or_lt with rfl | hpos
  · rw [roundBits_zero, sub_zero, abs_zero, zero_mul]
  have hspacing := spacing_pos fractionBits x
  have hdist := (isNearestEven_roundEven (x / spacing fractionBits x)).dist_le
  have herror : |x - roundBits fractionBits x| ≤ 1 / 2 * spacing fractionBits x := by
    have hscaled : x - roundBits fractionBits x
        = (x / spacing fractionBits x - roundEven (x / spacing fractionBits x))
          * spacing fractionBits x := by
      rw [roundBits, sub_mul, div_mul_cancel₀ _ hspacing.ne']
    rw [hscaled, abs_mul, abs_of_pos hspacing]
    exact mul_le_mul_of_nonneg_right hdist hspacing.le
  have hlow : ((2 : ℕ) : K) ^ Int.log 2 x ≤ x := Int.zpow_log_le_self (by decide) hpos
  have hfirst := two_zpow_log_eq fractionBits hpos 0
  rw [Nat.cast_zero, add_zero, add_zero] at hfirst
  rw [Nat.cast_ofNat, hfirst] at hlow
  push_cast at hlow
  calc |x - roundBits fractionBits x| * 2 ^ (fractionBits + 1)
      ≤ 1 / 2 * spacing fractionBits x * 2 ^ (fractionBits + 1) :=
        mul_le_mul_of_nonneg_right herror (pow_nonneg zero_le_two _)
    _ = 2 ^ fractionBits * spacing fractionBits x := by
        rw [pow_succ]
        ring
    _ ≤ x := hlow

/-- **The relative error**: a unit in the last place of a significand is the factor. -/
theorem nearestEven_within :
    (nearestEven (K := K) fractionBits).Within
      (2 ^ (fractionBits + 1) / (2 ^ (fractionBits + 1) - 1)) := by
  have hbig : (2 : K) ≤ 2 ^ (fractionBits + 1) := by
    calc (2 : K) = 2 ^ 1 := (pow_one 2).symm
      _ ≤ 2 ^ (fractionBits + 1) := pow_le_pow_right₀ one_le_two (Nat.le_add_left 1 fractionBits)
  have hpos : (0 : K) < 2 ^ (fractionBits + 1) - 1 := by linarith
  have herror : ∀ x : K, 0 ≤ x →
      x * (2 ^ (fractionBits + 1) - 1) ≤ roundBits fractionBits x * 2 ^ (fractionBits + 1) ∧
        roundBits fractionBits x * 2 ^ (fractionBits + 1) ≤ x * (2 ^ (fractionBits + 1) + 1) := by
    intro x hx
    have hpow : (0 : K) ≤ 2 ^ (fractionBits + 1) := by linarith
    have h := roundBits_error fractionBits hx
    have hleft := mul_le_mul_of_nonneg_right (le_abs_self (x - roundBits fractionBits x)) hpow
    have hright := mul_le_mul_of_nonneg_right (neg_abs_le (x - roundBits fractionBits x)) hpow
    constructor <;> linarith
  constructor
  · rw [le_div_iff₀ hpos]
    linarith
  · intro x hx
    show roundBits fractionBits x ≤ _
    rw [div_mul_eq_mul_div, le_div_iff₀ hpos]
    have hupper := mul_le_mul_of_nonneg_right (herror x hx).2 hpos.le
    have hpow : (0 : K) < 2 ^ (fractionBits + 1) := by linarith
    apply le_of_mul_le_mul_right _ hpow
    linarith
  · intro x hx
    show x ≤ _ * roundBits fractionBits x
    rw [div_mul_eq_mul_div, le_div_iff₀ hpos, mul_comm (2 ^ (fractionBits + 1)) _]
    exact (herror x hx).1

end
