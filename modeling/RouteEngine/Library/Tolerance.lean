import Mathlib.Algebra.Order.Field.Basic
import Mathlib.Tactic.FieldSimp
import Mathlib.Tactic.Linarith
import Mathlib.Tactic.Ring

set_option autoImplicit false

/-! # Comparison up to a tolerance

Two numbers are close when they differ by at most a share of the larger one, where magnitudes
below a floor count as the floor. With floor `0` the comparison is relative. Any other floor makes
it depend on the scale: small numbers are always close (`exists_scale_close`), and numbers that are
close at every scale are those that are relatively close (`forall_scale_iff`). -/

variable {K : Type*} [Field K] [LinearOrder K]

/-- `a` and `b` differ by at most the share `ε` of the larger one and of the floor. -/
def CloseUpTo (ε floor a b : K) : Prop := |a - b| ≤ ε * max floor (max |a| |b|)

namespace CloseUpTo

variable [IsStrictOrderedRing K] {ε floor floor' a b r c : K}

/-- A larger floor admits more. -/
theorem mono (hε : 0 ≤ ε) (hfloor : floor ≤ floor') (h : CloseUpTo ε floor a b) :
    CloseUpTo ε floor' a b :=
  le_trans h (mul_le_mul_of_nonneg_left (max_le_max_right _ hfloor) hε)

/-- Scaling the numbers is scaling the floor the other way. -/
theorem scale_iff (hc : 0 < c) :
    CloseUpTo ε (c * floor) (c * a) (c * b) ↔ CloseUpTo ε floor a b := by
  have hdiff : |c * a - c * b| = c * |a - b| := by
    rw [← mul_sub, abs_mul, abs_of_pos hc]
  have hmax : max (c * floor) (max |c * a| |c * b|) = c * max floor (max |a| |b|) := by
    rw [abs_mul, abs_mul, abs_of_pos hc, mul_max_of_nonneg _ _ hc.le, mul_max_of_nonneg _ _ hc.le]
  unfold CloseUpTo
  rw [hdiff, hmax, mul_left_comm]
  exact mul_le_mul_iff_right₀ hc

/-- A relative comparison does not depend on the scale. -/
theorem relative_scale_iff (hc : 0 < c) :
    CloseUpTo ε 0 (c * a) (c * b) ↔ CloseUpTo ε 0 a b := by
  have h : CloseUpTo ε (c * 0) (c * a) (c * b) ↔ CloseUpTo ε 0 a b := scale_iff hc
  rwa [mul_zero] at h

theorem relative_iff : CloseUpTo ε 0 a b ↔ |a - b| ≤ ε * max |a| |b| := by
  unfold CloseUpTo
  rw [max_eq_right (le_max_of_le_left (abs_nonneg a))]

/-- **Numbers that are close at every scale are relatively close.** -/
theorem forall_scale_iff (hε : 0 ≤ ε) (hfloor : 0 ≤ floor) :
    (∀ c : K, 0 < c → CloseUpTo ε floor (c * a) (c * b)) ↔ CloseUpTo ε 0 a b := by
  constructor
  · intro h
    by_cases hzero : max |a| |b| = 0
    · -- both numbers are zero
      have ha : a = 0 := abs_eq_zero.mp (le_antisymm (hzero ▸ le_max_left _ _) (abs_nonneg a))
      have hb : b = 0 := abs_eq_zero.mp (le_antisymm (hzero ▸ le_max_right _ _) (abs_nonneg b))
      simp [relative_iff, ha, hb]
    · have hpos : 0 < max |a| |b| :=
        lt_of_le_of_ne (le_max_of_le_left (abs_nonneg a)) (Ne.symm hzero)
      rcases eq_or_lt_of_le hfloor with rfl | hfloor
      · exact (relative_scale_iff one_pos).mp (h 1 one_pos)
      -- at the scale where the larger number reaches the floor, the floor does not matter
      have hc : 0 < floor / max |a| |b| := div_pos hfloor hpos
      have hsame : floor = floor / max |a| |b| * max |a| |b| := (div_mul_cancel₀ _ hzero).symm
      have hclose : CloseUpTo ε (max |a| |b|) a b := by
        refine (scale_iff hc).mp ?_
        rw [← hsame]
        exact h _ hc
      unfold CloseUpTo at hclose
      rw [max_self] at hclose
      exact relative_iff.mpr hclose
  · intro h c hc
    exact mono hε hfloor ((relative_scale_iff hc).mpr h)

/-- **Differences up to a bound disappear at a small scale.** -/
theorem exists_scale_close (hε : 0 < ε) (hfloor : 0 < floor) (bound : K) :
    ∃ c : K, 0 < c ∧ ∀ a b : K, |a - b| ≤ bound → CloseUpTo ε floor (c * a) (c * b) := by
  have hbound : 0 < |bound| + 1 := by positivity
  refine ⟨ε * floor / (|bound| + 1), by positivity, ?_⟩
  intro a b hab
  have hle : |a - b| ≤ |bound| + 1 := by
    linarith [le_abs_self bound]
  have hfirst : |ε * floor / (|bound| + 1) * a - ε * floor / (|bound| + 1) * b| ≤ ε * floor := by
    rw [← mul_sub, abs_mul, abs_of_pos (by positivity : 0 < ε * floor / (|bound| + 1))]
    calc ε * floor / (|bound| + 1) * |a - b|
        ≤ ε * floor / (|bound| + 1) * (|bound| + 1) :=
          mul_le_mul_of_nonneg_left hle (by positivity)
      _ = ε * floor := div_mul_cancel₀ _ hbound.ne'
  exact le_trans hfirst (mul_le_mul_of_nonneg_left (le_max_left _ _) hε.le)

/-- The larger of two numbers that are relatively close to a third. -/
theorem sub_le_of_le (hε : 0 ≤ ε) (hhalf : ε + ε ≤ 1) (hb : 0 ≤ b) (hr : 0 ≤ r)
    (hba : b ≤ a) (har : CloseUpTo ε 0 a r) (hbr : CloseUpTo ε 0 b r) :
    a - b ≤ (ε + ε) * a := by
  rw [relative_iff, abs_of_nonneg (hb.trans hba), abs_of_nonneg hr] at har
  rw [relative_iff, abs_of_nonneg hb, abs_of_nonneg hr] at hbr
  have har' := abs_le.mp har
  have hbr' := abs_le.mp hbr
  rcases le_total a r with hle | hle
  · -- both are below the third, which is at most twice the larger one
    rw [max_eq_right hle] at har'
    rw [max_eq_right (hba.trans hle)] at hbr'
    have hshare : (ε + ε) * r ≤ 1 * r := mul_le_mul_of_nonneg_right hhalf hr
    have hdouble : r ≤ a + a := by linarith
    calc a - b ≤ r - b := by linarith
      _ ≤ ε * r := by linarith
      _ ≤ ε * (a + a) := mul_le_mul_of_nonneg_left hdouble hε
      _ = (ε + ε) * a := by ring
  · rw [max_eq_left hle] at har'
    have hshare : 0 ≤ ε * a := mul_nonneg hε (hb.trans hba)
    have hra : ε * max b r ≤ ε * a := mul_le_mul_of_nonneg_left (max_le hba hle) hε
    rcases le_total b r with hbelow | habove
    · calc a - b = (a - r) + (r - b) := by ring
        _ ≤ ε * a + ε * a := by linarith
        _ = (ε + ε) * a := by ring
    · calc a - b ≤ a - r := by linarith
        _ ≤ ε * a := har'.2
        _ ≤ (ε + ε) * a := by linarith

/-- **Two numbers that are relatively close to a third** are so to each other, with twice the
share. -/
theorem via (hε : 0 ≤ ε) (hhalf : ε + ε ≤ 1) (ha : 0 ≤ a) (hb : 0 ≤ b) (hr : 0 ≤ r)
    (har : CloseUpTo ε 0 a r) (hbr : CloseUpTo ε 0 b r) :
    |a - b| ≤ (ε + ε) * max a b := by
  rcases le_total b a with hba | hab
  · rw [max_eq_left hba, abs_of_nonneg (sub_nonneg.mpr hba)]
    exact sub_le_of_le hε hhalf hb hr hba har hbr
  · rw [max_eq_right hab, abs_sub_comm, abs_of_nonneg (sub_nonneg.mpr hab)]
    exact sub_le_of_le hε hhalf ha hr hab hbr har

end CloseUpTo
