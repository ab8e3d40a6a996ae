import RouteEngine.Library.NonnegBinary64

set_option autoImplicit false

/-! # Sums on a grid

Multiples of `2 ^ j` units are represented up to `2 ^ 53` of them. A rounded sum of such values
is exact as long as the exact sum is within that range, and once the exact sum leaves the range
the rounded one does not return to it. -/

namespace Binary64

variable {j n k : Nat}

/-- A significand of 53 bits, or of fewer with no shift, is read back. -/
theorem unitsOf_significand (hlow : 2 ^ 52 ≤ n ∨ k = 0) (hhigh : n < 2 ^ 53) :
    unitsOf (k * 2 ^ 52 + n) = n * 2 ^ k := by
  rcases Nat.lt_or_ge n (2 ^ 52) with hn | hn
  · obtain rfl : k = 0 := by omega
    have hshift : 0 * 2 ^ 52 + n = n := by omega
    have hfield : n / 2 ^ 52 = 0 := by omega
    have hone : n * 2 ^ 0 = n := by omega
    rw [hshift, hone]
    exact if_pos hfield
  · have hdiv : (k * 2 ^ 52 + n) / 2 ^ 52 = k + 1 := by omega
    have hmod : (k * 2 ^ 52 + n) % 2 ^ 52 = n - 2 ^ 52 := by omega
    have hsig : 2 ^ 52 + (n - 2 ^ 52) = n := by omega
    rw [unitsOf, hdiv, hmod, if_neg (Nat.succ_ne_zero k), Nat.add_sub_cancel, hsig]

/-- The spacing of the values around a multiple of `2 ^ j` in the range divides it. -/
theorem two_pow_spacing_dvd (hdvd : 2 ^ j ∣ n) (hle : n ≤ 2 ^ 53 * 2 ^ j) :
    2 ^ (n.log2 - 52) ∣ n := by
  rcases Nat.eq_or_lt_of_le hle with rfl | hlt
  · rw [← Nat.pow_add, Nat.log2_two_pow]
    exact Nat.pow_dvd_pow 2 (Nat.sub_le _ _)
  · rcases Nat.eq_zero_or_pos n with rfl | hpos
    · exact Nat.dvd_zero _
    · have hlog : n.log2 < 53 + j := (Nat.log2_lt hpos.ne').mpr (Nat.pow_add 2 53 j ▸ hlt)
      exact Nat.dvd_trans (Nat.pow_dvd_pow 2 (by omega)) hdvd

/-- **Multiples of `2 ^ j` units in the range are represented.** -/
theorem unitsOf_roundMagnitude (hj : j ≤ 2044) (hdvd : 2 ^ j ∣ n) (hle : n ≤ 2 ^ 53 * 2 ^ j) :
    unitsOf (roundMagnitude n 1) = n := by
  obtain ⟨q, hq⟩ := two_pow_spacing_dvd hdvd hle
  rcases Nat.eq_zero_or_pos n with rfl | hpos
  · rfl
  -- the spacing is `2 ^ k`, and the exponent is one of the finite ones
  have hlog : n.log2 - 52 ≤ 2045 := by
    have hlt : n < 2 ^ (53 + j + 1) :=
      calc n ≤ 2 ^ (53 + j) := Nat.pow_add 2 53 j ▸ hle
        _ < 2 ^ (53 + j + 1) := Nat.pow_lt_pow_right (by omega) (Nat.lt_succ_self _)
    have := (Nat.log2_lt hpos.ne').mpr hlt
    omega
  have hself : 2 ^ n.log2 ≤ n := Nat.log2_self_le hpos.ne'
  have hnext : n < 2 ^ (n.log2 + 1) := Nat.lt_log2_self
  rw [roundMagnitude_one]
  generalize hk : n.log2 - 52 = k at hq hlog ⊢
  have hexact : divNearestEven n (2 ^ k) = q := by
    rw [hq, Nat.mul_comm]
    exact divNearestEven_mul q (Nat.two_pow_pos k)
  -- `q` has 53 bits, or there is no shift
  have hupper : q < 2 ^ 53 := by
    have hpow : 2 ^ (n.log2 + 1) ≤ 2 ^ k * 2 ^ 53 := by
      rw [← Nat.pow_add]
      exact Nat.pow_le_pow_right (by omega) (by omega)
    rw [hq] at hnext
    exact Nat.lt_of_mul_lt_mul_left (hnext.trans_le (hq ▸ hpow))
  have hlower : 2 ^ 52 ≤ q ∨ k = 0 := by
    rcases Nat.lt_or_ge n.log2 52 with hlt | hge
    · exact .inr (by omega)
    · refine .inl (Nat.le_of_mul_le_mul_left ?_ (Nat.two_pow_pos k))
      rw [← hq, ← Nat.pow_add, ← hk, Nat.sub_add_cancel hge]
      exact hself
  have hbound : k * 2 ^ 52 + q ≤ infinityMagnitude := by
    unfold infinityMagnitude
    omega
  rw [hexact, Nat.min_eq_left hbound, unitsOf_significand hlower hupper, hq, Nat.mul_comm]

end Binary64

namespace NonnegBinary64

open Binary64

/-- The value `c` stands for `n` steps of `2 ^ j` units: exactly so within the range, and outside
the range as soon as `n` is. -/
def OnGrid (j n : Nat) (c : NonnegBinary64) : Prop :=
  (n ≤ 2 ^ 53 → unitsOf c.1 = n * 2 ^ j) ∧ (2 ^ 53 ≤ n → 2 ^ 53 * 2 ^ j ≤ unitsOf c.1)

variable {j n m : Nat} {c w : NonnegBinary64}

theorem onGrid_zero (j : Nat) : OnGrid j 0 0 := by
  refine ⟨fun _ => ?_, fun h => absurd h (by omega)⟩
  rw [Nat.zero_mul]
  rfl

/-- **One more summand on the grid.** -/
theorem OnGrid.add (hj : j ≤ 2044) (hc : OnGrid j n c) (hw : unitsOf w.1 = m * 2 ^ j) :
    OnGrid j (n + m) (c + w) := by
  have hsum : unitsOf (c + w).1 = unitsOf (roundMagnitude (unitsOf c.1 + m * 2 ^ j) 1) := by
    rw [← hw]
    rfl
  constructor
  · intro hle
    rw [hsum, hc.1 (by omega), ← Nat.add_mul]
    exact unitsOf_roundMagnitude hj (Nat.dvd_mul_left _ _) (Nat.mul_le_mul_right _ hle)
  · intro hge
    have hunits : 2 ^ 53 * 2 ^ j ≤ unitsOf c.1 + m * 2 ^ j := by
      rcases Nat.le_total n (2 ^ 53) with hn | hn
      · rw [hc.1 hn, ← Nat.add_mul]
        exact Nat.mul_le_mul_right _ hge
      · exact (hc.2 hn).trans (Nat.le_add_right _ _)
    calc 2 ^ 53 * 2 ^ j
        = unitsOf (roundMagnitude (2 ^ 53 * 2 ^ j) 1) :=
          (unitsOf_roundMagnitude hj (Nat.dvd_mul_left _ _) le_rfl).symm
      _ ≤ unitsOf (roundMagnitude (unitsOf c.1 + m * 2 ^ j) 1) :=
          unitsOf_mono (roundMagnitude_mono hunits)
      _ = unitsOf (c + w).1 := hsum.symm

end NonnegBinary64
