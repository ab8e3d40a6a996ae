import RouteEngine.Library.GridSum
import Mathlib.Tactic.Ring

set_option autoImplicit false

/-! # The relative error of rounded sums

A rounded sum of non-negative values differs from the exact one by a factor between
`1 - 2 ^ (-53)` and `1 + 2 ^ (-53)`, subnormal sums included. The factors of the sums on the way
multiply (`Within.add`). A sum that overflows counts as `2 ^ 1024`, which does not exceed the exact
one by more than the factor either. -/

namespace Binary64

/-! ## One rounding -/

/-- The rounded quotient is off by half of the divisor at most. -/
theorem two_mul_divNearestEven_le (n : Nat) {d : Nat} (hd : 0 < d) :
    2 * (divNearestEven n d * d) ≤ 2 * n + d ∧ 2 * n ≤ 2 * (divNearestEven n d * d) + d := by
  have hsplit := Nat.div_add_mod' n d
  have hmod := Nat.mod_lt n hd
  have hup : (n / d + 1) * d = n / d * d + d := by rw [Nat.add_mul, Nat.one_mul]
  unfold divNearestEven
  dsimp only
  split_ifs
  · omega
  · omega
  · -- halfway: down to an even quotient, or up to one
    rcases Nat.mod_two_eq_zero_or_one (n / d) with heven | hodd
    · rw [heven, Nat.add_zero]
      omega
    · rw [hodd]
      omega

/-- The magnitude before it is limited to infinity stands for the rounded multiple. -/
theorem unitsOf_rounded (n : Nat) :
    unitsOf ((n.log2 - 52) * 2 ^ 52 + divNearestEven n (2 ^ (n.log2 - 52)))
      = divNearestEven n (2 ^ (n.log2 - 52)) * 2 ^ (n.log2 - 52) := by
  have hle : divNearestEven n (2 ^ (n.log2 - 52)) ≤ 2 ^ 53 := by
    have := significand_le n 1
    rwa [Nat.div_one, Nat.one_mul] at this
  have hlow : 2 ^ 52 ≤ divNearestEven n (2 ^ (n.log2 - 52)) ∨ n.log2 - 52 = 0 := by
    rcases Nat.lt_or_ge n.log2 52 with hlt | hge
    · exact .inr (by omega)
    · have := le_significand (n := n) (d := 1) (by rwa [Nat.div_one])
      rw [Nat.div_one, Nat.one_mul] at this
      exact .inl this
  generalize divNearestEven n (2 ^ (n.log2 - 52)) = q at hle hlow ⊢
  generalize n.log2 - 52 = k at hlow ⊢
  rcases Nat.eq_or_lt_of_le hle with rfl | hlt
  · -- rounded up to the next power of two
    have hcarry : k * 2 ^ 52 + 2 ^ 53 = (k + 1) * 2 ^ 52 + 2 ^ 52 := by omega
    rw [hcarry, unitsOf_significand (.inl le_rfl) (by decide), Nat.pow_succ]
    omega
  · exact unitsOf_significand hlow hlt

/-- **Rounding changes a value by less than the factor `1 ± 2 ^ (-53)`**, and above the finite
values it does not raise it more. -/
theorem unitsOf_roundMagnitude_le (n : Nat) :
    unitsOf (roundMagnitude n 1) * 2 ^ 53 ≤ n * (2 ^ 53 + 1) ∧
      (roundMagnitude n 1 < infinityMagnitude →
        n * (2 ^ 53 - 1) ≤ unitsOf (roundMagnitude n 1) * 2 ^ 53) := by
  have hround := unitsOf_rounded n
  rw [roundMagnitude_one]
  -- half of the spacing is at most the `2 ^ 53`-rd part of the value
  have hhalf : n.log2 - 52 = 0 ∨ 2 ^ (n.log2 - 52) * 2 ^ 52 ≤ n := by
    rcases Nat.lt_or_ge n.log2 52 with hlt | hge
    · exact .inl (by omega)
    · rcases Nat.eq_zero_or_pos n with rfl | hpos
      · exact .inl rfl
      · rw [← Nat.pow_add, Nat.sub_add_cancel hge]
        exact .inr (Nat.log2_self_le hpos.ne')
  have herror := two_mul_divNearestEven_le n (Nat.two_pow_pos (n.log2 - 52))
  have hexact : n.log2 - 52 = 0 →
      divNearestEven n (2 ^ (n.log2 - 52)) * 2 ^ (n.log2 - 52) = n := by
    intro hzero
    have hself := divNearestEven_mul n Nat.one_pos
    rw [Nat.mul_one] at hself
    rw [hzero, Nat.pow_zero, Nat.mul_one, hself]
  generalize hm : (n.log2 - 52) * 2 ^ 52 + divNearestEven n (2 ^ (n.log2 - 52)) = m at hround ⊢
  rw [← hround] at herror hexact
  have hle : unitsOf (min m infinityMagnitude) ≤ unitsOf m := unitsOf_mono (Nat.min_le_left _ _)
  have hwithin : unitsOf m * 2 ^ 53 ≤ n * (2 ^ 53 + 1) ∧
      n * (2 ^ 53 - 1) ≤ unitsOf m * 2 ^ 53 := by
    generalize unitsOf m = r at herror hexact ⊢
    generalize 2 ^ (n.log2 - 52) = spacing at herror hhalf
    rcases hhalf with hzero | hhalf
    · obtain rfl := hexact hzero
      omega
    · omega
  constructor
  · exact (Nat.mul_le_mul_right _ hle).trans hwithin.1
  · intro hlt
    rcases Nat.le_total m infinityMagnitude with hm | hm
    · rw [Nat.min_eq_left hm]
      exact hwithin.2
    · rw [Nat.min_eq_right hm] at hlt
      exact absurd hlt (Nat.lt_irrefl _)

end Binary64

namespace NonnegBinary64

open Binary64

/-! ## Sums -/

/-- The value `c` stands for `n` units up to `k` roundings. -/
structure Within (k n : Nat) (c : NonnegBinary64) : Prop where
  le : unitsOf c.1 * (2 ^ 53) ^ k ≤ n * (2 ^ 53 + 1) ^ k
  ge : c ≠ ⊤ → n * (2 ^ 53 - 1) ^ k ≤ unitsOf c.1 * (2 ^ 53) ^ k

variable {k n m : Nat} {c w : NonnegBinary64}

theorem within_zero : Within 0 0 0 := ⟨le_rfl, fun _ => le_rfl⟩

/-- **One more summand, one more rounding.** -/
theorem Within.add (hc : Within k n c) (hw : unitsOf w.1 = m) : Within (k + 1) (n + m) (c + w) := by
  have hsum : unitsOf (c + w).1 = unitsOf (roundMagnitude (unitsOf c.1 + m) 1) := by
    rw [← hw]
    rfl
  obtain ⟨hup, hdown⟩ := unitsOf_roundMagnitude_le (unitsOf c.1 + m)
  rw [← hsum] at hup hdown
  constructor
  · have hterm : m * (2 ^ 53) ^ k ≤ m * (2 ^ 53 + 1) ^ k :=
      Nat.mul_le_mul_left _ (Nat.pow_le_pow_left (Nat.le_succ _) _)
    calc unitsOf (c + w).1 * (2 ^ 53) ^ (k + 1)
        = unitsOf (c + w).1 * 2 ^ 53 * (2 ^ 53) ^ k := by ring
      _ ≤ (unitsOf c.1 + m) * (2 ^ 53 + 1) * (2 ^ 53) ^ k := Nat.mul_le_mul_right _ hup
      _ = (unitsOf c.1 * (2 ^ 53) ^ k + m * (2 ^ 53) ^ k) * (2 ^ 53 + 1) := by ring
      _ ≤ (n * (2 ^ 53 + 1) ^ k + m * (2 ^ 53 + 1) ^ k) * (2 ^ 53 + 1) :=
          Nat.mul_le_mul_right _ (Nat.add_le_add hc.le hterm)
      _ = (n + m) * (2 ^ 53 + 1) ^ (k + 1) := by ring
  · intro hne
    have hfinite : c ≠ ⊤ := fun htop => hne (top_le_iff.mp (htop ▸ le_add c w))
    have hlt : roundMagnitude (unitsOf c.1 + m) 1 < infinityMagnitude := by
      refine lt_of_le_of_ne (roundMagnitude_le _ _) fun heq => hne (Subtype.ext ?_)
      rw [← hw] at heq
      exact heq
    have hterm : m * (2 ^ 53 - 1) ^ k ≤ m * (2 ^ 53) ^ k :=
      Nat.mul_le_mul_left _ (Nat.pow_le_pow_left (Nat.sub_le _ _) _)
    calc (n + m) * (2 ^ 53 - 1) ^ (k + 1)
        = (n * (2 ^ 53 - 1) ^ k + m * (2 ^ 53 - 1) ^ k) * (2 ^ 53 - 1) := by
          rw [Nat.pow_succ, ← Nat.add_mul, Nat.mul_assoc]
      _ ≤ (unitsOf c.1 * (2 ^ 53) ^ k + m * (2 ^ 53) ^ k) * (2 ^ 53 - 1) :=
          Nat.mul_le_mul_right _ (Nat.add_le_add (hc.ge hfinite) hterm)
      _ = (unitsOf c.1 + m) * (2 ^ 53 - 1) * (2 ^ 53) ^ k := by
          rw [← Nat.add_mul, Nat.mul_right_comm]
      _ ≤ unitsOf (c + w).1 * 2 ^ 53 * (2 ^ 53) ^ k := Nat.mul_le_mul_right _ (hdown hlt)
      _ = unitsOf (c + w).1 * (2 ^ 53) ^ (k + 1) := by rw [Nat.mul_assoc, ← Nat.pow_succ']

/-- Fewer roundings are within more. -/
theorem Within.mono {k' : Nat} (h : Within k n c) (hle : k ≤ k') : Within k' n c := by
  induction k', hle using Nat.le_induction with
  | base => exact h
  | succ k' _ ih =>
      have hmore := ih.add (w := 0) (m := 0) rfl
      rwa [add_zero, Nat.add_zero] at hmore

end NonnegBinary64
