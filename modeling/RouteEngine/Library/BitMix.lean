import Mathlib.Data.Int.CardIntervalMod
import Mathlib.Data.Nat.Size

set_option autoImplicit false

/-! # Mixing and masking words

The steps of which bit mixers are made lose nothing: a word is determined by its xor with a
shifted copy of itself (`xorShift_injective`) and by its product with a factor that has an
inverse. Counting in steps of such a factor meets every word (`exists_steps`). Or-ing a number
with shifted copies of itself fills in all bits below its highest one (`Covers.eq_mask`), and the
words that a mask of low bits takes to one value are equally many for every value
(`card_residue`). -/

namespace BitMix

/-! ## Permutations of words -/

/-- The bits are recovered from the top: a high bit of the xor is a bit of the number. -/
theorem xorShift_injective {k : Nat} (hk : 0 < k) :
    Function.Injective fun x : Nat => x ^^^ (x >>> k) := by
  intro x y heq
  have hx : x < 2 ^ (x + y) := Nat.lt_two_pow_self.trans_le
    (Nat.pow_le_pow_right (by omega) (by omega))
  have hy : y < 2 ^ (x + y) := Nat.lt_two_pow_self.trans_le
    (Nat.pow_le_pow_right (by omega) (by omega))
  -- induction on the distance to the highest bit
  have hbits : ∀ m i, x + y ≤ i + m → x.testBit i = y.testBit i := by
    intro m
    induction m with
    | zero =>
        intro i hi
        have hpow : 2 ^ (x + y) ≤ 2 ^ i := Nat.pow_le_pow_right (by omega) (by omega)
        rw [Nat.testBit_lt_two_pow (hx.trans_le hpow), Nat.testBit_lt_two_pow (hy.trans_le hpow)]
    | succ m ih =>
        intro i hi
        have habove := ih (i + k) (by omega)
        have hbit : (x ^^^ (x >>> k)).testBit i = (y ^^^ (y >>> k)).testBit i :=
          congrArg (·.testBit i) heq
        rw [Nat.testBit_xor, Nat.testBit_xor, Nat.testBit_shiftRight, Nat.testBit_shiftRight,
          Nat.add_comm k i, habove] at hbit
        exact Bool.xor_left_inj.mp hbit
  exact Nat.eq_of_testBit_eq fun i => hbits (x + y) i (by omega)

theorem xorShift64_injective {k : UInt64} (hk : 0 < k.toNat % 64) :
    Function.Injective fun x : UInt64 => x ^^^ (x >>> k) := by
  intro x y heq
  have hnat := congrArg UInt64.toNat heq
  simp only [UInt64.toNat_xor, UInt64.toNat_shiftRight] at hnat
  exact UInt64.toNat_inj.mp (xorShift_injective hk hnat)

theorem mul_injective {a b : UInt64} (h : a * b = 1) :
    Function.Injective fun x : UInt64 => x * a := by
  intro x y heq
  have hmul : x * a * b = y * a * b := congrArg (· * b) heq
  rwa [UInt64.mul_assoc, UInt64.mul_assoc, h, UInt64.mul_one, UInt64.mul_one] at hmul

/-- **Counting in invertible steps meets every word.** -/
theorem exists_steps {a b : UInt64} (h : a * b = 1) (s t : UInt64) :
    ∃ j, j < 2 ^ 64 ∧ s + UInt64.ofNat j * a = t := by
  refine ⟨((t - s) * b).toNat, ((t - s) * b).toNat_lt, ?_⟩
  calc s + UInt64.ofNat ((t - s) * b).toNat * a
      = s + (t - s) * b * a := by rw [UInt64.ofNat_toNat]
    _ = s + (t - s) * (a * b) := by rw [UInt64.mul_assoc, UInt64.mul_comm b a]
    _ = s + (t - s) := by rw [h, UInt64.mul_one]
    _ = t := by rw [UInt64.add_comm, UInt64.sub_add_cancel]

/-! ## Masks -/

/-- A bit of `m` is set when `x` has one there or within the `c` places from there up. -/
def Covers (c x m : Nat) : Prop :=
  ∀ i, m.testBit i = true ↔ ∃ j, i ≤ j ∧ j < i + c ∧ x.testBit j = true

namespace Covers

variable {c s x m : Nat}

theorem refl (x : Nat) : Covers 1 x x := by
  intro i
  constructor
  · intro hi
    exact ⟨i, le_rfl, by omega, hi⟩
  · rintro ⟨j, hij, hji, hj⟩
    obtain rfl : i = j := by omega
    exact hj

/-- **One more shift** reaches as much further, if it does not leap over anything. -/
theorem step (h : Covers c x m) (hs : s ≤ c) : Covers (c + s) x (m ||| m >>> s) := by
  intro i
  rw [Nat.testBit_or, Bool.or_eq_true, Nat.testBit_shiftRight, h i, h (s + i)]
  constructor
  · rintro (⟨j, hij, hji, hj⟩ | ⟨j, hij, hji, hj⟩)
    · exact ⟨j, hij, by omega, hj⟩
    · exact ⟨j, by omega, by omega, hj⟩
  · rintro ⟨j, hij, hji, hj⟩
    by_cases hnear : j < i + c
    · exact Or.inl ⟨j, hij, hnear, hj⟩
    · exact Or.inr ⟨j, by omega, by omega, hj⟩

/-- **The filled number** has as many bits as `x`, all of them set. -/
theorem eq_mask (h : Covers c x m) (hx : x < 2 ^ c) : m = 2 ^ x.size - 1 := by
  refine Nat.eq_of_testBit_eq fun i => ?_
  rw [Nat.testBit_two_pow_sub_one, Bool.eq_iff_iff, h i, decide_eq_true_eq, Nat.lt_size]
  constructor
  · rintro ⟨j, hij, -, hj⟩
    exact (Nat.pow_le_pow_right (by omega) hij).trans (Nat.ge_two_pow_of_testBit hj)
  · intro hle
    rcases Nat.exists_ge_and_testBit_of_ge_two_pow hle with ⟨j, hij, hj⟩
    have hjx : 2 ^ j ≤ x := Nat.ge_two_pow_of_testBit hj
    have hjc : j < c := (Nat.pow_lt_pow_iff_right (by omega)).mp (hjx.trans_lt hx)
    exact ⟨j, hij, by omega, hj⟩

end Covers

/-- The mask is the least of its form that is not below the number. -/
theorem isLeast_mask (x : Nat) :
    IsLeast {m | ∃ k, m = 2 ^ k - 1 ∧ x ≤ m} (2 ^ x.size - 1) := by
  constructor
  · have hlt := Nat.lt_size_self x
    exact ⟨x.size, rfl, by omega⟩
  · rintro m ⟨k, rfl, hle⟩
    have hpos : 0 < 2 ^ k := by positivity
    have hsize : x.size ≤ k := Nat.size_le.mpr (by omega)
    exact Nat.sub_le_sub_right (Nat.pow_le_pow_right (by omega) hsize) 1

/-- **Every value of a mask is taken equally often.** -/
theorem card_residue {k w v : Nat} (hk : k ≤ w) (hv : v < 2 ^ k) :
    ((Finset.range (2 ^ w)).filter (fun n => n % 2 ^ k = v)).card = 2 ^ (w - k) := by
  have hdvd : 2 ^ w % 2 ^ k = 0 := Nat.mod_eq_zero_of_dvd (Nat.pow_dvd_pow 2 hk)
  have hcount := Nat.count_modEq_card (2 ^ w) (show 0 < 2 ^ k by positivity) v
  rw [hdvd, if_neg (Nat.not_lt_zero _), Nat.add_zero, Nat.pow_div hk (by omega),
    Nat.count_eq_card_filter_range] at hcount
  rw [← hcount]
  refine congrArg Finset.card (Finset.filter_congr fun n _ => ?_)
  rw [Nat.ModEq, Nat.mod_eq_of_lt hv]

end BitMix
