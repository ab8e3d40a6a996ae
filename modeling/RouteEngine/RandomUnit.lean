import RouteEngine.RandomBelow
import RouteEngine.Library.GridSum
import RouteEngine.Library.Binary64Text

set_option autoImplicit false

/-! # Unit draws

`next_unit` converts the top 53 bits of a word and scales them by `2 ^ (-53)`. Neither step
rounds, so a draw is exactly the multiple of `2 ^ (-53)` that the bits are
(`exists_nextUnit_eq`). The words are a permutation of the states, so each multiple below one is
drawn equally often (`nextUnit_uniform`). -/

namespace RouteEngine

namespace SplitMix64

open Binary64 NonnegBinary64

/-! ## The two steps are exact -/

/-- The bits fit into a significand. -/
theorem unitsOf_ofBits {m : Nat} (hm : m < 2 ^ 53) :
    unitsOf (nearest (m * 2 ^ 1074) 1).1 = m * 2 ^ 1074 :=
  unitsOf_roundMagnitude (by decide) (Nat.dvd_mul_left _ _) (Nat.mul_le_mul_right _ hm.le)

theorem unitsOf_unitDouble : unitsOf unitDouble.1 = 2 ^ 1021 := by decide +kernel

theorem unitsOf_oneDouble : unitsOf oneDouble.1 = 2 ^ 53 * 2 ^ 1021 := by decide +kernel

/-- Scaling moves the exponent only. -/
theorem unitsOf_scaled {m : Nat} (hm : m < 2 ^ 53) :
    unitsOf (nearest (m * 2 ^ 1074 * 2 ^ 1021) (2 ^ 1074)).1 = m * 2 ^ 1021 := by
  have hswap : m * 2 ^ 1074 * 2 ^ 1021 = m * 2 ^ 1021 * 2 ^ 1074 := Nat.mul_right_comm _ _ _
  show unitsOf (roundMagnitude (m * 2 ^ 1074 * 2 ^ 1021) (2 ^ 1074)) = _
  rw [hswap, roundMagnitude_mul _ (Nat.two_pow_pos _)]
  exact unitsOf_roundMagnitude (by decide) (Nat.dvd_mul_left _ _) (Nat.mul_le_mul_right _ hm.le)

/-- **A unit draw is a multiple of `2 ^ (-53)`**: of as many of them as the bits say. -/
theorem exists_nextUnit_eq (rng : SplitMix64) :
    ∃ x : NonnegBinary64, (rng.nextUnit : Binary64 × SplitMix64).1 = x.toBinary64 ∧
      unitsOf x.1 = (rng.next.1 >>> 11).toNat * 2 ^ 1021 := by
  have hdraw : (rng.nextUnit : Binary64 × SplitMix64).1
      = (nearest ((rng.next.1 >>> 11).toNat * 2 ^ 1074) 1).toBinary64
        * unitDouble.toBinary64 := rfl
  have hbits := top_bits_lt rng.next.1
  have hle : nearest ((rng.next.1 >>> 11).toNat * 2 ^ 1074) 1
      ≤ nearest ((2 ^ 53 - 1) * 2 ^ 1074) 1 :=
    nearest_mono (Nat.mul_le_mul_right _ (Nat.le_pred_of_lt hbits))
  have hfinite : nearest ((rng.next.1 >>> 11).toNat * 2 ^ 1074) 1 ≠ ⊤ :=
    (hle.trans_lt nearest_lt_top).ne
  have hunit : unitDouble ≠ ⊤ := fun h => absurd (congrArg Subtype.val h) (by decide)
  rw [toBinary64_mul hfinite hunit, unitsOf_ofBits hbits, unitsOf_unitDouble] at hdraw
  exact ⟨_, hdraw, unitsOf_scaled hbits⟩

/-! ## Counting seeds -/

theorem toNat_top_bits (word : UInt64) : (word >>> 11).toNat = word.toNat / 2 ^ 11 := by
  rw [UInt64.toNat_shiftRight, Nat.shiftRight_eq_div_pow]
  rfl

/-- The states after `k` draws are all states, each once. -/
theorem skip_bijective (k : Nat) :
    Function.Bijective fun seed : UInt64 => (⟨seed⟩ : SplitMix64).skip k := by
  constructor
  · intro a b heq
    have hstate := congrArg state heq
    simp only [state_skip] at hstate
    exact (UInt64.add_left_inj _).mp hstate
  · intro rng
    refine ⟨rng.state - UInt64.ofNat k * increment, ?_⟩
    have hstate : ((⟨rng.state - UInt64.ofNat k * increment⟩ : SplitMix64).skip k).state
        = rng.state := by
      rw [state_skip, UInt64.sub_add_cancel]
    cases rng
    exact congrArg SplitMix64.mk hstate

/-- **Every position of the stream counts alike**: a property of the bits that are drawn there
holds for as many seeds as there are such bits, times `2 ^ 11`. -/
theorem ncard_bits (k : Nat) (p : Nat → Prop) [DecidablePred p] :
    {seed : UInt64 | p (((⟨seed⟩ : SplitMix64).skip k).next.1 >>> 11).toNat}.ncard
      = ((Finset.range (2 ^ 64)).filter fun n => p (n / 2 ^ 11)).card := by
  rw [← ncard_word fun n => p (n / 2 ^ 11),
    ← Set.ncard_preimage_of_injective_subset_range (skip_bijective k).injective
      fun rng _ => (skip_bijective k).surjective rng]
  simp only [toNat_top_bits]
  rfl

/-- Words below a multiple of `2 ^ 11`. -/
theorem card_bits_lt {n : Nat} (hn : n ≤ 2 ^ 53) :
    ((Finset.range (2 ^ 64)).filter fun word => word / 2 ^ 11 < n).card = 2 ^ 11 * n := by
  have hrange : (Finset.range (2 ^ 64)).filter (fun word => word / 2 ^ 11 < n)
      = Finset.range (2 ^ 11 * n) := by
    ext word
    rw [Finset.mem_filter, Finset.mem_range, Finset.mem_range,
      Nat.div_lt_iff_lt_mul (by decide), Nat.mul_comm n]
    omega
  rw [hrange, Finset.card_range]

/-- Words with the same top bits. -/
theorem card_bits_eq {m : Nat} (hm : m < 2 ^ 53) :
    ((Finset.range (2 ^ 64)).filter fun word => word / 2 ^ 11 = m).card = 2 ^ 11 := by
  have hinterval : (Finset.range (2 ^ 64)).filter (fun word => word / 2 ^ 11 = m)
      = Finset.Ico (m * 2 ^ 11) (m * 2 ^ 11 + 2 ^ 11) := by
    ext word
    rw [Finset.mem_filter, Finset.mem_range, Finset.mem_Ico, Nat.div_eq_iff (by decide)]
    omega
  rw [hinterval, Nat.card_Ico, Nat.add_sub_cancel_left]

/-- Draws are equal when their units are. -/
theorem draw_eq_iff (rng : SplitMix64) (k : Nat) {x : NonnegBinary64} {m : Nat}
    (hx : unitsOf x.1 = m * 2 ^ 1021) :
    (rng.draw k : Binary64) = x.toBinary64 ↔ ((rng.skip k).next.1 >>> 11).toNat = m := by
  obtain ⟨y, hdraw, hunits⟩ := exists_nextUnit_eq (rng.skip k)
  have hdraw : (rng.draw k : Binary64) = y.toBinary64 := hdraw
  have hpos : 0 < 2 ^ 1021 := by positivity
  rw [hdraw, toBinary64_inj, ← unitsOf_inj, hunits, hx]
  exact Nat.mul_right_cancel_iff hpos

/-- **Unit draws are uniform on the multiples of `2 ^ (-53)` below one.** Every draw is one of
them, exactly the one that the top bits of the word say; and at every position of the stream each
of them is drawn from `2 ^ 11` of the `2 ^ 64` seeds. -/
theorem nextUnit_uniform :
    (∀ rng : SplitMix64, ∃ x : NonnegBinary64,
      (rng.nextUnit : Binary64 × SplitMix64).1 = x.toBinary64 ∧ x < oneDouble ∧
        unitsOf x.1 = (rng.next.1 >>> 11).toNat * 2 ^ 1021) ∧
      ∀ x : NonnegBinary64, x < oneDouble → 2 ^ 1021 ∣ unitsOf x.1 → ∀ k,
        {seed : UInt64 | (SplitMix64.draw ⟨seed⟩ k : Binary64) = x.toBinary64}.ncard
          = 2 ^ 11 := by
  constructor
  · intro rng
    obtain ⟨x, hdraw, hunits⟩ := exists_nextUnit_eq rng
    refine ⟨x, hdraw, ?_, hunits⟩
    rw [← unitsOf_lt, hunits, unitsOf_oneDouble]
    have hpos : 0 < 2 ^ 1021 := by positivity
    exact Nat.mul_lt_mul_of_pos_right (top_bits_lt _) hpos
  · rintro x hx ⟨m, hm⟩ k
    rw [Nat.mul_comm] at hm
    rw [← unitsOf_lt, hm, unitsOf_oneDouble] at hx
    have hbits : m < 2 ^ 53 := Nat.lt_of_mul_lt_mul_right hx
    have hset : {seed : UInt64 | (SplitMix64.draw ⟨seed⟩ k : Binary64) = x.toBinary64}
        = {seed : UInt64 | (((⟨seed⟩ : SplitMix64).skip k).next.1 >>> 11).toNat = m} :=
      Set.ext fun seed => draw_eq_iff ⟨seed⟩ k hm
    rw [hset, ncard_bits k (· = m), card_bits_eq hbits]

/-- One half is the first draw of `2 ^ 11` seeds. -/
theorem nextUnit_uniform_half :
    {seed : UInt64 | (SplitMix64.draw ⟨seed⟩ 0 : Binary64) = UnitArith.half}.ncard = 2 ^ 11 := by
  have hhalf : (UnitArith.half : Binary64) = toBinary64 ⟨0x3FE * 2 ^ 52, by decide⟩ := by decide
  rw [hhalf]
  exact nextUnit_uniform.2 _ (show 0x3FE * 2 ^ 52 < 0x3FF * 2 ^ 52 by decide)
    ⟨2 ^ 52, by decide +kernel⟩ 0

/-! ## Draws below a bound -/

/-- A number of units is less than one step below a multiple of the step. -/
theorem exists_multiple_ge (n : Nat) {step : Nat} (hstep : 0 < step) :
    ∃ m, n ≤ m * step ∧ m * step < n + step := by
  have hsplit := Nat.div_add_mod' (n + step - 1) step
  have hmod := Nat.mod_lt (n + step - 1) hstep
  exact ⟨(n + step - 1) / step, by omega, by omega⟩

/-- Rounding up does not pass a multiple of the step. -/
theorem le_of_multiple_lt {m n k step : Nat} (hm : m * step < n + step) (hn : n ≤ k * step) :
    m ≤ k := by
  have hlt : m * step < (k + 1) * step := by
    rw [Nat.add_mul, Nat.one_mul]
    exact hm.trans_le (Nat.add_le_add_right hn step)
  exact Nat.le_of_lt_succ (Nat.lt_of_mul_lt_mul_right hlt)

/-- A draw is below a bound when its bits are below the bound, rounded up to a multiple of
`2 ^ (-53)`. -/
theorem draw_lt_iff (rng : SplitMix64) (k : Nat) {x : NonnegBinary64} {n : Nat}
    (hlow : unitsOf x.1 ≤ n * 2 ^ 1021) (hhigh : n * 2 ^ 1021 < unitsOf x.1 + 2 ^ 1021) :
    (rng.draw k : Binary64) < x.toBinary64 ↔ ((rng.skip k).next.1 >>> 11).toNat < n := by
  obtain ⟨y, hdraw, hunits⟩ := exists_nextUnit_eq (rng.skip k)
  have hdraw : (rng.draw k : Binary64) = y.toBinary64 := hdraw
  rw [hdraw, toBinary64_lt, ← unitsOf_lt, hunits]
  generalize ((rng.skip k).next.1 >>> 11).toNat = m
  generalize 2 ^ 1021 = step at hlow hhigh ⊢
  constructor
  · intro hlt
    exact Nat.lt_of_mul_lt_mul_right (hlt.trans_le hlow)
  · intro hlt
    have hnext : (m + 1) * step ≤ n * step := Nat.mul_le_mul_right step hlt
    rw [Nat.add_mul, Nat.one_mul] at hnext
    omega

/-- **How many seeds draw below a bound.** -/
theorem ncard_draw_lt (k : Nat) {x : NonnegBinary64} {n : Nat} (hn : n ≤ 2 ^ 53)
    (hlow : unitsOf x.1 ≤ n * 2 ^ 1021) (hhigh : n * 2 ^ 1021 < unitsOf x.1 + 2 ^ 1021) :
    {seed : UInt64 | (SplitMix64.draw ⟨seed⟩ k : Binary64) < x.toBinary64}.ncard
      = 2 ^ 11 * n := by
  have hset : {seed : UInt64 | (SplitMix64.draw ⟨seed⟩ k : Binary64) < x.toBinary64}
      = {seed : UInt64 | (((⟨seed⟩ : SplitMix64).skip k).next.1 >>> 11).toNat < n} :=
    Set.ext fun seed => draw_lt_iff ⟨seed⟩ k hlow hhigh
  rw [hset, ncard_bits k (· < n), card_bits_lt hn]

end SplitMix64

end RouteEngine
