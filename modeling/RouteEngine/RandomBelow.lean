import RouteEngine.Random
import RouteEngine.Library.BitMix
import Mathlib.Data.FinEnum
import Mathlib.Data.Set.Card

set_option autoImplicit false

/-! # Bounded draws

`next_below` draws words until one of them, masked, is below the bound. The mix is a permutation
of words and the state runs through all of them, so a candidate is found
(`nextBelow_terminates`), and no value is favoured (`nextBelow_unbiased`). -/

namespace RouteEngine

namespace SplitMix64

/-! ## The permutation -/

/-- The constant by which the state grows. -/
def increment : UInt64 := 0x9E3779B97F4A7C15

/-- The word that is drawn when the state has become `z`. -/
def mix (z : UInt64) : UInt64 :=
  let z := (z ^^^ (z >>> 30)) * 0xBF58476D1CE4E5B9
  let z := (z ^^^ (z >>> 27)) * 0x94D049BB133111EB
  z ^^^ (z >>> 31)

theorem next_eq (rng : SplitMix64) :
    rng.next = (mix (rng.state + increment), ⟨rng.state + increment⟩) := rfl

/-- **The mix is a permutation of words.** -/
theorem mix_bijective : Function.Bijective mix := by
  have h30 : Function.Injective fun z : UInt64 => z ^^^ (z >>> 30) :=
    BitMix.xorShift64_injective (by decide)
  have h27 : Function.Injective fun z : UInt64 => z ^^^ (z >>> 27) :=
    BitMix.xorShift64_injective (by decide)
  have h31 : Function.Injective fun z : UInt64 => z ^^^ (z >>> 31) :=
    BitMix.xorShift64_injective (by decide)
  -- both factors are odd
  have hfirst : Function.Injective fun z : UInt64 => z * 0xBF58476D1CE4E5B9 :=
    BitMix.mul_injective (show (0xBF58476D1CE4E5B9 : UInt64) * 0x96DE1B173F119089 = 1 by decide)
  have hsecond : Function.Injective fun z : UInt64 => z * 0x94D049BB133111EB :=
    BitMix.mul_injective (show (0x94D049BB133111EB : UInt64) * 0x319642B2D24D8EC3 = 1 by decide)
  have hmix : Function.Injective mix :=
    h31.comp (hsecond.comp (h27.comp (hfirst.comp h30)))
  exact ⟨hmix, Finite.surjective_of_injective hmix⟩

/-! ## The stream -/

theorem skip_next (rng : SplitMix64) (j : Nat) : rng.next.2.skip j = rng.skip (j + 1) := by
  induction j with
  | zero => rw [skip_succ, skip_zero, skip_zero]
  | succ j ih => rw [skip_succ, ih, ← skip_succ]

theorem state_skip (rng : SplitMix64) (j : Nat) :
    (rng.skip j).state = rng.state + UInt64.ofNat j * increment := by
  induction j with
  | zero => simp
  | succ j ih =>
      calc (rng.skip (j + 1)).state = (rng.skip j).state + increment := by
            rw [skip_succ, next_eq]
        _ = rng.state + (UInt64.ofNat j * increment + increment) := by rw [ih, UInt64.add_assoc]
        _ = rng.state + UInt64.ofNat (j + 1) * increment := by
          rw [UInt64.ofNat_add, UInt64.add_mul, UInt64.ofNat_one, UInt64.one_mul]

/-- **The stream has full period**: every state follows within `2 ^ 64` draws. -/
theorem exists_skip_eq (rng target : SplitMix64) : ∃ j, j < 2 ^ 64 ∧ rng.skip j = target := by
  have hinverse : increment * 0xF1DE83E19937733D = 1 := by decide
  rcases BitMix.exists_steps hinverse rng.state target.state with ⟨j, hj, hstate⟩
  refine ⟨j, hj, ?_⟩
  rw [← state_skip] at hstate
  cases target
  exact congrArg SplitMix64.mk hstate

/-! ## The mask -/

theorem toNat_smearMask (x : UInt64) : (smearMask x).toNat = 2 ^ x.toNat.size - 1 := by
  have hcovers := (((((BitMix.Covers.refl x.toNat).step (show 1 ≤ 1 by decide)).step
    (show 2 ≤ 1 + 1 by decide)).step (show 4 ≤ 1 + 1 + 2 by decide)).step
    (show 8 ≤ 1 + 1 + 2 + 4 by decide)).step (show 16 ≤ 1 + 1 + 2 + 4 + 8 by decide)
  have hall := hcovers.step (show 32 ≤ 1 + 1 + 2 + 4 + 8 + 16 by decide)
  have hmask := hall.eq_mask x.toNat_lt
  simpa [smearMask] using hmask

theorem size_le (x : UInt64) : x.toNat.size ≤ 64 := Nat.size_le.mpr x.toNat_lt

/-- The mask keeps the low bits. -/
theorem toNat_and_smearMask (word x : UInt64) :
    (word &&& smearMask x).toNat = word.toNat % 2 ^ x.toNat.size := by
  rw [UInt64.toNat_and, toNat_smearMask, Nat.and_two_pow_sub_one_eq_mod]

/-- **Every word and every masked value is drawn** within `2 ^ 64` draws. -/
theorem exists_candidate_eq (rng : SplitMix64) {mask v : UInt64} (hv : v &&& mask = v) :
    ∃ j, j < 2 ^ 64 ∧ (rng.skip j).candidate mask = v := by
  rcases mix_bijective.surjective v with ⟨z, hz⟩
  rcases rng.exists_skip_eq ⟨z - increment⟩ with ⟨j, hj, hstate⟩
  refine ⟨j, hj, ?_⟩
  rw [hstate, candidate, next_eq]
  show mix (z - increment + increment) &&& mask = v
  rw [UInt64.sub_add_cancel, hz, hv]

/-! ## The loop -/

/-- **The loop returns the first candidate below the bound.** -/
theorem drawBelow_eq {bound mask : UInt64} (j : Nat) :
    ∀ {fuel : Nat} {rng : SplitMix64}, j < fuel → (rng.skip j).candidate mask < bound →
      (∀ i, i < j → ¬ (rng.skip i).candidate mask < bound) →
      drawBelow bound mask fuel rng = .ok ((rng.skip j).candidate mask, rng.skip (j + 1)) := by
  induction j with
  | zero =>
      intro fuel rng hfuel haccepted _
      obtain ⟨n, rfl⟩ := Nat.exists_eq_add_of_le' hfuel
      have hnow : rng.candidate mask < bound := haccepted
      rw [drawBelow, if_pos hnow]
      rfl
  | succ j ih =>
      intro fuel rng hfuel haccepted hrejected
      obtain ⟨n, rfl⟩ := Nat.exists_eq_add_of_le' (Nat.succ_le_of_lt (Nat.zero_lt_of_lt hfuel))
      have hnow : ¬ rng.candidate mask < bound := hrejected 0 (Nat.succ_pos j)
      rw [← skip_next] at haccepted
      have hrest : drawBelow bound mask n rng.next.2
          = .ok ((rng.next.2.skip j).candidate mask, rng.next.2.skip (j + 1)) := by
        refine ih (by omega) haccepted fun i hi => ?_
        rw [skip_next]
        exact hrejected (i + 1) (by omega)
      rw [drawBelow, if_neg hnow, hrest, skip_next, skip_next]

/-- The draws up to the first accepted one. -/
theorem nextBelow_eq (rng : SplitMix64) {bound : UInt64} (hbound : 0 < bound) :
    ∃ j, j < 2 ^ 64 ∧ (rng.skip j).candidate (smearMask (bound - 1)) < bound ∧
      (∀ i, i < j → ¬ (rng.skip i).candidate (smearMask (bound - 1)) < bound) ∧
      rng.nextBelow bound
        = .ok ((rng.skip j).candidate (smearMask (bound - 1)), rng.skip (j + 1)) := by
  -- the value zero is accepted, and it is drawn some time
  have hzero : (0 : UInt64) &&& smearMask (bound - 1) = 0 := UInt64.zero_and
  have hexists : ∃ j, (rng.skip j).candidate (smearMask (bound - 1)) < bound := by
    rcases rng.exists_candidate_eq hzero with ⟨j, -, hj⟩
    exact ⟨j, hj ▸ hbound⟩
  classical
  have hfirst := Nat.find_spec hexists
  have hleast : ∀ i, i < Nat.find hexists →
      ¬ (rng.skip i).candidate (smearMask (bound - 1)) < bound :=
    fun i hi => Nat.find_min hexists hi
  have hlt : Nat.find hexists < 2 ^ 64 := by
    rcases rng.exists_candidate_eq hzero with ⟨j, hlt, hj⟩
    exact (Nat.find_min' hexists (hj ▸ hbound)).trans_lt hlt
  exact ⟨_, hlt, hfirst, hleast, drawBelow_eq _ hlt hfirst hleast⟩

/-- **`next_below` terminates** for every state and every positive bound, with a value below the
bound: the mix is a permutation, the increment is odd, and so every masked value is drawn within
`2 ^ 64` draws. -/
theorem nextBelow_terminates (rng : SplitMix64) (bound : UInt64) (hbound : 0 < bound) :
    increment.toNat % 2 = 1 ∧ Function.Bijective mix ∧
      (∀ v, v &&& smearMask (bound - 1) = v →
        ∃ j, j < 2 ^ 64 ∧ (rng.skip j).candidate (smearMask (bound - 1)) = v) ∧
      ∃ j v, j < 2 ^ 64 ∧ rng.nextBelow bound = .ok (v, rng.skip (j + 1)) ∧ v < bound ∧
        v = (rng.skip j).candidate (smearMask (bound - 1)) ∧
        ∀ i, i < j → bound ≤ (rng.skip i).candidate (smearMask (bound - 1)) := by
  refine ⟨by decide, mix_bijective, fun v hv => rng.exists_candidate_eq hv, ?_⟩
  rcases rng.nextBelow_eq hbound with ⟨j, hj, haccepted, hrejected, hdraw⟩
  exact ⟨j, _, hj, hdraw, haccepted, rfl, fun i hi => UInt64.not_lt.mp (hrejected i hi)⟩

/-- The bound five needs three bits: the candidates of the stream with seed zero are `7`, which
is rejected, and `4`. -/
theorem nextBelow_terminates_five :
    (∃ j v, j < 2 ^ 64 ∧ (⟨0⟩ : SplitMix64).nextBelow 5 = .ok (v, (⟨0⟩ : SplitMix64).skip (j + 1)) ∧
      v < 5) ∧ (⟨0⟩ : SplitMix64).nextBelow 5 = .ok (4, (⟨0⟩ : SplitMix64).skip 2) := by
  rcases nextBelow_terminates ⟨0⟩ 5 (by decide) with ⟨-, -, -, j, v, hj, hdraw, hv, -⟩
  exact ⟨⟨j, v, hj, hdraw, hv⟩, by decide +kernel⟩

/-! ## Counting states -/

/-- The words that follow the states are all words, each once. -/
theorem word_bijective : Function.Bijective fun rng : SplitMix64 => rng.next.1 := by
  constructor
  · intro a b heq
    have hstate : a.state + increment = b.state + increment := mix_bijective.injective heq
    cases a
    cases b
    rw [SplitMix64.mk.injEq]
    exact (UInt64.add_left_inj increment).mp hstate
  · intro word
    rcases mix_bijective.surjective word with ⟨z, hz⟩
    refine ⟨⟨z - increment⟩, ?_⟩
    show mix (z - increment + increment) = word
    rw [UInt64.sub_add_cancel, hz]

/-- A property of the word that is drawn holds for as many states as there are such words. -/
theorem ncard_word (p : Nat → Prop) [DecidablePred p] :
    {rng : SplitMix64 | p rng.next.1.toNat}.ncard
      = ((Finset.range (2 ^ 64)).filter p).card := by
  have hinjective : Function.Injective fun rng : SplitMix64 => rng.next.1.toNat :=
    fun a b heq => word_bijective.injective (UInt64.toNat_inj.mp heq)
  have himage : (fun rng : SplitMix64 => rng.next.1.toNat) '' {rng | p rng.next.1.toNat}
      = ((Finset.range (2 ^ 64)).filter p : Finset ℕ) := by
    ext n
    rw [Finset.mem_coe, Finset.mem_filter, Finset.mem_range]
    constructor
    · rintro ⟨rng, hp, rfl⟩
      exact ⟨rng.next.1.toNat_lt, hp⟩
    · rintro ⟨hn, hp⟩
      rcases word_bijective.surjective (UInt64.ofNat n) with ⟨rng, hrng⟩
      have hword : rng.next.1.toNat = n := by
        rw [show rng.next.1 = UInt64.ofNat n from hrng]
        exact UInt64.toNat_ofNat_of_lt' hn
      refine ⟨rng, ?_, hword⟩
      show p rng.next.1.toNat
      rwa [hword]
  rw [← Set.ncard_image_of_injective _ hinjective, himage, Set.ncard_coe_finset]

/-- **Every masked value is the first candidate of equally many states.** -/
theorem ncard_candidate {x v : UInt64} (hv : v.toNat < 2 ^ x.toNat.size) :
    {rng : SplitMix64 | rng.candidate (smearMask x) = v}.ncard = 2 ^ (64 - x.toNat.size) := by
  have hset : {rng : SplitMix64 | rng.candidate (smearMask x) = v}
      = {rng : SplitMix64 | rng.next.1.toNat % 2 ^ x.toNat.size = v.toNat} := by
    ext rng
    show rng.next.1 &&& smearMask x = v ↔ _
    rw [← UInt64.toNat_inj, toNat_and_smearMask]
    rfl
  rw [hset, ncard_word (fun n => n % 2 ^ x.toNat.size = v.toNat),
    BitMix.card_residue (size_le x) hv]

/-- The states whose first candidate is below a bound. -/
theorem ncard_accepted (x bound : UInt64) (hbound : bound.toNat ≤ 2 ^ x.toNat.size) :
    {rng : SplitMix64 | rng.candidate (smearMask x) < bound}.ncard
      = bound.toNat * 2 ^ (64 - x.toNat.size) := by
  have hset : {rng : SplitMix64 | rng.candidate (smearMask x) < bound}
      = {rng : SplitMix64 | rng.next.1.toNat % 2 ^ x.toNat.size < bound.toNat} := by
    ext rng
    show rng.next.1 &&& smearMask x < bound ↔ _
    rw [UInt64.lt_iff_toNat_lt, toNat_and_smearMask]
    rfl
  rw [hset, ncard_word (fun n => n % 2 ^ x.toNat.size < bound.toNat),
    Finset.card_eq_sum_card_fiberwise (f := fun n => n % 2 ^ x.toNat.size)
      (t := Finset.range bound.toNat)]
  · -- every value below the bound has its share
    rw [Finset.sum_congr rfl fun v hv => ?_, Finset.sum_const, Finset.card_range, Nat.nsmul_eq_mul]
    have hlt : v < 2 ^ x.toNat.size := (Finset.mem_range.mp hv).trans_le hbound
    rw [← BitMix.card_residue (size_le x) hlt, Finset.filter_filter]
    refine congrArg Finset.card (Finset.filter_congr fun n _ => ?_)
    constructor
    · exact fun hand => hand.2
    · exact fun heq => ⟨heq ▸ Finset.mem_range.mp hv, heq⟩
  · intro n hn
    rw [Finset.mem_coe, Finset.mem_filter] at hn
    exact Finset.mem_coe.mpr (Finset.mem_range.mpr hn.2)

theorem toNat_pred {bound : UInt64} (hbound : 0 < bound) :
    (bound - 1).toNat = bound.toNat - 1 := by
  have hone : (1 : UInt64) ≤ bound := by
    rw [UInt64.le_iff_toNat_le]
    exact UInt64.lt_iff_toNat_lt.mp hbound
  exact UInt64.toNat_sub_of_le _ _ hone

/-- The mask of a bound covers it. -/
theorem le_two_pow_size {bound : UInt64} (hbound : 0 < bound) :
    bound.toNat ≤ 2 ^ (bound - 1).toNat.size := by
  have hlt := Nat.lt_size_self (bound - 1).toNat
  rw [toNat_pred hbound] at hlt ⊢
  omega

/-- **More than half of the first candidates are accepted**: the highest bit of the mask is
needed. -/
theorem two_mul_ncard_accepted {bound : UInt64} (hbound : 0 < bound) :
    2 ^ 64 < 2 * {rng : SplitMix64 | rng.candidate (smearMask (bound - 1)) < bound}.ncard := by
  have hpos : 0 < bound.toNat := UInt64.lt_iff_toNat_lt.mp hbound
  rw [ncard_accepted _ _ (le_two_pow_size hbound)]
  generalize hk : (bound - 1).toNat.size = k
  have hk64 : k ≤ 64 := hk ▸ size_le (bound - 1)
  have hhalf : 2 ^ k < 2 * bound.toNat := by
    cases k with
    | zero => omega
    | succ j =>
        have hbit : 2 ^ j ≤ (bound - 1).toNat := Nat.lt_size.mp (hk ▸ Nat.lt_succ_self j)
        rw [toNat_pred hbound] at hbit
        rw [Nat.pow_succ]
        omega
  calc 2 ^ 64 = 2 ^ k * 2 ^ (64 - k) := by rw [← Nat.pow_add, Nat.add_sub_cancel' hk64]
    _ < 2 * bound.toNat * 2 ^ (64 - k) := Nat.mul_lt_mul_of_pos_right hhalf (by positivity)
    _ = 2 * (bound.toNat * 2 ^ (64 - k)) := Nat.mul_assoc _ _ _

theorem card_splitMix64 : Nat.card SplitMix64 = 2 ^ 64 := by
  have hall := ncard_word (fun _ => True)
  rw [Finset.filter_true, Finset.card_range] at hall
  rw [← Set.ncard_univ, ← hall]
  rfl

/-- **`next_below` favours no value.** Over all states, the mask is the smallest one that covers
the bound, every value below the bound is the first candidate equally often, and more than half
of the first candidates are accepted. -/
theorem nextBelow_unbiased (bound : UInt64) (hbound : 0 < bound) :
    IsLeast {m | ∃ k, m = 2 ^ k - 1 ∧ bound.toNat - 1 ≤ m} (smearMask (bound - 1)).toNat ∧
      Nat.card SplitMix64 = 2 ^ 64 ∧
      (∀ v, v < bound → {rng : SplitMix64 | rng.candidate (smearMask (bound - 1)) = v}.ncard
        = 2 ^ 64 / ((smearMask (bound - 1)).toNat + 1)) ∧
      2 ^ 64 < 2 * {rng : SplitMix64 | rng.candidate (smearMask (bound - 1)) < bound}.ncard := by
  have hcovered := le_two_pow_size hbound
  refine ⟨?_, card_splitMix64, fun v hv => ?_, two_mul_ncard_accepted hbound⟩
  · rw [toNat_smearMask, ← toNat_pred hbound]
    exact BitMix.isLeast_mask _
  · rw [UInt64.lt_iff_toNat_lt] at hv
    rw [ncard_candidate (hv.trans_le hcovered), toNat_smearMask,
      Nat.sub_add_cancel Nat.one_le_two_pow, Nat.pow_div (size_le _) (by decide)]

/-- Below five, three bits are drawn: each value is the first candidate of one state in eight. -/
theorem nextBelow_unbiased_five :
    {rng : SplitMix64 | rng.candidate (smearMask (5 - 1)) = 4}.ncard = 2 ^ 61 ∧
      2 ^ 64 < 2 * {rng : SplitMix64 | rng.candidate (smearMask (5 - 1)) < 5}.ncard := by
  rcases nextBelow_unbiased 5 (by decide) with ⟨-, -, hcount, hhalf⟩
  exact ⟨hcount 4 (by decide), hhalf⟩

/-! ## Draws that one call consumes -/

theorem skip_skip (rng : SplitMix64) (i j : Nat) : (rng.skip i).skip j = rng.skip (i + j) := by
  induction j with
  | zero => rw [skip_zero, Nat.add_zero]
  | succ j ih => rw [skip_succ, ih, ← skip_succ, Nat.add_assoc]

/-- Within a period the states of the stream are distinct. -/
theorem skip_inj {rng : SplitMix64} {i j : Nat} (hi : i < 2 ^ 64) (hj : j < 2 ^ 64)
    (heq : rng.skip i = rng.skip j) : i = j := by
  have hstate := congrArg state heq
  rw [state_skip, state_skip, UInt64.add_right_inj] at hstate
  have hinverse : increment * 0xF1DE83E19937733D = 1 := by decide
  have hnat := congrArg UInt64.toNat (BitMix.mul_injective hinverse hstate)
  rwa [UInt64.toNat_ofNat_of_lt' hi, UInt64.toNat_ofNat_of_lt' hj] at hnat

theorem skip_eq_self_iff {rng : SplitMix64} {k : Nat} (hk : k < 2 ^ 64) :
    rng.skip k = rng ↔ k = 0 := by
  constructor
  · intro heq
    have hzero : rng.skip k = rng.skip 0 := heq
    exact skip_inj hk (by decide) hzero
  · rintro rfl
    exact skip_zero rng

/-- **No call rejects half of a period**: the states that reject are fewer, and no state recurs. -/
theorem rejections_lt {rng : SplitMix64} {bound : UInt64} (hbound : 0 < bound) {a : Nat}
    (ha : a < 2 ^ 64)
    (hrejected : ∀ i, i < a → ¬ (rng.skip i).candidate (smearMask (bound - 1)) < bound) :
    a < 2 ^ 63 := by
  set accepted := {rng : SplitMix64 | rng.candidate (smearMask (bound - 1)) < bound} with hset
  have : Finite SplitMix64 := Nat.finite_of_card_ne_zero (by rw [card_splitMix64]; decide)
  have hmany : 2 ^ 64 < 2 * accepted.ncard := two_mul_ncard_accepted hbound
  have hsplit : accepted.ncard + acceptedᶜ.ncard = 2 ^ 64 := by
    rw [Set.ncard_add_ncard_compl, card_splitMix64]
  have hinjective : Set.InjOn (fun i => rng.skip i) (Finset.range a : Set ℕ) := by
    intro i hi j hj heq
    rw [Finset.mem_coe, Finset.mem_range] at hi hj
    exact skip_inj (by omega) (by omega) heq
  have hsub : (fun i => rng.skip i) '' (Finset.range a : Set ℕ) ⊆ acceptedᶜ := by
    rintro _ ⟨i, hi, rfl⟩
    exact hrejected i (Finset.mem_range.mp (Finset.mem_coe.mp hi))
  have hle := Set.ncard_le_ncard hsub (Set.toFinite _)
  rw [hinjective.ncard_image, Set.ncard_coe_finset, Finset.card_range] at hle
  omega

/-- **One call of `next_below`**: it rejects `a` candidates, none when the first is accepted. -/
theorem nextBelow_draws (rng : SplitMix64) {bound : UInt64} (hbound : 0 < bound) :
    ∃ a v, a < 2 ^ 63 ∧ rng.nextBelow bound = .ok (v, rng.skip (a + 1)) ∧ v < bound ∧
      (a = 0 ↔ rng.candidate (smearMask (bound - 1)) < bound) := by
  rcases rng.nextBelow_eq hbound with ⟨a, ha, haccepted, hrejected, hdraw⟩
  refine ⟨a, _, rejections_lt hbound ha hrejected, hdraw, haccepted, ?_⟩
  constructor
  · rintro rfl
    exact haccepted
  · intro hfirst
    by_contra hne
    exact hrejected 0 (Nat.pos_of_ne_zero hne) hfirst

end SplitMix64

end RouteEngine
