import RouteEngine.Types
import RouteEngine.Library.NonnegBinary64
import Mathlib.Algebra.Field.Basic
import Mathlib.Order.WithBot

set_option autoImplicit false

/-! # The pseudo-random stream

`SplitMix64` (`include/route/random.hpp`): a 64-bit state that grows by a constant, and a mix of
its bits. A unit draw is a multiple of `2 ^ (-53)`, computed in the scalar arithmetic. -/

namespace RouteEngine

variable {F : Type}

/-- The conversion of an integer to a scalar and the literals `0.5`, `2.0` and `0x1.0p-53`. -/
class UnitArith (F : Type) where
  ofNat : Nat → F
  half : F
  two : F
  unit : F

instance : UnitArith Binary64 where
  ofNat n := .ofMagnitude false (Binary64.roundMagnitude (n * 2 ^ 1074) 1)
  half := ⟨0x3FE0000000000000⟩
  two := ⟨0x4000000000000000⟩
  unit := ⟨0x3CA0000000000000⟩

instance {K : Type} [Field K] : UnitArith (WithTop K) where
  ofNat n := ((n : K) : WithTop K)
  half := (((1 + 1)⁻¹ : K) : WithTop K)
  two := ((1 + 1 : K) : WithTop K)
  unit := ((((1 + 1) ^ 53)⁻¹ : K) : WithTop K)

structure SplitMix64 where
  state : UInt64
  deriving DecidableEq, Repr

namespace SplitMix64

/-- `next`: the word drawn and the generator after it. -/
def next (rng : SplitMix64) : UInt64 × SplitMix64 :=
  let state := rng.state + 0x9E3779B97F4A7C15
  let z := state
  let z := (z ^^^ (z >>> 30)) * 0xBF58476D1CE4E5B9
  let z := (z ^^^ (z >>> 27)) * 0x94D049BB133111EB
  (z ^^^ (z >>> 31), ⟨state⟩)

/-- `next_unit`: the top 53 bits as a multiple of `2 ^ (-53)`. -/
def nextUnit [Mul F] [UnitArith F] (rng : SplitMix64) : F × SplitMix64 :=
  let (word, rng) := rng.next
  (UnitArith.ofNat (word >>> 11).toNat * UnitArith.unit, rng)

/-- The smallest mask of low bits that covers `x`. -/
def smearMask (x : UInt64) : UInt64 :=
  let mask := x
  let mask := mask ||| mask >>> 1
  let mask := mask ||| mask >>> 2
  let mask := mask ||| mask >>> 4
  let mask := mask ||| mask >>> 8
  let mask := mask ||| mask >>> 16
  mask ||| mask >>> 32

/-- `next() & mask`, the word that is compared with the bound. -/
def candidate (mask : UInt64) (rng : SplitMix64) : UInt64 := rng.next.1 &&& mask

/-- The loop of `next_below`: draw until a candidate is below the bound. -/
def drawBelow (bound mask : UInt64) : Nat → SplitMix64 → Outcome (UInt64 × SplitMix64)
  | 0, _ => throw .diverged
  | fuel + 1, rng =>
      if rng.candidate mask < bound then return (rng.candidate mask, rng.next.2)
      else drawBelow bound mask fuel rng.next.2

/-- `next_below`. The stream has a period of `2 ^ 64`, so no more draws are needed. -/
def nextBelow (rng : SplitMix64) (bound : UInt64) : Outcome (UInt64 × SplitMix64) :=
  drawBelow bound (smearMask (bound - 1)) UInt64.size rng

/-- The generator after `k` draws. -/
def skip (rng : SplitMix64) : Nat → SplitMix64
  | 0 => rng
  | k + 1 => (rng.skip k).next.2

/-- Draw `k` of the stream, counted from zero. -/
def draw [Mul F] [UnitArith F] (rng : SplitMix64) (k : Nat) : F := (rng.skip k).nextUnit.1

@[simp] theorem skip_zero (rng : SplitMix64) : rng.skip 0 = rng := rfl

theorem skip_succ (rng : SplitMix64) (k : Nat) : rng.skip (k + 1) = (rng.skip k).next.2 := rfl

theorem nextUnit_skip [Mul F] [UnitArith F] (rng : SplitMix64) (k : Nat) :
    (rng.skip k).nextUnit = ((rng.draw k : F), rng.skip (k + 1)) := rfl

/-- The first word of the stream with seed zero. -/
example : (next ⟨0⟩).1 = 0xe220a8397b1dcdaf := by decide

/-! ## Unit draws of doubles -/

/-- A word without its low bits has 53 bits. -/
theorem top_bits_lt (word : UInt64) : (word >>> 11).toNat < 2 ^ 53 := by
  have hlt : word.toNat < 2 ^ 64 := word.toNat_lt
  rw [UInt64.toNat_shiftRight, Nat.shiftRight_eq_div_pow]
  show word.toNat / 2 ^ 11 < 2 ^ 53
  omega

/-- `0x1.0p-53`. -/
def unitDouble : NonnegBinary64 := ⟨0x3CA0000000000000, by decide⟩

def oneDouble : NonnegBinary64 := ⟨0x3FF * 2 ^ 52, by decide⟩

theorem toBinary64_oneDouble : oneDouble.toBinary64 = 1 := by decide

/-- The greatest integer below `2 ^ 53` is below infinity, and so many units of `2 ^ (-53)` are
less than one. -/
theorem nearest_lt_top : NonnegBinary64.nearest ((2 ^ 53 - 1) * 2 ^ 1074) 1 < ⊤ := by
  show Binary64.roundMagnitude _ _ < Binary64.infinityMagnitude
  decide +kernel

theorem nearest_units_lt_one : NonnegBinary64.nearest
    (Binary64.unitsOf (NonnegBinary64.nearest ((2 ^ 53 - 1) * 2 ^ 1074) 1).1
      * Binary64.unitsOf unitDouble.1) (2 ^ 1074) < oneDouble := by
  show Binary64.roundMagnitude _ _ < 0x3FF * 2 ^ 52
  decide +kernel

/-- **A unit draw is at least zero and below one.** -/
theorem draw_range (rng : SplitMix64) (k : Nat) :
    ∃ x : NonnegBinary64, (rng.draw k : Binary64) = x.toBinary64 ∧ x < oneDouble := by
  have hdraw : (rng.draw k : Binary64)
      = (NonnegBinary64.nearest (((rng.skip k).next.1 >>> 11).toNat * 2 ^ 1074) 1).toBinary64
        * unitDouble.toBinary64 := rfl
  generalize hm : ((rng.skip k).next.1 >>> 11).toNat = m at hdraw
  have hbits : m ≤ 2 ^ 53 - 1 := Nat.le_pred_of_lt (hm ▸ top_bits_lt _)
  have hle : NonnegBinary64.nearest (m * 2 ^ 1074) 1
      ≤ NonnegBinary64.nearest ((2 ^ 53 - 1) * 2 ^ 1074) 1 :=
    NonnegBinary64.nearest_mono (Nat.mul_le_mul_right _ hbits)
  have hfinite : NonnegBinary64.nearest (m * 2 ^ 1074) 1 ≠ ⊤ := (hle.trans_lt nearest_lt_top).ne
  have hunit : unitDouble ≠ ⊤ := fun h => absurd (congrArg Subtype.val h) (by decide)
  rw [NonnegBinary64.toBinary64_mul hfinite hunit] at hdraw
  refine ⟨_, hdraw, lt_of_le_of_lt ?_ nearest_units_lt_one⟩
  have hunits : Binary64.unitsOf (NonnegBinary64.nearest (m * 2 ^ 1074) 1).1
      ≤ Binary64.unitsOf (NonnegBinary64.nearest ((2 ^ 53 - 1) * 2 ^ 1074) 1).1 :=
    Binary64.unitsOf_mono (Binary64.roundMagnitude_mono (Nat.mul_le_mul_right _ hbits))
  exact NonnegBinary64.nearest_mono (Nat.mul_le_mul_right _ hunits)

end SplitMix64

end RouteEngine
