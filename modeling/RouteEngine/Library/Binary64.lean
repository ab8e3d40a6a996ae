import Mathlib.Algebra.Group.Nat.Defs
import Mathlib.Order.Basic
import Mathlib.Data.Int.Order.Basic

set_option autoImplicit false

/-! # IEEE 754 binary64 values

A value is its 64-bit word: the sign bit, then 63 bits that order the magnitudes. A finite
value is a whole number of units of `2 ^ (-1074)`, so each operation is exact integer
arithmetic in units followed by one rounding to nearest, ties to even. -/

structure Binary64 where
  bits : UInt64
  deriving DecidableEq, Repr

namespace Binary64

/-! ## The word -/

/-- The word without its sign bit. -/
def magnitude (x : Binary64) : Nat := x.bits.toNat % 2 ^ 63

/-- The sign bit, which zeros have as well. -/
def negative (x : Binary64) : Bool := decide (2 ^ 63 ≤ x.bits.toNat)

/-- The magnitude of the infinities; the NaNs lie above it. -/
def infinityMagnitude : Nat := 0x7FF * 2 ^ 52

def isNaN (x : Binary64) : Bool := decide (infinityMagnitude < x.magnitude)

def isInf (x : Binary64) : Bool := decide (x.magnitude = infinityMagnitude)

def isFinite (x : Binary64) : Bool := decide (x.magnitude < infinityMagnitude)

def ofMagnitude (negative : Bool) (magnitude : Nat) : Binary64 :=
  ⟨UInt64.ofNat (if negative then 2 ^ 63 + magnitude else magnitude)⟩

/-- A value is its sign and its magnitude. -/
theorem ofMagnitude_magnitude (x : Binary64) : ofMagnitude x.negative x.magnitude = x := by
  have hlt := x.bits.toNat_lt
  have hword : (if x.negative then 2 ^ 63 + x.magnitude else x.magnitude) = x.bits.toNat := by
    unfold negative magnitude
    by_cases h : 2 ^ 63 ≤ x.bits.toNat
    · simp only [h, decide_true, if_true]
      omega
    · simp only [h, decide_false, Bool.false_eq_true, if_false]
      omega
  rw [ofMagnitude, hword, UInt64.ofNat_toNat]

theorem magnitude_ofMagnitude (negative : Bool) {m : Nat} (h : m < 2 ^ 63) :
    (ofMagnitude negative m).magnitude = m := by
  cases negative
  · show (UInt64.ofNat m).toNat % 2 ^ 63 = m
    rw [UInt64.toNat_ofNat_of_lt' (by simp only [UInt64.size]; omega), Nat.mod_eq_of_lt h]
  · show (UInt64.ofNat (2 ^ 63 + m)).toNat % 2 ^ 63 = m
    rw [UInt64.toNat_ofNat_of_lt' (by simp only [UInt64.size]; omega)]
    omega

theorem negative_ofMagnitude (negative : Bool) {m : Nat} (h : m < 2 ^ 63) :
    (ofMagnitude negative m).negative = negative := by
  cases negative
  · show decide (2 ^ 63 ≤ (UInt64.ofNat m).toNat) = false
    rw [UInt64.toNat_ofNat_of_lt' (by simp only [UInt64.size]; omega)]
    exact decide_eq_false (by omega)
  · show decide (2 ^ 63 ≤ (UInt64.ofNat (2 ^ 63 + m)).toNat) = true
    rw [UInt64.toNat_ofNat_of_lt' (by simp only [UInt64.size]; omega)]
    exact decide_eq_true (by omega)

theorem magnitude_lt (x : Binary64) : x.magnitude < 2 ^ 63 := Nat.mod_lt _ (by decide)

instance : Zero Binary64 := ⟨ofMagnitude false 0⟩

instance : One Binary64 := ⟨ofMagnitude false (0x3FF * 2 ^ 52)⟩

/-- `+∞`. -/
instance : Top Binary64 := ⟨ofMagnitude false infinityMagnitude⟩

def negZero : Binary64 := ofMagnitude true 0

def nan : Binary64 := ofMagnitude false (infinityMagnitude + 2 ^ 51)

/-! ## Comparison -/

/-- Magnitudes with their sign: the order of the values that are numbers, in which the two
zeros meet. -/
def key (x : Binary64) : Int := if x.negative then -(x.magnitude : Int) else x.magnitude

/-- `x < y`, false when an operand is NaN. -/
def lt (x y : Binary64) : Bool := !x.isNaN && !y.isNaN && decide (x.key < y.key)

/-- `x <= y`, false when an operand is NaN. -/
def le (x y : Binary64) : Bool := !x.isNaN && !y.isNaN && decide (x.key ≤ y.key)

/-- `x == y`, false when an operand is NaN. -/
def eq (x y : Binary64) : Bool := !x.isNaN && !y.isNaN && decide (x.key = y.key)

instance : LT Binary64 := ⟨fun x y => x.lt y = true⟩

instance : LE Binary64 := ⟨fun x y => x.le y = true⟩

instance : BEq Binary64 := ⟨eq⟩

instance : DecidableLT Binary64 := fun x y => inferInstanceAs (Decidable (x.lt y = true))

instance : DecidableLE Binary64 := fun x y => inferInstanceAs (Decidable (x.le y = true))

theorem not_isNaN_of_isFinite {x : Binary64} (h : x.isFinite = true) : x.isNaN = false := by
  simp only [isFinite, isNaN, decide_eq_true_eq, decide_eq_false_iff_not] at h ⊢
  omega

/-- Finite values are compared by their keys. -/
theorem lt_of_isFinite {x y : Binary64} (hx : x.isFinite = true) (hy : y.isFinite = true) :
    x < y ↔ x.key < y.key := by
  show x.lt y = true ↔ _
  simp [lt, not_isNaN_of_isFinite hx, not_isNaN_of_isFinite hy]

theorem lt_iff {x y : Binary64} :
    x < y ↔ x.isNaN = false ∧ y.isNaN = false ∧ x.key < y.key := by
  show x.lt y = true ↔ _
  simp [lt, and_assoc]

theorem le_iff {x y : Binary64} :
    x ≤ y ↔ x.isNaN = false ∧ y.isNaN = false ∧ x.key ≤ y.key := by
  show x.le y = true ↔ _
  simp [le, and_assoc]

theorem lt_of_lt_of_le {x y z : Binary64} (hxy : x < y) (hyz : y ≤ z) : x < z := by
  obtain ⟨hx, -, hlt⟩ := lt_iff.mp hxy
  obtain ⟨-, hz, hle⟩ := le_iff.mp hyz
  exact lt_iff.mpr ⟨hx, hz, Int.lt_of_lt_of_le hlt hle⟩

theorem le_refl_of_isFinite {x : Binary64} (h : x.isFinite = true) : x ≤ x :=
  le_iff.mpr ⟨not_isNaN_of_isFinite h, not_isNaN_of_isFinite h, Int.le_refl _⟩

/-- `==` compares the keys. -/
theorem beq_iff {x y : Binary64} :
    (x == y) = true ↔ x.isNaN = false ∧ y.isNaN = false ∧ x.key = y.key := by
  show x.eq y = true ↔ _
  simp [eq, and_assoc]

/-- Values with one key are equal or are both zeros. -/
theorem eq_or_zeros_of_key_eq {x y : Binary64} (h : x.key = y.key) :
    x = y ∨ (x.magnitude = 0 ∧ y.magnitude = 0) := by
  unfold key at h
  by_cases hsign : x.negative = y.negative
  · refine Or.inl ?_
    have hmag : x.magnitude = y.magnitude := by
      rw [hsign] at h
      split_ifs at h <;> omega
    rw [← ofMagnitude_magnitude x, ← ofMagnitude_magnitude y, hsign, hmag]
  · refine Or.inr ?_
    split_ifs at h with hx hy hy
    · exact absurd (hx.trans hy.symm) hsign
    · omega
    · omega
    · rw [Bool.not_eq_true] at hx hy
      exact absurd (hx.trans hy.symm) hsign

/-- There are two zeros. -/
theorem eq_zero_or_negZero {x : Binary64} (h : x.magnitude = 0) : x = 0 ∨ x = negZero := by
  rw [← ofMagnitude_magnitude x, h]
  cases x.negative
  · exact Or.inl rfl
  · exact Or.inr rfl

/-! ## Rounding -/

/-- The integer nearest to `n / d`, the even one of two. -/
def divNearestEven (n d : Nat) : Nat :=
  let q := n / d
  let r := n % d
  if 2 * r < d then q
  else if d < 2 * r then q + 1
  else q + q % 2

/-- The magnitude nearest to `n / d` units. From `2 ^ 53` units on, the spacing is `2 ^ k`
units and the exponent field grows with `k`; a significand that rounds up to `2 ^ 53` carries
into it. -/
def roundMagnitude (n d : Nat) : Nat :=
  let k := (n / d).log2 - 52
  min (k * 2 ^ 52 + divNearestEven n (d * 2 ^ k)) infinityMagnitude

/-- The number of units of a magnitude. -/
def unitsOf (magnitude : Nat) : Nat :=
  if magnitude / 2 ^ 52 = 0 then magnitude
  else (2 ^ 52 + magnitude % 2 ^ 52) * 2 ^ (magnitude / 2 ^ 52 - 1)

def units (x : Binary64) : Nat := unitsOf x.magnitude

def signedUnits (x : Binary64) : Int := if x.negative then -(x.units : Int) else x.units

/-! ## Arithmetic -/

def neg (x : Binary64) : Binary64 := ofMagnitude (!x.negative) x.magnitude

def abs (x : Binary64) : Binary64 := ofMagnitude false x.magnitude

def add (x y : Binary64) : Binary64 :=
  if x.isNaN || y.isNaN then nan
  else if x.isInf && y.isInf then if x.negative = y.negative then x else nan
  else if x.isInf then x
  else if y.isInf then y
  else
    let sum := x.signedUnits + y.signedUnits
    if sum = 0 then ofMagnitude (x.negative && y.negative) 0
    else ofMagnitude (decide (sum < 0)) (roundMagnitude sum.natAbs 1)

def sub (x y : Binary64) : Binary64 := add x y.neg

def mul (x y : Binary64) : Binary64 :=
  let negative := x.negative != y.negative
  if x.isNaN || y.isNaN then nan
  else if x.isInf || y.isInf then
    if x.magnitude = 0 || y.magnitude = 0 then nan else ofMagnitude negative infinityMagnitude
  else ofMagnitude negative (roundMagnitude (x.units * y.units) (2 ^ 1074))

def div (x y : Binary64) : Binary64 :=
  let negative := x.negative != y.negative
  if x.isNaN || y.isNaN || (x.isInf && y.isInf) then nan
  else if x.isInf then ofMagnitude negative infinityMagnitude
  else if y.isInf then ofMagnitude negative 0
  else if y.magnitude = 0 then
    if x.magnitude = 0 then nan else ofMagnitude negative infinityMagnitude
  else ofMagnitude negative (roundMagnitude (x.units * 2 ^ 1074) y.units)

theorem magnitude_neg (x : Binary64) : x.neg.magnitude = x.magnitude :=
  magnitude_ofMagnitude _ x.magnitude_lt

theorem negative_neg (x : Binary64) : x.neg.negative = !x.negative :=
  negative_ofMagnitude _ x.magnitude_lt

theorem neg_ofMagnitude (negative : Bool) {m : Nat} (h : m < 2 ^ 63) :
    (ofMagnitude negative m).neg = ofMagnitude (!negative) m := by
  rw [neg, magnitude_ofMagnitude _ h, negative_ofMagnitude _ h]

theorem signedUnits_neg (x : Binary64) : x.neg.signedUnits = -x.signedUnits := by
  unfold signedUnits units
  rw [negative_neg, magnitude_neg]
  cases x.negative <;> simp

theorem abs_neg (x : Binary64) : x.neg.abs = x.abs := by
  rw [abs, magnitude_neg, abs]

theorem negative_abs (x : Binary64) : x.abs.negative = false :=
  negative_ofMagnitude _ x.magnitude_lt

theorem isNaN_abs (x : Binary64) : x.abs.isNaN = x.isNaN := by
  rw [isNaN, abs, magnitude_ofMagnitude _ x.magnitude_lt, isNaN]

theorem not_abs_lt_zero (x : Binary64) : ¬ x.abs < 0 := by
  intro h
  obtain ⟨-, -, hkey⟩ := lt_iff.mp h
  have hzero : (0 : Binary64).key = 0 := by decide
  rw [key, negative_abs, hzero] at hkey
  exact absurd hkey (Int.not_lt.mpr (Int.natCast_nonneg _))

instance : Neg Binary64 := ⟨neg⟩

instance : Add Binary64 := ⟨add⟩

instance : Sub Binary64 := ⟨sub⟩

instance : Mul Binary64 := ⟨mul⟩

instance : Div Binary64 := ⟨div⟩

theorem not_isInf_of_isFinite {x : Binary64} (h : x.isFinite = true) : x.isInf = false := by
  simp only [isFinite, isInf, decide_eq_true_eq, decide_eq_false_iff_not] at h ⊢
  omega

/-- The difference of finite values is the rounded difference of their units. -/
theorem sub_of_isFinite {x y : Binary64} (hx : x.isFinite = true) (hy : y.isFinite = true) :
    x - y = if x.signedUnits - y.signedUnits = 0 then ofMagnitude (x.negative && !y.negative) 0
      else ofMagnitude (decide (x.signedUnits - y.signedUnits < 0))
        (roundMagnitude (x.signedUnits - y.signedUnits).natAbs 1) := by
  have hnum := not_isNaN_of_isFinite hx
  have hinf := not_isInf_of_isFinite hx
  have hnum' : y.neg.isNaN = false := by
    rw [isNaN, magnitude_neg]
    exact not_isNaN_of_isFinite hy
  have hinf' : y.neg.isInf = false := by
    rw [isInf, magnitude_neg]
    exact not_isInf_of_isFinite hy
  show add x y.neg = _
  unfold add
  simp only [hnum, hnum', hinf, hinf', Bool.or_self, Bool.and_self, Bool.false_eq_true, if_false,
    signedUnits_neg, negative_neg, ← Int.sub_eq_add_neg]

/-- The difference of finite values may overflow, but it is a number. -/
theorem isNaN_sub_of_isFinite {x y : Binary64} (hx : x.isFinite = true) (hy : y.isFinite = true) :
    (x - y).isNaN = false := by
  have hround : roundMagnitude (x.signedUnits - y.signedUnits).natAbs 1 ≤ infinityMagnitude :=
    Nat.min_le_right _ _
  unfold isNaN
  rw [sub_of_isFinite hx hy, decide_eq_false_iff_not, Nat.not_lt]
  split_ifs
  · rw [magnitude_ofMagnitude _ (by decide)]
    exact Nat.zero_le _
  · rwa [magnitude_ofMagnitude _ (Nat.lt_of_le_of_lt hround (by decide))]

/-- **Swapping the operands negates a difference**, except that equal values have the
difference `+0.0` both ways. -/
theorem sub_swap {x y : Binary64} (hx : x.isFinite = true) (hy : y.isFinite = true) :
    y - x = x - y ∨ y - x = -(x - y) := by
  rw [sub_of_isFinite hx hy, sub_of_isFinite hy hx]
  by_cases hzero : x.signedUnits - y.signedUnits = 0
  · have hzero' : y.signedUnits - x.signedUnits = 0 := by omega
    rw [if_pos hzero, if_pos hzero']
    show _ ∨ _ = neg _
    rw [neg_ofMagnitude _ (by decide)]
    cases x.negative <;> cases y.negative <;> simp
  · have hzero' : ¬ y.signedUnits - x.signedUnits = 0 := by omega
    rw [if_neg hzero, if_neg hzero']
    refine Or.inr ?_
    have hround : roundMagnitude (x.signedUnits - y.signedUnits).natAbs 1 < 2 ^ 63 :=
      Nat.lt_of_le_of_lt (Nat.min_le_right _ _) (by decide)
    have habs : (y.signedUnits - x.signedUnits).natAbs
        = (x.signedUnits - y.signedUnits).natAbs := by
      omega
    have hsign : decide (y.signedUnits - x.signedUnits < 0)
        = !decide (x.signedUnits - y.signedUnits < 0) := by
      rw [← decide_not]
      exact decide_eq_decide.mpr (by omega)
    show _ = neg _
    rw [neg_ofMagnitude _ hround, habs, hsign]

end Binary64
