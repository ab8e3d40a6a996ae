import Mathlib.Order.BoundedOrder.Basic
import Mathlib.Algebra.Order.Monoid.Unbundled.Basic
import Mathlib.Algebra.Order.Group.Nat
import Mathlib.Tactic.Set
import RouteEngine.Library.Binary64

set_option autoImplicit false

/-! # Rounded addition of non-negative values

Rounding is monotone and leaves representable values alone, so the rounded sum of non-negative
binary64 values is monotone in both summands and never below one of them. It is not
associative. -/

namespace Binary64

/-! ## Rounding to an integer -/

theorem div_le_divNearestEven (n d : Nat) : n / d ≤ divNearestEven n d := by
  unfold divNearestEven
  dsimp only
  split_ifs <;> omega

theorem divNearestEven_le (n d : Nat) : divNearestEven n d ≤ n / d + 1 := by
  unfold divNearestEven
  dsimp only
  split_ifs <;> omega

theorem divNearestEven_mul (q : Nat) {d : Nat} (hd : 0 < d) : divNearestEven (q * d) d = q := by
  unfold divNearestEven
  simp [Nat.mul_div_cancel q hd, hd]

theorem divNearestEven_mono {n m d : Nat} (h : n ≤ m) :
    divNearestEven n d ≤ divNearestEven m d := by
  have hdiv := Nat.div_le_div_right (c := d) h
  rcases Nat.lt_or_ge (n / d) (m / d) with hlt | hge
  · have := divNearestEven_le n d
    have := div_le_divNearestEven m d
    omega
  · -- the same quotient: the remainder decides
    have hq : n / d = m / d := Nat.le_antisymm hdiv hge
    have hn := Nat.div_add_mod n d
    have hm := Nat.div_add_mod m d
    rw [hq] at hn
    have hr : n % d ≤ m % d := by omega
    unfold divNearestEven
    rw [hq]
    dsimp only
    split_ifs <;> omega

/-! ## Rounding to a magnitude -/

theorem roundMagnitude_le (n d : Nat) : roundMagnitude n d ≤ infinityMagnitude :=
  Nat.min_le_right _ _

theorem roundMagnitude_one (n : Nat) :
    roundMagnitude n 1
      = min ((n.log2 - 52) * 2 ^ 52 + divNearestEven n (2 ^ (n.log2 - 52))) infinityMagnitude := by
  simp [roundMagnitude]

/-- A significand has at most 53 bits, or rounds up to `2 ^ 53`. -/
theorem significand_le (n d : Nat) :
    divNearestEven n (d * 2 ^ ((n / d).log2 - 52)) ≤ 2 ^ 53 := by
  have hlt : n / (d * 2 ^ ((n / d).log2 - 52)) < 2 ^ 53 := by
    rw [← Nat.div_div_eq_div_mul, Nat.div_lt_iff_lt_mul (Nat.two_pow_pos _), ← Nat.pow_add]
    refine Nat.lt_of_lt_of_le Nat.lt_log2_self (Nat.pow_le_pow_right (by omega) (by omega))
  have := divNearestEven_le n (d * 2 ^ ((n / d).log2 - 52))
  omega

/-- From `2 ^ 52` units on, it has all of them. -/
theorem le_significand {n d : Nat} (h : 52 ≤ (n / d).log2) :
    2 ^ 52 ≤ divNearestEven n (d * 2 ^ ((n / d).log2 - 52)) := by
  have hn : n / d ≠ 0 := by
    intro hzero
    simp [hzero] at h
  refine Nat.le_trans ?_ (div_le_divNearestEven _ _)
  rw [← Nat.div_div_eq_div_mul, Nat.le_div_iff_mul_le (Nat.two_pow_pos _), ← Nat.pow_add,
    show 52 + ((n / d).log2 - 52) = (n / d).log2 by omega]
  exact Nat.log2_self_le hn

/-- **Rounding is monotone**: within one spacing by `divNearestEven_mono`, and a larger
spacing starts where the smaller ends. -/
theorem roundMagnitude_mono {n m d : Nat} (h : n ≤ m) :
    roundMagnitude n d ≤ roundMagnitude m d := by
  refine min_le_min_right _ ?_
  have hdiv : n / d ≤ m / d := Nat.div_le_div_right h
  have hlog : (n / d).log2 ≤ (m / d).log2 := by
    rcases Nat.eq_zero_or_pos (n / d) with hzero | hpos
    · simp [hzero]
    · exact (Nat.le_log2 (by omega)).mpr (Nat.le_trans (Nat.log2_self_le (by omega)) hdiv)
  rcases Nat.eq_or_lt_of_le (Nat.sub_le_sub_right hlog 52) with heq | hlt
  · rw [heq]
    exact Nat.add_le_add_left (divNearestEven_mono h) _
  · have hn := significand_le n d
    have hm := le_significand (n := m) (d := d) (by omega)
    omega

/-- **Rounding leaves representable values alone.** -/
theorem roundMagnitude_unitsOf {m : Nat} (h : m ≤ infinityMagnitude) :
    roundMagnitude (unitsOf m) 1 = m := by
  rw [roundMagnitude_one]
  unfold unitsOf
  split_ifs with hfield
  · -- a subnormal number is its own units
    have hlt : m < 2 ^ 52 := by omega
    have hlog : m.log2 - 52 = 0 := by
      rcases Nat.eq_zero_or_pos m with rfl | hpos
      · rfl
      · have := (Nat.log2_lt (by omega : m ≠ 0)).mpr hlt
        omega
    have hexact := divNearestEven_mul m Nat.one_pos
    rw [Nat.mul_one] at hexact
    rw [hlog, Nat.pow_zero, hexact]
    omega
  · -- a normal number has a significand of 53 bits, shifted by `k`
    set k := m / 2 ^ 52 - 1 with hk
    have hsig : 2 ^ 52 + m % 2 ^ 52 < 2 ^ 53 := by omega
    have hlog : ((2 ^ 52 + m % 2 ^ 52) * 2 ^ k).log2 = 52 + k := by
      have hne : (2 ^ 52 + m % 2 ^ 52) * 2 ^ k ≠ 0 :=
        Nat.mul_ne_zero (by omega) (Nat.two_pow_pos k).ne'
      have hlow : 2 ^ (52 + k) ≤ (2 ^ 52 + m % 2 ^ 52) * 2 ^ k := by
        rw [Nat.pow_add]
        exact Nat.mul_le_mul_right _ (Nat.le_add_right _ _)
      have hhigh : (2 ^ 52 + m % 2 ^ 52) * 2 ^ k < 2 ^ (52 + k + 1) := by
        rw [show 52 + k + 1 = 53 + k by omega, Nat.pow_add]
        exact Nat.mul_lt_mul_of_pos_right hsig (Nat.two_pow_pos k)
      have h1 := (Nat.le_log2 hne).mpr hlow
      have h2 := (Nat.log2_lt hne).mpr hhigh
      omega
    rw [hlog, show 52 + k - 52 = k by omega, divNearestEven_mul _ (Nat.two_pow_pos k)]
    omega

/-- Greater magnitudes have more units. -/
theorem unitsOf_mono {m n : Nat} (h : m ≤ n) : unitsOf m ≤ unitsOf n := by
  unfold unitsOf
  have hdiv := Nat.div_le_div_right (c := 2 ^ 52) h
  split_ifs with hm hn hn
  · exact h
  · have hpow := Nat.two_pow_pos (n / 2 ^ 52 - 1)
    calc m
        ≤ 2 ^ 52 + n % 2 ^ 52 := by omega
      _ ≤ (2 ^ 52 + n % 2 ^ 52) * 2 ^ (n / 2 ^ 52 - 1) := Nat.le_mul_of_pos_right _ hpow
  · omega
  · rcases Nat.eq_or_lt_of_le hdiv with heq | hlt
    · rw [heq]
      exact Nat.mul_le_mul_right _ (by omega)
    · calc (2 ^ 52 + m % 2 ^ 52) * 2 ^ (m / 2 ^ 52 - 1)
          ≤ 2 ^ 53 * 2 ^ (m / 2 ^ 52 - 1) := Nat.mul_le_mul_right _ (by omega)
        _ = 2 ^ 52 * 2 ^ (m / 2 ^ 52) := by
            rw [← Nat.pow_add, ← Nat.pow_add]
            congr 1
            omega
        _ ≤ 2 ^ 52 * 2 ^ (n / 2 ^ 52 - 1) :=
            Nat.mul_le_mul_left _ (Nat.pow_le_pow_right (by omega) (by omega))
        _ ≤ (2 ^ 52 + n % 2 ^ 52) * 2 ^ (n / 2 ^ 52 - 1) :=
            Nat.mul_le_mul_right _ (Nat.le_add_right _ _)

end Binary64

/-! ## The non-negative values -/

/-- The values from `+0.0` to `+∞`, each by its magnitude. -/
def NonnegBinary64 := {magnitude : Nat // magnitude ≤ Binary64.infinityMagnitude}

namespace NonnegBinary64

open Binary64

instance : LinearOrder NonnegBinary64 :=
  inferInstanceAs (LinearOrder {magnitude : Nat // magnitude ≤ infinityMagnitude})

instance : OrderTop NonnegBinary64 where
  top := ⟨infinityMagnitude, le_refl _⟩
  le_top x := x.2

instance : Zero NonnegBinary64 := ⟨⟨0, Nat.zero_le _⟩⟩

/-- The rounded sum. -/
instance : Add NonnegBinary64 where
  add x y := ⟨roundMagnitude (unitsOf x.1 + unitsOf y.1) 1, roundMagnitude_le _ _⟩

/-- The rounded quotient by a positive finite value. -/
instance : Div NonnegBinary64 where
  div x y := ⟨roundMagnitude (unitsOf x.1 * 2 ^ 1074) (unitsOf y.1), roundMagnitude_le _ _⟩

theorem zero_le (x : NonnegBinary64) : 0 ≤ x := Nat.zero_le x.1

theorem add_zero (x : NonnegBinary64) : x + 0 = x :=
  Subtype.ext (roundMagnitude_unitsOf x.2)

theorem zero_add (x : NonnegBinary64) : 0 + x = x := by
  have hcomm : 0 + x = x + 0 :=
    Subtype.ext (congrArg (fun n => roundMagnitude n 1) (Nat.add_comm _ _))
  rw [hcomm, add_zero]

instance : AddLeftMono NonnegBinary64 where
  elim _ _ _ h := roundMagnitude_mono (Nat.add_le_add_left (unitsOf_mono h) _)

instance : AddRightMono NonnegBinary64 where
  elim _ _ _ h := roundMagnitude_mono (Nat.add_le_add_right (unitsOf_mono h) _)

theorem le_add (x w : NonnegBinary64) : x ≤ x + w :=
  calc x = x + 0 := (add_zero x).symm
    _ ≤ x + w := add_le_add_right (zero_le w) x

/-- The value nearest to `n / d` units. -/
def nearest (n d : Nat) : NonnegBinary64 := ⟨roundMagnitude n d, roundMagnitude_le n d⟩

theorem nearest_mono {n m d : Nat} (h : n ≤ m) : nearest n d ≤ nearest m d :=
  roundMagnitude_mono h

def toBinary64 (x : NonnegBinary64) : Binary64 := ofMagnitude false x.1

theorem lt_two_pow (x : NonnegBinary64) : x.1 < 2 ^ 63 := Nat.lt_of_le_of_lt x.2 (by decide)

theorem magnitude_toBinary64 (x : NonnegBinary64) : x.toBinary64.magnitude = x.1 :=
  magnitude_ofMagnitude false x.lt_two_pow

theorem negative_toBinary64 (x : NonnegBinary64) : x.toBinary64.negative = false :=
  negative_ofMagnitude false x.lt_two_pow

theorem isNaN_toBinary64 (x : NonnegBinary64) : x.toBinary64.isNaN = false := by
  unfold isNaN
  rw [magnitude_toBinary64]
  exact decide_eq_false (Nat.not_lt.mpr x.2)

theorem isInf_toBinary64 (x : NonnegBinary64) : x.toBinary64.isInf = decide (x = ⊤) := by
  unfold isInf
  rw [magnitude_toBinary64]
  exact decide_eq_decide.mpr ⟨fun h => Subtype.ext h, fun h => congrArg Subtype.val h⟩

theorem signedUnits_toBinary64 (x : NonnegBinary64) :
    x.toBinary64.signedUnits = (unitsOf x.1 : Int) := by
  unfold signedUnits units
  rw [negative_toBinary64, magnitude_toBinary64]
  rfl

theorem key_toBinary64 (x : NonnegBinary64) : x.toBinary64.key = (x.1 : Int) := by
  unfold key
  rw [negative_toBinary64, magnitude_toBinary64]
  rfl

/-- The order is the one of binary64. -/
theorem toBinary64_lt {x y : NonnegBinary64} : x.toBinary64 < y.toBinary64 ↔ x < y := by
  rw [lt_iff, key_toBinary64, key_toBinary64, Int.ofNat_lt]
  simp only [isNaN_toBinary64, true_and]
  rfl

/-- The product of finite values. -/
theorem toBinary64_mul {x y : NonnegBinary64} (hx : x ≠ ⊤) (hy : y ≠ ⊤) :
    x.toBinary64 * y.toBinary64
      = (nearest (unitsOf x.1 * unitsOf y.1) (2 ^ 1074)).toBinary64 := by
  show mul x.toBinary64 y.toBinary64 = _
  unfold mul units
  simp only [isNaN_toBinary64, isInf_toBinary64, negative_toBinary64, magnitude_toBinary64, hx, hy,
    Bool.or_self, Bool.false_eq_true, if_false, decide_false, bne_self_eq_false]
  rfl

/-- **The addition is the one of binary64.** -/
theorem toBinary64_add (x y : NonnegBinary64) :
    (x + y).toBinary64 = x.toBinary64 + y.toBinary64 := by
  show _ = add x.toBinary64 y.toBinary64
  unfold add
  simp only [isNaN_toBinary64, isInf_toBinary64, negative_toBinary64, signedUnits_toBinary64,
    Bool.or_self, Bool.false_eq_true, if_false, if_true, Bool.and_eq_true, decide_eq_true_eq]
  by_cases hx : x = ⊤
  · have hsum : x + y = ⊤ := top_le_iff.mp (hx ▸ le_add x y)
    rw [hsum, hx]
    by_cases hy : y = ⊤ <;> simp [hy]
  · by_cases hy : y = ⊤
    · have hsum : x + y = ⊤ := by
        refine top_le_iff.mp ?_
        calc (⊤ : NonnegBinary64) = y + 0 := hy ▸ (add_zero y).symm
          _ ≤ x + y := roundMagnitude_mono (Nat.add_comm (unitsOf 0) _ ▸
              Nat.add_le_add_right (unitsOf_mono (Nat.zero_le x.1)) _)
      rw [hsum, hy]
      simp [hx]
    · simp only [hx, hy, and_false, if_false]
      by_cases hzero : (unitsOf x.1 : Int) + unitsOf y.1 = 0
      · have hnat : unitsOf x.1 + unitsOf y.1 = 0 := by omega
        rw [if_pos hzero]
        show ofMagnitude false (roundMagnitude (unitsOf x.1 + unitsOf y.1) 1) = _
        rw [hnat]
        rfl
      · rw [if_neg hzero]
        have hneg : ¬ (unitsOf x.1 : Int) + unitsOf y.1 < 0 := by omega
        simp only [hneg, decide_false]
        rfl

theorem toBinary64_inj {x y : NonnegBinary64} : x.toBinary64 = y.toBinary64 ↔ x = y := by
  refine ⟨fun h => Subtype.ext ?_, fun h => h ▸ rfl⟩
  rw [← magnitude_toBinary64 x, h, magnitude_toBinary64]

theorem toBinary64_le {x y : NonnegBinary64} : x.toBinary64 ≤ y.toBinary64 ↔ x ≤ y := by
  rw [le_iff, key_toBinary64, key_toBinary64, Int.ofNat_le]
  simp only [isNaN_toBinary64, true_and]
  rfl

theorem toBinary64_beq (x y : NonnegBinary64) : (x.toBinary64 == y.toBinary64) = (x == y) := by
  rw [Bool.eq_iff_iff, beq_iff, key_toBinary64, key_toBinary64, beq_iff_eq, Int.ofNat_inj]
  simp only [isNaN_toBinary64, true_and]
  exact ⟨fun h => Subtype.ext h, fun h => congrArg Subtype.val h⟩

theorem isFinite_toBinary64 (x : NonnegBinary64) : x.toBinary64.isFinite = decide (x ≠ ⊤) := by
  unfold isFinite
  rw [magnitude_toBinary64]
  refine decide_eq_decide.mpr ⟨fun h heq => ?_, fun h => lt_of_le_of_ne x.2 ?_⟩
  · rw [heq] at h
    exact Nat.lt_irrefl _ h
  · exact fun heq => h (Subtype.ext heq)

/-- Values with the same units are equal. -/
theorem unitsOf_inj {x y : NonnegBinary64} : unitsOf x.1 = unitsOf y.1 ↔ x = y := by
  refine ⟨fun h => Subtype.ext ?_, fun h => h ▸ rfl⟩
  rw [← roundMagnitude_unitsOf x.2, h, roundMagnitude_unitsOf y.2]

theorem unitsOf_lt {x y : NonnegBinary64} : unitsOf x.1 < unitsOf y.1 ↔ x < y := by
  constructor
  · intro h
    by_contra hle
    exact absurd (unitsOf_mono (not_lt.mp hle)) (Nat.not_le.mpr h)
  · exact fun h => lt_of_le_of_ne (unitsOf_mono h.le) fun heq => h.ne (unitsOf_inj.mp heq)

/-! ## Reading a binary64 value -/

/-- The value without its sign bit; a NaN is read as infinity. -/
def ofBinary64 (x : Binary64) : NonnegBinary64 :=
  ⟨min x.magnitude infinityMagnitude, Nat.min_le_right _ _⟩

theorem toBinary64_ofBinary64 {x : Binary64} (hnan : x.isNaN = false)
    (hneg : x.negative = false) : (ofBinary64 x).toBinary64 = x := by
  have hle : x.magnitude ≤ infinityMagnitude := Nat.not_lt.mp (of_decide_eq_false hnan)
  have hmin : (ofBinary64 x).1 = x.magnitude := Nat.min_eq_left hle
  rw [toBinary64, hmin, ← hneg, ofMagnitude_magnitude]

theorem ofBinary64_ne_top {x : Binary64} (hx : x.isFinite = true) : ofBinary64 x ≠ ⊤ := by
  have hlt : x.magnitude < infinityMagnitude := of_decide_eq_true hx
  intro h
  have hval : min x.magnitude infinityMagnitude = infinityMagnitude := congrArg Subtype.val h
  omega

/-- A number that is not below zero is positive, or one of the zeros. -/
theorem negative_eq_false_or_eq_negZero {x : Binary64} (hx : x.isFinite = true) (h : ¬ x < 0) :
    x.negative = false ∨ x = negZero := by
  cases hneg : x.negative with
  | false => exact .inl rfl
  | true =>
      have hzero : (0 : Binary64).key = 0 := by decide
      rw [lt_of_isFinite hx (by decide), hzero, key, hneg, if_pos rfl] at h
      have hmag : x.magnitude = 0 := by omega
      refine .inr ((ofMagnitude_magnitude x).symm.trans ?_)
      rw [hneg, hmag]
      rfl

/-- The key of a number that is not below zero is its magnitude. -/
theorem key_eq_magnitude {x : Binary64} (hx : x.isFinite = true) (h : ¬ x < 0) :
    x.key = ((ofBinary64 x).1 : Int) := by
  have hlt : x.magnitude < infinityMagnitude := of_decide_eq_true hx
  have hmin : (ofBinary64 x).1 = x.magnitude := Nat.min_eq_left hlt.le
  rw [hmin]
  rcases negative_eq_false_or_eq_negZero hx h with hneg | rfl
  · rw [key, hneg, if_neg Bool.false_ne_true]
  · decide

theorem ofBinary64_lt {x y : Binary64} (hx : x.isFinite = true) (hx' : ¬ x < 0)
    (hy : y.isFinite = true) (hy' : ¬ y < 0) : ofBinary64 x < ofBinary64 y ↔ x < y := by
  rw [lt_of_isFinite hx hy, key_eq_magnitude hx hx', key_eq_magnitude hy hy', Int.ofNat_lt]
  rfl

theorem unitsOf_ofBinary64 {x : Binary64} (hx : x.isFinite = true) :
    unitsOf (ofBinary64 x).1 = x.units := by
  have hlt : x.magnitude < infinityMagnitude := of_decide_eq_true hx
  exact congrArg unitsOf (Nat.min_eq_left hlt.le)

/-- A comparison does not tell a number from the value it is read as. -/
theorem lt_toBinary64_ofBinary64 {x y : Binary64} (hy : y.isFinite = true) (hy' : ¬ y < 0) :
    x < (ofBinary64 y).toBinary64 ↔ x < y := by
  rw [lt_iff, lt_iff, key_toBinary64, key_eq_magnitude hy hy', isNaN_toBinary64,
    not_isNaN_of_isFinite hy]

/-- Adding `-0.0` to a value that has no sign changes nothing. -/
theorem toBinary64_add_negZero (x : NonnegBinary64) : x.toBinary64 + negZero = x.toBinary64 := by
  have hnan : negZero.isNaN = (0 : Binary64).isNaN := by decide
  have hinf : negZero.isInf = false ∧ (0 : Binary64).isInf = false := by decide
  have hunits : negZero.signedUnits = (0 : Binary64).signedUnits := by decide
  have hadd : add x.toBinary64 negZero = add x.toBinary64 0 := by
    unfold add
    simp only [hnan, hinf, hunits, negative_toBinary64, Bool.and_false, Bool.false_and,
      Bool.false_eq_true, if_false]
  calc x.toBinary64 + negZero = x.toBinary64 + (0 : NonnegBinary64).toBinary64 := hadd
    _ = (x + 0).toBinary64 := (toBinary64_add x 0).symm
    _ = x.toBinary64 := congrArg toBinary64 (add_zero x)

/-- **Adding a weight that is not below zero** is adding the value it is read as. -/
theorem toBinary64_add_ofBinary64 (x : NonnegBinary64) {w : Binary64} (hw : w.isFinite = true)
    (hw' : ¬ w < 0) : (x + ofBinary64 w).toBinary64 = x.toBinary64 + w := by
  rcases negative_eq_false_or_eq_negZero hw hw' with hneg | rfl
  · rw [toBinary64_add, toBinary64_ofBinary64 (not_isNaN_of_isFinite hw) hneg]
  · rw [toBinary64_add_negZero]
    exact congrArg toBinary64 (add_zero x)

end NonnegBinary64
