import Mathlib.Tactic.Ring
import RouteEngine.Library.NonnegBinary64

set_option autoImplicit false

/-! # Decimal texts of binary64 values

Every finite value has a finite decimal expansion, since a unit is `5 ^ 1074 / 10 ^ 1074`.
`toText` writes that expansion, and `ofText` reads a decimal fraction at the start of a text
and rounds it; the expansion of a value is read back as the value. -/

namespace Binary64

/-! ## Reading -/

/-- The value nearest to `n / 10 ^ k`, if it is finite. -/
def ofDecimal (negative : Bool) (n k : Nat) : Option Binary64 :=
  let magnitude := roundMagnitude (n * 2 ^ 1074) (10 ^ k)
  if magnitude = infinityMagnitude then none else some (ofMagnitude negative magnitude)

/-- Digits, and optionally a point and more digits. -/
def ofUnsignedText (negative : Bool) (text : List Char) : Option (Binary64 × List Char) :=
  let whole := text.takeWhile Char.isDigit
  if whole.isEmpty then none
  else
    match text.dropWhile Char.isDigit with
    | '.' :: tail =>
        let fraction := tail.takeWhile Char.isDigit
        (ofDecimal negative (Nat.ofDigitChars 10 (whole ++ fraction) 0) fraction.length).map
          (fun x => (x, tail.dropWhile Char.isDigit))
    | rest => (ofDecimal negative (Nat.ofDigitChars 10 whole 0) 0).map (fun x => (x, rest))

/-- An optional minus sign before a number. -/
def ofText (text : List Char) : Option (Binary64 × List Char) :=
  if text.head? = some '-' then ofUnsignedText true text.tail else ofUnsignedText false text

/-! ## Writing -/

/-- The decimal digits of `r / m` after the point, for `r` below `m`. -/
def fractionDigits (m : Nat) : Nat → Nat → List Char
  | 0, _ => []
  | fuel + 1, r =>
      if r = 0 then []
      else Nat.digitChar (10 * r / m) :: fractionDigits m fuel (10 * r % m)

/-- The decimal expansion of a finite value. -/
def toText (x : Binary64) : Option (List Char) :=
  if x.isFinite then
    let sign := if x.negative then ['-'] else []
    let fraction := fractionDigits (2 ^ 1074) 1074 (x.units % 2 ^ 1074)
    let point := if fraction.isEmpty then [] else '.' :: fraction
    some (sign ++ (Nat.toDigits 10 (x.units / 2 ^ 1074) ++ point))
  else none

/-! ## The expansion is exact -/

theorem digit_lt_ten {m r : Nat} (hr : r < m) : 10 * r / m < 10 := by
  rw [Nat.div_lt_iff_lt_mul (by omega)]
  omega

theorem isDigit_fractionDigits {m : Nat} (fuel : Nat) {r : Nat} (hr : r < m) :
    ∀ c ∈ fractionDigits m fuel r, c.isDigit = true := by
  induction fuel generalizing r with
  | zero => intro c hc; cases hc
  | succ fuel ih =>
      intro c hc
      rw [fractionDigits] at hc
      split_ifs at hc with h0
      · cases hc
      rcases List.mem_cons.mp hc with rfl | hc
      · rw [Nat.isDigit_digitChar]
        exact decide_eq_true (digit_lt_ten hr)
      · exact ih (Nat.mod_lt _ (by omega)) c hc

/-- The digits are those of `r / 2 ^ p`. A remainder keeps its factors of two and each digit
adds one, so `fuel` digits end the expansion of a multiple of `2 ^ (p - fuel)`. -/
theorem ofDigitChars_fractionDigits (p fuel : Nat) {r : Nat} (hr : r < 2 ^ p) (hfuel : fuel ≤ p)
    (hdvd : 2 ^ (p - fuel) ∣ r) :
    Nat.ofDigitChars 10 (fractionDigits (2 ^ p) fuel r) 0 * 2 ^ p
      = r * 10 ^ (fractionDigits (2 ^ p) fuel r).length := by
  induction fuel generalizing r with
  | zero =>
      have h0 : r = 0 := Nat.eq_zero_of_dvd_of_lt hdvd (by simpa using hr)
      simp [fractionDigits, h0]
  | succ fuel ih =>
      rw [fractionDigits]
      by_cases h0 : r = 0
      · simp [h0]
      rw [if_neg h0]
      have hdvd' : 2 ^ (p - fuel) ∣ 10 * r := by
        have hexp : p - fuel = (p - (fuel + 1)) + 1 := by omega
        rw [hexp, Nat.pow_succ, Nat.mul_comm]
        exact Nat.mul_dvd_mul (by decide) hdvd
      have hmod : 2 ^ (p - fuel) ∣ 10 * r % 2 ^ p :=
        (Nat.dvd_mod_iff (Nat.pow_dvd_pow 2 (Nat.sub_le _ _))).mpr hdvd'
      -- the remainder is expanded by the digits that follow
      have hrest := ih (Nat.mod_lt (10 * r) (Nat.two_pow_pos p)) (by omega) hmod
      have hsplit : 2 ^ p * (10 * r / 2 ^ p) + 10 * r % 2 ^ p = 10 * r := Nat.div_add_mod _ _
      have hdigit := digit_lt_ten hr
      generalize 10 * r / 2 ^ p = digit at *
      generalize 10 * r % 2 ^ p = rest at *
      rw [Nat.ofDigitChars_cons_digitChar_of_lt_ten hdigit, Nat.ofDigitChars_eq_ofDigitChars_zero,
        List.length_cons]
      generalize (fractionDigits (2 ^ p) fuel rest).length = k at *
      calc _ = 2 ^ p * digit * 10 ^ k
              + Nat.ofDigitChars 10 (fractionDigits (2 ^ p) fuel rest) 0 * 2 ^ p := by ring
        _ = (2 ^ p * digit + rest) * 10 ^ k := by rw [hrest]; ring
        _ = r * 10 ^ (k + 1) := by rw [hsplit]; ring

/-! ## Rounding an exact quotient -/

theorem divNearestEven_mul_right (n m : Nat) {d : Nat} (hd : 0 < d) :
    divNearestEven (n * d) (d * m) = divNearestEven n m := by
  have hdiv : n * d / (d * m) = n / m := by
    rw [Nat.mul_comm d m, Nat.mul_div_mul_right n m hd]
  have hmod : n * d % (d * m) = n % m * d := by
    rw [Nat.mul_comm d m, Nat.mul_mod_mul_right]
  have hbelow : 2 * (n % m * d) < d * m ↔ 2 * (n % m) < m := by
    rw [← Nat.mul_assoc, Nat.mul_comm d m]
    exact Nat.mul_lt_mul_right hd
  have habove : d * m < 2 * (n % m * d) ↔ m < 2 * (n % m) := by
    rw [← Nat.mul_assoc, Nat.mul_comm d m]
    exact Nat.mul_lt_mul_right hd
  unfold divNearestEven
  simp only [hdiv, hmod, hbelow, habove]

theorem roundMagnitude_mul (n : Nat) {d : Nat} (hd : 0 < d) :
    roundMagnitude (n * d) d = roundMagnitude n 1 := by
  unfold roundMagnitude
  simp only [Nat.mul_div_cancel n hd, Nat.div_one, divNearestEven_mul_right n _ hd, Nat.one_mul]

/-- An exact decimal fraction of a finite value gives the value. -/
theorem ofDecimal_of_exact {x : Binary64} (hx : x.isFinite = true) {n k : Nat}
    (h : n * 2 ^ 1074 = x.units * 10 ^ k) : ofDecimal x.negative n k = some x := by
  have hlt : x.magnitude < infinityMagnitude := by simpa [isFinite] using hx
  have hround : roundMagnitude (n * 2 ^ 1074) (10 ^ k) = x.magnitude := by
    rw [h, roundMagnitude_mul _ (Nat.pow_pos (by decide)), units,
      roundMagnitude_unitsOf (Nat.le_of_lt hlt)]
  unfold ofDecimal
  simp only [hround, if_neg (Nat.ne_of_lt hlt), ofMagnitude_magnitude]

/-! ## The round trip -/

theorem takeWhile_append_of_all {α : Type} {p : α → Bool} {l : List α} (h : ∀ a ∈ l, p a = true)
    {rest : List α} (hrest : ∀ a, rest.head? = some a → p a = false) :
    (l ++ rest).takeWhile p = l ∧ (l ++ rest).dropWhile p = rest := by
  induction l with
  | nil =>
      cases rest with
      | nil => exact ⟨rfl, rfl⟩
      | cons a rest => simp [hrest a rfl]
  | cons a l ih =>
      have hrec := ih (fun b hb => h b (by simp [hb]))
      simp [h a (by simp), hrec]

theorem isDigit_expansion (p u : Nat) :
    ∀ c ∈ fractionDigits (2 ^ p) p (u % 2 ^ p), c.isDigit = true :=
  isDigit_fractionDigits p (Nat.mod_lt u (Nat.two_pow_pos p))

/-- The digits of the expansion, as one number. -/
theorem expansion_exact (p u : Nat) :
    Nat.ofDigitChars 10 (Nat.toDigits 10 (u / 2 ^ p) ++ fractionDigits (2 ^ p) p (u % 2 ^ p)) 0
        * 2 ^ p
      = u * 10 ^ (fractionDigits (2 ^ p) p (u % 2 ^ p)).length := by
  have hsplit := Nat.div_add_mod u (2 ^ p)
  have hdigits := ofDigitChars_fractionDigits p p (Nat.mod_lt u (Nat.two_pow_pos p)) (le_refl _)
    (by simp)
  rw [Nat.ofDigitChars_append, Nat.ofDigitChars_ten_toDigits,
    Nat.ofDigitChars_eq_ofDigitChars_zero, Nat.add_mul, hdigits]
  calc _ = (2 ^ p * (u / 2 ^ p) + u % 2 ^ p)
          * 10 ^ (fractionDigits (2 ^ p) p (u % 2 ^ p)).length := by ring
    _ = _ := by rw [hsplit]

/-- An expansion is read back, whatever digits are in it. -/
theorem ofUnsignedText_expansion {x : Binary64} {negative : Bool} {whole fraction : List Char}
    (hne : whole ≠ []) (hwhole : ∀ c ∈ whole, c.isDigit = true)
    (hfraction : ∀ c ∈ fraction, c.isDigit = true)
    (hvalue : ofDecimal negative (Nat.ofDigitChars 10 (whole ++ fraction) 0) fraction.length
      = some x) :
    ofUnsignedText negative (whole ++ if fraction.isEmpty then [] else '.' :: fraction)
      = some (x, []) := by
  have hrest : ∀ a, (if fraction.isEmpty then [] else '.' :: fraction).head? = some a →
      a.isDigit = false := by
    intro a ha
    split_ifs at ha
    · cases ha
    · rw [List.head?_cons, Option.some.injEq] at ha
      rw [← ha]
      decide
  have hsplit := takeWhile_append_of_all hwhole hrest
  have htail := takeWhile_append_of_all hfraction (fun a (ha : [].head? = some a) => nomatch ha)
  rw [List.append_nil] at htail
  unfold ofUnsignedText
  simp only [hsplit.1, hsplit.2]
  rw [if_neg (by simpa using hne)]
  cases fraction with
  | nil =>
      rw [List.append_nil] at hvalue
      simpa using hvalue
  | cons c fraction =>
      rw [List.length_cons] at hvalue
      simp [htail.1, htail.2, hvalue]

/-- A digit is no sign. -/
theorem head?_ne_minus {whole rest : List Char} (hne : whole ≠ [])
    (hwhole : ∀ c ∈ whole, c.isDigit = true) : (whole ++ rest).head? ≠ some '-' := by
  obtain ⟨first, others, rfl⟩ := List.exists_cons_of_ne_nil hne
  intro h
  rw [List.cons_append, List.head?_cons, Option.some.injEq] at h
  exact absurd (h ▸ hwhole first (by simp)) (by decide)

/-- **The decimal expansion of a finite value is read back as the value.** -/
theorem ofText_toText {x : Binary64} (hx : x.isFinite = true) {text : List Char}
    (htext : toText x = some text) : ofText text = some (x, []) := by
  rw [toText, if_pos hx, Option.some.injEq] at htext
  have hwhole : ∀ c ∈ Nat.toDigits 10 (x.units / 2 ^ 1074), c.isDigit = true :=
    fun c hc => Nat.isDigit_of_mem_toDigits (by decide) (by decide) hc
  have hne : Nat.toDigits 10 (x.units / 2 ^ 1074) ≠ [] := Nat.toDigits_ne_nil
  have hread := ofUnsignedText_expansion hne hwhole
    (isDigit_expansion 1074 x.units)
    (ofDecimal_of_exact hx (expansion_exact 1074 x.units))
  rw [← htext, ofText]
  cases hsign : x.negative with
  | true =>
      rw [hsign] at hread
      exact hread
  | false =>
      rw [hsign] at hread
      exact (if_neg (head?_ne_minus hne hwhole)).trans hread

/-- The expansion is made of digits, a sign and a point. -/
theorem mem_toText {x : Binary64} {text : List Char} (htext : toText x = some text) :
    text ≠ [] ∧ ∀ c ∈ text, c.isDigit = true ∨ c = '-' ∨ c = '.' := by
  have hx : x.isFinite = true := by
    by_contra hx
    rw [toText, if_neg hx] at htext
    cases htext
  rw [toText, if_pos hx, Option.some.injEq] at htext
  have hwhole : ∀ c ∈ Nat.toDigits 10 (x.units / 2 ^ 1074), c.isDigit = true :=
    fun c hc => Nat.isDigit_of_mem_toDigits (by decide) (by decide) hc
  have hfraction := isDigit_expansion 1074 x.units
  rw [← htext]
  constructor
  · intro hnil
    exact Nat.toDigits_ne_nil (List.append_eq_nil_iff.mp (List.append_eq_nil_iff.mp hnil).2).1
  · intro c hc
    rcases List.mem_append.mp hc with hsign | hc
    · cases hneg : x.negative <;> rw [hneg] at hsign
      · cases hsign
      · exact Or.inr (Or.inl (List.mem_singleton.mp hsign))
    rcases List.mem_append.mp hc with hc | hpoint
    · exact Or.inl (hwhole c hc)
    · split_ifs at hpoint
      · cases hpoint
      · rcases List.mem_cons.mp hpoint with rfl | hc
        · exact Or.inr (Or.inr rfl)
        · exact Or.inl (hfraction c hc)

end Binary64
