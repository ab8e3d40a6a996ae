import Mathlib.Algebra.Order.Field.Basic
import Mathlib.Tactic.Linarith
import Mathlib.Tactic.Positivity
import Mathlib.Tactic.Ring
import RouteEngine.Library.BestFirst

set_option autoImplicit false

/-! # Best-first search with rounding errors

Where sums are rounded, a potential is consistent up to a factor only, and a best-first search that
never opens a vertex again may close one with a cost that is not least. The error grows with the
number of arcs and with nothing else: a vertex is closed with a cost that is off by a power of the
factor, whose exponent is linear in the arcs of any walk to it (`Near`). -/

namespace BestFirst

open Digraph

variable {V W K : Type} [Field K] [LinearOrder K] [LinearOrder W] [OrderTop W] [Zero W] [Add W]

/-- Finite weights stand for numbers; a sum is finite and off by a factor of at most `ρ`. -/
structure Approximates (value : W → K) (ρ : K) : Prop where
  one_le : 1 ≤ ρ
  zero : value 0 = 0
  zero_ne_top : (0 : W) ≠ ⊤
  mono : ∀ {a b : W}, a ≤ b → b ≠ ⊤ → value a ≤ value b
  add_ne_top : ∀ {a b : W}, a ≠ ⊤ → b ≠ ⊤ → a + b ≠ ⊤
  add_le : ∀ {a b : W}, 0 ≤ a → 0 ≤ b → a ≠ ⊤ → b ≠ ⊤ → value (a + b) ≤ ρ * (value a + value b)
  le_add : ∀ {a b : W}, 0 ≤ a → 0 ≤ b → a ≠ ⊤ → b ≠ ⊤ → value a + value b ≤ ρ * value (a + b)

/-- Along an arc the potential drops by at most the weight, up to two roundings. -/
structure NearlyConsistent (arc : V → V → W → Prop) (value : W → K) (ρ : K) (h : V → W) : Prop where
  nonneg : ∀ v, 0 ≤ h v
  ne_top : ∀ v, h v ≠ ⊤
  weight_nonneg : ∀ {u v w}, arc u v w → 0 ≤ w
  weight_ne_top : ∀ {u v w}, arc u v w → w ≠ ⊤
  drop : ∀ {u v w}, arc u v w → value (h u) ≤ ρ ^ 2 * (value w + value (h v))

/-- A closed vertex has nearly the least label: a walk of `n` arcs is at most a power of `ρ` with an
exponent linear in `n` cheaper. -/
def Near (arc : V → V → W → Prop) (s : V) (value : W → K) (ρ : K) (h : V → W) (a : State V W) :
    Prop :=
  ∀ u ∈ a.closed, ∀ vs c, Walk arc s vs u c →
    value (a.label u) + value (h u) ≤ ρ ^ (6 * vs.length + 2) * (value c + value (h u))

/-! ## Arithmetic -/

section Factors

variable [IsStrictOrderedRing K] {ρ L H c w L' H' c' B P : K}

/-- One more arc costs the potential two roundings and the walk one. -/
theorem factor_walk (hρ : 1 ≤ ρ) (hc : 0 ≤ c) (hH' : 0 ≤ H') (hdrop : H ≤ ρ ^ 2 * (w + H'))
    (hwalk : c + w ≤ ρ * c') : c + H ≤ ρ ^ 3 * (c' + H') := by
  have hsquare : 1 ≤ ρ ^ 2 := one_le_pow₀ hρ
  calc c + H ≤ ρ ^ 2 * c + ρ ^ 2 * (w + H') :=
        add_le_add (le_mul_of_one_le_left hc hsquare) hdrop
    _ = ρ ^ 2 * ((c + w) + H') := by ring
    _ ≤ ρ ^ 2 * (ρ * c' + ρ * H') := by
        apply mul_le_mul_of_nonneg_left _ (zero_le_one.trans hsquare)
        exact add_le_add hwalk (le_mul_of_one_le_left hH' hρ)
    _ = ρ ^ 3 * (c' + H') := by ring

/-- One more arc after a closed vertex costs the label five roundings. -/
theorem factor_label (hρ : 1 ≤ ρ) (hB : 1 ≤ B) (hc : 0 ≤ c) (hw : 0 ≤ w) (hH' : 0 ≤ H')
    (hnear : L + H ≤ B * (c + H)) (hdrop : H ≤ ρ ^ 2 * (w + H')) (hlabel : L' ≤ ρ * (L + w))
    (hwalk : c + w ≤ ρ * c') (hpriority : P ≤ ρ * (L' + H')) :
    P ≤ ρ ^ 5 * B * (c' + H') := by
  have hρ0 : 0 ≤ ρ := zero_le_one.trans hρ
  have hsquare : 1 ≤ ρ ^ 2 := one_le_pow₀ hρ
  have hcube : 1 ≤ ρ ^ 3 := one_le_pow₀ hρ
  -- the error of the label shows in the potential that the closed vertex had
  have hL : L ≤ B * c + (B - 1) * (ρ ^ 2 * (w + H')) := by
    have hrest := mul_le_mul_of_nonneg_left hdrop (sub_nonneg.mpr hB)
    linarith
  have hsum : L' + H' ≤ ρ ^ 3 * B * (c + w + H') := by
    have hL' : ρ * (L + w) ≤ ρ * (B * c + (B - 1) * (ρ ^ 2 * (w + H')) + w) :=
      mul_le_mul_of_nonneg_left (add_le_add_left hL w) hρ0
    have hcost : ρ * (B * c) ≤ ρ ^ 3 * (B * c) := by
      apply mul_le_mul_of_nonneg_right _ (mul_nonneg (zero_le_one.trans hB) hc)
      calc ρ = ρ ^ 1 := (pow_one ρ).symm
        _ ≤ ρ ^ 3 := pow_le_pow_right₀ hρ (by decide)
    have hweight : ρ * w ≤ ρ ^ 3 * w := by
      apply mul_le_mul_of_nonneg_right _ hw
      calc ρ = ρ ^ 1 := (pow_one ρ).symm
        _ ≤ ρ ^ 3 := pow_le_pow_right₀ hρ (by decide)
    have hrest : H' ≤ ρ ^ 3 * H' := le_mul_of_one_le_left hH' hcube
    calc L' + H' ≤ ρ * (B * c + (B - 1) * (ρ ^ 2 * (w + H')) + w) + H' :=
          add_le_add_left (hlabel.trans hL') H'
      _ = ρ * (B * c) + ρ ^ 3 * ((B - 1) * (w + H')) + ρ * w + H' := by ring
      _ ≤ ρ ^ 3 * (B * c) + ρ ^ 3 * ((B - 1) * (w + H')) + ρ ^ 3 * w + ρ ^ 3 * H' := by linarith
      _ = ρ ^ 3 * B * (c + w + H') := by ring
  have hend : c + w + H' ≤ ρ * (c' + H') := by
    have hrest := le_mul_of_one_le_left hH' hρ
    linarith
  have hfactor : 0 ≤ ρ ^ 3 * B := mul_nonneg (zero_le_one.trans hcube) (zero_le_one.trans hB)
  calc P ≤ ρ * (L' + H') := hpriority
    _ ≤ ρ * (ρ ^ 3 * B * (c + w + H')) := mul_le_mul_of_nonneg_left hsum hρ0
    _ ≤ ρ * (ρ ^ 3 * B * (ρ * (c' + H'))) :=
        mul_le_mul_of_nonneg_left (mul_le_mul_of_nonneg_left hend hfactor) hρ0
    _ = ρ ^ 5 * B * (c' + H') := by ring

end Factors

/-! ## Walks -/

section Walks

variable {arc : V → V → W → Prop} {s u v : V} {value : W → K} {ρ : K} {h : V → W}
  {a b : State V W}

theorem Approximates.nonneg (ha : Approximates value ρ) {x : W} (h0 : 0 ≤ x) (hx : x ≠ ⊤) :
    0 ≤ value x := by
  rw [← ha.zero]
  exact ha.mono h0 hx

theorem NearlyConsistent.walk_ne_top (hh : NearlyConsistent arc value ρ h)
    (ha : Approximates value ρ) {c : W} (hw : WalkCost arc s v c) : c ≠ ⊤ :=
  hw.induct (P := fun _ c => c ≠ ⊤) ha.zero_ne_top
    (fun _ hc harc => ha.add_ne_top hc (hh.weight_ne_top harc))

variable [IsStrictOrderedRing K]

/-- Before a walk of `n` arcs ends at an open vertex, it has an open one whose priority exceeds the
cost of the walk and the potential at its end by at most a power of the factor. -/
theorem Near.exists_open (hh : NearlyConsistent arc value ρ h) (ha : Approximates value ρ)
    (hgrow : Growing arc) (he : Explored arc s a) (hnear : Near arc s value ρ h a) {vs : List V}
    {c : W} (hw : Walk arc s vs v c) (hv : v ∉ a.closed) :
    ∃ x, x ∉ a.closed ∧ a.label x ≠ ⊤ ∧
      value (a.label x + h x) ≤ ρ ^ (6 * vs.length + 1) * (value c + value (h v)) := by
  have hpotential : ∀ v, 0 ≤ value (h v) := fun v => ha.nonneg (hh.nonneg v) (hh.ne_top v)
  have hpow : ∀ n : ℕ, 1 ≤ ρ ^ n := fun n => one_le_pow₀ ha.one_le
  induction hw with
  | nil =>
      have hs : a.label s ≠ ⊤ := he.source ▸ ha.zero_ne_top
      refine ⟨s, hv, hs, ?_⟩
      rw [he.source, List.length_nil, Nat.mul_zero, Nat.zero_add, pow_one]
      exact ha.add_le le_rfl (hh.nonneg s) ha.zero_ne_top (hh.ne_top s)
  | @snoc vs u v c w hu harc ih =>
      have hcost : 0 ≤ c := WalkCost.nonneg hgrow ⟨vs, hu⟩
      have hfinite : c ≠ ⊤ := hh.walk_ne_top ha ⟨vs, hu⟩
      have hw := hh.weight_nonneg harc
      have hwfinite := hh.weight_ne_top harc
      have hwalk := ha.le_add hcost hw hfinite hwfinite
      have hlength : 6 * (u :: vs).length + 1 = 6 * vs.length + 7 := by
        rw [List.length_cons]
        omega
      rw [hlength]
      by_cases hclosed : u ∈ a.closed
      · -- the label of `v` comes from `u`, which was closed with an error
        have hlabelu := he.finite u hclosed
        have hrelaxed := he.relaxed u v w hclosed hv harc
        have hsum := ha.add_ne_top hlabelu hwfinite
        have hlabelv := ne_top_of_le_ne_top hsum hrelaxed
        have hnonnegu := he.nonneg hgrow hlabelu
        have hnonnegv := he.nonneg hgrow hlabelv
        have hlabel : value (a.label v) ≤ ρ * (value (a.label u) + value w) :=
          (ha.mono hrelaxed hsum).trans (ha.add_le hnonnegu hw hlabelu hwfinite)
        have hfactor := factor_label ha.one_le (hpow (6 * vs.length + 2)) (ha.nonneg hcost hfinite)
          (ha.nonneg hw hwfinite) (hpotential v) (hnear u hclosed vs c hu) (hh.drop harc) hlabel
          hwalk (ha.add_le hnonnegv (hh.nonneg v) hlabelv (hh.ne_top v))
        refine ⟨v, hv, hlabelv, ?_⟩
        rwa [← pow_add, Nat.add_comm 5, Nat.add_assoc] at hfactor
      · rcases ih hclosed with ⟨x, hx, hlabel, hle⟩
        have hfactor :=
          factor_walk ha.one_le (ha.nonneg hcost hfinite) (hpotential v) (hh.drop harc)
          hwalk
        have hend : 0 ≤ value (c + w) + value (h v) :=
          add_nonneg (ha.nonneg (WalkCost.nonneg hgrow ⟨_, hu.snoc harc⟩)
            (ha.add_ne_top hfinite hwfinite)) (hpotential v)
        refine ⟨x, hx, hlabel, ?_⟩
        calc value (a.label x + h x)
            ≤ ρ ^ (6 * vs.length + 1) * (value c + value (h u)) := hle
          _ ≤ ρ ^ (6 * vs.length + 1) * (ρ ^ 3 * (value (c + w) + value (h v))) :=
              mul_le_mul_of_nonneg_left hfactor (zero_le_one.trans (hpow _))
          _ = ρ ^ (6 * vs.length + 4) * (value (c + w) + value (h v)) := by
              rw [← mul_assoc, ← pow_add]
          _ ≤ ρ ^ (6 * vs.length + 7) * (value (c + w) + value (h v)) := by
              apply mul_le_mul_of_nonneg_right _ hend
              exact pow_le_pow_right₀ ha.one_le (by omega)

/-- The label of a minimal open vertex is nearly least. -/
theorem Near.label_le (hh : NearlyConsistent arc value ρ h) (ha : Approximates value ρ)
    (hgrow : Growing arc) (he : Explored arc s a) (hnear : Near arc s value ρ h a)
    (hu : u ∉ a.closed) (hlabel : a.label u ≠ ⊤)
    (hmin : ∀ v, v ∉ a.closed → a.label u + h u ≤ a.label v + h v) {vs : List V} {c : W}
    (hw : Walk arc s vs u c) :
    value (a.label u) + value (h u) ≤ ρ ^ (6 * vs.length + 2) * (value c + value (h u)) := by
  rcases hnear.exists_open hh ha hgrow he hw hu with ⟨x, hx, hxlabel, hle⟩
  have hpriority : value (a.label u + h u) ≤ value (a.label x + h x) :=
    ha.mono (hmin x hx) (ha.add_ne_top hxlabel (hh.ne_top x))
  calc value (a.label u) + value (h u)
      ≤ ρ * value (a.label u + h u) :=
        ha.le_add (he.nonneg hgrow hlabel) (hh.nonneg u) hlabel (hh.ne_top u)
    _ ≤ ρ * (ρ ^ (6 * vs.length + 1) * (value c + value (h u))) :=
        mul_le_mul_of_nonneg_left (hpriority.trans hle) (zero_le_one.trans ha.one_le)
    _ = ρ ^ (6 * vs.length + 2) * (value c + value (h u)) := by ring

omit [LinearOrder W] [OrderTop W] [IsStrictOrderedRing K] in
theorem Near.start (hclosed : a.closed = []) : Near arc s value ρ h a := by
  intro u hu
  rw [hclosed] at hu
  cases hu

/-- **Closing a minimal open vertex keeps the labels of closed vertices nearly least.** -/
theorem Near.expand (hh : NearlyConsistent arc value ρ h) (ha : Approximates value ρ)
    (hgrow : Growing arc) (he : Explored arc s a) (hnear : Near arc s value ρ h a)
    (hab : Expands arc u a b) (hu : u ∉ a.closed) (hlabel : a.label u ≠ ⊤)
    (hmin : ∀ v, v ∉ a.closed → a.label u + h u ≤ a.label v + h v) : Near arc s value ρ h b :=
  hab.forall_closed (p := fun x l => ∀ vs c, Walk arc s vs x c →
      value l + value (h x) ≤ ρ ^ (6 * vs.length + 2) * (value c + value (h x)))
    (fun _ _ hw => hnear.label_le hh ha hgrow he hu hlabel hmin hw) hnear

end Walks

end BestFirst
