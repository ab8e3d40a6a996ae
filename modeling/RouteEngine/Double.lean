import RouteEngine.Types
import RouteEngine.Library.Binary64

set_option autoImplicit false

/-! # The scalar type `double`

The instances that read the model over IEEE values. `-0.0` and `0.0` compare equal, so the
comparison orders the finite values only up to their keys. -/

namespace RouteEngine

instance : IsFinite Binary64 where
  isFinite := Binary64.isFinite

instance : FiniteOrder Binary64 where
  weak := by
    have hlt : ∀ a b : Binary64, isFinite a = true → isFinite b = true →
        decide (a < b) = decide (a.key < b.key) :=
      fun a b ha hb => decide_eq_decide.mpr (Binary64.lt_of_isFinite ha hb)
    have hkey := Comparison.StrictWeakOn.of_key Binary64.key (P := fun a => isFinite a = true)
    constructor
    · intro a b ha hb
      rw [hlt a b ha hb, hlt b a hb ha]
      exact hkey.asymm a b ha hb
    · intro a b c ha hb hc
      rw [hlt a b ha hb, hlt b c hb hc, hlt a c ha hc]
      exact hkey.negTrans a b c ha hb hc

/-- `hypot` of the coordinate differences on a line of constant `y`, where it is the absolute
value of the difference. -/
def lineDistance (fromCoord toCoord : Coord Binary64) : Binary64 :=
  (toCoord.x - fromCoord.x).abs

/-- A distance as `std::hypot` computes it: between finite coordinates it is a number whose
sign bit is clear. It may overflow. -/
def UnsignedDistance (distance : Coord Binary64 → Coord Binary64 → Binary64) : Prop :=
  ∀ p q : Coord Binary64, isFinite p.x = true → isFinite p.y = true → isFinite q.x = true →
    isFinite q.y = true → (distance p q).isNaN = false ∧ (distance p q).negative = false

theorem lineDistance_unsigned : UnsignedDistance lineDistance := by
  intro p q hp _ hq _
  unfold lineDistance
  exact ⟨(Binary64.isNaN_abs _).trans (Binary64.isNaN_sub_of_isFinite hq hp),
    Binary64.negative_abs _⟩

end RouteEngine
