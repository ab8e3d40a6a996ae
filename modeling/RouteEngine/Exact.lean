import Mathlib.Algebra.Order.AddGroupWithTop
import Mathlib.Algebra.Order.Monoid.WithTop
import Mathlib.Algebra.Order.Ring.WithTop
import Mathlib.Algebra.Order.Field.Basic
import Mathlib.Algebra.Order.Ring.Rat
import Mathlib.Tactic.Linarith
import RouteEngine.SearchCost
import RouteEngine.MetricSpec

set_option autoImplicit false

/-! # Exact arithmetic

The scalars of an ordered field `K` with an infinity on top, and a distance that has the
properties of `hypot` of the coordinate differences which the searches rest on. -/

namespace RouteEngine

variable {K : Type}

/-- The quotient of finite scalars is that of the field. -/
instance instDivWithTop [Div K] : Div (WithTop K) where
  div := WithTop.map₂ (· / ·)

instance [Field K] [LinearOrder K] [IsStrictOrderedRing K] : WeightArith (WithTop K) where
  add_zero := add_zero
  le_add _ _ hw := le_add_of_nonneg_right hw

/-- A distance between points of the plane. -/
structure PlaneDistance (K : Type) [Field K] [LinearOrder K] where
  dist : Coord K → Coord K → K
  nonneg : ∀ p q, 0 ≤ dist p q
  symm : ∀ p q, dist p q = dist q p
  self : ∀ p, dist p p = 0
  triangle : ∀ p q r, dist p r ≤ dist p q + dist q r

/-- The point with finite coordinates. -/
def Coord.finite [Zero K] (c : Coord (WithTop K)) : Coord K := ⟨c.x.untopD 0, c.y.untopD 0⟩

/-- Finite coordinates are determined by their values. -/
theorem Coord.eq_of_finite_eq [Zero K] {p q : Coord (WithTop K)} (hp : p.x ≠ ⊤ ∧ p.y ≠ ⊤)
    (hq : q.x ≠ ⊤ ∧ q.y ≠ ⊤) (h : p.finite = q.finite) : p = q := by
  have hvalue : ∀ z : WithTop K, z ≠ ⊤ → ((z.untopD 0 : K) : WithTop K) = z := by
    intro z hz
    lift z to K using hz
    rfl
  have hx : p.x.untopD 0 = q.x.untopD 0 := congrArg Coord.x h
  have hy : p.y.untopD 0 = q.y.untopD 0 := congrArg Coord.y h
  have hxs : p.x = q.x := by rw [← hvalue p.x hp.1, hx, hvalue q.x hq.1]
  have hys : p.y = q.y := by rw [← hvalue p.y hp.2, hy, hvalue q.y hq.2]
  cases p
  cases q
  exact Coord.mk.injEq _ _ _ _ ▸ ⟨hxs, hys⟩

namespace PlaneDistance

variable [Field K] [LinearOrder K] (d : PlaneDistance K)

/-- The distance on the coordinates of a graph, which are finite. -/
def lift (p q : Coord (WithTop K)) : WithTop K := (d.dist p.finite q.finite : K)

theorem lift_nonneg (p q : Coord (WithTop K)) : 0 ≤ d.lift p q :=
  WithTop.coe_le_coe.mpr (d.nonneg _ _)

theorem lift_ne_top (p q : Coord (WithTop K)) : d.lift p q ≠ ⊤ := WithTop.coe_ne_top

theorem lift_self (p : Coord (WithTop K)) : d.lift p p = 0 :=
  congrArg _ (d.self _)

theorem lift_triangle (p q r : Coord (WithTop K)) : d.lift p r ≤ d.lift p q + d.lift q r :=
  WithTop.coe_le_coe.mpr (d.triangle _ _ _)

end PlaneDistance

/-- The taxicab distance, which is `hypot` between points of one horizontal line. -/
def taxicab : PlaneDistance ℚ where
  dist p q := |q.x - p.x| + |q.y - p.y|
  nonneg p q := add_nonneg (abs_nonneg _) (abs_nonneg _)
  symm p q := by rw [abs_sub_comm q.x, abs_sub_comm q.y]
  self p := by simp
  triangle p q r := by
    have hx := abs_sub_le r.x q.x p.x
    have hy := abs_sub_le r.y q.y p.y
    linarith

/-! ## The straight-line heuristic -/

section

variable [Field K] [LinearOrder K] {d : PlaneDistance K}
variable {g : Graph (WithTop K)} {staged : List (StagedArc (WithTop K))}

/-- The straight-line distance to the target. -/
def straightLine (d : PlaneDistance K) (g : Graph (WithTop K)) (target v : NodeId) :
    WithTop K :=
  d.lift (coordAt g.coordinates v) (coordAt g.coordinates target)

theorem euclideanEstimate_eq {target v : NodeId} (hv : g.contains v = true) :
    euclideanEstimate d.lift g (coordAt g.coordinates target) v
      = .ok (straightLine d g target v) := by
  unfold euclideanEstimate
  rw [coordinate_eq hv]
  rfl

/-- **The contract makes the straight-line distance consistent**: along an arc the distance to
the target drops by at most the distance between the endpoints, hence by at most the weight. -/
theorem straightLine_consistent [IsStrictOrderedRing K] (hg : g.OverArcs d.lift staged)
    (hpass : g.metric.passes = true) (target : NodeId) :
    ConsistentHeuristic g (straightLine d g target) where
  nonneg _ := d.lift_nonneg _ _
  consistent := by
    intro u v w harc a
    rw [hg.metric_eq, canonicalReport_passes_iff] at hpass
    have hweight := hpass _ ((hg.hasArc_iff u v w).mp harc)
    rw [add_assoc]
    refine add_le_add_right ?_ a
    calc straightLine d g target u
        ≤ d.lift (coordAt g.coordinates u) (coordAt g.coordinates v)
            + straightLine d g target v := d.lift_triangle _ _ _
      _ ≤ w + straightLine d g target v := add_le_add_left hweight _
  cancel v x y hxy := (WithTop.add_le_add_iff_right (d.lift_ne_top _ _)).mp hxy

end

/-! ## A road with a dear shortcut -/

/-- Three nodes in a row, with two parallel arcs between the first two. -/
def roadCalls : List (BuilderCall (WithTop ℚ)) :=
  [.setNode 0 ⟨0, 0⟩ 7, .setNode 1 ⟨1, 0⟩ 8, .setNode 2 ⟨2, 0⟩ 9, .addArc 0 2 5, .addArc 0 1 3,
    .addArc 1 2 1, .addArc 0 1 1]

/-- The graph after `roadCalls`. -/
def road : Graph (WithTop ℚ) where
  coordinates := [⟨0, 0⟩, ⟨1, 0⟩, ⟨2, 0⟩]
  externalIds := [7, 8, 9]
  offsets := [0, 3, 4, 4]
  arcs := [⟨1, 1⟩, ⟨1, 3⟩, ⟨2, 5⟩, ⟨2, 1⟩]
  metric := ⟨true, 0, 0, 0, 1⟩

theorem road_built : road.Built taxicab.lift (Comparison.insertionSort _) :=
  Graph.built_of_ofCalls
    (show Graph.ofCalls taxicab.lift (Comparison.insertionSort _) 3 roadCalls = .ok road by
      decide +kernel)

end RouteEngine
