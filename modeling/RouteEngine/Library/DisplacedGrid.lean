import Mathlib.Algebra.Order.Group.Abs
import Mathlib.Algebra.Order.Ring.Abs
import Mathlib.Data.Nat.Cast.Order.Ring
import Mathlib.Tactic.Linarith
import Mathlib.Tactic.Ring

set_option autoImplicit false

/-! # Points displaced from the sites of a grid

The marks of a ruler are the multiples of its spacing. Points that stay within an amplitude of
their marks are as far apart as the marks, up to twice the amplitude (`NearMark.gap_le`,
`NearMark.le_gap`). A grid has a ruler on each axis: displaced points of neighbouring sites keep a
distance in some axis and stay close in each (`NearSite.apart`, `NearSite.close`), and a point has
one site only, when the spacing is more than twice the amplitude (`NearSite.unique`). -/

namespace Grid

variable {K : Type} [CommRing K] [LinearOrder K]

/-! ## One axis -/

/-- `x` is at most `amplitude` away from mark `n`. -/
def NearMark (spacing amplitude : K) (n : Nat) (x : K) : Prop := |x - n * spacing| ≤ amplitude

namespace NearMark

variable [IsStrictOrderedRing K] {spacing amplitude : K} {m n : Nat} {x y : K}

/-- Between two points lie the gap of their marks and two displacements, at most. -/
theorem gap_le (hx : NearMark spacing amplitude m x) (hy : NearMark spacing amplitude n y) :
    |y - x| ≤ |(n - m) * spacing| + 2 * amplitude := by
  have hback : |m * spacing - x| ≤ amplitude := abs_sub_comm x (m * spacing) ▸ hx
  calc |y - x|
      = |(n - m) * spacing + (y - n * spacing) + (m * spacing - x)| := congrArg _ (by ring)
    _ ≤ |(n - m) * spacing| + |y - n * spacing| + |m * spacing - x| := abs_add_three _ _ _
    _ ≤ |(n - m) * spacing| + amplitude + amplitude := add_le_add (add_le_add_right hy _) hback
    _ = |(n - m) * spacing| + 2 * amplitude := by ring

/-- Two displacements shorten the gap of the marks, at most. -/
theorem le_gap (hx : NearMark spacing amplitude m x) (hy : NearMark spacing amplitude n y) :
    |(n - m) * spacing| - 2 * amplitude ≤ |y - x| := by
  have hback : |n * spacing - y| ≤ amplitude := abs_sub_comm y (n * spacing) ▸ hy
  have hmarks : |(n - m) * spacing| ≤ |y - x| + 2 * amplitude :=
    calc |(n - m) * spacing|
        = |(y - x) + (n * spacing - y) + (x - m * spacing)| := congrArg _ (by ring)
      _ ≤ |y - x| + |n * spacing - y| + |x - m * spacing| := abs_add_three _ _ _
      _ ≤ |y - x| + amplitude + amplitude := add_le_add (add_le_add_right hback _) hx
      _ = |y - x| + 2 * amplitude := by ring
  linarith

/-- The gap of two marks, as a number of spacings. -/
theorem abs_marks (hspacing : 0 ≤ spacing) (m n : Nat) :
    |((n : K) - m) * spacing| = |(n : K) - m| * spacing := by
  rw [abs_mul, abs_of_nonneg hspacing]

/-- **Points of different marks keep apart.** -/
theorem apart (hspacing : 0 ≤ spacing) (hx : NearMark spacing amplitude m x)
    (hy : NearMark spacing amplitude n y) (hne : m ≠ n) :
    spacing - 2 * amplitude ≤ |y - x| := by
  have hone : (1 : K) ≤ |(n : K) - m| := by
    rcases Nat.lt_or_gt_of_ne hne with hlt | hlt
    · have hcast : (m : K) + 1 ≤ n := by exact_mod_cast hlt
      exact le_trans (by linarith) (le_abs_self _)
    · have hcast : (n : K) + 1 ≤ m := by exact_mod_cast hlt
      exact le_trans (by linarith) (neg_le_abs _)
  have hgap : spacing ≤ |((n : K) - m) * spacing| := by
    rw [abs_marks hspacing]
    exact le_mul_of_one_le_left hspacing hone
  exact (sub_le_sub_right hgap _).trans (le_gap hx hy)

/-- **Points of the same mark or of neighbouring ones stay close.** -/
theorem close (hspacing : 0 ≤ spacing) (hx : NearMark spacing amplitude m x)
    (hy : NearMark spacing amplitude n y) (hmn : m ≤ n + 1) (hnm : n ≤ m + 1) :
    |y - x| ≤ spacing + 2 * amplitude := by
  have hone : |(n : K) - m| ≤ 1 := by
    have hmn : (m : K) ≤ n + 1 := by exact_mod_cast hmn
    have hnm : (n : K) ≤ m + 1 := by exact_mod_cast hnm
    exact abs_le.mpr ⟨by linarith, by linarith⟩
  have hgap : |((n : K) - m) * spacing| ≤ spacing := by
    rw [abs_marks hspacing]
    exact mul_le_of_le_one_left hspacing hone
  exact (gap_le hx hy).trans (add_le_add_left hgap _)

/-- Points of one mark are two displacements apart, at most. -/
theorem close_same (hx : NearMark spacing amplitude n x) (hy : NearMark spacing amplitude n y) :
    |y - x| ≤ 2 * amplitude := by
  have hgap := gap_le hx hy
  rwa [sub_self, zero_mul, abs_zero, zero_add] at hgap

/-- A point is near one mark only. -/
theorem unique (hspacing : 0 ≤ spacing) (hgap : 0 < spacing - 2 * amplitude)
    (hm : NearMark spacing amplitude m x) (hn : NearMark spacing amplitude n x) : m = n := by
  by_contra hne
  have hapart := apart hspacing hm hn hne
  rw [sub_self, abs_zero] at hapart
  exact absurd hgap (not_lt.mpr hapart)

end NearMark

/-! ## Two axes -/

/-- The point is at most `amplitude` away from the site in each axis. -/
structure NearSite (spacing amplitude : K) (row col : Nat) (x y : K) : Prop where
  x_near : NearMark spacing amplitude col x
  y_near : NearMark spacing amplitude row y

/-- Two different sites whose rows and whose columns are the same or next to each other. -/
structure Adjacent (row col row' col' : Nat) : Prop where
  row_le : row ≤ row' + 1
  row_ge : row' ≤ row + 1
  col_le : col ≤ col' + 1
  col_ge : col' ≤ col + 1
  ne : row ≠ row' ∨ col ≠ col'

theorem Adjacent.symm {row col row' col' : Nat} (h : Adjacent row col row' col') :
    Adjacent row' col' row col :=
  ⟨h.row_ge, h.row_le, h.col_ge, h.col_le, h.ne.imp Ne.symm Ne.symm⟩

namespace NearSite

variable [IsStrictOrderedRing K] {spacing amplitude : K} {row col row' col' : Nat}
  {x y x' y' : K}

/-- **Points of different sites keep apart in some axis.** -/
theorem apart (hspacing : 0 ≤ spacing) (h : NearSite spacing amplitude row col x y)
    (h' : NearSite spacing amplitude row' col' x' y') (hne : row ≠ row' ∨ col ≠ col') :
    spacing - 2 * amplitude ≤ |x' - x| ∨ spacing - 2 * amplitude ≤ |y' - y| := by
  rcases hne with hrow | hcol
  · exact Or.inr (h.y_near.apart hspacing h'.y_near hrow)
  · exact Or.inl (h.x_near.apart hspacing h'.x_near hcol)

/-- **Points of adjacent sites stay close in each axis.** -/
theorem close (hspacing : 0 ≤ spacing) (h : NearSite spacing amplitude row col x y)
    (h' : NearSite spacing amplitude row' col' x' y') (hadjacent : Adjacent row col row' col') :
    |x' - x| ≤ spacing + 2 * amplitude ∧ |y' - y| ≤ spacing + 2 * amplitude :=
  ⟨h.x_near.close hspacing h'.x_near hadjacent.col_le hadjacent.col_ge,
    h.y_near.close hspacing h'.y_near hadjacent.row_le hadjacent.row_ge⟩

/-- **A point is near one site only.** -/
theorem unique (hspacing : 0 ≤ spacing) (hgap : 0 < spacing - 2 * amplitude)
    (h : NearSite spacing amplitude row col x y)
    (h' : NearSite spacing amplitude row' col' x y) : row = row' ∧ col = col' :=
  ⟨h.y_near.unique hspacing hgap h'.y_near, h.x_near.unique hspacing hgap h'.x_near⟩

end NearSite

end Grid
