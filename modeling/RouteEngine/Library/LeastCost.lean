import Mathlib.Algebra.Order.Monoid.Defs
import Mathlib.Algebra.Order.Monoid.Unbundled.Pow
import RouteEngine.Library.Walk

set_option autoImplicit false

/-! # Least walk costs as distances

Where costs add up exactly, in a commutative monoid, walks can be joined (`WalkCost.append`) and,
over arcs that lead both ways, turned round (`WalkCost.reverse`). The least costs of walks are
then a distance between the vertices: symmetric, with the triangle inequality
(`LeastCost.triangle`), and not below any other distance that the weights respect
(`WalkCost.distance_le`). -/

namespace Digraph

variable {V W : Type} [AddCommMonoid W] {arc : V → V → W → Prop} {s u v : V} {a b c : W}

theorem walkCost_single (h : arc u v c) : WalkCost arc u v c := by
  have hwalk := walkCost_nil.snoc h
  rwa [zero_add] at hwalk

theorem WalkCost.append (h : WalkCost arc s u a) (h' : WalkCost arc u v b) :
    WalkCost arc s v (a + b) := by
  refine h'.induct (P := fun v b => WalkCost arc s v (a + b)) ?_ fun _ hb harc => ?_
  · rwa [add_zero]
  · rw [← add_assoc]
    exact hb.snoc harc

/-- A walk over arcs that lead both ways can be walked back. -/
theorem WalkCost.reverse (hboth : ∀ ⦃u v w⦄, arc u v w → arc v u w) (h : WalkCost arc s v c) :
    WalkCost arc v s c := by
  refine h.induct (P := fun v c => WalkCost arc v s c) walkCost_nil fun _ hback harc => ?_
  rw [add_comm]
  exact (walkCost_single (hboth harc)).append hback

variable [LinearOrder W]

/-- `c` is the least cost of the walks from `s` to `v`. -/
def LeastCost (arc : V → V → W → Prop) (s v : V) (c : W) : Prop :=
  IsLeast {c | WalkCost arc s v c} c

namespace LeastCost

theorem eq_zero_of_self (hgrow : Growing arc) (h : LeastCost arc s s c) : c = 0 :=
  le_antisymm (h.2 walkCost_nil) (h.1.nonneg hgrow)

theorem symm (hboth : ∀ ⦃u v w⦄, arc u v w → arc v u w) (h : LeastCost arc s v c) :
    LeastCost arc v s c :=
  ⟨h.1.reverse hboth, fun _ hwalk => h.2 (hwalk.reverse hboth)⟩

/-- **The triangle inequality**: a stop on the way makes no route cheaper. -/
theorem triangle (h : LeastCost arc s v c) (hfirst : LeastCost arc s u a)
    (hsecond : LeastCost arc u v b) : c ≤ a + b :=
  h.2 (hfirst.1.append hsecond.1)

end LeastCost

variable [IsOrderedAddMonoid W]

/-- **Walks are not shorter than a distance that no arc undercuts.** -/
theorem WalkCost.distance_le {δ : V → V → W} (hself : ∀ u, δ u u ≤ 0)
    (htriangle : ∀ u v x, δ u x ≤ δ u v + δ v x) (harc : ∀ ⦃u v w⦄, arc u v w → δ u v ≤ w)
    (h : WalkCost arc s v c) : δ s v ≤ c :=
  h.induct (P := fun v c => δ s v ≤ c) (hself s)
    fun _ hle hw => (htriangle _ _ _).trans (add_le_add hle (harc hw))

/-- A walk of `n` arcs that cost at most `bound` each. -/
theorem exists_walkCost_le {bound : W} (place : Nat → V) (n : Nat)
    (harcs : ∀ i, i < n → ∃ w, arc (place i) (place (i + 1)) w ∧ w ≤ bound) :
    ∃ c, WalkCost arc (place 0) (place n) c ∧ c ≤ n • bound := by
  induction n with
  | zero => exact ⟨0, walkCost_nil, (zero_nsmul bound).ge⟩
  | succ n ih =>
      obtain ⟨c, hwalk, hle⟩ := ih fun i hi => harcs i (by omega)
      obtain ⟨w, harc, hw⟩ := harcs n (by omega)
      refine ⟨c + w, hwalk.snoc harc, ?_⟩
      rw [succ_nsmul]
      exact add_le_add hle hw

/-- Between two places of a row whose neighbours are joined both ways. -/
theorem exists_walkCost_between {bound : W} (hboth : ∀ ⦃u v w⦄, arc u v w → arc v u w)
    (place : Nat → V) {n : Nat}
    (harcs : ∀ i, i + 1 < n → ∃ w, arc (place i) (place (i + 1)) w ∧ w ≤ bound) {i j : Nat}
    (hi : i < n) (hj : j < n) :
    ∃ c, WalkCost arc (place i) (place j) c ∧ c ≤ (j - i + (i - j)) • bound := by
  have hforward : ∀ i k, i + k < n →
      ∃ c, WalkCost arc (place i) (place (i + k)) c ∧ c ≤ k • bound := by
    intro i k hlt
    exact exists_walkCost_le (fun m => place (i + m)) k fun m hm => harcs (i + m) (by omega)
  rcases Nat.le_total i j with hle | hle
  · obtain ⟨k, rfl⟩ := Nat.exists_eq_add_of_le hle
    have hsteps : i + k - i + (i - (i + k)) = k := by omega
    rw [hsteps]
    exact hforward i k hj
  · obtain ⟨k, rfl⟩ := Nat.exists_eq_add_of_le hle
    have hsteps : j - (j + k) + (j + k - j) = k := by omega
    rw [hsteps]
    obtain ⟨c, hwalk, hc⟩ := hforward j k hi
    exact ⟨c, hwalk.reverse hboth, hc⟩

end Digraph
