import RouteEngine.SearchDoubles
import RouteEngine.Library.GridSum

set_option autoImplicit false

/-! # Costs that doubles do not round

When every weight is a multiple of `2 ^ j` units (`j = 1074` are the integers), each sum of less
than `2 ^ 53` such steps is exact. A cost in that range is therefore the exact least cost, its
path an exactly shortest one; and where the exact least cost is out of the range, so is the
reported one. -/

namespace RouteEngine

open Binary64 NonnegBinary64

/-- An arc of the graph and its weight in steps of `2 ^ j` units. -/
def Graph.GridArc (g : Graph Binary64) (j : Nat) (u v : NodeId) (m : Nat) : Prop :=
  ∃ w, g.HasArc u v w ∧ w.units = m * 2 ^ j

section

variable {distance : Coord Binary64 → Coord Binary64 → Binary64} {g : Graph Binary64}
  {staged : List (StagedArc Binary64)} {source v : NodeId} {j : Nat} {vs : List NodeId}

/-- A walk on the grid, summed in doubles. -/
theorem exists_rounded_walk (hg : g.OverArcs distance staged) (hj : j ≤ 2044) {n : Nat}
    (hw : Digraph.Walk (g.GridArc j) source vs v n) :
    ∃ c, Digraph.Walk (g.unsigned staged).HasArc source vs v c ∧ OnGrid j n c := by
  refine hw.exists_related (R := fun n c => OnGrid j n c) (onGrid_zero j) ?_
  rintro u v m n c ⟨w, harc, hunits⟩ hR
  refine ⟨ofBinary64 w, hg.hasArc_unsigned_iff.mpr ⟨w, harc, rfl⟩, hR.add hj ?_⟩
  rw [unitsOf_ofBinary64 (hg.admissible _ (hg.hasArc_iff_mem_staged.mp harc)).finite, hunits]

/-- A walk summed in doubles, on the grid. -/
theorem exists_grid_walk (hg : g.OverArcs distance staged) (hj : j ≤ 2044)
    (hgrid : ∀ u v w, g.HasArc u v w → 2 ^ j ∣ w.units) {c : NonnegBinary64}
    (hw : Digraph.Walk (g.unsigned staged).HasArc source vs v c) :
    ∃ n, Digraph.Walk (g.GridArc j) source vs v n ∧ OnGrid j n c := by
  refine hw.exists_related (R := fun c n => OnGrid j n c) (onGrid_zero j) ?_
  intro u v w c n harc hR
  obtain ⟨w', harc', rfl⟩ := hg.hasArc_unsigned_iff.mp harc
  obtain ⟨m, hm⟩ := hgrid u v w' harc'
  rw [Nat.mul_comm] at hm
  refine ⟨m, ⟨w', harc', hm⟩, hR.add hj ?_⟩
  rw [unitsOf_ofBinary64 (hg.admissible _ (hg.hasArc_iff_mem_staged.mp harc')).finite, hm]

/-- Infinity is out of the range of every grid. -/
theorem le_unitsOf_top (hj : j ≤ 2044) : 2 ^ 53 * 2 ^ j ≤ unitsOf (⊤ : NonnegBinary64).1 := by
  rw [← unitsOf_roundMagnitude hj (Nat.dvd_mul_left (2 ^ j) (2 ^ 53)) le_rfl]
  exact unitsOf_mono (roundMagnitude_le _ _)

/-- **Below `2 ^ 53` steps Dijkstra on doubles is exact**: the reported cost is the exact least
cost, and the reported path is a walk of that cost in exact arithmetic. From `2 ^ 53` steps on,
the reported cost does not fall below them, so a cost that is reported in the range is exact. -/
theorem dijkstra_wholeCosts (distance : Coord Binary64 → Coord Binary64 → Binary64)
    (std : Comparison.Sorter (GraphBuilder.stagedBefore (F := Binary64)))
    (g : Graph Binary64) (hg : g.Built distance std) (j : Nat) (hj : j ≤ 2044)
    (hgrid : ∀ u v w, g.HasArc u v w → 2 ^ j ∣ w.units) (source target : NodeId)
    (hs : g.contains source = true) (ht : g.contains target = true) (least : Nat)
    (hleast : IsLeast {n | Digraph.WalkCost (g.GridArc j) source target n} least) :
    ∃ result, dijkstra g source target = .ok result ∧
      (least < 2 ^ 53 → result.status = .found ∧ result.cost.units = least * 2 ^ j ∧
        ∃ before, result.path = (target :: before).reverse ∧
          Digraph.Walk (g.GridArc j) source before target least) ∧
      (2 ^ 53 ≤ least → 2 ^ 53 * 2 ^ j ≤ result.cost.units) := by
  obtain ⟨staged, hover⟩ := hg.exists_overArcs
  obtain ⟨result, hresult, hmin, hfound, hwalk⟩ := dijkstra_unsigned hover hs ht
  have hunits : (result.map toBinary64).cost.units = unitsOf result.cost.1 :=
    congrArg unitsOf (magnitude_toBinary64 result.cost)
  refine ⟨result.map toBinary64, hresult, fun hlt => ?_, fun hge => ?_⟩
  · -- the exactly shortest walk, summed in doubles, bounds the reported cost
    obtain ⟨vs, hexact⟩ := hleast.1
    obtain ⟨c, hc, hon⟩ := exists_rounded_walk hover hj hexact
    have hle : unitsOf result.cost.1 ≤ least * 2 ^ j := by
      rw [← hon.1 hlt.le]
      exact unitsOf_mono (hmin.2 (Or.inr ⟨vs, hc⟩))
    have hrange : least * 2 ^ j < 2 ^ 53 * 2 ^ j :=
      Nat.mul_lt_mul_of_pos_right hlt (Nat.two_pow_pos j)
    have hne : result.cost ≠ ⊤ := by
      intro htop
      rw [htop] at hle
      exact absurd (le_unitsOf_top hj) (Nat.not_le.mpr (hle.trans_lt hrange))
    -- and the reported walk, summed exactly, is not shorter
    obtain ⟨before, hpath, -, hrounded⟩ := hwalk (hfound.mpr hne)
    obtain ⟨n, hn, hon'⟩ := exists_grid_walk hover hj hgrid hrounded
    have hn53 : n < 2 ^ 53 := by
      by_contra hge
      exact absurd (hon'.2 (Nat.not_lt.mp hge)) (Nat.not_le.mpr (hle.trans_lt hrange))
    have hcost := hon'.1 hn53.le
    have hnle : n ≤ least :=
      Nat.le_of_mul_le_mul_right (hcost ▸ hle) (Nat.two_pow_pos j)
    obtain rfl : n = least := Nat.le_antisymm hnle (hleast.2 ⟨before, hn⟩)
    exact ⟨hfound.mpr hne, hunits.trans hcost, before, hpath, hn⟩
  · rw [hunits]
    rcases hmin.1 with htop | ⟨vs, hrounded⟩
    · rw [htop]
      exact le_unitsOf_top hj
    · obtain ⟨n, hn, hon⟩ := exists_grid_walk hover hj hgrid hrounded
      exact hon.2 (hge.trans (hleast.2 ⟨vs, hn⟩))

end

/-- The arcs of the road with signs. -/
theorem signedRoad_arcs {u v : NodeId} {w : Binary64} (h : signedRoad.HasArc u v w) :
    (u = 0 ∧ v = 1 ∧ w = negZero) ∨ (u = 0 ∧ v = 2 ∧ w = 1 + 1) ∨ (u = 1 ∧ v = 2 ∧ w = 1) := by
  obtain ⟨row, hrow, hmem⟩ := h
  have hu : u = 0 ∨ u = 1 ∨ u = 2 ∨ signedRoad.contains u = false := by
    have hcontains : signedRoad.contains u = decide (u.toNat < 3) := rfl
    rw [hcontains, decide_eq_false_iff_not]
    simp only [← UInt32.toNat_inj]
    show u.toNat = 0 ∨ u.toNat = 1 ∨ u.toNat = 2 ∨ _
    omega
  rcases hu with rfl | rfl | rfl | hu
  · obtain rfl : [⟨1, negZero⟩, ⟨2, 1 + 1⟩] = row := Except.ok.inj hrow
    simpa using hmem
  · obtain rfl : [⟨2, 1⟩] = row := Except.ok.inj hrow
    simpa using hmem
  · obtain rfl : [] = row := Except.ok.inj hrow
    simp at hmem
  · rw [Graph.arcsFrom, hu] at hrow
    cases hrow

/-- On the road with signs every weight is an integer, and the least cost is `1`. -/
theorem dijkstra_wholeCosts_signedRoad :
    IsLeast {n | Digraph.WalkCost (signedRoad.GridArc 1074) 0 2 n} 1 ∧
      ∃ result, dijkstra signedRoad 0 2 = .ok result ∧ result.cost.units = 1 * 2 ^ 1074 := by
  have hunits : negZero.units = 0 * 2 ^ 1074 ∧ (1 + 1 : Binary64).units = 2 * 2 ^ 1074 ∧
      (1 : Binary64).units = 1 * 2 ^ 1074 := by
    decide +kernel
  have hgrid : ∀ u v w, signedRoad.HasArc u v w → 2 ^ 1074 ∣ w.units := by
    intro u v w h
    rcases signedRoad_arcs h with ⟨-, -, hw⟩ | ⟨-, -, hw⟩ | ⟨-, -, hw⟩
    · exact hw ▸ Dvd.intro_left _ hunits.1.symm
    · exact hw ▸ Dvd.intro_left _ hunits.2.1.symm
    · exact hw ▸ Dvd.intro_left _ hunits.2.2.symm
  have hfirst : signedRoad.GridArc 1074 0 1 0 :=
    ⟨negZero, ⟨[⟨1, negZero⟩, ⟨2, 1 + 1⟩], rfl, List.mem_cons_self⟩, by decide +kernel⟩
  have hsecond : signedRoad.GridArc 1074 1 2 1 :=
    ⟨1, ⟨[⟨2, 1⟩], rfl, List.mem_cons_self⟩, by decide +kernel⟩
  have hleast : IsLeast {n | Digraph.WalkCost (signedRoad.GridArc 1074) 0 2 n} 1 := by
    refine ⟨(Digraph.walkCost_nil.snoc hfirst).snoc hsecond, fun n hn => ?_⟩
    -- every arc to the target weighs at least one
    refine hn.induct (P := fun v n => v = 2 → 1 ≤ n) (by decide) ?_ rfl
    rintro u v c m - - ⟨w, harc, hm⟩ rfl
    have hpos : 0 < m := by
      rcases Nat.eq_zero_or_pos m with rfl | hpos
      · rcases signedRoad_arcs harc with ⟨-, h, -⟩ | ⟨-, -, hw⟩ | ⟨-, -, hw⟩
        · exact absurd h (by decide)
        · exact absurd (hunits.2.1.symm.trans (hw ▸ hm)) (by decide +kernel)
        · exact absurd (hunits.2.2.symm.trans (hw ▸ hm)) (by decide +kernel)
      · exact hpos
    exact Nat.le_trans hpos (Nat.le_add_left m c)
  obtain ⟨result, hresult, hexact, -⟩ := dijkstra_wholeCosts lineDistance _ signedRoad
    signedRoad_built 1074 (by decide) hgrid 0 2 rfl rfl 1 hleast
  exact ⟨hleast, result, hresult, (hexact (by decide)).2.1⟩

end RouteEngine
