import RouteEngine.WholeCosts
import RouteEngine.Library.RoundedSum
import RouteEngine.Library.LeastCost

set_option autoImplicit false

/-! # How far a reported cost is from the exact one

The cost that a search reports is a sum that was rounded at every arc of the path. A path without
repeated nodes has fewer arcs than there are nodes, so the cost that Dijkstra's algorithm reports
is within as many factors `1 ± 2 ^ (-53)` of the exact least cost, and the exact cost of its path
within twice as many (`dijkstra_accuracy`). Costs are counted in units of `2 ^ (-1074)`. -/

namespace RouteEngine

open Binary64 NonnegBinary64

/-- An arc of the graph and its weight in units. -/
def Graph.UnitArc (g : Graph Binary64) (u v : NodeId) (m : Nat) : Prop :=
  ∃ w, g.HasArc u v w ∧ w.units = m

section

variable {distance : Coord Binary64 → Coord Binary64 → Binary64} {g : Graph Binary64}
  {staged : List (StagedArc Binary64)} {source target v : NodeId} {vs : List NodeId}

theorem Graph.growing_unitArc : Digraph.Growing g.UnitArc := fun _ _ _ _ _ => Nat.le_add_right _ _

namespace Graph.OverArcs

theorem unitsOf_weight (hg : g.OverArcs distance staged) {u v : NodeId} {w : Binary64}
    (harc : g.HasArc u v w) : unitsOf (ofBinary64 w).1 = w.units :=
  unitsOf_ofBinary64 (hg.admissible _ (hg.hasArc_iff_mem_staged.mp harc)).finite

/-- A walk, summed exactly and then in doubles. -/
theorem exists_within_of_exact (hg : g.OverArcs distance staged) {n : Nat}
    (hw : Digraph.Walk g.UnitArc source vs v n) :
    ∃ c, Digraph.Walk (g.unsigned staged).HasArc source vs v c ∧ Within vs.length n c := by
  refine hw.exists_related_length (R := fun k n c => Within k n c) within_zero ?_
  rintro u v m k n c ⟨w, harc, rfl⟩ hR
  exact ⟨ofBinary64 w, hg.hasArc_unsigned_iff.mpr ⟨w, harc, rfl⟩, hR.add (hg.unitsOf_weight harc)⟩

/-- A walk, summed in doubles and then exactly. -/
theorem exists_within_of_rounded (hg : g.OverArcs distance staged) {c : NonnegBinary64}
    (hw : Digraph.Walk (g.unsigned staged).HasArc source vs v c) :
    ∃ n, Digraph.Walk g.UnitArc source vs v n ∧ Within vs.length n c := by
  refine hw.exists_related_length (R := fun k c n => Within k n c) within_zero ?_
  intro u v w k c n harc hR
  obtain ⟨w', harc', rfl⟩ := hg.hasArc_unsigned_iff.mp harc
  exact ⟨w'.units, ⟨w', harc', rfl⟩, hR.add (hg.unitsOf_weight harc')⟩

/-- A walk without repeated nodes has fewer arcs than there are nodes. -/
theorem length_le_of_nodup (hg : g.OverArcs distance staged) (hs : g.contains source = true)
    {c : NonnegBinary64} (hw : Digraph.Walk (g.unsigned staged).HasArc source vs v c)
    (hnodup : (v :: vs).Nodup) : vs.length ≤ g.nodeCount - 1 := by
  have hcontains := hg.unsigned.contains_of_walk ((hg.contains_unsigned source).trans hs) hw
  have hle := length_le_nodeCount hnodup hcontains
  rw [nodeCount_unsigned, List.length_cons] at hle
  exact Nat.le_sub_one_of_lt hle

/-- **Rounding does not raise the least cost far above the exact one.** -/
theorem cost_le_of_least (hg : g.OverArcs distance staged) (hs : g.contains source = true)
    {least : Nat} (hleast : Digraph.LeastCost g.UnitArc source target least)
    {cost : NonnegBinary64}
    (hmin : ∀ c, Digraph.WalkCost (g.unsigned staged).HasArc source target c → cost ≤ c) :
    unitsOf cost.1 * (2 ^ 53) ^ (g.nodeCount - 1) ≤ least * (2 ^ 53 + 1) ^ (g.nodeCount - 1) := by
  -- some exactly shortest walk repeats no node, and it bounds the rounded costs
  obtain ⟨ws, hw⟩ := hleast.1
  obtain ⟨vs, n, hwalk, hle, hnodup⟩ := hw.exists_simple Graph.growing_unitArc
  obtain rfl : n = least := Nat.le_antisymm hle (hleast.2 ⟨vs, hwalk⟩)
  obtain ⟨c, hc, hwithin⟩ := hg.exists_within_of_exact hwalk
  have hshort := hwithin.mono (hg.length_le_of_nodup hs hc hnodup)
  exact (Nat.mul_le_mul_right _ (unitsOf_mono (hmin c ⟨vs, hc⟩))).trans hshort.le

end Graph.OverArcs

end

/-- **Dijkstra's costs on doubles are accurate.** With `n` nodes, the reported cost is at most
`(1 + 2 ^ (-53)) ^ (n - 1)` times the exact least cost; a cost that is reported with a route is at
least `(1 - 2 ^ (-53)) ^ (n - 1)` times the exact least cost, and so is it with respect to the
exact cost of the reported path. Where the upper bound stays below `2 ^ 1024`, a route is
reported. -/
theorem dijkstra_accuracy (distance : Coord Binary64 → Coord Binary64 → Binary64)
    (std : Comparison.Sorter (GraphBuilder.stagedBefore (F := Binary64)))
    (g : Graph Binary64) (hg : g.Built distance std) (source target : NodeId)
    (hs : g.contains source = true) (ht : g.contains target = true) (least : Nat)
    (hleast : Digraph.LeastCost g.UnitArc source target least) :
    ∃ result, dijkstra g source target = .ok result ∧
      result.cost.units * (2 ^ 53) ^ (g.nodeCount - 1)
        ≤ least * (2 ^ 53 + 1) ^ (g.nodeCount - 1) ∧
      (result.status = .found →
        least * (2 ^ 53 - 1) ^ (g.nodeCount - 1)
          ≤ result.cost.units * (2 ^ 53) ^ (g.nodeCount - 1) ∧
        ∃ before n, result.path = (target :: before).reverse ∧
          Digraph.Walk g.UnitArc source before target n ∧
          n * (2 ^ 53 - 1) ^ (g.nodeCount - 1)
            ≤ least * (2 ^ 53 + 1) ^ (g.nodeCount - 1)) ∧
      (least * (2 ^ 53 + 1) ^ (g.nodeCount - 1) < 2 ^ 2098 * (2 ^ 53) ^ (g.nodeCount - 1) →
        result.status = .found) := by
  obtain ⟨staged, hover⟩ := hg.exists_overArcs
  obtain ⟨result, hresult, hmin, hfound, hwalk⟩ := dijkstra_unsigned hover hs ht
  have hunits : (result.map toBinary64).cost.units = unitsOf result.cost.1 :=
    congrArg unitsOf (magnitude_toBinary64 result.cost)
  have hbound := hover.cost_le_of_least hs hleast fun c hc => hmin.2 (Or.inr hc)
  refine ⟨result.map toBinary64, hresult, by rwa [hunits], fun hstatus => ?_, fun hlt => ?_⟩
  · -- the reported walk, summed exactly
    obtain ⟨before, hpath, hnodup, hrounded⟩ := hwalk hstatus
    obtain ⟨n, hexact, hwithin⟩ := hover.exists_within_of_rounded hrounded
    have hnear := (hwithin.mono (hover.length_le_of_nodup hs hrounded hnodup)).ge
      (hfound.mp hstatus)
    rw [hunits]
    exact ⟨(Nat.mul_le_mul_right _ (hleast.2 ⟨before, hexact⟩)).trans hnear,
      before, n, hpath, hexact, hnear.trans hbound⟩
  · -- infinity counts as `2 ^ 2098` units
    refine hfound.mpr fun htop => ?_
    have hinfinity : unitsOf (⊤ : NonnegBinary64).1 = 2 ^ 2098 := by decide +kernel
    rw [htop, hinfinity] at hbound
    exact absurd hbound (Nat.not_le.mpr hlt)

/-- The exact least cost on the road with signs, with one as `one` units. -/
theorem signedRoad_leastCost {one : Nat} (hzero : negZero.units = 0)
    (hone : (1 : Binary64).units = one) (htwo : (1 + 1 : Binary64).units = one + one) :
    Digraph.LeastCost signedRoad.UnitArc 0 2 one := by
  have hfirst : signedRoad.UnitArc 0 1 0 :=
    ⟨negZero, ⟨[⟨1, negZero⟩, ⟨2, 1 + 1⟩], rfl, List.mem_cons_self⟩, hzero⟩
  have hsecond : signedRoad.UnitArc 1 2 one :=
    ⟨1, ⟨[⟨2, 1⟩], rfl, List.mem_cons_self⟩, hone⟩
  constructor
  · have hwalk := (Digraph.walkCost_nil.snoc hfirst).snoc hsecond
    have hcost : 0 + 0 + one = one := by omega
    rwa [hcost] at hwalk
  · -- every arc to the target weighs at least one
    intro n hn
    have hsource : (0 : NodeId) = 2 → one ≤ 0 := fun h => absurd h (by decide)
    refine hn.induct (P := fun v n => v = 2 → one ≤ n) hsource ?_ rfl
    rintro u v c m - - ⟨w, harc, hw⟩ rfl
    refine Nat.le_trans ?_ (Nat.le_add_left m c)
    rcases signedRoad_arcs harc with ⟨-, h, -⟩ | ⟨-, -, heq⟩ | ⟨-, -, heq⟩
    · exact absurd h (by decide)
    · rw [← hw, heq, htwo]
      exact Nat.le_add_left _ _
    · rw [← hw, heq, hone]

/-- On the road with signs the least cost is `1`, and three nodes allow two factors. -/
theorem dijkstra_accuracy_signedRoad :
    ∃ result, dijkstra signedRoad 0 2 = .ok result ∧
      result.cost.units * (2 ^ 53) ^ 2 ≤ (1 : Binary64).units * (2 ^ 53 + 1) ^ 2 := by
  obtain ⟨result, hresult, hle, -⟩ := dijkstra_accuracy lineDistance _ signedRoad
    signedRoad_built 0 2 rfl rfl _
    (signedRoad_leastCost (by decide +kernel) rfl (by decide +kernel))
  have hnodes : signedRoad.nodeCount - 1 = 2 := rfl
  rw [hnodes] at hle
  exact ⟨result, hresult, hle⟩

end RouteEngine
