import RouteEngine.DiagonalRate
import RouteEngine.SearchDoubles

set_option autoImplicit false

/-! # Routes in a denser network

A higher diagonal rate only adds arcs, and an arc that is added cannot make a route dearer, not
even on doubles: every walk of the sparser network is there in the denser one with the same folded
cost (`WalkCost.mono`), and Dijkstra finds the least of the folded costs. -/

namespace RouteEngine

open Binary64

/-! ## Searches in a graph with more arcs -/

section

variable {distance distance' : Coord Binary64 → Coord Binary64 → Binary64}
  {g g' : Graph Binary64} {staged staged' : List (StagedArc Binary64)} {source target : NodeId}

/-- **A route that is reported in a graph is not missed where there are more arcs**, and the one
that Dijkstra reports there is not dearer. -/
theorem dijkstra_of_more_arcs (hg : g.OverArcs distance staged)
    (hg' : g'.OverArcs distance' staged') (hdistance : UnsignedDistance distance)
    (hmore : ∀ ⦃u v w⦄, g.HasArc u v w → g'.HasArc u v w)
    (hs' : g'.contains source = true) (ht' : g'.contains target = true) {algorithm : Algorithm}
    {result : SearchResult Binary64}
    (hresult : runSearch distance g source target algorithm = .ok result)
    (hfound : result.status = .found) :
    ∃ result', dijkstra g' source target = .ok result' ∧ result'.status = .found ∧
      result'.cost ≤ result.cost := by
  have hsound := soundOnDoubles_of_eq_ok hg hdistance hresult
  obtain ⟨result', hresult', hiff, hle⟩ := dijkstra_least_doubles hg' hs' ht'
  have hwalk : Digraph.WalkCost g'.HasArc source target result.cost :=
    (hsound.walk hfound).mono hmore
  exact ⟨result', hresult', hiff.mpr ⟨_, hsound.finite hfound, hwalk⟩, hle _ hwalk⟩

end

/-! ## Two rates -/

namespace GeneratorParams

variable {distance : Coord Binary64 → Coord Binary64 → Binary64}
  {std : Comparison.Sorter (GraphBuilder.stagedBefore (F := Binary64))}
  {params : GeneratorParams Binary64} {r₁ r₂ : Binary64}

/-- The arcs at the smaller rate are there at the larger, with the same weights. -/
theorem hasArc_mono_rate (hle : r₁ ≤ r₂)
    (hg₁ : ((params.withRate r₁).latticeGraph distance std).OverArcs distance
      (std.sort ((params.withRate r₁).latticeArcs distance)))
    (hg₂ : ((params.withRate r₂).latticeGraph distance std).OverArcs distance
      (std.sort ((params.withRate r₂).latticeArcs distance))) ⦃u v : NodeId⦄ ⦃w : Binary64⦄
    (harc : ((params.withRate r₁).latticeGraph distance std).HasArc u v w) :
    ((params.withRate r₂).latticeGraph distance std).HasArc u v w := by
  have hmem := (std.perm _).mem_iff.mp (hg₁.hasArc_iff_mem_staged.mp harc)
  exact hg₂.hasArc_iff_mem_staged.mpr
    ((std.perm _).mem_iff.mpr ((latticeArcs_sublist hle).subset hmem))

/-- The rate does not change which identifiers are nodes. -/
theorem contains_withRate (u : NodeId) :
    ((params.withRate r₁).latticeGraph distance std).contains u
      = ((params.withRate r₂).latticeGraph distance std).contains u :=
  Eq.trans (b := decide (u.toNat < params.coordinates.length)) rfl rfl

end GeneratorParams

/-- **Diagonals never make a route dearer.** Two networks differ only in the diagonal rate. A
target that some algorithm finds in the sparser one is found in the denser one, by Dijkstra's
algorithm, for at most the reported cost, on doubles and with every rounding. -/
theorem diagonalRate_routes (distance : Coord Binary64 → Coord Binary64 → Binary64)
    (hdistance : UnsignedDistance distance)
    (std : Comparison.Sorter (GraphBuilder.stagedBefore (F := Binary64)))
    (params : GeneratorParams Binary64) (r₁ r₂ : Binary64) (hle : r₁ ≤ r₂)
    (g₁ g₂ : Graph Binary64) (h₁ : generate distance std (params.withRate r₁) = .ok g₁)
    (h₂ : generate distance std (params.withRate r₂) = .ok g₂) (source target : NodeId)
    (algorithm : Algorithm) (result : SearchResult Binary64)
    (hresult : runSearch distance g₁ source target algorithm = .ok result)
    (hfound : result.status = .found) :
    ∃ result', dijkstra g₂ source target = .ok result' ∧ result'.status = .found ∧
      result'.cost ≤ result.cost := by
  obtain ⟨husable₁, hadmits₁, -, rfl⟩ := GeneratorParams.generate_eq_ok_iff.mp h₁
  obtain ⟨husable₂, hadmits₂, -, rfl⟩ := GeneratorParams.generate_eq_ok_iff.mp h₂
  obtain ⟨hs, ht, -⟩ := of_runSearch_eq_ok hresult
  exact dijkstra_of_more_arcs (husable₁.overArcs hadmits₁) (husable₂.overArcs hadmits₂) hdistance
    (GeneratorParams.hasArc_mono_rate hle (husable₁.overArcs hadmits₁)
      (husable₂.overArcs hadmits₂))
    ((GeneratorParams.contains_withRate source).symm.trans hs)
    ((GeneratorParams.contains_withRate target).symm.trans ht) hresult hfound

/-- Across the square: two sides without diagonals, one diagonal with them. -/
theorem diagonalRate_routes_square :
    ∃ result', dijkstra ((squareOfDoubles.withRate 1).latticeGraph gridHypot.length
        (Comparison.insertionSort _)) 0 3 = .ok result' ∧ result'.status = .found ∧
      result'.cost ≤ 1 + 1 := by
  have hsquare : (runSearch gridHypot.length ((squareOfDoubles.withRate 0).latticeGraph
      gridHypot.length (Comparison.insertionSort _)) 0 3 .astarEuclidean).map
        (fun r => (r.status, r.cost)) = .ok (.found, 1 + 1) := by
    decide +kernel
  obtain ⟨result, hresult, heq⟩ := map_eq_ok.mp hsquare
  obtain ⟨hfound, hcost⟩ := Prod.mk.inj heq
  rw [← hcost]
  exact diagonalRate_routes gridHypot.length gridHypot_unsigned (Comparison.insertionSort _)
    squareOfDoubles 0 1 (by decide +kernel) _ _
    (GeneratorParams.generate_eq_of_isOk (by decide +kernel))
    (GeneratorParams.generate_eq_of_isOk (by decide +kernel)) 0 3 .astarEuclidean result hresult
    hfound

end RouteEngine
