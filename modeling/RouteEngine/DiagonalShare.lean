import RouteEngine.RandomUnit
import RouteEngine.DiagonalRate
import RouteEngine.SearchDoubles

set_option autoImplicit false

/-! # The share of the diagonals

Which diagonals a network has depends on the seed only through one draw for each of them
(`connects_falling_iff`, `connects_rising_iff`), and unit draws are uniform. So the diagonal rate
is the share of the seeds that a diagonal is there for, up to one step of the draws
(`diagonalRate_share`). -/

namespace RouteEngine

open Binary64

namespace GeneratorParams

/-! ## The draw of a diagonal -/

section

variable {F : Type} {params : GeneratorParams F} {r c r' c' : Nat}

theorem siteIndex_inj (hc : c < params.width.toNat) (hc' : c' < params.width.toNat)
    (heq : params.siteIndex r c = params.siteIndex r' c') : r = r' ∧ c = c' := by
  have hrow := congrArg (· / params.width.toNat) heq
  have hcol := congrArg (· % params.width.toNat) heq
  simp only [siteIndex_div hc, siteIndex_div hc'] at hrow
  simp only [siteIndex_mod hc, siteIndex_mod hc'] at hcol
  exact ⟨hrow, hcol⟩

variable [Mul F] [UnitArith F] [LT F] [DecidableLT F]

/-- The ends of a diagonal are joined by a diagonal of a cell. -/
theorem Across.cases_of_connects {i j : Nat} (hacross : params.Across i j)
    (hconnects : params.Connects i j) :
    ∃ r c, r + 1 < params.height.toNat ∧ c + 1 < params.width.toNat ∧
      (params.accepts (r * (params.width.toNat - 1) + c) false = true ∧
          (i, j) = (params.siteIndex r c, params.siteIndex (r + 1) (c + 1)) ∨
        params.accepts (r * (params.width.toNat - 1) + c) true = true ∧
          (i, j) = (params.siteIndex r (c + 1), params.siteIndex (r + 1) c)) := by
  rcases List.mem_append.mp (mem_connections_iff.mpr hconnects) with hback | hdiag
  · exact absurd hacross (not_across_of_mem_backbone hback)
  · obtain ⟨k, hk, hmem⟩ := List.mem_flatMap.mp hdiag
    obtain ⟨r, c, hr, hc, rfl, hends⟩ := cases_of_mem_diagonalsOf (List.mem_range.mp hk) hmem
    exact ⟨r, c, hr, hc, hends⟩

/-- **A falling diagonal is there when the first draw of its cell is below the rate.** -/
theorem connects_falling_iff (hr : r + 1 < params.height.toNat)
    (hc : c + 1 < params.width.toNat) :
    params.Connects (params.siteIndex r c) (params.siteIndex (r + 1) (c + 1)) ↔
      params.accepts (r * (params.width.toNat - 1) + c) false = true := by
  refine ⟨fun hconnects => ?_, fun h => .falling hr hc (of_decide_eq_true h)⟩
  obtain ⟨r', c', -, hc', ⟨hacc, heq⟩ | ⟨-, heq⟩⟩ :=
    (Across.falling hr hc).cases_of_connects hconnects
  · obtain ⟨rfl, rfl⟩ := siteIndex_inj (by omega) (by omega) (Prod.mk.inj heq).1
    exact hacc
  · -- a rising diagonal goes the other way
    have htop := (siteIndex_inj (by omega) (by omega) (Prod.mk.inj heq).1).2
    have hbottom := (siteIndex_inj (by omega) (by omega) (Prod.mk.inj heq).2).2
    omega

/-- **A rising diagonal is there when the second draw of its cell is below the rate.** -/
theorem connects_rising_iff (hr : r + 1 < params.height.toNat)
    (hc : c + 1 < params.width.toNat) :
    params.Connects (params.siteIndex r (c + 1)) (params.siteIndex (r + 1) c) ↔
      params.accepts (r * (params.width.toNat - 1) + c) true = true := by
  refine ⟨fun hconnects => ?_, fun h => .rising hr hc (of_decide_eq_true h)⟩
  obtain ⟨r', c', -, hc', ⟨-, heq⟩ | ⟨hacc, heq⟩⟩ :=
    (Across.rising hr hc).cases_of_connects hconnects
  · have htop := (siteIndex_inj (by omega) (by omega) (Prod.mk.inj heq).1).2
    have hbottom := (siteIndex_inj (by omega) (by omega) (Prod.mk.inj heq).2).2
    omega
  · obtain ⟨hrow, rfl⟩ := siteIndex_inj (by omega) (by omega) (Prod.mk.inj heq).2
    obtain rfl : r = r' := Nat.succ.inj hrow
    exact hacc

end

/-- The same parameters with another seed. -/
def withSeed {F : Type} (params : GeneratorParams F) (seed : UInt64) : GeneratorParams F :=
  { params with seed }

variable {params : GeneratorParams Binary64}

/-- **One draw decides about a diagonal**, at the same position of the stream for every seed. -/
theorem Across.exists_draw {i j : Nat} (hacross : params.Across i j) :
    ∃ k, ∀ seed, (params.withSeed seed).Connects i j ↔
      (SplitMix64.draw ⟨seed⟩ k : Binary64) < params.diagonalRate := by
  cases hacross with
  | @falling r c hr hc =>
      refine ⟨2 * params.sites + 2 * (r * (params.width.toNat - 1) + c), fun seed => ?_⟩
      have hiff : (params.withSeed seed).Connects (params.siteIndex r c)
          (params.siteIndex (r + 1) (c + 1)) ↔ _ := connects_falling_iff hr hc
      exact hiff.trans decide_eq_true_iff
  | @rising r c hr hc =>
      refine ⟨2 * params.sites + 2 * (r * (params.width.toNat - 1) + c) + 1, fun seed => ?_⟩
      have hiff : (params.withSeed seed).Connects (params.siteIndex r (c + 1))
          (params.siteIndex (r + 1) c) ↔ _ := connects_rising_iff hr hc
      exact hiff.trans decide_eq_true_iff

theorem Across.lt_sites {i j : Nat} (h : params.Across i j) : j < params.sites := by
  cases h with
  | falling hr hc => exact number_lt hr hc
  | rising hr hc => exact number_lt hr (Nat.lt_of_succ_lt hc)

/-! ## The arcs of a diagonal -/

section

variable {g : Graph Binary64} {distance : Coord Binary64 → Coord Binary64 → Binary64}
  {std : Comparison.Sorter (GraphBuilder.stagedBefore (F := Binary64))}

/-- The arcs join connected sites, either way. -/
theorem exists_hasArc_iff (hg : g.OverArcs distance (std.sort (params.latticeArcs distance)))
    {u v : NodeId} :
    (∃ w, g.HasArc u v w) ↔ ∃ i j, params.Connects i j ∧
      (u = UInt32.ofNat i ∧ v = UInt32.ofNat j ∨ u = UInt32.ofNat j ∧ v = UInt32.ofNat i) := by
  simp only [hg.hasArc_iff_mem_staged, (std.perm _).mem_iff, mem_latticeArcs_iff,
    StagedArc.ends, Prod.mk.injEq]
  constructor
  · rintro ⟨w, i, j, hconnects, -, hends⟩
    exact ⟨i, j, hconnects, hends⟩
  · rintro ⟨i, j, hconnects, hends⟩
    exact ⟨_, i, j, hconnects, rfl, hends⟩

theorem exists_hasArc_comm (hg : g.OverArcs distance (std.sort (params.latticeArcs distance)))
    {u v : NodeId} : (∃ w, g.HasArc v u w) ↔ ∃ w, g.HasArc u v w := by
  rw [exists_hasArc_iff hg, exists_hasArc_iff hg]
  refine exists_congr fun i => exists_congr fun j => and_congr_right fun _ => ?_
  exact or_comm.trans (or_congr and_comm and_comm)

/-- There is an arc between two sites when they are connected. -/
theorem Fits.exists_hasArc_iff_connects (h : params.Fits)
    (hg : g.OverArcs distance (std.sort (params.latticeArcs distance))) {i j : Nat}
    (hlt : i < j) (hj : j < params.sites) :
    (∃ w, g.HasArc (UInt32.ofNat i) (UInt32.ofNat j) w) ↔ params.Connects i j := by
  have hi : i < params.sites := hlt.trans hj
  rw [exists_hasArc_iff hg]
  refine ⟨?_, fun hconnects => ⟨i, j, hconnects, .inl ⟨rfl, rfl⟩⟩⟩
  rintro ⟨i', j', hconnects, ⟨hfirst, hsecond⟩ | ⟨hfirst, hsecond⟩⟩
  · obtain ⟨hlt', hj'⟩ := hconnects.lt
    obtain rfl := h.ofNat_inj hi (hlt'.trans hj') hfirst
    obtain rfl := h.ofNat_inj hj hj' hsecond
    exact hconnects
  · -- connections go from the earlier site to the later one
    obtain ⟨hlt', hj'⟩ := hconnects.lt
    obtain rfl := h.ofNat_inj hi hj' hfirst
    obtain rfl := h.ofNat_inj hj (hlt'.trans hj') hsecond
    exact absurd hlt (Nat.lt_asymm hlt')

end

/-! ## The share -/

/-- A rate that the validator accepts does not exceed one. -/
theorem Usable.rate_le_one (h : params.Usable) :
    NonnegBinary64.ofBinary64 params.diagonalRate ≤ SplitMix64.oneDouble := by
  refine not_lt.mp fun hlt => h.rate_le ?_
  rw [← NonnegBinary64.toBinary64_lt, SplitMix64.toBinary64_oneDouble] at hlt
  exact (NonnegBinary64.lt_toBinary64_ofBinary64 h.rate_finite h.rate_nonneg).mp hlt

/-- **The share of the seeds that draw below the rate**, at any position of the stream. -/
theorem Usable.ncard_draw_lt_rate (h : params.Usable) (k : Nat) :
    ∃ n, {seed : UInt64 | (SplitMix64.draw ⟨seed⟩ k : Binary64) < params.diagonalRate}.ncard
        = 2 ^ 11 * n ∧
      params.diagonalRate.units ≤ n * 2 ^ 1021 ∧
      n * 2 ^ 1021 < params.diagonalRate.units + 2 ^ 1021 := by
  have hstep : 0 < 2 ^ 1021 := by positivity
  obtain ⟨n, hlow, hhigh⟩ := SplitMix64.exists_multiple_ge params.diagonalRate.units hstep
  refine ⟨n, ?_, hlow, hhigh⟩
  have hone : params.diagonalRate.units ≤ 2 ^ 53 * 2 ^ 1021 := by
    rw [← NonnegBinary64.unitsOf_ofBinary64 h.rate_finite, ← SplitMix64.unitsOf_oneDouble]
    exact unitsOf_mono h.rate_le_one
  have hn : n ≤ 2 ^ 53 := SplitMix64.le_of_multiple_lt hhigh hone
  rw [← NonnegBinary64.unitsOf_ofBinary64 h.rate_finite] at hlow hhigh
  rw [← SplitMix64.ncard_draw_lt k hn hlow hhigh]
  simp only [NonnegBinary64.lt_toBinary64_ofBinary64 h.rate_finite h.rate_nonneg]

end GeneratorParams

/-- **The diagonal rate is the share of the seeds that a diagonal is there for.** For usable
parameters and the two ends of a diagonal of a cell there is a set of seeds, of `2 ^ 11 * n` out
of `2 ^ 64`, where `n` steps of `2 ^ (-53)` are the rate rounded up: a network that is generated
has the two arcs of the diagonal when the seed is in the set, and neither of them otherwise. -/
theorem diagonalRate_share (distance : Coord Binary64 → Coord Binary64 → Binary64)
    (std : Comparison.Sorter (GraphBuilder.stagedBefore (F := Binary64)))
    (params : GeneratorParams Binary64) (husable : validateGeneratorParams params = "")
    (i j : Nat) (hacross : params.Across i j) :
    ∃ (seeds : Set UInt64) (n : Nat), seeds.ncard = 2 ^ 11 * n ∧
      params.diagonalRate.units ≤ n * 2 ^ 1021 ∧
      n * 2 ^ 1021 < params.diagonalRate.units + 2 ^ 1021 ∧
      ∀ seed g, generate distance std (params.withSeed seed) = .ok g →
        ((∃ w, g.HasArc (UInt32.ofNat i) (UInt32.ofNat j) w) ↔ seed ∈ seeds) ∧
        ((∃ w, g.HasArc (UInt32.ofNat j) (UInt32.ofNat i) w) ↔ seed ∈ seeds) := by
  have hvalid : params.Usable := GeneratorParams.validateGeneratorParams_eq_empty_iff.mp husable
  obtain ⟨k, hdraw⟩ := hacross.exists_draw
  obtain ⟨n, hcount, hlow, hhigh⟩ := hvalid.ncard_draw_lt_rate k
  refine ⟨_, n, hcount, hlow, hhigh, fun seed g hg => ?_⟩
  obtain ⟨hseed, hadmits, -, rfl⟩ := GeneratorParams.generate_eq_ok_iff.mp hg
  have hover : ((params.withSeed seed).latticeGraph distance std).OverArcs distance _ :=
    hseed.overArcs hadmits
  have hj : j < params.sites := hacross.lt_sites
  have hforth := hseed.exists_hasArc_iff_connects hover hacross.lt hj
  exact ⟨hforth.trans (hdraw seed),
    (GeneratorParams.exists_hasArc_comm hover).trans (hforth.trans (hdraw seed))⟩

/-- At rate one half, each diagonal of the square is there for half of the seeds. -/
theorem diagonalRate_share_square :
    ∃ seeds : Set UInt64, seeds.ncard = 2 ^ 63 ∧
      ∀ seed g, generate gridHypot.length (Comparison.insertionSort _)
          ((squareOfDoubles.withRate UnitArith.half).withSeed seed) = .ok g →
        ((∃ w, g.HasArc 0 3 w) ↔ seed ∈ seeds) := by
  obtain ⟨seeds, n, hcount, hlow, hhigh, hseeds⟩ := diagonalRate_share gridHypot.length
    (Comparison.insertionSort _) (squareOfDoubles.withRate UnitArith.half) (by decide +kernel) 0 3
    (.falling (r := 0) (c := 0) (by decide) (by decide))
  have hunits : (squareOfDoubles.withRate UnitArith.half).diagonalRate.units
      = 2 ^ 52 * 2 ^ 1021 := by
    decide +kernel
  have hstep : 0 < 2 ^ 1021 := by positivity
  have hhalf : n = 2 ^ 52 :=
    Nat.le_antisymm (SplitMix64.le_of_multiple_lt hhigh hunits.le)
      (Nat.le_of_mul_le_mul_right (hunits.symm.le.trans hlow) hstep)
  refine ⟨seeds, ?_, fun seed g hg => (hseeds seed g hg).1⟩
  rw [hcount, hhalf, ← Nat.pow_add]

end RouteEngine
