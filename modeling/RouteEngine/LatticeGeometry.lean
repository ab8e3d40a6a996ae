import Mathlib.Analysis.Real.Sqrt
import RouteEngine.LatticeExact
import RouteEngine.Library.DisplacedGrid

set_option autoImplicit false

/-! # The geometry of the lattice

Over exact arithmetic a unit draw is at least zero and below one (`exactDraw_range`), so a site
leaves its grid position by at most `jitter * spacing` in each axis (`siteAt_near`). The jitter is
below one half, so no two nodes coincide and no arc has length zero (`generate_geometry`). -/

namespace RouteEngine

variable {K : Type} [Field K]

/-- The point over the scalars with an infinity. -/
def Coord.exact (p : Coord K) : Coord (WithTop K) := ⟨p.x, p.y⟩

/-! ## Draws and offsets -/

/-- Draw `k` of the stream as a number of the field. -/
def SplitMix64.exactDraw (K : Type) [Field K] (rng : SplitMix64) (k : Nat) : K :=
  ((rng.skip k).next.1 >>> 11).toNat * ((1 + 1) ^ 53)⁻¹

variable [LinearOrder K]

theorem SplitMix64.draw_eq_exactDraw (rng : SplitMix64) (k : Nat) :
    (rng.draw k : WithTop K) = rng.exactDraw K k := rfl

variable [IsStrictOrderedRing K]

/-- **A unit draw is at least zero and below one.** -/
theorem SplitMix64.exactDraw_range (rng : SplitMix64) (k : Nat) :
    0 ≤ rng.exactDraw K k ∧ rng.exactDraw K k < 1 := by
  have hpos : (0 : K) < (1 + 1) ^ 53 := by positivity
  have hbits : (((rng.skip k).next.1 >>> 11).toNat : K) < (1 + 1) ^ 53 := by
    rw [one_add_one_eq_two]
    exact_mod_cast SplitMix64.top_bits_lt (rng.skip k).next.1
  constructor
  · exact mul_nonneg (Nat.cast_nonneg _) (inv_pos.mpr hpos).le
  · calc rng.exactDraw K k
        < (1 + 1) ^ 53 * ((1 + 1) ^ 53)⁻¹ := mul_lt_mul_of_pos_right hbits (inv_pos.mpr hpos)
      _ = 1 := mul_inv_cancel₀ hpos.ne'

/-- The offset of a draw, from the interval centred at zero. -/
theorem abs_offset_le {amplitude drawn : K} (hamplitude : 0 ≤ amplitude) (hzero : 0 ≤ drawn)
    (hone : drawn < 1) : |(drawn - (1 + 1)⁻¹) * (1 + 1) * amplitude| ≤ amplitude := by
  have htwice : (drawn - (1 + 1)⁻¹) * (1 + 1) = 2 * drawn - 1 := by
    rw [sub_mul, inv_mul_cancel₀ (by norm_num)]
    ring
  have hcentred : |(drawn - (1 + 1)⁻¹) * (1 + 1)| ≤ 1 := by
    rw [htwice]
    exact abs_le.mpr ⟨by linarith, by linarith⟩
  calc |(drawn - (1 + 1)⁻¹) * (1 + 1) * amplitude|
      = |(drawn - (1 + 1)⁻¹) * (1 + 1)| * amplitude := by rw [abs_mul, abs_of_nonneg hamplitude]
    _ ≤ amplitude := mul_le_of_le_one_left hamplitude hcentred

namespace GeneratorParams

variable {params : GeneratorParams (WithTop K)} {spacing jitter : K}

/-! ## The sites -/

/-- The finite numbers that the validator accepts for the spacing and the jitter. -/
structure Scale (params : GeneratorParams (WithTop K)) (spacing jitter : K) : Prop where
  spacing_eq : params.spacing = spacing
  jitter_eq : params.jitter = jitter
  spacing_pos : 0 < spacing
  jitter_nonneg : 0 ≤ jitter
  jitter_lt : 2 * jitter < 1

theorem Usable.scale (h : params.Usable) : ∃ spacing jitter : K, params.Scale spacing jitter := by
  obtain ⟨spacing, hspacing⟩ := WithTop.ne_top_iff_exists.mp
    ((isFinite_eq_true_iff _).mp h.spacing_finite)
  obtain ⟨jitter, hjitter⟩ := WithTop.ne_top_iff_exists.mp
    ((isFinite_eq_true_iff _).mp h.jitter_finite)
  have hpos := h.spacing_pos
  have hnonneg := h.jitter_nonneg
  have hhalf := h.jitter_lt
  rw [← hspacing] at hpos
  rw [← hjitter] at hnonneg hhalf
  have hlt : jitter < (1 + 1)⁻¹ := WithTop.coe_lt_coe.mp (not_le.mp hhalf)
  refine ⟨spacing, jitter, hspacing.symm, hjitter.symm, ?_, ?_, ?_⟩
  · exact WithTop.coe_lt_coe.mp (not_le.mp hpos)
  · exact WithTop.coe_le_coe.mp (not_lt.mp hnonneg)
  · calc 2 * jitter
        < 2 * (1 + 1)⁻¹ := mul_lt_mul_of_pos_left hlt two_pos
      _ = 1 := by rw [one_add_one_eq_two, mul_inv_cancel₀ two_ne_zero]

/-- **A site stays near its grid position.** -/
theorem Scale.siteAt_near (h : params.Scale spacing jitter) (i : Nat) :
    ∃ p : Coord K, params.siteAt i = p.exact ∧
      Grid.NearSite spacing (jitter * spacing) (i / params.width.toNat) (i % params.width.toNat)
        p.x p.y := by
  have hamplitude : 0 ≤ jitter * spacing := mul_nonneg h.jitter_nonneg h.spacing_pos.le
  let rng : SplitMix64 := ⟨params.seed⟩
  let place (n k : Nat) : K := n * spacing
    + (rng.exactDraw K k - (1 + 1)⁻¹) * (1 + 1) * (jitter * spacing)
  have hplace : ∀ n k, Grid.NearMark spacing (jitter * spacing) n (place n k) := by
    intro n k
    obtain ⟨hzero, hone⟩ := rng.exactDraw_range (K := K) k
    show |place n k - n * spacing| ≤ jitter * spacing
    rw [add_sub_cancel_left]
    exact abs_offset_le hamplitude hzero hone
  refine ⟨⟨place (i % params.width.toNat) (2 * i), place (i / params.width.toNat) (2 * i + 1)⟩,
    ?_, hplace _ _, hplace _ _⟩
  unfold siteAt drawAt
  rw [h.spacing_eq, h.jitter_eq, SplitMix64.draw_eq_exactDraw, SplitMix64.draw_eq_exactDraw]
  rfl

theorem Scale.gap_eq (h : params.Scale spacing jitter) :
    spacing - 2 * (jitter * spacing) = spacing * (1 - 2 * jitter) ∧
      0 < spacing * (1 - 2 * jitter) :=
  ⟨by ring, mul_pos h.spacing_pos (sub_pos.mpr h.jitter_lt)⟩

omit [IsStrictOrderedRing K] in
/-- Connected sites are adjacent in the table. -/
theorem Connects.adjacent {i j : Nat} (h : params.Connects i j) :
    Grid.Adjacent (i / params.width.toNat) (i % params.width.toNat) (j / params.width.toNat)
      (j % params.width.toNat) := by
  cases h with
  | @horizontal r c hr hc =>
      rw [siteIndex_div (by omega), siteIndex_mod (by omega), siteIndex_div hc, siteIndex_mod hc]
      exact ⟨by omega, by omega, by omega, by omega, by omega⟩
  | @vertical r c hr hc =>
      rw [siteIndex_div hc, siteIndex_mod hc, siteIndex_div hc, siteIndex_mod hc]
      exact ⟨by omega, by omega, by omega, by omega, by omega⟩
  | @falling r c hr hc =>
      rw [siteIndex_div (by omega), siteIndex_mod (by omega), siteIndex_div hc, siteIndex_mod hc]
      exact ⟨by omega, by omega, by omega, by omega, by omega⟩
  | @rising r c hr hc =>
      rw [siteIndex_div hc, siteIndex_mod hc, siteIndex_div (by omega), siteIndex_mod (by omega)]
      exact ⟨by omega, by omega, by omega, by omega, by omega⟩

/-! ## The graph -/

/-- An arc of weight `w` from `p` to `q`: its ends keep apart in some axis and close in each, and
it has a length. -/
structure ArcSpan (d : EvenDistance K) (spacing jitter : K) (p q : Coord K) (w : WithTop K) :
    Prop where
  apart : spacing * (1 - 2 * jitter) ≤ |q.x - p.x| ∨ spacing * (1 - 2 * jitter) ≤ |q.y - p.y|
  close_x : |q.x - p.x| ≤ spacing * (1 + 2 * jitter)
  close_y : |q.y - p.y| ≤ spacing * (1 + 2 * jitter)
  weight_eq : w = (d.hypot (q.x - p.x) (q.y - p.y) : K)
  weight_pos : 0 < w

/-- The nodes keep to the sites of the grid, and the arcs to the gaps between them. -/
structure Jittered (params : GeneratorParams (WithTop K)) (d : EvenDistance K)
    (spacing jitter : K) (g : Graph (WithTop K)) : Prop where
  nodeCount : g.nodeCount = params.width.toNat * params.height.toNat
  /-- The node of a row and a column stays near its site. -/
  place : ∀ r c, r < params.height.toNat → c < params.width.toNat → ∃ p : Coord K,
    g.coordinate (UInt32.ofNat (r * params.width.toNat + c)) = .ok p.exact ∧
      |p.x - c * spacing| ≤ jitter * spacing ∧ |p.y - r * spacing| ≤ jitter * spacing
  distinct : ∀ u v p, g.coordinate u = .ok p → g.coordinate v = .ok p → u = v
  gap_pos : 0 < spacing * (1 - 2 * jitter)
  arc : ∀ u v w, g.HasArc u v w → ∃ p q : Coord K,
    g.coordinate u = .ok p.exact ∧ g.coordinate v = .ok q.exact ∧ ArcSpan d spacing jitter p q w

variable {d : EvenDistance K}

/-- What an arc between adjacent sites spans, in either direction. -/
theorem Scale.arcSpan (h : params.Scale spacing jitter)
    (hseparates : ∀ x y, d.hypot x y = 0 → x = 0 ∧ y = 0) {i j : Nat}
    (hadjacent : Grid.Adjacent (i / params.width.toNat) (i % params.width.toNat)
      (j / params.width.toNat) (j % params.width.toNat)) :
    ∃ p q : Coord K, params.siteAt i = p.exact ∧ params.siteAt j = q.exact ∧
      ArcSpan d spacing jitter p q (d.lift (params.siteAt i) (params.siteAt j)) := by
  obtain ⟨p, hp, hnear⟩ := h.siteAt_near i
  obtain ⟨q, hq, hnear'⟩ := h.siteAt_near j
  obtain ⟨hgap, hpos⟩ := h.gap_eq
  have hsum : spacing + 2 * (jitter * spacing) = spacing * (1 + 2 * jitter) := by ring
  have hapart := hnear.apart h.spacing_pos.le hnear' hadjacent.ne
  have hclose := hnear.close h.spacing_pos.le hnear' hadjacent
  rw [hgap] at hapart
  rw [hsum] at hclose
  -- a length of zero would bring the ends together in both axes
  have hlength : 0 < d.hypot (q.x - p.x) (q.y - p.y) := by
    refine lt_of_le_of_ne (d.nonneg _ _) fun hzero => ?_
    obtain ⟨hx, hy⟩ := hseparates _ _ hzero.symm
    rw [hx, hy, abs_zero, or_self] at hapart
    exact absurd hpos (not_lt.mpr hapart)
  refine ⟨p, q, hp, hq, hapart, hclose.1, hclose.2, ?_, ?_⟩
  · rw [hp, hq]
    rfl
  · rw [hp, hq]
    exact WithTop.coe_lt_coe.mpr hlength

/-- **Two sites at one point are the same site.** -/
theorem Scale.siteAt_inj (h : params.Scale spacing jitter) {i j : Nat}
    (heq : params.siteAt i = params.siteAt j) : i = j := by
  obtain ⟨p, hp, hnear⟩ := h.siteAt_near i
  obtain ⟨q, hq, hnear'⟩ := h.siteAt_near j
  obtain ⟨hgap, hpos⟩ := h.gap_eq
  have hpoint : p.exact = q.exact := by rw [← hp, ← hq, heq]
  have hx : q.x = p.x := WithTop.coe_injective (congrArg Coord.x hpoint).symm
  have hy : q.y = p.y := WithTop.coe_injective (congrArg Coord.y hpoint).symm
  rw [hx, hy] at hnear'
  obtain ⟨hrow, hcol⟩ := hnear.unique h.spacing_pos.le (hgap ▸ hpos) hnear'
  rw [← params.siteIndex_div_mod i, hrow, hcol, siteIndex_div_mod]

omit [IsStrictOrderedRing K] in
theorem Fits.coordinate_eq (h : params.Fits)
    (std : Comparison.Sorter (GraphBuilder.stagedBefore (F := WithTop K))) {i : Nat}
    (hi : i < params.sites) :
    (params.latticeGraph d.lift std).coordinate (UInt32.ofNat i) = .ok (params.siteAt i) := by
  have hnodes : (params.latticeGraph d.lift std).nodeCount = params.sites :=
    params.length_coordinates
  rw [RouteEngine.coordinate_eq ((Graph.contains_iff _ _).mpr (by
    rwa [h.toNat_ofNat hi, hnodes]))]
  exact congrArg Except.ok (coordAt_site h hi)

theorem Usable.jittered (h : params.Usable) (hscale : params.Scale spacing jitter)
    (hadmits : params.Admits d.lift)
    (hseparates : ∀ x y, d.hypot x y = 0 → x = 0 ∧ y = 0)
    (std : Comparison.Sorter (GraphBuilder.stagedBefore (F := WithTop K))) :
    params.Jittered d spacing jitter (params.latticeGraph d.lift std) := by
  have hover : (params.latticeGraph d.lift std).OverArcs _ _ := h.overArcs hadmits
  have hnodes : (params.latticeGraph d.lift std).nodeCount = params.sites :=
    params.length_coordinates
  have hcoordinate : ∀ {i}, i < params.sites →
      (params.latticeGraph d.lift std).coordinate (UInt32.ofNat i) = .ok (params.siteAt i) :=
    fun hi => h.coordinate_eq std hi
  refine ⟨by rw [hnodes, sites, Nat.mul_comm], ?_, ?_, hscale.gap_eq.2, ?_⟩
  · intro r c hr hc
    obtain ⟨p, hp, hx, hy⟩ := hscale.siteAt_near (params.siteIndex r c)
    rw [siteIndex_mod hc] at hx
    rw [siteIndex_div hc] at hy
    refine ⟨p, ?_, hx, hy⟩
    rw [← hp]
    exact hcoordinate (number_lt hr hc)
  · -- a coordinate belongs to the site with the number of its node
    intro u v p hu hv
    have hsite : ∀ {w}, (params.latticeGraph d.lift std).coordinate w = .ok p →
        params.siteAt w.toNat = p := by
      intro w hw
      have hlt := (Graph.contains_iff _ _).mp (contains_of_coordinate hw)
      rw [hnodes] at hlt
      rw [← UInt32.ofNat_toNat (x := w), hcoordinate hlt] at hw
      exact Except.ok.inj hw
    exact UInt32.toNat_inj.mp (hscale.siteAt_inj ((hsite hu).trans (hsite hv).symm))
  · intro u v w harc
    obtain ⟨i, j, hconnects, hweight, hends⟩ := mem_latticeArcs_iff.mp
      ((std.perm _).mem_iff.mp ((hover.hasArc_iff u v w).mp harc))
    change w = _ at hweight
    obtain ⟨hlt, hle⟩ := hconnects.lt
    -- the two arcs of a connection share its length
    simp only [StagedArc.ends, Prod.mk.injEq] at hends
    rcases hends with ⟨rfl, rfl⟩ | ⟨rfl, rfl⟩
    · obtain ⟨p, q, hp, hq, hspan⟩ := hscale.arcSpan hseparates hconnects.adjacent
      rw [hcoordinate (hlt.trans hle), hcoordinate hle, hweight]
      exact ⟨p, q, by rw [hp], by rw [hq], hspan⟩
    · obtain ⟨p, q, hp, hq, hspan⟩ := hscale.arcSpan hseparates hconnects.adjacent.symm
      rw [hcoordinate (hlt.trans hle), hcoordinate hle, hweight, ← d.lift_comm]
      exact ⟨p, q, by rw [hp], by rw [hq], hspan⟩

end GeneratorParams

/-- **The geometry of the generated lattice**: whenever the generator returns, the nodes stay
near the sites of the grid and apart from each other, and every arc has a length between two
bounds in the axes. -/
theorem generate_geometry {K : Type} [Field K] [LinearOrder K] [IsStrictOrderedRing K]
    (d : EvenDistance K) (hseparates : ∀ x y, d.hypot x y = 0 → x = 0 ∧ y = 0)
    (std : Comparison.Sorter (GraphBuilder.stagedBefore (F := WithTop K)))
    (params : GeneratorParams (WithTop K)) (g : Graph (WithTop K))
    (hrun : generate d.lift std params = .ok g) :
    ∃ spacing jitter : K, params.spacing = spacing ∧ params.jitter = jitter ∧
      params.Jittered d spacing jitter g := by
  obtain ⟨husable, hadmits, -, rfl⟩ := GeneratorParams.generate_eq_ok_iff.mp hrun
  obtain ⟨spacing, jitter, hscale⟩ := husable.scale
  exact ⟨spacing, jitter, hscale.spacing_eq, hscale.jitter_eq,
    husable.jittered hscale hadmits hseparates std⟩

/-- The length of the hypotenuse. -/
noncomputable def hypotenuse : EvenDistance ℝ where
  hypot x y := Real.sqrt (x ^ 2 + y ^ 2)
  neg_left x y := by rw [neg_sq]
  neg_right x y := by rw [neg_sq]
  nonneg _ _ := Real.sqrt_nonneg _

theorem hypotenuse_separates (x y : ℝ) (h : hypotenuse.hypot x y = 0) : x = 0 ∧ y = 0 := by
  have hsum : x ^ 2 + y ^ 2 = 0 := (Real.sqrt_eq_zero (by positivity)).mp h
  obtain ⟨hx, hy⟩ := (add_eq_zero_iff_of_nonneg (sq_nonneg x) (sq_nonneg y)).mp hsum
  exact ⟨(pow_eq_zero_iff two_ne_zero).mp hx, (pow_eq_zero_iff two_ne_zero).mp hy⟩

/-- One cell of real numbers. -/
noncomputable def realSquareParams : GeneratorParams (WithTop ℝ) where
  width := 2
  height := 2
  seed := 0
  spacing := ((1 : ℝ) : WithTop ℝ)
  jitter := (((1 + 1 + 1)⁻¹ : ℝ) : WithTop ℝ)
  diagonalRate := (((1 + 1)⁻¹ : ℝ) : WithTop ℝ)

theorem realSquareParams_usable : realSquareParams.Usable where
  width_pos := by decide
  height_pos := by decide
  sites_le := by decide
  spacing_finite := (isFinite_eq_true_iff _).mpr WithTop.coe_ne_top
  spacing_pos := not_le.mpr (WithTop.coe_lt_coe.mpr one_pos)
  jitter_finite := (isFinite_eq_true_iff _).mpr WithTop.coe_ne_top
  jitter_nonneg := not_lt.mpr (WithTop.coe_le_coe.mpr (by norm_num))
  jitter_lt := not_le.mpr (WithTop.coe_lt_coe.mpr (by norm_num))
  rate_finite := (isFinite_eq_true_iff _).mpr WithTop.coe_ne_top
  rate_nonneg := not_lt.mpr (WithTop.coe_le_coe.mpr (by norm_num))
  rate_le := not_lt.mpr (WithTop.coe_le_coe.mpr (by norm_num))

theorem realSquareParams_generates
    (std : Comparison.Sorter (GraphBuilder.stagedBefore (F := WithTop ℝ))) :
    ∃ g, generate hypotenuse.lift std realSquareParams = .ok g := by
  have hcap : realSquareParams.arcCount ≤ maxArcCount := by
    unfold GeneratorParams.arcCount
    -- the one cell has two diagonals at most
    refine le_trans (Nat.mul_le_mul_left 2 (Nat.add_le_add_left List.countP_le_length _)) ?_
    rw [List.length_range]
    decide
  have hadmits := realSquareParams_usable.admits hypotenuse hcap
  have hlattice := realSquareParams_usable.isLattice hypotenuse std hadmits
  exact ⟨_, GeneratorParams.generate_eq_ok_iff.mpr
    ⟨realSquareParams_usable, hadmits, hlattice.passes, rfl⟩⟩

theorem generate_geometry_square :
    ∃ g, generate hypotenuse.lift (Comparison.insertionSort _) realSquareParams = .ok g ∧
      ∃ spacing jitter : ℝ, realSquareParams.spacing = spacing ∧
        realSquareParams.jitter = jitter ∧
        realSquareParams.Jittered hypotenuse spacing jitter g := by
  obtain ⟨g, hrun⟩ := realSquareParams_generates (Comparison.insertionSort _)
  exact ⟨g, hrun, generate_geometry hypotenuse hypotenuse_separates _ realSquareParams g hrun⟩

end RouteEngine
