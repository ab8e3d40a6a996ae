import RouteEngine.LatticeGraph
import RouteEngine.Optimality

set_option autoImplicit false

/-! # The generator over exact arithmetic

With an even distance the generator returns a graph for all parameters that the validator
accepts and whose arcs fit (`generate_lattice`): exactly the lattice that `Connects` describes,
connected and within the metric contract. -/

namespace RouteEngine

variable {K : Type} [Field K] [LinearOrder K]

/-- `hypot` of the coordinate differences, as far as the generator relies on it. -/
structure EvenDistance (K : Type) [Field K] [LinearOrder K] where
  hypot : K → K → K
  neg_left : ∀ x y, hypot (-x) y = hypot x y
  neg_right : ∀ x y, hypot x (-y) = hypot x y
  nonneg : ∀ x y, 0 ≤ hypot x y

namespace EvenDistance

variable (d : EvenDistance K)

/-- The distance on coordinates that are finite. -/
def lift (p q : Coord (WithTop K)) : WithTop K :=
  (d.hypot (q.finite.x - p.finite.x) (q.finite.y - p.finite.y) : K)

theorem lift_nonneg (p q : Coord (WithTop K)) : 0 ≤ d.lift p q :=
  WithTop.coe_le_coe.mpr (d.nonneg _ _)

theorem lift_ne_top (p q : Coord (WithTop K)) : d.lift p q ≠ ⊤ := WithTop.coe_ne_top

theorem lift_comm (p q : Coord (WithTop K)) : d.lift q p = d.lift p q := by
  unfold lift
  rw [← neg_sub q.finite.x, ← neg_sub q.finite.y, d.neg_left, d.neg_right]

end EvenDistance

namespace GeneratorParams

/-! ## The sites are finite -/

/-- The arithmetic of a coordinate stays finite. -/
theorem site_ne_top (n : Nat) {spacing jitter : WithTop K} (hspacing : spacing ≠ ⊤)
    (hjitter : jitter ≠ ⊤) (rng : SplitMix64) (k : Nat) :
    UnitArith.ofNat n * spacing + offset (jitter * spacing) (rng.draw k) ≠ ⊤ := by
  lift spacing to K using hspacing
  lift jitter to K using hjitter
  exact WithTop.coe_ne_top (a := (n : K) * spacing
    + (((rng.skip k).next.1 >>> 11).toNat * ((1 + 1) ^ 53)⁻¹ - (1 + 1)⁻¹) * (1 + 1)
      * (jitter * spacing))

variable {params : GeneratorParams (WithTop K)}

theorem Usable.admits (h : params.Usable) (d : EvenDistance K)
    (hcap : params.arcCount ≤ maxArcCount) : params.Admits d.lift where
  sites_finite := by
    have hspacing := (isFinite_eq_true_iff _).mp h.spacing_finite
    have hjitter := (isFinite_eq_true_iff _).mp h.jitter_finite
    intro c hc
    obtain ⟨i, -, rfl⟩ := List.mem_map.mp hc
    simp only [isFinite_eq_true_iff]
    exact ⟨site_ne_top _ hspacing hjitter _ _, site_ne_top _ hspacing hjitter _ _⟩
  weights := by
    intro a ha
    obtain ⟨i, j, -, hweight, -⟩ := mem_latticeArcs_iff.mp ha
    rw [hweight]
    exact ⟨(isFinite_eq_true_iff _).mpr (d.lift_ne_top _ _), not_lt.mpr (d.lift_nonneg _ _)⟩
  arcs_le := by
    rw [length_latticeArcs_eq]
    exact hcap

/-! ## The contract of the generator -/

/-- The indices that the passes compute in 32 bits are the numbers of the sites, in every row
and column that the loops visit. -/
structure IndicesExact {F : Type} (params : GeneratorParams F) : Prop where
  nodeCount : (params.width * params.height).toNat = params.width.toNat * params.height.toNat
  index : ∀ row col : UInt32, row < params.height → col < params.width →
    (row * params.width + col).toNat = row.toNat * params.width.toNat + col.toNat ∧
      ((row * params.width + col).toUInt64 + 1).toNat
        = row.toNat * params.width.toNat + col.toNat + 1
  nextCol : ∀ col : UInt32, col < params.width → (col + 1).toNat = col.toNat + 1
  nextRow : ∀ row : UInt32, row < params.height → (row + 1).toNat = row.toNat + 1
  right : ∀ row col : UInt32, row < params.height → col < params.width →
    col + 1 < params.width →
      (row * params.width + col + 1).toNat = row.toNat * params.width.toNat + (col.toNat + 1)
  below : ∀ row col : UInt32, row < params.height → row + 1 < params.height →
    col < params.width → (row * params.width + col + params.width).toNat
      = (row.toNat + 1) * params.width.toNat + col.toNat
  opposite : ∀ row col : UInt32, row < params.height → row + 1 < params.height →
    col < params.width → col + 1 < params.width →
      (row * params.width + col + params.width + 1).toNat
        = (row.toNat + 1) * params.width.toNat + (col.toNat + 1)

/-- The graph is the lattice that the parameters describe. -/
structure IsLattice (params : GeneratorParams (WithTop K)) (d : EvenDistance K)
    (g : Graph (WithTop K)) : Prop where
  nodeCount : g.nodeCount = params.width.toNat * params.height.toNat
  externalId : ∀ r c, r < params.height.toNat → c < params.width.toNat →
    g.externalId (UInt32.ofNat (r * params.width.toNat + c))
      = .ok (UInt64.ofNat (r * params.width.toNat + c + 1))
  /-- The arcs are those of the connections, both ways, once each. -/
  arcs : ∃ arcs, g.arcList = .ok arcs ∧ (arcs.map StagedArc.ends).Nodup ∧
    (∀ u v, (u, v) ∈ arcs.map StagedArc.ends ↔
      params.Connects u.toNat v.toNat ∨ params.Connects v.toNat u.toNat) ∧
    ∀ a ∈ arcs, a.source ≠ a.target ∧ ⟨a.target, a.source, a.weight⟩ ∈ arcs ∧
      a.weight = d.lift (coordAt g.coordinates a.source) (coordAt g.coordinates a.target)
  connected : ∀ u v, g.contains u = true → g.contains v = true →
    Digraph.Reachable g.HasArc u v
  passes : g.metric.passes = true
  found : ∀ algorithm u v, g.contains u = true → g.contains v = true →
    ∃ result, runSearch d.lift g u v algorithm = .ok result ∧ result.status = .found

section Indices

variable {F : Type} {params : GeneratorParams F}

/-- A sum that is the number of a site does not wrap. -/
theorem Fits.toNat_add (h : params.Fits) {a b : UInt32} (hlt : a.toNat + b.toNat < params.sites) :
    (a + b).toNat = a.toNat + b.toNat := by
  have hle := h.sites_le
  unfold maxSupportedNodeCount at hle
  rw [UInt32.toNat_add]
  exact Nat.mod_eq_of_lt (by omega)

theorem Fits.toNat_index (h : params.Fits) {row col : UInt32} (hrow : row < params.height)
    (hcol : col < params.width) :
    (row * params.width + col).toNat = params.siteIndex row.toNat col.toNat := by
  have hle := h.sites_le
  have hlt : row.toNat * params.width.toNat + col.toNat < params.sites :=
    number_lt (UInt32.lt_iff_toNat_lt.mp hrow) (UInt32.lt_iff_toNat_lt.mp hcol)
  unfold maxSupportedNodeCount at hle
  rw [UInt32.toNat_add, UInt32.toNat_mul, Nat.mod_add_mod, siteIndex]
  exact Nat.mod_eq_of_lt (by omega)

/-- A counter below its bound is followed by the next number. -/
theorem toNat_succ {n bound : UInt32} (h : n < bound) : (n + 1).toNat = n.toNat + 1 := by
  have hlt := UInt32.lt_iff_toNat_lt.mp h
  have hbound : bound.toNat < 4294967296 := bound.toNat_lt
  rw [UInt32.toNat_add]
  exact Nat.mod_eq_of_lt (by show n.toNat + 1 < 4294967296; omega)

theorem succ_toNat_lt {n bound : UInt32} (h : n < bound) (hnext : n + 1 < bound) :
    n.toNat + 1 < bound.toNat := by
  rw [← toNat_succ h]
  exact UInt32.lt_iff_toNat_lt.mp hnext

theorem Fits.indicesExact (h : params.Fits) : params.IndicesExact := by
  have hbelow : ∀ row col : UInt32, row < params.height → row + 1 < params.height →
      col < params.width → (row * params.width + col + params.width).toNat
        = params.siteIndex (row.toNat + 1) col.toNat := by
    intro row col hrow hnext hcol
    have hlt := number_lt (succ_toNat_lt hrow hnext) (UInt32.lt_iff_toNat_lt.mp hcol)
    have hindex := h.toNat_index hrow hcol
    rw [← siteIndex, siteIndex_succ] at hlt
    rw [h.toNat_add (by rwa [hindex]), hindex, siteIndex_succ]
  refine ⟨?_, fun row col hrow hcol => ⟨h.toNat_index hrow hcol, ?_⟩, fun _ => toNat_succ,
    fun _ => toNat_succ, fun row col hrow hcol hnext => ?_, hbelow,
    fun row col hrow hnext hcol hnext' => ?_⟩
  · rw [h.toNat_mul, sites, Nat.mul_comm]
  · have hindex := h.toNat_index hrow hcol
    have hlt : (row * params.width + col).toNat < 4294967296 :=
      (row * params.width + col).toNat_lt
    rw [hindex] at hlt
    rw [UInt64.toNat_add, UInt32.toNat_toUInt64, hindex]
    exact Nat.mod_eq_of_lt (by show _ + 1 < 18446744073709551616; omega)
  · have hlt := number_lt (UInt32.lt_iff_toNat_lt.mp hrow) (succ_toNat_lt hcol hnext)
    have hindex := h.toNat_index hrow hcol
    rw [h.toNat_add (by rw [hindex]; exact hlt), hindex]
    rfl
  · have hlt := number_lt (succ_toNat_lt hrow hnext) (succ_toNat_lt hcol hnext')
    have hindex := hbelow row col hrow hnext hcol
    rw [h.toNat_add (by rw [hindex]; exact hlt), hindex]
    rfl

end Indices

/-- The ends of the arcs are the connections, both ways. -/
theorem Fits.mem_ends_iff {F : Type} [UnitArith F] [Add F] [Sub F] [Mul F] [LT F] [DecidableLT F]
    {distance : Coord F → Coord F → F} {params : GeneratorParams F} (h : params.Fits)
    {u v : NodeId} :
    (u, v) ∈ (params.latticeArcs distance).map StagedArc.ends ↔
      params.Connects u.toNat v.toNat ∨ params.Connects v.toNat u.toNat := by
  simp only [List.mem_map, mem_latticeArcs_iff]
  constructor
  · rintro ⟨a, ⟨i, j, hconnects, -, hends⟩, huv⟩
    obtain ⟨hlt, hle⟩ := hconnects.lt
    have hi := h.toNat_ofNat (hlt.trans hle)
    have hj := h.toNat_ofNat hle
    rw [huv] at hends
    rcases hends with hends | hends
    · obtain ⟨rfl, rfl⟩ := Prod.mk.injEq _ _ _ _ ▸ hends
      exact Or.inl (by rwa [hi, hj])
    · obtain ⟨rfl, rfl⟩ := Prod.mk.injEq _ _ _ _ ▸ hends
      exact Or.inr (by rwa [hi, hj])
  · rintro (hconnects | hconnects)
    · exact ⟨⟨u, v, _⟩, ⟨_, _, hconnects, rfl, Or.inl (by simp [StagedArc.ends])⟩, rfl⟩
    · exact ⟨⟨u, v, _⟩, ⟨_, _, hconnects, rfl, Or.inr (by simp [StagedArc.ends])⟩, rfl⟩

theorem Fits.isLattice [IsStrictOrderedRing K] (h : params.Fits) (d : EvenDistance K)
    (std : Comparison.Sorter (GraphBuilder.stagedBefore (F := WithTop K)))
    (hadmits : params.Admits d.lift) : params.IsLattice d (params.latticeGraph d.lift std) := by
  have hover : (params.latticeGraph d.lift std).OverArcs _ _ := h.overArcs hadmits
  have hnodes : (params.latticeGraph d.lift std).nodeCount = params.sites :=
    params.length_coordinates
  have hpasses : (params.latticeGraph d.lift std).metric.passes = true :=
    latticeGraph_passes h (fun _ _ _ => le_rfl) (fun _ _ _ => (d.lift_comm _ _).le)
  have hperm := std.perm (params.latticeArcs d.lift)
  refine ⟨?_, ?_, ⟨_, hover.arcList_eq, ?_, ?_, ?_⟩,
    fun u v hu hv => latticeGraph_connected std h hadmits hu hv, hpasses, ?_⟩
  · rw [hnodes, sites, Nat.mul_comm]
  · intro r c hr hc
    have hlt := number_lt hr hc
    have hid := h.toNat_ofNat hlt
    rw [hover.externalId_eq (by rwa [hid, hnodes]), idAt, hid]
    show Except.ok ((params.externalIds[_]?).getD 0) = _
    rw [externalIds, List.getElem?_map, List.getElem?_range hlt]
    rfl
  · exact ((hperm.map _).nodup_iff).mpr h.nodup_ends
  · intro u v
    rw [(hperm.map _).mem_iff]
    exact h.mem_ends_iff
  · intro a ha
    obtain ⟨i, j, hconnects, hweight, hends⟩ := mem_latticeArcs_iff.mp (hperm.mem_iff.mp ha)
    obtain ⟨hlt, hle⟩ := hconnects.lt
    have hi : coordAt (params.latticeGraph d.lift std).coordinates _ = _ :=
      coordAt_site h (hlt.trans hle)
    have hj : coordAt (params.latticeGraph d.lift std).coordinates _ = _ := coordAt_site h hle
    have hback : ∀ x y, x = UInt32.ofNat i ∧ y = UInt32.ofNat j ∨
        x = UInt32.ofNat j ∧ y = UInt32.ofNat i →
        (⟨x, y, a.weight⟩ : StagedArc (WithTop K)) ∈ std.sort (params.latticeArcs d.lift) := by
      intro x y hxy
      refine hperm.mem_iff.mpr (mem_latticeArcs_iff.mpr ⟨i, j, hconnects, hweight, ?_⟩)
      simpa only [StagedArc.ends, Prod.mk.injEq] using hxy
    have hne : UInt32.ofNat i ≠ UInt32.ofNat j := fun heq =>
      hlt.ne (h.ofNat_inj (hlt.trans hle) hle heq)
    simp only [StagedArc.ends, Prod.mk.injEq] at hends
    rcases hends with ⟨hs, ht⟩ | ⟨hs, ht⟩
    · exact ⟨by rwa [hs, ht], hback _ _ (Or.inr ⟨ht, hs⟩), by rw [hs, ht, hi, hj, hweight]⟩
    · refine ⟨by rw [hs, ht]; exact hne.symm, hback _ _ (Or.inl ⟨ht, hs⟩), ?_⟩
      rw [hs, ht, hi, hj, hweight, d.lift_comm]
  · intro algorithm u v hu hv
    obtain ⟨result, hresult, hfound⟩ :=
      runSearch_tells_reachable hover d.lift_nonneg hpasses hu hv algorithm
    exact ⟨result, hresult, hfound.mpr (latticeGraph_connected std h hadmits hu hv)⟩

end GeneratorParams

/-- **The generator over exact arithmetic**: parameters that the validator accepts and whose arcs
fit give a graph, which is the lattice they describe; no index wraps on the way. -/
theorem generate_lattice {K : Type} [Field K] [LinearOrder K] [IsStrictOrderedRing K]
    (d : EvenDistance K) (std : Comparison.Sorter (GraphBuilder.stagedBefore (F := WithTop K)))
    (params : GeneratorParams (WithTop K)) (hvalid : validateGeneratorParams params = "")
    (hcap : params.arcCount ≤ maxArcCount) :
    params.IndicesExact ∧
      ∃ g, generate d.lift std params = .ok g ∧ params.IsLattice d g := by
  have husable := GeneratorParams.validateGeneratorParams_eq_empty_iff.mp hvalid
  have hadmits := husable.admits d hcap
  have hlattice := husable.isLattice d std hadmits
  exact ⟨husable.indicesExact, _,
    GeneratorParams.generate_eq_ok_iff.mpr ⟨husable, hadmits, hlattice.passes, rfl⟩, hlattice⟩

/-- The sum of the coordinate differences. -/
def evenTaxicab : EvenDistance ℚ where
  hypot x y := |x| + |y|
  neg_left x y := by rw [abs_neg]
  neg_right x y := by rw [abs_neg]
  nonneg x y := add_nonneg (abs_nonneg x) (abs_nonneg y)

/-- One cell, whose diagonals are drawn with even chances. -/
def squareParams : GeneratorParams (WithTop ℚ) where
  width := 2
  height := 2
  seed := 0
  spacing := ((1 : ℚ) : WithTop ℚ)
  jitter := ((1 / 4 : ℚ) : WithTop ℚ)
  diagonalRate := ((1 / 2 : ℚ) : WithTop ℚ)

theorem generate_lattice_square :
    squareParams.IndicesExact ∧
      ∃ g, generate evenTaxicab.lift (Comparison.insertionSort _) squareParams = .ok g ∧
        squareParams.IsLattice evenTaxicab g :=
  generate_lattice evenTaxicab _ squareParams (by decide +kernel) (by decide +kernel)

end RouteEngine
