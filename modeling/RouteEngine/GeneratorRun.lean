import RouteEngine.GeneratorScript

set_option autoImplicit false

/-! # When the generator returns

`validateGeneratorParams` accepts the usable parameters (`validateGeneratorParams_eq_empty_iff`),
and `generate` returns the graph over the sites and the sorted arcs of the lattice exactly when
the builder admits them and the metric check passes (`generate_eq_ok_iff`). -/

namespace RouteEngine

variable {F : Type}

namespace GeneratorParams

/-! ## Usable parameters -/

/-- The parameters that the validator accepts. -/
structure Usable [IsFinite F] [Zero F] [One F] [UnitArith F] [LT F] [LE F]
    (params : GeneratorParams F) : Prop extends params.Fits where
  spacing_finite : isFinite params.spacing = true
  spacing_pos : ¬ params.spacing ≤ 0
  jitter_finite : isFinite params.jitter = true
  jitter_nonneg : ¬ params.jitter < 0
  jitter_lt : ¬ params.jitter ≥ UnitArith.half
  rate_finite : isFinite params.diagonalRate = true
  rate_nonneg : ¬ params.diagonalRate < 0
  rate_le : ¬ params.diagonalRate > 1

variable {params : GeneratorParams F}

/-- The product of two 32-bit numbers is computed in 64 bits without wrapping. -/
theorem toNat_nodeCount (params : GeneratorParams F) :
    (params.width.toUInt64 * params.height.toUInt64).toNat = params.sites := by
  have hwidth : params.width.toNat < 4294967296 := params.width.toNat_lt
  have hheight : params.height.toNat < 4294967296 := params.height.toNat_lt
  have hproduct : params.width.toNat * params.height.toNat ≤ 4294967295 * 4294967295 :=
    Nat.mul_le_mul (by omega) (by omega)
  rw [UInt64.toNat_mul, UInt32.toNat_toUInt64, UInt32.toNat_toUInt64, sites, Nat.mul_comm
    params.height.toNat]
  exact Nat.mod_eq_of_lt (by omega)

theorem toNat_pos_iff (n : UInt32) : 0 < n.toNat ↔ ¬ n = 0 := by
  rw [← UInt32.toNat_inj, Nat.pos_iff_ne_zero]
  rfl

section Validate

variable [IsFinite F] [Zero F] [One F] [UnitArith F] [LT F] [DecidableLT F] [LE F]
  [DecidableLE F]

/-- A check that does not report its problem leaves the report to the checks after it. -/
theorem check_eq_empty_iff {failed : Prop} [Decidable failed] {problem rest : String}
    (hproblem : problem ≠ "") :
    (if failed then problem else rest) = "" ↔ ¬ failed ∧ rest = "" := by
  by_cases h : failed <;> simp [h, hproblem]

theorem validateGeneratorParams_eq_empty_iff :
    validateGeneratorParams params = "" ↔ params.Usable := by
  have hnodes : "width * height is " ++ toString params.sites
      ++ " nodes, which exceeds the maximum supported node count of "
      ++ toString maxSupportedNodeCount ≠ "" := by
    simp only [ne_eq, String.append_eq_empty_iff, not_and]
    exact fun h => absurd h.1.1 (by decide)
  simp only [validateGeneratorParams, toNat_nodeCount]
  rw [check_eq_empty_iff (by decide), check_eq_empty_iff (by decide),
    check_eq_empty_iff (by decide), check_eq_empty_iff (by decide),
    check_eq_empty_iff (by decide), check_eq_empty_iff hnodes]
  simp only [← toNat_pos_iff, Bool.or_eq_true, Bool.not_eq_true', decide_eq_true_eq, not_or,
    Bool.not_eq_false, and_true]
  constructor
  · rintro ⟨hwidth, hheight, ⟨hspacing, hpos⟩, ⟨⟨hjitter, hzero⟩, hhalf⟩,
      ⟨⟨hrate, hmin⟩, hmax⟩, hle⟩
    exact ⟨⟨hwidth, hheight, Nat.not_lt.mp hle⟩, hspacing, hpos, hjitter, hzero, hhalf, hrate,
      hmin, hmax⟩
  · intro h
    exact ⟨h.width_pos, h.height_pos, ⟨h.spacing_finite, h.spacing_pos⟩,
      ⟨⟨h.jitter_finite, h.jitter_nonneg⟩, h.jitter_lt⟩,
      ⟨⟨h.rate_finite, h.rate_nonneg⟩, h.rate_le⟩, Nat.not_lt.mpr h.sites_le⟩

end Validate

/-! ## The whole run -/

section Generate

variable [UnitArith F] [Mul F] [LT F] [DecidableLT F]

/-- The connections of the lattice join its sites. -/
theorem Fits.joins (h : params.Fits) :
    ∀ connection ∈ params.backbone ++ params.diagonals, params.Joins connection := by
  intro connection hmem
  rcases List.mem_append.mp hmem with hback | hdiag
  · obtain ⟨i, hi, hcon⟩ := List.mem_flatMap.mp hback
    exact h.joins_of_mem_neighboursOf (List.mem_range.mp hi) connection hcon
  · obtain ⟨k, hk, hcon⟩ := List.mem_flatMap.mp hdiag
    exact joins_of_mem_diagonalsOf (List.mem_range.mp hk) connection hcon

variable [Add F] [Sub F] (distance : Coord F → Coord F → F)

omit [LT F] [DecidableLT F] in
theorem length_coordinates (params : GeneratorParams F) :
    params.coordinates.length = params.sites := by
  simp [coordinates]

variable [IsFinite F] [Zero F]

/-- `add_arc` can only refuse an arc of the lattice for its weight. -/
theorem Fits.admissible_iff (h : params.Fits) {a : StagedArc F}
    (ha : a ∈ params.latticeArcs distance) :
    a.Admissible params.sites ↔ isFinite a.weight = true ∧ ¬ a.weight < 0 := by
  obtain ⟨connection, hmem, hends⟩ := List.mem_flatMap.mp ha
  obtain ⟨hfirst, hsecond⟩ := h.joins connection hmem
  refine ⟨fun hadm => ⟨hadm.finite, hadm.nonneg⟩, fun hw => ?_⟩
  simp only [arcsOf, List.mem_cons, List.not_mem_nil, or_false] at hends
  rcases hends with rfl | rfl
  · exact ⟨by rwa [h.toNat_ofNat hfirst], by rwa [h.toNat_ofNat hsecond], hw.1, hw.2⟩
  · exact ⟨by rwa [h.toNat_ofNat hsecond], by rwa [h.toNat_ofNat hfirst], hw.1, hw.2⟩

/-- The builder admits the sites and the arcs of the lattice. -/
structure Admits (params : GeneratorParams F) : Prop where
  sites_finite : ∀ c ∈ params.coordinates, isFinite c.x = true ∧ isFinite c.y = true
  weights : ∀ a ∈ params.latticeArcs distance, isFinite a.weight = true ∧ ¬ a.weight < 0
  arcs_le : (params.latticeArcs distance).length ≤ maxArcCount

variable {distance}

theorem Fits.valid (h : params.Fits) (hadmits : params.Admits distance) :
    (GraphBuilder.complete params.coordinates params.externalIds
      (params.latticeArcs distance)).Valid := by
  have hlen := params.length_coordinates
  refine GraphBuilder.valid_complete (by simp [coordinates, externalIds])
    (hlen.trans_le h.sites_le) hadmits.sites_finite hadmits.arcs_le fun a ha => ?_
  rw [hlen]
  exact (h.admissible_iff distance ha).mpr (hadmits.weights a ha)

/-- **When the passes return**: the builder admits what they offer, and then it is filled. -/
theorem Fits.runPasses_eq_ok_iff (h : params.Fits) {b : GraphBuilder F} :
    (runPasses distance params (GraphBuilder.fresh params.sites)).map Lattice.builder = .ok b ↔
      params.Admits distance ∧
        b = GraphBuilder.complete params.coordinates params.externalIds
          (params.latticeArcs distance) := by
  rw [runPasses_eq distance h, bind_eq_ok]
  simp only [foldlM_place_eq_ok_iff h]
  constructor
  · rintro ⟨_, ⟨hfinite, rfl⟩, hstage⟩
    obtain ⟨hadm, hcap, rfl⟩ :=
      (GraphBuilder.foldlM_stage_eq_ok_iff _ rfl (Nat.zero_le _)).mp hstage
    refine ⟨⟨hfinite, fun a ha => ?_, by simpa [GraphBuilder.complete] using hcap⟩, by
      simp [GraphBuilder.withArcs, GraphBuilder.complete]⟩
    exact (h.admissible_iff distance ha).mp (by
      simpa [GraphBuilder.complete, params.length_coordinates] using hadm a ha)
  · rintro ⟨hadmits, rfl⟩
    refine ⟨_, ⟨hadmits.sites_finite, rfl⟩, ?_⟩
    have hvalid := h.valid hadmits
    refine (GraphBuilder.foldlM_stage_eq_ok_iff _ rfl (Nat.zero_le _)).mpr
      ⟨hvalid.admissible, by simpa [GraphBuilder.complete] using hadmits.arcs_le, by
        simp [GraphBuilder.withArcs, GraphBuilder.complete]⟩

variable (distance) (std : Comparison.Sorter (GraphBuilder.stagedBefore (F := F)))
variable [Top F] [LE F] [DecidableLE F] [Div F]

/-- The graph over the sites and the sorted arcs of the lattice. -/
def latticeGraph [FiniteOrder F] (params : GeneratorParams F) : Graph F :=
  canonicalGraph distance params.coordinates params.externalIds
    (std.sort (params.latticeArcs distance))

variable {distance}

/-- `build` of the filled builder returns the graph of the lattice. -/
theorem Fits.build_lattice [FiniteOrder F] (h : params.Fits) (hadmits : params.Admits distance) :
    (GraphBuilder.build distance std).call (GraphBuilder.complete params.coordinates
        params.externalIds (params.latticeArcs distance))
      = .ok (params.latticeGraph distance std, (GraphBuilder.complete params.coordinates
          params.externalIds (params.latticeArcs distance)).spent) := by
  rw [Method.call, GraphBuilder.build_complete (h.valid hadmits)]
  rfl

variable {std}

/-- **When `generate` returns, and what**: the parameters are usable, the builder admits the
lattice, and the graph over it passes the metric check. -/
theorem generate_eq_ok_iff [One F] [FiniteOrder F] {g : Graph F} :
    generate distance std params = .ok g ↔
      params.Usable ∧ params.Admits distance ∧
        (params.latticeGraph distance std).metric.passes = true ∧
        g = params.latticeGraph distance std := by
  rw [← validateGeneratorParams_eq_empty_iff]
  unfold generate
  by_cases hvalid : validateGeneratorParams params = ""
  swap
  · rw [if_pos (by simpa using hvalid)]
    simp [hvalid]
  have husable := validateGeneratorParams_eq_empty_iff.mp hvalid
  have hnew : (GraphBuilder.new params.sites : Outcome (GraphBuilder F))
      = .ok (GraphBuilder.fresh params.sites) := by
    rw [GraphBuilder.new, validateNodeCapacity, if_neg (Nat.not_lt.mpr husable.sites_le)]
    rfl
  have hpasses : ∀ b, (runPasses distance params (GraphBuilder.fresh params.sites)).map
      Lattice.builder = .ok b ↔ _ := fun b => husable.runPasses_eq_ok_iff
  rw [if_neg (by simp [hvalid])]
  simp only [pure_eq_ok, ok_bind, husable.toNat_mul, hnew]
  constructor
  · intro h
    obtain ⟨s, hs, h⟩ := bind_eq_ok.mp h
    obtain ⟨hadmits, hfilled⟩ := (hpasses s.builder).mp (by rw [hs]; rfl)
    rw [hfilled, husable.build_lattice std hadmits, ok_bind] at h
    change (do
      if (!(params.latticeGraph distance std).metric.passes) = true then throw _
      return params.latticeGraph distance std) = _ at h
    cases hmetric : (params.latticeGraph distance std).metric.passes with
    | false => simp [hmetric] at h
    | true =>
        simp only [hmetric, Bool.not_true, Bool.false_eq_true, if_false] at h
        exact ⟨hvalid, hadmits, rfl, (Except.ok.inj h).symm⟩
  · rintro ⟨-, hadmits, hmetric, rfl⟩
    obtain ⟨s, hs, hfilled⟩ := map_eq_ok.mp ((hpasses _).mpr ⟨hadmits, rfl⟩)
    rw [hs, ok_bind, hfilled, husable.build_lattice std hadmits, ok_bind]
    change (do
      if (!(params.latticeGraph distance std).metric.passes) = true then throw _
      return params.latticeGraph distance std) = _
    rw [hmetric]
    rfl

/-- A run that succeeds returns the graph of the lattice. -/
theorem generate_eq_of_isOk [One F] [FiniteOrder F]
    (h : (generate distance std params).isOk = true) :
    generate distance std params = .ok (params.latticeGraph distance std) := by
  cases hrun : generate distance std params with
  | error e =>
      rw [hrun] at h
      cases h
  | ok g => rw [(generate_eq_ok_iff.mp hrun).2.2.2]

end Generate

end GeneratorParams

end RouteEngine
