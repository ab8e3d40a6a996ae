import RouteEngine.LatticeShape
import RouteEngine.MetricSpec
import RouteEngine.SearchOutcome

set_option autoImplicit false

/-! # The graph of the lattice

Each connection becomes two arcs, and no two arcs have the same ends (`nodup_ends`). The graph
over them passes the metric check when the distance does not grow as its arguments are swapped
(`latticeGraph_passes`), and every node of it can be reached from every other
(`latticeGraph_connected`). -/

namespace RouteEngine

variable {F : Type}

/-- The two ends of an arc. -/
def StagedArc.ends (a : StagedArc F) : NodeId × NodeId := (a.source, a.target)

namespace GeneratorParams

/-- Sites of the same number are the same node. -/
theorem Fits.ofNat_inj {params : GeneratorParams F} (h : params.Fits) {i j : Nat}
    (hi : i < params.sites) (hj : j < params.sites) (heq : UInt32.ofNat i = UInt32.ofNat j) :
    i = j := by
  rw [← h.toNat_ofNat hi, heq, h.toNat_ofNat hj]

section

variable [UnitArith F] [Mul F] {params : GeneratorParams F}

/-- Both ends of a connection are sites, and the first one comes first. -/
theorem Connects.lt [LT F] {i j : Nat} (h : params.Connects i j) : i < j ∧ j < params.sites := by
  cases h with
  | horizontal hr hc => exact ⟨Nat.lt_succ_self _, number_lt hr hc⟩
  | vertical hr hc =>
      refine ⟨?_, number_lt hr hc⟩
      rw [siteIndex_succ]
      omega
  | falling hr hc =>
      refine ⟨?_, number_lt hr hc⟩
      rw [siteIndex_succ, ← siteIndex_right]
      omega
  | rising hr hc =>
      refine ⟨?_, number_lt hr (by omega)⟩
      rw [siteIndex_succ, ← siteIndex_right]
      omega

theorem coordAt_site [Zero F] [Add F] [Sub F] (h : params.Fits) {i : Nat}
    (hi : i < params.sites) : coordAt params.coordinates (UInt32.ofNat i) = params.siteAt i := by
  rw [coordAt, h.toNat_ofNat hi, coordinates, List.getElem?_map, List.getElem?_range hi]
  rfl

end

/-- Ordered pairs and their mirror images are distinct. -/
theorem nodup_both_ways {l : List (Nat × Nat)} (hl : l.Nodup) (hlt : ∀ c ∈ l, c.1 < c.2) :
    (l.flatMap (fun c => [c, c.swap])).Nodup := by
  have hmem : ∀ c ∈ l, ∀ x ∈ [c, c.swap], c = if x.1 < x.2 then x else x.swap := by
    intro c hc x hx
    have hc := hlt c hc
    simp only [List.mem_cons, List.not_mem_nil, or_false] at hx
    rcases hx with rfl | rfl
    · rw [if_pos hc]
    · rw [if_neg (by simpa using hc.le), Prod.swap_swap]
  rw [List.nodup_flatMap]
  constructor
  · intro c hc
    have hne : c ≠ c.swap := fun heq => (hlt c hc).ne (congrArg Prod.fst heq)
    simp [hne]
  · refine hl.imp_of_mem ?_
    intro c c' hc hc' hne x hx hx'
    exact hne ((hmem c hc x hx).trans (hmem c' hc' x hx').symm)

variable [UnitArith F] [Add F] [Sub F] [Mul F] [LT F] [DecidableLT F]
  {distance : Coord F → Coord F → F} {params : GeneratorParams F}

/-! ## The arcs -/

theorem mem_latticeArcs_iff {a : StagedArc F} :
    a ∈ params.latticeArcs distance ↔
      ∃ i j, params.Connects i j ∧ a.weight = distance (params.siteAt i) (params.siteAt j) ∧
        (a.ends = (UInt32.ofNat i, UInt32.ofNat j) ∨
          a.ends = (UInt32.ofNat j, UInt32.ofNat i)) := by
  unfold latticeArcs
  rw [List.mem_flatMap]
  constructor
  · rintro ⟨⟨i, j⟩, hmem, ha⟩
    simp only [arcsOf, List.mem_cons, List.not_mem_nil, or_false] at ha
    refine ⟨i, j, mem_connections_iff.mp hmem, ?_⟩
    rcases ha with rfl | rfl
    · exact ⟨rfl, Or.inl rfl⟩
    · exact ⟨rfl, Or.inr rfl⟩
  · rintro ⟨i, j, hconnects, hweight, hends⟩
    refine ⟨(i, j), mem_connections_iff.mpr hconnects, ?_⟩
    cases a
    simp only [StagedArc.ends, Prod.mk.injEq] at hends
    simp only at hweight
    simp only [arcsOf, List.mem_cons, List.not_mem_nil, or_false, StagedArc.mk.injEq, hweight,
      and_true]
    exact hends

/-- **No two arcs have the same ends.** -/
theorem Fits.nodup_ends (h : params.Fits) :
    ((params.latticeArcs distance).map StagedArc.ends).Nodup := by
  have hpairs := nodup_both_ways params.nodup_connections
    (fun c hc => (mem_connections_iff.mp hc).lt.1)
  have hends : (params.latticeArcs distance).map StagedArc.ends
      = (params.connections.flatMap (fun c => [c, c.swap])).map
          (Prod.map UInt32.ofNat UInt32.ofNat) := by
    rw [latticeArcs, List.map_flatMap, List.map_flatMap]
    rfl
  have hsite : ∀ x ∈ params.connections.flatMap (fun c => [c, c.swap]),
      x.1 < params.sites ∧ x.2 < params.sites := by
    intro x hx
    obtain ⟨c, hc, hmem⟩ := List.mem_flatMap.mp hx
    obtain ⟨hlt, hle⟩ := (mem_connections_iff.mp hc).lt
    simp only [List.mem_cons, List.not_mem_nil, or_false] at hmem
    rcases hmem with rfl | rfl
    · exact ⟨hlt.trans hle, hle⟩
    · exact ⟨hle, hlt.trans hle⟩
  rw [hends]
  refine List.Nodup.map_on (fun x hx y hy heq => ?_) hpairs
  obtain ⟨hx₁, hx₂⟩ := hsite x hx
  obtain ⟨hy₁, hy₂⟩ := hsite y hy
  have hfirst := h.ofNat_inj hx₁ hy₁ (congrArg Prod.fst heq)
  have hsecond := h.ofNat_inj hx₂ hy₂ (congrArg Prod.snd heq)
  exact Prod.ext hfirst hsecond

/-- The number of arcs, from the shape of the table and the draws below the rate. -/
theorem length_latticeArcs (params : GeneratorParams F) :
    (params.latticeArcs distance).length
      = 2 * (params.backbone.length + params.diagonals.length) := by
  have htwo : ∀ c ∈ params.connections, (params.arcsOf distance c).length = 2 := fun _ _ => rfl
  have hsum : (params.latticeArcs distance).length = params.connections.length * 2 := by
    rw [latticeArcs, List.length_flatMap]
    show (params.connections.map _).sum = _
    rw [List.map_congr_left htwo, List.map_const', List.sum_replicate_nat]
  rw [hsum, connections, List.length_append, Nat.mul_comm]

/-- The number of arcs: two for each pair of neighbours and for each draw below the rate. -/
def arcCount (params : GeneratorParams F) : Nat :=
  2 * (params.height.toNat * (params.width.toNat - 1)
    + (params.height.toNat - 1) * params.width.toNat
    + (List.range (2 * params.cells)).countP (fun d =>
        decide ((params.drawAt (2 * params.sites + d) : F) < params.diagonalRate)))

theorem length_latticeArcs_eq (params : GeneratorParams F) :
    (params.latticeArcs distance).length = params.arcCount := by
  rw [length_latticeArcs, length_backbone, length_diagonals, arcCount]

/-! ## The graph -/

variable [IsFinite F] [Zero F] [Top F] [LE F] [DecidableLE F] [Div F] [FiniteOrder F]
  {std : Comparison.Sorter (GraphBuilder.stagedBefore (F := F))}

theorem Fits.overArcs (h : params.Fits) (hadmits : params.Admits distance) :
    (params.latticeGraph distance std).OverArcs distance (std.sort (params.latticeArcs distance)) :=
  (h.valid hadmits).overArcs (GraphBuilder.buildFailure_complete (h.valid hadmits))

/-- **The metric check passes** when every length is comparable to itself and to the length the
other way. -/
theorem latticeGraph_passes (h : params.Fits)
    (hrefl : ∀ i j, params.Connects i j → distance (params.siteAt i) (params.siteAt j)
      ≤ distance (params.siteAt i) (params.siteAt j))
    (hswap : ∀ i j, params.Connects i j → distance (params.siteAt j) (params.siteAt i)
      ≤ distance (params.siteAt i) (params.siteAt j)) :
    (params.latticeGraph distance std).metric.passes = true := by
  show (canonicalReport _ _ _).passes = true
  rw [canonicalReport_passes_iff]
  intro a ha
  obtain ⟨i, j, hconnects, hweight, hends⟩ := mem_latticeArcs_iff.mp ((std.perm _).mem_iff.mp ha)
  obtain ⟨hlt, hle⟩ := hconnects.lt
  have hi := coordAt_site h (hlt.trans hle)
  have hj := coordAt_site h hle
  simp only [StagedArc.ends, Prod.mk.injEq] at hends
  rcases hends with ⟨hs, ht⟩ | ⟨hs, ht⟩
  · rw [hs, ht, hi, hj, hweight]
    exact hrefl i j hconnects
  · rw [hs, ht, hi, hj, hweight]
    exact hswap i j hconnects

end GeneratorParams

/-! ## Every node can be reached -/

section Connected

variable [LinearOrder F] [OrderTop F] [Zero F] [Add F] [Sub F] [Mul F] [Div F] [UnitArith F]
variable {distance : Coord F → Coord F → F} {params : GeneratorParams F}
variable (std : Comparison.Sorter (GraphBuilder.stagedBefore (F := F)))

namespace GeneratorParams

/-- The two sites of a connection are joined both ways. -/
theorem hasArc_of_connects (h : params.Fits) (hadmits : params.Admits distance) {i j : Nat}
    (hconnects : params.Connects i j) :
    (∃ w, (params.latticeGraph distance std).HasArc (UInt32.ofNat i) (UInt32.ofNat j) w) ∧
      ∃ w, (params.latticeGraph distance std).HasArc (UInt32.ofNat j) (UInt32.ofNat i) w := by
  have hover : (params.latticeGraph distance std).OverArcs _ _ := h.overArcs hadmits
  have hmem : ∀ a, a ∈ std.sort (params.latticeArcs distance) ↔ a ∈ params.latticeArcs distance :=
    fun a => (std.perm _).mem_iff
  constructor
  · refine ⟨distance (params.siteAt i) (params.siteAt j), (hover.hasArc_iff _ _ _).mpr ?_⟩
    exact (hmem _).mpr (mem_latticeArcs_iff.mpr ⟨i, j, hconnects, rfl, Or.inl rfl⟩)
  · refine ⟨distance (params.siteAt i) (params.siteAt j), (hover.hasArc_iff _ _ _).mpr ?_⟩
    exact (hmem _).mpr (mem_latticeArcs_iff.mpr ⟨i, j, hconnects, rfl, Or.inr rfl⟩)

/-- **The first site and every other one reach each other**: down the first column and then
along the row. -/
theorem reachable_siteIndex (h : params.Fits) (hadmits : params.Admits distance) {r c : Nat}
    (hr : r < params.height.toNat) (hc : c < params.width.toNat) :
    Digraph.Reachable (params.latticeGraph distance std).HasArc
        (UInt32.ofNat 0) (UInt32.ofNat (params.siteIndex r c)) ∧
      Digraph.Reachable (params.latticeGraph distance std).HasArc
        (UInt32.ofNat (params.siteIndex r c)) (UInt32.ofNat 0) := by
  induction c with
  | zero =>
      induction r with
      | zero =>
          rw [siteIndex, Nat.zero_mul]
          exact ⟨.refl, .refl⟩
      | succ r ih =>
          obtain ⟨hto, hfrom⟩ := ih (by omega)
          obtain ⟨hdown, hup⟩ := hasArc_of_connects std h hadmits (.vertical hr hc)
          exact ⟨hto.tail hdown, hfrom.head hup⟩
  | succ c ih =>
      obtain ⟨hto, hfrom⟩ := ih (by omega)
      obtain ⟨hright, hleft⟩ := hasArc_of_connects std h hadmits (.horizontal hr hc)
      exact ⟨hto.tail hright, hfrom.head hleft⟩

/-- **Every node can be reached from every other.** -/
theorem latticeGraph_connected (h : params.Fits) (hadmits : params.Admits distance) {u v : NodeId}
    (hu : (params.latticeGraph distance std).contains u = true)
    (hv : (params.latticeGraph distance std).contains v = true) :
    Digraph.Reachable (params.latticeGraph distance std).HasArc u v := by
  have hsite : ∀ {u : NodeId}, (params.latticeGraph distance std).contains u = true →
      ∃ r c, r < params.height.toNat ∧ c < params.width.toNat ∧
        UInt32.ofNat (params.siteIndex r c) = u := by
    intro u hu
    have hlt : u.toNat < params.sites :=
      params.length_coordinates ▸ ((params.latticeGraph distance std).contains_iff u).mp hu
    refine ⟨_, _, row_lt hlt, h.col_lt u.toNat, ?_⟩
    rw [siteIndex_div_mod, UInt32.ofNat_toNat]
  obtain ⟨r, c, hr, hc, rfl⟩ := hsite hu
  obtain ⟨r', c', hr', hc', rfl⟩ := hsite hv
  have hfrom := (reachable_siteIndex std h hadmits hr hc).2
  exact hfrom.trans (reachable_siteIndex std h hadmits hr' hc').1

end GeneratorParams

end Connected

end RouteEngine
