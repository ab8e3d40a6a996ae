import RouteEngine.GeneratorDouble

set_option autoImplicit false

/-! # Two runs of the generator with different diagonal rates

The draws do not depend on the rate, and a draw below the smaller rate is below the larger one.
So the arcs at the smaller rate are among those at the larger (`latticeArcs_sublist`), and only
arcs of diagonals are added (`diagonalRate_law`). -/

namespace RouteEngine

variable {F : Type}

namespace GeneratorParams

/-- The same parameters with another diagonal rate. -/
def withRate (params : GeneratorParams F) (rate : F) : GeneratorParams F :=
  { params with diagonalRate := rate }

/-- The arc joins the ends of a diagonal of a cell. -/
def IsDiagonal (params : GeneratorParams F) (a : StagedArc F) : Prop :=
  params.Across a.source.toNat a.target.toNat ∨ params.Across a.target.toNat a.source.toNat

theorem Across.lt {params : GeneratorParams F} {i j : Nat} (h : params.Across i j) : i < j := by
  cases h with
  | @falling r c hr hc =>
      rw [siteIndex_succ, ← siteIndex_right]
      omega
  | @rising r c hr hc =>
      rw [siteIndex_succ, ← siteIndex_right]
      omega

/-- The rate does not change the shape of the table. -/
theorem across_withRate {params : GeneratorParams F} {rate : F} {i j : Nat} :
    (params.withRate rate).Across i j ↔ params.Across i j := by
  constructor
  · intro h
    cases h with
    | falling hr hc => exact .falling hr hc
    | rising hr hc => exact .rising hr hc
  · intro h
    cases h with
    | falling hr hc => exact (.falling hr hc : (params.withRate rate).Across _ _)
    | rising hr hc => exact (.rising hr hc : (params.withRate rate).Across _ _)

theorem isDiagonal_withRate {params : GeneratorParams F} {rate : F} {a : StagedArc F} :
    (params.withRate rate).IsDiagonal a ↔ params.IsDiagonal a :=
  or_congr across_withRate across_withRate

section

variable [UnitArith F] [Add F] [Sub F] [Mul F] [LT F] [DecidableLT F]
  {distance : Coord F → Coord F → F} {params : GeneratorParams F}

/-- An arc of a diagonal does not come from the backbone. -/
theorem Fits.not_isDiagonal (h : params.Fits) {i j : Nat} (hmem : (i, j) ∈ params.backbone)
    {a : StagedArc F} (ha : a ∈ params.arcsOf distance (i, j)) : ¬ params.IsDiagonal a := by
  obtain ⟨hi, hj⟩ := h.joins (i, j) (List.mem_append_left _ hmem)
  have hconnects : params.Connects i j := mem_connections_iff.mp (List.mem_append_left _ hmem)
  have hnot := not_across_of_mem_backbone hmem
  have hback : ¬ params.Across j i := fun hacross => hconnects.lt.1.asymm hacross.lt
  unfold IsDiagonal
  simp only [arcsOf, List.mem_cons, List.not_mem_nil, or_false] at ha
  rcases ha with rfl | rfl
  · rw [h.toNat_ofNat hi, h.toNat_ofNat hj]
    exact not_or.mpr ⟨hnot, hback⟩
  · rw [h.toNat_ofNat hi, h.toNat_ofNat hj]
    exact not_or.mpr ⟨hback, hnot⟩

/-- The arcs that are not arcs of diagonals come from the backbone. -/
theorem Fits.mem_backbone_of_not_isDiagonal (h : params.Fits) {a : StagedArc F}
    (ha : a ∈ params.latticeArcs distance) (hnot : ¬ params.IsDiagonal a) :
    a ∈ params.backbone.flatMap (params.arcsOf distance) := by
  obtain ⟨⟨i, j⟩, hmem, hends⟩ := List.mem_flatMap.mp ha
  rcases List.mem_append.mp hmem with hback | hdiag
  · exact List.mem_flatMap.mpr ⟨_, hback, hends⟩
  · have hacross := across_of_mem_diagonals hdiag
    obtain ⟨hi, hj⟩ := h.joins _ hmem
    simp only [arcsOf, List.mem_cons, List.not_mem_nil, or_false] at hends
    refine absurd ?_ hnot
    rcases hends with rfl | rfl
    · exact Or.inl (by rwa [h.toNat_ofNat hi, h.toNat_ofNat hj])
    · exact Or.inr (by rwa [h.toNat_ofNat hi, h.toNat_ofNat hj])

end

/-! ## Decisions about diagonals -/

section

variable {params : GeneratorParams Binary64} {distance : Coord Binary64 → Coord Binary64 → Binary64}

theorem accepts_mono {r₁ r₂ : Binary64} (hle : r₁ ≤ r₂) {k : Nat} {second : Bool}
    (h : (params.withRate r₁).accepts k second = true) :
    (params.withRate r₂).accepts k second = true :=
  decide_eq_true (Binary64.lt_of_lt_of_le (of_decide_eq_true h) hle)

theorem ite_sublist {α : Type} {b c : Bool} (h : b = true → c = true) (l : List α) :
    List.Sublist (if b = true then l else []) (if c = true then l else []) := by
  by_cases hb : b = true
  · rw [if_pos hb, if_pos (h hb)]
  · rw [if_neg hb]
    exact List.nil_sublist _

/-- **Every diagonal at the smaller rate is there at the larger.** -/
theorem latticeArcs_sublist {r₁ r₂ : Binary64} (hle : r₁ ≤ r₂) :
    ((params.withRate r₁).latticeArcs distance).Sublist
      ((params.withRate r₂).latticeArcs distance) := by
  have hcell : ∀ k ∈ List.range params.cells, ((params.withRate r₁).diagonalsOf k).Sublist
      ((params.withRate r₂).diagonalsOf k) := fun k _ =>
    List.Sublist.append (ite_sublist (accepts_mono hle) _) (ite_sublist (accepts_mono hle) _)
  have hdiagonals : (params.withRate r₁).diagonals.Sublist (params.withRate r₂).diagonals :=
    List.Sublist.flatMap_right _ hcell
  exact (hdiagonals.append_left params.backbone).flatMap (params.arcsOf distance)

/-- At rate zero no draw is below the rate. -/
theorem accepts_eq_false (hrate : (params.diagonalRate == 0) = true) (k : Nat) (second : Bool) :
    params.accepts k second = false := by
  obtain ⟨x, hdraw, -⟩ := SplitMix64.draw_range ⟨params.seed⟩
    (2 * params.sites + 2 * k + second.toNat)
  obtain ⟨-, -, hkey⟩ := Binary64.beq_iff.mp hrate
  refine decide_eq_false fun hlt => ?_
  obtain ⟨-, -, hlt⟩ := Binary64.lt_iff.mp hlt
  rw [drawAt, hdraw, hkey, NonnegBinary64.key_toBinary64] at hlt
  exact absurd hlt (Int.not_lt.mpr (Int.natCast_nonneg _))

/-- At rate one every draw is. -/
theorem accepts_eq_true (hrate : (params.diagonalRate == 1) = true) (k : Nat) (second : Bool) :
    params.accepts k second = true := by
  obtain ⟨x, hdraw, hlt⟩ := SplitMix64.draw_range ⟨params.seed⟩
    (2 * params.sites + 2 * k + second.toNat)
  obtain ⟨hnum, hnum', hkey⟩ := Binary64.beq_iff.mp hrate
  have hone : (params.drawAt (2 * params.sites + 2 * k + second.toNat) : Binary64) < 1 := by
    rw [drawAt, hdraw, ← SplitMix64.toBinary64_oneDouble]
    exact NonnegBinary64.toBinary64_lt.mpr hlt
  refine decide_eq_true (Binary64.lt_of_lt_of_le hone (Binary64.le_iff.mpr ⟨hnum', hnum, hkey.ge⟩))

/-- Which diagonals there are at the two ends of the range of rates. -/
structure DiagonalsAt (params : GeneratorParams Binary64) (rate : Binary64)
    (arcs : List (StagedArc Binary64)) : Prop where
  none : (rate == 0) = true → ∀ a ∈ arcs, ¬ params.IsDiagonal a
  every : (rate == 1) = true → ∀ i j, params.Across i j →
    (UInt32.ofNat i, UInt32.ofNat j) ∈ arcs.map StagedArc.ends ∧
      (UInt32.ofNat j, UInt32.ofNat i) ∈ arcs.map StagedArc.ends

theorem Fits.diagonalsAt (h : params.Fits) :
    params.DiagonalsAt params.diagonalRate (params.latticeArcs distance) where
  none hrate a ha := by
    have hcell : ∀ k, params.diagonalsOf k = [] := by
      intro k
      simp [diagonalsOf, accepts_eq_false hrate]
    have hnone : params.diagonals = [] := List.flatMap_eq_nil_iff.mpr fun k _ => hcell k
    obtain ⟨connection, hmem, hends⟩ := List.mem_flatMap.mp ha
    rw [hnone, List.append_nil] at hmem
    exact h.not_isDiagonal hmem hends
  every hrate i j hacross := by
    have hdraw : ∀ k (second : Bool), (params.drawAt (2 * params.sites + 2 * k + second.toNat)
        : Binary64) < params.diagonalRate :=
      fun k second => of_decide_eq_true (accepts_eq_true hrate k second)
    have hconnects : params.Connects i j := by
      cases hacross with
      | falling hr hc => exact .falling hr hc (hdraw _ false)
      | rising hr hc => exact .rising hr hc (hdraw _ true)
    constructor
    · exact List.mem_map.mpr
        ⟨⟨_, _, _⟩, mem_latticeArcs_iff.mpr ⟨i, j, hconnects, rfl, Or.inl rfl⟩, rfl⟩
    · exact List.mem_map.mpr
        ⟨⟨_, _, _⟩, mem_latticeArcs_iff.mpr ⟨i, j, hconnects, rfl, Or.inr rfl⟩, rfl⟩

theorem DiagonalsAt.of_withRate {r rate : Binary64} {arcs : List (StagedArc Binary64)}
    (h : (params.withRate r).DiagonalsAt rate arcs) : params.DiagonalsAt rate arcs where
  none hrate a ha := fun hdiag => h.none hrate a ha (isDiagonal_withRate.mpr hdiag)
  every hrate i j hacross := h.every hrate i j (across_withRate.mpr hacross)

theorem DiagonalsAt.perm {rate : Binary64} {arcs arcs' : List (StagedArc Binary64)}
    (h : params.DiagonalsAt rate arcs) (hperm : arcs'.Perm arcs) :
    params.DiagonalsAt rate arcs' where
  none hrate a ha := h.none hrate a (hperm.mem_iff.mp ha)
  every hrate i j hacross := by
    rw [(hperm.map _).mem_iff, (hperm.map _).mem_iff]
    exact h.every hrate i j hacross

end

end GeneratorParams

/-- The accessors of a node read its coordinates and its identifier only. -/
theorem Graph.accessors_congr {g g' : Graph F} (hcoordinates : g.coordinates = g'.coordinates)
    (hids : g.externalIds = g'.externalIds) (u : NodeId) :
    g.coordinate u = g'.coordinate u ∧ g.externalId u = g'.externalId u := by
  unfold Graph.coordinate Graph.externalId Graph.outOfRange Graph.contains Graph.nodeCount
  rw [hcoordinates, hids]
  exact ⟨rfl, rfl⟩

/-- **Two runs that differ in the diagonal rate**: the nodes are the same, the arcs at the
smaller rate are among those at the larger, and the others belong to diagonals. -/
theorem diagonalRate_law (distance : Coord Binary64 → Coord Binary64 → Binary64)
    (std : Comparison.Sorter (GraphBuilder.stagedBefore (F := Binary64)))
    (params : GeneratorParams Binary64) (r₁ r₂ : Binary64) (hle : r₁ ≤ r₂)
    (g₁ g₂ : Graph Binary64) (h₁ : generate distance std (params.withRate r₁) = .ok g₁)
    (h₂ : generate distance std (params.withRate r₂) = .ok g₂) :
    g₁.nodeCount = g₂.nodeCount ∧
      (∀ u, g₁.coordinate u = g₂.coordinate u ∧ g₁.externalId u = g₂.externalId u) ∧
      ∃ arcs₁ arcs₂ extra, g₁.arcList = .ok arcs₁ ∧ g₂.arcList = .ok arcs₂ ∧
        arcs₂.Perm (arcs₁ ++ extra) ∧ (∀ a ∈ extra, params.IsDiagonal a) ∧
        params.DiagonalsAt r₁ arcs₁ ∧ params.DiagonalsAt r₂ arcs₂ := by
  obtain ⟨husable₁, hadmits₁, hpasses₁, heq₁⟩ := GeneratorParams.generate_eq_ok_iff.mp h₁
  obtain ⟨husable₂, hadmits₂, hpasses₂, heq₂⟩ := GeneratorParams.generate_eq_ok_iff.mp h₂
  subst heq₁ heq₂
  have hover₁ : ((params.withRate r₁).latticeGraph distance std).OverArcs distance _ :=
    husable₁.overArcs hadmits₁
  have hover₂ : ((params.withRate r₂).latticeGraph distance std).OverArcs distance _ :=
    husable₂.overArcs hadmits₂
  have hperm₁ := std.perm ((params.withRate r₁).latticeArcs distance)
  have hperm₂ := std.perm ((params.withRate r₂).latticeArcs distance)
  have hsublist : ((params.withRate r₁).latticeArcs distance).Sublist
      ((params.withRate r₂).latticeArcs distance) := GeneratorParams.latticeArcs_sublist hle
  obtain ⟨extra, hextra⟩ := hsublist.exists_perm_append
  have hdiagonals₁ : (params.withRate r₁).DiagonalsAt r₁ _ := husable₁.diagonalsAt.perm hperm₁
  have hdiagonals₂ : (params.withRate r₂).DiagonalsAt r₂ _ := husable₂.diagonalsAt.perm hperm₂
  have hcoordinates : ((params.withRate r₁).latticeGraph distance std).coordinates
      = ((params.withRate r₂).latticeGraph distance std).coordinates :=
    Eq.trans (b := params.coordinates) rfl rfl
  have hids : ((params.withRate r₁).latticeGraph distance std).externalIds
      = ((params.withRate r₂).latticeGraph distance std).externalIds :=
    Eq.trans (b := params.externalIds) rfl rfl
  refine ⟨congrArg List.length hcoordinates, Graph.accessors_congr hcoordinates hids, _, _, extra,
    hover₁.arcList_eq, hover₂.arcList_eq,
    hperm₂.trans (hextra.trans (hperm₁.symm.append_right extra)), fun a ha => ?_,
    hdiagonals₁.of_withRate, hdiagonals₂.of_withRate⟩
  -- an extra arc that is no diagonal would be there twice
  by_contra hnot
  have hmem : a ∈ (params.withRate r₂).latticeArcs distance :=
    hextra.mem_iff.mpr (List.mem_append_right _ ha)
  have hback : a ∈ params.backbone.flatMap (params.arcsOf distance) :=
    husable₂.mem_backbone_of_not_isDiagonal hmem fun hdiag => hnot
      (GeneratorParams.isDiagonal_withRate.mp hdiag)
  have hfirst : a ∈ (params.withRate r₁).latticeArcs distance := by
    obtain ⟨connection, hside, hends⟩ := List.mem_flatMap.mp hback
    exact List.mem_flatMap.mpr ⟨connection, List.mem_append_left _ hside, hends⟩
  have hnodup : (((params.withRate r₂).latticeArcs distance).map StagedArc.ends).Nodup :=
    husable₂.nodup_ends
  rw [(hextra.map _).nodup_iff, List.map_append] at hnodup
  exact List.disjoint_of_nodup_append hnodup (List.mem_map_of_mem hfirst) (List.mem_map_of_mem ha)

/-- One cell without jitter. -/
def squareOfDoubles : GeneratorParams Binary64 := ⟨2, 2, 0, 1, 0, 0⟩

/-- The square gets its two diagonals as the rate goes from zero to one. -/
theorem diagonalRate_law_square :
    ∃ arcs₁ arcs₂ extra,
      ((squareOfDoubles.withRate 0).latticeGraph gridHypot.length
        (Comparison.insertionSort _)).arcList = .ok arcs₁ ∧
      ((squareOfDoubles.withRate 1).latticeGraph gridHypot.length
        (Comparison.insertionSort _)).arcList = .ok arcs₂ ∧
      arcs₂.Perm (arcs₁ ++ extra) ∧ (∀ a ∈ extra, squareOfDoubles.IsDiagonal a) ∧
      squareOfDoubles.DiagonalsAt 0 arcs₁ ∧ squareOfDoubles.DiagonalsAt 1 arcs₂ :=
  (diagonalRate_law gridHypot.length (Comparison.insertionSort _) squareOfDoubles 0 1
    (by decide +kernel) _ _ (GeneratorParams.generate_eq_of_isOk (by decide +kernel))
    (GeneratorParams.generate_eq_of_isOk (by decide +kernel))).2.2

end RouteEngine
