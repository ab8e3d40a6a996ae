import RouteEngine.BuilderFill
import RouteEngine.Generator
import RouteEngine.Library.RangeLoop
import RouteEngine.Library.Script

set_option autoImplicit false

/-! # The generator as a script of builder calls

The passes of `generate` place the sites `0, 1, …` in row-major order and then add the arcs of a
list of connections that depends on the parameters only (`latticeArcs`): draw `2 i` and
`2 i + 1` of the stream displace site `i`, and the two draws after those of the sites and of the
cells before decide about the diagonals of a cell (`runPasses_eq`). -/

namespace RouteEngine

variable {F σ : Type}

/-! ## The loops -/

/-- A counting loop whose condition holds `k` times is a loop over `k` numbers. -/
theorem countUp_eq {condition : UInt32 → Bool} {body : σ → UInt32 → Outcome σ} (k : Nat) :
    ∀ (i fuel : Nat) (s : σ), (∀ j, i ≤ j → j < i + k → condition (UInt32.ofNat j) = true) →
      condition (UInt32.ofNat (i + k)) = false → k < fuel →
      countUp condition body fuel (UInt32.ofNat i) s
        = (List.range' i k).foldlM (fun s j => body s (UInt32.ofNat j)) s := by
  induction k with
  | zero =>
      intro i fuel s _ hend hfuel
      obtain ⟨n, rfl⟩ := Nat.exists_eq_succ_of_ne_zero (Nat.pos_iff_ne_zero.mp hfuel)
      rw [Nat.add_zero] at hend
      simp [countUp, hend]
  | succ k ih =>
      intro i fuel s hbelow hend hfuel
      obtain ⟨n, rfl⟩ := Nat.exists_eq_succ_of_ne_zero (by omega : fuel ≠ 0)
      have hnext : UInt32.ofNat i + 1 = UInt32.ofNat (i + 1) := (UInt32.ofNat_add i 1).symm
      rw [countUp, if_pos (hbelow i le_rfl (by omega)), List.range'_succ, List.foldlM_cons, hnext]
      refine congrArg _ (funext fun s' => ?_)
      refine ih (i + 1) n s' (fun j hij hj => hbelow j (by omega) (by omega)) ?_ (by omega)
      rwa [Nat.add_right_comm, Nat.add_assoc]

/-- `for (i = 0; i < bound; ++i)`. -/
theorem countUp_lt (bound : UInt32) (body : σ → UInt32 → Outcome σ) (s : σ) :
    countUp (fun i => i < bound) body counterFuel 0 s
      = (List.range bound.toNat).foldlM (fun s j => body s (UInt32.ofNat j)) s := by
  have hbound := bound.toNat_lt
  rw [List.range_eq_range']
  refine countUp_eq bound.toNat 0 counterFuel s (fun j _ hj => ?_) ?_ hbound
  · have hword : (UInt32.ofNat j).toNat = j := UInt32.toNat_ofNat_of_lt' (by
      simp only [UInt32.size]; omega)
    simp only [decide_eq_true_eq, UInt32.lt_iff_toNat_lt, hword]
    omega
  · simp

/-- `for (i = 0; i + 1 < bound; ++i)`; the sum does not wrap below the bound. -/
theorem countUp_succ_lt (bound : UInt32) (body : σ → UInt32 → Outcome σ) (s : σ) :
    countUp (fun i => i + 1 < bound) body counterFuel 0 s
      = (List.range (bound.toNat - 1)).foldlM (fun s j => body s (UInt32.ofNat j)) s := by
  have hbound : bound.toNat < 4294967296 := bound.toNat_lt
  have hword : ∀ j, (UInt32.ofNat j + 1).toNat = (j + 1) % 4294967296 := by
    intro j
    rw [← UInt32.ofNat_one, ← UInt32.ofNat_add, UInt32.toNat_ofNat']
  rw [List.range_eq_range']
  refine countUp_eq (bound.toNat - 1) 0 counterFuel s (fun j _ hj => ?_) ?_
    (by unfold counterFuel; omega)
  · simp only [decide_eq_true_eq, UInt32.lt_iff_toNat_lt, hword]
    omega
  · simp only [decide_eq_false_iff_not, UInt32.lt_iff_toNat_lt, Nat.zero_add, hword]
    omega

/-- The loops over all sites. -/
theorem eachCell_lt (rows cols : UInt32) (body : σ → UInt32 → UInt32 → Outcome σ) (s : σ) :
    eachCell (fun row => row < rows) (fun col => col < cols) body s
      = (List.range (rows.toNat * cols.toNat)).foldlM (fun s i =>
          body s (UInt32.ofNat (i / cols.toNat)) (UInt32.ofNat (i % cols.toNat))) s := by
  unfold eachCell
  simp only [countUp_lt]
  exact RangeLoop.foldlM_range_mul (fun s r c => body s (UInt32.ofNat r) (UInt32.ofNat c)) _ _ s

/-- The loops over all cells between sites. -/
theorem eachCell_succ_lt (rows cols : UInt32) (body : σ → UInt32 → UInt32 → Outcome σ) (s : σ) :
    eachCell (fun row => row + 1 < rows) (fun col => col + 1 < cols) body s
      = (List.range ((rows.toNat - 1) * (cols.toNat - 1))).foldlM (fun s k =>
          body s (UInt32.ofNat (k / (cols.toNat - 1)))
            (UInt32.ofNat (k % (cols.toNat - 1)))) s := by
  unfold eachCell
  simp only [countUp_succ_lt]
  exact RangeLoop.foldlM_range_mul (fun s r c => body s (UInt32.ofNat r) (UInt32.ofNat c)) _ _ s

/-! ## What the parameters determine -/

namespace GeneratorParams

variable (params : GeneratorParams F)

/-- The number of sites. -/
def sites : Nat := params.height.toNat * params.width.toNat

/-- The number of cells between sites. -/
def cells : Nat := (params.height.toNat - 1) * (params.width.toNat - 1)

/-- The number of the site at the top left of a cell. -/
def corner (k : Nat) : Nat :=
  k / (params.width.toNat - 1) * params.width.toNat + k % (params.width.toNat - 1)

/-- Draw `k` of the stream, counted from zero. -/
def drawAt [Mul F] [UnitArith F] (k : Nat) : F := SplitMix64.draw ⟨params.seed⟩ k

/-- The coordinate of a site. -/
def siteAt [UnitArith F] [Add F] [Sub F] [Mul F] (i : Nat) : Coord F :=
  let amplitude := params.jitter * params.spacing
  ⟨UnitArith.ofNat (i % params.width.toNat) * params.spacing
      + offset amplitude (params.drawAt (2 * i)),
    UnitArith.ofNat (i / params.width.toNat) * params.spacing
      + offset amplitude (params.drawAt (2 * i + 1))⟩

/-- The coordinates of the sites in order. -/
def coordinates [UnitArith F] [Add F] [Sub F] [Mul F] : List (Coord F) :=
  (List.range params.sites).map params.siteAt

/-- The external identifiers of the sites in order. -/
def externalIds : List ExternalId :=
  (List.range params.sites).map (fun i => UInt64.ofNat (i + 1))

/-- The connections that pass 2 makes at a site. -/
def neighboursOf (i : Nat) : List (Nat × Nat) :=
  (if i % params.width.toNat + 1 < params.width.toNat then [(i, i + 1)] else []) ++
    (if i / params.width.toNat + 1 < params.height.toNat then [(i, i + params.width.toNat)] else [])

/-- The first diagonal of cell `k` is accepted; the second one is decided by the next draw. -/
def accepts [Mul F] [UnitArith F] [LT F] [DecidableLT F] (k : Nat) (second : Bool) : Bool :=
  decide ((params.drawAt (2 * params.sites + 2 * k + second.toNat) : F) < params.diagonalRate)

/-- The connections that pass 3 makes in a cell. -/
def diagonalsOf [Mul F] [UnitArith F] [LT F] [DecidableLT F] (k : Nat) : List (Nat × Nat) :=
  (if params.accepts k false then
      [(params.corner k, params.corner k + params.width.toNat + 1)] else []) ++
    (if params.accepts k true then
      [(params.corner k + 1, params.corner k + params.width.toNat)] else [])

/-- The connections of pass 2. -/
def backbone : List (Nat × Nat) := (List.range params.sites).flatMap params.neighboursOf

/-- The connections of pass 3. -/
def diagonals [Mul F] [UnitArith F] [LT F] [DecidableLT F] : List (Nat × Nat) :=
  (List.range params.cells).flatMap params.diagonalsOf

section

variable [UnitArith F] [Add F] [Sub F] [Mul F] (distance : Coord F → Coord F → F)

/-- The two arcs of a connection. -/
def arcsOf (connection : Nat × Nat) : List (StagedArc F) :=
  let weight := distance (params.siteAt connection.1) (params.siteAt connection.2)
  [⟨UInt32.ofNat connection.1, UInt32.ofNat connection.2, weight⟩,
    ⟨UInt32.ofNat connection.2, UInt32.ofNat connection.1, weight⟩]

/-- The arcs in the order in which they are added. -/
def latticeArcs [LT F] [DecidableLT F] : List (StagedArc F) :=
  (params.backbone ++ params.diagonals).flatMap (params.arcsOf distance)

end

/-! ## The numbers of the sites -/

/-- The table is not empty and its sites can be numbered. -/
structure Fits : Prop where
  width_pos : 0 < params.width.toNat
  height_pos : 0 < params.height.toNat
  sites_le : params.sites ≤ maxSupportedNodeCount

variable {params}

/-- The index that the passes compute for a site is its number. -/
theorem index_eq (params : GeneratorParams F) (i : Nat) :
    UInt32.ofNat (i / params.width.toNat) * params.width + UInt32.ofNat (i % params.width.toNat)
      = UInt32.ofNat i := by
  calc UInt32.ofNat (i / params.width.toNat) * params.width
        + UInt32.ofNat (i % params.width.toNat)
      = UInt32.ofNat (i / params.width.toNat) * UInt32.ofNat params.width.toNat
        + UInt32.ofNat (i % params.width.toNat) := by rw [UInt32.ofNat_toNat]
    _ = UInt32.ofNat (i / params.width.toNat * params.width.toNat + i % params.width.toNat) := by
        rw [UInt32.ofNat_add, UInt32.ofNat_mul]
    _ = UInt32.ofNat i := by rw [Nat.div_add_mod']

/-- The index that pass 3 computes for the top left site of a cell is its number. -/
theorem corner_eq (params : GeneratorParams F) (k : Nat) :
    UInt32.ofNat (k / (params.width.toNat - 1)) * params.width
        + UInt32.ofNat (k % (params.width.toNat - 1))
      = UInt32.ofNat (params.corner k) := by
  unfold corner
  rw [UInt32.ofNat_add, UInt32.ofNat_mul, UInt32.ofNat_toNat]

theorem Fits.toNat_ofNat (h : params.Fits) {i : Nat} (hi : i < params.sites) :
    (UInt32.ofNat i).toNat = i := toNat_ofNat_node (hi.trans_le h.sites_le)

theorem Fits.col_lt (h : params.Fits) (i : Nat) : i % params.width.toNat < params.width.toNat :=
  Nat.mod_lt _ h.width_pos

theorem row_lt {i : Nat} (hi : i < params.sites) : i / params.width.toNat < params.height.toNat :=
  Nat.div_lt_of_lt_mul (by rwa [sites, Nat.mul_comm] at hi)

/-- A number below a machine bound is kept by the conversion. -/
theorem toNat_ofNat_lt {i : Nat} {bound : UInt32} (h : i < bound.toNat) :
    (UInt32.ofNat i).toNat = i := by
  have hbound := bound.toNat_lt
  exact UInt32.toNat_ofNat_of_lt' (by simp only [UInt32.size]; omega)

/-! ## Pass 1 -/

section Place

variable [IsFinite F] [UnitArith F] [Add F] [Sub F] [Mul F] (params)

/-- The call of `set_node` for a site. -/
def place (b : GraphBuilder F) (i : Nat) : Outcome (GraphBuilder F) :=
  ((GraphBuilder.setNode (UInt32.ofNat i) (params.siteAt i) (UInt64.ofNat (i + 1))).call b).map
    Prod.snd

/-- The variables of pass 1 before site `i`. -/
def atSite [Zero F] (i : Nat) (b : GraphBuilder F) : Lattice F where
  builder := b
  rng := SplitMix64.skip ⟨params.seed⟩ (2 * i)
  coordinates := (List.range i).map params.siteAt ++ List.replicate (params.sites - i) Coord.zero

variable {params}

theorem toUInt64_ofNat {i : Nat} (hi : i < maxSupportedNodeCount) :
    (UInt32.ofNat i).toUInt64 + 1 = UInt64.ofNat (i + 1) := by
  have hword : (UInt32.ofNat i).toUInt64 = UInt64.ofNat i := by
    rw [← UInt64.toNat_inj, UInt32.toNat_toUInt64, toNat_ofNat_node hi]
    unfold maxSupportedNodeCount at hi
    exact (UInt64.toNat_ofNat_of_lt' (by simp only [UInt64.size]; omega)).symm
  rw [hword, ← UInt64.ofNat_one, ← UInt64.ofNat_add]

/-- One round of pass 1 makes one call. -/
theorem placeSite_atSite [Zero F] (h : params.Fits) {i : Nat} (hi : i < params.sites)
    (b : GraphBuilder F) :
    placeSite params (params.atSite i b) (UInt32.ofNat (i / params.width.toNat))
        (UInt32.ofNat (i % params.width.toNat))
      = (params.place b i).map (params.atSite (i + 1)) := by
  have hnumber := h.toNat_ofNat hi
  have hrest : params.sites - i = params.sites - (i + 1) + 1 := by omega
  have hset : ((params.atSite i b).coordinates).set i (params.siteAt i)
      = (params.atSite (i + 1) b).coordinates := by
    unfold atSite
    rw [hrest, GraphBuilder.set_append_replicate _ _ _ _ (by simp), List.range_succ,
      List.map_append]
    rfl
  have hlen : i < (params.atSite i b).coordinates.length := by
    simp only [atSite, List.length_append, List.length_map, List.length_range,
      List.length_replicate]
    omega
  have hstore : store (params.atSite i b).coordinates i (params.siteAt i)
      = .ok (params.atSite (i + 1) b).coordinates := by
    rw [store, if_pos hlen, hset]
  have hread : subscript (params.atSite (i + 1) b).coordinates i = .ok (params.siteAt i) := by
    rw [subscript_eq_ok, ← hset, List.getElem?_set_self hlen]
  have hcol : (UInt32.ofNat (i % params.width.toNat)).toNat = i % params.width.toNat :=
    toNat_ofNat_lt (h.col_lt i)
  have hrow : (UInt32.ofNat (i / params.width.toNat)).toNat = i / params.width.toNat :=
    toNat_ofNat_lt (row_lt hi)
  have hrng : (params.atSite i b).rng = SplitMix64.skip ⟨params.seed⟩ (2 * i) := rfl
  unfold placeSite
  simp only [hrng, SplitMix64.nextUnit_skip, index_eq, hnumber, hcol, hrow]
  -- the coordinate written is that of the site, and it is read back for the call
  change (do
    let coordinates ← store (params.atSite i b).coordinates i (params.siteAt i)
    let coordinate ← subscript coordinates i
    let result ← (GraphBuilder.setNode (UInt32.ofNat i) coordinate
      ((UInt32.ofNat i).toUInt64 + 1)).call b
    return (⟨result.2, SplitMix64.skip ⟨params.seed⟩ (2 * i + 1 + 1), coordinates⟩ : Lattice F)) = _
  rw [hstore, ok_bind, hread, ok_bind, toUInt64_ofNat (hi.trans_le h.sites_le), place]
  cases (GraphBuilder.setNode (UInt32.ofNat i) (params.siteAt i) (UInt64.ofNat (i + 1))).call b <;>
    rfl

/-- **Pass 1** is the calls of `set_node` for the sites in order. -/
theorem placeSites_eq [Zero F] (h : params.Fits) (b : GraphBuilder F) :
    eachCell (fun row => row < params.height) (fun col => col < params.width) (placeSite params)
        (params.atSite 0 b)
      = ((List.range params.sites).foldlM params.place b).map (params.atSite params.sites) := by
  let round : Lattice F → Nat → Outcome (Lattice F) := fun s i =>
    placeSite params s (UInt32.ofNat (i / params.width.toNat))
      (UInt32.ofNat (i % params.width.toNat))
  have hround : ∀ i, i < params.sites → ∀ b : GraphBuilder F,
      round (params.atSite i b) i = ([i].foldlM params.place b).map (params.atSite (i + 1)) := by
    intro i hi b
    simp only [List.foldlM_cons, List.foldlM_nil, bind_pure]
    exact placeSite_atSite h hi b
  have hbatch := RangeLoop.foldlM_range_batch round params.place params.atSite (fun i => [i])
    params.sites hround b
  rw [List.flatMap_singleton'] at hbatch
  rw [eachCell_lt]
  exact hbatch

/-- The calls succeed exactly when every site has a finite coordinate. -/
theorem foldlM_place_eq_ok_iff [Zero F] (h : params.Fits) {b : GraphBuilder F} :
    (List.range params.sites).foldlM params.place (GraphBuilder.fresh params.sites) = .ok b ↔
      (∀ c ∈ params.coordinates, isFinite c.x = true ∧ isFinite c.y = true) ∧
        b = GraphBuilder.complete params.coordinates params.externalIds [] := by
  let state : Nat → GraphBuilder F := fun i =>
    GraphBuilder.partly ((List.range i).map params.siteAt)
      ((List.range i).map (fun i => UInt64.ofNat (i + 1))) (params.sites - i)
  let failure : Nat → Option Failure := fun i =>
    if isFinite (params.siteAt i).x = true ∧ isFinite (params.siteAt i).y = true then none
    else some (GraphBuilder.coordinateError (UInt32.ofNat i))
  have hround : ∀ i, i < params.sites →
      params.place (state i) i = Script.passOr (failure i) (state (i + 1)) := by
    intro i hi
    have hrest : params.sites - i = params.sites - (i + 1) + 1 := by omega
    have hids : ((List.range i).map (fun i => UInt64.ofNat (i + 1))).length
        = ((List.range i).map params.siteAt).length := by
      simp
    have hset := GraphBuilder.setNode_partly hids (by simpa using hi.trans_le h.sites_le)
      (params.sites - (i + 1)) (params.siteAt i) (UInt64.ofNat (i + 1))
    rw [List.length_map, List.length_range, ← hrest] at hset
    simp only [place, Method.call, state, failure, hset, List.range_succ, List.map_append,
      List.map_cons, List.map_nil]
    split_ifs <;> rfl
  have hrun := Script.foldlM_range params.place state failure params.sites hround
  have hstart : state 0 = GraphBuilder.fresh params.sites := by
    rw [GraphBuilder.fresh_eq_partly]
    rfl
  have hend : state params.sites
      = GraphBuilder.complete params.coordinates params.externalIds [] := by
    rw [← GraphBuilder.partly_zero]
    simp only [state, Nat.sub_self]
    rfl
  rw [hstart, hend] at hrun
  rw [hrun, Script.passOr_eq_ok, List.findSome?_eq_none_iff]
  refine and_congr ?_ eq_comm
  simp only [coordinates, List.forall_mem_map, failure, ite_eq_left_iff, reduceCtorEq, imp_false,
    not_not]

end Place

/-! ## Passes 2 and 3 -/

/-- The site in a row and a column has a number. -/
theorem number_lt {r c : Nat} (hr : r < params.height.toNat) (hc : c < params.width.toNat) :
    r * params.width.toNat + c < params.sites := by
  have hrows : (r + 1) * params.width.toNat ≤ params.sites := Nat.mul_le_mul_right _ hr
  rw [Nat.add_mul] at hrows
  omega

/-- The test whether a row or column has a next one. -/
theorem succ_lt_iff {i : Nat} {bound : UInt32} (h : i < bound.toNat) :
    UInt32.ofNat i + 1 < bound ↔ i + 1 < bound.toNat := by
  have hbound : bound.toNat < 4294967296 := bound.toNat_lt
  rw [UInt32.lt_iff_toNat_lt, ← UInt32.ofNat_one, ← UInt32.ofNat_add, UInt32.toNat_ofNat']
  omega

/-- Both ends of a connection are sites. -/
def Joins (params : GeneratorParams F) (connection : Nat × Nat) : Prop :=
  connection.1 < params.sites ∧ connection.2 < params.sites

theorem Fits.joins_of_mem_neighboursOf (h : params.Fits) {i : Nat} (hi : i < params.sites) :
    ∀ connection ∈ params.neighboursOf i, params.Joins connection := by
  intro connection hmem
  have hsplit : i / params.width.toNat * params.width.toNat + i % params.width.toNat = i :=
    Nat.div_add_mod' i _
  simp only [neighboursOf, List.mem_append, List.mem_ite_nil_right, List.mem_singleton] at hmem
  rcases hmem with ⟨hcol, rfl⟩ | ⟨hrow, rfl⟩
  · have hright := number_lt (row_lt hi) hcol
    exact ⟨hi, by show i + 1 < _; omega⟩
  · have hbelow := number_lt hrow (h.col_lt i)
    rw [Nat.add_mul] at hbelow
    exact ⟨hi, by show i + params.width.toNat < _; omega⟩

/-- The row and the column of a cell. -/
theorem cell_lt {k : Nat} (hk : k < params.cells) :
    k / (params.width.toNat - 1) + 1 < params.height.toNat ∧
      k % (params.width.toNat - 1) + 1 < params.width.toNat := by
  have hpos : 0 < params.width.toNat - 1 := by
    by_contra hzero
    have hnone : params.width.toNat - 1 = 0 := by omega
    rw [cells, hnone, Nat.mul_zero] at hk
    exact absurd hk (Nat.not_lt_zero k)
  have hrow : k / (params.width.toNat - 1) < params.height.toNat - 1 :=
    Nat.div_lt_of_lt_mul (by rwa [cells, Nat.mul_comm] at hk)
  exact ⟨Nat.add_lt_of_lt_sub hrow, Nat.add_lt_of_lt_sub (Nat.mod_lt k hpos)⟩

theorem joins_of_mem_diagonalsOf [Mul F] [UnitArith F] [LT F] [DecidableLT F] {k : Nat}
    (hk : k < params.cells) : ∀ connection ∈ params.diagonalsOf k, params.Joins connection := by
  intro connection hmem
  obtain ⟨hrow, hcol⟩ := cell_lt hk
  have htop := number_lt (Nat.lt_of_succ_lt hrow) hcol
  have hbottom := number_lt hrow hcol
  rw [Nat.add_mul] at hbottom
  simp only [diagonalsOf, corner, List.mem_append, List.mem_ite_nil_right,
    List.mem_singleton] at hmem
  rcases hmem with ⟨-, rfl⟩ | ⟨-, rfl⟩
  · exact ⟨by show _ + _ < _; omega, by show _ + _ + _ + 1 < _; omega⟩
  · exact ⟨by show _ + _ + 1 < _; omega, by show _ + _ + _ < _; omega⟩

section Connect

variable [IsFinite F] [Zero F] [UnitArith F] [Add F] [Sub F] [Mul F] [LT F] [DecidableLT F]
variable (distance : Coord F → Coord F → F) (params)

/-- The variables after pass 1 and `k` draws. -/
def afterDraws (k : Nat) (b : GraphBuilder F) : Lattice F where
  builder := b
  rng := SplitMix64.skip ⟨params.seed⟩ k
  coordinates := params.coordinates

/-- `connect` for the numbers of two sites. -/
def join (s : Lattice F) (connection : Nat × Nat) : Outcome (Lattice F) :=
  connect distance s (UInt32.ofNat connection.1) (UInt32.ofNat connection.2)

variable {params}

/-- A connection adds its two arcs. -/
theorem join_afterDraws (h : params.Fits) {connection : Nat × Nat}
    (hjoins : params.Joins connection) (k : Nat) (b : GraphBuilder F) :
    join distance (params.afterDraws k b) connection
      = ((params.arcsOf distance connection).foldlM GraphBuilder.stage b).map
          (params.afterDraws k) := by
  have hread : ∀ i, i < params.sites → subscript params.coordinates (UInt32.ofNat i).toNat
      = .ok (params.siteAt i) := by
    intro i hi
    rw [h.toNat_ofNat hi, subscript_eq_ok, coordinates, List.getElem?_map,
      List.getElem?_range hi, Option.map_some]
  unfold join connect
  change (do
    let fromCoord ← subscript params.coordinates (UInt32.ofNat connection.1).toNat
    let toCoord ← subscript params.coordinates (UInt32.ofNat connection.2).toNat
    let first ← (GraphBuilder.addArc (UInt32.ofNat connection.1)
      (UInt32.ofNat connection.2) (distance fromCoord toCoord)).call b
    let second ← (GraphBuilder.addArc (UInt32.ofNat connection.2)
      (UInt32.ofNat connection.1) (distance fromCoord toCoord)).call first.2
    return ({ params.afterDraws k b with builder := second.2 } : Lattice F)) = _
  rw [hread _ hjoins.1, ok_bind, hread _ hjoins.2, ok_bind]
  simp only [arcsOf, List.foldlM_cons, List.foldlM_nil, bind_pure, GraphBuilder.stage]
  cases (GraphBuilder.addArc (UInt32.ofNat connection.1) (UInt32.ofNat connection.2)
      (distance (params.siteAt connection.1) (params.siteAt connection.2))).call b with
  | error e => rfl
  | ok first =>
      show _ = Except.map _ (Except.map Prod.snd _)
      simp only [ok_bind]
      cases (GraphBuilder.addArc (UInt32.ofNat connection.2) (UInt32.ofNat connection.1)
        (distance (params.siteAt connection.1) (params.siteAt connection.2))).call first.2 <;> rfl

/-- A list of connections adds their arcs. -/
theorem foldlM_join_afterDraws (h : params.Fits) {connections : List (Nat × Nat)}
    (hjoins : ∀ connection ∈ connections, params.Joins connection) (k : Nat)
    (b : GraphBuilder F) :
    connections.foldlM (join distance) (params.afterDraws k b)
      = ((connections.flatMap (params.arcsOf distance)).foldlM GraphBuilder.stage b).map
          (params.afterDraws k) := by
  induction connections generalizing b with
  | nil => rfl
  | cons connection connections ih =>
      rw [List.foldlM_cons, join_afterDraws distance h (hjoins _ (by simp)), List.flatMap_cons,
        List.foldlM_append]
      cases (params.arcsOf distance connection).foldlM GraphBuilder.stage b with
      | error e => rfl
      | ok b' => exact ih (fun c hc => hjoins c (by simp [hc])) b'

omit [UnitArith F] [Add F] [Sub F] [Mul F] in
/-- The body of pass 2 makes the connections of its site. -/
theorem connectNeighbours_eq (h : params.Fits) {i : Nat} (hi : i < params.sites)
    (s : Lattice F) :
    connectNeighbours distance params s (UInt32.ofNat (i / params.width.toNat))
        (UInt32.ofNat (i % params.width.toNat))
      = (params.neighboursOf i).foldlM (join distance) s := by
  have hright : UInt32.ofNat i + 1 = UInt32.ofNat (i + 1) := (UInt32.ofNat_add i 1).symm
  have hbelow : UInt32.ofNat i + params.width = UInt32.ofNat (i + params.width.toNat) := by
    rw [UInt32.ofNat_add, UInt32.ofNat_toNat]
  unfold connectNeighbours neighboursOf
  simp only [index_eq, succ_lt_iff (h.col_lt i), succ_lt_iff (row_lt hi), hright, hbelow]
  split_ifs <;> simp only [List.cons_append, List.nil_append, List.foldlM_cons, List.foldlM_nil,
    bind_pure, pure_bind, join]

/-- **Pass 2** adds the arcs of the backbone. -/
theorem connectNeighbours_pass (h : params.Fits) (b : GraphBuilder F) :
    eachCell (fun row => row < params.height) (fun col => col < params.width)
        (connectNeighbours distance params) (params.afterDraws (2 * params.sites) b)
      = ((params.backbone.flatMap (params.arcsOf distance)).foldlM GraphBuilder.stage b).map
          (params.afterDraws (2 * params.sites)) := by
  let round : Lattice F → Nat → Outcome (Lattice F) := fun s i =>
    connectNeighbours distance params s (UInt32.ofNat (i / params.width.toNat))
      (UInt32.ofNat (i % params.width.toNat))
  have hround : ∀ i, i < params.sites → ∀ b : GraphBuilder F,
      round (params.afterDraws (2 * params.sites) b) i
        = (((params.neighboursOf i).flatMap (params.arcsOf distance)).foldlM
            GraphBuilder.stage b).map (params.afterDraws (2 * params.sites)) := by
    intro i hi b
    rw [← foldlM_join_afterDraws distance h (h.joins_of_mem_neighboursOf hi)]
    exact connectNeighbours_eq distance h hi _
  have hbatch := RangeLoop.foldlM_range_batch round GraphBuilder.stage
    (fun _ => params.afterDraws (2 * params.sites)) _ params.sites hround b
  rw [eachCell_lt, backbone, List.flatMap_assoc]
  exact hbatch

/-- A connection that is made or not. -/
theorem offer_eq (h : params.Fits) {connection : Nat × Nat} {accepted : Prop}
    [Decidable accepted] (hjoins : accepted → params.Joins connection) (m : Nat)
    (b : GraphBuilder F) :
    (if accepted then join distance (params.afterDraws m b) connection
        else pure (params.afterDraws m b))
      = (((if accepted then [connection] else []).flatMap (params.arcsOf distance)).foldlM
          GraphBuilder.stage b).map (params.afterDraws m) := by
  by_cases hacc : accepted
  · rw [if_pos hacc, if_pos hacc, List.flatMap_singleton, join_afterDraws distance h (hjoins hacc)]
  · rw [if_neg hacc, if_neg hacc]
    rfl

/-- The body of pass 3 draws twice and makes the accepted connections of its cell. -/
theorem offerDiagonals_eq (h : params.Fits) {k : Nat} (hk : k < params.cells)
    (b : GraphBuilder F) :
    offerDiagonals distance params (params.afterDraws (2 * params.sites + 2 * k) b)
        (UInt32.ofNat (k / (params.width.toNat - 1))) (UInt32.ofNat (k % (params.width.toNat - 1)))
      = (((params.diagonalsOf k).flatMap (params.arcsOf distance)).foldlM
          GraphBuilder.stage b).map (params.afterDraws (2 * params.sites + 2 * (k + 1))) := by
  set m := 2 * params.sites + 2 * k with hm
  set topLeft := params.corner k with htop
  have hright : UInt32.ofNat topLeft + 1 = UInt32.ofNat (topLeft + 1) :=
    (UInt32.ofNat_add topLeft 1).symm
  have hbelow : UInt32.ofNat topLeft + params.width
      = UInt32.ofNat (topLeft + params.width.toNat) := by
    rw [UInt32.ofNat_add, UInt32.ofNat_toNat]
  have hopposite : UInt32.ofNat (topLeft + params.width.toNat) + 1
      = UInt32.ofNat (topLeft + params.width.toNat + 1) := (UInt32.ofNat_add _ 1).symm
  have hjoins := joins_of_mem_diagonalsOf hk
  simp only [diagonalsOf, accepts, ← hm, ← htop, List.mem_append, List.mem_ite_nil_right,
    List.mem_singleton, decide_eq_true_eq, Bool.toNat_false, Bool.toNat_true,
    Nat.add_zero] at hjoins ⊢
  unfold offerDiagonals
  simp only [corner_eq, ← htop, hright, hbelow, hopposite]
  -- the second draw is the next one, whether or not the first diagonal was accepted
  have hsecond : ∀ b' : GraphBuilder F, (if (params.drawAt (m + 1) : F) < params.diagonalRate then
        join distance (params.afterDraws (m + 2) b') (topLeft + 1, topLeft + params.width.toNat)
      else pure (params.afterDraws (m + 2) b')) = _ :=
    fun b' => offer_eq distance h (fun hacc => hjoins _ (Or.inr ⟨hacc, rfl⟩)) (m + 2) b'
  have hfirst := offer_eq distance h (fun hacc => hjoins _ (Or.inl ⟨hacc, rfl⟩)) (m + 1) b
  let second : Lattice F → Outcome (Lattice F) := fun s =>
    if (s.rng.nextUnit.1 : F) < params.diagonalRate then
      join distance { s with rng := (s.rng.nextUnit (F := F)).2 }
        (topLeft + 1, topLeft + params.width.toNat)
    else pure { s with rng := (s.rng.nextUnit (F := F)).2 }
  change (if (params.drawAt m : F) < params.diagonalRate then
      join distance (params.afterDraws (m + 1) b) (topLeft, topLeft + params.width.toNat + 1)
        >>= second
    else pure (params.afterDraws (m + 1) b) >>= second) = _
  have hjump : ∀ x y : Outcome (Lattice F),
      (if (params.drawAt m : F) < params.diagonalRate then x >>= second else y >>= second)
        = ((if (params.drawAt m : F) < params.diagonalRate then x else y) >>= second) :=
    fun x y => (apply_ite (fun z => z >>= second) _ x y).symm
  rw [hjump, hfirst, List.flatMap_append, List.foldlM_append]
  cases ((if (params.drawAt m : F) < params.diagonalRate then
      [(topLeft, topLeft + params.width.toNat + 1)] else []).flatMap
      (params.arcsOf distance)).foldlM GraphBuilder.stage b with
  | error e => rfl
  | ok b' => exact hsecond b'

/-- **Pass 3** adds the arcs of the accepted diagonals. -/
theorem offerDiagonals_pass (h : params.Fits) (b : GraphBuilder F) :
    eachCell (fun row => row + 1 < params.height) (fun col => col + 1 < params.width)
        (offerDiagonals distance params) (params.afterDraws (2 * params.sites) b)
      = ((params.diagonals.flatMap (params.arcsOf distance)).foldlM GraphBuilder.stage b).map
          (params.afterDraws (2 * params.sites + 2 * params.cells)) := by
  let round : Lattice F → Nat → Outcome (Lattice F) := fun s k =>
    offerDiagonals distance params s (UInt32.ofNat (k / (params.width.toNat - 1)))
      (UInt32.ofNat (k % (params.width.toNat - 1)))
  have hbatch := RangeLoop.foldlM_range_batch round GraphBuilder.stage
    (fun k => params.afterDraws (2 * params.sites + 2 * k))
    (fun k => (params.diagonalsOf k).flatMap (params.arcsOf distance)) params.cells
    (fun k hk b => offerDiagonals_eq distance h hk b) b
  rw [eachCell_succ_lt, diagonals, List.flatMap_assoc]
  exact hbatch

omit [IsFinite F] [Zero F] [UnitArith F] [Add F] [Sub F] [Mul F] [LT F] [DecidableLT F] in
/-- The node count that the passes compute is the number of sites. -/
theorem Fits.toNat_mul (h : params.Fits) :
    (params.width * params.height).toNat = params.sites := by
  have hle := h.sites_le
  rw [UInt32.toNat_mul, Nat.mul_comm]
  unfold maxSupportedNodeCount at hle
  exact Nat.mod_eq_of_lt (by rw [← sites]; omega)

/-- **The three passes**: the sites are placed, then all arcs are added. -/
theorem runPasses_eq (h : params.Fits) (b : GraphBuilder F) :
    (runPasses distance params b).map Lattice.builder
      = (do
        let b ← (List.range params.sites).foldlM params.place b
        (params.latticeArcs distance).foldlM GraphBuilder.stage b) := by
  have hstart : (⟨b, ⟨params.seed⟩, List.replicate (params.width * params.height).toNat Coord.zero⟩
      : Lattice F) = params.atSite 0 b := by
    rw [h.toNat_mul]
    rfl
  have hplaced : ∀ b : GraphBuilder F,
      params.atSite params.sites b = params.afterDraws (2 * params.sites) b := by
    intro b
    simp only [atSite, afterDraws, coordinates, Nat.sub_self, List.replicate_zero, List.append_nil]
  unfold runPasses latticeArcs
  simp only [hstart, placeSites_eq h, List.flatMap_append, List.foldlM_append]
  cases (List.range params.sites).foldlM params.place b with
  | error e => rfl
  | ok b₁ =>
      show Except.map _ (eachCell _ _ _ (params.atSite params.sites b₁) >>= _) = _
      rw [hplaced, connectNeighbours_pass distance h, ok_bind]
      cases (params.backbone.flatMap (params.arcsOf distance)).foldlM GraphBuilder.stage b₁ with
      | error e => rfl
      | ok b₂ =>
          show Except.map _ (Except.ok (params.afterDraws (2 * params.sites) b₂) >>= _) = _
          rw [ok_bind, ok_bind, offerDiagonals_pass distance h]
          cases (params.diagonals.flatMap (params.arcsOf distance)).foldlM GraphBuilder.stage b₂ <;>
            rfl

end Connect

end GeneratorParams

end RouteEngine
