import Mathlib.Algebra.BigOperators.Ring.Finset
import RouteEngine.GeneratorRun

set_option autoImplicit false

/-! # The connections of the lattice

`Connects` says in rows and columns which sites are joined: the horizontal and the vertical
neighbours, and the ends of a diagonal of a cell whose draw is below the diagonal rate. The
passes make exactly these connections (`mem_connections_iff`), each of them once
(`nodup_connections`). -/

namespace RouteEngine

variable {F : Type}

namespace GeneratorParams

/-- The number of the site in a row and a column. -/
def siteIndex (params : GeneratorParams F) (r c : Nat) : Nat := r * params.width.toNat + c

section

variable {params : GeneratorParams F} {r c : Nat}

theorem siteIndex_div_mod (params : GeneratorParams F) (i : Nat) :
    params.siteIndex (i / params.width.toNat) (i % params.width.toNat) = i :=
  Nat.div_add_mod' i _

theorem siteIndex_div (hc : c < params.width.toNat) :
    params.siteIndex r c / params.width.toNat = r := by
  rw [siteIndex, Nat.mul_comm, Nat.mul_add_div (by omega), Nat.div_eq_of_lt hc, Nat.add_zero]

theorem siteIndex_mod (hc : c < params.width.toNat) :
    params.siteIndex r c % params.width.toNat = c := by
  rw [siteIndex, Nat.mul_comm, Nat.mul_add_mod, Nat.mod_eq_of_lt hc]

theorem siteIndex_right (params : GeneratorParams F) (r c : Nat) :
    params.siteIndex r c + 1 = params.siteIndex r (c + 1) := rfl

theorem siteIndex_succ (params : GeneratorParams F) (r c : Nat) :
    params.siteIndex (r + 1) c = params.siteIndex r c + params.width.toNat := by
  unfold siteIndex
  rw [Nat.add_mul]
  omega

/-- The number of the cell in a row and a column. -/
theorem cell_lt_cells {r c : Nat} (hr : r + 1 < params.height.toNat)
    (hc : c + 1 < params.width.toNat) :
    r * (params.width.toNat - 1) + c < params.cells ∧
      params.corner (r * (params.width.toNat - 1) + c) = params.siteIndex r c := by
  have hcol : c < params.width.toNat - 1 := by omega
  have hrows : (r + 1) * (params.width.toNat - 1) ≤ params.cells :=
    Nat.mul_le_mul_right _ (by omega)
  rw [Nat.add_mul, Nat.one_mul] at hrows
  refine ⟨by omega, ?_⟩
  rw [corner, Nat.mul_comm r, Nat.mul_add_div (by omega), Nat.div_eq_of_lt hcol, Nat.add_zero,
    Nat.mul_add_mod, Nat.mod_eq_of_lt hcol, siteIndex]

end

/-- Sites `i` and `j` are the ends of a diagonal of a cell. -/
inductive Across (params : GeneratorParams F) : Nat → Nat → Prop
  | falling {r c : Nat} (hr : r + 1 < params.height.toNat) (hc : c + 1 < params.width.toNat) :
      Across params (params.siteIndex r c) (params.siteIndex (r + 1) (c + 1))
  | rising {r c : Nat} (hr : r + 1 < params.height.toNat) (hc : c + 1 < params.width.toNat) :
      Across params (params.siteIndex r (c + 1)) (params.siteIndex (r + 1) c)

variable [Mul F] [UnitArith F] [LT F]

/-- Site `i` is joined to the later site `j`. -/
inductive Connects (params : GeneratorParams F) : Nat → Nat → Prop
  | horizontal {r c : Nat} (hr : r < params.height.toNat) (hc : c + 1 < params.width.toNat) :
      Connects params (params.siteIndex r c) (params.siteIndex r (c + 1))
  | vertical {r c : Nat} (hr : r + 1 < params.height.toNat) (hc : c < params.width.toNat) :
      Connects params (params.siteIndex r c) (params.siteIndex (r + 1) c)
  | falling {r c : Nat} (hr : r + 1 < params.height.toNat) (hc : c + 1 < params.width.toNat)
      (hdraw : (params.drawAt (2 * params.sites + 2 * (r * (params.width.toNat - 1) + c)) : F)
        < params.diagonalRate) :
      Connects params (params.siteIndex r c) (params.siteIndex (r + 1) (c + 1))
  | rising {r c : Nat} (hr : r + 1 < params.height.toNat) (hc : c + 1 < params.width.toNat)
      (hdraw : (params.drawAt (2 * params.sites + 2 * (r * (params.width.toNat - 1) + c) + 1) : F)
        < params.diagonalRate) :
      Connects params (params.siteIndex r (c + 1)) (params.siteIndex (r + 1) c)

/-! ## The passes make these connections -/

variable {params : GeneratorParams F}

theorem connects_of_mem_neighboursOf {i : Nat} (hi : i < params.sites) {connection : Nat × Nat}
    (h : connection ∈ params.neighboursOf i) : params.Connects connection.1 connection.2 := by
  have hrow : i / params.width.toNat < params.height.toNat := row_lt hi
  have hpos : 0 < params.width.toNat := by
    by_contra hzero
    rw [sites, Nat.eq_zero_of_not_pos hzero, Nat.mul_zero] at hi
    exact absurd hi (Nat.not_lt_zero i)
  have hcol : i % params.width.toNat < params.width.toNat := Nat.mod_lt i hpos
  have hsplit := params.siteIndex_div_mod i
  simp only [neighboursOf, List.mem_append, List.mem_ite_nil_right, List.mem_singleton] at h
  rcases h with ⟨hright, rfl⟩ | ⟨hbelow, rfl⟩
  · have hconnects := Connects.horizontal hrow hright
    rwa [← siteIndex_right, hsplit] at hconnects
  · have hconnects := Connects.vertical hbelow hcol
    rwa [siteIndex_succ, hsplit] at hconnects

variable [DecidableLT F]

/-- The connections in the order in which they are made. -/
def connections (params : GeneratorParams F) : List (Nat × Nat) :=
  params.backbone ++ params.diagonals

/-- The connections of a cell, by the row and the column of the cell. -/
theorem cases_of_mem_diagonalsOf {k : Nat} (hk : k < params.cells) {connection : Nat × Nat}
    (h : connection ∈ params.diagonalsOf k) :
    ∃ r c, r + 1 < params.height.toNat ∧ c + 1 < params.width.toNat ∧
      r * (params.width.toNat - 1) + c = k ∧
      (params.accepts k false = true ∧
          connection = (params.siteIndex r c, params.siteIndex (r + 1) (c + 1)) ∨
        params.accepts k true = true ∧
          connection = (params.siteIndex r (c + 1), params.siteIndex (r + 1) c)) := by
  obtain ⟨hrow, hcol⟩ := cell_lt hk
  have hcorner : params.siteIndex (k / (params.width.toNat - 1)) (k % (params.width.toNat - 1))
      = params.corner k := rfl
  refine ⟨_, _, hrow, hcol, Nat.div_add_mod' k _, ?_⟩
  rw [← siteIndex_right, ← siteIndex_right, siteIndex_succ, hcorner]
  simpa only [diagonalsOf, List.mem_append, List.mem_ite_nil_right, List.mem_singleton] using h

theorem connects_of_mem_diagonalsOf {k : Nat} (hk : k < params.cells) {connection : Nat × Nat}
    (h : connection ∈ params.diagonalsOf k) : params.Connects connection.1 connection.2 := by
  obtain ⟨r, c, hrow, hcol, rfl, ⟨hacc, rfl⟩ | ⟨hacc, rfl⟩⟩ := cases_of_mem_diagonalsOf hk h
  · exact .falling hrow hcol (of_decide_eq_true hacc)
  · exact .rising hrow hcol (of_decide_eq_true hacc)

theorem mem_connections_iff {i j : Nat} :
    (i, j) ∈ params.connections ↔ params.Connects i j := by
  unfold connections backbone diagonals
  constructor
  · intro h
    rcases List.mem_append.mp h with hback | hdiag
    · obtain ⟨k, hk, hmem⟩ := List.mem_flatMap.mp hback
      exact connects_of_mem_neighboursOf (List.mem_range.mp hk) hmem
    · obtain ⟨k, hk, hmem⟩ := List.mem_flatMap.mp hdiag
      exact connects_of_mem_diagonalsOf (List.mem_range.mp hk) hmem
  · intro h
    rw [List.mem_append, List.mem_flatMap, List.mem_flatMap]
    cases h with
    | @horizontal r c hr hc =>
        refine Or.inl ⟨params.siteIndex r c, List.mem_range.mpr (number_lt hr (by omega)), ?_⟩
        rw [neighboursOf, siteIndex_mod (by omega), if_pos hc]
        exact List.mem_append_left _ (List.mem_singleton.mpr rfl)
    | @vertical r c hr hc =>
        refine Or.inl ⟨params.siteIndex r c, List.mem_range.mpr (number_lt (by omega) hc), ?_⟩
        rw [neighboursOf, siteIndex_div hc, if_pos hr, siteIndex_succ]
        exact List.mem_append_right _ (List.mem_singleton.mpr rfl)
    | @falling r c hr hc hdraw =>
        obtain ⟨hcell, hcorner⟩ := cell_lt_cells hr hc
        refine Or.inr ⟨_, List.mem_range.mpr hcell, ?_⟩
        have hacc : params.accepts (r * (params.width.toNat - 1) + c) false = true :=
          decide_eq_true hdraw
        rw [diagonalsOf, hcorner, if_pos hacc, ← siteIndex_right, siteIndex_succ]
        exact List.mem_append_left _ (List.mem_singleton.mpr rfl)
    | @rising r c hr hc hdraw =>
        obtain ⟨hcell, hcorner⟩ := cell_lt_cells hr hc
        refine Or.inr ⟨_, List.mem_range.mpr hcell, ?_⟩
        have hacc : params.accepts (r * (params.width.toNat - 1) + c) true = true :=
          decide_eq_true hdraw
        rw [diagonalsOf, hcorner, if_pos hacc, ← siteIndex_right, siteIndex_succ]
        exact List.mem_append_right _ (List.mem_singleton.mpr rfl)

/-! ## No connection is made twice -/

omit [Mul F] [UnitArith F] [LT F] [DecidableLT F] in
theorem nodup_backbone (params : GeneratorParams F) : params.backbone.Nodup := by
  refine RangeLoop.nodup_flatMap_range Prod.fst (fun i _ => ?_) (fun i _ connection h => ?_)
  · unfold neighboursOf
    split_ifs with hright
    · simp only [List.singleton_append, List.nodup_cons, List.mem_singleton, Prod.mk.injEq,
        true_and, List.not_mem_nil, not_false_iff, List.nodup_nil, and_true]
      omega
    all_goals simp
  · simp only [neighboursOf, List.mem_append, List.mem_ite_nil_right, List.mem_singleton] at h
    rcases h with ⟨-, rfl⟩ | ⟨-, rfl⟩ <;> rfl

/-- The cell whose diagonal a connection is. -/
def cellOf (params : GeneratorParams F) (connection : Nat × Nat) : Nat :=
  let corner := min connection.1 (connection.2 - params.width.toNat)
  corner / params.width.toNat * (params.width.toNat - 1) + corner % params.width.toNat

omit [Mul F] [UnitArith F] [LT F] [DecidableLT F] in
/-- A cell is determined by its top left site. -/
theorem cell_eq_of_corner {k : Nat} (hk : k < params.cells) :
    params.corner k / params.width.toNat * (params.width.toNat - 1)
      + params.corner k % params.width.toNat = k := by
  obtain ⟨-, hcol⟩ := cell_lt hk
  have hcorner : params.corner k
      = params.siteIndex (k / (params.width.toNat - 1)) (k % (params.width.toNat - 1)) := rfl
  rw [hcorner, siteIndex_div (by omega), siteIndex_mod (by omega)]
  exact Nat.div_add_mod' k _

theorem nodup_diagonals (params : GeneratorParams F) : params.diagonals.Nodup := by
  refine RangeLoop.nodup_flatMap_range params.cellOf (fun k _ => ?_) (fun k hk connection h => ?_)
  · unfold diagonalsOf
    split_ifs <;> simp
  · have hcell := cell_eq_of_corner hk
    simp only [diagonalsOf, List.mem_append, List.mem_ite_nil_right, List.mem_singleton] at h
    rcases h with ⟨-, rfl⟩ | ⟨-, rfl⟩
    · have hmin : min (params.corner k)
          (params.corner k + params.width.toNat + 1 - params.width.toNat) = params.corner k := by
        omega
      simpa only [cellOf, hmin] using hcell
    · have hmin : min (params.corner k + 1)
          (params.corner k + params.width.toNat - params.width.toNat) = params.corner k := by
        omega
      simpa only [cellOf, hmin] using hcell

omit [Mul F] [UnitArith F] [LT F] [DecidableLT F] in
/-- A diagonal is not a side of a cell. -/
theorem not_across_of_mem_backbone {i j : Nat} (h : (i, j) ∈ params.backbone) :
    ¬ params.Across i j := by
  obtain ⟨i', -, hside⟩ := List.mem_flatMap.mp h
  simp only [neighboursOf, List.mem_append, List.mem_ite_nil_right, List.mem_singleton,
    Prod.mk.injEq] at hside
  intro hacross
  cases hacross with
  | @falling r c hr hc =>
      have hopposite := params.siteIndex_succ r (c + 1)
      have hright := params.siteIndex_right r c
      rcases hside with ⟨hnext, rfl, hj⟩ | ⟨-, rfl, hj⟩ <;> omega
  | @rising r c hr hc =>
      have hbelow := params.siteIndex_succ r c
      have hright := params.siteIndex_right r c
      rcases hside with ⟨hnext, rfl, hj⟩ | ⟨-, rfl, hj⟩
      · -- only in a table of two columns is the second site of a row before the next row
        rw [siteIndex_mod hc] at hnext
        omega
      · omega

theorem across_of_mem_diagonals {i j : Nat}
    (h : (i, j) ∈ params.diagonals) : params.Across i j := by
  obtain ⟨k, hk, hmem⟩ := List.mem_flatMap.mp h
  obtain ⟨r, c, hrow, hcol, -, ⟨-, heq⟩ | ⟨-, heq⟩⟩ :=
    cases_of_mem_diagonalsOf (List.mem_range.mp hk) hmem
  · obtain ⟨rfl, rfl⟩ := Prod.mk.inj heq
    exact .falling hrow hcol
  · obtain ⟨rfl, rfl⟩ := Prod.mk.inj heq
    exact .rising hrow hcol

theorem nodup_connections (params : GeneratorParams F) : params.connections.Nodup :=
  List.nodup_append'.mpr ⟨params.nodup_backbone, params.nodup_diagonals,
    fun _ hback hdiag => not_across_of_mem_backbone hback (across_of_mem_diagonals hdiag)⟩

/-! ## How many connections there are -/

/-- The number of rows or columns that have a next one. -/
theorem sum_succ_lt (n : Nat) :
    ∑ i ∈ Finset.range n, (if i + 1 < n then 1 else 0) = n - 1 := by
  cases n with
  | zero => rfl
  | succ m =>
      have hbelow : ∀ i ∈ Finset.range m, (if i + 1 < m + 1 then 1 else 0) = 1 := by
        intro i hi
        exact if_pos (Nat.succ_lt_succ (Finset.mem_range.mp hi))
      rw [Finset.sum_range_succ, Finset.sum_congr rfl hbelow]
      simp

omit [Mul F] [UnitArith F] [LT F] [DecidableLT F] in
theorem length_backbone (params : GeneratorParams F) :
    params.backbone.length = params.height.toNat * (params.width.toNat - 1)
      + (params.height.toNat - 1) * params.width.toNat := by
  set rows := params.height.toNat with hrows
  set cols := params.width.toNat with hcols
  have hsite : ∀ r c, c < cols → (params.neighboursOf (params.siteIndex r c)).length
      = (if c + 1 < cols then 1 else 0) + (if r + 1 < rows then 1 else 0) := by
    intro r c hc
    rw [neighboursOf, siteIndex_mod hc, siteIndex_div hc, List.length_append]
    split_ifs <;> rfl
  calc params.backbone.length
      = ∑ r ∈ Finset.range rows, ∑ c ∈ Finset.range cols,
          (params.neighboursOf (params.siteIndex r c)).length := by
        rw [backbone, sites, RangeLoop.range_mul, List.flatMap_assoc, List.length_flatMap]
        simp only [List.flatMap_map, List.length_flatMap]
        rfl
    _ = ∑ r ∈ Finset.range rows, ∑ c ∈ Finset.range cols,
          ((if c + 1 < cols then 1 else 0) + (if r + 1 < rows then 1 else 0)) :=
        Finset.sum_congr rfl fun r _ => Finset.sum_congr rfl fun c hc =>
          hsite r c (Finset.mem_range.mp hc)
    _ = rows * (cols - 1) + (rows - 1) * cols := by
        simp only [Finset.sum_add_distrib, sum_succ_lt, Finset.sum_const, Finset.card_range,
          Nat.nsmul_eq_mul, ← Finset.mul_sum]
        rw [Nat.mul_comm cols]

/-- The diagonals are as many as the draws below the rate. -/
theorem length_diagonals (params : GeneratorParams F) :
    params.diagonals.length = (List.range (2 * params.cells)).countP (fun d =>
      decide ((params.drawAt (2 * params.sites + d) : F) < params.diagonalRate)) := by
  unfold diagonals
  induction params.cells with
  | zero => rfl
  | succ k ih =>
      have hcell : (params.diagonalsOf k).length
          = (if params.accepts k false then 1 else 0)
            + (if params.accepts k true then 1 else 0) := by
        rw [diagonalsOf, List.length_append]
        split_ifs <;> rfl
      have hrange : List.range (2 * (k + 1)) = List.range (2 * k) ++ [2 * k, 2 * k + 1] := by
        rw [Nat.mul_succ, List.range_succ, List.range_succ, List.append_assoc]
        rfl
      rw [List.range_succ, List.flatMap_append, List.length_append, ih, List.flatMap_singleton,
        hcell, hrange, List.countP_append, List.countP_cons, List.countP_cons, List.countP_nil]
      simp only [accepts, Bool.toNat_false, Bool.toNat_true, Nat.add_zero, Nat.zero_add,
        ← Nat.add_assoc, decide_eq_true_eq]
      omega

end GeneratorParams

end RouteEngine
