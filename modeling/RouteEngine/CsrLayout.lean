import RouteEngine.BuilderHistory

set_option autoImplicit false

/-! # The CSR arrays of a built graph

What `build` leaves in `offsets` and `arcs` after any history of calls: the rows partition the
array, the row of a node holds exactly the arcs that `add_arc` accepted for it, and none of the
32-bit additions on the way wraps (`CsrLayout`, `NoWrap`). -/

namespace RouteEngine

variable {F : Type}

/-- The arc that a call adds. -/
def BuilderCall.addedArc : BuilderCall F → Option (StagedArc F)
  | .addArc source target weight => some ⟨source, target, weight⟩
  | _ => none

/-- The canonical order within a row: `(target, weight)`. -/
def rowBefore [LT F] [DecidableLT F] (lhs rhs : Arc F) : Bool :=
  if lhs.target ≠ rhs.target then decide (lhs.target < rhs.target)
  else decide (lhs.weight < rhs.weight)

/-- The arrays of `g` are the rows of the arcs `added`. -/
structure Graph.CsrLayout [LT F] [DecidableLT F] (g : Graph F) (added : List (StagedArc F)) :
    Prop where
  offsets_length : g.offsets.length = g.nodeCount + 1
  offsets_first : g.offsets[0]? = some 0
  offsets_mono : g.offsets.Pairwise (· ≤ ·)
  offsets_last : g.offsets.getLast?.map UInt32.toNat = some g.arcCount
  /-- a row holds the arcs of its node, with multiplicity and in order -/
  row : ∀ u, g.contains u = true → ∃ row, g.arcsFrom u = .ok row ∧
    row.Perm ((added.filter (fun a => a.source = u)).map StagedArc.toArc) ∧
    Comparison.Sorted rowBefore row
  /-- the rows, one after the other, are the array -/
  rows : ∃ rows, (List.range g.nodeCount).mapM (fun i => g.arcsFrom (UInt32.ofNat i)) = .ok rows ∧
    rows.flatten = g.arcs
  target : ∀ arc ∈ g.arcs, g.contains arc.target = true

/-- No 32-bit addition of the two passes over the offsets wraps. -/
structure NoWrap (nodes : Nat) (staged : List (StagedArc F)) : Prop where
  /-- the increment for an arc, after the arcs before it -/
  count : ∀ front a back, staged = front ++ a :: back → ∃ sizes size,
    front.foldlM GraphBuilder.countArc (List.replicate (nodes + 1) 0) = .ok sizes ∧
    subscript sizes (a.source.toNat + 1) = .ok size ∧ (size + 1).toNat = size.toNat + 1
  /-- the addition for a row, after the rows before it -/
  sum : ∀ row, row < nodes → ∃ sizes offsets size before,
    staged.foldlM GraphBuilder.countArc (List.replicate (nodes + 1) 0) = .ok sizes ∧
    (List.range row).foldlM GraphBuilder.addPrevious sizes = .ok offsets ∧
    subscript offsets (row + 1) = .ok size ∧ subscript offsets row = .ok before ∧
    (size + before).toNat = size.toNat + before.toNat

/-! ## The additions -/

section

variable {nodes : Nat} {staged : List (StagedArc F)}

/-- A number of arcs fits into an offset. -/
theorem toNat_ofNat_arcs {n : Nat} (h : n ≤ maxArcCount) : (UInt32.ofNat n).toNat = n := by
  unfold maxArcCount at h
  exact UInt32.toNat_ofNat_of_lt' (by simp only [UInt32.size]; omega)

/-- A sum that stays within the arc capacity does not wrap. -/
theorem toNat_add_ofNat {m n : Nat} (h : m + n ≤ maxArcCount) :
    (UInt32.ofNat m + UInt32.ofNat n).toNat
      = (UInt32.ofNat m).toNat + (UInt32.ofNat n).toNat := by
  rw [← UInt32.ofNat_add, toNat_ofNat_arcs h, toNat_ofNat_arcs (by omega),
    toNat_ofNat_arcs (by omega)]

/-- The row sizes after some of the arcs. -/
theorem foldlM_countArc_zero (hsource : ∀ a ∈ staged, a.row < nodes) :
    staged.foldlM GraphBuilder.countArc (List.replicate (nodes + 1) 0)
      = .ok (Csr.table (nodes + 1) (fun i =>
          UInt32.ofNat (staged.countP (fun a => decide (a.row + 1 = i))))) := by
  have hzero : List.replicate (nodes + 1) (0 : UInt32)
      = Csr.table (nodes + 1) (fun _ => UInt32.ofNat 0) :=
    (Csr.table_const (nodes + 1) _).symm
  rw [hzero, foldlM_countArc staged hsource]
  refine congrArg Except.ok (Csr.table_congr (fun i _ => ?_))
  have hcount := Csr.foldl_countRow StagedArc.row UInt32.ofNat_add staged (fun _ => 0)
  simp only [Nat.zero_add] at hcount
  exact congrFun hcount i

theorem noWrap (hsource : ∀ a ∈ staged, a.row < nodes) (hcap : staged.length ≤ maxArcCount) :
    NoWrap nodes staged := by
  constructor
  · rintro front a back rfl
    have hfront : ∀ c ∈ front, c.row < nodes := fun c hc => hsource c (by simp [hc])
    have ha : a.row < nodes := hsource a (by simp)
    have hcount : front.countP (fun c => decide (c.row + 1 = a.source.toNat + 1))
        ≤ front.length := List.countP_le_length
    simp only [List.length_append, List.length_cons] at hcap
    refine ⟨_, _, foldlM_countArc_zero hfront, subscript_table _ (Nat.add_lt_add_right ha 1), ?_⟩
    refine toNat_add_ofNat (le_trans (Nat.add_le_add_right hcount 1) ?_)
    omega
  · intro row hrow
    have hsizes := foldlM_countArc_zero hsource
    have hrows : ∀ r ∈ List.range row, r < nodes :=
      fun r hr => (List.mem_range.mp hr).trans hrow
    refine ⟨_, _, _, _, hsizes, foldlM_addPrevious _ hrows _, subscript_table _ (by omega),
      subscript_table _ (by omega), ?_⟩
    have hcount := Csr.foldl_countRow StagedArc.row UInt32.ofNat_add staged (fun _ => 0)
    simp only [Nat.zero_add] at hcount
    have hsum := Csr.foldl_sumRow StagedArc.row UInt32.ofNat_add staged row
    rw [hcount] at hsum
    rw [hsum]
    -- the size of the row and the total before it are the total after it
    have hbelow := Csr.below_succ StagedArc.row staged row
    have hle := Csr.below_le_length StagedArc.row staged (row + 1)
    have hsize : staged.countP (fun a => decide (a.row + 1 = row + 1))
        = staged.countP (fun a => decide (a.row = row)) := by
      simp only [Nat.add_right_cancel_iff]
    simp only [Nat.le_refl, if_true, show ¬ row + 1 ≤ row by omega, if_false]
    refine toNat_add_ofNat ?_
    rw [hsize]
    omega

end

/-! ## The arcs a history staged -/

section

variable [IsFinite F] [Zero F] [Top F] [LT F] [DecidableLT F] [LE F] [DecidableLE F] [Div F]
  [FiniteOrder F]
variable {distance : Coord F → Coord F → F}
  {std : Comparison.Sorter (GraphBuilder.stagedBefore (F := F))}

omit [IsFinite F] [Zero F] [Top F] [LT F] [DecidableLT F] [LE F] [DecidableLE F] [Div F]
  [FiniteOrder F] in
/-- A call whose checks pass stages the arc that it adds. -/
theorem BuilderCall.staged_update {b : GraphBuilder F} {call : BuilderCall F}
    (hc : (call.update b).consumed = false) :
    (call.update b).staged = b.staged ++ call.addedArc.toList := by
  cases call with
  | setNode id coordinate externalId => simp [update, GraphBuilder.withNode, addedArc]
  | addArc source target weight => simp [update, GraphBuilder.withArc, addedArc]
  | build => simp [update, GraphBuilder.spent] at hc

omit [FiniteOrder F] [Top F] [LE F] [DecidableLE F] [Div F] in
/-- A call whose checks pass finds the builder unconsumed. -/
theorem BuilderCall.consumed_of_failure {b : GraphBuilder F} {call : BuilderCall F}
    (h : call.failure b = none) : b.consumed = false := by
  cases hc : b.consumed with
  | false => rfl
  | true => simp [call.failure_of_consumed hc] at h

/-- **The staged arcs are those of the accepted calls**, by induction on the calls. -/
theorem GraphBuilder.Valid.staged_after {b : GraphBuilder F} (h : b.Valid)
    (calls : List (BuilderCall F)) (hc : (b.after distance std calls).consumed = false) :
    b.consumed = false ∧ (b.after distance std calls).staged
      = b.staged ++ (b.accepted distance std calls).filterMap BuilderCall.addedArc := by
  induction calls generalizing b with
  | nil => exact ⟨hc, by simp [GraphBuilder.after, GraphBuilder.accepted]⟩
  | cons call calls ih =>
      simp only [GraphBuilder.after, List.foldl_cons, GraphBuilder.accepted, Method.stateAfter,
        call.perform_eq h] at hc ⊢
      cases hf : call.failure b with
      | some e =>
          rw [hf] at hc
          exact ih h hc
      | none =>
          rw [hf] at hc
          obtain ⟨hnext, hstaged⟩ := ih (BuilderCall.valid_update h hf) hc
          refine ⟨BuilderCall.consumed_of_failure hf, ?_⟩
          rw [BuilderCall.staged_update hnext] at hstaged
          refine hstaged.trans ?_
          rw [List.append_assoc]
          cases harc : call.addedArc <;> simp [harc]

/-! ## The layout -/

namespace Graph.OverArcs

variable {g : Graph F} {staged : List (StagedArc F)}

omit [FiniteOrder F] in
theorem getElem?_offsets (h : g.OverArcs distance staged) {i : Nat} (hi : i < g.nodeCount + 1) :
    g.offsets[i]? = some (UInt32.ofNat (Csr.below StagedArc.row staged i)) := by
  rw [h.offsets_eq]
  exact Csr.getElem?_table _ hi

omit [FiniteOrder F] in
theorem pairwise_offsets (h : g.OverArcs distance staged) : g.offsets.Pairwise (· ≤ ·) := by
  rw [h.offsets_eq, canonicalOffsets, Csr.table, List.pairwise_map]
  refine List.Pairwise.imp (fun {i j} hij => ?_) List.pairwise_lt_range
  rw [UInt32.le_iff_toNat_le, toNat_ofNat_below h.arcs_le, toNat_ofNat_below h.arcs_le]
  exact Csr.below_mono StagedArc.row staged (Nat.le_of_lt hij)

omit [FiniteOrder F] in
theorem getLast?_offsets (h : g.OverArcs distance staged) :
    g.offsets.getLast?.map UInt32.toNat = some g.arcCount := by
  have hlength : g.offsets.length = g.nodeCount + 1 := by
    rw [h.offsets_eq, length_canonicalOffsets]
  have hall : Csr.below StagedArc.row staged g.nodeCount = staged.length :=
    Csr.below_eq_length StagedArc.row staged (fun a ha => (h.admissible a ha).source_lt)
  rw [List.getLast?_eq_getElem?, hlength, Nat.add_sub_cancel,
    h.getElem?_offsets (Nat.lt_succ_self _), Option.map_some, toNat_ofNat_below h.arcs_le, hall,
    h.arcCount_eq]

omit [FiniteOrder F] in
/-- The row of a node is sorted by target and weight. -/
theorem sorted_rowOf (h : g.OverArcs distance staged) (u : NodeId) :
    Comparison.Sorted rowBefore (rowOf staged u) := by
  rw [rowOf, Comparison.Sorted, List.pairwise_map]
  have hsorted : (staged.filter (fun a => decide (a.source = u))).Pairwise
      (fun a b => GraphBuilder.stagedBefore b a = false) := h.sorted.sublist List.filter_sublist
  refine hsorted.imp_of_mem (fun {a b} ha hb hab => ?_)
  rw [List.mem_filter, decide_eq_true_eq] at ha hb
  -- within a row the sources agree
  simp only [GraphBuilder.stagedBefore, ha.2, hb.2, ne_eq, not_true_eq_false, if_false] at hab
  exact hab

omit [FiniteOrder F] in
/-- The rows read through `arcs_from`, node by node. -/
theorem mapM_arcsFrom (h : g.OverArcs distance staged) :
    (List.range g.nodeCount).mapM (fun i => g.arcsFrom (UInt32.ofNat i))
      = .ok ((List.range g.nodeCount).map (fun i => rowOf staged (UInt32.ofNat i))) := by
  refine mapM_eq_ok (fun i hi => h.arcsFrom_eq ?_)
  have hlt := List.mem_range.mp hi
  rw [g.contains_iff, toNat_ofNat_node (hlt.trans_le h.nodes_le)]
  exact hlt

omit [FiniteOrder F] in
theorem flatten_rows (h : g.OverArcs distance staged) :
    ((List.range g.nodeCount).map (fun i => rowOf staged (UInt32.ofNat i))).flatten = g.arcs := by
  have hrow : ∀ i ∈ List.range g.nodeCount, rowOf staged (UInt32.ofNat i)
      = (staged.filter (fun a => decide (a.row = i))).map StagedArc.toArc := by
    intro i hi
    have hlt := (List.mem_range.mp hi).trans_le h.nodes_le
    rw [rowOf, ← filter_row_eq, toNat_ofNat_node hlt]
  have hall : staged.filter (fun a => decide (a.row < g.nodeCount)) = staged :=
    List.filter_eq_self.mpr (fun a ha => decide_eq_true (h.admissible a ha).source_lt)
  rw [List.map_congr_left hrow, ← List.flatMap_def, ← List.map_flatMap,
    Csr.flatMap_rows StagedArc.row h.sortedBySource, hall, h.arcs_eq]

omit [FiniteOrder F] in
/-- **The arrays over sorted arcs are their rows.** -/
theorem csrLayout (h : g.OverArcs distance staged) {added : List (StagedArc F)}
    (hperm : staged.Perm added) : g.CsrLayout added where
  offsets_length := by rw [h.offsets_eq, length_canonicalOffsets]
  offsets_first := by rw [h.getElem?_offsets (Nat.succ_pos _), Csr.below_zero]; rfl
  offsets_mono := h.pairwise_offsets
  offsets_last := h.getLast?_offsets
  row u hu := ⟨rowOf staged u, h.arcsFrom_eq hu, (hperm.filter _).map _, h.sorted_rowOf u⟩
  rows := ⟨_, h.mapM_arcsFrom, h.flatten_rows⟩
  target := by
    intro arc harc
    rw [h.arcs_eq, List.mem_map] at harc
    obtain ⟨a, ha, rfl⟩ := harc
    exact (g.contains_iff _).mpr (h.admissible a ha).target_lt

end Graph.OverArcs

variable (distance std) in
/-- **The CSR arrays of every built graph**: whatever calls were made on the builder, in any
order and failing ones included, a `build` that succeeds stores exactly the arcs that `add_arc`
accepted, row by row, and computes the offsets without wrapping. -/
theorem build_csrLayout (nodes : Nat) (start b' : GraphBuilder F) (calls : List (BuilderCall F))
    (g : Graph F) (hnew : GraphBuilder.new nodes = .ok start)
    (hbuild : GraphBuilder.build distance std (start.after distance std calls) = .ok g b') :
    g.CsrLayout ((start.accepted distance std calls).filterMap BuilderCall.addedArc) ∧
      NoWrap g.nodeCount (std.sort (start.after distance std calls).staged) := by
  have hstart : start.Valid := GraphBuilder.valid_new hnew
  have hvalid : (start.after distance std calls).Valid := hstart.after calls
  obtain ⟨hnone, -, rfl⟩ := (GraphBuilder.build_eq_ok_iff hvalid).mp hbuild
  have hover : (canonicalGraph distance _ _ _).OverArcs distance
      (std.sort (start.after distance std calls).staged) := hvalid.overArcs hnone
  have hconsumed := (hvalid.all_assigned hnone).1
  obtain ⟨-, hstaged⟩ := hstart.staged_after calls hconsumed
  have hempty : start.staged = [] := by
    unfold GraphBuilder.new validateNodeCapacity at hnew
    split_ifs at hnew
    · simp at hnew
    · obtain rfl := Except.ok.inj hnew
      rfl
  rw [hempty, List.nil_append] at hstaged
  refine ⟨hover.csrLayout ?_, noWrap (fun a ha => (hover.admissible a ha).source_lt) hover.arcs_le⟩
  rw [← hstaged]
  exact std.perm _

end

/-- Calls with parallel arcs, a self-loop, an empty row and a rejected arc. -/
def parallelCalls : List (BuilderCall Binary64) :=
  [.setNode 0 ⟨0, 0⟩ 7, .setNode 1 ⟨0, 0⟩ 8, .setNode 2 ⟨0, 0⟩ 9, .addArc 2 1 1, .addArc 0 3 1,
    .addArc 0 2 1, .addArc 0 0 0, .addArc 2 1 1]

theorem build_csrLayout_parallel :
    (⟨[⟨0, 0⟩, ⟨0, 0⟩, ⟨0, 0⟩], [7, 8, 9], [0, 2, 2, 4], [⟨0, 0⟩, ⟨2, 1⟩, ⟨1, 1⟩, ⟨1, 1⟩],
        ⟨true, 0, 0, 0, ⊤⟩⟩ : Graph Binary64).CsrLayout
        [⟨2, 1, 1⟩, ⟨0, 2, 1⟩, ⟨0, 0, 0⟩, ⟨2, 1, 1⟩] ∧
      NoWrap 3 [⟨0, 0, (0 : Binary64)⟩, ⟨0, 2, 1⟩, ⟨2, 1, 1⟩, ⟨2, 1, 1⟩] := by
  have h := build_csrLayout lineDistance (Comparison.insertionSort _) 3
    (GraphBuilder.fresh 3) _ parallelCalls
    ⟨[⟨0, 0⟩, ⟨0, 0⟩, ⟨0, 0⟩], [7, 8, 9], [0, 2, 2, 4], [⟨0, 0⟩, ⟨2, 1⟩, ⟨1, 1⟩, ⟨1, 1⟩],
      ⟨true, 0, 0, 0, ⊤⟩⟩ rfl rfl
  exact h

end RouteEngine
