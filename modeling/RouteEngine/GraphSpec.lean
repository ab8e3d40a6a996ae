import RouteEngine.Builder
import RouteEngine.Library.Csr

set_option autoImplicit false

/-! # The CSR arrays of sorted arcs

For arcs sorted by source, the loops of `build` compute the offsets of `Library/Csr.lean`;
`arcs_from` then returns exactly the arcs of a node, and `compute_metric_report` visits every
arc once, in the order of the array. -/

namespace RouteEngine

variable {F : Type}

/-- A node number fits into its identifier. -/
theorem toNat_ofNat_node {i : Nat} (h : i < maxSupportedNodeCount) :
    (UInt32.ofNat i).toNat = i := by
  unfold maxSupportedNodeCount at h
  exact UInt32.toNat_ofNat_of_lt' (by simp only [UInt32.size]; omega)

/-! ## Loops over subscripts -/

theorem subscript_table {β : Type} {n : Nat} (f : Nat → β) {i : Nat} (hi : i < n) :
    subscript (Csr.table n f) i = .ok (f i) :=
  subscript_eq_ok.mpr (Csr.getElem?_table f hi)

/-- A loop over consecutive subscripts is a loop over the slice. -/
theorem foldlM_range'_subscript {α σ : Type} (l : List α) (f : σ → α → Outcome σ) :
    ∀ (size start : Nat) (s : σ), start + size ≤ l.length →
      (List.range' start size).foldlM (fun s k => do
          let a ← subscript l k
          f s a) s
        = ((l.drop start).take size).foldlM f s := by
  intro size
  induction size with
  | zero => intro start s _; simp
  | succ size ih =>
      intro start s h
      have hlt : start < l.length := by omega
      have hsub : subscript l start = .ok l[start] :=
        subscript_eq_ok.mpr (List.getElem?_eq_getElem hlt)
      rw [List.range'_succ, List.foldlM_cons, List.drop_eq_getElem_cons hlt, List.take_succ_cons,
        List.foldlM_cons, hsub, ok_bind]
      congr 1
      funext s'
      exact ih (start + 1) s' (by omega)

/-! ## Offsets -/

/-- The row number of a staged arc. -/
def StagedArc.row (a : StagedArc F) : Nat := a.source.toNat

/-- The offsets of sorted arcs over `nodes` rows, as 32-bit words. -/
def canonicalOffsets (nodes : Nat) (staged : List (StagedArc F)) : List UInt32 :=
  Csr.table (nodes + 1) (fun i => UInt32.ofNat (Csr.below StagedArc.row staged i))

@[simp] theorem length_canonicalOffsets (nodes : Nat) (staged : List (StagedArc F)) :
    (canonicalOffsets nodes staged).length = nodes + 1 := by
  simp [canonicalOffsets]

theorem foldlM_countArc {nodes : Nat} (staged : List (StagedArc F))
    (hsource : ∀ a ∈ staged, a.row < nodes) (f : Nat → UInt32) :
    staged.foldlM GraphBuilder.countArc (Csr.table (nodes + 1) f)
      = .ok (Csr.table (nodes + 1)
          (staged.foldl (fun f a => Csr.countRow UInt32.ofNat f a.row) f)) := by
  induction staged generalizing f with
  | nil => rfl
  | cons a staged ih =>
      have ha : a.row + 1 < nodes + 1 := by
        have := hsource a (by simp)
        omega
      have hstep : GraphBuilder.countArc (Csr.table (nodes + 1) f) a
          = .ok (Csr.table (nodes + 1) (Csr.countRow UInt32.ofNat f a.row)) := by
        unfold GraphBuilder.countArc
        rw [← StagedArc.row, subscript_table f ha, ok_bind, Csr.set_table]
        rfl
      rw [List.foldlM_cons, hstep, ok_bind, ih (fun b hb => hsource b (by simp [hb])),
        List.foldl_cons]

theorem foldlM_addPrevious {nodes : Nat} (rows : List Nat) (hrows : ∀ r ∈ rows, r < nodes)
    (f : Nat → UInt32) :
    rows.foldlM GraphBuilder.addPrevious (Csr.table (nodes + 1) f)
      = .ok (Csr.table (nodes + 1) (rows.foldl Csr.sumRow f)) := by
  induction rows generalizing f with
  | nil => rfl
  | cons r rows ih =>
      have hr : r < nodes := hrows r (by simp)
      have hstep : GraphBuilder.addPrevious (Csr.table (nodes + 1) f) r
          = .ok (Csr.table (nodes + 1) (Csr.sumRow f r)) := by
        unfold GraphBuilder.addPrevious
        rw [subscript_table f (by omega), ok_bind, subscript_table f (by omega), ok_bind,
          Csr.set_table]
        rfl
      rw [List.foldlM_cons, hstep, ok_bind, ih (fun q hq => hrows q (by simp [hq])),
        List.foldl_cons]

/-- The counting pass and the prefix sum compute the offsets of the rows. -/
theorem rowOffsets_eq {nodes : Nat} (staged : List (StagedArc F))
    (hsource : ∀ a ∈ staged, a.row < nodes) :
    GraphBuilder.rowOffsets nodes staged = .ok (canonicalOffsets nodes staged) := by
  have hzero : List.replicate (nodes + 1) (0 : UInt32)
      = Csr.table (nodes + 1) (fun _ => UInt32.ofNat 0) :=
    (Csr.table_const (nodes + 1) _).symm
  unfold GraphBuilder.rowOffsets
  rw [hzero, foldlM_countArc staged hsource, ok_bind,
    foldlM_addPrevious (List.range nodes) (fun r hr => List.mem_range.mp hr)]
  refine congrArg Except.ok (Csr.table_congr (fun i hi => ?_))
  exact Csr.offsets_eq_below StagedArc.row UInt32.ofNat_add staged nodes i (by omega)

/-! ## Rows -/

/-- The outgoing arcs of `u` in the order of the list. -/
def rowOf (staged : List (StagedArc F)) (u : NodeId) : List (Arc F) :=
  (staged.filter (fun a => a.source = u)).map StagedArc.toArc

theorem mem_rowOf {staged : List (StagedArc F)} {u : NodeId} {arc : Arc F} :
    arc ∈ rowOf staged u ↔ ⟨u, arc.target, arc.weight⟩ ∈ staged := by
  simp only [rowOf, List.mem_map, List.mem_filter, decide_eq_true_eq]
  constructor
  · rintro ⟨a, ⟨ha, rfl⟩, rfl⟩
    exact ha
  · intro h
    exact ⟨_, ⟨h, rfl⟩, rfl⟩

/-- The row with its source put back. -/
theorem map_rowOf (staged : List (StagedArc F)) (u : NodeId) :
    (rowOf staged u).map (fun arc => ⟨u, arc.target, arc.weight⟩)
      = staged.filter (fun a => decide (a.source = u)) := by
  rw [rowOf, List.map_map]
  refine (List.map_congr_left (g := id) (fun a ha => ?_)).trans (List.map_id _)
  rw [List.mem_filter, decide_eq_true_eq] at ha
  rw [← ha.2]
  rfl

theorem filter_row_eq (staged : List (StagedArc F)) (u : NodeId) :
    staged.filter (fun a => decide (a.row = u.toNat))
      = staged.filter (fun a => decide (a.source = u)) := by
  refine List.filter_congr (fun a _ => decide_eq_decide.mpr ?_)
  exact UInt32.toNat_inj

theorem toNat_ofNat_below {staged : List (StagedArc F)} (hcap : staged.length ≤ maxArcCount)
    (i : Nat) :
    (UInt32.ofNat (Csr.below StagedArc.row staged i)).toNat
      = Csr.below StagedArc.row staged i := by
  have hle := Csr.below_le_length StagedArc.row staged i
  unfold maxArcCount at hcap
  exact UInt32.toNat_ofNat_of_lt' (by simp only [UInt32.size]; omega)

section Sorted

variable {staged : List (StagedArc F)}

/-- The arcs are sorted by source. -/
def SortedBySource (staged : List (StagedArc F)) : Prop :=
  staged.Pairwise (fun a b => a.row ≤ b.row)

theorem sortedBySource_of_sorted [LT F] [DecidableLT F]
    (h : Comparison.Sorted GraphBuilder.stagedBefore staged) : SortedBySource staged := by
  refine List.Pairwise.imp (fun {a b} hab => ?_) h
  simp only [GraphBuilder.stagedBefore] at hab
  by_cases hs : b.source = a.source
  · simp [StagedArc.row, hs]
  · rw [if_pos hs, decide_eq_false_iff_not, UInt32.lt_iff_toNat_lt] at hab
    simp only [StagedArc.row]
    omega

/-- **`arcs_from` returns the arcs of the node.** -/
theorem arcsFrom_eq_rowOf {g : Graph F} (hs : SortedBySource staged)
    (hcap : staged.length ≤ maxArcCount)
    (hoffsets : g.offsets = canonicalOffsets g.nodeCount staged)
    (harcs : g.arcs = staged.map StagedArc.toArc) {u : NodeId} (hu : u.toNat < g.nodeCount) :
    g.arcsFrom u = .ok (rowOf staged u) := by
  have hcontains : g.contains u = true := (g.contains_iff u).mpr hu
  have hbegin : subscript g.offsets u.toNat
      = .ok (UInt32.ofNat (Csr.below StagedArc.row staged u.toNat)) := by
    rw [hoffsets, canonicalOffsets, subscript_table _ (by omega)]
  have hend : subscript g.offsets (u.toNat + 1)
      = .ok (UInt32.ofNat (Csr.below StagedArc.row staged (u.toNat + 1))) := by
    rw [hoffsets, canonicalOffsets, subscript_table _ (by omega)]
  have hmono : Csr.below StagedArc.row staged u.toNat
      ≤ Csr.below StagedArc.row staged (u.toNat + 1) :=
    Csr.below_mono StagedArc.row staged (Nat.le_succ _)
  -- the unsigned difference of the two offsets does not wrap
  have hsize : (UInt32.ofNat (Csr.below StagedArc.row staged (u.toNat + 1))
        - UInt32.ofNat (Csr.below StagedArc.row staged u.toNat)).toNat
      = Csr.below StagedArc.row staged (u.toNat + 1)
        - Csr.below StagedArc.row staged u.toNat := by
    rw [UInt32.toNat_sub_of_le, toNat_ofNat_below hcap, toNat_ofNat_below hcap]
    rw [UInt32.le_iff_toNat_le, toNat_ofNat_below hcap, toNat_ofNat_below hcap]
    exact hmono
  have hle := Csr.below_le_length StagedArc.row staged (u.toNat + 1)
  unfold Graph.arcsFrom
  rw [hcontains, hbegin, hend]
  simp only [Bool.not_true, Bool.false_eq_true, if_false, ok_bind, hsize,
    toNat_ofNat_below hcap, harcs, List.length_map]
  rw [if_pos (by omega), pure_eq_ok, ← List.map_drop, ← List.map_take,
    Csr.slice_below StagedArc.row hs, filter_row_eq]
  rfl

/-! ## The metric report -/

/-- The coordinate of a node in a vector of coordinates. -/
def coordAt [Zero F] (coordinates : List (Coord F)) (id : NodeId) : Coord F :=
  coordinates[id.toNat]?.getD Coord.zero

theorem subscript_coordAt [Zero F] {coordinates : List (Coord F)} {id : NodeId}
    (h : id.toNat < coordinates.length) :
    subscript coordinates id.toNat = .ok (coordAt coordinates id) := by
  rw [subscript_eq_ok, coordAt, List.getElem?_eq_getElem h, Option.getD_some]

/-- `coordinate` of a valid identifier returns its coordinate. -/
theorem coordinate_eq [Zero F] {g : Graph F} {u : NodeId} (hu : g.contains u = true) :
    g.coordinate u = .ok (coordAt g.coordinates u) := by
  unfold Graph.coordinate
  rw [hu]
  exact subscript_coordAt ((g.contains_iff u).mp hu)

theorem contains_of_coordinate {g : Graph F} {u : NodeId} {p : Coord F}
    (h : g.coordinate u = .ok p) : g.contains u = true := by
  cases hu : g.contains u with
  | true => rfl
  | false =>
      rw [Graph.coordinate, hu] at h
      cases h

variable [Zero F] [LT F] [DecidableLT F] [LE F] [DecidableLE F] [Div F]
  (distance : Coord F → Coord F → F) (coordinates : List (Coord F))

/-- What the metric scan does at one staged arc. -/
def observeStaged (report : MetricReport F) (a : StagedArc F) : MetricReport F :=
  report.observe a.source a.toArc
    (distance (coordAt coordinates a.source) (coordAt coordinates a.target))

/-- The metric report of sorted arcs: one pass over the list. -/
def canonicalReport [Top F] (staged : List (StagedArc F)) : MetricReport F :=
  staged.foldl (observeStaged distance coordinates) .initial

theorem checkRow_eq (hs : SortedBySource staged) (hcap : staged.length ≤ maxArcCount)
    (hn : coordinates.length ≤ maxSupportedNodeCount)
    (htarget : ∀ a ∈ staged, a.target.toNat < coordinates.length) {source : Nat}
    (hsource : source < coordinates.length) (report : MetricReport F) :
    checkRow distance coordinates (canonicalOffsets coordinates.length staged)
        (staged.map StagedArc.toArc) report source
      = .ok ((staged.filter (fun a => decide (a.row = source))).foldl
          (observeStaged distance coordinates) report) := by
  have hmono : Csr.below StagedArc.row staged source
      ≤ Csr.below StagedArc.row staged (source + 1) :=
    Csr.below_mono StagedArc.row staged (Nat.le_succ _)
  have hle := Csr.below_le_length StagedArc.row staged (source + 1)
  have hsource32 : (UInt32.ofNat source).toNat = source :=
    toNat_ofNat_node (lt_of_lt_of_le hsource hn)
  have hfrom : subscript coordinates source
      = .ok (coordAt coordinates (UInt32.ofNat source)) := by
    have hlt : (UInt32.ofNat source).toNat < coordinates.length := by
      rw [hsource32]
      exact hsource
    have h := subscript_coordAt hlt
    rwa [hsource32] at h
  unfold checkRow
  rw [hfrom, canonicalOffsets, subscript_table _ (by omega), subscript_table _ (by omega)]
  simp only [ok_bind, toNat_ofNat_below hcap]
  let step : MetricReport F → Arc F → Outcome (MetricReport F) := fun report arc => do
    let toCoord ← subscript coordinates arc.target.toNat
    return report.observe (UInt32.ofNat source) arc
      (distance (coordAt coordinates (UInt32.ofNat source)) toCoord)
  rw [foldlM_range'_subscript (staged.map StagedArc.toArc) step _ _ _
      (by rw [List.length_map]; omega),
    ← List.map_drop, ← List.map_take, Csr.slice_below StagedArc.row hs, List.foldlM_map]
  -- the slice holds the arcs of the row, and each is observed
  refine (foldlM_eq_ok (fun _ => True) _ (fun a ha report _ => ⟨?_, trivial⟩) report trivial).1
  rw [List.mem_filter, decide_eq_true_eq] at ha
  have hrow : UInt32.ofNat source = a.source := by
    rw [← ha.2, StagedArc.row, UInt32.ofNat_toNat]
  have hto : subscript coordinates a.toArc.target.toNat
      = .ok (coordAt coordinates a.target) := subscript_coordAt (htarget a ha.1)
  show step report a.toArc = _
  simp only [step, hto, ok_bind, hrow]
  rfl

/-- **The metric scan** visits the arcs once each, in the order of the array. -/
theorem computeMetricReport_eq [Top F] (hs : SortedBySource staged)
    (hcap : staged.length ≤ maxArcCount)
    (hn : coordinates.length ≤ maxSupportedNodeCount)
    (hsource : ∀ a ∈ staged, a.row < coordinates.length)
    (htarget : ∀ a ∈ staged, a.target.toNat < coordinates.length) :
    computeMetricReport distance coordinates (canonicalOffsets coordinates.length staged)
        (staged.map StagedArc.toArc)
      = .ok (canonicalReport distance coordinates staged) := by
  unfold computeMetricReport
  rw [length_canonicalOffsets]
  by_cases h0 : coordinates.length + 1 < 2
  · -- without nodes there are no arcs
    have hnil : staged = [] := by
      refine List.eq_nil_iff_forall_not_mem.mpr (fun a ha => ?_)
      have := hsource a ha
      omega
    rw [if_pos h0, hnil]
    rfl
  · rw [if_neg h0, Nat.add_sub_cancel]
    have hrows := foldlM_eq_ok
      (f := checkRow distance coordinates (canonicalOffsets coordinates.length staged)
        (staged.map StagedArc.toArc))
      (g := fun report source => (staged.filter (fun a => decide (a.row = source))).foldl
        (observeStaged distance coordinates) report)
      (fun _ => True) (List.range coordinates.length)
      (fun source h report _ => ⟨checkRow_eq distance coordinates hs hcap hn htarget
        (List.mem_range.mp h) report, trivial⟩) .initial trivial
    rw [hrows.1, ← List.foldl_flatMap, Csr.flatMap_rows StagedArc.row hs,
      List.filter_eq_self.mpr (fun a ha => by simpa using hsource a ha)]
    rfl

end Sorted

end RouteEngine
