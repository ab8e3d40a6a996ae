import RouteEngine.Exact
import RouteEngine.CsrLayout
import Mathlib.Data.Prod.Lex

set_option autoImplicit false

/-! # What the metric report holds

`compute_metric_report` on every input that meets its preconditions: whatever order the arcs of a
row have, the report counts the violating arcs, names the first of them in the order of the
array, and gives the smallest ratio; its verdict and that ratio agree. -/

namespace RouteEngine

/-! ## The arcs of the rows -/

section

variable {F : Type}

/-- An offset as a natural number. -/
def offsetAt (offsets : List UInt32) (i : Nat) : Nat := (offsets[i]?.getD 0).toNat

/-- The arcs of the row `u`. -/
def csrRow (offsets : List UInt32) (arcs : List (Arc F)) (u : Nat) : List (Arc F) :=
  (arcs.drop (offsetAt offsets u)).take (offsetAt offsets (u + 1) - offsetAt offsets u)

/-- The arcs with the numbers of their rows, row after row. -/
def rowArcs (offsets : List UInt32) (arcs : List (Arc F)) : List (Nat × Arc F) :=
  (List.range (offsets.length - 1)).flatMap fun u => (csrRow offsets arcs u).map (Prod.mk u)

/-- The preconditions of `compute_metric_report`, with finite coordinates and non-negative
weights. -/
structure CsrInput [Zero F] [Top F] [LE F] (coordinates : List (Coord F))
    (offsets : List UInt32) (arcs : List (Arc F)) : Prop where
  size : offsets.length = coordinates.length + 1
  monotone : offsets.Pairwise (· ≤ ·)
  last : offsetAt offsets coordinates.length = arcs.length
  targets : ∀ arc ∈ arcs, arc.target.toNat < coordinates.length
  finite : ∀ p ∈ coordinates, p.x ≠ ⊤ ∧ p.y ≠ ⊤
  nonneg : ∀ arc ∈ arcs, 0 ≤ arc.weight

variable [Zero F] [Top F] [LE F]
variable {coordinates : List (Coord F)} {offsets : List UInt32} {arcs : List (Arc F)}

namespace CsrInput

theorem offsetAt_mono (h : CsrInput coordinates offsets arcs) {i j : Nat} (hij : i ≤ j)
    (hj : j ≤ coordinates.length) : offsetAt offsets i ≤ offsetAt offsets j := by
  have hsize := h.size
  have hi' : i < offsets.length := by omega
  have hj' : j < offsets.length := by omega
  rw [offsetAt, offsetAt, List.getElem?_eq_getElem hi', List.getElem?_eq_getElem hj']
  rcases hij.lt_or_eq with hlt | rfl
  · exact UInt32.le_iff_toNat_le.mp (List.pairwise_iff_getElem.mp h.monotone i j hi' hj' hlt)
  · exact le_rfl

theorem offsetAt_le (h : CsrInput coordinates offsets arcs) {i : Nat}
    (hi : i ≤ coordinates.length) : offsetAt offsets i ≤ arcs.length :=
  h.last ▸ h.offsetAt_mono hi le_rfl

/-- **The rows are the array cut in pieces**: every arc from the first offset on belongs to one
row, and rows follow one another in the order of the array. -/
theorem map_snd_rowArcs (h : CsrInput coordinates offsets arcs) :
    (rowArcs offsets arcs).map Prod.snd = arcs.drop (offsetAt offsets 0) := by
  have hrows : ∀ n, n ≤ coordinates.length →
      ((List.range n).flatMap fun u => (csrRow offsets arcs u).map (Prod.mk u)).map Prod.snd
        = (arcs.drop (offsetAt offsets 0)).take (offsetAt offsets n - offsetAt offsets 0) := by
    intro n
    induction n with
    | zero => intro _; simp
    | succ n ih =>
        intro hn
        have h0 := h.offsetAt_mono (Nat.zero_le n) (by omega)
        have h1 := h.offsetAt_mono (Nat.le_add_right n 1) hn
        have hsplit : offsetAt offsets (n + 1) - offsetAt offsets 0
            = (offsetAt offsets n - offsetAt offsets 0)
              + (offsetAt offsets (n + 1) - offsetAt offsets n) := by
          omega
        have hstart : offsetAt offsets 0 + (offsetAt offsets n - offsetAt offsets 0)
            = offsetAt offsets n := by
          omega
        rw [List.range_succ, List.flatMap_append, List.map_append, ih (by omega), hsplit,
          List.take_add, List.drop_drop, hstart]
        simp [csrRow, List.map_map, Function.comp_def]
  have hlength : offsets.length - 1 = coordinates.length := by
    have := h.size
    omega
  rw [rowArcs, hlength, hrows _ le_rfl, h.last, List.take_of_length_le]
  rw [List.length_drop]

/-- There are fewer arcs than a 64-bit counter can count. -/
theorem length_rowArcs_lt (h : CsrInput coordinates offsets arcs) :
    (rowArcs offsets arcs).length < 2 ^ 64 := by
  have hlen : (rowArcs offsets arcs).length = arcs.length - offsetAt offsets 0 := by
    rw [← List.length_map (f := Prod.snd), h.map_snd_rowArcs, List.length_drop]
  have hlast : arcs.length < 2 ^ 32 := by
    rw [← h.last]
    exact (offsets[coordinates.length]?.getD 0).toNat_lt
  omega

theorem of_mem_rowArcs (h : CsrInput coordinates offsets arcs) {u : Nat} {arc : Arc F}
    (hmem : (u, arc) ∈ rowArcs offsets arcs) : u < coordinates.length ∧ arc ∈ arcs := by
  rw [rowArcs, List.mem_flatMap] at hmem
  rcases hmem with ⟨v, hv, hmem⟩
  rcases List.mem_map.mp hmem with ⟨arc', harc, heq⟩
  obtain ⟨rfl, rfl⟩ := Prod.mk.inj heq
  have hsize := h.size
  rw [List.mem_range] at hv
  exact ⟨by omega, List.mem_of_mem_drop (List.mem_of_mem_take harc)⟩

end CsrInput

end

/-! ## The scan of the rows -/

section

variable {F : Type} [LinearOrder F] [OrderTop F] [Zero F] [Div F]
variable (distance : Coord F → Coord F → F) (coordinates : List (Coord F))
variable {offsets : List UInt32} {arcs : List (Arc F)}

/-- The distance between the ends of an arc. -/
def rowDistance (a : Nat × Arc F) : F :=
  distance (coordinates[a.1]?.getD Coord.zero) (coordAt coordinates a.2.target)

/-- The weight is below the distance between the ends. -/
def violates (a : Nat × Arc F) : Bool := decide (a.2.weight < rowDistance distance coordinates a)

/-- What the metric scan does at an arc of a row. -/
def observeRow (report : MetricReport F) (a : Nat × Arc F) : MetricReport F :=
  report.observe (UInt32.ofNat a.1) a.2 (rowDistance distance coordinates a)

variable {coordinates}

/-- The inner loop visits the arcs of a row. -/
theorem CsrInput.checkRow_eq (h : CsrInput coordinates offsets arcs) {u : Nat}
    (hu : u < coordinates.length) (report : MetricReport F) :
    checkRow distance coordinates offsets arcs report u
      = .ok (((csrRow offsets arcs u).map (Prod.mk u)).foldl
          (observeRow distance coordinates) report) := by
  have hsize := h.size
  have hmono := h.offsetAt_mono (Nat.le_add_right u 1) hu
  have hle := h.offsetAt_le (show u + 1 ≤ coordinates.length from hu)
  have hoffset : ∀ i, i < offsets.length → subscript offsets i = .ok (offsets[i]?.getD 0) := by
    intro i hi
    rw [subscript_eq_ok, List.getElem?_eq_getElem hi, Option.getD_some]
  have hfrom : subscript coordinates u = .ok (coordinates[u]?.getD Coord.zero) := by
    rw [subscript_eq_ok, List.getElem?_eq_getElem hu, Option.getD_some]
  unfold checkRow
  rw [hfrom, ok_bind, hoffset _ (by omega), ok_bind, hoffset _ (by omega), ok_bind]
  let step : MetricReport F → Arc F → Outcome (MetricReport F) := fun report arc => do
    let toCoord ← subscript coordinates arc.target.toNat
    return report.observe (UInt32.ofNat u) arc
      (distance (coordinates[u]?.getD Coord.zero) toCoord)
  have hslice := foldlM_range'_subscript arcs step
    (offsetAt offsets (u + 1) - offsetAt offsets u) (offsetAt offsets u) report (by omega)
  rw [List.foldl_map]
  refine Eq.trans hslice ?_
  -- every arc of the slice is observed
  refine (foldlM_eq_ok (fun _ => True) _ (fun arc harc report _ => ⟨?_, trivial⟩) report trivial).1
  have hmem : arc ∈ arcs := List.mem_of_mem_drop (List.mem_of_mem_take harc)
  show step report arc = _
  simp only [step, subscript_coordAt (h.targets arc hmem), ok_bind]
  rfl

/-- **The report is one pass over the arcs of the rows.** -/
theorem CsrInput.computeMetricReport_eq (h : CsrInput coordinates offsets arcs) :
    computeMetricReport distance coordinates offsets arcs
      = .ok ((rowArcs offsets arcs).foldl (observeRow distance coordinates) .initial) := by
  have hsize := h.size
  unfold computeMetricReport
  by_cases hfew : offsets.length < 2
  · -- no nodes, therefore no arcs
    have hnone : offsets.length - 1 = 0 := by omega
    rw [if_pos hfew, rowArcs, hnone]
    rfl
  · rw [if_neg hfew]
    have hrows := foldlM_eq_ok (f := checkRow distance coordinates offsets arcs)
      (g := fun report u => ((csrRow offsets arcs u).map (Prod.mk u)).foldl
        (observeRow distance coordinates) report)
      (fun _ => True) (List.range (offsets.length - 1))
      (fun u hu report _ => ⟨h.checkRow_eq distance
        (by rw [List.mem_range] at hu; omega) report, trivial⟩) .initial trivial
    rw [hrows.1, rowArcs, List.foldl_flatMap]

/-! ## The four accumulators -/

/-- What the report holds after the arcs `seen`. -/
structure MetricReport.Tells (distance : Coord F → Coord F → F) (coordinates : List (Coord F))
    (seen : List (Nat × Arc F)) (report : MetricReport F) : Prop where
  count : report.violatingArcs.toNat = seen.countP (violates distance coordinates)
  passes : report.passes = true ↔ ∀ a ∈ seen, violates distance coordinates a = false
  first : ∀ a, seen.find? (violates distance coordinates) = some a →
    report.firstViolationSource = UInt32.ofNat a.1 ∧ report.firstViolationTarget = a.2.target
  worst : IsLeast (insert ⊤ {r | ∃ a ∈ seen, 0 < rowDistance distance coordinates a ∧
    r = a.2.weight / rowDistance distance coordinates a}) report.worstRatio

omit [OrderTop F] in
/-- The first violation changes with the first violating arc only. -/
theorem MetricReport.first_observe (report : MetricReport F) (source : NodeId) (arc : Arc F)
    (d : F) :
    ((report.observe source arc d).firstViolationSource,
      (report.observe source arc d).firstViolationTarget)
      = if arc.weight < d ∧ report.violatingArcs = 0 then (source, arc.target)
        else (report.firstViolationSource, report.firstViolationTarget) := by
  have hone : report.violatingArcs + 1 = 1 ↔ report.violatingArcs = 0 := by
    constructor
    · intro heq
      have hzero : report.violatingArcs + 1 - 1 = 1 - 1 := congrArg (· - 1) heq
      simpa using hzero
    · intro heq
      rw [heq]
      rfl
  have hratio : ∀ r : MetricReport F,
      ((r.lowerRatio arc d).firstViolationSource, (r.lowerRatio arc d).firstViolationTarget)
        = (r.firstViolationSource, r.firstViolationTarget) := by
    intro r
    unfold MetricReport.lowerRatio
    dsimp only
    split_ifs <;> rfl
  unfold MetricReport.observe
  rw [hratio]
  unfold MetricReport.countViolation
  dsimp only
  by_cases hlt : arc.weight < d
  · by_cases hfirst : report.violatingArcs = 0
    · rw [if_pos (not_le.mpr hlt), if_pos (hone.mpr hfirst), if_pos ⟨hlt, hfirst⟩]
    · rw [if_pos (not_le.mpr hlt), if_neg (mt hone.mp hfirst), if_neg (fun hand => hfirst hand.2)]
  · rw [if_neg (not_not.mpr (not_lt.mp hlt)), if_neg (fun hand => hlt hand.1)]

theorem MetricReport.Tells.initial :
    (MetricReport.initial (F := F)).Tells distance coordinates [] where
  count := rfl
  passes := by simp [MetricReport.initial]
  first := by simp
  worst := by simp [MetricReport.initial]

variable {distance}

/-! Each accumulator after one more arc. -/

section Observe

variable {report : MetricReport F} {seen : List (Nat × Arc F)}

theorem MetricReport.Tells.violatingArcs_eq_zero_iff (h : report.Tells distance coordinates seen) :
    report.violatingArcs = 0 ↔ seen.find? (violates distance coordinates) = none := by
  rw [← UInt64.toNat_inj, h.count, List.find?_eq_none]
  simp [List.countP_eq_zero]

theorem MetricReport.Tells.count_observe (h : report.Tells distance coordinates seen)
    (hfew : seen.length + 1 < 2 ^ 64) (a : Nat × Arc F) :
    (observeRow distance coordinates report a).violatingArcs.toNat
      = (seen ++ [a]).countP (violates distance coordinates) := by
  have hcount : (observeRow distance coordinates report a).violatingArcs
      = if rowDistance distance coordinates a ≤ a.2.weight then report.violatingArcs
        else report.violatingArcs + 1 :=
    congrArg Verdict.violatingArcs (report.verdict_observe _ _ _)
  rw [hcount, List.countP_append, List.countP_singleton]
  by_cases hviolates : rowDistance distance coordinates a ≤ a.2.weight
  · rw [if_pos hviolates, h.count]
    simp [violates, hviolates]
  · -- the counter does not wrap
    have hle := List.countP_le_length (p := violates distance coordinates) (l := seen)
    have hlt := not_le.mp hviolates
    rw [if_neg hviolates, UInt64.toNat_add, h.count]
    simp only [violates, hlt, decide_true, if_true]
    show (_ + 1) % 2 ^ 64 = _
    exact Nat.mod_eq_of_lt (by show _ + 1 < 2 ^ 64; omega)

theorem MetricReport.Tells.passes_observe (h : report.Tells distance coordinates seen)
    (a : Nat × Arc F) :
    (observeRow distance coordinates report a).passes = true
      ↔ ∀ b ∈ seen ++ [a], violates distance coordinates b = false := by
  have hpasses : (observeRow distance coordinates report a).passes
      = (report.passes && decide (rowDistance distance coordinates a ≤ a.2.weight)) :=
    congrArg Verdict.passes (report.verdict_observe _ _ _)
  rw [hpasses, Bool.and_eq_true, h.passes]
  simp [violates, or_imp, forall_and]

theorem MetricReport.Tells.first_observe (h : report.Tells distance coordinates seen)
    (a b : Nat × Arc F)
    (hb : (seen ++ [a]).find? (violates distance coordinates) = some b) :
    (observeRow distance coordinates report a).firstViolationSource = UInt32.ofNat b.1 ∧
      (observeRow distance coordinates report a).firstViolationTarget = b.2.target := by
  have hfirst := report.first_observe (UInt32.ofNat a.1) a.2 (rowDistance distance coordinates a)
  rw [List.find?_append] at hb
  cases hseen : seen.find? (violates distance coordinates) with
  | none =>
      -- no arc before it is a violation
      rw [hseen, Option.none_or, List.find?_singleton] at hb
      split_ifs at hb with hviolates
      obtain rfl := Option.some.inj hb
      rw [if_pos ⟨of_decide_eq_true hviolates, h.violatingArcs_eq_zero_iff.mpr hseen⟩,
        Prod.mk.injEq] at hfirst
      exact hfirst
  | some c =>
      rw [hseen, Option.some_or] at hb
      obtain rfl := Option.some.inj hb
      have hcounted : report.violatingArcs ≠ 0 := by
        rw [ne_eq, h.violatingArcs_eq_zero_iff, hseen]
        exact Option.some_ne_none c
      rw [if_neg (fun hand => hcounted hand.2), Prod.mk.injEq] at hfirst
      rcases h.first c hseen with ⟨hsource, htarget⟩
      exact ⟨hfirst.1.trans hsource, hfirst.2.trans htarget⟩

theorem MetricReport.Tells.worst_observe (h : report.Tells distance coordinates seen)
    (a : Nat × Arc F) :
    IsLeast (insert ⊤ {r | ∃ b ∈ seen ++ [a], 0 < rowDistance distance coordinates b ∧
      r = b.2.weight / rowDistance distance coordinates b})
      (observeRow distance coordinates report a).worstRatio := by
  have hworst : (observeRow distance coordinates report a).worstRatio
      = if 0 < rowDistance distance coordinates a
        then min report.worstRatio (a.2.weight / rowDistance distance coordinates a)
        else report.worstRatio := congrArg Verdict.worstRatio (report.verdict_observe _ _ _)
  rw [hworst]
  by_cases hpos : 0 < rowDistance distance coordinates a
  · rw [if_pos hpos, min_comm]
    have hset : insert ⊤ {r | ∃ b ∈ seen ++ [a], 0 < rowDistance distance coordinates b ∧
          r = b.2.weight / rowDistance distance coordinates b}
        = insert (a.2.weight / rowDistance distance coordinates a)
            (insert ⊤ {r | ∃ b ∈ seen, 0 < rowDistance distance coordinates b ∧
              r = b.2.weight / rowDistance distance coordinates b}) := by
      ext r
      simp only [List.mem_append, List.mem_singleton, or_and_right, exists_or, exists_eq_left,
        hpos, true_and, Set.mem_insert_iff, Set.mem_ofPred_eq]
      rw [← or_assoc, or_comm]
    rw [hset]
    exact h.worst.insert _
  · rw [if_neg hpos]
    have hset : {r | ∃ b ∈ seen ++ [a], 0 < rowDistance distance coordinates b ∧
          r = b.2.weight / rowDistance distance coordinates b}
        = {r | ∃ b ∈ seen, 0 < rowDistance distance coordinates b ∧
            r = b.2.weight / rowDistance distance coordinates b} := by
      ext r
      simp only [List.mem_append, List.mem_singleton, or_and_right, exists_or, exists_eq_left,
        hpos, false_and, or_false, Set.mem_ofPred_eq]
    rw [hset]
    exact h.worst

/-- **One more arc.** -/
theorem MetricReport.Tells.observe (h : report.Tells distance coordinates seen)
    (hfew : seen.length + 1 < 2 ^ 64) (a : Nat × Arc F) :
    (observeRow distance coordinates report a).Tells distance coordinates (seen ++ [a]) :=
  ⟨h.count_observe hfew a, h.passes_observe a, h.first_observe a, h.worst_observe a⟩

end Observe

/-- **The whole scan**, by induction on the arcs from the last one on. -/
theorem MetricReport.Tells.scan (l : List (Nat × Arc F)) (hfew : l.length < 2 ^ 64) :
    (l.foldl (observeRow distance coordinates) .initial).Tells distance coordinates l := by
  induction l using List.reverseRecOn with
  | nil => exact .initial distance
  | append_singleton l a ih =>
      rw [List.length_append, List.length_singleton] at hfew
      rw [List.foldl_append]
      exact (ih (by omega)).observe hfew a

end

/-! ## Canonical order -/

section

variable {F : Type} [LinearOrder F]

/-- Arcs are compared by source, then by target, then by weight. -/
def canonicalKey (a : Nat × Arc F) : ℕ ×ₗ ℕ ×ₗ F :=
  toLex (a.1, toLex (a.2.target.toNat, a.2.weight))

/-- In every row the arcs stand in the order of target and weight. -/
def RowsSorted (offsets : List UInt32) (arcs : List (Arc F)) : Prop :=
  ∀ u, u < offsets.length - 1 → Comparison.Sorted rowBefore (csrRow offsets arcs u)

/-- In sorted rows the order of the array is the canonical one. -/
theorem RowsSorted.pairwise {offsets : List UInt32} {arcs : List (Arc F)}
    (h : RowsSorted offsets arcs) :
    (rowArcs offsets arcs).Pairwise fun a b => canonicalKey a ≤ canonicalKey b := by
  rw [rowArcs, List.pairwise_flatMap]
  refine ⟨fun u hu => ?_, ?_⟩
  · rw [List.pairwise_map]
    refine (h u (List.mem_range.mp hu)).imp fun {a b} hab => ?_
    rw [canonicalKey, canonicalKey, Prod.Lex.toLex_le_toLex]
    refine Or.inr ⟨rfl, Prod.Lex.toLex_le_toLex.mpr ?_⟩
    show a.target.toNat < b.target.toNat ∨ a.target.toNat = b.target.toNat ∧ a.weight ≤ b.weight
    by_cases htarget : b.target = a.target
    · simp only [rowBefore, htarget, ne_eq, not_true_eq_false, if_false,
        decide_eq_false_iff_not, not_lt] at hab
      exact Or.inr ⟨congrArg UInt32.toNat htarget.symm, hab⟩
    · simp only [rowBefore, ne_eq, htarget, not_false_eq_true, if_true,
        decide_eq_false_iff_not, UInt32.lt_iff_toNat_lt] at hab
      have hne : a.target.toNat ≠ b.target.toNat :=
        fun heq => htarget (UInt32.toNat_inj.mp heq.symm)
      exact Or.inl (by omega)
  · refine List.pairwise_lt_range.imp fun {u v} huv a ha b hb => ?_
    rcases List.mem_map.mp ha with ⟨_, -, rfl⟩
    rcases List.mem_map.mp hb with ⟨_, -, rfl⟩
    rw [canonicalKey, canonicalKey, Prod.Lex.toLex_le_toLex]
    exact Or.inl huv

/-- In a sorted list the first element with a property is the least. -/
theorem le_of_find?_eq_some {α κ : Type} [LE κ] {key : α → κ} (hrefl : ∀ a, key a ≤ key a)
    {p : α → Bool} {l : List α} (hsorted : l.Pairwise fun a b => key a ≤ key b) {a b : α}
    (hfind : l.find? p = some a) (hb : b ∈ l) (hp : p b = true) : key a ≤ key b := by
  rcases List.find?_eq_some_iff_append.mp hfind with ⟨-, before, after, rfl, hbefore⟩
  rcases List.mem_append.mp hb with hb | hb
  · have hnot := hbefore b hb
    rw [hp] at hnot
    cases hnot
  · rcases List.mem_cons.mp hb with rfl | hb
    · exact hrefl b
    · have htail := (List.pairwise_append.mp hsorted).2.1
      exact (List.pairwise_cons.mp htail).1 b hb

end

/-! ## The report -/

section

variable {K : Type} [Field K] [LinearOrder K] [IsStrictOrderedRing K]

/-- A ratio is at least one when the weight is at least the distance. -/
theorem one_le_ratio_iff {x : K} (hx : 0 < x) (w : WithTop K) :
    (1 : WithTop K) ≤ w / (x : WithTop K) ↔ (x : WithTop K) ≤ w := by
  cases w with
  | top => simp [show (⊤ : WithTop K) / (x : WithTop K) = ⊤ from rfl]
  | coe w =>
      show ((1 : K) : WithTop K) ≤ ((w / x : K) : WithTop K) ↔ _
      rw [WithTop.coe_le_coe, WithTop.coe_le_coe, le_div_iff₀ hx, one_mul]

variable {d : PlaneDistance K} {g : Graph (WithTop K)} {staged : List (StagedArc (WithTop K))}
variable {coordinates : List (Coord (WithTop K))} {offsets : List UInt32}
variable {arcs : List (Arc (WithTop K))}

/-- **The verdict agrees with the smallest ratio.** -/
theorem MetricReport.Tells.passes_iff_ratio {report : MetricReport (WithTop K)}
    {seen : List (Nat × Arc (WithTop K))} (h : report.Tells d.lift coordinates seen)
    (hnonneg : ∀ a ∈ seen, 0 ≤ a.2.weight) : report.passes = true ↔ 1 ≤ report.worstRatio := by
  have hline : ∀ a : Nat × Arc (WithTop K), ∃ x : K, 0 ≤ x ∧
      rowDistance d.lift coordinates a = (x : WithTop K) :=
    fun a => ⟨_, d.nonneg _ _, rfl⟩
  rw [h.passes]
  constructor
  · intro hall
    rcases h.worst.1 with htop | ⟨a, ha, hpos, hratio⟩
    · rw [htop]
      exact le_top
    · rcases hline a with ⟨x, -, hx⟩
      have hpass := of_decide_eq_false (hall a ha)
      rw [hx] at hpos hpass hratio
      rw [hratio, one_le_ratio_iff (WithTop.coe_pos.mp hpos)]
      exact not_lt.mp hpass
  · intro hworst a ha
    rcases hline a with ⟨x, hx0, hx⟩
    refine decide_eq_false (not_lt.mpr ?_)
    rw [hx]
    rcases hx0.lt_or_eq with hpos | hzero
    · rw [← one_le_ratio_iff hpos]
      refine hworst.trans (h.worst.2 (Or.inr ⟨a, ha, ?_, ?_⟩))
      · rw [hx]
        exact WithTop.coe_pos.mpr hpos
      · rw [hx]
    · -- an arc between coincident points passes, since its weight is not negative
      rw [← hzero]
      exact hnonneg a ha

omit [IsStrictOrderedRing K] in
/-- A built graph meets the preconditions. -/
theorem Graph.OverArcs.csrInput (hg : g.OverArcs d.lift staged) :
    CsrInput g.coordinates g.offsets g.arcs := by
  have hsize : g.offsets.length = g.nodeCount + 1 := by
    rw [hg.offsets_eq, length_canonicalOffsets]
  have hmem : ∀ arc ∈ g.arcs, ∃ a ∈ staged, a.toArc = arc := by
    intro arc harc
    rw [hg.arcs_eq] at harc
    exact List.mem_map.mp harc
  refine ⟨hsize, hg.pairwise_offsets, ?_, fun arc harc => ?_, fun p hp => ?_, fun arc harc => ?_⟩
  · have hlast := hg.getLast?_offsets
    rw [List.getLast?_eq_getElem?, hsize, Nat.add_sub_cancel] at hlast
    rcases Option.map_eq_some_iff.mp hlast with ⟨last, hget, hcount⟩
    show (g.offsets[g.nodeCount]?.getD 0).toNat = _
    rw [hget]
    exact hcount
  · rcases hmem arc harc with ⟨a, ha, rfl⟩
    exact (hg.admissible a ha).target_lt
  · rcases hg.coordinates_finite p hp with ⟨hx, hy⟩
    exact ⟨(isFinite_eq_true_iff _).mp hx, (isFinite_eq_true_iff _).mp hy⟩
  · rcases hmem arc harc with ⟨a, ha, rfl⟩
    exact not_lt.mp (hg.admissible a ha).nonneg

omit [IsStrictOrderedRing K] in
/-- The rows of a built graph are sorted. -/
theorem Graph.OverArcs.rowsSorted (hg : g.OverArcs d.lift staged) :
    RowsSorted g.offsets g.arcs := by
  intro u hu
  have hlt : u < g.nodeCount := by
    rw [hg.offsets_eq, length_canonicalOffsets] at hu
    omega
  have hoffset : ∀ i, i < g.nodeCount + 1 →
      offsetAt g.offsets i = Csr.below StagedArc.row staged i := by
    intro i hi
    rw [offsetAt, hg.getElem?_offsets hi, Option.getD_some, toNat_ofNat_below hg.arcs_le]
  have hrow : csrRow g.offsets g.arcs u = rowOf staged (UInt32.ofNat u) := by
    rw [csrRow, hoffset u (by omega), hoffset (u + 1) (by omega), hg.arcs_eq, ← List.map_drop,
      ← List.map_take, Csr.slice_below StagedArc.row hg.sortedBySource, rowOf, ← filter_row_eq,
      toNat_ofNat_node (hlt.trans_le hg.nodes_le)]
  rw [hrow]
  exact hg.sorted_rowOf _

end

/-- **What `compute_metric_report` reports**, on every input that meets its preconditions. The
first violation is the first in the order of the array; where rows are sorted, as in every built
graph, that is the canonical order. -/
theorem computeMetricReport_tells {K : Type} [Field K] [LinearOrder K] [IsStrictOrderedRing K]
    (d : PlaneDistance K) :
    (∀ (coordinates : List (Coord (WithTop K))) (offsets : List UInt32)
        (arcs : List (Arc (WithTop K))), CsrInput coordinates offsets arcs →
      (rowArcs offsets arcs).map Prod.snd = arcs.drop (offsetAt offsets 0) ∧
      ∃ report, computeMetricReport d.lift coordinates offsets arcs = .ok report ∧
        report.violatingArcs.toNat
          = (rowArcs offsets arcs).countP (violates d.lift coordinates) ∧
        (report.passes = true ↔ report.violatingArcs = 0) ∧
        (report.violatingArcs ≠ 0 → ∃ u arc,
          (rowArcs offsets arcs).find? (violates d.lift coordinates) = some (u, arc) ∧
          report.firstViolationSource = UInt32.ofNat u ∧
          report.firstViolationTarget = arc.target ∧
          (coordinates.length ≤ 2 ^ 32 → report.firstViolationSource.toNat = u) ∧
          (RowsSorted offsets arcs → ∀ b ∈ rowArcs offsets arcs,
            violates d.lift coordinates b = true → canonicalKey (u, arc) ≤ canonicalKey b)) ∧
        IsLeast (insert ⊤ {r | ∃ a ∈ rowArcs offsets arcs, 0 < rowDistance d.lift coordinates a ∧
          r = a.2.weight / rowDistance d.lift coordinates a}) report.worstRatio ∧
        (report.passes = true ↔ 1 ≤ report.worstRatio)) ∧
    ∀ (std : Comparison.Sorter (GraphBuilder.stagedBefore (F := WithTop K)))
      (g : Graph (WithTop K)), g.Built d.lift std →
      CsrInput g.coordinates g.offsets g.arcs ∧ RowsSorted g.offsets g.arcs := by
  refine ⟨fun coordinates offsets arcs h => ?_, fun std g hg => ?_⟩
  · have htells : ((rowArcs offsets arcs).foldl (observeRow d.lift coordinates) .initial).Tells
        d.lift coordinates (rowArcs offsets arcs) := .scan _ h.length_rowArcs_lt
    refine ⟨h.map_snd_rowArcs, _, h.computeMetricReport_eq d.lift, htells.count, ?_,
      fun hcount => ?_, htells.worst,
      htells.passes_iff_ratio fun a ha => h.nonneg _ (h.of_mem_rowArcs ha).2⟩
    · rw [htells.passes, ← UInt64.toNat_inj, htells.count]
      simp [List.countP_eq_zero]
    · -- a counted violation is somewhere in the rows
      have hsome : (rowArcs offsets arcs).find? (violates d.lift coordinates) ≠ none := by
        intro hnone
        refine hcount (UInt64.toNat_inj.mp ?_)
        rw [htells.count]
        rw [List.find?_eq_none] at hnone
        exact List.countP_eq_zero.mpr hnone
      rcases Option.ne_none_iff_exists'.mp hsome with ⟨⟨u, arc⟩, hfind⟩
      rcases htells.first _ hfind with ⟨hsource, htarget⟩
      refine ⟨u, arc, hfind, hsource, htarget, fun hnodes => ?_, fun hsorted b hb hviolates => ?_⟩
      · rw [hsource]
        have hu := (h.of_mem_rowArcs (List.mem_of_find?_eq_some hfind)).1
        exact UInt32.toNat_ofNat_of_lt' (by simp only [UInt32.size]; omega)
      · exact le_of_find?_eq_some (fun _ => le_rfl) hsorted.pairwise hfind hb hviolates
  · rcases hg.exists_overArcs with ⟨staged, hover⟩
    exact ⟨hover.csrInput, hover.rowsSorted⟩

/-! ## A row that is not sorted -/

/-- Three points of a line and, from the first, an arc to the last before one to the middle; both
are too short. -/
theorem csrInput_unsorted :
    CsrInput ([⟨0, 0⟩, ⟨1, 0⟩, ⟨2, 0⟩] : List (Coord (WithTop ℚ))) [0, 2, 2, 2]
      [⟨2, 1⟩, ⟨1, 0⟩] where
  size := rfl
  monotone := by decide
  last := rfl
  targets := by decide
  finite := by decide
  nonneg := by decide

theorem computeMetricReport_tells_unsorted :
    ∃ report, computeMetricReport taxicab.lift [⟨0, 0⟩, ⟨1, 0⟩, ⟨2, 0⟩] [0, 2, 2, 2]
        [⟨2, 1⟩, ⟨1, 0⟩] = .ok report ∧
      (report.passes = true ↔ report.violatingArcs = 0) ∧
      (report.passes = true ↔ 1 ≤ report.worstRatio) := by
  rcases (computeMetricReport_tells taxicab).1 _ _ _ csrInput_unsorted with
    ⟨-, report, hreport, -, hcount, -, -, hratio⟩
  exact ⟨report, hreport, hcount, hratio⟩

/-- There the first violation is not the first in canonical order. -/
theorem firstViolation_not_canonical :
    ¬ ∀ (coordinates : List (Coord (WithTop ℚ))) (offsets : List UInt32)
        (arcs : List (Arc (WithTop ℚ))), CsrInput coordinates offsets arcs →
      ∀ report, computeMetricReport taxicab.lift coordinates offsets arcs = .ok report →
      ∀ a ∈ rowArcs offsets arcs, violates taxicab.lift coordinates a = true →
        (∀ b ∈ rowArcs offsets arcs, violates taxicab.lift coordinates b = true →
          canonicalKey a ≤ canonicalKey b) →
        report.firstViolationTarget = a.2.target := by
  intro hcanonical
  have htarget := hcanonical _ _ _ csrInput_unsorted ⟨false, 2, 0, 2, 0⟩ (by decide +kernel)
    (0, ⟨1, 0⟩) (by decide +kernel) (by decide +kernel) (by decide +kernel)
  exact absurd htarget (by decide)

end RouteEngine
