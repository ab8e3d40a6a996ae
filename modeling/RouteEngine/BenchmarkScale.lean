import Mathlib.Data.Fintype.Order
import RouteEngine.BenchmarkGate
import RouteEngine.Library.Tolerance

set_option autoImplicit false

/-! # Agreement and the scale of the costs

The comparison of costs is documented as relative, but magnitudes below `1` count as `1`. Over
exact arithmetic a report therefore bounds the differences of the costs relatively, and does so
independently of their scale, exactly when the answers that are compared are relatively close
(`agreementIsRelative_iff`). -/

namespace RouteEngine

variable {K : Type} [Field K] [LinearOrder K]

/-! ## The comparison -/

/-- The tolerance `1e-9`. -/
def relativeTolerance (K : Type) [Field K] : K := 1 / ((10 ^ 9 : Nat) : K)

theorem maxElement_eq_foldl_max {L : Type} [LinearOrder L] (first : L) (rest : List L) :
    maxElement first rest = rest.foldl max first := by
  unfold maxElement
  congr 1
  funext a x
  exact (max_def_lt a x).symm

/-- Finite costs agree up to the tolerance, with the floor `1`. -/
theorem costsAgree_coe_iff (a b : K) :
    costsAgree (a : WithTop K) (b : WithTop K) = true ↔
      CloseUpTo (relativeTolerance K) 1 a b := by
  have hinf : ∀ c : K, CostArith.isInf (c : WithTop K) = false := by
    intro c
    exact decide_eq_false WithTop.coe_ne_top
  have hscale : maxElement (1 : WithTop K) [CostArith.abs (a : WithTop K),
      CostArith.abs (b : WithTop K)] = ((max 1 (max |a| |b|) : K) : WithTop K) := by
    rw [maxElement_eq_foldl_max, ← max_assoc]
    show max (max ((1 : K) : WithTop K) ((|a| : K) : WithTop K)) ((|b| : K) : WithTop K) = _
    rw [WithTop.coe_max, WithTop.coe_max]
  unfold costsAgree
  rw [hinf, hinf, hscale]
  simp only [Bool.or_self, Bool.false_eq_true, if_false, decide_eq_true_eq]
  show ((|a - b| : K) : WithTop K)
      ≤ ((1 / 10 ^ 9 : K) : WithTop K) * ((max 1 (max |a| |b|) : K) : WithTop K) ↔ _
  rw [← WithTop.coe_mul, WithTop.coe_le_coe, CloseUpTo, relativeTolerance, Nat.cast_pow,
    Nat.cast_ofNat]

variable [IsStrictOrderedRing K]

theorem relativeTolerance_pos : 0 < relativeTolerance K := by
  unfold relativeTolerance
  rw [Nat.cast_pow, Nat.cast_ofNat]
  positivity

theorem relativeTolerance_add_le : relativeTolerance K + relativeTolerance K ≤ 1 := by
  have hlarge : (2 : K) ≤ 10 ^ 9 := by norm_num
  unfold relativeTolerance
  rw [Nat.cast_pow, Nat.cast_ofNat, ← add_div, div_le_one (by positivity)]
  linarith

/-! ## What the algorithms report -/

section Reports

omit [IsStrictOrderedRing K]

variable (oracle : Oracle (WithTop K)) (queries : List QueryPair)

/-- The results have finite costs that are not negative, where they report a route. -/
def Oracle.FiniteCosts : Prop :=
  ∀ calls source target algorithm, (oracle calls source target algorithm).found = true →
    ∃ c : K, 0 ≤ c ∧ (oracle calls source target algorithm).cost = (c : WithTop K)

/-- In the warm-up, the algorithm of a slot reports a route of this cost for the query `i`. -/
def Oracle.Reports (slot : Fin 3) (i : Nat) (cost : K) : Prop :=
  ∃ query, queries[i]? = some query ∧
    (oracle.answer (slot * queries.length + i) query slot).found = true ∧
    (oracle.answer (slot * queries.length + i) query slot).cost = (cost : WithTop K)

/-- Nothing but a comparison of costs can refuse the run. -/
structure Oracle.Comparable (g : Graph (WithTop K)) (repetitions : Nat) : Prop where
  passes : g.metric.passes = true
  queries_ne : queries ≠ []
  repetitions_pos : 1 ≤ repetitions
  found : ∀ slot, slot ≠ referenceSlot → ∀ i query, queries[i]? = some query →
    (oracle.answer (slot * queries.length + i) query slot).found
      = (oracle.answer i query referenceSlot).found
  counters : oracle.CountersRepeat queries repetitions

/-- The compared answers are close up to a floor: those of the other algorithms to those of the
reference. -/
def Oracle.ComparedClose (floor : K) : Prop :=
  ∀ slot, slot ≠ referenceSlot → ∀ i a r, oracle.Reports queries slot i a →
    oracle.Reports queries referenceSlot i r → CloseUpTo (relativeTolerance K) floor a r

variable {oracle queries}

omit [Field K] [LinearOrder K] in
theorem Oracle.Reports.unique {slot : Fin 3} {i : Nat} {a b : K}
    (ha : oracle.Reports queries slot i a) (hb : oracle.Reports queries slot i b) : a = b := by
  rcases ha with ⟨query, hquery, -, ha⟩
  rcases hb with ⟨query', hquery', -, hb⟩
  rw [hquery, Option.some.injEq] at hquery'
  subst hquery'
  exact WithTop.coe_injective (ha.symm.trans hb)

omit [Field K] [LinearOrder K] in
theorem Oracle.Reports.lt_length {slot : Fin 3} {i : Nat} {a : K}
    (h : oracle.Reports queries slot i a) : i < queries.length := by
  rcases h with ⟨query, hquery, -⟩
  exact (List.getElem?_eq_some_iff.mp hquery).1

theorem Oracle.Reports.nonneg (hfinite : oracle.FiniteCosts) {slot : Fin 3} {i : Nat} {a : K}
    (h : oracle.Reports queries slot i a) : 0 ≤ a := by
  rcases h with ⟨query, -, hfound, hcost⟩
  rcases hfinite _ _ _ _ hfound with ⟨c, hc, hsame⟩
  have hac : a = c := WithTop.coe_injective (hcost.symm.trans hsame)
  exact hac ▸ hc

/-- The warm-up agrees exactly when the algorithms find the same routes and the compared costs
are close. -/
theorem warmupAgrees_iff (hfinite : oracle.FiniteCosts) :
    oracle.WarmupAgrees queries ↔
      (∀ slot, slot ≠ referenceSlot → ∀ i query, queries[i]? = some query →
        (oracle.answer (slot * queries.length + i) query slot).found
          = (oracle.answer i query referenceSlot).found) ∧
      oracle.ComparedClose queries 1 := by
  have hreference : ∀ i, (referenceSlot : Nat) * queries.length + i = i := by
    intro i
    simp [referenceSlot]
  constructor
  · intro h
    refine ⟨fun slot hslot i query hquery => (h slot hslot i query hquery).found, ?_⟩
    intro slot hslot i a r ha hr
    rcases ha with ⟨query, hquery, hfound, ha⟩
    rcases hr with ⟨query', hquery', -, hr⟩
    rw [hquery, Option.some.injEq] at hquery'
    subst hquery'
    rw [hreference] at hr
    have hagree := (h slot hslot i query hquery).cost hfound
    rw [ha, hr] at hagree
    exact (costsAgree_coe_iff a r).mp hagree
  · rintro ⟨hfound, hclose⟩ slot hslot i query hquery
    refine ⟨hfound slot hslot i query hquery, ?_⟩
    intro hroute
    have hroute' := (hfound slot hslot i query hquery).symm.trans hroute
    rcases hfinite _ _ _ _ hroute with ⟨a, -, ha⟩
    rcases hfinite _ _ _ _ hroute' with ⟨r, -, hr⟩
    have hreports : oracle.Reports queries referenceSlot i r := by
      refine ⟨query, hquery, ?_⟩
      rw [hreference]
      exact ⟨hroute', hr⟩
    show costsAgree (oracle _ query.source query.target _).cost
      (oracle _ query.source query.target _).cost = true
    rw [ha, hr]
    exact (costsAgree_coe_iff a r).mpr
      (hclose slot hslot i a r ⟨query, hquery, hroute, ha⟩ hreports)

end Reports

/-! ## Published reports -/

section Published

omit [IsStrictOrderedRing K]

variable (clock : Nat → Int) (seconds : Int → WithTop K) (showCost : WithTop K → String)
  (g : Graph (WithTop K)) (queries : List QueryPair) (repetitions : Nat)

/-- `run_benchmark` returns a report. -/
def Oracle.Published (oracle : Oracle (WithTop K)) : Prop :=
  ∃ report, oracle.benchmark clock seconds showCost g queries repetitions = .ok report

variable {oracle : Oracle (WithTop K)}

/-- A report is published exactly when the run is comparable and the compared costs are close. -/
theorem published_iff (hfinite : oracle.FiniteCosts) :
    oracle.Published clock seconds showCost g queries repetitions ↔
      oracle.Comparable queries g repetitions ∧ oracle.ComparedClose queries 1 := by
  let env := oracle.environment clock seconds showCost
  let script := oracle.scripted clock seconds showCost queries
  have hgate := runFailure_eq_none_iff oracle env g queries repetitions
  rw [warmupAgrees_iff hfinite] at hgate
  unfold Oracle.Published Oracle.benchmark
  by_cases hpass : g.metric.passes = true
  swap
  · -- the metric contract refuses the run
    rw [Bool.not_eq_true] at hpass
    refine iff_of_false ?_ (fun h => by simp [h.1.passes] at hpass)
    rintro ⟨report, hreport⟩
    unfold runBenchmark at hreport
    rw [hpass] at hreport
    cases hreport
  by_cases hne : queries = []
  · -- so does the check of the queries
    refine iff_of_false ?_ (fun h => h.1.queries_ne hne)
    rintro ⟨report, hreport⟩
    subst hne
    unfold runBenchmark at hreport
    rw [hpass] at hreport
    cases hreport
  by_cases hrep : repetitions = 0
  · -- and that of the repetitions
    refine iff_of_false ?_ (fun h => absurd h.1.repetitions_pos (by omega))
    rintro ⟨report, hreport⟩
    unfold runBenchmark at hreport
    rw [hpass, if_neg (by simp), if_neg (by simpa using hne), if_pos hrep] at hreport
    cases hreport
  have hrun : ((runBenchmark env g queries repetitions).call (0, 0)).map Prod.fst
      = (Script.passOr (oracle.runFailure env g queries repetitions)
          (script.report repetitions, script.stateBefore (3 * repetitions))).map Prod.fst :=
    congrArg (Except.map Prod.fst) (script.call_runBenchmark g hpass hne (by omega))
  constructor
  · rintro ⟨report, hreport⟩
    rcases map_eq_ok.mp (hrun.symm.trans hreport) with ⟨p, hp, -⟩
    rcases hgate.mp (Script.passOr_eq_ok.mp hp).1 with ⟨⟨hfound, hclose⟩, hcounters⟩
    exact ⟨⟨hpass, hne, by omega, hfound, hcounters⟩, hclose⟩
  · rintro ⟨hcomparable, hclose⟩
    have hnone := hgate.mpr ⟨⟨hcomparable.found, hclose⟩, hcomparable.counters⟩
    exact ⟨script.report repetitions, by rw [hrun, hnone]; rfl⟩

end Published

/-! ## Scaling the costs -/

/-- The result with its cost scaled. -/
def SearchResult.scale (c : K) (result : SearchResult (WithTop K)) : SearchResult (WithTop K) :=
  { result with cost := result.cost.map (fun cost => c * cost) }

/-- The oracle with all its costs scaled. -/
def Oracle.scale (c : K) (oracle : Oracle (WithTop K)) : Oracle (WithTop K) :=
  fun calls source target algorithm => (oracle calls source target algorithm).scale c

section Scale

variable {oracle : Oracle (WithTop K)} {queries : List QueryPair} {c : K}

theorem Oracle.FiniteCosts.scale (h : oracle.FiniteCosts) (hc : 0 < c) :
    (oracle.scale c).FiniteCosts := by
  intro calls source target algorithm hfound
  rcases h calls source target algorithm hfound with ⟨a, ha, hcost⟩
  refine ⟨c * a, mul_nonneg hc.le ha, ?_⟩
  show (oracle calls source target algorithm).cost.map (fun cost => c * cost) = _
  rw [hcost]
  rfl

omit [LinearOrder K] [IsStrictOrderedRing K] in
theorem Oracle.Reports.scale {slot : Fin 3} {i : Nat} {a : K}
    (h : oracle.Reports queries slot i a) : (oracle.scale c).Reports queries slot i (c * a) := by
  rcases h with ⟨query, hquery, hfound, hcost⟩
  refine ⟨query, hquery, hfound, ?_⟩
  show (oracle.answer _ query slot).cost.map (fun cost => c * cost) = _
  rw [hcost]
  rfl

omit [IsStrictOrderedRing K] in
/-- What a scaled oracle reports is the scaled cost. -/
theorem Oracle.Reports.of_scale (hfinite : oracle.FiniteCosts) {slot : Fin 3} {i : Nat} {x : K}
    (h : (oracle.scale c).Reports queries slot i x) :
    ∃ a, oracle.Reports queries slot i a ∧ x = c * a := by
  have hscaled := h
  rcases h with ⟨query, hquery, hfound, -⟩
  rcases hfinite _ _ _ _ hfound with ⟨a, -, hcost⟩
  have hreports : oracle.Reports queries slot i a := ⟨query, hquery, hfound, hcost⟩
  exact ⟨a, hreports, hscaled.unique hreports.scale⟩

omit [IsStrictOrderedRing K] in
theorem comparedClose_scale_iff (hfinite : oracle.FiniteCosts) (floor : K) :
    (oracle.scale c).ComparedClose queries floor ↔
      ∀ slot, slot ≠ referenceSlot → ∀ i a r, oracle.Reports queries slot i a →
        oracle.Reports queries referenceSlot i r →
          CloseUpTo (relativeTolerance K) floor (c * a) (c * r) := by
  constructor
  · intro h slot hslot i a r ha hr
    exact h slot hslot i _ _ ha.scale hr.scale
  · intro h slot hslot i x y hx hy
    rcases hx.of_scale hfinite with ⟨a, ha, rfl⟩
    rcases hy.of_scale hfinite with ⟨r, hr, rfl⟩
    exact h slot hslot i a r ha hr

omit [LinearOrder K] [IsStrictOrderedRing K] in
/-- Scaling the costs leaves the counters as they are. -/
theorem measuredCounters_scale (queries : List QueryPair) (repetition : Nat) (slot : Fin 3) :
    (oracle.scale c).measuredCounters queries repetition slot
      = oracle.measuredCounters queries repetition slot := by
  have hpass : (oracle.scale c).measured queries repetition slot
      = (oracle.measured queries repetition slot).map (SearchResult.scale c) := by
    unfold Oracle.measured Oracle.pass
    rw [List.map_map]
    rfl
  unfold Oracle.measuredCounters AlgorithmSummary.total
  rw [hpass, List.foldl_map]
  rfl

omit [LinearOrder K] [IsStrictOrderedRing K] in
theorem comparable_scale_iff {g : Graph (WithTop K)} {repetitions : Nat} :
    (oracle.scale c).Comparable queries g repetitions ↔
      oracle.Comparable queries g repetitions := by
  have hcounters : (oracle.scale c).CountersRepeat queries repetitions ↔
      oracle.CountersRepeat queries repetitions := by
    unfold Oracle.CountersRepeat
    simp only [measuredCounters_scale]
  constructor
  · intro h
    exact ⟨h.passes, h.queries_ne, h.repetitions_pos, h.found, hcounters.mp h.counters⟩
  · intro h
    exact ⟨h.passes, h.queries_ne, h.repetitions_pos, h.found, hcounters.mpr h.counters⟩

omit [IsStrictOrderedRing K] in
/-- The differences of the compared costs are bounded: there are finitely many. -/
theorem exists_difference_bound (oracle : Oracle (WithTop K)) (queries : List QueryPair) :
    ∃ bound : K, ∀ slot i a r, oracle.Reports queries slot i a →
      oracle.Reports queries referenceSlot i r → |a - r| ≤ bound := by
  -- a slot reports at most one cost for a query
  have hone : ∀ p : Fin 3 × Fin queries.length, ∃ bound : K, ∀ a r,
      oracle.Reports queries p.1 p.2 a → oracle.Reports queries referenceSlot p.2 r →
        |a - r| ≤ bound := by
    intro p
    by_cases h : ∃ a r, oracle.Reports queries p.1 p.2 a ∧
        oracle.Reports queries referenceSlot p.2 r
    · rcases h with ⟨a, r, ha, hr⟩
      refine ⟨|a - r|, ?_⟩
      intro a' r' ha' hr'
      rw [ha.unique ha', hr.unique hr']
    · exact ⟨0, fun a r ha hr => absurd ⟨a, r, ha, hr⟩ h⟩
  choose bound hbound using hone
  rcases Finite.exists_le bound with ⟨largest, hlargest⟩
  refine ⟨largest, ?_⟩
  intro slot i a r ha hr
  exact (hbound (slot, ⟨i, ha.lt_length⟩) a r ha hr).trans (hlargest _)

end Scale

/-! ## The law -/

section Law

variable (clock : Nat → Int) (seconds : Int → WithTop K) (showCost : WithTop K → String)
  (g : Graph (WithTop K)) (queries : List QueryPair) (repetitions : Nat)

/-- The documented law: a published report bounds the difference of any two costs for a query by
the tolerance relative to the larger one, doubled for two algorithms that are both compared with
the reference, and scaling the costs does not change whether a report is published. -/
structure Oracle.AgreementIsRelative (oracle : Oracle (WithTop K)) : Prop where
  relative : oracle.Published clock seconds showCost g queries repetitions →
    ∀ slot slot' i a b, oracle.Reports queries slot i a → oracle.Reports queries slot' i b →
      |a - b| ≤ (if slot = referenceSlot ∨ slot' = referenceSlot then relativeTolerance K
        else relativeTolerance K + relativeTolerance K) * max a b
  scale : ∀ c : K, 0 < c →
    ((oracle.scale c).Published clock seconds showCost g queries repetitions ↔
      oracle.Published clock seconds showCost g queries repetitions)

variable {queries repetitions g} {oracle : Oracle (WithTop K)}

/-- Relatively close answers are relatively close to each other. -/
theorem Oracle.ComparedClose.relative (hfinite : oracle.FiniteCosts)
    (hcomparable : oracle.Comparable queries g repetitions)
    (hclose : oracle.ComparedClose queries 0) {slot slot' : Fin 3} {i : Nat} {a b : K}
    (ha : oracle.Reports queries slot i a) (hb : oracle.Reports queries slot' i b) :
    |a - b| ≤ (if slot = referenceSlot ∨ slot' = referenceSlot then relativeTolerance K
      else relativeTolerance K + relativeTolerance K) * max a b := by
  have hε : (0 : K) ≤ relativeTolerance K := relativeTolerance_pos.le
  have ha0 := ha.nonneg hfinite
  have hb0 := hb.nonneg hfinite
  by_cases hslot : slot = referenceSlot
  · rw [if_pos (.inl hslot)]
    subst hslot
    by_cases hslot' : slot' = referenceSlot
    · subst hslot'
      rw [ha.unique hb, sub_self, abs_zero, max_self]
      exact mul_nonneg hε hb0
    · have h := CloseUpTo.relative_iff.mp (hclose slot' hslot' i b a hb ha)
      rwa [abs_of_nonneg ha0, abs_of_nonneg hb0, abs_sub_comm, max_comm] at h
  · by_cases hslot' : slot' = referenceSlot
    · rw [if_pos (.inr hslot')]
      subst hslot'
      have h := CloseUpTo.relative_iff.mp (hclose slot hslot i a b ha hb)
      rwa [abs_of_nonneg ha0, abs_of_nonneg hb0] at h
    · -- neither is the reference, which found a route as well
      rw [if_neg (by simp [hslot, hslot'])]
      rcases ha with ⟨query, hquery, hfound, hcost⟩
      have hroute := (hcomparable.found slot hslot i query hquery).symm.trans hfound
      rcases hfinite _ _ _ _ hroute with ⟨r, hr0, hr⟩
      have hreference : oracle.Reports queries referenceSlot i r := by
        refine ⟨query, hquery, ?_⟩
        rw [show (referenceSlot : Nat) * queries.length + i = i by simp [referenceSlot]]
        exact ⟨hroute, hr⟩
      exact CloseUpTo.via hε relativeTolerance_add_le ha0 hb0 hr0
        (hclose slot hslot i a r ⟨query, hquery, hfound, hcost⟩ hreference)
        (hclose slot' hslot' i b r hb hreference)

/-- **When agreement is relative.** For search results with finite costs that are not negative,
the documented law holds exactly when the run is refused for another reason than a comparison of
costs, or each compared cost is relatively close to that of the reference. -/
theorem agreementIsRelative_iff (oracle : Oracle (WithTop K)) (hfinite : oracle.FiniteCosts)
    (clock : Nat → Int) (seconds : Int → WithTop K) (showCost : WithTop K → String)
    (g : Graph (WithTop K)) (queries : List QueryPair) (repetitions : Nat) :
    oracle.AgreementIsRelative clock seconds showCost g queries repetitions ↔
      (oracle.Comparable queries g repetitions → oracle.ComparedClose queries 0) := by
  have hε : (0 : K) < relativeTolerance K := relativeTolerance_pos
  have hpublished := fun c (hc : 0 < c) => published_iff clock seconds showCost g queries
    repetitions (hfinite.scale hc)
  constructor
  · intro h hcomparable
    -- at a small scale the floor hides every difference, so the report is published at all scales
    rcases exists_difference_bound oracle queries with ⟨bound, hbound⟩
    rcases CloseUpTo.exists_scale_close hε one_pos bound with ⟨small, hsmall, hhidden⟩
    have hreport := (h.scale small hsmall).mp ((hpublished small hsmall).mpr
      ⟨comparable_scale_iff.mpr hcomparable, (comparedClose_scale_iff hfinite 1).mpr
        (fun slot _ i a r ha hr => hhidden a r (hbound slot i a r ha hr))⟩)
    intro slot hslot i a r ha hr
    apply (CloseUpTo.forall_scale_iff hε.le zero_le_one).mp
    intro c hc
    have hscaled := ((hpublished c hc).mp ((h.scale c hc).mpr hreport)).2
    exact (comparedClose_scale_iff hfinite 1).mp hscaled slot hslot i a r ha hr
  · intro h
    have hsame := published_iff clock seconds showCost g queries repetitions hfinite
    refine ⟨?_, ?_⟩
    · intro hreport slot slot' i a b ha hb
      have hcomparable := (hsame.mp hreport).1
      exact (h hcomparable).relative hfinite hcomparable ha hb
    · intro c hc
      rw [hpublished c hc, hsame, comparable_scale_iff]
      refine and_congr_right ?_
      intro hcomparable
      have hclose := h hcomparable
      -- relative closeness implies the comparison at every scale, so both sides hold
      refine iff_of_true ((comparedClose_scale_iff hfinite 1).mpr ?_) ?_
      · intro slot hslot i a r ha hr
        have hrelative := hclose slot hslot i a r ha hr
        exact ((CloseUpTo.relative_scale_iff hc).mpr hrelative).mono hε.le zero_le_one
      · intro slot hslot i a r ha hr
        exact (hclose slot hslot i a r ha hr).mono hε.le zero_le_one

end Law

/-! ## Small costs -/

/-- The agreeing answers of cost `1` are relatively close. -/
theorem agreementIsRelative_alwaysOne :
    alwaysOne.AgreementIsRelative (fun n => n) (fun _ => 0) (fun _ => "1") road
      [⟨0, 2⟩, ⟨0, 2⟩] 2 := by
  have hfinite : alwaysOne.FiniteCosts := fun _ _ _ _ _ => ⟨1, zero_le_one, rfl⟩
  have hone : ∀ {slot i a}, alwaysOne.Reports [⟨0, 2⟩, ⟨0, 2⟩] slot i a → a = 1 := by
    rintro slot i a ⟨query, -, -, hcost⟩
    exact (WithTop.coe_injective hcost).symm
  refine (agreementIsRelative_iff alwaysOne hfinite (fun n => n) (fun _ => 0) (fun _ => "1") road
    [⟨0, 2⟩, ⟨0, 2⟩] 2).mpr ?_
  intro _ slot _ i a r ha hr
  rw [hone ha, hone hr]
  unfold CloseUpTo
  norm_num [relativeTolerance]

/-- Two algorithms report `2 ^ (-31)` and the third one twice as much. -/
def smallCosts : Oracle (WithTop ℚ) := fun _ _ _ algorithm =>
  ⟨.found, if algorithm = .astarZero then ((1 / 2 ^ 30 : ℚ) : WithTop ℚ)
    else ((1 / 2 ^ 31 : ℚ) : WithTop ℚ), [0, 1, 2], .zero⟩

/-- The comparison in `double` accepts these costs, and rejects them at another scale. -/
example : costsAgree (⟨0x3E10000000000000⟩ : Binary64) ⟨0x3E00000000000000⟩ = true ∧
    costsAgree (⟨0x4000000000000000⟩ : Binary64) ⟨0x3FF0000000000000⟩ = false := by
  decide +kernel

/-- A report is published although one cost is twice the other, and it is withheld when all
costs are scaled. -/
theorem smallCosts_not_relative :
    smallCosts.FiniteCosts ∧
      smallCosts.Published (fun n => n) (fun _ => 0) (fun _ => "") road [⟨0, 2⟩] 1 ∧
      smallCosts.Reports [⟨0, 2⟩] 0 0 (1 / 2 ^ 31) ∧
      smallCosts.Reports [⟨0, 2⟩] 1 0 (1 / 2 ^ 30) ∧
      ¬ (smallCosts.scale (2 ^ 31)).Published (fun n => n) (fun _ => 0) (fun _ => "") road
        [⟨0, 2⟩] 1 ∧
      ¬ smallCosts.AgreementIsRelative (fun n => n) (fun _ => 0) (fun _ => "") road
        [⟨0, 2⟩] 1 := by
  have hfinite : smallCosts.FiniteCosts := by
    intro calls source target algorithm _
    cases algorithm
    · exact ⟨1 / 2 ^ 31, by positivity, rfl⟩
    · exact ⟨1 / 2 ^ 30, by positivity, rfl⟩
    · exact ⟨1 / 2 ^ 31, by positivity, rfl⟩
  have hrun : (smallCosts.benchmark (fun n => n) (fun _ => 0) (fun _ => "") road
      [⟨0, 2⟩] 1).isOk = true := by
    decide +kernel
  have hscaled : ((smallCosts.scale (2 ^ 31)).benchmark (fun n => n) (fun _ => 0) (fun _ => "")
      road [⟨0, 2⟩] 1).isOk = false := by
    decide +kernel
  have hpublished : smallCosts.Published (fun n => n) (fun _ => 0) (fun _ => "") road
      [⟨0, 2⟩] 1 := by
    cases hreport : smallCosts.benchmark (fun n => n) (fun _ => 0) (fun _ => "") road
        [⟨0, 2⟩] 1 with
    | ok report => exact ⟨report, hreport⟩
    | error e =>
        rw [hreport] at hrun
        cases hrun
  have hwithheld : ¬ (smallCosts.scale (2 ^ 31)).Published (fun n => n) (fun _ => 0)
      (fun _ => "") road [⟨0, 2⟩] 1 := by
    rintro ⟨report, hreport⟩
    rw [hreport] at hscaled
    cases hscaled
  refine ⟨hfinite, hpublished, ⟨⟨0, 2⟩, rfl, rfl, rfl⟩, ⟨⟨0, 2⟩, rfl, rfl, rfl⟩, hwithheld, ?_⟩
  intro h
  exact hwithheld ((h.scale (2 ^ 31) (by positivity)).mpr hpublished)

end RouteEngine
