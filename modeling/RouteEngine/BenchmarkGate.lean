import RouteEngine.BenchmarkOutcome
import RouteEngine.Exact

set_option autoImplicit false

/-! # The benchmark refuses an unverified comparison

A report is returned exactly when the warm-up answers agree and every measured pass repeats
the counters of the first one, whatever the searches answer (`runBenchmark_gate`). -/

namespace RouteEngine

variable {F σ : Type}

/-- The environment whose searches answer as the oracle does. Its state counts the searches
and the readings of the clock. -/
def Oracle.environment (oracle : Oracle F) (clock : Nat → Int) (seconds : Int → F)
    (showCost : F → String) : Environment F (Nat × Nat) where
  runSearch source target algorithm := fun s =>
    .ok (oracle s.1 source target algorithm) (s.1 + 1, s.2)
  now := fun s => .ok (clock s.2) (s.1, s.2 + 1)
  seconds := seconds
  showCost := showCost

/-- Every oracle scripts its own environment. -/
def Oracle.scripted (oracle : Oracle F) (clock : Nat → Int) (seconds : Int → F)
    (showCost : F → String) (queries : List QueryPair) :
    Scripted (oracle.environment clock seconds showCost) queries where
  oracle := oracle
  clock := clock
  state := Prod.mk
  call_runSearch _ _ _ _ _ := rfl
  call_now _ _ := rfl

/-! ## Measured passes -/

theorem countersFailure_eq_none_iff (oracle : Oracle F) (queries : List QueryPair)
    (repetition : Nat) (slot : Fin 3) :
    oracle.countersFailure queries repetition slot = none ↔
      oracle.measuredCounters queries repetition slot
        = oracle.measuredCounters queries 0 slot := by
  unfold Oracle.countersFailure
  split_ifs with h
  · simpa using h
  · simpa using h

/-- Every measured pass repeats the counters of the first pass of its algorithm. -/
def Oracle.CountersRepeat (oracle : Oracle F) (queries : List QueryPair) (repetitions : Nat) :
    Prop :=
  ∀ slot, ∀ r, r < repetitions →
    oracle.measuredCounters queries r slot = oracle.measuredCounters queries 0 slot

theorem measuredFailure_eq_none_iff (oracle : Oracle F) (queries : List QueryPair)
    (repetitions : Nat) :
    oracle.measuredFailure queries repetitions = none ↔
      oracle.CountersRepeat queries repetitions := by
  simp only [Oracle.measuredFailure, Oracle.repetitionFailure, List.findSome?_eq_none_iff,
    List.mem_range, countersFailure_eq_none_iff]
  constructor
  · intro h slot r hr
    have hslot := (slotAt_eq_iff_turn (turn_lt r slot) slot).mpr rfl
    rw [← hslot]
    exact h r hr (turn r slot) (turn_lt r slot)
  · intro h r hr step _
    exact h _ r hr

/-- The measured passes throw nothing but `BenchmarkAgreementError`. -/
theorem measuredFailure_agreement {oracle : Oracle F} {queries : List QueryPair}
    {repetitions : Nat} {e : Failure} (h : oracle.measuredFailure queries repetitions = some e) :
    ∃ message, e = .benchmarkAgreement message := by
  obtain ⟨r, -, hr⟩ := List.exists_of_findSome?_eq_some h
  obtain ⟨step, -, hstep⟩ := List.exists_of_findSome?_eq_some hr
  unfold Oracle.countersFailure at hstep
  split_ifs at hstep
  exact ⟨_, (Option.some.inj hstep).symm⟩

/-! ## The text of a query -/

section Describe

variable [IsFinite F] [Zero F] [Top F] [LT F] [DecidableLT F] [LE F] [DecidableLE F] [Div F]
variable {distance : Coord F → Coord F → F} {g : Graph F} {staged : List (StagedArc F)}

/-- Both ends of the query are nodes of the graph. -/
def QueryPair.Within (query : QueryPair) (g : Graph F) : Prop :=
  g.contains query.source = true ∧ g.contains query.target = true

instance (query : QueryPair) (g : Graph F) : Decidable (query.Within g) :=
  inferInstanceAs (Decidable (_ ∧ _))

omit [IsFinite F] [Zero F] [Top F] [LT F] [DecidableLT F] [LE F] [DecidableLE F] [Div F] in
theorem externalId_outOfRange {id : NodeId} (h : g.contains id = false) :
    ∃ message, g.externalId id = .error (.outOfRange message) := by
  unfold Graph.externalId
  rw [h]
  exact ⟨_, rfl⟩

/-- For a query within the graph the failure is the one that was to be thrown. -/
theorem describedFailure_within (h : g.OverArcs distance staged) {query : QueryPair}
    (hquery : query.Within g) (failure : String → Failure) :
    ∃ text, describedFailure g query failure = failure text := by
  have hsource := h.externalId_eq ((g.contains_iff _).mp hquery.1)
  have htarget := h.externalId_eq ((g.contains_iff _).mp hquery.2)
  unfold describedFailure describe
  rw [hsource, htarget]
  exact ⟨_, rfl⟩

/-- For any other query it is that of the lookup of the node. -/
theorem describedFailure_outside (h : g.OverArcs distance staged) {query : QueryPair}
    (hquery : ¬ query.Within g) (failure : String → Failure) :
    ∃ message, describedFailure g query failure = .outOfRange message := by
  unfold describedFailure describe
  by_cases hsource : g.contains query.source = true
  · have htarget : g.contains query.target = false := by
      rw [← Bool.not_eq_true]
      exact fun ht => hquery ⟨hsource, ht⟩
    obtain ⟨message, hmessage⟩ := externalId_outOfRange htarget
    rw [h.externalId_eq ((g.contains_iff _).mp hsource), hmessage]
    exact ⟨_, rfl⟩
  · obtain ⟨message, hmessage⟩ := externalId_outOfRange (Bool.not_eq_true _ ▸ hsource)
    rw [hmessage]
    exact ⟨_, rfl⟩

end Describe

/-! ## The warm-up -/

section Warmup

variable [CostArith F] [One F] [Sub F] [Mul F] [LT F] [DecidableLT F] [LE F] [DecidableLE F]

section

variable [IsFinite F] [Zero F] [Top F] [Div F] {distance : Coord F → Coord F → F} {g : Graph F}
  {staged : List (StagedArc F)} {env : Environment F σ} {slot : Fin 3} {query : QueryPair}
  {result expected : SearchResult F} {e : Failure}

/-- A disagreement about a query within the graph is reported as such. -/
theorem disagreement_within (h : g.OverArcs distance staged) (hquery : query.Within g)
    (he : disagreement env g slot query result expected = some e) :
    ∃ message, e = .benchmarkAgreement message := by
  unfold disagreement at he
  split_ifs at he with hfound hcost
  · obtain ⟨text, htext⟩ := describedFailure_within h hquery (existenceError slot)
    exact ⟨_, (Option.some.inj he).symm.trans htext⟩
  · obtain ⟨text, htext⟩ := describedFailure_within h hquery
      (costError slot (env.showCost result.cost) (env.showCost expected.cost))
    exact ⟨_, (Option.some.inj he).symm.trans htext⟩

theorem disagreement_outside (h : g.OverArcs distance staged) (hquery : ¬ query.Within g)
    (he : disagreement env g slot query result expected = some e) :
    ∃ message, e = .outOfRange message := by
  unfold disagreement at he
  split_ifs at he with hfound hcost
  · obtain ⟨message, hmessage⟩ := describedFailure_outside h hquery (existenceError slot)
    exact ⟨message, (Option.some.inj he).symm.trans hmessage⟩
  · obtain ⟨message, hmessage⟩ := describedFailure_outside h hquery
      (costError slot (env.showCost result.cost) (env.showCost expected.cost))
    exact ⟨message, (Option.some.inj he).symm.trans hmessage⟩

end

/-- The warm-up answers for the query `i` by a slot and by the reference algorithm agree. -/
def Oracle.AgreesAt (oracle : Oracle F) (queries : List QueryPair) (slot : Fin 3) (i : Nat) :
    Prop :=
  ∀ query, queries[i]? = some query →
    SearchesAgree (oracle.answer (slot * queries.length + i) query slot)
      (oracle.answer i query referenceSlot)

/-- The warm-up answers of the other algorithms agree with those of the reference. -/
def Oracle.WarmupAgrees (oracle : Oracle F) (queries : List QueryPair) : Prop :=
  ∀ slot, slot ≠ referenceSlot → ∀ i, oracle.AgreesAt queries slot i

theorem disagreementAt_eq_none_iff (oracle : Oracle F) (env : Environment F σ) (g : Graph F)
    (queries : List QueryPair) (slot : Fin 3) (i : Nat) :
    oracle.disagreementAt env g queries slot i = none ↔ oracle.AgreesAt queries slot i := by
  unfold Oracle.disagreementAt Oracle.AgreesAt
  cases queries[i]? with
  | none => simp
  | some query => simp [disagreement_eq_none_iff]

theorem warmupFailure_eq_none_iff (oracle : Oracle F) (env : Environment F σ) (g : Graph F)
    (queries : List QueryPair) (slot : Fin 3) :
    oracle.warmupFailure env g queries slot = none ↔ ∀ i, oracle.AgreesAt queries slot i := by
  simp only [Oracle.warmupFailure, List.findSome?_eq_none_iff, List.mem_range,
    disagreementAt_eq_none_iff]
  refine ⟨fun h i => ?_, fun h i _ => h i⟩
  by_cases hi : i < queries.length
  · exact h i hi
  · intro query hquery
    exact absurd (List.getElem?_eq_some_iff.mp hquery).1 hi

/-- The first query, in the order of the warm-up, on which an algorithm disagrees with the
reference. -/
structure Oracle.FirstDisagreement (oracle : Oracle F) (queries : List QueryPair)
    (slot : Fin 3) (i : Nat) : Prop where
  slot_ne : slot ≠ referenceSlot
  disagrees : ¬ oracle.AgreesAt queries slot i
  queries_before : ∀ j, j < i → oracle.AgreesAt queries slot j
  slots_before : ∀ before, before ≠ referenceSlot → before < slot →
    ∀ j, oracle.AgreesAt queries before j

theorem eq_one_or_two {slot : Fin 3} (h : slot ≠ referenceSlot) : slot = 1 ∨ slot = 2 := by
  unfold referenceSlot at h
  omega

theorem exists_firstDisagreement {oracle : Oracle F} {queries : List QueryPair}
    (h : ¬ oracle.WarmupAgrees queries) :
    ∃ slot i, oracle.FirstDisagreement queries slot i := by
  classical
  have hleast : ∀ slot, (∃ i, ¬ oracle.AgreesAt queries slot i) →
      ∃ i, ¬ oracle.AgreesAt queries slot i ∧ ∀ j, j < i → oracle.AgreesAt queries slot j :=
    fun slot hex => ⟨Nat.find hex, Nat.find_spec hex, fun j hj => not_not.mp (Nat.find_min hex hj)⟩
  by_cases hone : ∀ i, oracle.AgreesAt queries 1 i
  · by_cases htwo : ∀ i, oracle.AgreesAt queries 2 i
    · refine absurd (fun slot hslot => ?_) h
      rcases eq_one_or_two hslot with rfl | rfl
      · exact hone
      · exact htwo
    · obtain ⟨i, hi, hbefore⟩ := hleast 2 (not_forall.mp htwo)
      refine ⟨2, i, by decide, hi, hbefore, fun before hne hlt => ?_⟩
      rcases eq_one_or_two hne with rfl | rfl
      · exact hone
      · exact absurd hlt (lt_irrefl _)
  · obtain ⟨i, hi, hbefore⟩ := hleast 1 (not_forall.mp hone)
    refine ⟨1, i, by decide, hi, hbefore, fun before hne hlt => ?_⟩
    rcases eq_one_or_two hne with rfl | rfl
    · exact absurd hlt (by decide)
    · exact absurd hlt (by decide)

/-- The run throws what the first disagreement throws. -/
theorem Oracle.FirstDisagreement.runFailure_eq {oracle : Oracle F} {queries : List QueryPair}
    {slot : Fin 3} {i : Nat} (h : oracle.FirstDisagreement queries slot i)
    (env : Environment F σ) (g : Graph F) (repetitions : Nat) :
    ∃ query e, queries[i]? = some query ∧
      disagreement env g slot query (oracle.answer (slot * queries.length + i) query slot)
        (oracle.answer i query referenceSlot) = some e ∧
      oracle.runFailure env g queries repetitions = some e := by
  obtain ⟨query, hquery⟩ := not_forall.mp h.disagrees
  obtain ⟨hquery, hne⟩ := Classical.not_imp.mp hquery
  obtain ⟨e, he⟩ := Option.ne_none_iff_exists'.mp
    (mt (disagreement_eq_none_iff env g slot query _ _).mp hne)
  -- the slot passes the queries before and fails here
  have hwarm : oracle.warmupFailure env g queries slot = some e := by
    refine Script.findSome?_range_eq_some.mpr
      ⟨i, (List.getElem?_eq_some_iff.mp hquery).1, ?_, fun j hj =>
        (disagreementAt_eq_none_iff oracle env g queries slot j).mpr (h.queries_before j hj)⟩
    rw [Oracle.disagreementAt, hquery]
    exact he
  refine ⟨query, e, hquery, he, ?_⟩
  unfold Oracle.runFailure
  rw [comparedSlots, List.findSome?_cons, List.findSome?_cons, List.findSome?_nil]
  rcases eq_one_or_two h.slot_ne with rfl | rfl
  · rw [hwarm]
    rfl
  · rw [(warmupFailure_eq_none_iff oracle env g queries 1).mpr
      (h.slots_before 1 (by decide) (by decide)), hwarm]
    rfl

/-- Without a disagreement the run throws what the measured passes throw. -/
theorem runFailure_of_agrees {oracle : Oracle F} {queries : List QueryPair}
    (h : oracle.WarmupAgrees queries) (env : Environment F σ) (g : Graph F) (repetitions : Nat) :
    oracle.runFailure env g queries repetitions = oracle.measuredFailure queries repetitions := by
  unfold Oracle.runFailure
  rw [comparedSlots, List.findSome?_cons, List.findSome?_cons, List.findSome?_nil,
    (warmupFailure_eq_none_iff oracle env g queries 1).mpr (h 1 (by decide)),
    (warmupFailure_eq_none_iff oracle env g queries 2).mpr (h 2 (by decide))]
  rfl

theorem runFailure_eq_none_iff (oracle : Oracle F) (env : Environment F σ) (g : Graph F)
    (queries : List QueryPair) (repetitions : Nat) :
    oracle.runFailure env g queries repetitions = none ↔
      oracle.WarmupAgrees queries ∧ oracle.CountersRepeat queries repetitions := by
  by_cases hagrees : oracle.WarmupAgrees queries
  · rw [runFailure_of_agrees hagrees, measuredFailure_eq_none_iff]
    exact (and_iff_right hagrees).symm
  · obtain ⟨slot, i, hfirst⟩ := exists_firstDisagreement hagrees
    obtain ⟨query, e, -, -, he⟩ := hfirst.runFailure_eq env g repetitions
    rw [he]
    exact iff_of_false (by simp) (fun h => hagrees h.1)

end Warmup

/-! ## The gate -/

section Gate

variable [IsFinite F] [Zero F] [Top F] [Div F] [CostArith F] [One F] [Sub F] [Mul F] [LT F]
  [DecidableLT F] [LE F] [DecidableLE F] [FiniteOrder F]

/-- The first disagreement is about a query with an end outside the graph. -/
def Oracle.DisagreesOutside (oracle : Oracle F) (g : Graph F) (queries : List QueryPair) : Prop :=
  ∃ slot i query, oracle.FirstDisagreement queries slot i ∧ queries[i]? = some query ∧
    ¬ query.Within g

/-- The outcome of `run_benchmark` when the searches answer as the oracle does. -/
def Oracle.benchmark (oracle : Oracle F) (clock : Nat → Int) (seconds : Int → F)
    (showCost : F → String) (g : Graph F) (queries : List QueryPair) (repetitions : Nat) :
    Outcome (BenchmarkReport F) :=
  ((runBenchmark (oracle.environment clock seconds showCost) g queries repetitions).call
    (0, 0)).map Prod.fst

/-- **The gate of the benchmark.** Whatever the searches answer, a report is returned exactly
when the warm-up answers agree and the measured passes repeat their counters, and its counters
are then those of every measured pass. Otherwise `BenchmarkAgreementError` is thrown, or
`std::out_of_range` when the query that is to be reported has an end outside the graph. -/
theorem runBenchmark_gate (oracle : Oracle F) (clock : Nat → Int) (seconds : Int → F)
    (showCost : F → String) (distance : Coord F → Coord F → F)
    (std : Comparison.Sorter (GraphBuilder.stagedBefore (F := F))) (g : Graph F)
    (hg : g.Built distance std) (hpass : g.metric.passes = true) (queries : List QueryPair)
    (hne : queries ≠ []) (repetitions : Nat) (hrep : 1 ≤ repetitions) :
    ((∃ report, oracle.benchmark clock seconds showCost g queries repetitions = .ok report) ↔
      oracle.WarmupAgrees queries ∧ oracle.CountersRepeat queries repetitions) ∧
    (∀ report, oracle.benchmark clock seconds showCost g queries repetitions = .ok report →
      ∀ slot, ∀ r, r < repetitions →
        (report.algorithms slot).counters = oracle.measuredCounters queries r slot) ∧
    (¬ (oracle.WarmupAgrees queries ∧ oracle.CountersRepeat queries repetitions) →
      ¬ oracle.DisagreesOutside g queries →
      ∃ message, oracle.benchmark clock seconds showCost g queries repetitions
        = .error (.benchmarkAgreement message)) ∧
    (oracle.DisagreesOutside g queries →
      ∃ message, oracle.benchmark clock seconds showCost g queries repetitions
        = .error (.outOfRange message)) := by
  obtain ⟨staged, hover⟩ := hg.exists_overArcs
  let env := oracle.environment clock seconds showCost
  let script := oracle.scripted clock seconds showCost queries
  have hrun : oracle.benchmark clock seconds showCost g queries repetitions
      = (Script.passOr (oracle.runFailure env g queries repetitions)
          (script.report repetitions, script.stateBefore (3 * repetitions))).map Prod.fst :=
    congrArg (Except.map Prod.fst) (script.call_runBenchmark g hpass hne hrep)
  have hgate := runFailure_eq_none_iff oracle env g queries repetitions
  refine ⟨⟨?_, fun h => ?_⟩, fun report hreport slot r hr => ?_, fun hnot hinside => ?_,
    fun houtside => ?_⟩
  · rintro ⟨report, hreport⟩
    obtain ⟨p, hp, -⟩ := map_eq_ok.mp (hrun.symm.trans hreport)
    exact hgate.mp (Script.passOr_eq_ok.mp hp).1
  · exact ⟨script.report repetitions, by rw [hrun, hgate.mpr h]; rfl⟩
  · obtain ⟨p, hp, hfst⟩ := map_eq_ok.mp (hrun.symm.trans hreport)
    obtain ⟨hnone, rfl⟩ := Script.passOr_eq_ok.mp hp
    have hsummary : (report.algorithms slot).counters = oracle.measuredCounters queries 0 slot := by
      rw [← hfst]
      exact script.counters_summaryAfter slot (by omega)
    rw [hsummary, (hgate.mp hnone).2 slot r hr]
  · -- the warm-up agrees and a measured pass differs, or the first disagreement can be told
    by_cases hagrees : oracle.WarmupAgrees queries
    · obtain ⟨e, he⟩ := Option.ne_none_iff_exists'.mp (mt hgate.mp hnot)
      obtain ⟨message, rfl⟩ :=
        measuredFailure_agreement (runFailure_of_agrees hagrees env g repetitions ▸ he)
      exact ⟨message, by rw [hrun, he]; rfl⟩
    · obtain ⟨slot, i, hfirst⟩ := exists_firstDisagreement hagrees
      obtain ⟨query, e, hquery, hdis, he⟩ := hfirst.runFailure_eq env g repetitions
      have hwithin : query.Within g := by
        by_contra hout
        exact hinside ⟨slot, i, query, hfirst, hquery, hout⟩
      obtain ⟨message, rfl⟩ := disagreement_within hover hwithin hdis
      exact ⟨message, by rw [hrun, he]; rfl⟩
  · -- the message of the first disagreement asks the graph for an identifier it does not have
    obtain ⟨slot, i, query, hfirst, hquery, hout⟩ := houtside
    obtain ⟨query', e, hquery', hdis, he⟩ := hfirst.runFailure_eq env g repetitions
    rw [hquery, Option.some.injEq] at hquery'
    obtain ⟨message, rfl⟩ := disagreement_outside hover (hquery' ▸ hout) hdis
    exact ⟨message, by rw [hrun, he]; rfl⟩

end Gate

/-- Every search finds a route of cost `1`. -/
def alwaysOne : Oracle (WithTop ℚ) := fun _ _ _ _ => ⟨.found, 1, [0, 1, 2], ⟨4, 4, 0, 3, 4, 3, 3⟩⟩

/-- When every search answers the same, the report holds the counters of one pass. -/
theorem runBenchmark_gate_alwaysOne :
    ∃ report, alwaysOne.benchmark (fun n => n) (fun _ => 0) (fun _ => "1") road
        [⟨0, 2⟩, ⟨0, 2⟩] 2 = .ok report ∧
      (report.algorithms 2).counters = ⟨8, 8, 0, 6, 8, 6, 3⟩ := by
  obtain ⟨hgate, hcounters, -, -⟩ := runBenchmark_gate alwaysOne (fun n => n) (fun _ => 0)
    (fun _ => "1") taxicab.lift _ road road_built rfl [⟨0, 2⟩, ⟨0, 2⟩] (by simp) 2 (by omega)
  have hcosts : costsAgree (1 : WithTop ℚ) 1 = true := by decide +kernel
  obtain ⟨report, hreport⟩ := hgate.mpr
    ⟨fun slot _ i query _ => ⟨rfl, fun _ => hcosts⟩, fun slot r _ => rfl⟩
  exact ⟨report, hreport, hcounters report hreport 2 1 (by omega)⟩

/-- Only the first search finds a route. -/
def firstOnly : Oracle (WithTop ℚ) := fun calls _ _ _ =>
  if calls = 0 then ⟨.found, 1, [0, 1, 2], .zero⟩ else ⟨.unreachable, ⊤, [], .zero⟩

/-- The searches disagree about a query whose target is no node, and what is thrown is not
`BenchmarkAgreementError`. -/
theorem benchmark_firstOnly_outside :
    road.Built taxicab.lift (Comparison.insertionSort _) ∧ road.metric.passes = true ∧
      ¬ firstOnly.WarmupAgrees [⟨0, 7⟩] ∧
      firstOnly.benchmark (fun n => n) (fun _ => 0) (fun _ => "1") road [⟨0, 7⟩] 1
        = .error (.outOfRange
            "route::Graph: node id 7 is out of range for a graph with 3 nodes") ∧
      ∀ message, firstOnly.benchmark (fun n => n) (fun _ => 0) (fun _ => "1") road [⟨0, 7⟩] 1
        ≠ .error (.benchmarkAgreement message) := by
  have hrun : firstOnly.benchmark (fun n => n) (fun _ => 0) (fun _ => "1") road [⟨0, 7⟩] 1
      = .error (.outOfRange "route::Graph: node id 7 is out of range for a graph with 3 nodes") :=
    rfl
  refine ⟨road_built, rfl, fun h => ?_, hrun, fun message hmessage => ?_⟩
  · exact absurd (h 1 (by decide) 0 ⟨0, 7⟩ rfl).found (by decide)
  · rw [hrun, Except.error.injEq] at hmessage
    cases hmessage

end RouteEngine
