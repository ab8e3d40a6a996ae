import RouteEngine.BenchmarkRun

set_option autoImplicit false

/-! # The outcome of a benchmark run

The loops of a scripted run. The warm-up of the algorithm in slot `a` takes the searches
`a * Q, …, a * Q + Q - 1` of a query set of length `Q`, and its measured pass in a repetition is
pass number `passNumber`, after the three of the warm-up. The algorithms take turns: slot `a`
is measured in repetition `r` at step `turn r a`, and only there, so that after `r` repetitions
its summary holds `r` timings (`summaryAfter`). `call_runBenchmark` puts the loops together. -/

namespace RouteEngine

variable {F σ : Type}

/-! ## Taking turns -/

/-- The step of a repetition at which a slot is measured. -/
def turn (repetition : Nat) (slot : Fin 3) : Nat := (slot + 2 * repetition) % 3

theorem turn_lt (repetition : Nat) (slot : Fin 3) : turn repetition slot < 3 :=
  Nat.mod_lt _ (by omega)

/-- A step measures exactly the slot whose turn it is. -/
theorem slotAt_eq_iff_turn {repetition step : Nat} (hstep : step < 3) (slot : Fin 3) :
    slotAt repetition step = slot ↔ turn repetition slot = step := by
  have hslot := slot.isLt
  rw [slotAt, Fin.ext_iff, Fin.val_ofNat, turn]
  constructor
  · intro h
    omega
  · intro h
    omega

/-- The number of a measured pass. -/
def passNumber (repetition : Nat) (slot : Fin 3) : Nat := 3 * repetition + turn repetition slot

/-- The repetitions of a slot that are complete before a step. -/
def repetitionsDone (repetition step : Nat) (slot : Fin 3) : Nat :=
  if turn repetition slot < step then repetition + 1 else repetition

@[simp] theorem repetitionsDone_zero (repetition : Nat) (slot : Fin 3) :
    repetitionsDone repetition 0 slot = repetition := by
  simp [repetitionsDone]

/-- After three steps each slot has had its turn. -/
theorem repetitionsDone_three (repetition : Nat) (slot : Fin 3) :
    repetitionsDone repetition 3 slot = repetition + 1 := by
  simp [repetitionsDone, turn_lt]

theorem repetitionsDone_turn (repetition : Nat) (slot : Fin 3) :
    repetitionsDone repetition (turn repetition slot) slot = repetition := by
  simp [repetitionsDone]

/-- One step completes the repetition of the slot whose turn it is, and of no other. -/
theorem repetitionsDone_succ (repetition step : Nat) (slot : Fin 3) :
    repetitionsDone repetition (step + 1) slot
      = if turn repetition slot = step then repetition + 1
        else repetitionsDone repetition step slot := by
  unfold repetitionsDone
  split_ifs <;> omega

/-! ## The warm-up -/

section Warmup

variable [CostArith F] [One F] [Sub F] [Mul F] [LT F] [DecidableLT F] [LE F] [DecidableLE F]
variable {env : Environment F σ} {queries : List QueryPair}

/-- What the warm-up of a slot throws about the query `i`. -/
def Oracle.disagreementAt (oracle : Oracle F) (env : Environment F σ) (g : Graph F)
    (queries : List QueryPair) (slot : Fin 3) (i : Nat) : Option Failure :=
  queries[i]?.bind fun query =>
    disagreement env g slot query (oracle.answer (slot * queries.length + i) query slot)
      (oracle.answer i query referenceSlot)

/-- What the warm-up of a slot throws. -/
def Oracle.warmupFailure (oracle : Oracle F) (env : Environment F σ) (g : Graph F)
    (queries : List QueryPair) (slot : Fin 3) : Option Failure :=
  (List.range queries.length).findSome? (oracle.disagreementAt env g queries slot)

theorem Scripted.call_warmup (script : Scripted env queries) (g : Graph F) (slot : Fin 3)
    (readings : Nat) :
    ((List.range queries.length).forM
        (checkAgreement env g queries (script.oracle.pass queries referenceSlot 0) slot)).call
          (script.state (slot * queries.length) readings)
      = Script.passOr (script.oracle.warmupFailure env g queries slot)
          ((), script.state ((slot + 1) * queries.length) readings) := by
  rw [Nat.add_mul, Nat.one_mul]
  refine Method.call_forM_range _ (fun i => script.state (slot * queries.length + i) readings) _ _
    (fun i hi => ?_)
  have hquery : queries[i]? = some queries[i] := List.getElem?_eq_getElem hi
  have hexpected := script.oracle.getElem?_pass referenceSlot 0 hquery
  rw [script.call_checkAgreement g slot hquery hexpected, Oracle.disagreementAt, hquery,
    Nat.zero_add, Nat.add_assoc]
  rfl

end Warmup

/-! ## The measured repetitions -/

/-- The answers of the measured pass of a slot in a repetition. -/
def Oracle.measured (oracle : Oracle F) (queries : List QueryPair) (repetition : Nat)
    (slot : Fin 3) : List (SearchResult F) :=
  oracle.pass queries slot ((3 + passNumber repetition slot) * queries.length)

/-- The counters of the measured pass of a slot in a repetition. -/
def Oracle.measuredCounters (oracle : Oracle F) (queries : List QueryPair) (repetition : Nat)
    (slot : Fin 3) : SearchStats :=
  (AlgorithmSummary.total slot (oracle.measured queries repetition slot)).counters

/-- What the measured pass of a slot throws: it has to repeat the counters of the first. -/
def Oracle.countersFailure (oracle : Oracle F) (queries : List QueryPair) (repetition : Nat)
    (slot : Fin 3) : Option Failure :=
  if oracle.measuredCounters queries repetition slot = oracle.measuredCounters queries 0 slot then
    none
  else some (countersError slot repetition)

section Measured

variable {env : Environment F σ} {queries : List QueryPair} (script : Scripted env queries)

/-- The time of the measured pass of a slot in a repetition. -/
def Scripted.seconds (repetition : Nat) (slot : Fin 3) : F :=
  env.seconds (script.clock (2 * passNumber repetition slot + 1)
    - script.clock (2 * passNumber repetition slot))

/-- The summary of a slot after a number of repetitions: the counters of the first one and the
times of all. -/
def Scripted.summaryAfter (slot : Fin 3) (repetitions : Nat) : AlgorithmSummary F :=
  let counters : AlgorithmSummary F :=
    if repetitions = 0 then .zero (kBenchmarkAlgorithms slot)
    else .total slot (script.oracle.measured queries 0 slot)
  { counters with
    repetitionSeconds := (List.range repetitions).map fun r => script.seconds r slot }

theorem Scripted.algorithm_summaryAfter (slot : Fin 3) (repetitions : Nat) :
    (script.summaryAfter slot repetitions).algorithm = kBenchmarkAlgorithms slot := by
  unfold Scripted.summaryAfter
  dsimp only
  split_ifs with h
  · rfl
  · exact algorithm_total slot _

/-- From the first repetition on the counters are those of the first measured pass. -/
theorem Scripted.counters_summaryAfter (slot : Fin 3) {repetitions : Nat} (h : 1 ≤ repetitions) :
    (script.summaryAfter slot repetitions).counters
      = script.oracle.measuredCounters queries 0 slot := by
  unfold Scripted.summaryAfter
  rw [if_neg (by omega)]
  rfl

/-- The report before a step of a repetition. -/
def Scripted.reportBefore (report : BenchmarkReport F) (repetition step : Nat) :
    BenchmarkReport F :=
  { report with
    algorithms := fun slot => script.summaryAfter slot (repetitionsDone repetition step slot) }

/-- The state before a measured pass. -/
def Scripted.stateBefore (pass : Nat) : σ :=
  script.state ((3 + pass) * queries.length) (2 * pass)

theorem Scripted.stateBefore_succ (pass : Nat) :
    script.stateBefore (pass + 1)
      = script.state ((3 + pass) * queries.length + queries.length) (2 * pass + 2) := by
  rw [Scripted.stateBefore, ← Nat.succ_mul]
  rfl

/-- Entering a pass that repeats the counters makes the summary one repetition longer. -/
theorem Scripted.enterPass_summaryAfter (slot : Fin 3) (repetition : Nat) :
    ∃ summary : AlgorithmSummary F,
      enterPass slot repetition (script.summaryAfter slot repetition)
          (.total slot (script.oracle.measured queries repetition slot))
        = Script.passOr (script.oracle.countersFailure queries repetition slot) summary ∧
      summary.pushSeconds (script.seconds repetition slot)
        = script.summaryAfter slot (repetition + 1) := by
  unfold enterPass Oracle.countersFailure
  have hseconds : (List.range (repetition + 1)).map (fun r => script.seconds r slot)
      = (List.range repetition).map (fun r => script.seconds r slot)
        ++ [script.seconds repetition slot] := by
    rw [List.range_succ, List.map_append, List.map_singleton]
  cases repetition with
  | zero =>
      -- the first repetition fills the summary
      exact ⟨_, by rw [if_pos rfl, if_pos rfl, Script.passOr_none], rfl⟩
  | succ r =>
      -- a later one compares its counters with those of the first
      refine ⟨script.summaryAfter slot (r + 1), ?_, ?_⟩
      · rw [if_neg (by omega)]
        have hmatch : countersMatch (script.summaryAfter slot (r + 1))
              (AlgorithmSummary.total slot (script.oracle.measured queries (r + 1) slot)) = true
            ↔ script.oracle.measuredCounters queries (r + 1) slot
              = script.oracle.measuredCounters queries 0 slot :=
          (countersMatch_iff _ _).trans eq_comm
        by_cases h : script.oracle.measuredCounters queries (r + 1) slot
            = script.oracle.measuredCounters queries 0 slot
        · rw [if_pos h, hmatch.mpr h]
          rfl
        · rw [if_neg h, Bool.eq_false_iff.mpr (mt hmatch.mp h)]
          rfl
      · show AlgorithmSummary.pushSeconds _ _ = Scripted.summaryAfter _ _ _
        unfold AlgorithmSummary.pushSeconds Scripted.summaryAfter
        rw [hseconds]
        rfl

/-- Entering the pass of the slot whose turn it is leads to the next step. -/
theorem Scripted.setSummary_reportBefore (report : BenchmarkReport F) (repetition step : Nat)
    {slot : Fin 3} (hturn : ∀ a, turn repetition a = step ↔ a = slot) :
    (script.reportBefore report repetition step).setSummary slot
        (script.summaryAfter slot (repetition + 1))
      = script.reportBefore report repetition (step + 1) := by
  unfold BenchmarkReport.setSummary Scripted.reportBefore
  congr 1
  funext a
  rw [repetitionsDone_succ]
  by_cases ha : a = slot
  · rw [if_pos ((hturn a).mpr ha), ha, Function.update_self]
  · rw [if_neg (fun h => ha ((hturn a).mp h)), Function.update_of_ne ha]

/-- The measured pass of one step. -/
theorem Scripted.call_recordPass (report : BenchmarkReport F) (repetition : Nat) {step : Nat}
    (hstep : step < 3) :
    (recordPass env queries repetition (script.reportBefore report repetition step) step).call
        (script.stateBefore (3 * repetition + step))
      = Script.passOr
          (script.oracle.countersFailure queries repetition (slotAt repetition step))
          (script.reportBefore report repetition (step + 1),
            script.stateBefore (3 * repetition + (step + 1))) := by
  unfold recordPass
  have hslot : ∀ a, turn repetition a = step ↔ a = slotAt repetition step :=
    fun a => (slotAt_eq_iff_turn hstep a).symm.trans eq_comm
  generalize slotAt repetition step = slot at hslot
  -- the pass of the slot is the next one, and its summary has a time for each repetition before
  have hturn : turn repetition slot = step := (hslot slot).mpr rfl
  have hnumber : passNumber repetition slot = 3 * repetition + step := by
    rw [passNumber, hturn]
  have hdone : (script.reportBefore report repetition step).algorithms slot
      = script.summaryAfter slot repetition := by
    show script.summaryAfter slot (repetitionsDone repetition step slot) = _
    rw [← hturn, repetitionsDone_turn]
  obtain ⟨summary, henter, hpush⟩ := script.enterPass_summaryAfter slot repetition
  rw [Method.call_bind, Scripted.stateBefore, script.call_measurePass, ok_bind,
    ← script.stateBefore_succ]
  show (Method.lift (enterPass slot repetition _ _) >>= _).call _ = _
  rw [Method.call_bind, Method.call_lift, hdone, ← hnumber]
  show ((enterPass slot repetition _
    (.total slot (script.oracle.measured queries repetition slot))).map _ >>= _) = _
  rw [henter]
  cases hfail : script.oracle.countersFailure queries repetition slot with
  | some e => rfl
  | none =>
      show Except.ok (BenchmarkReport.setSummary _ slot
        (summary.pushSeconds (script.seconds repetition slot)), _) = _
      rw [hpush, script.setSummary_reportBefore report repetition step hslot,
        show 3 * repetition + (step + 1) = passNumber repetition slot + 1 by omega]
      rfl

/-- What the measured passes of one repetition throw. -/
def Oracle.repetitionFailure (oracle : Oracle F) (queries : List QueryPair) (repetition : Nat) :
    Option Failure :=
  (List.range 3).findSome? fun step =>
    oracle.countersFailure queries repetition (slotAt repetition step)

/-- **One repetition** measures every slot once. -/
theorem Scripted.call_repetition (report : BenchmarkReport F) (repetition : Nat) :
    ((List.range 3).foldlM (recordPass env queries repetition)
        (script.reportBefore report repetition 0)).call (script.stateBefore (3 * repetition))
      = Script.passOr (script.oracle.repetitionFailure queries repetition)
          (script.reportBefore report (repetition + 1) 0,
            script.stateBefore (3 * (repetition + 1))) := by
  have hlast : script.reportBefore report repetition 3
      = script.reportBefore report (repetition + 1) 0 := by
    unfold Scripted.reportBefore
    simp only [repetitionsDone_three, repetitionsDone_zero]
  rw [← hlast]
  exact Method.call_foldlM_range _ (script.reportBefore report repetition)
    (fun i => script.stateBefore (3 * repetition + i)) _ 3
    (fun _ hi => script.call_recordPass report repetition hi)

/-- What the measured repetitions throw. -/
def Oracle.measuredFailure (oracle : Oracle F) (queries : List QueryPair) (repetitions : Nat) :
    Option Failure :=
  (List.range repetitions).findSome? (oracle.repetitionFailure queries)

/-- **All repetitions** of the measured loop. -/
theorem Scripted.call_repetitions (report : BenchmarkReport F) (repetitions : Nat) :
    ((List.range repetitions).foldlM (fun report repetition =>
        (List.range 3).foldlM (recordPass env queries repetition) report)
        (script.reportBefore report 0 0)).call (script.stateBefore 0)
      = Script.passOr (script.oracle.measuredFailure queries repetitions)
          (script.reportBefore report repetitions 0,
            script.stateBefore (3 * repetitions)) :=
  Method.call_foldlM_range _ (fun i => script.reportBefore report i 0)
    (fun i => script.stateBefore (3 * i)) _ repetitions
    (fun i _ => script.call_repetition report i)

end Measured

/-! ## The whole run -/

section Run

variable [CostArith F] [One F] [Sub F] [Mul F] [LT F] [DecidableLT F] [LE F] [DecidableLE F]
variable {env : Environment F σ} {queries : List QueryPair}

/-- The report of a run none of whose checks fails. -/
def Scripted.report (script : Scripted env queries) (repetitions : Nat) : BenchmarkReport F where
  queries := queries.length
  repetitions := repetitions
  routesFound := (script.oracle.pass queries referenceSlot 0).countP SearchResult.found
  algorithms slot := script.summaryAfter slot repetitions

/-- What a run with a passing metric report, queries and repetitions throws. -/
def Oracle.runFailure (oracle : Oracle F) (env : Environment F σ) (g : Graph F)
    (queries : List QueryPair) (repetitions : Nat) : Option Failure :=
  (comparedSlots.findSome? (oracle.warmupFailure env g queries)).or
    (oracle.measuredFailure queries repetitions)

/-- The warm-up of the two algorithms that are compared with the reference. -/
theorem Scripted.call_warmups (script : Scripted env queries) (g : Graph F) :
    (comparedSlots.forM fun slot => (List.range queries.length).forM
        (checkAgreement env g queries (script.oracle.pass queries referenceSlot 0) slot)).call
          (script.state queries.length 0)
      = Script.passOr (comparedSlots.findSome? (script.oracle.warmupFailure env g queries))
          ((), script.stateBefore 0) := by
  have hfirst := script.call_warmup g 1 0
  have hsecond := script.call_warmup g 2 0
  rw [show ((1 : Fin 3) : Nat) * queries.length = queries.length from Nat.one_mul _] at hfirst
  have hor : comparedSlots.findSome? (script.oracle.warmupFailure env g queries)
      = (script.oracle.warmupFailure env g queries 1).or
          (script.oracle.warmupFailure env g queries 2) := by
    rw [comparedSlots, List.findSome?_cons, List.findSome?_cons, List.findSome?_nil]
    cases script.oracle.warmupFailure env g queries 1 with
    | some e => rfl
    | none => cases script.oracle.warmupFailure env g queries 2 <;> rfl
  rw [hor, Method.call_forM, comparedSlots, List.foldlM_cons, hfirst]
  refine Script.passOr_bind _ ?_
  rw [List.foldlM_cons]
  simp only [List.foldlM_nil, bind_pure]
  exact hsecond

/-- **A run** throws what its first failing round throws, and returns the report otherwise. -/
theorem Scripted.call_runBenchmark (script : Scripted env queries) (g : Graph F)
    (hpass : g.metric.passes = true) (hne : queries ≠ []) {repetitions : Nat}
    (hrep : 1 ≤ repetitions) :
    (runBenchmark env g queries repetitions).call (script.state 0 0)
      = Script.passOr (script.oracle.runFailure env g queries repetitions)
          (script.report repetitions, script.stateBefore (3 * repetitions)) := by
  unfold runBenchmark
  rw [hpass, if_neg (by simp), if_neg (by simpa using hne), if_neg (by omega), Method.call_bind,
    script.call_mapM referenceSlot 0 queries (fun _ h => h), ok_bind, Nat.zero_add,
    Method.call_bind, script.call_warmups g]
  have hloops := script.call_repetitions (script.report repetitions) repetitions
  simp only [Scripted.reportBefore, repetitionsDone_zero] at hloops
  exact Script.passOr_bind _ hloops

end Run

end RouteEngine
