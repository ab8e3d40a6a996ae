import RouteEngine.Benchmark
import RouteEngine.BuilderSpec
import RouteEngine.Library.Script

set_option autoImplicit false

/-! # What the passes of the benchmark do

The searches of a run are numbered in the order in which they are made, and so are the
readings of the clock. An `Oracle` fixes the answer of each search in advance, and a run is
`Scripted` when its environment gives these answers. For each function of the benchmark there
is one equation about a scripted run: the rounds of the warm-up throw the failure `disagreement`,
and those of the measured repetitions throw when a pass does not repeat the counters of the
first one. -/

namespace RouteEngine

variable {F σ : Type}

/-- The answers of the searches, by the number of searches made before. -/
abbrev Oracle (F : Type) := Nat → NodeId → NodeId → Algorithm → SearchResult F

/-- The answer for a query by the algorithm of a slot. -/
def Oracle.answer (oracle : Oracle F) (calls : Nat) (query : QueryPair) (slot : Fin 3) :
    SearchResult F :=
  oracle calls query.source query.target (kBenchmarkAlgorithms slot)

/-- The answers of one pass over the query set, which starts after `calls` searches. -/
def Oracle.pass (oracle : Oracle F) (queries : List QueryPair) (slot : Fin 3) (calls : Nat) :
    List (SearchResult F) :=
  (queries.zipIdx calls).map fun q => oracle.answer q.2 q.1 slot

theorem Oracle.getElem?_pass (oracle : Oracle F) {queries : List QueryPair} (slot : Fin 3)
    (calls : Nat) {i : Nat} {query : QueryPair} (h : queries[i]? = some query) :
    (oracle.pass queries slot calls)[i]? = some (oracle.answer (calls + i) query slot) := by
  simp [Oracle.pass, h]

/-- An environment whose searches answer as the oracle does and whose clock shows `clock`. -/
structure Scripted (env : Environment F σ) (queries : List QueryPair) where
  oracle : Oracle F
  clock : Nat → Int
  /-- the state after a number of searches and a number of readings of the clock -/
  state : Nat → Nat → σ
  call_runSearch : ∀ query ∈ queries, ∀ slot calls readings,
    (env.runSearch query.source query.target (kBenchmarkAlgorithms slot)).call
        (state calls readings)
      = .ok (oracle.answer calls query slot, state (calls + 1) readings)
  call_now : ∀ calls readings,
    env.now.call (state calls readings) = .ok (clock readings, state calls (readings + 1))

/-! ## Loops over positions -/

theorem Method.call_foldlM_range {β : Type} (f : β → Nat → Method σ β) (acc : Nat → β)
    (state : Nat → σ) (failure : Nat → Option Failure) (n : Nat)
    (hround : ∀ i, i < n →
      (f (acc i) i).call (state i) = Script.passOr (failure i) (acc (i + 1), state (i + 1))) :
    ((List.range n).foldlM f (acc 0)).call (state 0)
      = Script.passOr ((List.range n).findSome? failure) (acc n, state n) := by
  rw [Method.call_foldlM]
  exact Script.foldlM_range (fun (p : β × σ) i => (f p.1 i).call p.2)
    (fun i => (acc i, state i)) failure n hround

theorem Method.call_forM_range (f : Nat → Method σ Unit) (state : Nat → σ)
    (failure : Nat → Option Failure) (n : Nat)
    (hround : ∀ i, i < n →
      (f i).call (state i) = Script.passOr (failure i) ((), state (i + 1))) :
    ((List.range n).forM f).call (state 0)
      = Script.passOr ((List.range n).findSome? failure) ((), state n) := by
  rw [Method.call_forM]
  exact Script.foldlM_range (fun (p : Unit × σ) i => (f i).call p.2)
    (fun i => ((), state i)) failure n hround

/-! ## Counters -/

/-- The seven counters of a summary. -/
def AlgorithmSummary.counters (summary : AlgorithmSummary F) : SearchStats where
  pqPushes := summary.pqPushes
  pqPops := summary.pqPops
  stalePops := summary.stalePops
  nodesExpanded := summary.nodesExpanded
  arcsExamined := summary.arcsExamined
  relaxations := summary.relaxations
  maxQueueSize := summary.maxQueueSize

theorem countersMatch_iff (lhs rhs : AlgorithmSummary F) :
    countersMatch lhs rhs = true ↔ lhs.counters = rhs.counters := by
  simp only [countersMatch, Bool.and_eq_true, beq_iff_eq, AlgorithmSummary.counters,
    SearchStats.mk.injEq]
  tauto

/-- The totals over the answers of one pass. -/
def AlgorithmSummary.total (slot : Fin 3) (answers : List (SearchResult F)) :
    AlgorithmSummary F :=
  answers.foldl (fun summary result => accumulate summary result.stats)
    (.zero (kBenchmarkAlgorithms slot))

/-- Counting keeps the label. -/
theorem algorithm_total (slot : Fin 3) (answers : List (SearchResult F)) :
    (AlgorithmSummary.total slot answers).algorithm = kBenchmarkAlgorithms slot := by
  have hfold : ∀ (answers : List (SearchResult F)) (summary : AlgorithmSummary F),
      (answers.foldl (fun s r => accumulate s r.stats) summary).algorithm = summary.algorithm := by
    intro answers
    induction answers with
    | nil => intro summary; rfl
    | cons r answers ih => intro summary; exact ih (accumulate summary r.stats)
  exact hfold answers _

/-! ## Passes -/

section Passes

variable {env : Environment F σ} {queries : List QueryPair} (script : Scripted env queries)

/-- The searches of a pass, in the order of the query set. -/
theorem Scripted.call_mapM (slot : Fin 3) (readings : Nat) :
    ∀ (l : List QueryPair), (∀ query ∈ l, query ∈ queries) → ∀ calls,
      (l.mapM fun query =>
        env.runSearch query.source query.target (kBenchmarkAlgorithms slot)).call
          (script.state calls readings)
        = .ok (script.oracle.pass l slot calls, script.state (calls + l.length) readings) := by
  intro l
  induction l with
  | nil => intro _ calls; rfl
  | cons query l ih =>
      intro hl calls
      have hrest := ih (fun q hq => hl q (by simp [hq])) (calls + 1)
      rw [List.mapM_cons, Method.call_bind, script.call_runSearch query (hl query (by simp)),
        ok_bind, Method.call_bind, hrest, ok_bind, List.length_cons,
        show calls + 1 + l.length = calls + (l.length + 1) by omega]
      rfl

theorem Scripted.call_accumulate (slot : Fin 3) (readings : Nat) :
    ∀ (l : List QueryPair), (∀ query ∈ l, query ∈ queries) →
      ∀ (summary : AlgorithmSummary F) calls,
      (l.foldlM (fun pass query => do
        let result ← env.runSearch query.source query.target (kBenchmarkAlgorithms slot)
        return accumulate pass result.stats) summary : Method σ _).call
          (script.state calls readings)
        = .ok ((script.oracle.pass l slot calls).foldl (fun s r => accumulate s r.stats) summary,
            script.state (calls + l.length) readings) := by
  intro l
  induction l with
  | nil => intro _ summary calls; rfl
  | cons query l ih =>
      intro hl summary calls
      rw [List.foldlM_cons, Method.call_bind, Method.call_bind,
        script.call_runSearch query (hl query (by simp)), ok_bind, Method.call_pure, ok_bind,
        ih (fun q hq => hl q (by simp [hq])), List.length_cons,
        show calls + 1 + l.length = calls + (l.length + 1) by omega]
      rfl

/-- A timed pass counts its own searches and reads the clock twice. -/
theorem Scripted.call_measurePass (slot : Fin 3) (calls readings : Nat) :
    (measurePass env queries slot).call (script.state calls readings)
      = .ok ((.total slot (script.oracle.pass queries slot calls),
          script.clock (readings + 1) - script.clock readings),
          script.state (calls + queries.length) (readings + 2)) := by
  unfold measurePass
  rw [Method.call_bind, script.call_now, ok_bind, Method.call_bind,
    script.call_accumulate slot (readings + 1) queries (fun q hq => hq), ok_bind,
    Method.call_bind, script.call_now, ok_bind]
  rfl

end Passes

/-! ## Agreement -/

section Agreement

variable [CostArith F] [One F] [Sub F] [Mul F] [LT F] [DecidableLT F] [LE F] [DecidableLE F]

/-- Two answers agree about whether there is a route and, if there is, about its cost. -/
structure SearchesAgree (result expected : SearchResult F) : Prop where
  found : result.found = expected.found
  cost : result.found = true → costsAgree result.cost expected.cost = true

/-- What is thrown about a query: its text is made first, and that throws itself for a node id
outside the graph. -/
def describedFailure (g : Graph F) (query : QueryPair) (failure : String → Failure) : Failure :=
  match describe g query with
  | .ok text => failure text
  | .error e => e

omit [CostArith F] [One F] [Sub F] [Mul F] [LT F] [DecidableLT F] [LE F] [DecidableLE F] in
theorem call_throw_described {α : Type} (g : Graph F) (query : QueryPair)
    (failure : String → Failure) (f : Failure → Method σ α) (s : σ)
    (hf : ∀ e s, (f e).call s = .error e) :
    (Method.lift (describe g query) >>= fun text => f (failure text)).call s
      = .error (describedFailure g query failure) := by
  rw [Method.call_bind, Method.call_lift, describedFailure]
  cases describe g query with
  | ok text => exact hf _ _
  | error e => rfl

/-- What the warm-up throws about an answer. -/
def disagreement (env : Environment F σ) (g : Graph F) (slot : Fin 3) (query : QueryPair)
    (result expected : SearchResult F) : Option Failure :=
  if result.found ≠ expected.found then
    some (describedFailure g query (existenceError slot))
  else if result.found = true ∧ costsAgree result.cost expected.cost = false then
    some (describedFailure g query
      (costError slot (env.showCost result.cost) (env.showCost expected.cost)))
  else none

theorem disagreement_eq_none_iff (env : Environment F σ) (g : Graph F) (slot : Fin 3)
    (query : QueryPair) (result expected : SearchResult F) :
    disagreement env g slot query result expected = none ↔ SearchesAgree result expected := by
  unfold disagreement
  constructor
  · intro h
    split_ifs at h with hfound hcost
    refine ⟨not_not.mp hfound, fun hr => ?_⟩
    rw [← Bool.not_eq_false]
    exact fun hne => hcost ⟨hr, hne⟩
  · intro h
    rw [if_neg (not_not.mpr h.found), if_neg]
    rintro ⟨hr, hne⟩
    exact absurd (h.cost hr) (by simp [hne])

/-- One round of the warm-up loops. -/
theorem Scripted.call_checkAgreement {env : Environment F σ} {queries : List QueryPair}
    (script : Scripted env queries) (g : Graph F) {reference : List (SearchResult F)}
    (slot : Fin 3) {i : Nat} {query : QueryPair} {expected : SearchResult F}
    (hquery : queries[i]? = some query) (hexpected : reference[i]? = some expected)
    (calls readings : Nat) :
    (checkAgreement env g queries reference slot i).call (script.state calls readings)
      = Script.passOr
          (disagreement env g slot query (script.oracle.answer calls query slot) expected)
          ((), script.state (calls + 1) readings) := by
  unfold checkAgreement disagreement
  rw [Method.call_bind, Method.call_lift, subscript_eq_ok.mpr hquery]
  show (env.runSearch query.source query.target (kBenchmarkAlgorithms slot) >>= _).call _ = _
  rw [Method.call_bind, script.call_runSearch query (List.mem_of_getElem? hquery), ok_bind,
    Method.call_bind, Method.call_lift, subscript_eq_ok.mpr hexpected]
  generalize script.oracle.answer calls query slot = result
  simp only [Except.map, ok_bind]
  by_cases hfound : result.found = expected.found
  · rw [if_neg (by simpa using hfound), if_neg (not_not.mpr hfound)]
    by_cases hcost : result.found = true ∧ costsAgree result.cost expected.cost = false
    · rw [if_pos (by simpa using hcost), if_pos hcost]
      exact call_throw_described g query _ (fun e => throw e) _ (fun _ _ => rfl)
    · rw [if_neg (by simpa using hcost), if_neg hcost]
      rfl
  · rw [if_pos (by simpa using hfound), if_pos hfound]
    exact call_throw_described g query _ (fun e => throw e >>= _) _ (fun _ _ => rfl)

end Agreement

end RouteEngine
