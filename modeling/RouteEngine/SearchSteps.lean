import RouteEngine.SearchOutcome

set_option autoImplicit false

/-! # The states of a run, one by one

`SearchInv.round_cases` says exactly which state a round leaves. `Rounds.invariant` is the rule
for everything that dropping an entry and expanding a node keep, and a run is determined by
where it starts (`Rounds.prefix_of_ends`). -/

namespace RouteEngine

variable {F : Type} [LinearOrder F] [OrderTop F] [Zero F] [Add F]
variable {distance : Coord F → Coord F → F} {g : Graph F} {staged : List (StagedArc F)}
variable {source target : NodeId} {estimate : NodeId → Outcome F} {h : NodeId → F}
variable {s t : SearchState F} {closed : List NodeId} {es : List (Expansion F)}

/-- The state after a node was settled and before its arcs are scanned. -/
def SearchState.opened (s : SearchState F) (e : Entry F) (rest : List (Entry F)) :
    SearchState F :=
  ((s.pop rest).settle e.node).countExpanded

/-- The state after the node of an entry was expanded. -/
def SearchState.expand (h : NodeId → F) (staged : List (StagedArc F)) (s : SearchState F)
    (e : Entry F) (rest : List (Entry F)) : SearchState F :=
  (s.opened e rest).scan h e.node (rowOf staged e.node)

/-- **What a round does.** -/
theorem SearchInv.round_cases [Div F] (hg : g.OverArcs distance staged)
    (hest : ∀ v, g.contains v = true → estimate v = .ok (h v))
    (hinv : SearchInv g source target h s closed) :
    (s.queue = [] ∧ searchRound g target estimate s = .ok .exhausted) ∨
    ∃ e rest, Comparison.popTop higherPriorityFirst s.queue = some (e, rest) ∧
      ((s.isSettled e.node = true ∧
          searchRound g target estimate s = .ok (.stale e (s.pop rest).countStale)) ∨
        (s.isSettled e.node = false ∧ e.node = target ∧
          searchRound g target estimate s = .ok (.reached e (s.opened e rest))) ∨
        (s.isSettled e.node = false ∧ e.node ≠ target ∧
          searchRound g target estimate s = .ok (.expanded e (s.expand h staged e rest)))) := by
  have heq := searchRound_eq target hinv.sized hinv.frontier.contains
    (fun u hu => hg.arcsFrom_eq hu) (fun u arc harc => hg.row_contains harc) hest
  cases hpop : Comparison.popTop higherPriorityFirst s.queue with
  | none =>
      rw [hpop] at heq
      exact Or.inl ⟨Comparison.popTop_eq_none_iff.mp hpop, heq⟩
  | some p =>
      rcases p with ⟨e, rest⟩
      simp only [hpop] at heq
      refine Or.inr ⟨e, rest, rfl, ?_⟩
      cases hset : s.isSettled e.node with
      | true =>
          rw [hset, if_pos rfl] at heq
          exact Or.inl ⟨rfl, heq⟩
      | false =>
          rw [hset, if_neg Bool.false_ne_true] at heq
          by_cases htarget : e.node = target
          · rw [if_pos htarget] at heq
            exact Or.inr (Or.inl ⟨rfl, htarget, heq⟩)
          · rw [if_neg htarget] at heq
            exact Or.inr (Or.inr ⟨rfl, htarget, heq⟩)

/-! What is known of the state before a round from what the round did. -/

section Inversion

variable [Div F] {s' : SearchState F} {e : Entry F}

theorem SearchInv.cases_of_stale (hg : g.OverArcs distance staged)
    (hest : ∀ v, g.contains v = true → estimate v = .ok (h v))
    (hinv : SearchInv g source target h s closed)
    (hround : searchRound g target estimate s = .ok (.stale e s')) :
    ∃ rest, Comparison.popTop higherPriorityFirst s.queue = some (e, rest) ∧
      s.isSettled e.node = true ∧ s' = (s.pop rest).countStale := by
  rcases hinv.round_cases hg hest with ⟨-, hr⟩ | ⟨e', rest, hpop, hr⟩
  · rw [hround] at hr
    cases hr
  · rw [hround] at hr
    rcases hr with ⟨hset, hr⟩ | ⟨-, -, hr⟩ | ⟨-, -, hr⟩
    all_goals cases hr
    exact ⟨rest, hpop, hset, rfl⟩

theorem SearchInv.cases_of_reached (hg : g.OverArcs distance staged)
    (hest : ∀ v, g.contains v = true → estimate v = .ok (h v))
    (hinv : SearchInv g source target h s closed)
    (hround : searchRound g target estimate s = .ok (.reached e s')) :
    Comparison.popTop higherPriorityFirst s.queue = some (e, s'.queue) ∧
      s.isSettled e.node = false ∧ e.node = target ∧ s' = s.opened e s'.queue := by
  rcases hinv.round_cases hg hest with ⟨-, hr⟩ | ⟨e', rest, hpop, hr⟩
  · rw [hround] at hr
    cases hr
  · rw [hround] at hr
    rcases hr with ⟨-, hr⟩ | ⟨hopen, htarget, hr⟩ | ⟨-, -, hr⟩
    all_goals cases hr
    exact ⟨hpop, hopen, htarget, rfl⟩

theorem SearchInv.cases_of_expanded (hg : g.OverArcs distance staged)
    (hest : ∀ v, g.contains v = true → estimate v = .ok (h v))
    (hinv : SearchInv g source target h s closed)
    (hround : searchRound g target estimate s = .ok (.expanded e s')) :
    ∃ rest, Comparison.popTop higherPriorityFirst s.queue = some (e, rest) ∧
      s.isSettled e.node = false ∧ e.node ≠ target ∧ s' = s.expand h staged e rest := by
  rcases hinv.round_cases hg hest with ⟨-, hr⟩ | ⟨e', rest, hpop, hr⟩
  · rw [hround] at hr
    cases hr
  · rw [hround] at hr
    rcases hr with ⟨-, hr⟩ | ⟨-, -, hr⟩ | ⟨hopen, htarget, hr⟩
    all_goals cases hr
    exact ⟨rest, hpop, hopen, htarget, rfl⟩

end Inversion

omit [LinearOrder F] [OrderTop F] [Add F] in
/-- What `search` makes of the end of its main loop. -/
theorem search_eq_of_loop [Top F] [Add F] [LT F] [DecidableLT F] [BEq F] {s₀ : SearchState F}
    {reached : Bool} {result : SearchResult F}
    (hstart : searchStart g source estimate = .ok s₀)
    (hloop : searchLoop g target estimate (searchFuel g) s₀ = .ok (reached, t))
    (hsearch : search g source target estimate = .ok result) :
    result.stats = t.stats ∧ (result.status = .found ↔ reached = true) := by
  rw [search, hstart, ok_bind, hloop, ok_bind] at hsearch
  cases reached with
  | false =>
      obtain rfl := Except.ok.inj hsearch
      exact ⟨rfl, by simp⟩
  | true =>
      obtain ⟨cost, -, hsearch⟩ := bind_eq_ok.mp hsearch
      obtain ⟨path, -, hsearch⟩ := bind_eq_ok.mp hsearch
      obtain rfl := Except.ok.inj hsearch
      exact ⟨rfl, by simp⟩

namespace Rounds

omit [Zero F] in
/-- A run that ends where no round goes on passes through every state that a run from the same
start reaches. -/
theorem prefix_of_ends {s₀ : SearchState F} {es₁ es₂ : List (Expansion F)}
    (hstop : ∀ e s', searchRound g target estimate t ≠ .ok (.stale e s') ∧
      searchRound g target estimate t ≠ .ok (.expanded e s'))
    (hend : Rounds g target estimate s₀ es₂ t) (hrun : Rounds g target estimate s₀ es₁ s) :
    ∃ es, Rounds g target estimate s es t ∧ es₂ = es₁ ++ es := by
  induction hrun generalizing es₂ with
  | refl s => exact ⟨es₂, hend, rfl⟩
  | stale hround _ ih =>
      cases hend with
      | refl => exact absurd hround (hstop _ _).1
      | stale hround' hrest =>
          rw [hround, Except.ok.injEq] at hround'
          cases hround'
          exact ih hrest
      | expanded hround' _ =>
          rw [hround, Except.ok.injEq] at hround'
          cases hround'
  | expanded hround _ ih =>
      cases hend with
      | refl => exact absurd hround (hstop _ _).2
      | stale hround' _ =>
          rw [hround, Except.ok.injEq] at hround'
          cases hround'
      | expanded hround' hrest =>
          rw [hround, Except.ok.injEq] at hround'
          cases hround'
          rcases ih hrest with ⟨es, hrun, rfl⟩
          exact ⟨es, hrun, rfl⟩

variable [AddLeftMono F] [AddRightMono F] [WeightArith F] [Div F]

/-- **The rule for runs**: what dropping a stale entry and expanding a chosen node keep holds
after a run. -/
theorem invariant {P : SearchState F → List NodeId → Prop} (hg : g.OverArcs distance staged)
    (hest : ∀ v, g.contains v = true → estimate v = .ok (h v)) (hh : ∀ v, 0 ≤ h v)
    (hstale : ∀ {s : SearchState F} {closed : List NodeId} {e : Entry F} {rest : List (Entry F)},
      SearchInv g source target h s closed →
      Comparison.popTop higherPriorityFirst s.queue = some (e, rest) →
      s.isSettled e.node = true → P s closed → P (s.pop rest).countStale closed)
    (hexpanded : ∀ {s : SearchState F} {closed : List NodeId} {e : Entry F}
      {rest : List (Entry F)}, SearchInv g source target h s closed →
      Comparison.popTop higherPriorityFirst s.queue = some (e, rest) →
      s.Chooses g h closed e → e.node ≠ target → P s closed →
      P (s.expand h staged e rest) (e.node :: closed))
    (hrun : Rounds g target estimate s es t) (hinv : SearchInv g source target h s closed)
    (hP : P s closed) : P t ((es.map Expansion.node).reverse ++ closed) := by
  induction hrun generalizing closed with
  | refl s => exact hP
  | @stale s s' t e es hround _ ih =>
      rcases hinv.of_stale hg hest hh hround with ⟨hnext, -⟩
      rcases hinv.cases_of_stale hg hest hround with ⟨rest, hpop, hset, rfl⟩
      exact ih hnext (hstale hinv hpop hset hP)
  | @expanded s s' t e es hround _ ih =>
      rcases hinv.of_expanded hg hest hh hround with ⟨hchoose, hnext, -⟩
      rcases hinv.cases_of_expanded hg hest hround with ⟨rest, hpop, -, hne, rfl⟩
      rw [reverse_map_cons_append]
      exact ih hnext (hexpanded hinv hpop hchoose hne hP)

end Rounds

end RouteEngine
