import RouteEngine.SearchSteps
import RouteEngine.Expansions

set_option autoImplicit false

/-! # What a search reads

A round reads the target only to compare it with the popped node, and the graph only in the row
of that node (`searchRound_congr`). So runs with one heuristic are runs of each other as long as
they do not pop a target or a changed row (`Rounds.transfer`). Two consequences: the searches
from one source are prefixes of each other, which makes their routes a tree (`dijkstra_tree`),
and rows that a search does not expand may change without a trace (`dijkstra_local`). -/

namespace RouteEngine

variable {F : Type}

/-! ## One round -/

section

variable [Add F] [LT F] [DecidableLT F] [BEq F]
variable {g g' : Graph F} {target target' : NodeId} {estimate : NodeId → Outcome F}
  {s t : SearchState F} {es : List (Expansion F)}

/-- **What a round reads** of the graph and the target. -/
theorem searchRound_congr
    (h : ∀ e rest, Comparison.popTop higherPriorityFirst s.queue = some (e, rest) →
      subscript s.settled e.node.toNat = .ok false →
      (e.node = target ↔ e.node = target') ∧
        (e.node ≠ target → g'.arcsFrom e.node = g.arcsFrom e.node)) :
    searchRound g' target' estimate s = searchRound g target estimate s := by
  unfold searchRound
  cases hpop : Comparison.popTop higherPriorityFirst s.queue with
  | none => rfl
  | some p =>
      obtain ⟨e, rest⟩ := p
      show (subscript s.settled e.node.toNat >>= _) = (subscript s.settled e.node.toNat >>= _)
      cases hset : subscript s.settled e.node.toNat with
      | error err => rfl
      | ok settled =>
          cases settled with
          | true => rfl
          | false =>
              obtain ⟨htarget, hrow⟩ := h e rest hpop hset
              simp only [ok_bind, Bool.false_eq_true, if_false]
              refine bind_congr fun marked => ?_
              by_cases ht : e.node = target
              · rw [if_pos ht, if_pos (htarget.mp ht)]
              · rw [if_neg ht, if_neg (mt htarget.mpr ht), hrow ht]

/-- The entry that a round pops, by the way the round ends. -/
def Round.Pops (target : NodeId) (s : SearchState F) : Round F → Prop
  | .exhausted => Comparison.popTop higherPriorityFirst s.queue = none
  | .stale e _ => ∃ rest, Comparison.popTop higherPriorityFirst s.queue = some (e, rest) ∧
      subscript s.settled e.node.toNat = .ok true
  | .expanded e _ => ∃ rest, Comparison.popTop higherPriorityFirst s.queue = some (e, rest) ∧
      subscript s.settled e.node.toNat = .ok false ∧ e.node ≠ target
  | .reached e _ => ∃ rest, Comparison.popTop higherPriorityFirst s.queue = some (e, rest) ∧
      subscript s.settled e.node.toNat = .ok false ∧ e.node = target

theorem pops_of_searchRound {round : Round F}
    (h : searchRound g target estimate s = .ok round) : round.Pops target s := by
  unfold searchRound at h
  cases hpop : Comparison.popTop higherPriorityFirst s.queue with
  | none =>
      rw [hpop] at h
      obtain rfl := Except.ok.inj h
      exact hpop
  | some p =>
      obtain ⟨e, rest⟩ := p
      rw [hpop] at h
      obtain ⟨settled, hset, h⟩ := bind_eq_ok.mp h
      cases settled with
      | true =>
          obtain rfl := Except.ok.inj h
          exact ⟨rest, hpop, hset⟩
      | false =>
          obtain ⟨marked, -, h⟩ := bind_eq_ok.mp h
          by_cases ht : e.node = target
          · rw [if_pos ht] at h
            obtain rfl := Except.ok.inj h
            exact ⟨rest, hpop, hset, ht⟩
          · rw [if_neg ht] at h
            obtain ⟨d, -, h⟩ := bind_eq_ok.mp h
            obtain ⟨row, -, h⟩ := bind_eq_ok.mp h
            obtain ⟨s', -, h⟩ := bind_eq_ok.mp h
            obtain rfl := Except.ok.inj h
            exact ⟨rest, hpop, hset, ht⟩

/-! ## Runs -/

variable [Top F]

/-- **A run is one of another search** that stops at none of the nodes it expands and finds the
same rows there. -/
theorem Rounds.transfer (hrun : Rounds g target estimate s es t)
    (h : ∀ e ∈ es, e.node ≠ target' ∧ g'.arcsFrom e.node = g.arcsFrom e.node) :
    Rounds g' target' estimate s es t := by
  induction hrun with
  | refl s => exact .refl s
  | @stale s s' t e es hround _ ih =>
      obtain ⟨rest, hpop, hset⟩ := pops_of_searchRound hround
      have hsame : searchRound g' target' estimate s = searchRound g target estimate s := by
        refine searchRound_congr fun e' rest' hpop' hset' => ?_
        rw [hpop, Option.some.injEq, Prod.mk.injEq] at hpop'
        rw [← hpop'.1, hset] at hset'
        cases hset'
      exact .stale (hsame.trans hround) (ih h)
  | @expanded s s' t e es hround _ ih =>
      obtain ⟨rest, hpop, -, hne⟩ := pops_of_searchRound hround
      obtain ⟨hne', hrow⟩ := h _ List.mem_cons_self
      have hsame : searchRound g' target' estimate s = searchRound g target estimate s := by
        refine searchRound_congr fun e' rest' hpop' _ => ?_
        rw [hpop, Option.some.injEq, Prod.mk.injEq] at hpop'
        rw [← hpop'.1]
        exact ⟨⟨fun heq => absurd heq hne, fun heq => absurd heq hne'⟩, fun _ => hrow⟩
      exact .expanded (hsame.trans hround) (ih fun e he => h e (List.mem_cons_of_mem _ he))

/-- A run passes through the round of every expansion it makes. -/
theorem Rounds.split {es₁ es₂ : List (Expansion F)} {x : Expansion F}
    (hrun : Rounds g target estimate s (es₁ ++ x :: es₂) t) :
    ∃ s₁ s₂ e, Rounds g target estimate s es₁ s₁ ∧
      searchRound g target estimate s₁ = .ok (.expanded e s₂) ∧ s₁.expansion e = x ∧
      Rounds g target estimate s₂ es₂ t := by
  generalize hes : es₁ ++ x :: es₂ = es at hrun
  induction hrun generalizing es₁ with
  | refl s => simp at hes
  | stale hround _ ih =>
      obtain ⟨s₁, s₂, e, hfirst, hrest⟩ := ih hes
      exact ⟨s₁, s₂, e, .stale hround hfirst, hrest⟩
  | @expanded s s' t e es hround hrun ih =>
      cases es₁ with
      | nil =>
          obtain ⟨hx, rfl⟩ := List.cons.inj hes
          exact ⟨s, s', e, .refl s, hround, hx.symm, hrun⟩
      | cons y es₁ =>
          obtain ⟨rfl, htail⟩ := List.cons.inj hes
          obtain ⟨s₁, s₂, e', hfirst, hrest⟩ := ih htail
          exact ⟨s₁, s₂, e', .expanded hround hfirst, hrest⟩

/-- No run leaves a state where no round goes on. -/
theorem Rounds.eq_of_stops (hrun : Rounds g target estimate s es t)
    (hstop : ∀ e s', searchRound g target estimate s ≠ .ok (.stale e s') ∧
      searchRound g target estimate s ≠ .ok (.expanded e s')) : es = [] ∧ t = s := by
  cases hrun with
  | refl => exact ⟨rfl, rfl⟩
  | stale hround _ => exact absurd hround (hstop _ _).1
  | expanded hround _ => exact absurd hround (hstop _ _).2

end

/-! ## Ends -/

section

variable [LinearOrder F] [OrderTop F] [Zero F] [Add F]
variable {g g' : Graph F} {source target : NodeId} {h h' : NodeId → F} {t : SearchState F}
  {es expanded expanded' : List (Expansion F)} {result result' : SearchResult F}

/-- **The state in which a search ends determines its result.** -/
theorem SearchState.Ends.unique
    (hinv : SearchInv g source target h t (es.map Expansion.node).reverse)
    (hinv' : SearchInv g' source target h' t (es.map Expansion.node).reverse)
    (hends : t.Ends g source target h es result expanded)
    (hends' : t.Ends g' source target h' es result' expanded') : result = result' := by
  rcases hends with ⟨hqueue, rfl, -⟩ | ⟨e, rest, path, hchoose, rfl, hpath, -, rfl, -⟩ <;>
    rcases hends' with ⟨hqueue', rfl, -⟩ | ⟨e', rest', path', hchoose', htarget, hpath', -, rfl, -⟩
  · rfl
  · -- a labelled open node has an entry in the queue
    exact absurd (hinv'.mem_closed_of_queue_nil hqueue hchoose'.labelled) hchoose'.not_mem
  · exact absurd (hinv.mem_closed_of_queue_nil hqueue' hchoose.labelled) hchoose.not_mem
  · rw [hpath.unique hpath']
    rfl

end

/-! ## Dijkstra's runs -/

section

variable [LinearOrder F] [OrderTop F] [Zero F] [Add F] [AddLeftMono F] [AddRightMono F]
  [WeightArith F] [Div F]
variable {distance distance' : Coord F → Coord F → F} {g g' : Graph F}
  {staged staged' : List (StagedArc F)} {source target : NodeId}

/-- The state in which Dijkstra's main loop starts. -/
def dijkstraStart (g : Graph F) (source : NodeId) : SearchState F :=
  SearchState.started g.nodeCount source (fun _ => 0)

/-- A run of Dijkstra's main loop up to the state `t` in which it ends. -/
structure DijkstraRun (g : Graph F) (source target : NodeId) (es : List (Expansion F))
    (t : SearchState F) (result : SearchResult F) : Prop where
  run : Rounds g target zeroEstimate (dijkstraStart g source) es t
  stops : ∀ e s', searchRound g target zeroEstimate t ≠ .ok (.stale e s') ∧
    searchRound g target zeroEstimate t ≠ .ok (.expanded e s')
  inv : SearchInv g source target (fun _ => 0) t (es.map Expansion.node).reverse
  guided : BestFirst.Guided g.HasArc source (fun _ => 0)
    (t.toBestFirst (es.map Expansion.node).reverse)
  returns : dijkstra g source target = .ok result
  ends : t.Ends g source target (fun _ => 0) es result (expansions g source target zeroEstimate)

theorem exists_dijkstraRun (hg : g.OverArcs distance staged) (hs : g.contains source = true)
    (ht : g.contains target = true) (hzero : (0 : F) ≠ ⊤) :
    ∃ es t result, DijkstraRun g source target es t result := by
  have hsource : (0 : F) + 0 = 0 := WeightArith.add_zero 0
  have hest : ∀ v, g.contains v = true → zeroEstimate v = .ok (0 : F) := fun _ _ => rfl
  have hh := zeroHeuristic hg
  obtain ⟨es, t, result, hrun, hstop, hinv, hsearch, hends⟩ :=
    search_stops hg hest hh.nonneg hs ht hzero hsource
  have hguided := hrun.guided hg hest hh.nonneg (hh.consistent.from source)
    (fun {_ _ e} _ _ _ => hh.cancel e.node _) (SearchInv.start target hs hzero hsource)
    (BestFirst.Guided.start rfl)
  rw [List.append_nil] at hguided
  exact ⟨es, t, result, hrun, hstop, hinv, hguided, by rwa [dijkstra_eq hs ht], hends⟩

omit [AddLeftMono F] [AddRightMono F] [Div F] in
/-- Everything that was expanded is within the returned cost. -/
theorem DijkstraRun.label_le {es : List (Expansion F)} {t : SearchState F}
    {result : SearchResult F} (hrun : DijkstraRun g source target es t result) {v : NodeId}
    (hv : v ∈ (es.map Expansion.node).reverse) : t.label v ≤ result.cost := by
  rcases hrun.ends with ⟨-, rfl, -⟩ | ⟨e, rest, path, hchoose, rfl, -, -, rfl, -⟩
  · exact le_top
  · have hle := hrun.guided.frontier v hv e.node hchoose.not_mem
    rw [WeightArith.add_zero, WeightArith.add_zero] at hle
    exact hle

omit [AddLeftMono F] [AddRightMono F] [WeightArith F] [Div F] in
/-- A run that ends where another search stops as well is the run of that search. -/
theorem DijkstraRun.result_eq {es es' : List (Expansion F)} {t t' : SearchState F}
    {result result' : SearchResult F} (hrun : DijkstraRun g source target es t result)
    (hrun' : DijkstraRun g' source target es' t' result')
    (hsame : Rounds g' target zeroEstimate (dijkstraStart g' source) es t)
    (hstops : ∀ e s', searchRound g' target zeroEstimate t ≠ .ok (.stale e s') ∧
      searchRound g' target zeroEstimate t ≠ .ok (.expanded e s')) : result' = result := by
  obtain ⟨more, hrest, hes⟩ := Rounds.prefix_of_ends hrun'.stops hrun'.run hsame
  obtain ⟨rfl, rfl⟩ := hrest.eq_of_stops hstops
  rw [List.append_nil] at hes
  subst hes
  exact hrun'.ends.unique hrun'.inv hrun.inv hrun.ends

/-- **Dijkstra does not look beyond its target**: rows of nodes that are dearer than the target
may be changed. -/
theorem dijkstra_eq_of_rows (hg : g.OverArcs distance staged) (hg' : g'.OverArcs distance' staged')
    (hnodes : g'.nodeCount = g.nodeCount) (hs : g.contains source = true)
    (ht : g.contains target = true) (hzero : (0 : F) ≠ ⊤) {result : SearchResult F}
    (hresult : dijkstra g source target = .ok result)
    (hrows : ∀ u c, Digraph.WalkCost g.HasArc source u c → c ≤ result.cost → u ≠ target →
      g'.arcsFrom u = g.arcsFrom u) : dijkstra g' source target = .ok result := by
  have hcontains : ∀ v, g'.contains v = g.contains v := by
    intro v
    unfold Graph.nodeCount at hnodes
    rw [Graph.contains, Graph.contains, hnodes]
  obtain ⟨es, t, result₀, hrun⟩ := exists_dijkstraRun hg hs ht hzero
  obtain rfl : result₀ = result := Except.ok.inj (hrun.returns.symm.trans hresult)
  obtain ⟨es', t', result', hrun'⟩ :=
    exists_dijkstraRun hg' ((hcontains source).trans hs) ((hcontains target).trans ht) hzero
  -- the run is one on the other graph: what it expands is not beyond the target
  have hmoved : Rounds g' target zeroEstimate (dijkstraStart g source) es t := by
    refine hrun.run.transfer fun e he => ?_
    have hclosed : e.node ∈ (es.map Expansion.node).reverse :=
      List.mem_reverse.mpr (List.mem_map_of_mem he)
    have hne : e.node ≠ target := fun heq => hrun.inv.target_open (heq ▸ hclosed)
    exact ⟨hne, hrows _ _ (hrun.inv.explored.walk _ (hrun.inv.explored.finite _ hclosed))
      (hrun.label_le hclosed) hne⟩
  -- and it stops there, too
  have hround : searchRound g' target zeroEstimate t = searchRound g target zeroEstimate t := by
    refine searchRound_congr fun e rest hpop _ => ⟨Iff.rfl, fun hne => ?_⟩
    rcases hrun.inv.round hg (fun _ _ => rfl) (fun _ => le_rfl) with
      ⟨heq, -⟩ | ⟨e', s', heq, -⟩ | ⟨e', s', heq, -⟩ | ⟨e', rest', heq, -, htarget⟩
    · have hnone : Comparison.popTop higherPriorityFirst t.queue = none := pops_of_searchRound heq
      rw [hpop] at hnone
      cases hnone
    · exact absurd heq (hrun.stops _ _).1
    · exact absurd heq (hrun.stops _ _).2
    · obtain ⟨rest'', hpop', -⟩ := pops_of_searchRound heq
      rw [hpop, Option.some.injEq, Prod.mk.injEq] at hpop'
      exact absurd (hpop'.1 ▸ htarget) hne
  have hstart : dijkstraStart g' source = dijkstraStart g source := by
    rw [dijkstraStart, dijkstraStart, hnodes]
  rw [hrun'.returns, hrun.result_eq hrun' (hstart ▸ hmoved) (by simpa [hround] using hrun.stops)]

/-! ## The tree of routes -/

/-- A run leaves the nodes alone that were closed before it. -/
theorem Rounds.label_eq (hg : g.OverArcs distance staged) {s t : SearchState F}
    {es : List (Expansion F)} {closed : List NodeId}
    (hrun : Rounds g target zeroEstimate s es t)
    (hinv : SearchInv g source target (fun _ => 0) s closed) {v : NodeId} (hv : v ∈ closed) :
    t.label v = s.label v ∧ t.parentOf v = s.parentOf v := by
  have hkeeps := hrun.preserves
    (P := fun a => v ∈ a.closed ∧ a.label v = s.label v ∧ a.pred v = s.parentOf v) hg
    (fun _ _ => rfl) (fun _ => le_rfl)
    (fun _ _ hexp hP => by
      obtain ⟨hlabel, hparent⟩ := hexp.label_eq (hexp.mem_closed hP.1)
      exact ⟨hexp.mem_closed hP.1, hlabel.trans hP.2.1, hparent.trans hP.2.2⟩) hinv
    ⟨hv, rfl, rfl⟩
  exact hkeeps.2

/-- What an expansion of a run closes, and what the run leaves alone after it. -/
structure ExpandedAt (g : Graph F) (source target : NodeId) (es₁ : List (Expansion F))
    (s₁ t : SearchState F) (entry : Entry F) : Prop where
  run : Rounds g target zeroEstimate (dijkstraStart g source) es₁ s₁
  round : ∃ s₂, searchRound g target zeroEstimate s₁ = .ok (.expanded entry s₂)
  chooses : s₁.Chooses g (fun _ => 0) (es₁.map Expansion.node).reverse entry
  keeps : ∀ v ∈ entry.node :: (es₁.map Expansion.node).reverse,
    t.label v = s₁.label v ∧ t.parentOf v = s₁.parentOf v

theorem DijkstraRun.expandedAt (hg : g.OverArcs distance staged)
    (hs : g.contains source = true) (hzero : (0 : F) ≠ ⊤) {es₁ es₂ : List (Expansion F)}
    {x : Expansion F} {t : SearchState F} {result : SearchResult F}
    (hrun : DijkstraRun g source target (es₁ ++ x :: es₂) t result) :
    ∃ s₁ entry, s₁.expansion entry = x ∧ ExpandedAt g source target es₁ s₁ t entry := by
  have hest : ∀ v, g.contains v = true → zeroEstimate v = .ok (0 : F) := fun _ _ => rfl
  obtain ⟨s₁, s₂, entry, hfirst, hround, hentry, hlast⟩ := hrun.run.split
  obtain ⟨hinv, -, -⟩ := hfirst.keeps hg hest (fun _ => le_rfl)
    (SearchInv.start target hs hzero (WeightArith.add_zero 0))
  rw [List.append_nil] at hinv
  obtain ⟨hchoose, hinv', hexp⟩ := hinv.of_expanded hg hest (fun _ => le_rfl) hround
  refine ⟨s₁, entry, hentry, hfirst, ⟨s₂, hround⟩, hchoose, fun v hv => ?_⟩
  obtain ⟨hlabel, hparent⟩ := hlast.label_eq hg hinv' hv
  exact ⟨hlabel.trans (hexp.label_eq hv).1, hparent.trans (hexp.label_eq hv).2⟩

omit [AddLeftMono F] [AddRightMono F] [WeightArith F] [Div F] in
/-- **The search for an expanded node is the search up to its expansion.** -/
theorem ExpandedAt.eq_of_run {es₁ es' : List (Expansion F)} {s₁ t t' : SearchState F}
    {entry : Entry F} {sub : SearchResult F}
    (hat : ExpandedAt g source target es₁ s₁ t entry)
    (hsub : DijkstraRun g source entry.node es' t' sub) : es' = es₁ ∧ t' = s₁ := by
  obtain ⟨s₂, hround⟩ := hat.round
  obtain ⟨rest, hpop, hset, -⟩ := pops_of_searchRound hround
  have hmoved : Rounds g entry.node zeroEstimate (dijkstraStart g source) es₁ s₁ :=
    hat.run.transfer fun x hx => ⟨fun heq => hat.chooses.not_mem
      (heq ▸ List.mem_reverse.mpr (List.mem_map_of_mem hx)), rfl⟩
  have hstops : ∀ e s', searchRound g entry.node zeroEstimate s₁ ≠ .ok (.stale e s') ∧
      searchRound g entry.node zeroEstimate s₁ ≠ .ok (.expanded e s') := by
    refine fun e s' => ⟨fun heq => ?_, fun heq => ?_⟩
    · obtain ⟨rest', hpop', hset'⟩ := pops_of_searchRound heq
      rw [hpop, Option.some.injEq, Prod.mk.injEq] at hpop'
      rw [← hpop'.1, hset] at hset'
      cases hset'
    · obtain ⟨rest', hpop', -, hne⟩ := pops_of_searchRound heq
      rw [hpop, Option.some.injEq, Prod.mk.injEq] at hpop'
      exact hne (congrArg Entry.node hpop'.1.symm)
  obtain ⟨more, hrest, rfl⟩ := Rounds.prefix_of_ends hsub.stops hsub.run hmoved
  obtain ⟨rfl, rfl⟩ := hrest.eq_of_stops hstops
  exact ⟨List.append_nil _, rfl⟩

/-- A route through `v` starts with the route to `v`, and so does the search for it. -/
theorem DijkstraRun.through (hg : g.OverArcs distance staged) (hs : g.contains source = true)
    (hzero : (0 : F) ≠ ⊤) {es es' : List (Expansion F)} {t t' : SearchState F}
    {result sub : SearchResult F} {v : NodeId} (hrun : DijkstraRun g source target es t result)
    (hsub : DijkstraRun g source v es' t' sub) (hv : v ∈ result.path) (hne : v ≠ target) :
    sub.status = .found ∧ sub.path <+: result.path ∧ sub.cost ≤ result.cost ∧
      expansions g source v zeroEstimate <+: expansions g source target zeroEstimate := by
  rcases hrun.ends with ⟨-, rfl, -⟩ | ⟨e, rest, path, hchoose, rfl, hpath, -, rfl, hexpanded⟩
  · cases hv
  -- the node was closed on the way
  have hmem : v ∈ path := List.mem_reverse.mp hv
  have hclosed : v ∈ (es.map Expansion.node).reverse :=
    (hrun.inv.explored.mem_closed_of_path hpath hchoose.labelled hmem).resolve_left hne
  obtain ⟨x, hx, hxv⟩ := List.mem_map.mp (List.mem_reverse.mp hclosed)
  obtain ⟨es₁, es₂, rfl⟩ := List.append_of_mem hx
  obtain ⟨s₁, entry, hentry, hat⟩ := hrun.expandedAt hg hs hzero
  obtain rfl : entry.node = v := (congrArg Expansion.node hentry).trans hxv
  obtain ⟨rfl, rfl⟩ := hat.eq_of_run hsub
  rcases hsub.ends with ⟨hqueue, -, -⟩ | ⟨e', rest', path', hchoose', htarget, hpath', -, rfl,
    hexpanded'⟩
  · exact absurd (hsub.inv.mem_closed_of_queue_nil hqueue hat.chooses.labelled)
      hat.chooses.not_mem
  -- the predecessors up to it are those it was closed with
  have hlater : BestFirst.Path (t.toBestFirst ((es' ++ x :: es₂).map Expansion.node).reverse)
      source entry.node path' := by
    refine hpath'.congr fun y hy => (hat.keeps y (List.mem_cons.mpr ?_)).2
    exact hsub.inv.explored.mem_closed_of_path hpath' hat.chooses.labelled hy
  obtain ⟨before, after, rfl, hsuffix⟩ := hpath.exists_suffix hmem
  obtain rfl := hlater.unique hsuffix
  have heq : e' = entry := by
    have hpriority : e'.priority = entry.priority := by
      rw [hchoose'.priority_eq, hat.chooses.priority_eq, htarget]
    cases e'
    cases entry
    simp_all
  have hlabel : t'.label entry.node = t.label entry.node := (hat.keeps _ List.mem_cons_self).1.symm
  refine ⟨rfl, ?_, hlabel.trans_le (hrun.label_le hclosed), ?_⟩
  · show (entry.node :: after).reverse <+: (before ++ entry.node :: after).reverse
    rw [List.reverse_append]
    exact List.prefix_append _ _
  · rw [hexpanded, hexpanded', heq, hentry, List.append_assoc]
    exact (List.prefix_append_right_inj _).mpr ⟨es₂ ++ [t.expansion e], rfl⟩

omit [LinearOrder F] [OrderTop F] [AddLeftMono F] [AddRightMono F] [WeightArith F] [Div F] in
/-- A search that returns has checked its endpoints. -/
theorem contains_of_dijkstra [LT F] [DecidableLT F] [BEq F] [Top F] {result : SearchResult F}
    (hresult : dijkstra g source target = .ok result) :
    g.contains source = true ∧ g.contains target = true := by
  obtain ⟨⟨⟩, hsource, hrest⟩ := bind_eq_ok.mp hresult
  obtain ⟨⟨⟩, htarget, -⟩ := bind_eq_ok.mp hrest
  have hvalid : ∀ {id role}, requireValid g id role = .ok () → g.contains id = true := by
    intro id role hok
    unfold requireValid at hok
    cases hcontains : g.contains id with
    | true => rfl
    | false => simp [hcontains, throw, throwThe, MonadExceptOf.throw] at hok
  exact ⟨hvalid hsource, hvalid htarget⟩

omit [AddLeftMono F] [AddRightMono F] [WeightArith F] [Div F] in
/-- The route to a reachable target ends there. -/
theorem DijkstraRun.getLast_path {es : List (Expansion F)} {t : SearchState F}
    {result : SearchResult F} (hrun : DijkstraRun g source target es t result)
    (hfound : result.status = .found) : result.path.getLast? = some target := by
  rcases hrun.ends with ⟨-, rfl, -⟩ | ⟨e, rest, path, -, -, hpath, -, rfl, -⟩
  · cases hfound
  · show path.reverse.getLast? = some target
    rw [List.getLast?_reverse]
    cases hpath <;> rfl

end

/-- **The routes from one source form a tree.** If the route to a target leads through `v`, the
route to `v` is its first part, whatever the target: routes that meet have come the same way. The
search for `v` is the first part of the search for the target, too. -/
theorem dijkstra_tree {F : Type} [LinearOrder F] [OrderTop F] [Zero F] [Add F] [AddLeftMono F]
    [AddRightMono F] [WeightArith F] [Div F] (hzero : (0 : F) ≠ ⊤)
    (distance : Coord F → Coord F → F)
    (std : Comparison.Sorter (GraphBuilder.stagedBefore (F := F))) (g : Graph F)
    (hg : g.Built distance std) (source v : NodeId) (hs : g.contains source = true)
    (hv : g.contains v = true) :
    ∃ sub, dijkstra g source v = .ok sub ∧
      ∀ target result, dijkstra g source target = .ok result → v ∈ result.path →
        sub.status = .found ∧ sub.path <+: result.path ∧ sub.path.getLast? = some v ∧
        sub.cost ≤ result.cost ∧
        expansions g source v zeroEstimate <+: expansions g source target zeroEstimate := by
  obtain ⟨staged, hover⟩ := hg.exists_overArcs
  obtain ⟨es', t', sub, hsub⟩ := exists_dijkstraRun hover hs hv hzero
  refine ⟨sub, hsub.returns, fun target result hresult hmem => ?_⟩
  by_cases htarget : v = target
  · subst htarget
    obtain rfl : sub = result := Except.ok.inj (hsub.returns.symm.trans hresult)
    have hfound : sub.status = .found := by
      rcases hsub.ends with ⟨-, rfl, -⟩ | ⟨_, _, _, -, -, -, -, rfl, -⟩
      · cases hmem
      · rfl
    exact ⟨hfound, List.prefix_refl _, hsub.getLast_path hfound, le_rfl, List.prefix_refl _⟩
  · obtain ⟨es, t, result₀, hrun⟩ :=
      exists_dijkstraRun hover hs (contains_of_dijkstra hresult).2 hzero
    obtain rfl : result₀ = result := Except.ok.inj (hrun.returns.symm.trans hresult)
    obtain ⟨hfound, hprefix, hcost, hexpanded⟩ := hrun.through hover hs hzero hsub hmem htarget
    exact ⟨hfound, hprefix, hsub.getLast_path hfound, hcost, hexpanded⟩

/-- On the road the route to the last node leads through the middle. -/
theorem dijkstra_tree_road :
    ∃ sub, dijkstra road 0 1 = .ok sub ∧ sub.path <+: [0, 1, 2] ∧ sub.path.getLast? = some 1 := by
  obtain ⟨sub, hsub, hthrough⟩ :=
    dijkstra_tree WithTop.zero_ne_top taxicab.lift _ road road_built 0 1 rfl rfl
  have hrun : dijkstra road 0 2 = .ok ⟨.found, 2, [0, 1, 2], ⟨4, 3, 0, 3, 4, 3, 2⟩⟩ := by
    decide +kernel
  obtain ⟨-, hprefix, hlast, -, -⟩ := hthrough 2 _ hrun (by decide)
  exact ⟨sub, hsub, hprefix, hlast⟩

/-! ## What a search does not look at -/

/-- **Dijkstra is local.** On any other graph with as many nodes, whose rows are the same at the
nodes other than the target that the route's cost reaches, the search returns the same, counters
included. Nothing beyond the target is looked at. -/
theorem dijkstra_local {F : Type} [LinearOrder F] [OrderTop F] [Zero F] [Add F] [AddLeftMono F]
    [AddRightMono F] [WeightArith F] [Div F] (hzero : (0 : F) ≠ ⊤)
    (distance distance' : Coord F → Coord F → F)
    (std std' : Comparison.Sorter (GraphBuilder.stagedBefore (F := F))) (g g' : Graph F)
    (hg : g.Built distance std) (hg' : g'.Built distance' std')
    (hnodes : g'.nodeCount = g.nodeCount) (source target : NodeId) (result : SearchResult F)
    (hresult : dijkstra g source target = .ok result)
    (hrows : ∀ u c, Digraph.WalkCost g.HasArc source u c → c ≤ result.cost → u ≠ target →
      g'.arcsFrom u = g.arcsFrom u) :
    dijkstra g' source target = .ok result := by
  obtain ⟨staged, hover⟩ := hg.exists_overArcs
  obtain ⟨staged', hover'⟩ := hg'.exists_overArcs
  obtain ⟨hs, ht⟩ := contains_of_dijkstra hresult
  exact dijkstra_eq_of_rows hover hover' hnodes hs ht hzero hresult hrows

/-- The road without its last arc, and with one back instead. -/
def roadBack : Graph (WithTop ℚ) where
  coordinates := [⟨0, 0⟩, ⟨1, 0⟩, ⟨(2 : ℚ), 0⟩]
  externalIds := [7, 8, 9]
  offsets := [0, 3, 3, 4]
  arcs := [⟨1, 1⟩, ⟨1, (3 : ℚ)⟩, ⟨2, (5 : ℚ)⟩, ⟨0, (2 : ℚ)⟩]
  metric := ⟨true, 0, 0, 0, 1⟩

theorem roadBack_built : roadBack.Built taxicab.lift (Comparison.insertionSort _) := by
  have hbuild : Graph.ofCalls taxicab.lift (Comparison.insertionSort _) 3
      [.setNode 0 ⟨0, 0⟩ 7, .setNode 1 ⟨1, 0⟩ 8, .setNode 2 ⟨2, 0⟩ 9, .addArc 0 2 5,
        .addArc 0 1 3, .addArc 2 0 2, .addArc 0 1 1] = .ok roadBack := by
    decide +kernel
  exact Graph.built_of_ofCalls hbuild

/-- The search for the middle of the road sees neither of the two changes. -/
theorem dijkstra_local_roadBack :
    dijkstra roadBack 0 1 = .ok ⟨.found, 1, [0, 1], ⟨3, 2, 0, 2, 3, 2, 2⟩⟩ := by
  refine dijkstra_local WithTop.zero_ne_top taxicab.lift taxicab.lift _ _ road roadBack road_built
    roadBack_built rfl 0 1 _ (by decide +kernel) fun u c hcost hle hne => ?_
  by_cases hu : road.contains u = true
  · have hlt : u.toNat < 3 := (road.contains_iff u).mp hu
    have hcases : u = 0 ∨ u = 1 ∨ u = 2 := by
      simp only [← UInt32.toNat_inj]
      show u.toNat = 0 ∨ u.toNat = 1 ∨ u.toNat = 2
      omega
    rcases hcases with rfl | rfl | rfl
    · rfl
    · exact absurd rfl hne
    · -- the last node is dearer than the middle
      exact absurd ((road_minCost.2 hcost).trans hle) (by decide)
  · have hout : road.contains u = false := Bool.eq_false_iff.mpr hu
    have hback : roadBack.contains u = false := hout
    rw [Graph.arcsFrom, Graph.arcsFrom, hout, hback]
    rfl

end RouteEngine
