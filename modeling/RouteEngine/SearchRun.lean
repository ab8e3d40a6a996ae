import RouteEngine.SearchInvariant

set_option autoImplicit false

/-! # Runs of the main loop

`SearchInv.round` says what a round does to a state that satisfies the invariant. Every round
but the last uses up a queue entry or the arcs of a node (`SearchState.remaining`), and every
run of rounds keeps the invariant (`Rounds.keeps`, `Rounds.guided`). -/

namespace RouteEngine

variable {F : Type}

/-! ## Rows of a built graph -/

section

variable [LinearOrder F] [OrderTop F] [Zero F] [Div F]
variable {distance : Coord F → Coord F → F} {g : Graph F} {staged : List (StagedArc F)}

namespace Graph.OverArcs

theorem hasArc_iff (hg : g.OverArcs distance staged) (u v : NodeId) (w : F) :
    g.HasArc u v w ↔ (⟨u, v, w⟩ : StagedArc F) ∈ staged := by
  constructor
  · rintro ⟨row, hrow, hmem⟩
    have hu : g.contains u = true := by
      by_contra hu
      rw [Bool.not_eq_true] at hu
      simp [arcsFrom, hu, outOfRange] at hrow
    rw [hg.arcsFrom_eq hu, Except.ok.injEq] at hrow
    subst hrow
    exact mem_rowOf.mp hmem
  · intro hmem
    have hu := (g.contains_iff u).mpr (hg.admissible _ hmem).source_lt
    exact ⟨_, hg.arcsFrom_eq hu, mem_rowOf.mpr hmem⟩

theorem hasArc_iff_mem_rowOf (hg : g.OverArcs distance staged) (u v : NodeId) (w : F) :
    g.HasArc u v w ↔ (⟨v, w⟩ : Arc F) ∈ rowOf staged u := by
  rw [hg.hasArc_iff, mem_rowOf]

theorem row_contains (hg : g.OverArcs distance staged) {u : NodeId} {arc : Arc F}
    (harc : arc ∈ rowOf staged u) : g.contains arc.target = true :=
  (g.contains_iff _).mpr (hg.admissible _ (mem_rowOf.mp harc)).target_lt

theorem contains_of_hasArc (hg : g.OverArcs distance staged) ⦃u v : NodeId⦄ ⦃w : F⦄
    (h : g.HasArc u v w) : g.contains u = true ∧ g.contains v = true := by
  have ha := hg.admissible _ ((hg.hasArc_iff u v w).mp h)
  exact ⟨(g.contains_iff u).mpr ha.source_lt, (g.contains_iff v).mpr ha.target_lt⟩

/-- A walk in a graph stays in it. -/
theorem contains_of_walk [Add F] (hg : g.OverArcs distance staged) {source : NodeId}
    (hs : g.contains source = true) {vs : List NodeId} {v : NodeId} {c : F}
    (hw : Digraph.Walk g.HasArc source vs v c) : ∀ x ∈ v :: vs, g.contains x = true := by
  induction hw with
  | nil => simpa using hs
  | snoc _ harc ih => exact List.forall_mem_cons.mpr ⟨(hg.contains_of_hasArc harc).2, ih⟩

theorem contains_of_walkCost [Add F] (hg : g.OverArcs distance staged) {source : NodeId}
    (hs : g.contains source = true) {v : NodeId} {c : F}
    (hc : Digraph.WalkCost g.HasArc source v c) : g.contains v = true := by
  obtain ⟨vs, hw⟩ := hc
  exact hg.contains_of_walk hs hw v List.mem_cons_self

theorem weight_ne_top (hg : g.OverArcs distance staged) {u v : NodeId} {w : F}
    (h : g.HasArc u v w) : w ≠ ⊤ :=
  (isFinite_eq_true_iff w).mp (hg.admissible _ ((hg.hasArc_iff u v w).mp h)).finite

theorem weight_nonneg (hg : g.OverArcs distance staged) {u v : NodeId} {w : F}
    (h : g.HasArc u v w) : 0 ≤ w :=
  not_lt.mp (hg.admissible _ ((hg.hasArc_iff u v w).mp h)).nonneg

/-- Within a row, the first of several parallel arcs is the cheapest. -/
theorem row_sorted (hg : g.OverArcs distance staged) (u : NodeId) :
    (rowOf staged u).Pairwise (fun a b => a.target = b.target → a.weight ≤ b.weight) := by
  refine List.pairwise_map.mpr ((hg.sorted.filter _).imp_of_mem (fun {a b} ha hb hab heq => ?_))
  have hsource : b.source = a.source := by
    simp only [List.mem_filter, decide_eq_true_eq] at ha hb
    rw [ha.2, hb.2]
  have htarget : b.target = a.target := heq.symm
  show a.weight ≤ b.weight
  simpa [GraphBuilder.stagedBefore, hsource, htarget] using hab

theorem growing [Add F] [WeightArith F] (hg : g.OverArcs distance staged) :
    Digraph.Growing g.HasArc :=
  fun _ _ _ harc a => WeightArith.le_add a _ (hg.weight_nonneg harc)

end Graph.OverArcs

end

/-! ## The invariant -/

section

variable [LinearOrder F] [OrderTop F] [Zero F] [Add F]

/-- The search as an abstract one that closed the nodes `closed`, the latest first. -/
def SearchState.toBestFirst (s : SearchState F) (closed : List NodeId) :
    BestFirst.State NodeId F where
  label := s.label
  pred := s.parentOf
  closed := closed

/-- What holds before every round. -/
structure SearchInv (g : Graph F) (source target : NodeId) (h : NodeId → F) (s : SearchState F)
    (closed : List NodeId) : Prop where
  sized : s.Sized g.nodeCount
  frontier : s.Frontier h g
  settled_iff : ∀ v, s.isSettled v = true ↔ v ∈ closed
  target_open : target ∉ closed
  expanded : s.stats.nodesExpanded = UInt64.ofNat closed.length
  explored : BestFirst.Explored g.HasArc source (s.toBestFirst closed)

/-- The entry `e` settles an open node whose cost plus heuristic is minimal. -/
structure SearchState.Chooses (g : Graph F) (h : NodeId → F) (s : SearchState F)
    (closed : List NodeId) (e : Entry F) : Prop where
  contains : g.contains e.node = true
  not_mem : e.node ∉ closed
  labelled : s.label e.node ≠ ⊤
  priority_eq : e.priority = s.label e.node + h e.node
  minimal : ∀ v, v ∉ closed → s.label e.node + h e.node ≤ s.label v + h v

/-- How many more entries the loop can pop: those in the queue and one for every arc that has
not been scanned. -/
def SearchState.remaining (staged : List (StagedArc F)) (s : SearchState F) : Nat :=
  s.queue.length + staged.countP (fun a => !s.isSettled a.source)

omit [LinearOrder F] [OrderTop F] [Zero F] [Add F] in
/-- Settling `u` takes its row from the arcs to scan. -/
theorem countP_add_length_rowOf (staged : List (StagedArc F)) {u : NodeId} {settled : NodeId → Bool}
    (hu : settled u = false) :
    staged.countP (fun a => !(if a.source = u then true else settled a.source))
        + (rowOf staged u).length
      = staged.countP (fun a => !settled a.source) := by
  induction staged with
  | nil => rfl
  | cons a staged ih =>
      rw [rowOf, List.length_map] at ih ⊢
      by_cases ha : a.source = u
      · simp only [List.countP_cons, ha, hu, if_true, decide_true, List.filter_cons_of_pos,
          List.length_cons, Bool.not_true, Bool.false_eq_true, if_false, Bool.not_false] at ih ⊢
        omega
      · simp only [List.countP_cons, ha, if_false, decide_false, Bool.false_eq_true,
          not_false_eq_true, List.filter_cons_of_neg]
        omega

namespace SearchInv

variable {g : Graph F} {source target : NodeId} {h : NodeId → F} {s : SearchState F}
variable {closed : List NodeId}

theorem isSettled_eq_false_iff (hinv : SearchInv g source target h s closed) (v : NodeId) :
    s.isSettled v = false ↔ v ∉ closed := by
  rw [← Bool.not_eq_true, hinv.settled_iff]

theorem contains_of_mem (hinv : SearchInv g source target h s closed) {v : NodeId}
    (hv : v ∈ closed) : g.contains v = true :=
  (g.contains_iff v).mpr (hinv.sized.toNat_lt_of_isSettled ((hinv.settled_iff v).mpr hv))

theorem contains_of_labelled (hinv : SearchInv g source target h s closed) {v : NodeId}
    (hv : s.label v ≠ ⊤) : g.contains v = true := by
  by_contra hc
  exact hv (hinv.sized.label_eq_top (fun hlt => hc ((g.contains_iff v).mpr hlt)))

/-- **An entry that is not stale is the exact entry of a minimal open node.** Its priority is
not below the node's own, and the exact entry of every open node is in the queue. -/
theorem chooses [WeightArith F] (hinv : SearchInv g source target h s closed)
    (hh : ∀ v, 0 ≤ h v) {e : Entry F} {rest : List (Entry F)}
    (hpop : Comparison.popTop higherPriorityFirst s.queue = some (e, rest))
    (hopen : s.isSettled e.node = false) : s.Chooses g h closed e := by
  have hmem : e ∈ s.queue := (Comparison.mem_iff_of_popTop hpop e).mpr (Or.inl rfl)
  have hlabelled := hinv.frontier.labelled e hmem
  have hle := priority_le_of_popTop hpop (hinv.frontier.entry e.node hlabelled hopen)
  have heq : e.priority = s.label e.node + h e.node :=
    le_antisymm hle (hinv.frontier.priority_le e hmem)
  refine ⟨hinv.frontier.contains e hmem, (hinv.isSettled_eq_false_iff _).mp hopen, hlabelled,
    heq, fun v hv => ?_⟩
  by_cases hlabel : s.label v = ⊤
  · rw [hlabel, WeightArith.top_add (hh v)]
    exact le_top
  · rw [← heq]
    have hsettled := (hinv.isSettled_eq_false_iff v).mpr hv
    exact priority_le_of_popTop hpop (hinv.frontier.entry v hlabel hsettled)

/-- With an empty queue, every node that has a label was settled. -/
theorem mem_closed_of_queue_nil (hinv : SearchInv g source target h s closed)
    (hqueue : s.queue = []) {v : NodeId} (hv : s.label v ≠ ⊤) : v ∈ closed := by
  by_contra hc
  have hentry := hinv.frontier.entry v hv ((hinv.isSettled_eq_false_iff v).mpr hc)
  simp [hqueue] at hentry

/-! ## One round -/

omit [Zero F] in
/-- The queue may lose an entry of a node that is settled with it or was before. -/
theorem frontier_of_popTop (hf : s.Frontier h g) {e : Entry F} {rest : List (Entry F)}
    (hpop : Comparison.popTop higherPriorityFirst s.queue = some (e, rest)) {t : SearchState F}
    (hqueue : t.queue = rest) (hlabel : ∀ v, t.label v = s.label v)
    (hopen : ∀ v, t.isSettled v = false → s.isSettled v = false ∧ v ≠ e.node) :
    t.Frontier h g := by
  have hmem : ∀ x ∈ t.queue, x ∈ s.queue := by
    intro x hx
    rw [hqueue] at hx
    exact (Comparison.mem_iff_of_popTop hpop x).mpr (Or.inr hx)
  constructor
  · intro x hx
    exact hf.contains x (hmem x hx)
  · intro x hx
    rw [hlabel]
    exact hf.labelled x (hmem x hx)
  · intro x hx
    rw [hlabel]
    exact hf.priority_le x (hmem x hx)
  · intro v hv hflag
    rw [hlabel] at hv ⊢
    obtain ⟨hflag', hne⟩ := hopen v hflag
    rw [hqueue]
    -- the exact entry of `v` is not the popped one, which belongs to another node
    rcases (Comparison.mem_iff_of_popTop hpop _).mp (hf.entry v hv hflag') with heq | hin
    · exact absurd (congrArg Entry.node heq) hne
    · exact hin

section

variable [AddLeftMono F] [AddRightMono F] [WeightArith F] [Div F]
variable {distance : Coord F → Coord F → F} {staged : List (StagedArc F)}
variable {estimate : NodeId → Outcome F}

/-- Scanning the arcs of the chosen node is one step of the abstract search. -/
theorem expand (hg : g.OverArcs distance staged) (hinv : SearchInv g source target h s closed)
    {e : Entry F} {rest : List (Entry F)}
    (hpop : Comparison.popTop higherPriorityFirst s.queue = some (e, rest))
    (hchoose : s.Chooses g h closed e) (hne : e.node ≠ target) :
    SearchInv g source target h
        (((s.pop rest).settle e.node).countExpanded.scan h e.node (rowOf staged e.node))
        (e.node :: closed) ∧
      BestFirst.Expands g.HasArc e.node (s.toBestFirst closed)
        ((((s.pop rest).settle e.node).countExpanded.scan h e.node
          (rowOf staged e.node)).toBestFirst (e.node :: closed)) ∧
      SearchState.remaining staged
          (((s.pop rest).settle e.node).countExpanded.scan h e.node (rowOf staged e.node))
        < SearchState.remaining staged s := by
  have hlt := (g.contains_iff e.node).mp hchoose.contains
  have hpopped : (s.pop rest).Sized g.nodeCount :=
    ⟨hinv.sized.distance, hinv.sized.parent, hinv.sized.settled⟩
  have hset : ((s.pop rest).settle e.node).Sized g.nodeCount := hpopped.settle e.node
  set s₁ := ((s.pop rest).settle e.node).countExpanded with hs₁
  have hsized : s₁.Sized g.nodeCount := ⟨hset.distance, hset.parent, hset.settled⟩
  -- the node is settled, the labels stay
  have hlabel : ∀ v, s₁.label v = s.label v := fun _ => rfl
  have hsettled : ∀ v, s₁.isSettled v = if v = e.node then true else s.isSettled v :=
    fun v => SearchState.isSettled_settle hpopped hlt
  have hopen : ∀ v, s₁.isSettled v = false ↔ v ∉ e.node :: closed := by
    intro v
    rw [hsettled, List.mem_cons, not_or]
    by_cases hv : v = e.node
    · simp [hv]
    · simp [hv, hinv.isSettled_eq_false_iff]
  have hfront : s₁.Frontier h g := by
    refine frontier_of_popTop hinv.frontier hpop rfl hlabel (fun v hflag => ?_)
    have hv := (hopen v).mp hflag
    rw [List.mem_cons, not_or] at hv
    exact ⟨(hinv.isSettled_eq_false_iff v).mpr hv.2, hv.1⟩
  obtain ⟨hscan, hsized', hfront'⟩ := SearchState.scan_spec (u := e.node) hsized hfront
    (fun arc harc => hg.row_contains harc) (hg.row_sorted e.node)
  have hexpands : BestFirst.Expands g.HasArc e.node (s.toBestFirst closed)
      ((s₁.scan h e.node (rowOf staged e.node)).toBestFirst (e.node :: closed)) := by
    refine ⟨rfl, fun {v w} harc hv => ?_, fun v => ?_⟩
    · exact hscan.relaxed ⟨v, w⟩ ((hg.hasArc_iff_mem_rowOf _ _ _).mp harc) ((hopen v).mpr hv)
    · rcases hscan.lowered v with heq | ⟨hflag, hpred, hless, w, hw, hcost⟩
      · exact Or.inl heq
      · refine Or.inr ⟨(hopen v).mp hflag, hpred, hless, w, ?_, hcost⟩
        have hset : {w | g.HasArc e.node v w} = {w | (⟨v, w⟩ : Arc F) ∈ rowOf staged e.node} :=
          Set.ext (fun w => hg.hasArc_iff_mem_rowOf e.node v w)
        rw [hset]
        exact hw
  refine ⟨⟨hsized', hfront', fun v => ?_, ?_, ?_, ?_⟩, hexpands, ?_⟩
  · have hflag : (s₁.scan h e.node (rowOf staged e.node)).isSettled v = s₁.isSettled v := by
      simp only [SearchState.isSettled, hscan.settled]
    rw [hflag, hsettled, List.mem_cons]
    by_cases hv : v = e.node
    · simp [hv]
    · simp [hv, hinv.settled_iff]
  · simp [hinv.target_open, Ne.symm hne]
  · rw [hscan.expanded]
    show s.stats.nodesExpanded + 1 = _
    rw [hinv.expanded, List.length_cons, UInt64.ofNat_add]
    rfl
  · exact hinv.explored.expand hg.growing hexpands hchoose.not_mem hchoose.labelled
  · -- the arcs of the node are no longer to scan
    have hqueue := hscan.queue_le
    have hlen := Comparison.popTop_length hpop
    have hcount : staged.countP (fun a => !(s₁.scan h e.node (rowOf staged e.node)).isSettled
        a.source) + (rowOf staged e.node).length
      = staged.countP (fun a => !s.isSettled a.source) := by
      have hopen' := (hinv.isSettled_eq_false_iff e.node).mpr hchoose.not_mem
      rw [← countP_add_length_rowOf staged hopen']
      refine congrArg (· + _) (congrArg (staged.countP ·) (funext fun a => ?_))
      rw [← hsettled]
      simp only [SearchState.isSettled, hscan.settled]
    unfold SearchState.remaining
    have hq : s₁.queue = rest := rfl
    rw [hq] at hqueue
    omega

omit [AddLeftMono F] [AddRightMono F] [WeightArith F] [Div F] in
/-- A stale entry belongs to a settled node, so nothing but the queue and the counters
changes. -/
theorem discard (hinv : SearchInv g source target h s closed) {e : Entry F}
    {rest : List (Entry F)}
    (hpop : Comparison.popTop higherPriorityFirst s.queue = some (e, rest))
    (hset : s.isSettled e.node = true) :
    SearchInv g source target h (s.pop rest).countStale closed := by
  have hfront : (s.pop rest).countStale.Frontier h g := by
    refine frontier_of_popTop hinv.frontier hpop rfl (fun _ => rfl) (fun v hflag => ⟨hflag, ?_⟩)
    rintro rfl
    have hflag' : s.isSettled e.node = false := hflag
    rw [hset] at hflag'
    cases hflag'
  exact ⟨⟨hinv.sized.distance, hinv.sized.parent, hinv.sized.settled⟩, hfront, hinv.settled_iff,
    hinv.target_open, hinv.expanded, hinv.explored⟩

/-- **One round**: the queue is empty, a stale entry is dropped, the chosen node is expanded,
or the chosen node is the target. -/
theorem round (hg : g.OverArcs distance staged)
    (hest : ∀ v, g.contains v = true → estimate v = .ok (h v)) (hh : ∀ v, 0 ≤ h v)
    (hinv : SearchInv g source target h s closed) :
    (searchRound g target estimate s = .ok .exhausted ∧ s.queue = []) ∨
    (∃ e s', searchRound g target estimate s = .ok (.stale e s') ∧
      SearchInv g source target h s' closed ∧ s'.toBestFirst closed = s.toBestFirst closed ∧
      s'.remaining staged < s.remaining staged) ∨
    (∃ e s', searchRound g target estimate s = .ok (.expanded e s') ∧
      s.Chooses g h closed e ∧ SearchInv g source target h s' (e.node :: closed) ∧
      BestFirst.Expands g.HasArc e.node (s.toBestFirst closed)
        (s'.toBestFirst (e.node :: closed)) ∧
      s'.remaining staged < s.remaining staged) ∨
    (∃ e rest, searchRound g target estimate s
        = .ok (.reached e ((s.pop rest).settle e.node).countExpanded) ∧
      s.Chooses g h closed e ∧ e.node = target) := by
  have heq := searchRound_eq target hinv.sized hinv.frontier.contains
    (fun u hu => hg.arcsFrom_eq hu) (fun u arc harc => hg.row_contains harc) hest
  cases hpop : Comparison.popTop higherPriorityFirst s.queue with
  | none =>
      rw [hpop] at heq
      exact Or.inl ⟨heq, Comparison.popTop_eq_none_iff.mp hpop⟩
  | some p =>
      obtain ⟨e, rest⟩ := p
      rw [hpop] at heq
      cases hset : s.isSettled e.node with
      | true =>
          simp only [hset, if_true] at heq
          have hlen := Comparison.popTop_length hpop
          refine Or.inr (Or.inl ⟨e, _, heq, hinv.discard hpop hset, rfl, ?_⟩)
          show rest.length + _ < s.queue.length + _
          rw [hlen]
          exact Nat.add_lt_add_right (Nat.lt_succ_self _) _
      | false =>
          have hchoose := hinv.chooses hh hpop hset
          simp only [hset, Bool.false_eq_true, if_false] at heq
          by_cases htarget : e.node = target
          · rw [if_pos htarget] at heq
            exact Or.inr (Or.inr (Or.inr ⟨e, rest, heq, hchoose, htarget⟩))
          · rw [if_neg htarget] at heq
            obtain ⟨hnext, hexp, hless⟩ := hinv.expand hg hpop hchoose htarget
            exact Or.inr (Or.inr (Or.inl ⟨e, _, heq, hchoose, hnext, hexp, hless⟩))

theorem of_stale (hg : g.OverArcs distance staged)
    (hest : ∀ v, g.contains v = true → estimate v = .ok (h v)) (hh : ∀ v, 0 ≤ h v)
    (hinv : SearchInv g source target h s closed) {e : Entry F} {s' : SearchState F}
    (hround : searchRound g target estimate s = .ok (.stale e s')) :
    SearchInv g source target h s' closed ∧ s'.toBestFirst closed = s.toBestFirst closed := by
  rcases hinv.round hg hest hh with ⟨heq, -⟩ | ⟨e', s'', heq, hnext, hsame, -⟩ |
      ⟨e', s'', heq, -⟩ | ⟨e', rest, heq, -⟩
  all_goals
    rw [heq, Except.ok.injEq] at hround
    cases hround
  exact ⟨hnext, hsame⟩

theorem of_expanded (hg : g.OverArcs distance staged)
    (hest : ∀ v, g.contains v = true → estimate v = .ok (h v)) (hh : ∀ v, 0 ≤ h v)
    (hinv : SearchInv g source target h s closed) {e : Entry F} {s' : SearchState F}
    (hround : searchRound g target estimate s = .ok (.expanded e s')) :
    s.Chooses g h closed e ∧ SearchInv g source target h s' (e.node :: closed) ∧
      BestFirst.Expands g.HasArc e.node (s.toBestFirst closed)
        (s'.toBestFirst (e.node :: closed)) := by
  rcases hinv.round hg hest hh with ⟨heq, -⟩ | ⟨e', s'', heq, -⟩ |
      ⟨e', s'', heq, hchoose, hnext, hexp, -⟩ | ⟨e', rest, heq, -⟩
  all_goals
    rw [heq, Except.ok.injEq] at hround
    cases hround
  exact ⟨hchoose, hnext, hexp⟩

end

end SearchInv

end

/-! ## Runs -/

section

variable [Top F] [Zero F] [Add F] [LT F] [DecidableLT F] [BEq F]

/-- `Rounds g target estimate s es t`: rounds of the main loop that do not end it lead from
`s` to `t` and make the expansions `es`. -/
inductive Rounds (g : Graph F) (target : NodeId) (estimate : NodeId → Outcome F) :
    SearchState F → List (Expansion F) → SearchState F → Prop
  | refl (s : SearchState F) : Rounds g target estimate s [] s
  | stale {s s' t : SearchState F} {e : Entry F} {es : List (Expansion F)} :
      searchRound g target estimate s = .ok (.stale e s') →
      Rounds g target estimate s' es t → Rounds g target estimate s es t
  | expanded {s s' t : SearchState F} {e : Entry F} {es : List (Expansion F)} :
      searchRound g target estimate s = .ok (.expanded e s') →
      Rounds g target estimate s' es t → Rounds g target estimate s (s.expansion e :: es) t

end

theorem reverse_map_cons_append (e : Expansion F) (es : List (Expansion F)) (closed : List NodeId) :
    ((e :: es).map Expansion.node).reverse ++ closed
      = (es.map Expansion.node).reverse ++ e.node :: closed := by
  simp

section

variable [LinearOrder F] [OrderTop F] [Zero F] [Add F] [AddLeftMono F] [AddRightMono F]
variable [WeightArith F] [Div F]
variable {distance : Coord F → Coord F → F} {g : Graph F} {staged : List (StagedArc F)}
variable {source target : NodeId} {estimate : NodeId → Outcome F} {h : NodeId → F}
variable {s t : SearchState F} {closed : List NodeId} {es : List (Expansion F)}

namespace Rounds

/-- **A run keeps the invariant**: it closes the nodes it expands, each at the label and the
priority it has ever after, and leaves the labels of closed nodes alone. -/
theorem keeps (hg : g.OverArcs distance staged)
    (hest : ∀ v, g.contains v = true → estimate v = .ok (h v)) (hh : ∀ v, 0 ≤ h v)
    (hrun : Rounds g target estimate s es t) (hinv : SearchInv g source target h s closed) :
    SearchInv g source target h t ((es.map Expansion.node).reverse ++ closed) ∧
      (∀ v ∈ closed, t.label v = s.label v) ∧
      ∀ e ∈ es, e.distance = t.label e.node ∧ e.priority = t.label e.node + h e.node := by
  induction hrun generalizing closed with
  | refl s => exact ⟨hinv, fun _ _ => rfl, by simp⟩
  | @stale s s' t e es hround _ ih =>
      -- dropping an entry does not show in the abstract state
      obtain ⟨hnext, hsame⟩ := hinv.of_stale hg hest hh hround
      obtain ⟨hinv', hlabel, hprio⟩ := ih hnext
      refine ⟨hinv', fun v hv => ?_, hprio⟩
      rw [hlabel v hv]
      exact congrFun (congrArg BestFirst.State.label hsame) v
  | @expanded s s' t e es hround _ ih =>
      obtain ⟨hchoose, hnext, hexp⟩ := hinv.of_expanded hg hest hh hround
      obtain ⟨hinv', hlabel, hprio⟩ := ih hnext
      -- the node keeps the label at which it was closed
      have hkept : ∀ v ∈ e.node :: closed, t.label v = s.label v := by
        intro v hv
        rw [hlabel v hv]
        exact (hexp.label_eq hv).1
      refine ⟨?_, fun v hv => hkept v (List.mem_cons_of_mem _ hv), ?_⟩
      · rwa [reverse_map_cons_append]
      · intro x hx
        rcases List.mem_cons.mp hx with rfl | hx
        · have hnode : t.label (s.expansion e).node = s.label e.node :=
            hkept e.node List.mem_cons_self
          rw [hnode]
          exact ⟨rfl, hchoose.priority_eq⟩
        · exact hprio x hx

/-- A property of the abstract state that closing a minimal open node keeps holds after a run. -/
theorem preserves {P : BestFirst.State NodeId F → Prop} (hg : g.OverArcs distance staged)
    (hest : ∀ v, g.contains v = true → estimate v = .ok (h v)) (hh : ∀ v, 0 ≤ h v)
    (hstep : ∀ {s : SearchState F} {closed : List NodeId} {e : Entry F}
      {b : BestFirst.State NodeId F}, SearchInv g source target h s closed →
      s.Chooses g h closed e → BestFirst.Expands g.HasArc e.node (s.toBestFirst closed) b →
      P (s.toBestFirst closed) → P b)
    (hrun : Rounds g target estimate s es t) (hinv : SearchInv g source target h s closed)
    (hP : P (s.toBestFirst closed)) :
    P (t.toBestFirst ((es.map Expansion.node).reverse ++ closed)) := by
  induction hrun generalizing closed with
  | refl s => exact hP
  | @stale s s' t e es hround _ ih =>
      obtain ⟨hnext, hsame⟩ := hinv.of_stale hg hest hh hround
      exact ih hnext (hsame ▸ hP)
  | @expanded s s' t e es hround _ ih =>
      obtain ⟨hchoose, hnext, hexp⟩ := hinv.of_expanded hg hest hh hround
      rw [reverse_map_cons_append]
      exact ih hnext (hstep hinv hchoose hexp hP)

/-- A run under a consistent heuristic keeps the costs of closed nodes least, provided that
costs are told apart by their sums with the heuristic at every node it chooses. -/
theorem guided (hg : g.OverArcs distance staged)
    (hest : ∀ v, g.contains v = true → estimate v = .ok (h v)) (hh : ∀ v, 0 ≤ h v)
    (hcons : Digraph.ConsistentFrom g.HasArc source h)
    (hcancel : ∀ {s : SearchState F} {closed : List NodeId} {e : Entry F},
      SearchInv g source target h s closed →
      BestFirst.Guided g.HasArc source h (s.toBestFirst closed) → s.Chooses g h closed e →
      ∀ y : F, s.label e.node + h e.node ≤ y + h e.node → s.label e.node ≤ y)
    (hrun : Rounds g target estimate s es t) (hinv : SearchInv g source target h s closed)
    (hguided : BestFirst.Guided g.HasArc source h (s.toBestFirst closed)) :
    BestFirst.Guided g.HasArc source h
      (t.toBestFirst ((es.map Expansion.node).reverse ++ closed)) := by
  refine hrun.preserves hg hest hh ?_ hinv hguided
  intro s closed e b hinv hchoose hexp hguided
  exact hguided.expand hcons hinv.explored hexp hchoose.not_mem hchoose.labelled
    (hcancel hinv hguided hchoose) hchoose.minimal

end Rounds

end

end RouteEngine
