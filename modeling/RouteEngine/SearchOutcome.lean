import RouteEngine.SearchRun

set_option autoImplicit false

/-! # What a search returns

The fuel of `search` is enough for every run (`SearchInv.run`). `search_outcome` says how every
search with valid identifiers ends; the results on its cost, its path and its expansions are
read off it. -/

namespace RouteEngine

variable {F : Type} {distance : Coord F → Coord F → F} {g : Graph F} {staged : List (StagedArc F)}
variable {source target : NodeId} {estimate : NodeId → Outcome F} {h : NodeId → F}
variable {s t : SearchState F} {closed : List NodeId} {es : List (Expansion F)}

/-! ## Before the loop -/

/-- The state in which the loop starts. -/
def SearchState.started [Zero F] [Top F] (n : Nat) (source : NodeId) (h : NodeId → F) :
    SearchState F :=
  let s : SearchState F := SearchState.initial n
  { s with distance := s.distance.set source.toNat 0 }.push ⟨h source, source⟩

namespace SearchState

variable [Zero F] [Top F]

theorem sized_started (n : Nat) (source : NodeId) (h : NodeId → F) :
    (SearchState.started n source h).Sized n :=
  ⟨by simp [started, initial], by simp [started, initial], by simp [started, initial]⟩

theorem label_started {n : Nat} (hn : source.toNat < n) (h : NodeId → F) (v : NodeId) :
    (SearchState.started n source h).label v = if v = source then 0 else ⊤ := by
  have hlen : source.toNat < (SearchState.initial (F := F) n).distance.length := by
    simpa [initial] using hn
  show ((SearchState.initial n).distance.set source.toNat 0)[v.toNat]?.getD ⊤ = _
  rw [getElem?_set_toNat _ _ hlen]
  split_ifs with hv
  · rfl
  · simp only [initial, List.getElem?_replicate]
    split_ifs <;> rfl

theorem isSettled_started (n : Nat) (source : NodeId) (h : NodeId → F) (v : NodeId) :
    (SearchState.started n source h).isSettled v = false := by
  show ((SearchState.initial (F := F) n).settled)[v.toNat]?.getD false = false
  simp only [initial, List.getElem?_replicate]
  split_ifs <;> rfl

end SearchState

section

variable [LinearOrder F] [OrderTop F] [Zero F]

theorem searchStart_eq (hs : g.contains source = true)
    (hest : ∀ v, g.contains v = true → estimate v = .ok (h v)) :
    searchStart g source estimate = .ok (SearchState.started g.nodeCount source h) := by
  unfold searchStart
  dsimp only
  have hlen : source.toNat < (SearchState.initial (F := F) g.nodeCount).distance.length := by
    simpa [SearchState.initial] using (g.contains_iff source).mp hs
  rw [store_eq _ hlen]
  simp only [ok_bind, hest source hs]
  rfl

theorem SearchInv.start [Add F] (target : NodeId) (hs : g.contains source = true)
    (hzero : (0 : F) ≠ ⊤)
    (hsource : 0 + h source = h source) :
    SearchInv g source target h (SearchState.started g.nodeCount source h) [] := by
  have hn := (g.contains_iff source).mp hs
  have hlabel := SearchState.label_started (F := F) hn h
  have hentry : ∀ e ∈ (SearchState.started g.nodeCount source h).queue,
      e = ⟨h source, source⟩ := by
    simp [SearchState.started, SearchState.initial]
  refine ⟨SearchState.sized_started _ _ _, ⟨?_, ?_, ?_, ?_⟩, fun v => ?_, by simp, rfl, ?_⟩
  · intro e he
    obtain rfl := hentry e he
    exact hs
  · intro e he
    obtain rfl := hentry e he
    rw [hlabel, if_pos rfl]
    exact hzero
  · intro e he
    obtain rfl := hentry e he
    rw [hlabel, if_pos rfl, hsource]
  · intro v hv _
    rw [hlabel] at hv ⊢
    split_ifs at hv ⊢ with hvs
    · rw [hvs, hsource]
      simp [SearchState.started]
    · exact absurd rfl hv
  · simp [SearchState.isSettled_started]
  · refine BestFirst.Explored.start rfl ?_ (fun v hv => ?_)
    · exact (hlabel source).trans (if_pos rfl)
    · exact (hlabel v).trans (if_neg hv)

theorem remaining_started (n : Nat) (source : NodeId) (h : NodeId → F)
    (staged : List (StagedArc F)) :
    (SearchState.started n source h).remaining staged ≤ staged.length + 1 := by
  have hcount := List.countP_le_length (p := fun a : StagedArc F =>
    !(SearchState.started n source h).isSettled a.source) (l := staged)
  have hqueue : (SearchState.started n source h).queue.length = 1 := by
    simp [SearchState.started, SearchState.initial]
  unfold SearchState.remaining
  omega

/-- The fuel of `search` covers its main loop. -/
theorem Graph.OverArcs.remaining_lt_searchFuel [Div F] (hg : g.OverArcs distance staged)
    (source : NodeId) (h : NodeId → F) :
    (SearchState.started g.nodeCount source h).remaining staged < searchFuel g := by
  have hle := remaining_started g.nodeCount source h staged
  unfold searchFuel
  rw [hg.arcCount_eq]
  omega

end

/-! ## The loop -/

section

variable [LinearOrder F] [OrderTop F] [Zero F] [Add F] [AddLeftMono F] [AddRightMono F]
variable [WeightArith F] [Div F]

/-- **The loop ends within its fuel**, by induction on the fuel, and it has made a run of
rounds followed by the one that ends it. -/
theorem SearchInv.run (hg : g.OverArcs distance staged)
    (hest : ∀ v, g.contains v = true → estimate v = .ok (h v)) (hh : ∀ v, 0 ≤ h v) :
    ∀ {fuel : Nat} {s : SearchState F} {closed : List NodeId},
      SearchInv g source target h s closed → s.remaining staged < fuel →
      ∃ es t, Rounds g target estimate s es t ∧
        ((searchLoop g target estimate fuel s = .ok (false, t) ∧
            searchRound g target estimate t = .ok .exhausted ∧ t.queue = [] ∧
            settlingPops g target estimate fuel s = es) ∨
          ∃ e rest, searchLoop g target estimate fuel s
              = .ok (true, ((t.pop rest).settle e.node).countExpanded) ∧
            searchRound g target estimate t
              = .ok (.reached e ((t.pop rest).settle e.node).countExpanded) ∧
            t.Chooses g h ((es.map Expansion.node).reverse ++ closed) e ∧ e.node = target ∧
            settlingPops g target estimate fuel s = es ++ [t.expansion e]) := by
  intro fuel
  induction fuel with
  | zero => intro s closed _ hfuel; omega
  | succ fuel ih =>
      intro s closed hinv hfuel
      rcases hinv.round hg hest hh with ⟨heq, hqueue⟩ | ⟨e, s', heq, hnext, -, hless⟩ |
          ⟨e, s', heq, -, hnext, -, hless⟩ | ⟨e, rest, heq, hchoose, htarget⟩
      · refine ⟨[], s, .refl s, Or.inl ⟨?_, heq, hqueue, ?_⟩⟩
        · simp [searchLoop, heq]
        · simp [settlingPops, heq]
      · -- a stale entry: the run goes on
        obtain ⟨es, t, hrun, hend⟩ := ih hnext (by omega)
        refine ⟨es, t, .stale heq hrun, ?_⟩
        simpa only [searchLoop, settlingPops, heq, ok_bind] using hend
      · -- an expansion: it is the first of the run
        obtain ⟨es, t, hrun, hend⟩ := ih hnext (by omega)
        refine ⟨s.expansion e :: es, t, .expanded heq hrun, ?_⟩
        simp only [searchLoop, settlingPops, heq, ok_bind, reverse_map_cons_append]
        rcases hend with ⟨hloop, hlast, hqueue, hpops⟩ |
            ⟨e', rest, hloop, hlast, hchoose, htarget, hpops⟩
        · exact Or.inl ⟨hloop, hlast, hqueue, by rw [hpops]⟩
        · exact Or.inr ⟨e', rest, hloop, hlast, hchoose, htarget, by rw [hpops, List.cons_append]⟩
      · refine ⟨[], s, .refl s, Or.inr ⟨e, rest, ?_, heq, by simpa using hchoose, htarget, ?_⟩⟩
        · simp [searchLoop, heq]
        · simp [settlingPops, heq]

/-! ## The walk back -/

omit [AddLeftMono F] [AddRightMono F] [WeightArith F] [Div F] [Zero F] [Add F] in
/-- The loop over parents follows the predecessor path. -/
theorem walkBack_eq (hs : s.Sized g.nodeCount) {v : NodeId} {path : List NodeId}
    (hpath : BestFirst.Path (s.toBestFirst closed) source v path)
    (hcontains : ∀ x ∈ path, g.contains x = true) :
    ∀ {fuel : Nat}, path.length ≤ fuel → walkBack s.parent source fuel v = .ok path := by
  induction hpath with
  | nil =>
      intro fuel hfuel
      obtain ⟨n, rfl⟩ := Nat.exists_eq_add_of_le' hfuel
      simp [walkBack]
  | @cons v path hvs _ ih =>
      intro fuel hfuel
      obtain ⟨n, rfl⟩ := Nat.exists_eq_add_of_le' (Nat.le_trans (Nat.le_add_left 1 _) hfuel)
      have hlen : path.length ≤ n := by
        simp only [List.length_cons] at hfuel
        omega
      have hparent := hs.subscript_parentOf
        ((g.contains_iff v).mp (hcontains v List.mem_cons_self))
      have hrest := ih (fun x hx => hcontains x (List.mem_cons_of_mem v hx)) hlen
      have hpred : (s.toBestFirst closed).pred v = s.parentOf v := rfl
      rw [hpred] at hrest
      simp [walkBack, hvs, hparent, hrest]

omit [LinearOrder F] [OrderTop F] [Zero F] [Add F] [AddLeftMono F] [AddRightMono F]
  [WeightArith F] [Div F] in
/-- Distinct nodes of a graph are no more than it has. -/
theorem length_le_nodeCount {l : List NodeId} (hnodup : l.Nodup)
    (hcontains : ∀ v ∈ l, g.contains v = true) : l.length ≤ g.nodeCount := by
  have hmap : (l.map UInt32.toNat).Nodup :=
    hnodup.map (fun _ _ heq => UInt32.toNat_inj.mp heq)
  have hsub : l.map UInt32.toNat ⊆ List.range g.nodeCount := by
    intro i hi
    obtain ⟨v, hv, rfl⟩ := List.mem_map.mp hi
    exact List.mem_range.mpr ((g.contains_iff v).mp (hcontains v hv))
  simpa using (List.subperm_of_subset hmap hsub).length_le

omit [AddLeftMono F] in
/-- **For every walk there is one that is not dearer and has fewer arcs than there are nodes.** -/
theorem Graph.OverArcs.exists_short_walk (hg : g.OverArcs distance staged)
    (hs : g.contains source = true) {v : NodeId} {c : F}
    (hc : Digraph.WalkCost g.HasArc source v c) :
    ∃ vs c', Digraph.Walk g.HasArc source vs v c' ∧ c' ≤ c ∧ vs.length < g.nodeCount := by
  obtain ⟨_, hw⟩ := hc
  obtain ⟨vs, c', hw', hle, hnodup⟩ := hw.exists_simple hg.growing
  refine ⟨vs, c', hw', hle, ?_⟩
  exact length_le_nodeCount hnodup (hg.contains_of_walk hs hw')

/-! ## The outcome -/

/-- The two ways in which a search ends after a run that expanded `es`: the queue is empty, or
the target is chosen and the predecessor path is returned. -/
def SearchState.Ends (g : Graph F) (source target : NodeId) (h : NodeId → F)
    (es : List (Expansion F)) (t : SearchState F) (result : SearchResult F)
    (expanded : List (Expansion F)) : Prop :=
  (t.queue = [] ∧ result = ⟨.unreachable, ⊤, [], t.stats⟩ ∧ expanded = es) ∨
    ∃ e rest path, t.Chooses g h (es.map Expansion.node).reverse e ∧ e.node = target ∧
      BestFirst.Path (t.toBestFirst (es.map Expansion.node).reverse) source target path ∧
      path.Nodup ∧
      result = ⟨.found, t.label target, path.reverse,
        ((t.pop rest).settle e.node).countExpanded.stats⟩ ∧
      expanded = es ++ [t.expansion e]

omit [AddLeftMono F] [AddRightMono F] [WeightArith F] [Div F] in
/-- No node is expanded twice. -/
theorem SearchState.Ends.nodup {result : SearchResult F} {expanded : List (Expansion F)}
    (hends : t.Ends g source target h es result expanded)
    (hinv : SearchInv g source target h t (es.map Expansion.node).reverse) :
    (expanded.map Expansion.node).Nodup := by
  have hes : (es.map Expansion.node).Nodup := List.nodup_reverse.mp hinv.explored.nodup
  rcases hends with ⟨-, -, rfl⟩ | ⟨e, rest, path, hchoose, -, -, -, -, rfl⟩
  · exact hes
  · rw [List.map_append, List.nodup_append]
    refine ⟨hes, by simp, fun v hv w hw heq => ?_⟩
    obtain rfl : w = (t.expansion e).node := by simpa using hw
    subst heq
    exact hchoose.not_mem (List.mem_reverse.mpr hv)

/-- **Every search with valid identifiers returns** after a run of rounds that ends where no
round goes on. -/
theorem search_stops (hg : g.OverArcs distance staged)
    (hest : ∀ v, g.contains v = true → estimate v = .ok (h v)) (hh : ∀ v, 0 ≤ h v)
    (hs : g.contains source = true) (ht : g.contains target = true) (hzero : (0 : F) ≠ ⊤)
    (hsource : 0 + h source = h source) :
    ∃ es t result, Rounds g target estimate (SearchState.started g.nodeCount source h) es t ∧
      (∀ e s', searchRound g target estimate t ≠ .ok (.stale e s') ∧
        searchRound g target estimate t ≠ .ok (.expanded e s')) ∧
      SearchInv g source target h t (es.map Expansion.node).reverse ∧
      search g source target estimate = .ok result ∧
      t.Ends g source target h es result (expansions g source target estimate) := by
  have hstart := SearchInv.start target hs hzero hsource
  have hfuel := hg.remaining_lt_searchFuel source h
  obtain ⟨es, t, hrun, hend⟩ := hstart.run hg hest hh hfuel
  obtain ⟨hinv, -, -⟩ := hrun.keeps hg hest hh hstart
  simp only [List.append_nil] at hinv hend
  unfold search expansions
  rw [searchStart_eq hs hest]
  simp only [ok_bind]
  rcases hend with ⟨hloop, hlast, hqueue, hpops⟩ |
      ⟨e, rest, hloop, hlast, hchoose, htarget, hpops⟩
  · refine ⟨es, t, ⟨.unreachable, ⊤, [], t.stats⟩, hrun, by simp [hlast], hinv, ?_,
      Or.inl ⟨hqueue, rfl, hpops⟩⟩
    rw [hloop]
    rfl
  · -- the target was chosen, and its parents lead back to the source
    have hopen : target ∉ (es.map Expansion.node).reverse := hinv.target_open
    have hlabel : t.label target ≠ ⊤ := htarget ▸ hchoose.labelled
    obtain ⟨path, hpath, hsub, hnodup⟩ := hinv.explored.exists_path_of_open hopen hlabel
    have hcontains : ∀ x ∈ path, g.contains x = true := by
      intro x hx
      rcases List.mem_cons.mp (hsub.subset hx) with rfl | hmem
      · exact ht
      · exact hinv.contains_of_mem hmem
    have hlen : path.length ≤ g.nodeCount + 1 :=
      (length_le_nodeCount hnodup hcontains).trans (Nat.le_succ _)
    refine ⟨es, t, _, hrun, by simp [hlast], hinv, ?_,
      Or.inr ⟨e, rest, path, hchoose, htarget, hpath, hnodup, rfl, hpops⟩⟩
    have hcost := hinv.sized.subscript_label ((g.contains_iff target).mp ht)
    have hwalk := walkBack_eq hinv.sized hpath hcontains hlen
    rw [hloop]
    show (do
      let cost ← subscript t.distance target.toNat
      let path ← walkBack t.parent source (g.nodeCount + 1) target
      return (⟨.found, cost, path.reverse, ((t.pop rest).settle e.node).countExpanded.stats⟩ :
        SearchResult F)) = _
    rw [hcost, ok_bind, hwalk, ok_bind]
    rfl

/-- **The outcome of every search**, whatever finite, non-negative heuristic guides it: no
subscript fails, no accessor throws, and both loops end. -/
theorem search_outcome (hg : g.OverArcs distance staged)
    (hest : ∀ v, g.contains v = true → estimate v = .ok (h v)) (hh : ∀ v, 0 ≤ h v)
    (hs : g.contains source = true) (ht : g.contains target = true) (hzero : (0 : F) ≠ ⊤)
    (hsource : 0 + h source = h source) :
    ∃ es t result, Rounds g target estimate (SearchState.started g.nodeCount source h) es t ∧
      SearchInv g source target h t (es.map Expansion.node).reverse ∧
      search g source target estimate = .ok result ∧
      t.Ends g source target h es result (expansions g source target estimate) := by
  rcases search_stops hg hest hh hs ht hzero hsource with
    ⟨es, t, result, hrun, -, hinv, hsearch, hends⟩
  exact ⟨es, t, result, hrun, hinv, hsearch, hends⟩

end

end RouteEngine
