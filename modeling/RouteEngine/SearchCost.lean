import RouteEngine.SearchOutcome

set_option autoImplicit false

/-! # The cost a search returns

Under a consistent heuristic the returned cost is the least folded cost of a walk to the
target, in every weight arithmetic; without consistency the status still tells whether the
target can be reached, provided that no sum of finite costs overflows. -/

namespace RouteEngine

variable {F : Type} [LinearOrder F] [OrderTop F] [Zero F] [Add F]
variable {distance : Coord F → Coord F → F} {g : Graph F} {staged : List (StagedArc F)}
variable {source target : NodeId} {estimate : NodeId → Outcome F} {h : NodeId → F}

/-- **Any heuristic tells reachability**, where finite costs have a finite sum. -/
theorem found_iff_reachable [Div F] (hg : g.OverArcs distance staged)
    {t : SearchState F} {es expanded : List (Expansion F)} {result : SearchResult F}
    (hsum : ∀ a b : F, a ≠ ⊤ → b ≠ ⊤ → a + b ≠ ⊤) (hzero : (0 : F) ≠ ⊤)
    (hinv : SearchInv g source target h t (es.map Expansion.node).reverse)
    (hends : t.Ends g source target h es result expanded) :
    result.status = .found ↔ Digraph.Reachable g.HasArc source target := by
  rcases hends with ⟨hqueue, rfl, -⟩ | ⟨e, rest, path, hchoose, rfl, -, -, rfl, -⟩
  · have hreach := hinv.explored.mem_closed_iff_reachable (v := target)
      (fun u v w c harc hc => hsum c w hc (hg.weight_ne_top harc)) hzero
      (fun v hv => hinv.mem_closed_of_queue_nil hqueue hv)
    have hnot : ¬ Digraph.Reachable g.HasArc source target :=
      fun hr => hinv.target_open (hreach.mpr hr)
    simp [hnot]
  · have hreach := (hinv.explored.walk _ hchoose.labelled).reachable
    simp [hreach]

/-- A heuristic under which the returned cost is least. -/
structure ConsistentHeuristic (g : Graph F) (h : NodeId → F) : Prop where
  nonneg : ∀ v, 0 ≤ h v
  consistent : Digraph.Consistent g.HasArc h
  cancel : ∀ v, ∀ x y : F, x + h v ≤ y + h v → x ≤ y

/-- The zero heuristic is consistent on every built graph. -/
theorem zeroHeuristic [WeightArith F] [Div F] (hg : g.OverArcs distance staged) :
    ConsistentHeuristic g (fun _ => 0) where
  nonneg _ := le_rfl
  consistent u v w harc a := by
    rw [WeightArith.add_zero, WeightArith.add_zero]
    exact hg.growing harc a
  cancel _ x y hxy := by rwa [WeightArith.add_zero, WeightArith.add_zero] at hxy

/-- What is known when a guided run ends. -/
structure GuidedEnd (g : Graph F) (source target : NodeId) (h : NodeId → F)
    (t : SearchState F) (closed : List NodeId) : Prop where
  inv : SearchInv g source target h t closed
  guided : BestFirst.Guided g.HasArc source h (t.toBestFirst closed)

namespace GuidedEnd

variable [AddRightMono F] {t : SearchState F} {closed : List NodeId}

/-- When the queue is empty, no walk to an open node has a finite cost. -/
theorem eq_top_of_queue_nil [WeightArith F] (hh : ConsistentHeuristic g h)
    (hend : GuidedEnd g source target h t closed) (hqueue : t.queue = []) {v : NodeId}
    (hv : v ∉ closed) {c : F} (hw : Digraph.WalkCost g.HasArc source v c) : c = ⊤ := by
  have hopen : ∀ x, x ∉ closed → (⊤ : F) ≤ t.label x + h x := by
    intro x hx
    have hlabel : t.label x = ⊤ := by
      by_contra hne
      exact hx (hend.inv.mem_closed_of_queue_nil hqueue hne)
    rw [hlabel, WeightArith.top_add (hh.nonneg x)]
  have htop : c + h v = ⊤ := by
    by_contra hne
    exact hv (hend.guided.mem_closed_of_lt (hh.consistent.from source) hend.inv.explored hopen hw
      (lt_top_iff_ne_top.mpr hne))
  have hle : ⊤ + h v ≤ c + h v := by
    rw [htop]
    exact le_top
  exact top_le_iff.mp (hh.cancel v _ _ hle)

/-- The label of the chosen target is the least cost. -/
theorem isLeast_of_chooses (hh : ConsistentHeuristic g h)
    (hend : GuidedEnd g source target h t closed) {e : Entry F}
    (hchoose : t.Chooses g h closed e) :
    IsLeast {c | Digraph.WalkCost g.HasArc source e.node c} (t.label e.node) :=
  ⟨hend.inv.explored.walk _ hchoose.labelled, fun _ hc =>
    hend.guided.label_le (hh.consistent.from source) hend.inv.explored hchoose.not_mem
      (hh.cancel e.node _)
      hchoose.minimal hc⟩

end GuidedEnd

variable [AddLeftMono F] [AddRightMono F] [WeightArith F] [Div F]

/-- How a search under a consistent heuristic ends. -/
theorem search_guided (hg : g.OverArcs distance staged)
    (hest : ∀ v, g.contains v = true → estimate v = .ok (h v)) (hh : ConsistentHeuristic g h)
    (hs : g.contains source = true) (ht : g.contains target = true) (hzero : (0 : F) ≠ ⊤)
    (hsource : 0 + h source = h source) :
    ∃ es t result, search g source target estimate = .ok result ∧
      GuidedEnd g source target h t (es.map Expansion.node).reverse ∧
      (∀ e ∈ es, e.distance = t.label e.node ∧ e.priority = t.label e.node + h e.node) ∧
      t.Ends g source target h es result (expansions g source target estimate) := by
  obtain ⟨es, t, result, hrun, hinv, hsearch, hends⟩ :=
    search_outcome hg hest hh.nonneg hs ht hzero hsource
  have hstart := SearchInv.start target hs hzero hsource
  obtain ⟨-, -, hprio⟩ := hrun.keeps hg hest hh.nonneg hstart
  have hguided := hrun.guided hg hest hh.nonneg (hh.consistent.from source)
    (fun _ _ _ => hh.cancel _ _) hstart (BestFirst.Guided.start rfl)
  rw [List.append_nil] at hguided
  exact ⟨es, t, result, hsearch, ⟨hinv, hguided⟩, hprio, hends⟩

/-- **A consistent heuristic finds least costs.** The cost is the least among `⊤` and the
folded costs of all walks, the search reports a route exactly when it is finite, and it
expands no node twice. -/
theorem search_least (hg : g.OverArcs distance staged)
    (hest : ∀ v, g.contains v = true → estimate v = .ok (h v)) (hh : ConsistentHeuristic g h)
    (hs : g.contains source = true) (ht : g.contains target = true) (hzero : (0 : F) ≠ ⊤)
    (hsource : 0 + h source = h source) :
    ∃ result, search g source target estimate = .ok result ∧
      IsLeast (insert ⊤ {c | Digraph.WalkCost g.HasArc source target c}) result.cost ∧
      (result.status = .found ↔ result.cost ≠ ⊤) ∧
      ((expansions g source target estimate).map Expansion.node).Nodup := by
  obtain ⟨es, t, result, hsearch, hend, -, hends⟩ := search_guided hg hest hh hs ht hzero hsource
  have hnodup := hends.nodup hend.inv
  refine ⟨result, hsearch, ?_⟩
  rcases hends with ⟨hqueue, rfl, -⟩ | ⟨e, rest, path, hchoose, rfl, -, -, rfl, -⟩
  · refine ⟨⟨Set.mem_insert _ _, ?_⟩, by simp, hnodup⟩
    rintro c (rfl | hc)
    · exact le_rfl
    · exact (hend.eq_top_of_queue_nil hh hqueue hend.inv.target_open hc).ge
  · obtain ⟨hmem, hleast⟩ := hend.isLeast_of_chooses hh hchoose
    refine ⟨⟨Set.mem_insert_of_mem _ hmem, ?_⟩, by simpa using hchoose.labelled, hnodup⟩
    rintro c (rfl | hc)
    · exact le_top
    · exact hleast hc

/-- **A walk of finite cost is enough for a route**, also where sums of other costs overflow:
as long as the target is open, the chosen nodes have finite priorities, where costs can be told
apart. -/
theorem search_found_of_walk (hg : g.OverArcs distance staged)
    (hest : ∀ v, g.contains v = true → estimate v = .ok (h v)) (hh : ∀ v, 0 ≤ h v)
    (hcons : Digraph.ConsistentFrom g.HasArc source h)
    (hcancel : ∀ x y z : F, x + z ≠ ⊤ → x + z ≤ y + z → x ≤ y)
    (hs : g.contains source = true) (ht : g.contains target = true) (hzero : (0 : F) ≠ ⊤)
    (hsource : 0 + h source = h source) {c : F}
    (hw : Digraph.WalkCost g.HasArc source target c) (hfin : c + h target ≠ ⊤) :
    ∃ result, search g source target estimate = .ok result ∧ result.status = .found := by
  obtain ⟨es, t, result, hrun, hinv, hsearch, hends⟩ :=
    search_outcome hg hest hh hs ht hzero hsource
  have hguided := hrun.guided hg hest hh hcons ?_ (SearchInv.start target hs hzero hsource)
    (BestFirst.Guided.start rfl)
  · rw [List.append_nil] at hguided
    refine ⟨result, hsearch, ?_⟩
    rcases hends with ⟨hqueue, -, -⟩ | ⟨e, rest, path, -, -, -, -, rfl, -⟩
    · -- the queue cannot run empty while the walk has an open node
      obtain ⟨x, hx, hle⟩ := hguided.exists_open hcons hinv.explored hw hinv.target_open
      have hlabel : t.label x ≠ ⊤ := by
        intro htop
        have hx' : t.label x + h x ≠ ⊤ := ne_top_of_le_ne_top hfin hle
        rw [htop] at hx'
        exact hx' (WeightArith.top_add (hh x))
      exact absurd (hinv.mem_closed_of_queue_nil hqueue hlabel) hx
    · rfl
  · intro s closed e hinv' hguided hchoose y hy
    obtain ⟨x, hx, hle⟩ := hguided.exists_open hcons hinv'.explored hw hinv'.target_open
    have hprio : s.label e.node + h e.node ≤ c + h target := (hchoose.minimal x hx).trans hle
    exact hcancel _ _ _ (ne_top_of_le_ne_top hfin hprio) hy

end RouteEngine
