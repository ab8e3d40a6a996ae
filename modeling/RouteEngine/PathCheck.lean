import RouteEngine.Optimality

set_option autoImplicit false

/-! # The returned path

`check_path` (`tests/support/path_checker.hpp`) follows a returned path in the graph and sums
its cost again. It accepts every path a search returns, whatever heuristic guided it, with
exactly the cost the search returned. -/

namespace RouteEngine

variable {F : Type}

/-! ## The checker -/

structure PathCheck (F : Type) where
  valid : Bool
  cost : F
  reason : String
  deriving DecidableEq

section

variable [Add F]

/-- The loop over consecutive pairs; the first arc with the right target is used. -/
def checkSteps (g : Graph F) : List NodeId → F → Outcome (PathCheck F)
  | u :: v :: path, cost => do
      let row ← g.arcsFrom u
      match row.find? (fun arc => arc.target = v) with
      | some arc => checkSteps g (v :: path) (cost + arc.weight)
      | none => return ⟨false, cost, "no arc from node " ++ toString u.toNat ++ " to node " ++
          toString v.toNat⟩
  | _, cost => return ⟨true, cost, ""⟩

def checkPath [Zero F] (g : Graph F) (result : SearchResult F) (source target : NodeId) :
    Outcome (PathCheck F) :=
  if !result.found then return ⟨false, 0, "result reports no route"⟩
  else if result.path.isEmpty then return ⟨false, 0, "a found route has an empty path"⟩
  else if result.path.head? ≠ some source then
    return ⟨false, 0, "path does not start at the source"⟩
  else if result.path.getLast? ≠ some target then
    return ⟨false, 0, "path does not end at the target"⟩
  else checkSteps g result.path 0

/-- One more step at the end of an accepted path. -/
theorem checkSteps_snoc {g : Graph F} {u v : NodeId} {row : List (Arc F)} {arc : Arc F}
    (hrow : g.arcsFrom u = .ok row) (hfind : row.find? (fun arc => arc.target = v) = some arc) :
    ∀ (path : List NodeId) (cost total : F),
      checkSteps g (path ++ [u]) cost = .ok ⟨true, total, ""⟩ →
      checkSteps g (path ++ [u] ++ [v]) cost = .ok ⟨true, total + arc.weight, ""⟩ := by
  intro path
  induction path with
  | nil =>
      intro cost total h
      simp only [List.nil_append, checkSteps, pure_eq_ok, Except.ok.injEq, PathCheck.mk.injEq,
        true_and, and_true] at h
      simp [checkSteps, hrow, hfind, h]
  | cons x path ih =>
      intro cost total h
      obtain ⟨y, rest, heq⟩ : ∃ y rest, path ++ [u] = y :: rest := by
        cases path with
        | nil => exact ⟨u, [], rfl⟩
        | cons y path => exact ⟨y, path ++ [u], rfl⟩
      rw [heq] at ih
      rw [List.cons_append, heq] at h ⊢
      -- the step from `x` is checked alike with and without `v` at the end
      unfold checkSteps at h
      obtain ⟨row', hrow', h⟩ := bind_eq_ok.mp h
      show checkSteps g (x :: y :: (rest ++ [v])) cost = _
      unfold checkSteps
      rw [hrow', ok_bind]
      cases hfind' : row'.find? (fun arc => arc.target = y) with
      | none => simp [hfind'] at h
      | some arc' =>
          rw [hfind'] at h
          exact ih _ _ h

end

/-! ## Paths of a search -/

section

variable [LinearOrder F] [OrderTop F]
variable {distance : Coord F → Coord F → F} {g : Graph F} {staged : List (StagedArc F)}
variable {source target : NodeId} {h : NodeId → F} {s : SearchState F} {closed : List NodeId}

/-- The first of the parallel arcs is the one of least weight. -/
theorem find?_eq_of_isLeast [Zero F] [Div F] (hg : g.OverArcs distance staged) {u v : NodeId}
    {w : F}
    (hw : IsLeast {w | g.HasArc u v w} w) :
    (rowOf staged u).find? (fun arc => arc.target = v) = some ⟨v, w⟩ := by
  have hmem := (hg.hasArc_iff_mem_rowOf u v w).mp hw.1
  have hsorted := hg.row_sorted u
  cases hfind : (rowOf staged u).find? (fun arc => arc.target = v) with
  | none =>
      have := List.find?_eq_none.mp hfind _ hmem
      simp at this
  | some arc =>
      -- the arc of least weight stands after the found one, or is it
      obtain ⟨htarget, before, after, hrow, hbefore⟩ := List.find?_eq_some_iff_append.mp hfind
      simp only [decide_eq_true_eq] at htarget
      have harc : g.HasArc u v arc.weight := by
        rw [hg.hasArc_iff_mem_rowOf, ← htarget, hrow]
        simp
      have hle : arc.weight ≤ w := by
        rw [hrow] at hmem hsorted
        rcases List.mem_append.mp hmem with hin | hin
        · have := hbefore _ hin
          simp at this
        · rcases List.mem_cons.mp hin with heq | hin
          · rw [← heq]
          · have hpair := (List.pairwise_cons.mp (List.pairwise_append.mp hsorted).2.1).1
            exact hpair _ hin htarget
      rw [le_antisymm (hw.2 harc) hle, ← htarget]

/-- A predecessor path starts with the node it is followed from. -/
theorem exists_cons_of_path {v : NodeId} {path : List NodeId}
    (hpath : BestFirst.Path (s.toBestFirst closed) source v path) :
    ∃ rest, path = v :: rest := by
  cases hpath with
  | nil => exact ⟨[], rfl⟩
  | cons _ _ => exact ⟨_, rfl⟩

variable [Zero F] [Add F] [Div F]

/-- **The checker accepts a predecessor path** with the label of its end, by induction on the
path. -/
theorem checkSteps_path (hg : g.OverArcs distance staged)
    (hinv : SearchInv g source target h s closed) {v : NodeId} {path : List NodeId}
    (hpath : BestFirst.Path (s.toBestFirst closed) source v path) (hv : s.label v ≠ ⊤) :
    checkSteps g path.reverse 0 = .ok ⟨true, s.label v, ""⟩ ∧
      path.reverse.head? = some source ∧ ∀ x ∈ path, g.contains x = true := by
  induction hpath with
  | nil =>
      have hsource : s.label source = 0 := hinv.explored.source
      have hcontains := hinv.contains_of_labelled hv
      rw [hsource]
      exact ⟨rfl, rfl, by simpa using hcontains⟩
  | @cons v path hvs hrest ih =>
      obtain ⟨hpred, w, hw, hcost⟩ := hinv.explored.pred_closed v hvs hv
      have hlabelled : s.label (s.parentOf v) ≠ ⊤ := hinv.explored.finite _ hpred
      obtain ⟨hcheck, hhead, hrestc⟩ := ih hlabelled
      obtain ⟨tail, rfl⟩ := exists_cons_of_path hrest
      have hu : g.contains (s.parentOf v) = true := hinv.contains_of_mem hpred
      -- the label of `v` was set by the cheapest arc, which is the one that the checker finds
      have hstep := checkSteps_snoc (hg.arcsFrom_eq hu) (find?_eq_of_isLeast hg hw)
        tail.reverse 0 (s.label (s.parentOf v))
      have hcost' : s.label v = s.label (s.parentOf v) + w := hcost
      simp only [List.reverse_cons] at hcheck hhead ⊢
      refine ⟨?_, ?_, List.forall_mem_cons.mpr ⟨hinv.contains_of_labelled hv, hrestc⟩⟩
      · rw [hcost']
        exact hstep hcheck
      · rw [List.head?_append, hhead]
        rfl

end

/-- **Any heuristic with finite, non-negative values leads to a sound answer**: the search
returns, it reports a route exactly when the target can be reached, and the reported path
leads from source to target, repeats no node and costs, over the cheapest arcs, exactly the
returned cost. -/
theorem search_any_heuristic {K : Type} [Field K] [LinearOrder K] [IsStrictOrderedRing K]
    (distance : Coord (WithTop K) → Coord (WithTop K) → WithTop K)
    (std : Comparison.Sorter (GraphBuilder.stagedBefore (F := WithTop K)))
    (g : Graph (WithTop K)) (hg : g.Built distance std) (source target : NodeId)
    (hs : g.contains source = true) (ht : g.contains target = true)
    (estimate : NodeId → Outcome (WithTop K))
    (hest : ∀ v, g.contains v = true → ∃ x, estimate v = .ok x ∧ x ≠ ⊤ ∧ 0 ≤ x) :
    ∃ result, search g source target estimate = .ok result ∧
      (result.status = .found ↔ Digraph.Reachable g.HasArc source target) ∧
      (result.status = .found →
        checkPath g result source target = .ok ⟨true, result.cost, ""⟩ ∧
        result.path.head? = some source ∧ result.path.getLast? = some target ∧
        result.path.Nodup ∧ ∀ v ∈ result.path, g.contains v = true) ∧
      (result.status = .unreachable → result.path = [] ∧ result.cost = ⊤) := by
  obtain ⟨staged, hover⟩ := hg.exists_overArcs
  -- the values of the heuristic, and `0` outside the graph
  let h : NodeId → WithTop K := fun v =>
    if g.contains v then (match estimate v with | .ok x => x | .error _ => 0) else 0
  have hvalue : ∀ v, g.contains v = true → estimate v = .ok (h v) ∧ 0 ≤ h v := by
    intro v hv
    obtain ⟨x, hx, -, hpos⟩ := hest v hv
    have hhv : h v = x := by
      show (if g.contains v then (match estimate v with | .ok x => x | .error _ => 0) else 0) = x
      rw [if_pos hv, hx]
    rw [hhv]
    exact ⟨hx, hpos⟩
  have hnonneg : ∀ v, 0 ≤ h v := by
    intro v
    by_cases hv : g.contains v = true
    · exact (hvalue v hv).2
    · exact (if_neg hv).ge
  obtain ⟨es, t, result, -, hinv, hsearch, hends⟩ := search_outcome hover
    (fun v hv => (hvalue v hv).1) hnonneg hs ht WithTop.zero_ne_top (zero_add _)
  refine ⟨result, hsearch, found_iff_reachable hover
    (fun a b ha hb => WithTop.add_ne_top.mpr ⟨ha, hb⟩) WithTop.zero_ne_top hinv hends, ?_⟩
  rcases hends with ⟨-, rfl, -⟩ | ⟨e, rest, path, hchoose, rfl, hpath, hnodup, rfl, -⟩
  · simp
  · refine ⟨fun _ => ?_, by simp⟩
    obtain ⟨hcheck, hhead, hcontains⟩ := checkSteps_path hover hinv hpath hchoose.labelled
    obtain ⟨tail, rfl⟩ := exists_cons_of_path hpath
    have hlast : (e.node :: tail).reverse.getLast? = some e.node := by simp
    refine ⟨?_, hhead, hlast, List.nodup_reverse.mpr hnodup,
      fun v hv => hcontains v (List.mem_reverse.mp hv)⟩
    unfold checkPath
    rw [hhead, hlast]
    simpa [SearchResult.found] using hcheck

/-- A heuristic that overestimates the middle of the road. -/
def detourEstimate (v : NodeId) : Outcome (WithTop ℚ) := .ok (if v = 1 then 100 else 0)

/-- Misled, the search takes the dear arc, and the checker confirms its cost. -/
theorem search_any_heuristic_detour :
    ∃ result, search road 0 2 detourEstimate = .ok result ∧
      checkPath road result 0 2 = .ok ⟨true, result.cost, ""⟩ ∧ result.path.Nodup ∧
      result.cost = 5 := by
  obtain ⟨result, hsearch, -, hfound, -⟩ :=
    search_any_heuristic taxicab.lift _ road road_built 0 2 rfl rfl detourEstimate
      (fun v _ => ⟨if v = 1 then 100 else 0, rfl, by split <;> decide, by split <;> decide⟩)
  have hrun : search road 0 2 detourEstimate
      = .ok ⟨.found, 5, [0, 2], ⟨3, 2, 0, 2, 3, 2, 2⟩⟩ := by
    decide +kernel
  rw [hrun, Except.ok.injEq] at hsearch
  subst hsearch
  obtain ⟨hcheck, -, -, hnodup, -⟩ := hfound rfl
  exact ⟨_, hrun, hcheck, hnodup, rfl⟩

end RouteEngine
