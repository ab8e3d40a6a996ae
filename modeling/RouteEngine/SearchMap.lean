import RouteEngine.PathCheck
import RouteEngine.Library.CostMap

set_option autoImplicit false

/-! # The search in another arithmetic

Two graphs of one shape, whose weights act alike under a map of costs, are searched alike
(`search_map`): the two searches pop, skip, settle and relax in lockstep, so that status, path,
counters and failures are the same and the costs are images. Neither graph has to be built, and
no property of the heuristics is used but that they act alike. -/

namespace RouteEngine

open Digraph (CostMap ActsAs)

variable {F F' : Type}

/-! ## Images -/

def Entry.map (φ : F → F') (e : Entry F) : Entry F' := ⟨φ e.priority, e.node⟩

def SearchState.map (φ : F → F') (s : SearchState F) : SearchState F' where
  distance := s.distance.map φ
  parent := s.parent
  settled := s.settled
  queue := s.queue.map (Entry.map φ)
  stats := s.stats

theorem SearchState.push_map (φ : F → F') (s : SearchState F) (e : Entry F) :
    (s.map φ).push (e.map φ) = (s.push e).map φ := by
  simp [SearchState.push, SearchState.map]

def Round.map (φ : F → F') : Round F → Round F'
  | .exhausted => .exhausted
  | .stale e s => .stale (e.map φ) (s.map φ)
  | .expanded e s => .expanded (e.map φ) (s.map φ)
  | .reached e s => .reached (e.map φ) (s.map φ)

def SearchResult.map (φ : F → F') (result : SearchResult F) : SearchResult F' where
  status := result.status
  cost := φ result.cost
  path := result.path
  stats := result.stats

/-- The two calls fail alike, or both return and what they return acts alike. -/
def EstimatesAlike [Add F] [Add F'] (φ : F → F') : Outcome F → Outcome F' → Prop
  | .ok h, .ok h' => h' = φ h ∧ ActsAs φ h h'
  | .error e, .error e' => e' = e
  | _, _ => False

/-- The two arcs lead to one node, and their weights act alike. -/
def Arc.Alike [Add F] [Add F'] (φ : F → F') (arc : Arc F) (arc' : Arc F') : Prop :=
  arc'.target = arc.target ∧ ActsAs φ arc.weight arc'.weight

/-- Two graphs of one shape. -/
structure Graph.Alike [Add F] [Add F'] (φ : F → F') (g : Graph F) (g' : Graph F') : Prop where
  nodeCount : g'.nodeCount = g.nodeCount
  offsets : g'.offsets = g.offsets
  arcs : List.Forall₂ (Arc.Alike φ) g.arcs g'.arcs

theorem exists_mem_of_forall₂ {α β : Type} {R : α → β → Prop} {l : List α} {l' : List β}
    (h : List.Forall₂ R l l') {a : α} (ha : a ∈ l) : ∃ b ∈ l', R a b := by
  induction h with
  | nil => cases ha
  | @cons a' b' _ _ hab _ ih =>
      rcases List.mem_cons.mp ha with rfl | ha
      · exact ⟨b', List.mem_cons_self, hab⟩
      · obtain ⟨b, hb, hR⟩ := ih ha
        exact ⟨b, List.mem_cons_of_mem _ hb, hR⟩

section

variable [Add F] [Add F'] {φ : F → F'} {g : Graph F} {g' : Graph F'}

theorem Graph.Alike.contains_eq (h : g.Alike φ g') (v : NodeId) : g'.contains v = g.contains v := by
  have hcount := h.nodeCount
  unfold Graph.nodeCount at hcount
  rw [Graph.contains, Graph.contains, hcount]

theorem Graph.Alike.arcCount_eq (h : g.Alike φ g') : g'.arcCount = g.arcCount :=
  h.arcs.length_eq.symm

/-- The rows of a node are alike, or both calls of `arcs_from` fail alike. -/
theorem Graph.Alike.arcsFrom_cases (h : g.Alike φ g') (v : NodeId) :
    (∃ row row', g.arcsFrom v = .ok row ∧ g'.arcsFrom v = .ok row' ∧
      List.Forall₂ (Arc.Alike φ) row row') ∨
    ∃ e, g.arcsFrom v = .error e ∧ g'.arcsFrom v = .error e := by
  have hlength : g'.arcs.length = g.arcs.length := h.arcCount_eq
  unfold Graph.arcsFrom Graph.outOfRange
  rw [h.contains_eq, h.nodeCount, h.offsets, hlength]
  cases g.contains v with
  | false => exact .inr ⟨_, rfl, rfl⟩
  | true =>
      cases hbegin : subscript g.offsets v.toNat with
      | error e => exact .inr ⟨_, rfl, rfl⟩
      | ok rowBegin =>
          cases hend : subscript g.offsets (v.toNat + 1) with
          | error e => exact .inr ⟨_, rfl, rfl⟩
          | ok rowEnd =>
              by_cases hle : rowBegin.toNat + (rowEnd - rowBegin).toNat ≤ g.arcs.length
              · refine .inl ⟨(g.arcs.drop rowBegin.toNat).take (rowEnd - rowBegin).toNat,
                  (g'.arcs.drop rowBegin.toNat).take (rowEnd - rowBegin).toNat, ?_, ?_, ?_⟩
                · simp [hle]
                · simp [hle]
                · exact List.forall₂_take _ (List.forall₂_drop _ h.arcs)
              · refine .inr ⟨.undefinedBehavior, ?_, ?_⟩ <;> simp [hle]

/-- An arc of the first graph has a counterpart in the second. -/
theorem Graph.Alike.exists_arc (h : g.Alike φ g') {u v : NodeId} {w : F} (harc : g.HasArc u v w) :
    ∃ w', g'.HasArc u v w' ∧ ActsAs φ w w' := by
  obtain ⟨row₀, hrow₀, hmem⟩ := harc
  rcases h.arcsFrom_cases u with ⟨row, row', hrow, hrow', halike⟩ | ⟨e, hrow, -⟩
  · obtain rfl : row₀ = row := Except.ok.inj (hrow₀.symm.trans hrow)
    obtain ⟨⟨v', w'⟩, hmem', rfl, hacts⟩ := exists_mem_of_forall₂ halike hmem
    exact ⟨w', ⟨row', hrow', hmem'⟩, hacts⟩
  · rw [hrow₀] at hrow
    cases hrow

/-- An arc of the second graph has a counterpart in the first. -/
theorem Graph.Alike.exists_arc_back (h : g.Alike φ g') {u v : NodeId} {w' : F'}
    (harc : g'.HasArc u v w') : ∃ w, g.HasArc u v w ∧ ActsAs φ w w' := by
  obtain ⟨row₀, hrow₀, hmem⟩ := harc
  rcases h.arcsFrom_cases u with ⟨row, row', hrow, hrow', halike⟩ | ⟨e, -, hrow'⟩
  · obtain rfl : row₀ = row' := Except.ok.inj (hrow₀.symm.trans hrow')
    obtain ⟨⟨v', w⟩, hmem', hv, hacts⟩ := exists_mem_of_forall₂ halike.flip hmem
    obtain rfl : v = v' := hv
    exact ⟨w, ⟨row, hrow, hmem'⟩, hacts⟩
  · rw [hrow₀] at hrow'
    cases hrow'

/-- The walks of two graphs that are alike. -/
theorem Graph.Alike.walkCost_iff [Zero F] [Zero F'] (h : g.Alike φ g') (hzero : φ 0 = 0)
    {s v : NodeId} {c' : F'} :
    Digraph.WalkCost g'.HasArc s v c' ↔ ∃ c, Digraph.WalkCost g.HasArc s v c ∧ φ c = c' :=
  Digraph.walkCost_map_iff hzero (fun _ _ _ harc => h.exists_arc harc)
    (fun _ _ _ harc => h.exists_arc_back harc)

end

/-! ## Images of outcomes -/

theorem map_bind {α β γ : Type} (x : Outcome α) (k : α → Outcome β) (f : β → γ) :
    (x >>= k).map f = x >>= fun a => (k a).map f := by
  cases x <;> rfl

theorem bind_map_left {α β γ : Type} (x : Outcome α) (f : α → β) (k : β → Outcome γ) :
    (x.map f >>= k) = x >>= fun a => k (f a) := by
  cases x <;> rfl

theorem subscript_map {α β : Type} (f : α → β) (l : List α) (i : Nat) :
    subscript (l.map f) i = (subscript l i).map f := by
  unfold subscript
  rw [List.getElem?_map]
  cases l[i]? <;> rfl

theorem store_map {α β : Type} (f : α → β) (l : List α) (i : Nat) (a : α) :
    store (l.map f) i (f a) = (store l i a).map (List.map f) := by
  unfold store
  rw [List.length_map, ← List.map_set]
  split_ifs <;> rfl

/-! ## One round -/

section Rounds

variable [Zero F] [Top F] [Add F] [LT F] [DecidableLT F] [BEq F]
variable [Zero F'] [Top F'] [Add F'] [LT F'] [DecidableLT F'] [BEq F']
variable {φ : F → F'} (hφ : CostMap φ) {g : Graph F} {g' : Graph F'} (hg : g.Alike φ g')
variable {estimate : NodeId → Outcome F} {estimate' : NodeId → Outcome F'}
  (hest : ∀ v, EstimatesAlike φ (estimate v) (estimate' v))

include hφ

omit [Add F] [Add F'] in
theorem higherPriorityFirst_map (a b : Entry F) :
    higherPriorityFirst (a.map φ) (b.map φ) = higherPriorityFirst a b := by
  unfold higherPriorityFirst Entry.map bne
  simp only [hφ.beq_eq, gt_iff_lt, hφ.lt_iff]

include hest

omit hφ [Zero F] [Top F] [LT F] [DecidableLT F] [BEq F] [Zero F'] [Top F'] [LT F']
  [DecidableLT F'] [BEq F'] in
theorem estimate_cases (v : NodeId) :
    (∃ h h', estimate v = .ok h ∧ estimate' v = .ok h' ∧ h' = φ h ∧ ActsAs φ h h') ∨
      ∃ e, estimate v = .error e ∧ estimate' v = .error e := by
  have halike := hest v
  cases hv : estimate v with
  | ok h =>
      cases hv' : estimate' v with
      | ok h' =>
          rw [hv, hv'] at halike
          exact .inl ⟨h, h', rfl, rfl, halike⟩
      | error e' =>
          rw [hv, hv'] at halike
          exact halike.elim
  | error e =>
      cases hv' : estimate' v with
      | ok h' =>
          rw [hv, hv'] at halike
          exact halike.elim
      | error e' =>
          rw [hv, hv'] at halike
          exact .inr ⟨e, rfl, congrArg _ halike⟩

/-- One arc is scanned alike. -/
theorem relax_map (current : Nat) (d : F) (s : SearchState F) {arc : Arc F} {arc' : Arc F'}
    (harc : arc.Alike φ arc') :
    relax estimate' current (φ d) (s.map φ) arc'
      = (relax estimate current d s arc).map (SearchState.map φ) := by
  rcases harc with ⟨htarget, hacts⟩
  simp only [relax, htarget, map_bind]
  refine bind_congr fun settled => ?_
  cases settled with
  | true => rfl
  | false =>
      simp only [Bool.false_eq_true, if_false, map_bind]
      show subscript (s.countArc.distance.map φ) arc.target.toNat >>= _ = _
      rw [subscript_map, bind_map_left]
      refine bind_congr fun tentative => ?_
      rw [← hacts d]
      simp only [hφ.lt_iff]
      split_ifs with hlt
      swap
      · rfl
      simp only [map_bind]
      show store (s.countArc.distance.map φ) arc.target.toNat (φ (d + arc.weight)) >>= _ = _
      rw [store_map, bind_map_left]
      refine bind_congr fun distance => bind_congr fun parent => ?_
      -- the priorities are images of each other
      rcases estimate_cases hest arc.target with ⟨h, h', hh, hh', -, hacts'⟩ | ⟨e, hh, hh'⟩
      · simp only [ok_bind, hh, hh']
        rw [← hacts' (d + arc.weight)]
        exact congrArg Except.ok (SearchState.push_map φ
          (SearchState.countRelaxation { s.countArc with distance, parent })
          ⟨d + arc.weight + h, arc.target⟩)
      · simp only [error_bind, hh, hh']

/-- A row is scanned alike, by induction on the row. -/
theorem foldlM_relax_map (current : Nat) (d : F) {row : List (Arc F)} {row' : List (Arc F')}
    (hrow : List.Forall₂ (Arc.Alike φ) row row') (s : SearchState F) :
    row'.foldlM (relax estimate' current (φ d)) (s.map φ)
      = (row.foldlM (relax estimate current d) s).map (SearchState.map φ) := by
  induction hrow generalizing s with
  | nil => rfl
  | cons harc _ ih =>
      rw [List.foldlM_cons, List.foldlM_cons, relax_map hφ hest current d s harc, bind_map_left,
        map_bind]
      exact bind_congr fun s' => ih s'

include hg

/-- **One round**: the two searches pop entries of one node and do the same with it. -/
theorem searchRound_map (target : NodeId) (s : SearchState F) :
    searchRound g' target estimate' (s.map φ)
      = (searchRound g target estimate s).map (Round.map φ) := by
  have hpop : Comparison.popTop higherPriorityFirst (s.map φ).queue
      = (Comparison.popTop higherPriorityFirst s.queue).map
          (Prod.map (Entry.map φ) (List.map (Entry.map φ))) :=
    Comparison.popTop_map _ (higherPriorityFirst_map hφ) s.queue
  unfold searchRound
  rw [hpop]
  cases Comparison.popTop higherPriorityFirst s.queue with
  | none => rfl
  | some p =>
      rcases p with ⟨e, rest⟩
      simp only [Option.map_some, Prod.map, map_bind]
      refine bind_congr fun settled => ?_
      cases settled with
      | true => rfl
      | false =>
          simp only [Bool.false_eq_true, if_false, map_bind]
          refine bind_congr fun marked => ?_
          show (if e.node = target then _ else _) = _
          split_ifs with htarget
          · rfl
          · simp only [map_bind]
            show subscript (s.distance.map φ) e.node.toNat >>= _ = _
            rw [subscript_map, bind_map_left]
            refine bind_congr fun d => ?_
            rcases hg.arcsFrom_cases e.node with
              ⟨row, row', hrow, hrow', halike⟩ | ⟨err, hrow, hrow'⟩
            · show (g'.arcsFrom e.node >>= _) = _
              rw [hrow, hrow', ok_bind, ok_bind]
              show (row'.foldlM (relax estimate' e.node.toNat (φ d))
                (SearchState.map φ { (s.pop rest) with settled := marked }.countExpanded) >>= _) = _
              rw [foldlM_relax_map hφ hest _ _ halike, bind_map_left]
              rfl
            · show (g'.arcsFrom e.node >>= _) = _
              rw [hrow, hrow']
              rfl

/-- The main loops end alike, by induction on the fuel. -/
theorem searchLoop_map (target : NodeId) (fuel : Nat) (s : SearchState F) :
    searchLoop g' target estimate' fuel (s.map φ)
      = (searchLoop g target estimate fuel s).map (Prod.map id (SearchState.map φ)) := by
  induction fuel generalizing s with
  | zero => rfl
  | succ fuel ih =>
      rw [searchLoop, searchLoop, searchRound_map hφ hg hest, bind_map_left, map_bind]
      refine bind_congr fun round => ?_
      cases round with
      | exhausted => rfl
      | stale e s' => exact ih s'
      | expanded e s' => exact ih s'
      | reached e s' => rfl

omit [DecidableLT F] [DecidableLT F'] in
theorem searchStart_map (source : NodeId) :
    searchStart g' source estimate'
      = (searchStart g source estimate).map (SearchState.map φ) := by
  have hinitial : (SearchState.initial g'.nodeCount : SearchState F').distance
      = (SearchState.initial g.nodeCount : SearchState F).distance.map φ := by
    show List.replicate _ _ = List.map φ (List.replicate _ _)
    rw [List.map_replicate, hφ.top, hg.nodeCount]
  unfold searchStart
  dsimp only
  rw [hinitial, ← hφ.zero, store_map, bind_map_left, map_bind]
  refine bind_congr fun distance => ?_
  rcases estimate_cases hest source with ⟨h, h', hh, hh', rfl, -⟩ | ⟨e, hh, hh'⟩
  · simp only [hh, hh', ok_bind, hg.nodeCount]
    rfl
  · simp only [hh, hh', error_bind]
    rfl

/-- **The searches end alike**: with the same status, path and counters, and the image of the
cost; and where one fails, the other fails the same way. -/
theorem search_map (source target : NodeId) :
    search g' source target estimate'
      = (search g source target estimate).map (SearchResult.map φ) := by
  have hfuel : searchFuel g' = searchFuel g := by
    rw [searchFuel, searchFuel, hg.arcCount_eq]
  unfold search
  rw [searchStart_map hφ hg hest, bind_map_left, map_bind]
  refine bind_congr fun s => ?_
  rw [hfuel, searchLoop_map hφ hg hest, bind_map_left, map_bind]
  refine bind_congr fun p => ?_
  rcases p with ⟨reached, s'⟩
  cases reached with
  | false =>
      show (.ok _ : Outcome (SearchResult F')) = .ok _
      rw [SearchResult.map, hφ.top]
      rfl
  | true =>
      simp only [Bool.not_true, Bool.false_eq_true, if_false, map_bind]
      show subscript (s'.distance.map φ) target.toNat >>= _ = _
      rw [subscript_map, bind_map_left, hg.nodeCount]
      rfl

end Rounds

/-! ## The checker -/

def PathCheck.map (φ : F → F') (check : PathCheck F) : PathCheck F' :=
  ⟨check.valid, φ check.cost, check.reason⟩

/-- The first arc to a node is found at the same place. -/
theorem find?_alike [Add F] [Add F'] {φ : F → F'} (v : NodeId) {row : List (Arc F)}
    {row' : List (Arc F')} (hrow : List.Forall₂ (Arc.Alike φ) row row') :
    (∃ arc arc', row.find? (fun arc => arc.target = v) = some arc ∧
      row'.find? (fun arc => arc.target = v) = some arc' ∧ arc.Alike φ arc') ∨
    (row.find? (fun arc => arc.target = v) = none ∧
      row'.find? (fun arc => arc.target = v) = none) := by
  induction hrow with
  | nil => exact .inr ⟨rfl, rfl⟩
  | @cons arc arc' row row' harc _ ih =>
      rw [List.find?_cons, List.find?_cons, harc.1]
      by_cases hv : arc.target = v
      · exact .inl ⟨arc, arc', by simp [hv], by simp [hv], harc⟩
      · simpa [hv] using ih

section

variable [Add F] [Add F'] {φ : F → F'} {g : Graph F} {g' : Graph F'}

/-- A path is followed alike, by induction on the path. -/
theorem checkSteps_map (hg : g.Alike φ g') (path : List NodeId) (cost : F) :
    checkSteps g' path (φ cost) = (checkSteps g path cost).map (PathCheck.map φ) := by
  induction path generalizing cost with
  | nil => rfl
  | cons u path ih =>
      cases path with
      | nil => rfl
      | cons v path =>
          unfold checkSteps
          rcases hg.arcsFrom_cases u with ⟨row, row', hrow, hrow', halike⟩ | ⟨e, hrow, hrow'⟩
          · rw [hrow, hrow', ok_bind, ok_bind]
            rcases find?_alike v halike with ⟨arc, arc', hfind, hfind', harc⟩ | ⟨hfind, hfind'⟩
            · simp only [hfind, hfind']
              rw [← harc.2 cost]
              exact ih _
            · simp only [hfind, hfind']
              rfl
          · rw [hrow, hrow']
            rfl

/-- **The checker accepts the image of a result** as it accepts the result. -/
theorem checkPath_map [Zero F] [Zero F'] (hzero : φ 0 = 0) (hg : g.Alike φ g')
    (result : SearchResult F) (source target : NodeId) :
    checkPath g' (result.map φ) source target
      = (checkPath g result source target).map (PathCheck.map φ) := by
  unfold checkPath
  show (if !result.found then _ else if result.path.isEmpty then _
    else if result.path.head? ≠ some source then _
    else if result.path.getLast? ≠ some target then _ else checkSteps g' result.path 0) = _
  rw [← hzero, checkSteps_map hg]
  split_ifs <;> rfl

end

end RouteEngine
