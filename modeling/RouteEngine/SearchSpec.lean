import RouteEngine.Search
import RouteEngine.BuiltGraph
import RouteEngine.Library.BestFirst

set_option autoImplicit false

/-! # What one round of the search does

The vectors of the search are read through `label`, `parentOf` and `isSettled`. On vectors of
the right size the scan of an arc is the pure function `relaxed` (`relax_eq`), the scan of a
row is `scan`, and a round is one of the four cases of `searchRound_eq`. -/

namespace RouteEngine

variable {F : Type}

namespace SearchState

/-! ## Reading the vectors -/

/-- The tentative cost of a node. -/
def label [Top F] (s : SearchState F) (v : NodeId) : F := s.distance[v.toNat]?.getD ⊤

def isSettled (s : SearchState F) (v : NodeId) : Bool := s.settled[v.toNat]?.getD false

def parentOf (s : SearchState F) (v : NodeId) : NodeId := s.parent[v.toNat]?.getD kNoParent

/-- The vectors have an element for each of `n` nodes. -/
structure Sized (s : SearchState F) (n : Nat) : Prop where
  distance : s.distance.length = n
  parent : s.parent.length = n
  settled : s.settled.length = n

/-- The state after the tentative cost of `v` was lowered from `u`. -/
@[simps]
def improve (s : SearchState F) (u v : NodeId) (candidate : F) : SearchState F :=
  { s with distance := s.distance.set v.toNat candidate, parent := s.parent.set v.toNat u }

/-- The state after `u` was settled. -/
@[simps]
def settle (s : SearchState F) (u : NodeId) : SearchState F :=
  { s with settled := s.settled.set u.toNat true }

section

variable {s : SearchState F} {n : Nat} {u v x : NodeId}

theorem getElem?_set_toNat {α : Type} (l : List α) (a : α) (hv : v.toNat < l.length) :
    (l.set v.toNat a)[x.toNat]? = if x = v then some a else l[x.toNat]? := by
  by_cases hx : x = v
  · subst hx
    simp [hv]
  · have hne : v.toNat ≠ x.toNat := fun heq => hx (UInt32.toNat_inj.mp heq).symm
    rw [if_neg hx, List.getElem?_set_ne hne]

theorem label_improve [Top F] (hs : s.Sized n) (hv : v.toNat < n) (u : NodeId) (candidate : F) :
    (s.improve u v candidate).label x = if x = v then candidate else s.label x := by
  simp only [label, improve]
  rw [getElem?_set_toNat _ _ (by rw [hs.distance]; exact hv)]
  split <;> rfl

theorem parentOf_improve (hs : s.Sized n) (hv : v.toNat < n) (u : NodeId) (candidate : F) :
    (s.improve u v candidate).parentOf x = if x = v then u else s.parentOf x := by
  simp only [parentOf, improve]
  rw [getElem?_set_toNat _ _ (by rw [hs.parent]; exact hv)]
  split <;> rfl

theorem isSettled_settle (hs : s.Sized n) (hu : u.toNat < n) :
    (s.settle u).isSettled x = if x = u then true else s.isSettled x := by
  simp only [isSettled, settle]
  rw [getElem?_set_toNat _ _ (by rw [hs.settled]; exact hu)]
  split <;> rfl

theorem Sized.improve (hs : s.Sized n) (u v : NodeId) (candidate : F) :
    (s.improve u v candidate).Sized n :=
  ⟨by simp [hs.distance], by simp [hs.parent], hs.settled⟩

theorem Sized.settle (hs : s.Sized n) (u : NodeId) : (s.settle u).Sized n :=
  ⟨hs.distance, hs.parent, by simp [hs.settled]⟩

theorem Sized.subscript_label [Top F] (hs : s.Sized n) (hv : v.toNat < n) :
    subscript s.distance v.toNat = .ok (s.label v) := by
  rw [← hs.distance] at hv
  rw [subscript_eq_ok, label, List.getElem?_eq_getElem hv, Option.getD_some]

theorem Sized.subscript_parentOf (hs : s.Sized n) (hv : v.toNat < n) :
    subscript s.parent v.toNat = .ok (s.parentOf v) := by
  rw [← hs.parent] at hv
  rw [subscript_eq_ok, parentOf, List.getElem?_eq_getElem hv, Option.getD_some]

theorem Sized.subscript_isSettled (hs : s.Sized n) (hv : v.toNat < n) :
    subscript s.settled v.toNat = .ok (s.isSettled v) := by
  rw [← hs.settled] at hv
  rw [subscript_eq_ok, isSettled, List.getElem?_eq_getElem hv, Option.getD_some]

/-- A settled node is one of the `n` nodes. -/
theorem Sized.toNat_lt_of_isSettled (hs : s.Sized n) (hv : s.isSettled v = true) :
    v.toNat < n := by
  by_contra hlt
  rw [← hs.settled] at hlt
  simp [isSettled, List.getElem?_eq_none (not_lt.mp hlt)] at hv

theorem Sized.label_eq_top [Top F] (hs : s.Sized n) (hv : ¬ v.toNat < n) : s.label v = ⊤ := by
  rw [← hs.distance] at hv
  simp [label, List.getElem?_eq_none (not_lt.mp hv)]

end

/-! ## The scan of an arc -/

section

variable [Top F] [Add F] [LT F] [DecidableLT F]

/-- The state after an arc of `u` was scanned, where `d` is the cost of `u` and `h` the
heuristic. -/
def relaxed (h : NodeId → F) (u : NodeId) (d : F) (s : SearchState F) (arc : Arc F) :
    SearchState F :=
  if s.isSettled arc.target then s.countArc
  else if d + arc.weight < s.label arc.target then
    ((s.countArc.improve u arc.target (d + arc.weight)).countRelaxation).push
      ⟨d + arc.weight + h arc.target, arc.target⟩
  else s.countArc

/-- The state after the arcs `row` of `u` were scanned. -/
def scan (h : NodeId → F) (u : NodeId) (row : List (Arc F)) (s : SearchState F) :
    SearchState F :=
  row.foldl (relaxed h u (s.label u)) s

theorem Sized.relaxed {s : SearchState F} {n : Nat} (hs : s.Sized n) (h : NodeId → F)
    (u : NodeId) (d : F) (arc : Arc F) : (s.relaxed h u d arc).Sized n := by
  unfold SearchState.relaxed
  have hcount : s.countArc.Sized n := ⟨hs.distance, hs.parent, hs.settled⟩
  have himprove := hcount.improve u arc.target (d + arc.weight)
  split_ifs
  · exact hcount
  · exact ⟨himprove.distance, himprove.parent, himprove.settled⟩
  · exact hcount

end

end SearchState

open SearchState

theorem store_eq {α : Type} (l : List α) {i : Nat} (hi : i < l.length) (a : α) :
    store l i a = .ok (l.set i a) := by
  rw [store, if_pos hi]

variable [Top F] [Add F] [LT F] [DecidableLT F]
variable {estimate : NodeId → Outcome F} {h : NodeId → F}

theorem relax_eq {s : SearchState F} {n : Nat} (hs : s.Sized n) (u : NodeId) (d : F)
    {arc : Arc F} (hv : arc.target.toNat < n)
    (hest : estimate arc.target = .ok (h arc.target)) :
    relax estimate u.toNat d s arc = .ok (s.relaxed h u d arc) := by
  have hcount : s.countArc.Sized n := ⟨hs.distance, hs.parent, hs.settled⟩
  have hlabel : s.countArc.label arc.target = s.label arc.target := rfl
  have hsettled : s.countArc.isSettled arc.target = s.isSettled arc.target := rfl
  unfold relax SearchState.relaxed
  simp only [hcount.subscript_isSettled hv, hcount.subscript_label hv, hlabel, hsettled, ok_bind]
  split_ifs with hset hlt
  · rfl
  · rw [store_eq _ (by rw [hcount.distance]; exact hv)]
    simp only [ok_bind]
    rw [store_eq _ (by rw [countArc_parent, hs.parent]; exact hv)]
    simp only [ok_bind, hest, UInt32.ofNat_toNat]
    rfl
  · rfl

/-- **The inner loop** scans the row. -/
theorem foldlM_relax_eq {s : SearchState F} {n : Nat} (hs : s.Sized n) (u : NodeId)
    (row : List (Arc F)) (hrow : ∀ arc ∈ row, arc.target.toNat < n)
    (hest : ∀ arc ∈ row, estimate arc.target = .ok (h arc.target)) :
    row.foldlM (relax estimate u.toNat (s.label u)) s = .ok (s.scan h u row) :=
  (foldlM_eq_ok (fun s => s.Sized n) row
    (fun arc harc _ hs => ⟨relax_eq hs u _ (hrow arc harc) (hest arc harc),
      hs.relaxed h u _ arc⟩) s hs).1

/-- **One round of the main loop**, on vectors for the nodes of the graph. -/
theorem searchRound_eq [BEq F] {g : Graph F} (target : NodeId)
    {s : SearchState F} {row : NodeId → List (Arc F)} (hs : s.Sized g.nodeCount)
    (hqueue : ∀ e ∈ s.queue, g.contains e.node = true)
    (harcs : ∀ u, g.contains u = true → g.arcsFrom u = .ok (row u))
    (hrow : ∀ u, ∀ arc ∈ row u, g.contains arc.target = true)
    (hest : ∀ v, g.contains v = true → estimate v = .ok (h v)) :
    searchRound g target estimate s
      = match Comparison.popTop higherPriorityFirst s.queue with
        | none => .ok .exhausted
        | some (e, rest) =>
            if s.isSettled e.node then .ok (.stale e (s.pop rest).countStale)
            else if e.node = target then .ok (.reached e ((s.pop rest).settle e.node).countExpanded)
            else .ok (.expanded e
              (((s.pop rest).settle e.node).countExpanded.scan h e.node (row e.node))) := by
  unfold searchRound
  cases hpop : Comparison.popTop higherPriorityFirst s.queue with
  | none => rfl
  | some p =>
      obtain ⟨e, rest⟩ := p
      have hmem : e ∈ s.queue := (Comparison.mem_iff_of_popTop hpop e).mpr (Or.inl rfl)
      have he := hqueue e hmem
      have hlt := (g.contains_iff e.node).mp he
      have hpopped : (s.pop rest).Sized g.nodeCount := ⟨hs.distance, hs.parent, hs.settled⟩
      have hset : ((s.pop rest).settle e.node).Sized g.nodeCount := hpopped.settle e.node
      have hnext : ((s.pop rest).settle e.node).countExpanded.Sized g.nodeCount :=
        ⟨hset.distance, hset.parent, hset.settled⟩
      have hsettled : (s.pop rest).isSettled e.node = s.isSettled e.node := rfl
      simp only [hpopped.subscript_isSettled hlt, hsettled, ok_bind]
      -- a stale entry, the target, or a node to expand
      split_ifs with hstale htarget
      · rfl
      · rw [store_eq _ (by rw [hpopped.settled]; exact hlt)]
        rfl
      · rw [store_eq _ (by rw [hpopped.settled]; exact hlt)]
        simp only [ok_bind]
        have hlabel := hnext.subscript_label hlt
        have hfold := foldlM_relax_eq hnext e.node (row e.node)
          (fun arc harc => (g.contains_iff _).mp (hrow e.node arc harc))
          (fun arc harc => hest arc.target (hrow e.node arc harc))
        change (do
          let d ← subscript ((s.pop rest).settle e.node).countExpanded.distance e.node.toNat
          let arcs ← g.arcsFrom e.node
          let s ← arcs.foldlM (relax estimate e.node.toNat d)
            ((s.pop rest).settle e.node).countExpanded
          return Round.expanded e s) = _
        rw [hlabel, ok_bind, harcs e.node he, ok_bind, hfold]
        rfl

end RouteEngine
