import RouteEngine.Library.LazyQueue
import RouteEngine.Expansions
import RouteEngine.SearchSteps

set_option autoImplicit false

/-! # Lazy deletion against decrease-key

`searchInPlace` is the search that `search` stands for: its frontier holds one entry for every
open node and an improved node has its entry updated in place. `search` keeps superseded entries
in its queue instead and drops them when they surface; the two settle the same nodes in the same
order (`search_refines_inPlace`). -/

namespace RouteEngine

variable {F : Type}

/-! ## The reference search

The variables are those of `search`; `queue` is the frontier, and of the counters only
`nodesExpanded`, `arcsExamined` and `relaxations` mean something. -/

/-- The entry takes the place of the one of its node. -/
def SearchState.enter (s : SearchState F) (entry : Entry F) : SearchState F :=
  { s with queue := LazyQueue.update Entry.node s.queue entry }

section

variable [Zero F] [Top F] [Add F] [LT F] [DecidableLT F] [BEq F]

/-- Scan one arc of the node `current`. -/
def relaxArcInPlace (estimate : NodeId → Outcome F) (current : Nat) (currentDistance : F)
    (s : SearchState F) (arc : Arc F) : Outcome (SearchState F) := do
  let s := s.countArc
  let next := arc.target.toNat
  if ← subscript s.settled next then return s
  let candidate := currentDistance + arc.weight
  let tentative ← subscript s.distance next
  if candidate < tentative then
    let distance ← store s.distance next candidate
    let s := { s with distance }
    let parent ← store s.parent next (UInt32.ofNat current)
    let s := { s with parent }
    let s := s.countRelaxation
    let rest ← estimate arc.target
    return s.enter ⟨candidate + rest, arc.target⟩
  else return s

/-- Settle the first node of the frontier: its entry, whether it is the target, and the
variables afterwards. -/
def roundInPlace (g : Graph F) (target : NodeId) (estimate : NodeId → Outcome F)
    (s : SearchState F) : Outcome (Option (Entry F × Bool × SearchState F)) :=
  match Comparison.popTop higherPriorityFirst s.queue with
  | none => return none
  | some (entry, rest) => do
      let s := { s with queue := rest }
      let current := entry.node.toNat
      let settled ← store s.settled current true
      let s := { s with settled }
      let s := s.countExpanded
      if entry.node = target then return some (entry, true, s)
      let currentDistance ← subscript s.distance current
      let arcs ← g.arcsFrom entry.node
      let s ← arcs.foldlM (relaxArcInPlace estimate current currentDistance) s
      return some (entry, false, s)

/-- Whether the target was settled, the nodes in the order in which they were, and the variables
at the end. -/
def loopInPlace (g : Graph F) (target : NodeId) (estimate : NodeId → Outcome F) :
    Nat → SearchState F → Outcome (Bool × List NodeId × SearchState F)
  | 0, _ => throw .diverged
  | fuel + 1, s => do
      match ← roundInPlace g target estimate s with
      | none => return (false, [], s)
      | some (entry, true, s') => return (true, [entry.node], s')
      | some (entry, false, s') =>
          let (reached, order, s'') ← loopInPlace g target estimate fuel s'
          return (reached, entry.node :: order, s'')

/-- The reference search, and the order in which it settles nodes. -/
def searchInPlace (g : Graph F) (source target : NodeId) (estimate : NodeId → Outcome F) :
    Outcome (SearchResult F × List NodeId) := do
  let s ← searchStart g source estimate
  let (reached, order, s) ← loopInPlace g target estimate (g.nodeCount + 1) s
  if !reached then
    return ({ status := .unreachable, cost := ⊤, path := [], stats := s.stats }, order)
  let cost ← subscript s.distance target.toNat
  let path ← walkBack s.parent source (g.nodeCount + 1) target
  return ({ status := .found, cost, path := path.reverse, stats := s.stats }, order)

/-- `RoundsInPlace g target estimate r order r'`: rounds of the reference search that do not end
it lead from `r` to `r'` and settle the nodes `order`. -/
inductive RoundsInPlace (g : Graph F) (target : NodeId) (estimate : NodeId → Outcome F) :
    SearchState F → List NodeId → SearchState F → Prop
  | refl (r : SearchState F) : RoundsInPlace g target estimate r [] r
  | settle {r r' t : SearchState F} {entry : Entry F} {order : List NodeId} :
      roundInPlace g target estimate r = .ok (some (entry, false, r')) →
      RoundsInPlace g target estimate r' order t →
      RoundsInPlace g target estimate r (entry.node :: order) t

omit [Zero F] [Top F] in
/-- The loop goes through every run. -/
theorem RoundsInPlace.loopInPlace_eq {g : Graph F} {target : NodeId}
    {estimate : NodeId → Outcome F} {r t final : SearchState F} {order last : List NodeId}
    {fuel : Nat} {reached : Bool} (hrun : RoundsInPlace g target estimate r order t)
    (hlast : loopInPlace g target estimate fuel t = .ok (reached, last, final)) :
    loopInPlace g target estimate (order.length + fuel) r
      = .ok (reached, order ++ last, final) := by
  induction hrun with
  | refl r => simpa using hlast
  | @settle r r' t entry order hround _ ih =>
      have hlen : (entry.node :: order).length + fuel = (order.length + fuel) + 1 := by
        rw [List.length_cons]
        omega
      rw [hlen, loopInPlace, hround, ok_bind]
      simp only [ih hlast, ok_bind]
      rfl

end

/-! ## One step of each

The scan of an arc and the round as pure functions on vectors of the right size. -/

namespace SearchState

/-- The state of the reference search after it settled a node. -/
def openedInPlace (r : SearchState F) (e : Entry F) (rest : List (Entry F)) : SearchState F :=
  ({ r with queue := rest }.settle e.node).countExpanded

section

variable [Top F] [Add F] [LT F] [DecidableLT F]

/-- The state of the reference search after an arc of `u` was scanned. -/
def relaxedInPlace (h : NodeId → F) (u : NodeId) (d : F) (s : SearchState F) (arc : Arc F) :
    SearchState F :=
  if s.isSettled arc.target then s.countArc
  else if d + arc.weight < s.label arc.target then
    ((s.countArc.improve u arc.target (d + arc.weight)).countRelaxation).enter
      ⟨d + arc.weight + h arc.target, arc.target⟩
  else s.countArc

theorem Sized.relaxedInPlace {s : SearchState F} {n : Nat} (hs : s.Sized n) (h : NodeId → F)
    (u : NodeId) (d : F) (arc : Arc F) : (s.relaxedInPlace h u d arc).Sized n := by
  unfold SearchState.relaxedInPlace
  have hcount : s.countArc.Sized n := ⟨hs.distance, hs.parent, hs.settled⟩
  have himprove := hcount.improve u arc.target (d + arc.weight)
  split_ifs
  · exact hcount
  · exact ⟨himprove.distance, himprove.parent, himprove.settled⟩
  · exact hcount

theorem relaxArcInPlace_eq {s : SearchState F} {n : Nat} {estimate : NodeId → Outcome F}
    {h : NodeId → F} (hs : s.Sized n) (u : NodeId) (d : F) {arc : Arc F}
    (hv : arc.target.toNat < n) (hest : estimate arc.target = .ok (h arc.target)) :
    relaxArcInPlace estimate u.toNat d s arc = .ok (s.relaxedInPlace h u d arc) := by
  have hcount : s.countArc.Sized n := ⟨hs.distance, hs.parent, hs.settled⟩
  have hlabel : s.countArc.label arc.target = s.label arc.target := rfl
  have hsettled : s.countArc.isSettled arc.target = s.isSettled arc.target := rfl
  unfold relaxArcInPlace SearchState.relaxedInPlace
  simp only [hcount.subscript_isSettled hv, hcount.subscript_label hv, hlabel, hsettled, ok_bind]
  split_ifs with hset hlt
  · rfl
  · rw [store_eq _ (by rw [hcount.distance]; exact hv)]
    simp only [ok_bind]
    rw [store_eq _ (by rw [countArc_parent, hs.parent]; exact hv)]
    simp only [ok_bind, hest, UInt32.ofNat_toNat]
    rfl
  · rfl

end

end SearchState

/-- Two entries of which neither is served after the other are the same. -/
theorem higherPriorityFirst_separates [LinearOrder F] (a b : Entry F)
    (hab : higherPriorityFirst a b = false) (hba : higherPriorityFirst b a = false) : a = b := by
  unfold higherPriorityFirst at hab hba
  by_cases hp : a.priority = b.priority
  · simp only [hp, bne_self_eq_false, Bool.false_eq_true, if_false, decide_eq_false_iff_not,
      gt_iff_lt, UInt32.not_lt] at hab hba
    cases a
    cases b
    rw [Entry.mk.injEq]
    exact ⟨hp, UInt32.le_antisymm hab hba⟩
  · have hp' : b.priority ≠ a.priority := fun heq => hp heq.symm
    simp only [bne_iff_ne, ne_eq, hp, hp', not_false_eq_true, if_true, decide_eq_false_iff_not,
      gt_iff_lt, not_lt] at hab hba
    exact absurd (le_antisymm hab hba) hp

/-! ## The simulation -/

/-- The frontier holds the entry of every open node, and no other. -/
structure SearchState.OneEntryPerNode [Top F] [Add F] (h : NodeId → F) (r : SearchState F) :
    Prop where
  nodup : (r.queue.map Entry.node).Nodup
  mem_iff : ∀ e, e ∈ r.queue ↔ r.label e.node ≠ ⊤ ∧ r.isSettled e.node = false ∧
    e.priority = r.label e.node + h e.node

/-- `r` is the state of the reference search when the search itself is in `s`. -/
structure SearchState.Simulates [LT F] [DecidableLT F] [BEq F] [Top F] [Add F] (h : NodeId → F)
    (s r : SearchState F) : Prop where
  distance : r.distance = s.distance
  parent : r.parent = s.parent
  settled : r.settled = s.settled
  nodesExpanded : r.stats.nodesExpanded = s.stats.nodesExpanded
  arcsExamined : r.stats.arcsExamined = s.stats.arcsExamined
  relaxations : r.stats.relaxations = s.stats.relaxations
  frontier : LazyQueue.Refines higherPriorityFirst Entry.node (fun v => s.isSettled v = true)
    s.queue r.queue
  exact : ∀ e ∈ r.queue, e.priority = s.label e.node + h e.node

namespace SearchState.Simulates

variable [LinearOrder F] [OrderTop F] [Add F] {h : NodeId → F} {s r : SearchState F} {n : Nat}
variable {u : NodeId} {d : F} {arc : Arc F}

theorem label_eq (hsim : s.Simulates h r) (v : NodeId) : r.label v = s.label v := by
  rw [SearchState.label, hsim.distance, SearchState.label]

theorem isSettled_eq (hsim : s.Simulates h r) (v : NodeId) : r.isSettled v = s.isSettled v := by
  rw [SearchState.isSettled, hsim.settled, SearchState.isSettled]

theorem sized (hsim : s.Simulates h r) (hs : s.Sized n) : r.Sized n :=
  ⟨hsim.distance ▸ hs.distance, hsim.parent ▸ hs.parent, hsim.settled ▸ hs.settled⟩

/-- The reference search holds one entry for each open node. -/
theorem oneEntryPerNode {g : Graph F} (hsim : s.Simulates h r) (hf : s.Frontier h g) :
    r.OneEntryPerNode h := by
  refine ⟨hsim.frontier.names, fun e => ?_⟩
  rw [hsim.label_eq, hsim.isSettled_eq]
  constructor
  · intro he
    refine ⟨hf.labelled e (hsim.frontier.mem e he), ?_, hsim.exact e he⟩
    exact Bool.not_eq_true _ ▸ hsim.frontier.alive e he
  · rintro ⟨hlabel, hopen, hprio⟩
    -- the exact entry of the node is in the queue, and the frontier has one that is no worse
    rcases hsim.frontier.superseded _ (hf.entry e.node hlabel hopen) with hdead | ⟨a, ha, hn, -⟩
    · rw [hopen] at hdead
      cases hdead
    · have hae : a = e := by
        have hpa := hsim.exact a ha
        have hnode : a.node = e.node := hn
        rw [hnode, ← hprio] at hpa
        cases a
        cases e
        rw [Entry.mk.injEq]
        exact ⟨hpa, hnode⟩
      exact hae ▸ ha

/-- **The scan of an arc** keeps the two in step: an improved entry is put in the place of the
old one here, and before it there. -/
theorem relaxed (hstrict : ∀ v a b, a < b → a + h v < b + h v) (hsim : s.Simulates h r)
    (hs : s.Sized n) (hv : arc.target.toNat < n) :
    (s.relaxed h u d arc).Simulates h (r.relaxedInPlace h u d arc) := by
  have hcount : s.countArc.Simulates h r.countArc :=
    ⟨hsim.distance, hsim.parent, hsim.settled, hsim.nodesExpanded,
      congrArg (· + 1) hsim.arcsExamined, hsim.relaxations, hsim.frontier, hsim.exact⟩
  have hcounted : s.countArc.Sized n := ⟨hs.distance, hs.parent, hs.settled⟩
  unfold SearchState.relaxed SearchState.relaxedInPlace
  rw [hsim.label_eq, hsim.isSettled_eq]
  split_ifs with hset hlt
  · exact hcount
  · have halive : ¬ s.isSettled arc.target = true := hset
    have hlabel := fun v => SearchState.label_improve (x := v) hcounted hv u (d + arc.weight)
    constructor
    · exact congrArg (·.set arc.target.toNat (d + arc.weight)) hsim.distance
    · exact congrArg (·.set arc.target.toNat u) hsim.parent
    · exact hsim.settled
    · exact hsim.nodesExpanded
    · exact congrArg (· + 1) hsim.arcsExamined
    · exact congrArg (· + 1) hsim.relaxations
    · refine hsim.frontier.push weak_higherPriorityFirst halive fun b hb hnode => ?_
      have hprio := hsim.exact b hb
      have hless := hstrict arc.target _ _ hlt
      have hbnode : b.node = arc.target := hnode
      rw [hbnode] at hprio
      rw [← hprio] at hless
      simp [higherPriorityFirst, hless, hless.ne']
    · intro e he
      show e.priority = (s.countArc.improve u arc.target (d + arc.weight)).label e.node + h e.node
      rw [hlabel]
      rcases LazyQueue.mem_update.mp he with rfl | ⟨he, hne⟩
      · rw [if_pos rfl]
      · rw [if_neg hne]
        exact hsim.exact e he
  · exact hcount

/-- **The scan of a row**, by induction on its arcs. -/
theorem scan (hstrict : ∀ v a b, a < b → a + h v < b + h v) {row : List (Arc F)} :
    ∀ {s r : SearchState F}, s.Simulates h r → s.Sized n →
      (∀ arc ∈ row, arc.target.toNat < n) →
      (row.foldl (SearchState.relaxed h u d) s).Simulates h
        (row.foldl (SearchState.relaxedInPlace h u d) r) := by
  induction row with
  | nil => exact fun hsim _ _ => hsim
  | cons arc row ih =>
      intro s r hsim hs hrow
      have hv := hrow arc List.mem_cons_self
      exact ih (hsim.relaxed hstrict hs hv) (hs.relaxed h u d arc)
        (fun a ha => hrow a (List.mem_cons_of_mem arc ha))

/-- Dropping an entry of a settled node is no step of the reference search. -/
theorem discard (hsim : s.Simulates h r) {e : Entry F} {rest : List (Entry F)}
    (hpop : Comparison.popTop higherPriorityFirst s.queue = some (e, rest))
    (hset : s.isSettled e.node = true) : (s.pop rest).countStale.Simulates h r :=
  ⟨hsim.distance, hsim.parent, hsim.settled, hsim.nodesExpanded, hsim.arcsExamined,
    hsim.relaxations, hsim.frontier.drop hpop hset, hsim.exact⟩

/-- **Both pop the same entry** where its node is open. -/
theorem opened (hsim : s.Simulates h r) (hs : s.Sized n) {e : Entry F} {rest : List (Entry F)}
    (hpop : Comparison.popTop higherPriorityFirst s.queue = some (e, rest))
    (hopen : s.isSettled e.node = false) (hv : e.node.toNat < n) :
    ∃ rest', Comparison.popTop higherPriorityFirst r.queue = some (e, rest') ∧
      (s.opened e rest).Simulates h (r.openedInPlace e rest') := by
  have hpopped : (s.pop rest).Sized n := ⟨hs.distance, hs.parent, hs.settled⟩
  have hsettled : ∀ v, (s.opened e rest).isSettled v = true
      ↔ s.isSettled v = true ∨ v = e.node := by
    intro v
    show ((s.pop rest).settle e.node).isSettled v = true ↔ _
    rw [SearchState.isSettled_settle hpopped hv]
    have hsame : (s.pop rest).isSettled v = s.isSettled v := rfl
    rw [hsame]
    split_ifs with hve
    · simp [hve]
    · simp [hve]
  rcases hsim.frontier.pop weak_higherPriorityFirst higherPriorityFirst_separates hpop
      (by rw [hopen]; exact Bool.false_ne_true) hsettled with ⟨rest', hpop', hrefines⟩
  refine ⟨rest', hpop', hsim.distance, hsim.parent, ?_, congrArg (· + 1) hsim.nodesExpanded,
    hsim.arcsExamined, hsim.relaxations, hrefines, fun a ha => ?_⟩
  · exact congrArg (·.set e.node.toNat true) hsim.settled
  · exact hsim.exact a ((Comparison.mem_iff_of_popTop hpop' a).mpr (Or.inr ha))

end SearchState.Simulates

/-! ## Whole runs -/

section

variable [LinearOrder F] [OrderTop F] [Zero F] [Add F] [Div F]
variable {distance : Coord F → Coord F → F} {g : Graph F} {staged : List (StagedArc F)}
variable {source target : NodeId} {estimate : NodeId → Outcome F} {h : NodeId → F}
variable {s t r : SearchState F} {closed : List NodeId} {es : List (Expansion F)}

/-- The state of the reference search after the node of an entry was expanded. -/
def SearchState.expandInPlace (h : NodeId → F) (staged : List (StagedArc F)) (r : SearchState F)
    (e : Entry F) (rest : List (Entry F)) : SearchState F :=
  (rowOf staged e.node).foldl (SearchState.relaxedInPlace h e.node (r.label e.node))
    (r.openedInPlace e rest)

/-- A round of the reference search that settles a node. -/
theorem roundInPlace_eq (hg : g.OverArcs distance staged)
    (hest : ∀ v, g.contains v = true → estimate v = .ok (h v)) (hr : r.Sized g.nodeCount)
    {e : Entry F} {rest : List (Entry F)} (he : g.contains e.node = true)
    (hpop : Comparison.popTop higherPriorityFirst r.queue = some (e, rest)) :
    roundInPlace g target estimate r = .ok (some (
      if e.node = target then (e, true, r.openedInPlace e rest)
      else (e, false, r.expandInPlace h staged e rest))) := by
  have hlt := (g.contains_iff e.node).mp he
  have hset : (r.openedInPlace e rest).Sized g.nodeCount := by
    refine ⟨hr.distance, hr.parent, ?_⟩
    show (r.settled.set e.node.toNat true).length = g.nodeCount
    rw [List.length_set, hr.settled]
  have hfold := (foldlM_eq_ok (fun r : SearchState F => r.Sized g.nodeCount) (rowOf staged e.node)
    (fun arc harc r' hr' => ⟨SearchState.relaxArcInPlace_eq hr' e.node (r.label e.node)
      ((g.contains_iff _).mp (hg.row_contains harc)) (hest arc.target (hg.row_contains harc)),
      hr'.relaxedInPlace h e.node (r.label e.node) arc⟩) _ hset).1
  unfold roundInPlace
  rw [hpop]
  dsimp only
  rw [store_eq _ (by rw [hr.settled]; exact hlt), ok_bind]
  split_ifs with htarget
  · rfl
  · have hlabel := hset.subscript_label hlt
    show (do
      let d ← subscript (r.openedInPlace e rest).distance e.node.toNat
      let arcs ← g.arcsFrom e.node
      let s ← arcs.foldlM (relaxArcInPlace estimate e.node.toNat d) (r.openedInPlace e rest)
      return some (e, false, s)) = _
    rw [hlabel, ok_bind, hg.arcsFrom_eq he, ok_bind]
    show (do
      let s ← (rowOf staged e.node).foldlM
        (relaxArcInPlace estimate e.node.toNat (r.label e.node)) (r.openedInPlace e rest)
      return some (e, false, s)) = _
    rw [hfold]
    rfl

/-- **A round that settles a node** settles it in both, and both end alike. -/
theorem SearchState.Simulates.expand (hg : g.OverArcs distance staged)
    (hstrict : ∀ v a b, a < b → a + h v < b + h v) (hsim : s.Simulates h r)
    (hinv : SearchInv g source target h s closed) {e : Entry F} {rest : List (Entry F)}
    (hpop : Comparison.popTop higherPriorityFirst s.queue = some (e, rest))
    (hopen : s.isSettled e.node = false) :
    ∃ rest', Comparison.popTop higherPriorityFirst r.queue = some (e, rest') ∧
      (s.opened e rest).Simulates h (r.openedInPlace e rest') ∧
      (s.expand h staged e rest).Simulates h (r.expandInPlace h staged e rest') := by
  have he := hinv.frontier.contains e ((Comparison.mem_iff_of_popTop hpop e).mpr (Or.inl rfl))
  have hlt := (g.contains_iff e.node).mp he
  rcases hsim.opened hinv.sized hpop hopen hlt with ⟨rest', hpop', hsim'⟩
  refine ⟨rest', hpop', hsim', ?_⟩
  have hset : (s.opened e rest).Sized g.nodeCount := by
    refine ⟨hinv.sized.distance, hinv.sized.parent, ?_⟩
    show (s.settled.set e.node.toNat true).length = g.nodeCount
    rw [List.length_set, hinv.sized.settled]
  unfold SearchState.expandInPlace
  rw [hsim.label_eq]
  exact hsim'.scan hstrict hset fun arc harc => (g.contains_iff _).mp (hg.row_contains harc)

variable [AddLeftMono F] [AddRightMono F] [WeightArith F]

/-- **The reference search follows every run**, one round for each expansion. -/
theorem Rounds.inPlace (hg : g.OverArcs distance staged)
    (hest : ∀ v, g.contains v = true → estimate v = .ok (h v)) (hh : ∀ v, 0 ≤ h v)
    (hstrict : ∀ v a b, a < b → a + h v < b + h v)
    (hrun : Rounds g target estimate s es t) (hinv : SearchInv g source target h s closed)
    (hsim : s.Simulates h r) :
    ∃ r', RoundsInPlace g target estimate r (es.map Expansion.node) r' ∧ t.Simulates h r' := by
  induction hrun generalizing closed r with
  | refl s => exact ⟨r, .refl r, hsim⟩
  | @stale s s' t e es hround _ ih =>
      rcases hinv.of_stale hg hest hh hround with ⟨hnext, -⟩
      rcases hinv.cases_of_stale hg hest hround with ⟨rest, hpop, hset, rfl⟩
      exact ih hnext (hsim.discard hpop hset)
  | @expanded s s' t e es hround _ ih =>
      rcases hinv.of_expanded hg hest hh hround with ⟨hchoose, hnext, -⟩
      rcases hinv.cases_of_expanded hg hest hround with ⟨rest, hpop, hopen, hne, rfl⟩
      rcases hsim.expand hg hstrict hinv hpop hopen with ⟨rest', hpop', -, hnextsim⟩
      rcases ih hnext hnextsim with ⟨r', hrun', hend⟩
      refine ⟨r', .settle ?_ hrun', hend⟩
      rw [roundInPlace_eq hg hest (hsim.sized hinv.sized) hchoose.contains hpop', if_neg hne]

omit [Div F] [AddLeftMono F] [AddRightMono F] [WeightArith F] in
theorem SearchState.Simulates.started (n : Nat) (source : NodeId) (h : NodeId → F)
    (hn : source.toNat < n) (hsource : 0 + h source = h source) :
    (SearchState.started n source h).Simulates h (SearchState.started n source h) where
  distance := rfl
  parent := rfl
  settled := rfl
  nodesExpanded := rfl
  arcsExamined := rfl
  relaxations := rfl
  frontier := by
    refine .singleton (weak_higherPriorityFirst.irrefl trivial) ?_
    rw [SearchState.isSettled_started]
    exact Bool.false_ne_true
  exact e he := by
    obtain rfl : e = ⟨h source, source⟩ := List.mem_singleton.mp he
    rw [SearchState.label_started hn, if_pos rfl, hsource]

/-- **Both loops end alike.** -/
theorem SearchInv.loopInPlace_eq (hg : g.OverArcs distance staged)
    (hest : ∀ v, g.contains v = true → estimate v = .ok (h v)) (hh : ∀ v, 0 ≤ h v)
    (hstrict : ∀ v a b, a < b → a + h v < b + h v)
    (hinv : SearchInv g source target h s []) (hsim : s.Simulates h r) {fuel : Nat}
    (hfuel : s.remaining staged < fuel) :
    ∃ reached t r', searchLoop g target estimate fuel s = .ok (reached, t) ∧
      loopInPlace g target estimate (g.nodeCount + 1) r
        = .ok (reached, (settlingPops g target estimate fuel s).map Expansion.node, r') ∧
      t.Simulates h r' := by
  rcases hinv.run hg hest hh hfuel with ⟨es, t, hrun, hend⟩
  rcases hrun.keeps hg hest hh hinv with ⟨hinv', -, -⟩
  rcases hrun.inPlace hg hest hh hstrict hinv hsim with ⟨r', hrun', hsim'⟩
  rw [List.append_nil] at hinv' hend
  -- no node is settled twice, so a round of the fuel is left
  have hlen : es.length ≤ g.nodeCount := by
    have hle := length_le_nodeCount hinv'.explored.nodup (fun v hv => hinv'.contains_of_mem hv)
    simpa [SearchState.toBestFirst] using hle
  have hleft : g.nodeCount + 1
      = (es.map Expansion.node).length + (g.nodeCount - es.length + 1) := by
    rw [List.length_map]
    omega
  rw [hleft]
  rcases hend with ⟨hloop, -, hqueue, hpops⟩ | ⟨e, rest, hloop, hlast, hchoose, htarget, hpops⟩
  · refine ⟨false, t, r', hloop, ?_, hsim'⟩
    have hempty : r'.queue = [] := (hqueue ▸ hsim'.frontier).frontier_eq_nil
    have hround : roundInPlace g target estimate r' = .ok none := by
      rw [roundInPlace, hempty]
      rfl
    have hfinal : loopInPlace g target estimate (g.nodeCount - es.length + 1) r'
        = .ok (false, [], r') := by
      rw [loopInPlace, hround]
      rfl
    rw [hrun'.loopInPlace_eq hfinal, List.append_nil, hpops]
  · rcases hinv'.cases_of_reached hg hest hlast with ⟨hpop, hopen, -, -⟩
    rcases hsim'.expand hg hstrict hinv' hpop hopen with ⟨rest'', hpop', hsim'', -⟩
    refine ⟨true, _, r'.openedInPlace e rest'', hloop, ?_, hsim''⟩
    have hround : roundInPlace g target estimate r' = _ :=
      roundInPlace_eq hg hest (hsim'.sized hinv'.sized) hchoose.contains hpop'
    rw [if_pos htarget] at hround
    rw [hpops, List.map_append]
    apply hrun'.loopInPlace_eq
    rw [loopInPlace, hround]
    rfl

end

/-- What the two searches make of loops that end alike. -/
theorem searchInPlace_eq_of_loop [Zero F] [Top F] [Add F] [LT F] [DecidableLT F] [BEq F]
    {g : Graph F} {source target : NodeId} {estimate : NodeId → Outcome F}
    {s₀ t r : SearchState F} {reached : Bool} {order : List NodeId} {result : SearchResult F}
    (hstart : searchStart g source estimate = .ok s₀)
    (hloop : searchLoop g target estimate (searchFuel g) s₀ = .ok (reached, t))
    (hloop' : loopInPlace g target estimate (g.nodeCount + 1) s₀ = .ok (reached, order, r))
    (hdistance : r.distance = t.distance) (hparent : r.parent = t.parent)
    (hsearch : search g source target estimate = .ok result) :
    searchInPlace g source target estimate = .ok ({ result with stats := r.stats }, order) := by
  rw [search, hstart, ok_bind, hloop, ok_bind] at hsearch
  rw [searchInPlace, hstart, ok_bind, hloop', ok_bind]
  cases reached with
  | false =>
      obtain rfl := Except.ok.inj hsearch
      rfl
  | true =>
      obtain ⟨cost, hcost, hsearch⟩ := bind_eq_ok.mp hsearch
      obtain ⟨path, hpath, hsearch⟩ := bind_eq_ok.mp hsearch
      obtain rfl := Except.ok.inj hsearch
      simp only [hdistance, hparent, hcost, hpath, ok_bind, Bool.not_true, Bool.false_eq_true,
        if_false]
      rfl

/-! ## The refinement -/

/-- The search and the reference search, side by side, where the loop of the search is in `s`. -/
structure InStep {F : Type} [LinearOrder F] [Zero F] [Top F] [Add F] (g : Graph F)
    (target : NodeId) (estimate : NodeId → Outcome F) (h : NodeId → F) (s r : SearchState F) :
    Prop where
  /-- the frontier of the reference search is the set of open nodes -/
  frontier : r.OneEntryPerNode h
  distance : r.distance = s.distance
  parent : r.parent = s.parent
  settled : r.settled = s.settled
  /-- no entry is in the queue twice -/
  nodup : s.queue.Nodup
  /-- an open node has an exact entry, which is the first of its entries -/
  entry : ∀ v, s.label v ≠ ⊤ → s.isSettled v = false →
    (⟨s.label v + h v, v⟩ : Entry F) ∈ s.queue ∧
      ∀ e ∈ s.queue, e.node = v → s.label v + h v ≤ e.priority
  /-- what is skipped as stale belongs to a settled node -/
  stale : ∀ e s', searchRound g target estimate s = .ok (.stale e s') → s.isSettled e.node = true

/-- **Lazy deletion refines decrease-key.** The search settles the nodes that the reference
search settles, in its order, and returns its status, cost, path and counters; at every turn of
the main loop the two are in step. -/
theorem search_refines_inPlace {K : Type} [Field K] [LinearOrder K] [IsStrictOrderedRing K]
    (distance : Coord (WithTop K) → Coord (WithTop K) → WithTop K)
    (std : Comparison.Sorter (GraphBuilder.stagedBefore (F := WithTop K)))
    (g : Graph (WithTop K)) (hg : g.Built distance std) (source target : NodeId)
    (hs : g.contains source = true) (ht : g.contains target = true)
    (estimate : NodeId → Outcome (WithTop K)) (h : NodeId → WithTop K)
    (hest : ∀ v, g.contains v = true → estimate v = .ok (h v)) (hh : ∀ v, 0 ≤ h v)
    (hfinite : ∀ v, h v ≠ ⊤) :
    ∃ s₀ result reference order, searchStart g source estimate = .ok s₀ ∧
      search g source target estimate = .ok result ∧
      searchInPlace g source target estimate = .ok (reference, order) ∧
      (expansions g source target estimate).map Expansion.node = order ∧
      result.status = reference.status ∧ result.cost = reference.cost ∧
      result.path = reference.path ∧
      result.stats.nodesExpanded = reference.stats.nodesExpanded ∧
      result.stats.arcsExamined = reference.stats.arcsExamined ∧
      result.stats.relaxations = reference.stats.relaxations ∧
      ∀ es s, Rounds g target estimate s₀ es s →
        ∃ r, RoundsInPlace g target estimate s₀ (es.map Expansion.node) r ∧
          InStep g target estimate h s r := by
  rcases hg.exists_overArcs with ⟨staged, hover⟩
  have hstrict : ∀ v a b, a < b → a + h v < b + h v :=
    fun v a b hab => WithTop.add_lt_add_right (hfinite v) hab
  have hbegin : searchStart g source estimate = .ok _ := searchStart_eq hs hest
  have hstart := SearchInv.start (h := h) target hs WithTop.zero_ne_top (zero_add _)
  have hsim := SearchState.Simulates.started g.nodeCount source h
    ((g.contains_iff source).mp hs) (zero_add _)
  rcases search_outcome hover hest hh hs ht WithTop.zero_ne_top (zero_add _) with
    ⟨-, -, result, -, -, hsearch, -⟩
  rcases hstart.loopInPlace_eq hover hest hh hstrict hsim
    (hover.remaining_lt_searchFuel source h) with ⟨reached, t, r, hloop, hloop', hend⟩
  rcases search_eq_of_loop hbegin hloop hsearch with ⟨hstats, -⟩
  have hreference := searchInPlace_eq_of_loop hbegin hloop hloop' hend.distance hend.parent hsearch
  refine ⟨_, result, _, _, hbegin, hsearch, hreference, ?_, rfl, rfl, rfl, ?_, ?_, ?_,
    fun es s hrun => ?_⟩
  · rw [expansions, hbegin]
  · rw [hstats, hend.nodesExpanded]
  · rw [hstats, hend.arcsExamined]
  · rw [hstats, hend.relaxations]
  · -- a state in the middle of a run
    rcases hrun.keeps hover hest hh hstart with ⟨hinv, -, -⟩
    rcases hrun.inPlace hover hest hh hstrict hstart hsim with ⟨r, hrun', hsim'⟩
    refine ⟨r, hrun', hsim'.oneEntryPerNode hinv.frontier, hsim'.distance, hsim'.parent,
      hsim'.settled, hsim'.frontier.nodup, fun v hv hopen => ?_, fun e s' hround => ?_⟩
    · refine ⟨hinv.frontier.entry v hv hopen, fun e he hnode => ?_⟩
      rw [← hnode]
      exact hinv.frontier.priority_le e he
    · rcases hinv.cases_of_stale hover hest hround with ⟨-, -, hset, -⟩
      exact hset

/-- On the road the dear shortcut to the target is superseded. -/
theorem search_refines_inPlace_road :
    ∃ s₀ result reference order, searchStart road 0 zeroEstimate = .ok s₀ ∧
      search road 0 2 zeroEstimate = .ok result ∧
      searchInPlace road 0 2 zeroEstimate = .ok (reference, order) ∧
      (expansions road 0 2 zeroEstimate).map Expansion.node = order ∧
      result.status = reference.status ∧ result.cost = reference.cost ∧
      result.path = reference.path ∧
      result.stats.nodesExpanded = reference.stats.nodesExpanded ∧
      result.stats.arcsExamined = reference.stats.arcsExamined ∧
      result.stats.relaxations = reference.stats.relaxations ∧
      ∀ es s, Rounds road 2 zeroEstimate s₀ es s →
        ∃ r, RoundsInPlace road 2 zeroEstimate s₀ (es.map Expansion.node) r ∧
          InStep road 2 zeroEstimate (fun _ => 0) s r :=
  search_refines_inPlace taxicab.lift _ road road_built 0 2 rfl rfl zeroEstimate (fun _ => 0)
    (fun _ _ => rfl) (fun _ => le_rfl) (fun _ => WithTop.zero_ne_top)

end RouteEngine
