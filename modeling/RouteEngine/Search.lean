import RouteEngine.Graph
import RouteEngine.Library.Comparison
import Mathlib.Tactic.Simps.Basic

set_option autoImplicit false

/-! # The search

`search` (`src/search.cpp`) and its entry points: best-first search with lazy deletion. An
improved node is pushed again and the superseded entry stays in the queue until it surfaces.
The priority queue is the list of its entries; the entry on top is the one that
`HigherPriorityFirst` puts first. A loop of the source without a bound of its own takes fuel,
and running out of it is the outcome `diverged`. -/

namespace RouteEngine

variable {F : Type}

/-- The parent sentinel. -/
def kNoParent : UInt32 := 0xFFFFFFFF

structure Entry (F : Type) where
  priority : F
  node : NodeId
  deriving DecidableEq, Repr

/-- `HigherPriorityFirst`: `lhs` is served after `rhs`. -/
def higherPriorityFirst [LT F] [DecidableLT F] [BEq F] (lhs rhs : Entry F) : Bool :=
  if lhs.priority != rhs.priority then decide (lhs.priority > rhs.priority)
  else decide (lhs.node > rhs.node)

inductive SearchStatus where
  | found
  | unreachable
  deriving DecidableEq, Repr

theorem SearchStatus.eq_of_found_iff {a b : SearchStatus} (h : a = .found ↔ b = .found) :
    a = b := by
  cases a <;> cases b <;> simp_all

/-- The diagnostic counters. -/
structure SearchStats where
  pqPushes : UInt64
  pqPops : UInt64
  stalePops : UInt64
  nodesExpanded : UInt64
  arcsExamined : UInt64
  relaxations : UInt64
  maxQueueSize : UInt64
  deriving DecidableEq, Repr

def SearchStats.zero : SearchStats := ⟨0, 0, 0, 0, 0, 0, 0⟩

structure SearchResult (F : Type) where
  status : SearchStatus
  cost : F
  path : List NodeId
  stats : SearchStats
  deriving DecidableEq

def SearchResult.found (result : SearchResult F) : Bool := decide (result.status = .found)

/-! ## The state of the main loop -/

/-- `vector[i] = value`, which is undefined outside the vector. -/
def store {α : Type} (vector : List α) (i : Nat) (value : α) : Outcome (List α) :=
  if i < vector.length then .ok (vector.set i value) else .error .undefinedBehavior

/-- The local variables of `search`. -/
structure SearchState (F : Type) where
  distance : List F
  parent : List UInt32
  settled : List Bool
  queue : List (Entry F)
  stats : SearchStats
  deriving DecidableEq

namespace SearchState

/-- `queue.push` with its counters. -/
@[simps]
def push (s : SearchState F) (entry : Entry F) : SearchState F :=
  let queue := entry :: s.queue
  { s with
    queue
    stats := { s.stats with
      pqPushes := s.stats.pqPushes + 1
      maxQueueSize := max s.stats.maxQueueSize (UInt64.ofNat queue.length) } }

/-- `queue.pop`, which leaves the entries `rest`. -/
@[simps]
def pop (s : SearchState F) (rest : List (Entry F)) : SearchState F :=
  { s with queue := rest, stats := { s.stats with pqPops := s.stats.pqPops + 1 } }

@[simps]
def countStale (s : SearchState F) : SearchState F :=
  { s with stats := { s.stats with stalePops := s.stats.stalePops + 1 } }

@[simps]
def countExpanded (s : SearchState F) : SearchState F :=
  { s with stats := { s.stats with nodesExpanded := s.stats.nodesExpanded + 1 } }

@[simps]
def countArc (s : SearchState F) : SearchState F :=
  { s with stats := { s.stats with arcsExamined := s.stats.arcsExamined + 1 } }

@[simps]
def countRelaxation (s : SearchState F) : SearchState F :=
  { s with stats := { s.stats with relaxations := s.stats.relaxations + 1 } }

/-- The vectors before the source is entered. -/
def initial [Top F] (nodeCount : Nat) : SearchState F where
  distance := List.replicate nodeCount ⊤
  parent := List.replicate nodeCount kNoParent
  settled := List.replicate nodeCount false
  queue := []
  stats := .zero

end SearchState

/-- What one round of the main loop does. -/
inductive Round (F : Type) where
  /-- the queue is empty -/
  | exhausted
  /-- the popped node was already settled -/
  | stale (entry : Entry F) (s : SearchState F)
  /-- the popped node was settled and its arcs scanned -/
  | expanded (entry : Entry F) (s : SearchState F)
  /-- the popped node is the target -/
  | reached (entry : Entry F) (s : SearchState F)
  deriving DecidableEq

section

variable [Zero F] [Top F] [Add F] [LT F] [DecidableLT F] [BEq F]

/-- Enter the source. -/
def searchStart (g : Graph F) (source : NodeId) (estimate : NodeId → Outcome F) :
    Outcome (SearchState F) := do
  let s := SearchState.initial g.nodeCount
  let distance ← store s.distance source.toNat 0
  let s := { s with distance }
  let priority ← estimate source
  return s.push ⟨priority, source⟩

/-- The body of the inner loop: scan one arc of the node `current`. -/
def relax (estimate : NodeId → Outcome F) (current : Nat) (currentDistance : F)
    (s : SearchState F) (arc : Arc F) : Outcome (SearchState F) := do
  let s := s.countArc
  let next := arc.target.toNat
  if ← subscript s.settled next then return s
  let candidate := currentDistance + arc.weight
  let tentative ← subscript s.distance next
  if candidate < tentative then
    let distance ← store s.distance next candidate
    let s := { s with distance }
    let parent ← store s.parent next (UInt32.ofNat current)
    let s := { s with parent }
    let s := s.countRelaxation
    let rest ← estimate arc.target
    return s.push ⟨candidate + rest, arc.target⟩
  else return s

/-- The body of the main loop. -/
def searchRound (g : Graph F) (target : NodeId) (estimate : NodeId → Outcome F)
    (s : SearchState F) : Outcome (Round F) :=
  match Comparison.popTop higherPriorityFirst s.queue with
  | none => return .exhausted
  | some (entry, rest) => do
      let s := s.pop rest
      let current := entry.node.toNat
      if ← subscript s.settled current then return .stale entry s.countStale
      let settled ← store s.settled current true
      let s := { s with settled }
      let s := s.countExpanded
      if entry.node = target then return .reached entry s
      let currentDistance ← subscript s.distance current
      let arcs ← g.arcsFrom entry.node
      let s ← arcs.foldlM (relax estimate current currentDistance) s
      return .expanded entry s

/-- The main loop: whether the target was reached, and the variables when it ends. -/
def searchLoop (g : Graph F) (target : NodeId) (estimate : NodeId → Outcome F) :
    Nat → SearchState F → Outcome (Bool × SearchState F)
  | 0, _ => throw .diverged
  | fuel + 1, s => do
      match ← searchRound g target estimate s with
      | .exhausted => return (false, s)
      | .stale _ s' => searchLoop g target estimate fuel s'
      | .expanded _ s' => searchLoop g target estimate fuel s'
      | .reached _ s' => return (true, s')

/-- A pop that settles a node: the popped entry and the tentative cost of its node. -/
structure Expansion (F : Type) where
  node : NodeId
  priority : F
  distance : F
  deriving DecidableEq

/-- The expansion that the entry makes in a round that starts in `s`. -/
def SearchState.expansion (s : SearchState F) (entry : Entry F) : Expansion F where
  node := entry.node
  priority := entry.priority
  distance := s.distance[entry.node.toNat]?.getD ⊤

/-- The expansions of the main loop, in order. -/
def settlingPops (g : Graph F) (target : NodeId) (estimate : NodeId → Outcome F) :
    Nat → SearchState F → List (Expansion F)
  | 0, _ => []
  | fuel + 1, s =>
      match searchRound g target estimate s with
      | .ok (.stale _ s') => settlingPops g target estimate fuel s'
      | .ok (.expanded entry s') =>
          s.expansion entry :: settlingPops g target estimate fuel s'
      | .ok (.reached entry _) => [s.expansion entry]
      | _ => []

/-- Walk parents back from `node` to the source. -/
def walkBack (parent : List UInt32) (source : NodeId) : Nat → UInt32 → Outcome (List NodeId)
  | 0, _ => throw .diverged
  | fuel + 1, node =>
      if node = source then return [node]
      else do
        let previous ← subscript parent node.toNat
        let path ← walkBack parent source fuel previous
        return node :: path

/-- Enough rounds of the main loop: every round but the last pops an entry. -/
def searchFuel (g : Graph F) : Nat := g.arcCount + 2

/-- `search`. -/
def search (g : Graph F) (source target : NodeId) (estimate : NodeId → Outcome F) :
    Outcome (SearchResult F) := do
  let s ← searchStart g source estimate
  let (reached, s) ← searchLoop g target estimate (searchFuel g) s
  if !reached then return { status := .unreachable, cost := ⊤, path := [], stats := s.stats }
  let cost ← subscript s.distance target.toNat
  let path ← walkBack s.parent source (g.nodeCount + 1) target
  return { status := .found, cost, path := path.reverse, stats := s.stats }

/-- The expansions of a search, in order. -/
def expansions (g : Graph F) (source target : NodeId) (estimate : NodeId → Outcome F) :
    List (Expansion F) :=
  match searchStart g source estimate with
  | .ok s => settlingPops g target estimate (searchFuel g) s
  | .error _ => []

/-! ## Heuristics and entry points -/

/-- `ZeroHeuristic::estimate`. -/
def zeroEstimate (_ : NodeId) : Outcome F := .ok 0

/-- `EuclideanHeuristic::estimate` for a target coordinate. -/
def euclideanEstimate (distance : Coord F → Coord F → F) (g : Graph F) (target : Coord F)
    (node : NodeId) : Outcome F := do
  let position ← g.coordinate node
  return distance position target

/-- `require_valid`. -/
def requireValid (g : Graph F) (id : NodeId) (role : String) : Outcome Unit :=
  if !g.contains id then
    throw (.outOfRange ("route::search: " ++ role ++ " node id " ++ toString id.toNat ++
      " is out of range for a graph with " ++ toString g.nodeCount ++ " nodes"))
  else return

def dijkstra (g : Graph F) (source target : NodeId) : Outcome (SearchResult F) := do
  requireValid g source "source"
  requireValid g target "target"
  search g source target zeroEstimate

def astarZero (g : Graph F) (source target : NodeId) : Outcome (SearchResult F) := do
  requireValid g source "source"
  requireValid g target "target"
  search g source target zeroEstimate

/-- The refusal of `astar_euclidean`. -/
def heuristicContractError (violatingArcs : UInt64) : Failure :=
  .heuristicContract ("route::astar_euclidean: the graph violates the metric contract on " ++
    toString violatingArcs.toNat ++ " arc(s), so the straight-line heuristic is not admissible" ++
    " and the result could not be shown to be optimal; use dijkstra or astar-zero instead")

def astarEuclidean (distance : Coord F → Coord F → F) (g : Graph F) (source target : NodeId) :
    Outcome (SearchResult F) := do
  requireValid g source "source"
  requireValid g target "target"
  if !g.metric.passes then throw (heuristicContractError g.metric.violatingArcs)
  let coordinate ← g.coordinate target
  search g source target (euclideanEstimate distance g coordinate)

end

inductive Algorithm where
  | dijkstra
  | astarZero
  | astarEuclidean
  deriving DecidableEq, Repr

def algorithmName : Algorithm → String
  | .dijkstra => "dijkstra"
  | .astarZero => "astar-zero"
  | .astarEuclidean => "astar-euclidean"

def parseAlgorithm (name : String) : Option Algorithm :=
  if name = "dijkstra" then some .dijkstra
  else if name = "astar-zero" then some .astarZero
  else if name = "astar-euclidean" then some .astarEuclidean
  else none

def runSearch [Zero F] [Top F] [Add F] [LT F] [DecidableLT F] [BEq F]
    (distance : Coord F → Coord F → F) (g : Graph F) (source target : NodeId) :
    Algorithm → Outcome (SearchResult F)
  | .dijkstra => dijkstra g source target
  | .astarZero => astarZero g source target
  | .astarEuclidean => astarEuclidean distance g source target

end RouteEngine
