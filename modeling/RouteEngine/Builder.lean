import RouteEngine.Graph
import RouteEngine.Library.Comparison

set_option autoImplicit false

/-! # The graph builder

`GraphBuilder` (`include/route/builder.hpp`, `src/builder.cpp`): a state machine that collects
nodes and arcs, validates them, and is consumed by `build`. A member function is a `Method`:
it reads and writes the builder, and when it throws, the builder is left as it was at the
`throw`. -/

namespace RouteEngine

variable {F : Type}

/-! ## Member functions -/

/-- A member function of a class with state `σ`. -/
abbrev Method (σ α : Type) := EStateM Failure σ α

/-- A call of a function that does not touch the object. -/
def Method.lift {σ α : Type} (x : Outcome α) : Method σ α := fun s =>
  match x with
  | .ok a => .ok a s
  | .error e => .error e s

/-- The object after a call, whether the call returned or threw. -/
def Method.stateAfter {σ α : Type} (m : Method σ α) (s : σ) : σ :=
  match m s with
  | .ok _ s' => s'
  | .error _ s' => s'

/-- The outcome of a call whose exceptions the caller does not catch. -/
def Method.call {σ α : Type} (m : Method σ α) (s : σ) : Outcome (α × σ) :=
  match m s with
  | .ok a s' => .ok (a, s')
  | .error e _ => .error e

/-! ## Capacities -/

/-- `max_supported_node_count()`. -/
def maxSupportedNodeCount : Nat := 4294967295

/-- `max_arc_count()`. -/
def maxArcCount : Nat := 4294967295

def validateNodeCapacity (nodeCount : Nat) : Outcome Unit :=
  if nodeCount > maxSupportedNodeCount then
    .error (.graphValidation ("route::GraphBuilder: node count " ++ toString nodeCount ++
      " exceeds the maximum supported node count of " ++ toString maxSupportedNodeCount))
  else .ok ()

def validateArcCapacity (arcCount : Nat) : Outcome Unit :=
  if arcCount > maxArcCount then
    .error (.graphValidation ("route::GraphBuilder: arc count " ++ toString arcCount ++
      " exceeds the maximum of " ++ toString maxArcCount ++
      " representable by a 32-bit CSR offset"))
  else .ok ()

/-! ## The builder -/

structure StagedArc (F : Type) where
  source : NodeId
  target : NodeId
  weight : F
  deriving DecidableEq, Repr

/-- The arc as it is stored in the graph. -/
def StagedArc.toArc (staged : StagedArc F) : Arc F := ⟨staged.target, staged.weight⟩

structure GraphBuilder (F : Type) where
  coordinates : List (Coord F)
  externalIds : List ExternalId
  assigned : List Bool
  staged : List (StagedArc F)
  assignedCount : Nat
  consumed : Bool
  deriving DecidableEq

namespace GraphBuilder

/-- The state the constructor leaves for `node_count` nodes. -/
def fresh [Zero F] (nodeCount : Nat) : GraphBuilder F where
  coordinates := List.replicate nodeCount Coord.zero
  externalIds := List.replicate nodeCount 0
  assigned := List.replicate nodeCount false
  staged := []
  assignedCount := 0
  consumed := false

/-- The constructor. -/
def new [Zero F] (nodeCount : Nat) : Outcome (GraphBuilder F) := do
  validateNodeCapacity nodeCount
  return fresh nodeCount

def nodeCount (b : GraphBuilder F) : Nat := b.coordinates.length

def assignedNodeCount (b : GraphBuilder F) : Nat := b.assignedCount

def stagedArcCount (b : GraphBuilder F) : Nat := b.staged.length

def consumedError : Failure :=
  .graphValidation "route::GraphBuilder: builder was already consumed by build()"

def requireNotConsumed : Method (GraphBuilder F) Unit := do
  let b ← get
  if b.consumed then throw consumedError

def nodeRangeError (id : NodeId) (nodes : Nat) : Failure :=
  .graphValidation ("route::GraphBuilder: node id " ++ toString id.toNat ++
    " is out of range for a builder with " ++ toString nodes ++ " nodes")

def alreadySetError (id : NodeId) : Failure :=
  .graphValidation ("route::GraphBuilder: node id " ++ toString id.toNat ++ " was already set")

def coordinateError (id : NodeId) : Failure :=
  .graphValidation ("route::GraphBuilder: node id " ++ toString id.toNat ++
    " has a non-finite coordinate")

def setNode [IsFinite F] (id : NodeId) (coordinate : Coord F) (externalId : ExternalId) :
    Method (GraphBuilder F) Unit := do
  requireNotConsumed
  let b ← get
  let index := id.toNat
  if index ≥ b.coordinates.length then throw (nodeRangeError id b.coordinates.length)
  if ← Method.lift (subscript b.assigned index) then throw (alreadySetError id)
  if !isFinite coordinate.x || !isFinite coordinate.y then throw (coordinateError id)
  modify fun b => { b with coordinates := b.coordinates.set index coordinate }
  modify fun b => { b with externalIds := b.externalIds.set index externalId }
  modify fun b => { b with assigned := b.assigned.set index true }
  modify fun b => { b with assignedCount := b.assignedCount + 1 }

/-- The range errors of `add_arc`; `role` is `source` or `target`. -/
def arcRangeError (role : String) (id : NodeId) (nodes : Nat) : Failure :=
  .graphValidation ("route::GraphBuilder: arc " ++ role ++ " " ++ toString id.toNat ++
    " is out of range for a builder with " ++ toString nodes ++ " nodes")

/-- The weight errors of `add_arc`; `problem` is `non-finite` or `negative`. -/
def weightError (problem : String) (source target : NodeId) : Failure :=
  .graphValidation ("route::GraphBuilder: arc " ++ toString source.toNat ++ " -> " ++
    toString target.toNat ++ " has a " ++ problem ++ " weight")

def addArc [IsFinite F] [Zero F] [LT F] [DecidableLT F] (source target : NodeId) (weight : F) :
    Method (GraphBuilder F) Unit := do
  requireNotConsumed
  let b ← get
  let nodes := b.coordinates.length
  if source.toNat ≥ nodes then throw (arcRangeError "source" source nodes)
  if target.toNat ≥ nodes then throw (arcRangeError "target" target nodes)
  -- before the sign test, which a NaN would pass
  if !isFinite weight then throw (weightError "non-finite" source target)
  if weight < 0 then throw (weightError "negative" source target)
  Method.lift (validateArcCapacity (b.staged.length + 1))
  modify fun b => { b with staged := b.staged ++ [⟨source, target, weight⟩] }

/-! ## Building the graph -/

/-- The comparison of the canonical order: `(source, target, weight)`. -/
def stagedBefore [LT F] [DecidableLT F] (lhs rhs : StagedArc F) : Bool :=
  if lhs.source ≠ rhs.source then decide (lhs.source < rhs.source)
  else if lhs.target ≠ rhs.target then decide (lhs.target < rhs.target)
  else decide (lhs.weight < rhs.weight)

/-- The loop that looks for the first node without its flag. -/
def firstUnset (assigned : List Bool) : Nat := assigned.findIdx (fun set => !set)

/-- The error of `build` that names an unset node. -/
def unsetError (firstUnset unset nodes : Nat) : Failure :=
  .graphValidation ("route::GraphBuilder: node id " ++ toString firstUnset ++
    " was never set (" ++ toString unset ++ " of " ++ toString nodes ++ " nodes unset)")

/-- `++offsets[index_of(arc.source) + 1]`. -/
def countArc (offsets : List UInt32) (arc : StagedArc F) : Outcome (List UInt32) := do
  let size ← subscript offsets (arc.source.toNat + 1)
  return offsets.set (arc.source.toNat + 1) (size + 1)

/-- `offsets[row + 1] += offsets[row]`. -/
def addPrevious (offsets : List UInt32) (row : Nat) : Outcome (List UInt32) := do
  let size ← subscript offsets (row + 1)
  let before ← subscript offsets row
  return offsets.set (row + 1) (size + before)

/-- The CSR offsets: row sizes, then an exclusive prefix sum, both in 32 bits. -/
def rowOffsets (nodes : Nat) (staged : List (StagedArc F)) : Outcome (List UInt32) := do
  let sizes ← staged.foldlM countArc (List.replicate (nodes + 1) 0)
  (List.range nodes).foldlM addPrevious sizes

variable [Zero F] [Top F] [LT F] [DecidableLT F] [LE F] [DecidableLE F] [Div F]

/-- `build`. Which of several arcs that compare equal `std::sort` puts first is not
specified, so the sort is a parameter. -/
def build (distance : Coord F → Coord F → F) (std : Comparison.Sorter (stagedBefore (F := F))) :
    Method (GraphBuilder F) (Graph F) := do
  requireNotConsumed
  let b ← get
  if b.assignedCount ≠ b.coordinates.length then
    throw (unsetError (firstUnset b.assigned) (b.coordinates.length - b.assignedCount)
      b.coordinates.length)
  Method.lift (validateArcCapacity b.staged.length)
  modify fun b => { b with staged := std.sort b.staged }
  let b ← get
  let offsets ← Method.lift (rowOffsets b.coordinates.length b.staged)
  let arcs := b.staged.map StagedArc.toArc
  modify fun b => { b with consumed := true }
  -- the two node vectors are moved into the graph, which leaves them empty here
  modify fun b => { b with coordinates := [], externalIds := [] }
  let graph ← Method.lift (Graph.make distance b.coordinates b.externalIds offsets arcs)
  modify fun b => { b with staged := [] }
  modify fun b => { b with assigned := [] }
  return graph

end GraphBuilder

/-! ## Histories of a builder -/

/-- A call of a member function, with its arguments. -/
inductive BuilderCall (F : Type) where
  | setNode (id : NodeId) (coordinate : Coord F) (externalId : ExternalId)
  | addArc (source target : NodeId) (weight : F)
  | build
  deriving DecidableEq

section

variable [IsFinite F] [Zero F] [Top F] [LT F] [DecidableLT F] [LE F] [DecidableLE F] [Div F]
variable (distance : Coord F → Coord F → F)
  (std : Comparison.Sorter (GraphBuilder.stagedBefore (F := F)))

/-- Perform one call; `build` returns a graph. -/
def BuilderCall.perform : BuilderCall F → Method (GraphBuilder F) (Option (Graph F))
  | .setNode id coordinate externalId => do
      GraphBuilder.setNode id coordinate externalId
      return none
  | .addArc source target weight => do
      GraphBuilder.addArc source target weight
      return none
  | .build => do
      let graph ← GraphBuilder.build distance std
      return some graph

/-- The builder after a sequence of calls; a caller may go on after an exception. -/
def GraphBuilder.after (b : GraphBuilder F) (calls : List (BuilderCall F)) : GraphBuilder F :=
  calls.foldl (fun b call => (call.perform distance std).stateAfter b) b

/-- The builders that a constructor call and any sequence of member calls lead to. -/
def GraphBuilder.Reachable (b : GraphBuilder F) : Prop :=
  ∃ (nodes : Nat) (start : GraphBuilder F) (calls : List (BuilderCall F)),
    GraphBuilder.new nodes = .ok start ∧ b = start.after distance std calls

/-- The graphs that `GraphBuilder::build()` produces. -/
def Graph.Built (g : Graph F) : Prop :=
  ∃ b b' : GraphBuilder F, b.Reachable distance std ∧
    GraphBuilder.build distance std b = .ok g b'

end

end RouteEngine
