import RouteEngine.Metric

set_option autoImplicit false

/-! # The graph in compressed sparse row form

`Graph` (`include/route/graph.hpp`, `src/graph.cpp`): node data in two parallel vectors, all
arcs in one vector, and the row boundaries `offsets`. The outgoing arcs of a node are a slice
of the arc vector. -/

namespace RouteEngine

variable {F : Type}

structure Graph (F : Type) where
  coordinates : List (Coord F)
  externalIds : List ExternalId
  offsets : List UInt32
  arcs : List (Arc F)
  metric : MetricReport F
  deriving DecidableEq

namespace Graph

def nodeCount (g : Graph F) : Nat := g.coordinates.length

def arcCount (g : Graph F) : Nat := g.arcs.length

/-- True when `id` is a valid identifier for this graph. -/
def contains (g : Graph F) (id : NodeId) : Bool := decide (id.toNat < g.coordinates.length)

@[simp] theorem contains_iff (g : Graph F) (id : NodeId) :
    g.contains id = true ↔ id.toNat < g.nodeCount := by
  simp [contains, nodeCount]

/-- `throw_out_of_range`. -/
def outOfRange {α : Type} (g : Graph F) (id : NodeId) : Outcome α :=
  .error (.outOfRange ("route::Graph: node id " ++ toString id.toNat ++
    " is out of range for a graph with " ++ toString g.nodeCount ++ " nodes"))

def coordinate (g : Graph F) (id : NodeId) : Outcome (Coord F) :=
  if !g.contains id then g.outOfRange id
  else subscript g.coordinates id.toNat

def externalId (g : Graph F) (id : NodeId) : Outcome ExternalId :=
  if !g.contains id then g.outOfRange id
  else subscript g.externalIds id.toNat

/-- Outgoing arcs of `id`: the `end - begin` arcs from `arcs_.data() + begin`, where the
difference is taken in 32 bits. -/
def arcsFrom (g : Graph F) (id : NodeId) : Outcome (List (Arc F)) :=
  if !g.contains id then g.outOfRange id
  else do
    let rowBegin ← subscript g.offsets id.toNat
    let rowEnd ← subscript g.offsets (id.toNat + 1)
    let size := (rowEnd - rowBegin).toNat
    if rowBegin.toNat + size ≤ g.arcs.length then
      return (g.arcs.drop rowBegin.toNat).take size
    else throw .undefinedBehavior

/-- The constructor: it takes the four vectors and computes the metric report. -/
def make [Zero F] [Top F] [LT F] [DecidableLT F] [LE F] [DecidableLE F] [Div F]
    (distance : Coord F → Coord F → F) (coordinates : List (Coord F))
    (externalIds : List ExternalId) (offsets : List UInt32) (arcs : List (Arc F)) :
    Outcome (Graph F) := do
  let metric ← computeMetricReport distance coordinates offsets arcs
  return { coordinates, externalIds, offsets, arcs, metric }

end Graph

end RouteEngine
