import RouteEngine.Builder
import RouteEngine.Random
import RouteEngine.Search

set_option autoImplicit false

/-! # The lattice generator

`validate_generator_params` and `generate` (`include/route/generator.hpp`, `src/generator.cpp`).
Three passes over a table of sites share one pseudo-random stream and one builder. The weight
`std::hypot(to.x - from.x, to.y - from.y)` of a connection is the parameter `distance`, as in the
metric check. -/

namespace RouteEngine

variable {F σ : Type}

structure GeneratorParams (F : Type) where
  width : UInt32
  height : UInt32
  seed : UInt64
  spacing : F
  jitter : F
  diagonalRate : F

/-! ## Loops over machine counters -/

/-- `for (std::uint32_t i = first; condition(i); ++i)`. -/
def countUp (condition : UInt32 → Bool) (body : σ → UInt32 → Outcome σ) :
    Nat → UInt32 → σ → Outcome σ
  | 0, _, _ => .error .diverged
  | fuel + 1, i, s =>
      if condition i then do
        let s ← body s i
        countUp condition body fuel (i + 1) s
      else return s

/-- A counter of 32 bits takes no more values than this. -/
def counterFuel : Nat := 4294967296

/-- The loop over `row`, and in it the loop over `col`, both from zero. -/
def eachCell (rowCondition colCondition : UInt32 → Bool)
    (body : σ → UInt32 → UInt32 → Outcome σ) (s : σ) : Outcome σ :=
  countUp rowCondition
    (fun s row => countUp colCondition (fun s col => body s row col) counterFuel 0 s)
    counterFuel 0 s

/-! ## The parameters -/

/-- `validate_generator_params`: a problem, or the empty string. -/
def validateGeneratorParams [IsFinite F] [Zero F] [One F] [UnitArith F] [LT F] [DecidableLT F]
    [LE F] [DecidableLE F] (params : GeneratorParams F) : String :=
  if params.width = 0 then "width must be at least 1"
  else if params.height = 0 then "height must be at least 1"
  else if !isFinite params.spacing || decide (params.spacing ≤ 0) then
    "spacing must be a finite positive number"
  else if !isFinite params.jitter || decide (params.jitter < 0) ||
      decide (params.jitter ≥ UnitArith.half) then
    "jitter must be at least 0 and less than 0.5"
  else if !isFinite params.diagonalRate || decide (params.diagonalRate < 0) ||
      decide (params.diagonalRate > 1) then
    "diagonal-rate must be between 0 and 1 inclusive"
  else
    let nodeCount := params.width.toUInt64 * params.height.toUInt64
    if nodeCount.toNat > maxSupportedNodeCount then
      "width * height is " ++ toString nodeCount.toNat ++
        " nodes, which exceeds the maximum supported node count of " ++
        toString maxSupportedNodeCount
    else ""

/-! ## The passes -/

/-- The local variables of `generate` that the passes change. -/
structure Lattice (F : Type) where
  builder : GraphBuilder F
  rng : SplitMix64
  coordinates : List (Coord F)

/-- `(rng.next_unit() - 0.5) * 2.0 * amplitude` for the next draw. -/
def offset [UnitArith F] [Sub F] [Mul F] (amplitude drawn : F) : F :=
  (drawn - UnitArith.half) * UnitArith.two * amplitude

/-- The body of pass 1. -/
def placeSite [IsFinite F] [UnitArith F] [Add F] [Sub F] [Mul F] (params : GeneratorParams F)
    (s : Lattice F) (row col : UInt32) : Outcome (Lattice F) := do
  let amplitude := params.jitter * params.spacing
  let (drawnX, rng) := s.rng.nextUnit
  let offsetX := offset amplitude drawnX
  let (drawnY, rng) := rng.nextUnit
  let offsetY := offset amplitude drawnY
  let index := row * params.width + col
  let coordinates ← store s.coordinates index.toNat
    ⟨UnitArith.ofNat col.toNat * params.spacing + offsetX,
      UnitArith.ofNat row.toNat * params.spacing + offsetY⟩
  let coordinate ← subscript coordinates index.toNat
  let (_, builder) ← (GraphBuilder.setNode index coordinate (index.toUInt64 + 1)).call s.builder
  return { builder, rng, coordinates }

section

variable [IsFinite F] [Zero F] [LT F] [DecidableLT F]

/-- `connect`: the two arcs between two sites, of equal weight. -/
def connect (distance : Coord F → Coord F → F) (s : Lattice F) (a b : UInt32) :
    Outcome (Lattice F) := do
  let fromCoord ← subscript s.coordinates a.toNat
  let toCoord ← subscript s.coordinates b.toNat
  let weight := distance fromCoord toCoord
  let (_, builder) ← (GraphBuilder.addArc a b weight).call s.builder
  let (_, builder) ← (GraphBuilder.addArc b a weight).call builder
  return { s with builder }

/-- The body of pass 2, the backbone. -/
def connectNeighbours (distance : Coord F → Coord F → F) (params : GeneratorParams F)
    (s : Lattice F) (row col : UInt32) : Outcome (Lattice F) := do
  let index := row * params.width + col
  let s ← if col + 1 < params.width then connect distance s index (index + 1) else pure s
  if row + 1 < params.height then connect distance s index (index + params.width) else pure s

/-- The body of pass 3, the two diagonals of a cell. -/
def offerDiagonals [UnitArith F] [Mul F] (distance : Coord F → Coord F → F)
    (params : GeneratorParams F) (s : Lattice F) (row col : UInt32) : Outcome (Lattice F) := do
  let topLeft := row * params.width + col
  let topRight := topLeft + 1
  let bottomLeft := topLeft + params.width
  let bottomRight := bottomLeft + 1
  let (drawn, rng) := s.rng.nextUnit
  let s := { s with rng }
  let s ← if drawn < params.diagonalRate then connect distance s topLeft bottomRight else pure s
  let (drawn, rng) := s.rng.nextUnit
  let s := { s with rng }
  if drawn < params.diagonalRate then connect distance s topRight bottomLeft else pure s

variable [UnitArith F] [Add F] [Sub F] [Mul F]

/-- The three passes over a fresh builder. -/
def runPasses (distance : Coord F → Coord F → F) (params : GeneratorParams F)
    (builder : GraphBuilder F) : Outcome (Lattice F) := do
  let nodeCount := params.width * params.height
  let s : Lattice F :=
    { builder, rng := ⟨params.seed⟩, coordinates := List.replicate nodeCount.toNat Coord.zero }
  let s ← eachCell (fun row => row < params.height) (fun col => col < params.width)
    (placeSite params) s
  let s ← eachCell (fun row => row < params.height) (fun col => col < params.width)
    (connectNeighbours distance params) s
  eachCell (fun row => row + 1 < params.height) (fun col => col + 1 < params.width)
    (offerDiagonals distance params) s

/-- The error of `generate` for unusable parameters. -/
def paramsError (problem : String) : Failure := .graphValidation ("route::generate: " ++ problem)

/-- `generate`. -/
def generate [One F] [Top F] [LE F] [DecidableLE F] [Div F] (distance : Coord F → Coord F → F)
    (std : Comparison.Sorter (GraphBuilder.stagedBefore (F := F))) (params : GeneratorParams F) :
    Outcome (Graph F) := do
  let problem := validateGeneratorParams params
  if !problem.isEmpty then throw (paramsError problem)
  let nodeCount := params.width * params.height
  let builder ← GraphBuilder.new nodeCount.toNat
  let s ← runPasses distance params builder
  let (graph, _) ← (GraphBuilder.build distance std).call s.builder
  if !graph.metric.passes then
    throw (paramsError "internal error, the generated graph violates the metric contract")
  return graph

end

end RouteEngine
