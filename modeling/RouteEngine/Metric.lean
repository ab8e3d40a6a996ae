import RouteEngine.Types

set_option autoImplicit false

/-! # The metric contract

`compute_metric_report` (`src/metric.cpp`): a scan of a graph in CSR form that compares every
weight with the straight-line distance between the endpoints. The distance
`std::hypot(to.x - from.x, to.y - from.y)` is the parameter `distance`. -/

namespace RouteEngine

variable {F : Type}

/-- Outcome of checking the metric contract. -/
structure MetricReport (F : Type) where
  passes : Bool
  violatingArcs : UInt64
  firstViolationSource : NodeId
  firstViolationTarget : NodeId
  worstRatio : F
  deriving DecidableEq, Repr

/-- `MetricReport report;` -/
def MetricReport.initial [Top F] : MetricReport F where
  passes := true
  violatingArcs := 0
  firstViolationSource := 0
  firstViolationTarget := 0
  worstRatio := ⊤

section

variable [Zero F] [Top F] [LT F] [DecidableLT F] [LE F] [DecidableLE F] [Div F]

/-- The count of violations and the first one, after an arc of `source`. The test is the
negation of the pass condition, so that an unordered value counts as a violation. -/
def MetricReport.countViolation (report : MetricReport F) (source : NodeId) (arc : Arc F)
    (distance : F) : MetricReport F :=
  if ¬ (arc.weight ≥ distance) then
    let report :=
      { report with violatingArcs := report.violatingArcs + 1, passes := false }
    if report.violatingArcs = 1 then
      { report with firstViolationSource := source, firstViolationTarget := arc.target }
    else report
  else report

/-- The smallest ratio of weight to distance, after an arc. -/
def MetricReport.lowerRatio (report : MetricReport F) (arc : Arc F) (distance : F) :
    MetricReport F :=
  if distance > 0 then
    let ratio := arc.weight / distance
    if ratio < report.worstRatio then { report with worstRatio := ratio } else report
  else report

/-- The body of the inner loop of `compute_metric_report`, for one arc. -/
def MetricReport.observe (report : MetricReport F) (source : NodeId) (arc : Arc F)
    (distance : F) : MetricReport F :=
  (report.countViolation source arc distance).lowerRatio arc distance

/-- The inner loop: the arcs `offsets[source] ≤ k < offsets[source + 1]`. -/
def checkRow (distance : Coord F → Coord F → F) (coordinates : List (Coord F))
    (offsets : List UInt32) (arcs : List (Arc F)) (report : MetricReport F) (source : Nat) :
    Outcome (MetricReport F) := do
  let fromCoord ← subscript coordinates source
  let rowEnd ← subscript offsets (source + 1)
  let rowBegin ← subscript offsets source
  (List.range' rowBegin.toNat (rowEnd.toNat - rowBegin.toNat)).foldlM (fun report k => do
    let arc ← subscript arcs k
    let toCoord ← subscript coordinates arc.target.toNat
    return report.observe (UInt32.ofNat source) arc (distance fromCoord toCoord)) report

/-- `compute_metric_report`. -/
def computeMetricReport (distance : Coord F → Coord F → F) (coordinates : List (Coord F))
    (offsets : List UInt32) (arcs : List (Arc F)) : Outcome (MetricReport F) :=
  if offsets.length < 2 then .ok .initial
  else
    (List.range (offsets.length - 1)).foldlM (checkRow distance coordinates offsets arcs)
      .initial

end

end RouteEngine
