import RouteEngine.GraphSpec

set_option autoImplicit false

/-! # The verdict of the metric report

`Verdict.observe` is one step of the scan as far as the verdict goes. One arc changes the verdict
exactly when it is shorter than the distance between its endpoints (`passes_observe`), so the
report passes when no arc is. -/

namespace RouteEngine

section Verdict

variable {F : Type}

/-- What the metric report says, apart from the numbers of the first violation. -/
structure Verdict (F : Type) where
  passes : Bool
  violatingArcs : UInt64
  worstRatio : F
  deriving DecidableEq

def MetricReport.verdict (report : MetricReport F) : Verdict F :=
  ⟨report.passes, report.violatingArcs, report.worstRatio⟩

variable [LinearOrder F] [Zero F] [Div F]

/-- The verdict after one more arc, whose ends are `distance` apart. -/
def Verdict.observe (verdict : Verdict F) (weight distance : F) : Verdict F where
  passes := verdict.passes && decide (distance ≤ weight)
  violatingArcs := if distance ≤ weight then verdict.violatingArcs else verdict.violatingArcs + 1
  worstRatio := if 0 < distance then min verdict.worstRatio (weight / distance)
    else verdict.worstRatio

omit [Zero F] [Div F] in
theorem MetricReport.verdict_countViolation (report : MetricReport F) (source : NodeId)
    (arc : Arc F) (distance : F) :
    (report.countViolation source arc distance).verdict
      = { report.verdict with
          passes := report.passes && decide (distance ≤ arc.weight)
          violatingArcs := if distance ≤ arc.weight then report.violatingArcs
            else report.violatingArcs + 1 } := by
  unfold MetricReport.countViolation
  by_cases hle : distance ≤ arc.weight
  · simp [hle, MetricReport.verdict]
  · by_cases hfirst : report.violatingArcs + 1 = 1
    · simp [hle, hfirst, MetricReport.verdict]
    · simp [hle, hfirst, MetricReport.verdict]

theorem MetricReport.verdict_lowerRatio (report : MetricReport F) (arc : Arc F) (distance : F) :
    (report.lowerRatio arc distance).verdict
      = { report.verdict with
          worstRatio := if 0 < distance then min report.worstRatio (arc.weight / distance)
            else report.worstRatio } := by
  unfold MetricReport.lowerRatio
  by_cases hdistance : 0 < distance
  · by_cases hlt : arc.weight / distance < report.worstRatio
    · simp [hdistance, hlt, MetricReport.verdict, min_eq_right hlt.le]
    · simp [hdistance, hlt, MetricReport.verdict, min_eq_left (not_lt.mp hlt)]
  · simp [hdistance, MetricReport.verdict]

theorem MetricReport.verdict_observe (report : MetricReport F) (source : NodeId) (arc : Arc F)
    (distance : F) :
    (report.observe source arc distance).verdict = report.verdict.observe arc.weight distance := by
  have hcount := report.verdict_countViolation source arc distance
  have hratio : (report.countViolation source arc distance).worstRatio = report.worstRatio :=
    congrArg Verdict.worstRatio hcount
  unfold MetricReport.observe
  rw [MetricReport.verdict_lowerRatio, hcount, hratio]
  rfl

end Verdict

variable {F : Type} [Zero F] [LT F] [DecidableLT F] [Div F]

theorem MetricReport.passes_lowerRatio (report : MetricReport F) (arc : Arc F) (distance : F) :
    (report.lowerRatio arc distance).passes = report.passes := by
  unfold MetricReport.lowerRatio
  dsimp only
  split_ifs <;> rfl

variable [LE F] [DecidableLE F]

theorem MetricReport.passes_observe (report : MetricReport F) (source : NodeId) (arc : Arc F)
    (distance : F) :
    (report.observe source arc distance).passes = true
      ↔ report.passes = true ∧ distance ≤ arc.weight := by
  unfold MetricReport.observe
  rw [passes_lowerRatio]
  unfold MetricReport.countViolation
  dsimp only
  split_ifs with hle hfirst
  · simpa using fun _ => hle
  · simpa using fun _ => hle
  · simpa using fun _ => hle

/-- **The report passes exactly when no arc is shorter than the distance between its
endpoints.** -/
theorem canonicalReport_passes_iff [Top F] (distance : Coord F → Coord F → F)
    (coordinates : List (Coord F)) (staged : List (StagedArc F)) :
    (canonicalReport distance coordinates staged).passes = true ↔
      ∀ a ∈ staged,
        distance (coordAt coordinates a.source) (coordAt coordinates a.target) ≤ a.weight := by
  have hfold : ∀ (staged : List (StagedArc F)) (report : MetricReport F),
      (staged.foldl (observeStaged distance coordinates) report).passes = true ↔
        report.passes = true ∧ ∀ a ∈ staged,
          distance (coordAt coordinates a.source) (coordAt coordinates a.target) ≤ a.weight := by
    intro staged
    induction staged with
    | nil => simp
    | cons a staged ih =>
        intro report
        rw [List.foldl_cons, ih, observeStaged, MetricReport.passes_observe, List.forall_mem_cons,
          and_assoc]
        rfl
  unfold canonicalReport
  rw [hfold staged .initial]
  exact and_iff_right rfl

end RouteEngine
