import RouteEngine.Double
import RouteEngine.LatticeGraph

set_option autoImplicit false

/-! # The generator over doubles

The validator says nothing about three things that `generate` still checks: that the coordinates
of the sites are finite, that the lengths of the connections are, and that the arcs fit
(`Representable`). Where they hold, nothing can be refused, the metric check included
(`validator_agrees_iff`). -/

namespace RouteEngine

/-- `std::hypot`, as far as the generator relies on it. -/
structure Hypot where
  hypot : Binary64 → Binary64 → Binary64
  neg_left : ∀ x y, hypot (-x) y = hypot x y
  neg_right : ∀ x y, hypot x (-y) = hypot x y
  nonneg : ∀ x y, ¬ hypot x y < 0

namespace Hypot

variable (h : Hypot)

/-- `std::hypot(to.x - from.x, to.y - from.y)`. -/
def length (fromCoord toCoord : Coord Binary64) : Binary64 :=
  h.hypot (toCoord.x - fromCoord.x) (toCoord.y - fromCoord.y)

/-- The length of a connection is the same both ways. -/
theorem length_comm {p q : Coord Binary64} (hp : isFinite p.x = true ∧ isFinite p.y = true)
    (hq : isFinite q.x = true ∧ isFinite q.y = true) : h.length q p = h.length p q := by
  have hx : h.hypot (p.x - q.x) (p.y - q.y) = h.hypot (q.x - p.x) (p.y - q.y) := by
    rcases Binary64.sub_swap hq.1 hp.1 with heq | heq
    · rw [heq]
    · rw [heq, h.neg_left]
  have hy : h.hypot (q.x - p.x) (p.y - q.y) = h.hypot (q.x - p.x) (q.y - p.y) := by
    rcases Binary64.sub_swap hq.2 hp.2 with heq | heq
    · rw [heq]
    · rw [heq, h.neg_right]
  exact hx.trans hy

end Hypot

/-- `hypot` of differences along an axis, and of the diagonal of a unit cell. -/
def gridHypot : Hypot where
  hypot x y :=
    if x.magnitude = 0 then y.abs
    else if y.magnitude = 0 then x.abs
    else ⟨0x3FF6A09E667F3BCD⟩
  neg_left x y := by
    show (if x.neg.magnitude = 0 then _ else if _ then x.neg.abs else _) = _
    rw [Binary64.abs_neg, Binary64.magnitude_neg]
  neg_right x y := by
    show (if _ then y.neg.abs else if y.neg.magnitude = 0 then _ else _) = _
    rw [Binary64.abs_neg, Binary64.magnitude_neg]
  nonneg x y := by
    split_ifs
    · exact Binary64.not_abs_lt_zero y
    · exact Binary64.not_abs_lt_zero x
    · decide

open Binary64 in
theorem gridHypot_unsigned : UnsignedDistance gridHypot.length := by
  intro p q hpx hpy hqx hqy
  simp only [Hypot.length, gridHypot]
  split_ifs
  · exact ⟨(isNaN_abs _).trans (isNaN_sub_of_isFinite hqy hpy), negative_abs _⟩
  · exact ⟨(isNaN_abs _).trans (isNaN_sub_of_isFinite hqx hpx), negative_abs _⟩
  · exact ⟨by decide, by decide⟩

namespace GeneratorParams

/-- The sites and the connections of the lattice can be represented, and its arcs fit. -/
structure Representable (params : GeneratorParams Binary64) (h : Hypot) : Prop where
  sites_finite : ∀ i, i < params.sites →
    isFinite (params.siteAt i).x = true ∧ isFinite (params.siteAt i).y = true
  lengths_finite : ∀ i j, params.Connects i j →
    isFinite (h.length (params.siteAt i) (params.siteAt j)) = true
  arcs_le : params.arcCount ≤ maxArcCount

variable {params : GeneratorParams Binary64} {h : Hypot}
variable {std : Comparison.Sorter (GraphBuilder.stagedBefore (F := Binary64))}

theorem admits_iff : params.Admits h.length ↔ params.Representable h := by
  constructor
  · intro hadmits
    refine ⟨fun i hi => ?_, fun i j hconnects => ?_, ?_⟩
    · exact hadmits.sites_finite _ (List.mem_map_of_mem (List.mem_range.mpr hi))
    · exact (hadmits.weights ⟨UInt32.ofNat i, UInt32.ofNat j, _⟩
        (mem_latticeArcs_iff.mpr ⟨i, j, hconnects, rfl, Or.inl rfl⟩)).1
    · rw [← length_latticeArcs_eq]
      exact hadmits.arcs_le
  · intro hrep
    refine ⟨fun c hc => ?_, fun a ha => ?_, ?_⟩
    · obtain ⟨i, hi, rfl⟩ := List.mem_map.mp hc
      exact hrep.sites_finite i (List.mem_range.mp hi)
    · obtain ⟨i, j, hconnects, hweight, -⟩ := mem_latticeArcs_iff.mp ha
      rw [hweight]
      exact ⟨hrep.lengths_finite i j hconnects, h.nonneg _ _⟩
    · rw [length_latticeArcs_eq]
      exact hrep.arcs_le

/-- **The metric check cannot fail** on a lattice that can be represented. -/
theorem Fits.passes (hfits : params.Fits) (hrep : params.Representable h) :
    (params.latticeGraph h.length std).metric.passes = true := by
  refine latticeGraph_passes hfits (fun i j hconnects => ?_) (fun i j hconnects => ?_)
  · exact Binary64.le_refl_of_isFinite (hrep.lengths_finite i j hconnects)
  · obtain ⟨hlt, hle⟩ := hconnects.lt
    rw [h.length_comm (hrep.sites_finite i (hlt.trans hle)) (hrep.sites_finite j hle)]
    exact Binary64.le_refl_of_isFinite (hrep.lengths_finite i j hconnects)

end GeneratorParams

/-- **When the validator and `generate` agree**: for the parameters that the validator refuses,
and for those whose lattice can be represented. -/
theorem validator_agrees_iff (h : Hypot)
    (std : Comparison.Sorter (GraphBuilder.stagedBefore (F := Binary64)))
    (params : GeneratorParams Binary64) :
    (validateGeneratorParams params = "" ↔ ∃ g, generate h.length std params = .ok g) ↔
      (validateGeneratorParams params = "" → params.Representable h) := by
  simp only [GeneratorParams.generate_eq_ok_iff, GeneratorParams.admits_iff,
    GeneratorParams.validateGeneratorParams_eq_empty_iff]
  constructor
  · intro hiff husable
    obtain ⟨g, -, hrep, -⟩ := hiff.mp husable
    exact hrep
  · intro himp
    constructor
    · intro husable
      have hrep := himp husable
      exact ⟨_, husable, hrep, husable.passes hrep, rfl⟩
    · rintro ⟨g, husable, -⟩
      exact husable

/-- Three sites in a row whose last one lies beyond the largest double. -/
def wideParams : GeneratorParams Binary64 where
  width := 3
  height := 1
  seed := 0
  spacing := ⟨0x7FE1CCF385EBC8A0⟩
  jitter := 0
  diagonalRate := 0

theorem generate_refuses_usable :
    ¬ (validateGeneratorParams wideParams = "" ↔
      ∃ g, generate gridHypot.length (Comparison.insertionSort _) wideParams = .ok g) := by
  intro hagree
  have hrun : generate gridHypot.length (Comparison.insertionSort _) wideParams
      = .error (.graphValidation
          "route::GraphBuilder: node id 2 has a non-finite coordinate") := by
    decide +kernel
  obtain ⟨g, hg⟩ := hagree.mp (by decide +kernel)
  rw [hrun] at hg
  cases hg

end RouteEngine
