import Mathlib.Analysis.Complex.Norm
import RouteEngine.Library.LeastCost
import RouteEngine.LatticeGeometry

set_option autoImplicit false

/-! # Route costs in a generated network

Over exact arithmetic the costs that the searches report in a generated network are a distance
between its nodes (`generate_distances`). It is at least the straight line, and at most what the
rows and columns between two nodes cost, one side of a cell after the other. -/

namespace RouteEngine

variable {K : Type} [Field K] [LinearOrder K]

/-- What more is known of `hypot`: it is a norm, and no hypotenuse is longer than the two other
sides. -/
structure EvenDistance.IsNorm (d : EvenDistance K) : Prop where
  zero : d.hypot 0 0 = 0
  separates : ∀ x y, d.hypot x y = 0 → x = 0 ∧ y = 0
  add_le : ∀ x y x' y', d.hypot (x + x') (y + y') ≤ d.hypot x y + d.hypot x' y'
  le_sides : ∀ x y, d.hypot x y ≤ |x| + |y|

/-- The plane with that distance. -/
def EvenDistance.plane (d : EvenDistance K) (h : d.IsNorm) : PlaneDistance K where
  dist p q := d.hypot (q.x - p.x) (q.y - p.y)
  nonneg _ _ := d.nonneg _ _
  symm p q := by rw [← neg_sub p.x, ← neg_sub p.y, d.neg_left, d.neg_right]
  self p := by rw [sub_self, sub_self, h.zero]
  triangle p q r := by
    rw [← sub_add_sub_cancel' q.x p.x r.x, ← sub_add_sub_cancel' q.y p.y r.y]
    exact h.add_le _ _ _ _

/-! ## Costs in a graph that keeps the metric contract -/

section

variable {distance : Coord (WithTop K) → Coord (WithTop K) → WithTop K}

/-- The cost that Dijkstra reports. -/
def routeCost (g : Graph (WithTop K)) (source target : NodeId) : K :=
  match dijkstra g source target with
  | .ok result => result.cost.untopD 0
  | .error _ => 0

variable [IsStrictOrderedRing K] {d : PlaneDistance K} {g : Graph (WithTop K)}
  {staged : List (StagedArc (WithTop K))} {u v : NodeId}

/-- Where the target can be reached every algorithm reports that cost, and it is the least. -/
theorem routeCost_eq (hg : g.OverArcs d.lift staged) (hpass : g.metric.passes = true)
    (hu : g.contains u = true) (hv : g.contains v = true)
    (hreach : Digraph.Reachable g.HasArc u v) :
    Digraph.LeastCost g.HasArc u v ((routeCost g u v : K) : WithTop K) ∧
      ∀ algorithm, ∃ result, runSearch d.lift g u v algorithm = .ok result ∧
        result.status = .found ∧ result.cost = ((routeCost g u v : K) : WithTop K) := by
  have hanswers := fun algorithm => runSearch_answers hg hu hv algorithm (fun _ => hpass)
  obtain ⟨result, hresult, hanswer⟩ := hanswers .dijkstra
  have hleast := hanswer.isLeast (hanswer.found_iff.mpr hreach)
  have hcost : result.cost = ((routeCost g u v : K) : WithTop K) := by
    have hdijkstra : dijkstra g u v = .ok result := hresult
    have hroute : routeCost g u v = result.cost.untopD 0 := by rw [routeCost, hdijkstra]
    obtain ⟨cost, hcost⟩ := WithTop.ne_top_iff_exists.mp (walkCost_ne_top hg hleast.1)
    rw [hroute, ← hcost, WithTop.untopD_coe]
  rw [← hcost]
  refine ⟨hleast, fun algorithm => ?_⟩
  obtain ⟨other, hother, hanswer'⟩ := hanswers algorithm
  have hfound := hanswer'.found_iff.mpr hreach
  exact ⟨other, hother, hfound, (hanswer'.isLeast hfound).unique hleast⟩

/-- No walk is shorter than the straight line. -/
theorem lift_le_walkCost (hg : g.OverArcs d.lift staged) (hpass : g.metric.passes = true)
    {c : WithTop K} (h : Digraph.WalkCost g.HasArc u v c) :
    d.lift (coordAt g.coordinates u) (coordAt g.coordinates v) ≤ c := by
  rw [hg.metric_eq, canonicalReport_passes_iff] at hpass
  refine h.distance_le (δ := fun u v => d.lift (coordAt g.coordinates u)
    (coordAt g.coordinates v)) (fun u => (d.lift_self _).le)
    (fun u v x => d.lift_triangle _ _ _) fun u v w harc => ?_
  exact hpass _ ((hg.hasArc_iff u v w).mp harc)

end

namespace GeneratorParams

variable {params : GeneratorParams (WithTop K)} {d : EvenDistance K}
  (std : Comparison.Sorter (GraphBuilder.stagedBefore (F := WithTop K)))

/-- Every arc has one back with the same weight. -/
theorem Fits.hasArc_symm (h : params.Fits) (hadmits : params.Admits d.lift) ⦃u v : NodeId⦄
    ⦃w : WithTop K⦄ (harc : (params.latticeGraph d.lift std).HasArc u v w) :
    (params.latticeGraph d.lift std).HasArc v u w := by
  have hover : (params.latticeGraph d.lift std).OverArcs _ _ := h.overArcs hadmits
  rw [hover.hasArc_iff, (std.perm _).mem_iff, mem_latticeArcs_iff] at harc ⊢
  obtain ⟨i, j, hconnects, hweight, hends⟩ := harc
  refine ⟨i, j, hconnects, hweight, ?_⟩
  simp only [StagedArc.ends, Prod.mk.injEq] at hends ⊢
  rcases hends with ⟨hu, hv⟩ | ⟨hu, hv⟩
  · exact Or.inr ⟨hv, hu⟩
  · exact Or.inl ⟨hv, hu⟩

/-- The arc of a connection. -/
theorem Fits.hasArc_length (h : params.Fits) (hadmits : params.Admits d.lift) {i j : Nat}
    (hconnects : params.Connects i j) :
    (params.latticeGraph d.lift std).HasArc (UInt32.ofNat i) (UInt32.ofNat j)
      (d.lift (params.siteAt i) (params.siteAt j)) := by
  have hover : (params.latticeGraph d.lift std).OverArcs _ _ := h.overArcs hadmits
  rw [hover.hasArc_iff, (std.perm _).mem_iff, mem_latticeArcs_iff]
  exact ⟨i, j, hconnects, rfl, Or.inl rfl⟩

variable [IsStrictOrderedRing K] {spacing jitter : K}

/-! ## Sides of cells -/

/-- **The side of a cell** is at most the spacing and four displacements long. -/
theorem Scale.side_le (h : params.Scale spacing jitter) (hnorm : d.IsNorm) {i j : Nat}
    (hside : i / params.width.toNat = j / params.width.toNat ∧
        i % params.width.toNat + 1 = j % params.width.toNat ∨
      i / params.width.toNat + 1 = j / params.width.toNat ∧
        i % params.width.toNat = j % params.width.toNat) :
    d.lift (params.siteAt i) (params.siteAt j) ≤ (spacing * (1 + 4 * jitter) : K) := by
  obtain ⟨p, hp, hnear⟩ := h.siteAt_near i
  obtain ⟨q, hq, hnear'⟩ := h.siteAt_near j
  rw [hp, hq]
  refine WithTop.coe_le_coe.mpr ((hnorm.le_sides _ _).trans ?_)
  rcases hside with ⟨hrow, hcol⟩ | ⟨hrow, hcol⟩
  · have hx := hnear.x_near.close h.spacing_pos.le hnear'.x_near (by omega) (by omega)
    have hy := hnear.y_near.close_same (hrow ▸ hnear'.y_near)
    exact (add_le_add hx hy).trans_eq (by ring)
  · have hx := hnear.x_near.close_same (hcol ▸ hnear'.x_near)
    have hy := hnear.y_near.close h.spacing_pos.le hnear'.y_near (by omega) (by omega)
    exact (add_le_add hx hy).trans_eq (by ring)

/-! ## Along the rows and columns -/

omit [IsStrictOrderedRing K] in
theorem Fits.contains_site (h : params.Fits) {i : Nat} (hi : i < params.sites) :
    (params.latticeGraph d.lift std).contains (UInt32.ofNat i) = true := by
  have hnodes : (params.latticeGraph d.lift std).nodeCount = params.sites :=
    params.length_coordinates
  rw [Graph.contains_iff, h.toNat_ofNat hi, hnodes]
  exact hi

theorem Scale.exists_coordinate (h : params.Scale spacing jitter) (hfits : params.Fits)
    {u : NodeId} (hu : (params.latticeGraph d.lift std).contains u = true) :
    ∃ p : Coord K, (params.latticeGraph d.lift std).coordinate u = .ok p.exact := by
  obtain ⟨p, hp, -⟩ := h.siteAt_near u.toNat
  have hlt : u.toNat < params.sites :=
    params.length_coordinates ▸ ((params.latticeGraph d.lift std).contains_iff u).mp hu
  have hcoordinate := hfits.coordinate_eq (d := d) std hlt
  rw [UInt32.ofNat_toNat, hp] at hcoordinate
  exact ⟨p, hcoordinate⟩

/-- The steps between two marks. -/
theorem cast_steps (i j : Nat) : ((j - i + (i - j) : Nat) : K) = |(j : K) - i| := by
  rcases Nat.le_total i j with hle | hle
  · have hcast : (i : K) ≤ j := Nat.cast_le.mpr hle
    rw [Nat.sub_eq_zero_of_le hle, Nat.add_zero, Nat.cast_sub hle,
      abs_of_nonneg (sub_nonneg.mpr hcast)]
  · have hcast : (j : K) ≤ i := Nat.cast_le.mpr hle
    rw [Nat.sub_eq_zero_of_le hle, Nat.zero_add, Nat.cast_sub hle, abs_sub_comm,
      abs_of_nonneg (sub_nonneg.mpr hcast)]

omit [LinearOrder K] [IsStrictOrderedRing K] in
theorem nsmul_side (n : Nat) (side : K) :
    n • (side : WithTop K) = ((n * side : K) : WithTop K) := by
  rw [← WithTop.coe_nsmul, nsmul_eq_mul]

/-- **Down a column and along a row**: one side of a cell for each step. -/
theorem Scale.exists_walk (h : params.Scale spacing jitter) (hfits : params.Fits)
    (hadmits : params.Admits d.lift) (hnorm : d.IsNorm) {r c r' c' : Nat}
    (hr : r < params.height.toNat) (hc : c < params.width.toNat) (hr' : r' < params.height.toNat)
    (hc' : c' < params.width.toNat) :
    ∃ cost, Digraph.WalkCost (params.latticeGraph d.lift std).HasArc
        (UInt32.ofNat (params.siteIndex r c)) (UInt32.ofNat (params.siteIndex r' c')) cost ∧
      cost ≤ (((|(r' : K) - r| + |(c' : K) - c|) * (spacing * (1 + 4 * jitter)) : K) :
        WithTop K) := by
  have hboth := hfits.hasArc_symm std hadmits
  obtain ⟨down, hdown, hdownle⟩ := Digraph.exists_walkCost_between hboth
    (fun r => UInt32.ofNat (params.siteIndex r c)) (fun r hr => ⟨_, hfits.hasArc_length std hadmits
      (.vertical hr hc), h.side_le hnorm (Or.inr ⟨by rw [siteIndex_div hc, siteIndex_div hc],
        by rw [siteIndex_mod hc, siteIndex_mod hc]⟩)⟩) hr hr'
  obtain ⟨along, halong, halongle⟩ := Digraph.exists_walkCost_between hboth
    (fun c => UInt32.ofNat (params.siteIndex r' c)) (fun c hc => ⟨_, hfits.hasArc_length std hadmits
      (.horizontal hr' hc), h.side_le hnorm (Or.inl
        ⟨by rw [siteIndex_div (by omega), siteIndex_div hc],
          by rw [siteIndex_mod (by omega), siteIndex_mod hc]⟩)⟩) hc hc'
  refine ⟨down + along, hdown.append halong, (add_le_add hdownle halongle).trans_eq ?_⟩
  rw [nsmul_side, nsmul_side, cast_steps, cast_steps, ← WithTop.coe_add, ← add_mul]

end GeneratorParams

/-- The costs of the routes are a distance between the nodes: every algorithm reports them, and
they lie between the straight line and the way along the rows and columns. -/
structure Graph.Distances (g : Graph (WithTop K)) (params : GeneratorParams (WithTop K))
    (d : EvenDistance K) (spacing jitter : K) (cost : NodeId → NodeId → K) : Prop where
  reported : ∀ algorithm u v, g.contains u = true → g.contains v = true →
    ∃ result, runSearch d.lift g u v algorithm = .ok result ∧ result.status = .found ∧
      result.cost = (cost u v : WithTop K)
  self : ∀ u, g.contains u = true → cost u u = 0
  pos : ∀ u v, g.contains u = true → g.contains v = true → u ≠ v → 0 < cost u v
  symm : ∀ u v, g.contains u = true → g.contains v = true → cost u v = cost v u
  triangle : ∀ u v x, g.contains u = true → g.contains v = true → g.contains x = true →
    cost u x ≤ cost u v + cost v x
  line_le : ∀ u v (p q : Coord K), g.coordinate u = .ok p.exact → g.coordinate v = .ok q.exact →
    d.hypot (q.x - p.x) (q.y - p.y) ≤ cost u v
  le_sides : ∀ r c r' c', r < params.height.toNat → c < params.width.toNat →
    r' < params.height.toNat → c' < params.width.toNat →
    cost (UInt32.ofNat (r * params.width.toNat + c))
        (UInt32.ofNat (r' * params.width.toNat + c'))
      ≤ (|(r' : K) - r| + |(c' : K) - c|) * (spacing * (1 + 4 * jitter))

section

variable [IsStrictOrderedRing K] {params : GeneratorParams (WithTop K)} {d : EvenDistance K}
  (std : Comparison.Sorter (GraphBuilder.stagedBefore (F := WithTop K))) {spacing jitter : K}

namespace GeneratorParams

/-- Between two nodes every algorithm reports the least cost. -/
theorem Fits.routeCost_eq (h : params.Fits) (hadmits : params.Admits d.lift) (hnorm : d.IsNorm)
    {u v : NodeId} (hu : (params.latticeGraph d.lift std).contains u = true)
    (hv : (params.latticeGraph d.lift std).contains v = true) :
    Digraph.LeastCost (params.latticeGraph d.lift std).HasArc u v
        ((routeCost (params.latticeGraph d.lift std) u v : K) : WithTop K) ∧
      ∀ algorithm, ∃ result, runSearch d.lift (params.latticeGraph d.lift std) u v algorithm
        = .ok result ∧ result.status = .found ∧
        result.cost = ((routeCost (params.latticeGraph d.lift std) u v : K) : WithTop K) :=
  RouteEngine.routeCost_eq (d := d.plane hnorm) (h.overArcs hadmits)
    (h.isLattice d std hadmits).passes hu hv (latticeGraph_connected std h hadmits hu hv)

theorem Fits.line_le (h : params.Fits) (hadmits : params.Admits d.lift) (hnorm : d.IsNorm)
    {u v : NodeId} {p q : Coord K}
    (hp : (params.latticeGraph d.lift std).coordinate u = .ok p.exact)
    (hq : (params.latticeGraph d.lift std).coordinate v = .ok q.exact) :
    d.hypot (q.x - p.x) (q.y - p.y) ≤ routeCost (params.latticeGraph d.lift std) u v := by
  have hu := contains_of_coordinate hp
  have hv := contains_of_coordinate hq
  have hle : d.lift (coordAt (params.latticeGraph d.lift std).coordinates u)
      (coordAt (params.latticeGraph d.lift std).coordinates v) ≤ _ :=
    lift_le_walkCost (d := d.plane hnorm) (h.overArcs hadmits) (h.isLattice d std hadmits).passes
      (h.routeCost_eq std hadmits hnorm hu hv).1.1
  rw [RouteEngine.coordinate_eq hu] at hp
  rw [RouteEngine.coordinate_eq hv] at hq
  rw [Except.ok.inj hp, Except.ok.inj hq] at hle
  exact WithTop.coe_le_coe.mp hle

/-- Different nodes are apart, and so the way from one to the other costs something. -/
theorem Usable.routeCost_pos (h : params.Usable) (hscale : params.Scale spacing jitter)
    (hadmits : params.Admits d.lift) (hnorm : d.IsNorm) {u v : NodeId}
    (hu : (params.latticeGraph d.lift std).contains u = true)
    (hv : (params.latticeGraph d.lift std).contains v = true) (hne : u ≠ v) :
    0 < routeCost (params.latticeGraph d.lift std) u v := by
  have hplaces := h.jittered hscale hadmits hnorm.separates std
  obtain ⟨p, hp⟩ := hscale.exists_coordinate std h.toFits hu
  obtain ⟨q, hq⟩ := hscale.exists_coordinate std h.toFits hv
  refine lt_of_lt_of_le (lt_of_le_of_ne (d.nonneg _ _) fun hzero => hne ?_)
    (h.line_le std hadmits hnorm hp hq)
  obtain ⟨hx, hy⟩ := hnorm.separates _ _ hzero.symm
  have hpoint : p = q := by
    cases p
    cases q
    exact Coord.mk.injEq _ _ _ _ ▸ ⟨(sub_eq_zero.mp hx).symm, (sub_eq_zero.mp hy).symm⟩
  exact hplaces.distinct u v _ hp (hpoint ▸ hq)

theorem Usable.distances (h : params.Usable) (hscale : params.Scale spacing jitter)
    (hadmits : params.Admits d.lift) (hnorm : d.IsNorm) :
    (params.latticeGraph d.lift std).Distances params d spacing jitter
      (routeCost (params.latticeGraph d.lift std)) := by
  have hover : (params.latticeGraph d.lift std).OverArcs d.lift _ := h.overArcs hadmits
  have hboth := h.hasArc_symm std hadmits
  have hleast := fun u v hu hv => (h.routeCost_eq std hadmits hnorm (u := u) (v := v) hu hv).1
  refine ⟨fun algorithm u v hu hv => (h.routeCost_eq std hadmits hnorm hu hv).2 algorithm,
    fun u hu => ?_, fun u v hu hv hne => h.routeCost_pos std hscale hadmits hnorm hu hv hne,
    fun u v hu hv => ?_, fun u v x hu hv hx => ?_,
    fun u v p q hp hq => h.line_le std hadmits hnorm hp hq, fun r c r' c' hr hc hr' hc' => ?_⟩
  · exact WithTop.coe_eq_zero.mp ((hleast u u hu hu).eq_zero_of_self hover.growing)
  · exact WithTop.coe_injective ((hleast u v hu hv).unique ((hleast v u hv hu).symm hboth))
  · exact WithTop.coe_le_coe.mp
      ((hleast u x hu hx).triangle (hleast u v hu hv) (hleast v x hv hx))
  · obtain ⟨cost, hwalk, hle⟩ := hscale.exists_walk std h.toFits hadmits hnorm hr hc hr' hc'
    have hu := h.contains_site (d := d) std (number_lt hr hc)
    have hv := h.contains_site (d := d) std (number_lt hr' hc')
    exact WithTop.coe_le_coe.mp (((hleast _ _ hu hv).2 hwalk).trans hle)

end GeneratorParams

end

/-- **Routes in a generated network keep a distance.** Whenever the generator returns, all three
algorithms report one and the same cost for each two nodes; these costs are zero only from a node
to itself, the same in both directions, keep the triangle inequality, and lie between the straight
line and `spacing * (1 + 4 * jitter)` for each row and column on the way. -/
theorem generate_distances {K : Type} [Field K] [LinearOrder K] [IsStrictOrderedRing K]
    (d : EvenDistance K) (hnorm : d.IsNorm)
    (std : Comparison.Sorter (GraphBuilder.stagedBefore (F := WithTop K)))
    (params : GeneratorParams (WithTop K)) (g : Graph (WithTop K))
    (hrun : generate d.lift std params = .ok g) :
    ∃ spacing jitter : K, params.spacing = spacing ∧ params.jitter = jitter ∧
      g.Distances params d spacing jitter (routeCost g) := by
  obtain ⟨husable, hadmits, -, rfl⟩ := GeneratorParams.generate_eq_ok_iff.mp hrun
  obtain ⟨spacing, jitter, hscale⟩ := husable.scale
  exact ⟨spacing, jitter, hscale.spacing_eq, hscale.jitter_eq,
    husable.distances std hscale hadmits hnorm⟩

/-- The hypotenuse is the norm of the plane. -/
theorem hypotenuse_eq_norm (x y : ℝ) : hypotenuse.hypot x y = ‖(⟨x, y⟩ : ℂ)‖ := by
  rw [Complex.norm_def, Complex.normSq_mk, ← sq, ← sq]
  rfl

theorem hypotenuse_isNorm : hypotenuse.IsNorm where
  zero := by
    rw [hypotenuse_eq_norm]
    exact norm_zero
  separates := hypotenuse_separates
  add_le x y x' y' := by
    rw [hypotenuse_eq_norm, hypotenuse_eq_norm, hypotenuse_eq_norm]
    exact norm_add_le (⟨x, y⟩ : ℂ) ⟨x', y'⟩
  le_sides x y := by
    rw [hypotenuse_eq_norm]
    exact Complex.norm_le_abs_re_add_abs_im ⟨x, y⟩

/-- One cell in the plane. -/
theorem generate_distances_square :
    ∃ g, generate hypotenuse.lift (Comparison.insertionSort _) realSquareParams = .ok g ∧
      ∃ spacing jitter : ℝ, realSquareParams.spacing = spacing ∧
        realSquareParams.jitter = jitter ∧
        g.Distances realSquareParams hypotenuse spacing jitter (routeCost g) := by
  obtain ⟨g, hrun⟩ := realSquareParams_generates (Comparison.insertionSort _)
  exact ⟨g, hrun, generate_distances hypotenuse hypotenuse_isNorm _ realSquareParams g hrun⟩

end RouteEngine
