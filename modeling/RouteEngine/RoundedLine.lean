import Mathlib.Data.Rat.Floor
import RouteEngine.Optimality
import RouteEngine.Library.NearBestFirst
import RouteEngine.Library.NearestEven

set_option autoImplicit false

/-! # Rounded arithmetic on a line

The searches over rounded sums, on a graph whose nodes lie on one line. The stored distances are
rounded there, so the straight line is consistent only up to rounding
(`nearlyConsistent_lineTo`), and the cost that `astar_euclidean` returns is within a power of the
rounding factor of the least. -/

namespace RouteEngine

variable {K : Type} [Field K] [LinearOrder K] [IsStrictOrderedRing K] {r : Rounding K}

/-! ## The arithmetic -/

instance : WeightArith (WithTop (Rounded r)) where
  add_zero x := by
    cases x with
    | top => rfl
    | coe a => exact congrArg _ a.add_zero
  le_add x w hw := by
    by_cases hx : x = ⊤
    · rw [hx, WithTop.top_add]
    by_cases hwtop : w = ⊤
    · rw [hwtop, WithTop.add_top]
      exact le_top
    · lift x to Rounded r using hx
      lift w to Rounded r using hwtop
      exact WithTop.coe_le_coe.mpr (x.le_add (WithTop.coe_le_coe.mp hw))

/-- The number that a finite value stands for. -/
def valueOf (x : WithTop (Rounded r)) : K := (x.untopD 0).1

theorem valueOf_mono {a b : WithTop (Rounded r)} (hab : a ≤ b) (hb : b ≠ ⊤) :
    valueOf a ≤ valueOf b := by
  lift b to Rounded r using hb
  lift a to Rounded r using ne_top_of_le_ne_top WithTop.coe_ne_top hab
  exact Rounded.le_iff.mp (WithTop.coe_le_coe.mp hab)

theorem valueOf_nonneg {a : WithTop (Rounded r)} (h0 : 0 ≤ a) (ha : a ≠ ⊤) : 0 ≤ valueOf a :=
  valueOf_mono h0 ha

theorem valueOf_add {a b : WithTop (Rounded r)} (ha : a ≠ ⊤) (hb : b ≠ ⊤) :
    valueOf (a + b) = r.round (valueOf a + valueOf b) := by
  lift a to Rounded r using ha
  lift b to Rounded r using hb
  rfl

/-- A rounding that keeps a factor makes sums that keep it. -/
theorem approximates_valueOf {ρ : K} (h : r.Within ρ) :
    BestFirst.Approximates (valueOf (r := r)) ρ where
  one_le := h.one_le
  zero := rfl
  zero_ne_top := WithTop.coe_ne_top
  mono := valueOf_mono
  add_ne_top ha hb := WithTop.add_ne_top.mpr ⟨ha, hb⟩
  add_le ha0 hb0 ha hb := by
    rw [valueOf_add ha hb]
    exact h.round_le _ (add_nonneg (valueOf_nonneg ha0 ha) (valueOf_nonneg hb0 hb))
  le_add ha0 hb0 ha hb := by
    rw [valueOf_add ha hb]
    exact h.le_round _ (add_nonneg (valueOf_nonneg ha0 ha) (valueOf_nonneg hb0 hb))

/-! ## The distance -/

/-- `std::hypot(to.x - from.x, to.y - from.y)`, with rounded differences. -/
def hypotOf (hypot : Rounded r → Rounded r → Rounded r)
    (fromCoord toCoord : Coord (WithTop (Rounded r))) : WithTop (Rounded r) :=
  (hypot (toCoord.x.untopD 0 - fromCoord.x.untopD 0) (toCoord.y.untopD 0 - fromCoord.y.untopD 0) :
    Rounded r)

/-- All nodes lie on one horizontal line. -/
def Graph.OnLine {F : Type} (g : Graph F) : Prop := ∃ y, ∀ p ∈ g.coordinates, p.y = y

/-- The abscissa of a node. -/
def abscissa (g : Graph (WithTop (Rounded r))) (v : NodeId) : Rounded r :=
  (coordAt g.coordinates v).x.untopD 0

/-- The rounded distance from a node to the target on the line. -/
def lineTo (g : Graph (WithTop (Rounded r))) (target v : NodeId) : WithTop (Rounded r) :=
  ((abscissa g target - abscissa g v).abs : Rounded r)

section

variable {hypot : Rounded r → Rounded r → Rounded r} {g : Graph (WithTop (Rounded r))}
  {staged : List (StagedArc (WithTop (Rounded r)))} {u v target : NodeId}

theorem coordAt_mem {F : Type} [Zero F] {g : Graph F} {v : NodeId} (hv : g.contains v = true) :
    coordAt g.coordinates v ∈ g.coordinates := by
  have hlt : v.toNat < g.coordinates.length := (g.contains_iff v).mp hv
  rw [coordAt, List.getElem?_eq_getElem hlt]
  exact List.getElem_mem hlt

/-- **On a line the distance is the rounded difference of the abscissas.** -/
theorem hypotOf_coordAt (hline : ∀ dx, hypot dx 0 = dx.abs) (hg : g.OnLine)
    (hu : g.contains u = true) (hv : g.contains v = true) :
    hypotOf hypot (coordAt g.coordinates u) (coordAt g.coordinates v) = lineTo g v u := by
  rcases hg with ⟨y, hy⟩
  unfold hypotOf lineTo abscissa
  rw [hy _ (coordAt_mem hu), hy _ (coordAt_mem hv), Rounded.sub_self, hline]

theorem euclideanEstimate_lineTo (hline : ∀ dx, hypot dx 0 = dx.abs) (hg : g.OnLine)
    (ht : g.contains target = true) (hv : g.contains v = true) :
    euclideanEstimate (hypotOf hypot) g (coordAt g.coordinates target) v
      = .ok (lineTo g target v) := by
  unfold euclideanEstimate
  rw [coordinate_eq hv, ok_bind, hypotOf_coordAt hline hg hv ht]
  rfl

theorem lineTo_nonneg (g : Graph (WithTop (Rounded r))) (target v : NodeId) :
    0 ≤ lineTo g target v :=
  WithTop.coe_le_coe.mpr (Rounded.le_iff.mpr (abs_nonneg _))

theorem valueOf_lineTo (g : Graph (WithTop (Rounded r))) (target v : NodeId) :
    valueOf (lineTo g target v) = r.round |(abscissa g target).1 - (abscissa g v).1| :=
  (r.round_abs _).symm

/-- **The contract makes the straight line nearly consistent**: the triangle inequality holds of
the exact distances, and rounding changes each of them by a factor. -/
theorem nearlyConsistent_lineTo {ρ : K} (hρ : r.Within ρ) (hline : ∀ dx, hypot dx 0 = dx.abs)
    (hover : g.OverArcs (hypotOf hypot) staged) (hg : g.OnLine) (hpass : g.metric.passes = true)
    (target : NodeId) :
    BestFirst.NearlyConsistent g.HasArc valueOf ρ (lineTo g target) where
  nonneg := lineTo_nonneg g target
  ne_top _ := WithTop.coe_ne_top
  weight_nonneg := hover.weight_nonneg
  weight_ne_top := hover.weight_ne_top
  drop := by
    intro u v w harc
    have hmem := (hover.hasArc_iff u v w).mp harc
    have hadmissible := hover.admissible _ hmem
    have hu : g.contains u = true := (g.contains_iff u).mpr hadmissible.source_lt
    have hv : g.contains v = true := (g.contains_iff v).mpr hadmissible.target_lt
    rw [hover.metric_eq, canonicalReport_passes_iff] at hpass
    have hweight : lineTo g v u ≤ w := by
      rw [← hypotOf_coordAt hline hg hu hv]
      exact hpass _ hmem
    have hvalue := valueOf_mono hweight (hover.weight_ne_top harc)
    rw [valueOf_lineTo] at hvalue
    rw [valueOf_lineTo, valueOf_lineTo]
    have hρ0 : 0 ≤ ρ := zero_le_one.trans hρ.one_le
    have hfirst := hρ.le_round _ (abs_nonneg ((abscissa g v).1 - (abscissa g u).1))
    have hsecond := hρ.le_round _ (abs_nonneg ((abscissa g target).1 - (abscissa g v).1))
    have htriangle := abs_sub_le (abscissa g target).1 (abscissa g v).1 (abscissa g u).1
    calc r.round |(abscissa g target).1 - (abscissa g u).1|
        ≤ ρ * |(abscissa g target).1 - (abscissa g u).1| := hρ.round_le _ (abs_nonneg _)
      _ ≤ ρ * (ρ * valueOf w + ρ * r.round |(abscissa g target).1 - (abscissa g v).1|) := by
          apply mul_le_mul_of_nonneg_left _ hρ0
          have hscaled := mul_le_mul_of_nonneg_left hvalue hρ0
          linarith
      _ = ρ ^ 2 * (valueOf w + r.round |(abscissa g target).1 - (abscissa g v).1|) := by ring

/-! ## The searches -/

/-- **The guided search is off by a factor.** Dijkstra finds the least of the rounded costs, and
`astar_euclidean` finds a route whose rounded cost exceeds it by at most a power of the rounding
factor, with an exponent linear in the number of nodes. -/
theorem astarEuclidean_within {ρ : K} (hρ : r.Within ρ) (hline : ∀ dx, hypot dx 0 = dx.abs)
    (hover : g.OverArcs (hypotOf hypot) staged) (hg : g.OnLine) (hpass : g.metric.passes = true)
    {source : NodeId} (hs : g.contains source = true) (ht : g.contains target = true)
    (hreach : Digraph.Reachable g.HasArc source target) :
    ∃ reference result, dijkstra g source target = .ok reference ∧
      astarEuclidean (hypotOf hypot) g source target = .ok result ∧
      reference.status = .found ∧ result.status = .found ∧ result.cost ≠ ⊤ ∧
      reference.cost ≤ result.cost ∧
      valueOf result.cost ≤ ρ ^ (6 * g.nodeCount) * valueOf reference.cost := by
  have hnear := nearlyConsistent_lineTo hρ hline hover hg hpass target
  have happrox := approximates_valueOf hρ
  -- Dijkstra
  obtain ⟨reference, hreference, hleast, hfound, -⟩ :=
    dijkstra_least hover hs ht happrox.zero_ne_top
  rcases Digraph.reachable_iff_exists_walkCost.mp hreach with ⟨c, hc⟩
  have hfinite : reference.cost ≠ ⊤ :=
    ne_top_of_le_ne_top (hnear.walk_ne_top happrox hc) (hleast.2 (Or.inr hc))
  rcases hover.exists_short_walk hs (hleast.1.resolve_left hfinite) with
    ⟨vs, cost, hwalk, hcost, hlength⟩
  obtain rfl : cost = reference.cost := le_antisymm hcost (hleast.2 (Or.inr ⟨vs, hwalk⟩))
  -- A*
  have hest : ∀ v, g.contains v = true →
      euclideanEstimate (hypotOf hypot) g (coordAt g.coordinates target) v
        = .ok (lineTo g target v) :=
    fun v hv => euclideanEstimate_lineTo hline hg ht hv
  have hsource : 0 + lineTo g target source = lineTo g target source :=
    congrArg _ (Rounded.zero_add _)
  obtain ⟨es, t, result, hrun, hinv, hsearch, hends⟩ :=
    search_outcome hover hest (lineTo_nonneg g target) hs ht happrox.zero_ne_top hsource
  have hfound' := (found_iff_reachable hover (fun _ _ => happrox.add_ne_top) happrox.zero_ne_top
    hinv hends).mpr hreach
  have hlabels : BestFirst.Near g.HasArc source valueOf ρ (lineTo g target)
      (t.toBestFirst (es.map Expansion.node).reverse) := by
    have hkept := hrun.preserves (P := BestFirst.Near g.HasArc source valueOf ρ (lineTo g target))
      hover hest (lineTo_nonneg g target) ?_ (SearchInv.start target hs happrox.zero_ne_top hsource)
      (.start rfl)
    · rwa [List.append_nil] at hkept
    · intro s closed e b hinv hchoose hexp hnearly
      exact hnearly.expand hnear happrox hover.growing hinv.explored hexp hchoose.not_mem
        hchoose.labelled hchoose.minimal
  rw [astarEuclidean_eq _ hpass hs ht]
  refine ⟨reference, result, hreference, hsearch, hfound.mpr hfinite, hfound', ?_⟩
  rcases hends with ⟨-, rfl, -⟩ | ⟨e, rest, path, hchoose, rfl, -, -, rfl, -⟩
  · cases hfound'
  · have hlabel := hlabels.label_le hnear happrox hover.growing hinv.explored hchoose.not_mem
      hchoose.labelled hchoose.minimal hwalk
    refine ⟨hchoose.labelled, hleast.2 (Or.inr (hinv.explored.walk _ hchoose.labelled)), ?_⟩
    have hzero : valueOf (lineTo g e.node e.node) = 0 := by
      rw [valueOf_lineTo, sub_self, abs_zero, r.round_zero]
    rw [hzero, add_zero, add_zero] at hlabel
    calc valueOf (t.label e.node)
        ≤ ρ ^ (6 * vs.length + 2) * valueOf reference.cost := hlabel
      _ ≤ ρ ^ (6 * g.nodeCount) * valueOf reference.cost := by
          apply mul_le_mul_of_nonneg_right
          · exact pow_le_pow_right₀ hρ.one_le (by omega)
          · exact valueOf_nonneg (Digraph.WalkCost.nonneg hover.growing ⟨vs, hwalk⟩) hfinite

end

/-! ## Significands of 53 bits -/

/-- Rounding to nearest at 53 significant bits. -/
abbrev rounding53 : Rounding ℚ := nearestEven 52

/-- The finite values of `double` and those beyond its range, with an infinity on top. -/
abbrev Double53 := WithTop (Rounded rounding53)

/-- The factor of `rounding53`. -/
def factor53 : ℚ := 2 ^ 53 / (2 ^ 53 - 1)

/-- **What the metric contract guarantees in rounded arithmetic.** On a line, where `hypot` is the
absolute value of the rounded difference, let the stored report pass and let the target be
reachable. Both searches find a route, and the cost that `astar_euclidean` returns is at least
that of `dijkstra` and exceeds it by a factor of at most `factor53 ^ (6 * nodeCount)`. -/
theorem astarEuclidean_near_dijkstra
    (hypot : Rounded rounding53 → Rounded rounding53 → Rounded rounding53)
    (hline : ∀ dx, hypot dx 0 = dx.abs)
    (std : Comparison.Sorter (GraphBuilder.stagedBefore (F := Double53))) (g : Graph Double53)
    (hbuilt : g.Built (hypotOf hypot) std) (hg : g.OnLine) (hpass : g.metric.passes = true)
    (source target : NodeId) (hs : g.contains source = true) (ht : g.contains target = true)
    (hreach : Digraph.Reachable g.HasArc source target) :
    ∃ reference result, dijkstra g source target = .ok reference ∧
      astarEuclidean (hypotOf hypot) g source target = .ok result ∧
      reference.status = .found ∧ result.status = .found ∧ result.cost ≠ ⊤ ∧
      reference.cost ≤ result.cost ∧
      valueOf result.cost ≤ factor53 ^ (6 * g.nodeCount) * valueOf reference.cost := by
  obtain ⟨staged, hover⟩ := hbuilt.exists_overArcs
  exact astarEuclidean_within (nearestEven_within 52) hline hover hg hpass hs ht hreach

/-! ## A sum that is rounded down -/

/-- The value of `double` nearest to a number. -/
def nearest53 (x : ℚ) : Double53 := (Rounded.of rounding53 x : Rounded rounding53)

/-- A `hypot` of rounded arithmetic. -/
def sumHypot (dx dy : Rounded rounding53) : Rounded rounding53 := dx.abs + dy.abs

/-- A long arc, two short ones after it, and one that is as long as all three. -/
def detourCalls : List (BuilderCall Double53) :=
  [.setNode 0 ⟨nearest53 0, nearest53 0⟩ 7, .setNode 1 ⟨nearest53 2, nearest53 0⟩ 8,
    .setNode 2 ⟨nearest53 0, nearest53 0⟩ 9, .setNode 3 ⟨nearest53 1, nearest53 0⟩ 10,
    .addArc 0 2 (nearest53 (2 ^ 53)), .addArc 2 3 (nearest53 1), .addArc 3 1 (nearest53 1),
    .addArc 0 1 (nearest53 (2 ^ 53 + 2))]

/-- The graph after `detourCalls`. -/
def detour : Graph Double53 where
  coordinates := [⟨nearest53 0, nearest53 0⟩, ⟨nearest53 2, nearest53 0⟩,
    ⟨nearest53 0, nearest53 0⟩, ⟨nearest53 1, nearest53 0⟩]
  externalIds := [7, 8, 9, 10]
  offsets := [0, 2, 2, 3, 4]
  arcs := [⟨1, nearest53 (2 ^ 53 + 2)⟩, ⟨2, nearest53 (2 ^ 53)⟩, ⟨3, nearest53 1⟩,
    ⟨1, nearest53 1⟩]
  metric := ⟨true, 0, 0, 0, nearest53 1⟩

theorem sumHypot_zero (dx : Rounded rounding53) : sumHypot dx 0 = dx.abs := by
  have hzero : (0 : Rounded rounding53).abs = 0 := Subtype.ext abs_zero
  rw [sumHypot, hzero, Rounded.add_zero]

theorem detour_built : detour.Built (hypotOf sumHypot) (Comparison.insertionSort _) :=
  Graph.built_of_ofCalls
    (show Graph.ofCalls (hypotOf sumHypot) (Comparison.insertionSort _) 4 detourCalls
        = .ok detour by
      decide +kernel)

theorem detour_onLine : detour.OnLine := ⟨nearest53 0, by decide +kernel⟩

theorem detour_reachable : Digraph.Reachable detour.HasArc 0 1 :=
  .single ⟨nearest53 (2 ^ 53 + 2), _, rfl, by decide +kernel⟩

/-- The detour costs one unit in the last place less, and the bound covers that. -/
theorem astarEuclidean_near_dijkstra_detour :
    ∃ reference result, dijkstra detour 0 1 = .ok reference ∧
      astarEuclidean (hypotOf sumHypot) detour 0 1 = .ok result ∧
      valueOf result.cost ≤ factor53 ^ 24 * valueOf reference.cost := by
  obtain ⟨reference, result, hreference, hresult, -, -, -, -, hle⟩ :=
    astarEuclidean_near_dijkstra sumHypot sumHypot_zero (Comparison.insertionSort _) detour
      detour_built detour_onLine rfl 0 1 rfl rfl detour_reachable
  exact ⟨reference, result, hreference, hresult, hle⟩

/-- **The guided search can miss the least cost**: the sums along the detour are rounded down, but
the priority of its first node is not, and the direct arc is settled first. -/
theorem astarEuclidean_misses_dijkstra :
    ¬ ∀ (hypot : Rounded rounding53 → Rounded rounding53 → Rounded rounding53)
      (std : Comparison.Sorter (GraphBuilder.stagedBefore (F := Double53))) (g : Graph Double53)
      (source target : NodeId), (∀ dx, hypot dx 0 = dx.abs) → g.Built (hypotOf hypot) std →
      g.OnLine → g.metric.passes = true → g.contains source = true → g.contains target = true →
      Digraph.Reachable g.HasArc source target →
      ∃ reference result, dijkstra g source target = .ok reference ∧
        astarEuclidean (hypotOf hypot) g source target = .ok result ∧
        result.cost = reference.cost := by
  intro h
  rcases h sumHypot (Comparison.insertionSort _) detour 0 1 sumHypot_zero detour_built
    detour_onLine rfl rfl rfl detour_reachable with
    ⟨reference, result, hreference, hresult, hcost⟩
  have hdijkstra : (dijkstra detour 0 1).map SearchResult.cost = .ok (nearest53 (2 ^ 53)) := by
    decide +kernel
  have hastar : (astarEuclidean (hypotOf sumHypot) detour 0 1).map SearchResult.cost
      = .ok (nearest53 (2 ^ 53 + 2)) := by
    decide +kernel
  have hne : nearest53 (2 ^ 53 + 2) ≠ nearest53 (2 ^ 53) := by decide +kernel
  rw [hreference] at hdijkstra
  rw [hresult] at hastar
  apply hne
  calc nearest53 (2 ^ 53 + 2) = result.cost := (Except.ok.inj hastar).symm
    _ = reference.cost := hcost
    _ = nearest53 (2 ^ 53) := Except.ok.inj hdijkstra

end RouteEngine
