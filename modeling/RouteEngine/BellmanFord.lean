import RouteEngine.Optimality
import RouteEngine.Library.NonnegBinary64

set_option autoImplicit false

/-! # The Bellman-Ford reference

`bellman_ford_distances` (`tests/support/bellman_ford.hpp`): rounds that relax all arcs in
place, with an early exit. One round bounds the walks with one more arc
(`bellmanFordRound_spec`), so the rounds reach the minimum that Dijkstra returns, in every
weight arithmetic. -/

namespace RouteEngine

variable {F : Type}

/-! ## The reference -/

section

variable [Zero F] [Top F] [Add F] [LT F] [DecidableLT F] [BEq F]

/-- The variables of a round: the distances and `changed`. -/
structure RoundState (F : Type) where
  distance : List F
  changed : Bool
  deriving DecidableEq

/-- The relaxation of one arc. -/
def relaxInPlace (fromDistance : F) (s : RoundState F) (arc : Arc F) :
    Outcome (RoundState F) := do
  let candidate := fromDistance + arc.weight
  let current ← subscript s.distance arc.target.toNat
  if candidate < current then
    let distance ← store s.distance arc.target.toNat candidate
    return ⟨distance, true⟩
  else return s

/-- The arcs of the node with index `u`. -/
def relaxRow (g : Graph F) (s : RoundState F) (u : Nat) : Outcome (RoundState F) := do
  let fromDistance ← subscript s.distance u
  if fromDistance == ⊤ then return s
  else
    let arcs ← g.arcsFrom (UInt32.ofNat u)
    arcs.foldlM (relaxInPlace fromDistance) s

def bellmanFordRound (g : Graph F) (distance : List F) : Outcome (RoundState F) :=
  (List.range g.nodeCount).foldlM (relaxRow g) ⟨distance, false⟩

/-- The remaining rounds. -/
def bellmanFordRounds (g : Graph F) : Nat → List F → Outcome (List F)
  | 0, distance => return distance
  | rounds + 1, distance => do
      let s ← bellmanFordRound g distance
      if !s.changed then return s.distance
      else bellmanFordRounds g rounds s.distance

def bellmanFordDistances (g : Graph F) (source : NodeId) : Outcome (List F) := do
  let distance := List.replicate g.nodeCount ⊤
  if g.nodeCount = 0 then return distance
  let distance ← store distance source.toNat 0
  bellmanFordRounds g (g.nodeCount - 1) distance

/-- The distance of a node. -/
def labelAt (distance : List F) (v : NodeId) : F := distance[v.toNat]?.getD ⊤

end

/-! ## One round -/

section

variable [LinearOrder F] [OrderTop F] [Zero F] [Add F] [AddRightMono F]
variable {distance : Coord F → Coord F → F} {g : Graph F} {staged : List (StagedArc F)}
variable {source : NodeId} {s t r : RoundState F}

/-- Every distance is the folded cost of a walk. -/
def RealDistances (g : Graph F) (source : NodeId) (d : List F) : Prop :=
  ∀ v, labelAt d v ≠ ⊤ → Digraph.WalkCost g.HasArc source v (labelAt d v)

/-- What relaxing arcs in place does: distances of walks are lowered to distances of walks,
and `changed` tells whether one was. -/
structure RoundState.Lowers (g : Graph F) (source : NodeId) (s t : RoundState F) : Prop where
  length_eq : t.distance.length = s.distance.length
  le : ∀ v, labelAt t.distance v ≤ labelAt s.distance v
  unchanged : t.changed = false → t = s
  real : RealDistances g source s.distance → RealDistances g source t.distance

namespace RoundState.Lowers

omit [AddRightMono F] in
theorem refl (s : RoundState F) : s.Lowers g source s :=
  ⟨rfl, fun _ => le_rfl, fun _ => rfl, id⟩

omit [AddRightMono F] in
theorem trans (hst : s.Lowers g source t) (htr : t.Lowers g source r) : s.Lowers g source r where
  length_eq := htr.length_eq.trans hst.length_eq
  le v := (htr.le v).trans (hst.le v)
  unchanged hr := by
    have hrt := htr.unchanged hr
    rw [hrt] at hr ⊢
    exact hst.unchanged hr
  real h := htr.real (hst.real h)

end RoundState.Lowers

omit [AddRightMono F] in
theorem relaxInPlace_spec (hlen : s.distance.length = g.nodeCount) {u : NodeId} {arc : Arc F}
    (harc : g.HasArc u arc.target arc.weight) (htarget : g.contains arc.target = true) {d : F}
    (hd : Digraph.WalkCost g.HasArc source u d) :
    ∃ t, relaxInPlace d s arc = .ok t ∧ s.Lowers g source t ∧
      labelAt t.distance arc.target ≤ d + arc.weight := by
  have hv : arc.target.toNat < s.distance.length := by
    rw [hlen]
    exact (g.contains_iff _).mp htarget
  have hcurrent : subscript s.distance arc.target.toNat = .ok (labelAt s.distance arc.target) := by
    rw [subscript_eq_ok, labelAt, List.getElem?_eq_getElem hv, Option.getD_some]
  unfold relaxInPlace
  rw [hcurrent]
  simp only [ok_bind]
  by_cases hlt : d + arc.weight < labelAt s.distance arc.target
  · have hlabel : ∀ v, labelAt (s.distance.set arc.target.toNat (d + arc.weight)) v
        = if v = arc.target then d + arc.weight else labelAt s.distance v := by
      intro v
      rw [labelAt, SearchState.getElem?_set_toNat _ _ hv]
      split_ifs <;> rfl
    -- only the label of the target changes, to the cost of a walk that ends with the arc
    rw [if_pos hlt, store_eq _ hv]
    refine ⟨_, rfl, ⟨by simp, fun v => ?_, by simp, fun hreal v hne => ?_⟩, ?_⟩
    · rw [hlabel]
      split_ifs with hva
      · rw [hva]
        exact hlt.le
      · exact le_rfl
    · rw [hlabel] at hne ⊢
      split_ifs at hne ⊢ with hva
      · rw [hva]
        exact hd.snoc harc
      · exact hreal v hne
    · rw [hlabel, if_pos rfl]
  · rw [if_neg hlt]
    exact ⟨s, rfl, .refl s, not_lt.mp hlt⟩

omit [AddRightMono F] in
theorem foldlM_relaxInPlace_spec {u : NodeId} {d : F}
    (hd : Digraph.WalkCost g.HasArc source u d) :
    ∀ (row : List (Arc F)) (s : RoundState F), s.distance.length = g.nodeCount →
      (∀ arc ∈ row, g.HasArc u arc.target arc.weight ∧ g.contains arc.target = true) →
      ∃ t, row.foldlM (relaxInPlace d) s = .ok t ∧ s.Lowers g source t ∧
        ∀ arc ∈ row, labelAt t.distance arc.target ≤ d + arc.weight := by
  intro row
  induction row with
  | nil => intro s _ _; exact ⟨s, rfl, .refl s, by simp⟩
  | cons arc row ih =>
      intro s hlen hrow
      obtain ⟨harc, htarget⟩ := hrow arc List.mem_cons_self
      obtain ⟨t, ht, hst, hle⟩ := relaxInPlace_spec hlen harc htarget hd
      obtain ⟨r, hr, htr, hrest⟩ := ih t (hst.length_eq.trans hlen)
        (fun a ha => hrow a (List.mem_cons_of_mem arc ha))
      refine ⟨r, ?_, hst.trans htr, fun a ha => ?_⟩
      · rw [List.foldlM_cons, ht, ok_bind, hr]
      · rcases List.mem_cons.mp ha with rfl | ha
        · exact (htr.le _).trans hle
        · exact hrest a ha

variable [Div F] [WeightArith F]

omit [AddRightMono F] in
/-- The arcs of a node are relaxed against the distance it has when its turn comes. -/
theorem relaxRow_spec (hg : g.OverArcs distance staged) {u : NodeId} (hu : g.contains u = true)
    (hlen : s.distance.length = g.nodeCount) (hreal : RealDistances g source s.distance) :
    ∃ t, relaxRow g s u.toNat = .ok t ∧ s.Lowers g source t ∧
      ∀ v w, g.HasArc u v w → labelAt t.distance v ≤ labelAt s.distance u + w := by
  have hv : u.toNat < s.distance.length := by
    rw [hlen]
    exact (g.contains_iff _).mp hu
  have hfrom : subscript s.distance u.toNat = .ok (labelAt s.distance u) := by
    rw [subscript_eq_ok, labelAt, List.getElem?_eq_getElem hv, Option.getD_some]
  unfold relaxRow
  rw [hfrom]
  simp only [ok_bind, beq_iff_eq, UInt32.ofNat_toNat]
  by_cases htop : labelAt s.distance u = ⊤
  · -- an unreached node is skipped, and an arc out of it costs `⊤` anyway
    rw [if_pos htop]
    refine ⟨s, rfl, .refl s, fun v w harc => ?_⟩
    rw [htop, WeightArith.top_add (hg.weight_nonneg harc)]
    exact le_top
  · rw [if_neg htop, hg.arcsFrom_eq hu, ok_bind]
    obtain ⟨t, ht, hst, hle⟩ := foldlM_relaxInPlace_spec (hreal u htop) (rowOf staged u) s hlen
      (fun arc harc => ⟨(hg.hasArc_iff_mem_rowOf _ _ _).mpr harc, hg.row_contains harc⟩)
    exact ⟨t, ht, hst, fun v w harc => hle ⟨v, w⟩ ((hg.hasArc_iff_mem_rowOf _ _ _).mp harc)⟩

/-- The rows of some nodes, by induction on the nodes still to come. -/
theorem foldlM_relaxRow_spec (hg : g.OverArcs distance staged) :
    ∀ (rows : List Nat) (s : RoundState F), (∀ i ∈ rows, i < g.nodeCount) →
      s.distance.length = g.nodeCount → RealDistances g source s.distance →
      ∃ t, rows.foldlM (relaxRow g) s = .ok t ∧ s.Lowers g source t ∧
        ∀ u v w, u.toNat ∈ rows → g.HasArc u v w →
          labelAt t.distance v ≤ labelAt s.distance u + w := by
  intro rows
  induction rows with
  | nil => intro s _ _ _; exact ⟨s, rfl, .refl s, by simp⟩
  | cons i rows ih =>
      intro s hrows hs hreals
      have hi := hrows i List.mem_cons_self
      have hid : (UInt32.ofNat i).toNat = i := toNat_ofNat_node (hi.trans_le hg.nodes_le)
      have hcontains : g.contains (UInt32.ofNat i) = true :=
        (g.contains_iff _).mpr (by rw [hid]; exact hi)
      obtain ⟨t, ht, hst, hle⟩ := relaxRow_spec hg hcontains hs hreals
      rw [hid] at ht
      obtain ⟨r, hr, htr, hrest⟩ := ih t (fun j hj => hrows j (List.mem_cons_of_mem i hj))
        (hst.length_eq.trans hs) (hst.real hreals)
      refine ⟨r, ?_, hst.trans htr, fun u v w hu harc => ?_⟩
      · rw [List.foldlM_cons, ht, ok_bind, hr]
      · rcases List.mem_cons.mp hu with heq | hmem
        · have hui : u = UInt32.ofNat i := by
            rw [← heq, UInt32.ofNat_toNat]
          subst hui
          calc labelAt r.distance v ≤ labelAt t.distance v := htr.le v
            _ ≤ labelAt s.distance (UInt32.ofNat i) + w := hle v w harc
        · -- the row of `u` comes later, when the label of `u` may be lower than at the start
          calc labelAt r.distance v ≤ labelAt t.distance u + w := hrest u v w hmem harc
            _ ≤ labelAt s.distance u + w := add_le_add_left (hst.le u) w

/-- **One round** relaxes every arc at least against the distances before the round. -/
theorem bellmanFordRound_spec (hg : g.OverArcs distance staged) {d : List F}
    (hlen : d.length = g.nodeCount) (hreal : RealDistances g source d) :
    ∃ t, bellmanFordRound g d = .ok t ∧ (⟨d, false⟩ : RoundState F).Lowers g source t ∧
      ∀ u v w, g.HasArc u v w → labelAt t.distance v ≤ labelAt d u + w := by
  obtain ⟨t, ht, hst, hle⟩ := foldlM_relaxRow_spec hg (List.range g.nodeCount) ⟨d, false⟩
    (fun i hi => List.mem_range.mp hi) hlen hreal
  refine ⟨t, ht, hst, fun u v w harc => hle u v w ?_ harc⟩
  rw [List.mem_range]
  exact (hg.admissible _ ((hg.hasArc_iff u v w).mp harc)).source_lt

/-! ## All rounds -/

/-- The rounds bound the walks that have at most as many arcs as rounds were made. -/
theorem bellmanFordRounds_spec (hg : g.OverArcs distance staged) :
    ∀ (rounds k : Nat) (d : List F), d.length = g.nodeCount → RealDistances g source d →
      labelAt d source ≤ 0 →
      (∀ vs v c, Digraph.Walk g.HasArc source vs v c → vs.length ≤ k → labelAt d v ≤ c) →
      ∃ d', bellmanFordRounds g rounds d = .ok d' ∧ d'.length = g.nodeCount ∧
        RealDistances g source d' ∧
        ∀ vs v c, Digraph.Walk g.HasArc source vs v c → vs.length ≤ k + rounds →
          labelAt d' v ≤ c := by
  intro rounds
  induction rounds with
  | zero => intro k d hlen hreal _ hk; exact ⟨d, rfl, hlen, hreal, hk⟩
  | succ rounds ih =>
      intro k d hlen hreal hsource hk
      obtain ⟨t, ht, hdt, hrelaxed⟩ := bellmanFordRound_spec hg hlen hreal
      have hlen' : t.distance.length = g.nodeCount := hdt.length_eq.trans hlen
      unfold bellmanFordRounds
      rw [ht, ok_bind]
      cases hchanged : t.changed with
      | false =>
          -- nothing was lowered, so the distances were already those of all walks
          have hsame := hdt.unchanged hchanged
          rw [hsame] at hrelaxed ⊢
          refine ⟨d, rfl, hlen, hreal, fun vs v c hw _ => ?_⟩
          have hcost : Digraph.WalkCost g.HasArc source v c := ⟨vs, hw⟩
          exact hcost.label_le_of_relaxed hsource hrelaxed
      | true =>
          -- the bound grows by one arc, the rounds left shrink by one
          obtain ⟨d', hd', hlen'', hreal', hbound⟩ := ih (k + 1) t.distance hlen'
            (hdt.real hreal) ((hdt.le source).trans hsource)
            (Digraph.Walk.label_le_succ hdt.le hrelaxed hk)
          refine ⟨d', hd', hlen'', hreal', fun vs v c hw hvs => hbound vs v c hw ?_⟩
          omega

/-- **The reference computes least costs.** A walk without cycles has fewer arcs than there
are nodes, and no walk is cheaper than one without cycles. -/
theorem bellmanFordDistances_least (hg : g.OverArcs distance staged)
    (hs : g.contains source = true) :
    ∃ d, bellmanFordDistances g source = .ok d ∧ d.length = g.nodeCount ∧
      ∀ v, g.contains v = true →
        IsLeast (insert ⊤ {c | Digraph.WalkCost g.HasArc source v c}) (labelAt d v) := by
  have hn := (g.contains_iff source).mp hs
  have hlen : source.toNat < (List.replicate g.nodeCount (⊤ : F)).length := by simpa using hn
  set start := (List.replicate g.nodeCount (⊤ : F)).set source.toNat 0 with hstart
  have hlabel : ∀ v, labelAt start v = if v = source then 0 else ⊤ := by
    intro v
    rw [labelAt, hstart, SearchState.getElem?_set_toNat _ _ hlen]
    split_ifs
    · rfl
    · simp only [List.getElem?_replicate]
      split_ifs <;> rfl
  have hreal : RealDistances g source start := by
    intro v hv
    rw [hlabel] at hv ⊢
    split_ifs at hv ⊢ with hvs
    · rw [hvs]
      exact Digraph.walkCost_nil
    · exact absurd rfl hv
  have hzero : labelAt start source ≤ 0 := by rw [hlabel, if_pos rfl]
  obtain ⟨d, hd, hlen', hreal', hbound⟩ := bellmanFordRounds_spec hg (g.nodeCount - 1) 0 start
    (by simp [hstart]) hreal hzero (by
      -- before the first round only the walk without arcs is bounded
      intro vs v c hw hvs
      cases hw with
      | nil => exact hzero
      | snoc _ _ => simp at hvs)
  refine ⟨d, ?_, hlen', fun v hv => ⟨?_, ?_⟩⟩
  · unfold bellmanFordDistances
    rw [if_neg (by omega), store_eq _ hlen]
    exact hd
  · by_cases htop : labelAt d v = ⊤
    · exact Or.inl htop
    · exact Or.inr (hreal' v htop)
  · rintro c (rfl | hc)
    · exact le_top
    · obtain ⟨vs, c', hw, hle, hlength⟩ := hg.exists_short_walk hs hc
      calc labelAt d v ≤ c' := hbound vs v c' hw (by omega)
        _ ≤ c := hle

end

/-- **Dijkstra returns the least folded cost, and so does the reference**, in every weight
arithmetic whose addition is monotone and never makes a sum smaller than its first summand. -/
theorem dijkstra_eq_bellmanFord {F : Type} [LinearOrder F] [OrderTop F] [Zero F] [Add F]
    [AddLeftMono F] [AddRightMono F] [WeightArith F] [Div F] (hzero : ∀ x : F, 0 ≤ x)
    (distance : Coord F → Coord F → F)
    (std : Comparison.Sorter (GraphBuilder.stagedBefore (F := F))) (g : Graph F)
    (hg : g.Built distance std) (source target : NodeId) (hs : g.contains source = true)
    (ht : g.contains target = true) :
    ∃ result distances, dijkstra g source target = .ok result ∧
      bellmanFordDistances g source = .ok distances ∧
      IsLeast (insert ⊤ {c | Digraph.WalkCost g.HasArc source target c}) result.cost ∧
      distances[target.toNat]? = some result.cost ∧
      (result.status = .found ↔ result.cost ≠ ⊤) := by
  obtain ⟨staged, hover⟩ := hg.exists_overArcs
  -- a node has finite coordinates, so not every value is `⊤`
  have htop : (0 : F) ≠ ⊤ := by
    intro heq
    have hsource := (g.contains_iff source).mp hs
    have hfin := (hover.coordinates_finite _ (List.getElem_mem hsource)).1
    rw [isFinite_eq_true_iff] at hfin
    exact hfin (top_le_iff.mp (heq ▸ hzero _))
  obtain ⟨result, hresult, hleast, hfound, -⟩ := dijkstra_least hover hs ht htop
  obtain ⟨distances, hdist, hlen, hleast'⟩ := bellmanFordDistances_least hover hs
  refine ⟨result, distances, hresult, hdist, hleast, ?_, hfound⟩
  have hlt : target.toNat < distances.length := by
    rw [hlen]
    exact (g.contains_iff _).mp ht
  rw [← (hleast' target ht).unique hleast, labelAt, List.getElem?_eq_getElem hlt,
    Option.getD_some]

/-! ## Rounded sums

The rounded addition of non-negative `double` values has the laws above. -/

instance : WeightArith NonnegBinary64 where
  add_zero := NonnegBinary64.add_zero
  le_add x w _ := NonnegBinary64.le_add x w

/-- Three nodes at one point and the weights `0.1`, `0.2` and `0.3`. The sum of the first two
is rounded to a value above the third. -/
def tenths : Graph NonnegBinary64 where
  coordinates := [⟨0, 0⟩, ⟨0, 0⟩, ⟨0, 0⟩]
  externalIds := [1, 2, 3]
  offsets := [0, 2, 3, 3]
  arcs := [⟨1, ⟨0x3FB999999999999A, by decide⟩⟩, ⟨2, ⟨0x3FD3333333333333, by decide⟩⟩,
    ⟨2, ⟨0x3FC999999999999A, by decide⟩⟩]
  metric := ⟨true, 0, 0, 0, ⊤⟩

theorem tenths_built : tenths.Built (fun _ _ => 0) (Comparison.insertionSort _) :=
  Graph.built_of_ofCalls
    (show Graph.ofCalls (fun _ _ => 0) (Comparison.insertionSort _) 3
      [.setNode 0 ⟨0, 0⟩ 1, .setNode 1 ⟨0, 0⟩ 2, .setNode 2 ⟨0, 0⟩ 3,
        .addArc 1 2 ⟨0x3FC999999999999A, by decide⟩, .addArc 0 2 ⟨0x3FD3333333333333, by decide⟩,
        .addArc 0 1 ⟨0x3FB999999999999A, by decide⟩] = .ok tenths by
      decide +kernel)

/-- The direct arc is the cheapest walk, by one rounding. -/
theorem dijkstra_eq_bellmanFord_tenths :
    ∃ result distances, dijkstra tenths 0 2 = .ok result ∧
      bellmanFordDistances tenths 0 = .ok distances ∧
      IsLeast (insert ⊤ {c | Digraph.WalkCost tenths.HasArc 0 2 c}) result.cost ∧
      distances[2]? = some result.cost ∧ result.path = [0, 2] := by
  obtain ⟨result, distances, hresult, hdist, hleast, hcost, -⟩ :=
    dijkstra_eq_bellmanFord NonnegBinary64.zero_le _ _ tenths tenths_built 0 2 rfl rfl
  refine ⟨result, distances, hresult, hdist, hleast, hcost, ?_⟩
  have hrun : dijkstra tenths 0 2 = .ok ⟨.found, ⟨0x3FD3333333333333, by decide⟩, [0, 2],
      ⟨3, 3, 0, 3, 3, 2, 2⟩⟩ := by
    decide +kernel
  rw [hrun, Except.ok.injEq] at hresult
  rw [← hresult]

end RouteEngine
