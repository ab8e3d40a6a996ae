import RouteEngine.SearchMap
import RouteEngine.BellmanFord
import RouteEngine.Double

set_option autoImplicit false

/-! # The searches on doubles

The weights of a built graph are finite and not below zero, with `-0.0` among them. Read without
their signs they are values of an ordered arithmetic, in which the theory of the search applies,
and a search on the doubles is the image of the search there (`Graph.unsigned`, `search_map`).
So what is proved of folded, rounded and overflowing costs holds of IEEE values as they are. -/

namespace RouteEngine

open Binary64 NonnegBinary64

/-! ## The same graph without signs -/

theorem costMap_toBinary64 : Digraph.CostMap toBinary64 where
  zero := rfl
  top := rfl
  lt_iff _ _ := toBinary64_lt
  beq_eq := toBinary64_beq

def StagedArc.unsigned (a : StagedArc Binary64) : StagedArc NonnegBinary64 :=
  ⟨a.source, a.target, ofBinary64 a.weight⟩

/-- The graph with its weights read without their signs; the coordinates are dropped. -/
def Graph.unsigned (g : Graph Binary64) (staged : List (StagedArc Binary64)) :
    Graph NonnegBinary64 :=
  canonicalGraph (fun _ _ => 0) (List.replicate g.nodeCount Coord.zero) g.externalIds
    (staged.map StagedArc.unsigned)

namespace StagedArc

variable {a b : StagedArc Binary64} {n : Nat}

theorem Admissible.unsigned (ha : a.Admissible n) : a.unsigned.Admissible n where
  source_lt := ha.source_lt
  target_lt := ha.target_lt
  finite := (isFinite_eq_true_iff _).mpr (ofBinary64_ne_top ha.finite)
  nonneg := not_lt.mpr (NonnegBinary64.zero_le _)

/-- The canonical order does not look at the signs of zeros. -/
theorem Admissible.stagedBefore_unsigned (ha : a.Admissible n) (hb : b.Admissible n) :
    GraphBuilder.stagedBefore a.unsigned b.unsigned = GraphBuilder.stagedBefore a b := by
  have hlt : a.unsigned.weight < b.unsigned.weight ↔ a.weight < b.weight :=
    ofBinary64_lt ha.finite ha.nonneg hb.finite hb.nonneg
  unfold GraphBuilder.stagedBefore
  rw [decide_eq_decide.mpr hlt]
  rfl

/-- Adding the weight to a cost is adding the value it is read as. -/
theorem Admissible.alike (ha : a.Admissible n) :
    Arc.Alike toBinary64 a.unsigned.toArc a.toArc :=
  ⟨rfl, fun x => toBinary64_add_ofBinary64 x ha.finite ha.nonneg⟩

end StagedArc

namespace Graph.OverArcs

variable {distance : Coord Binary64 → Coord Binary64 → Binary64} {g : Graph Binary64}
  {staged : List (StagedArc Binary64)}

theorem nodeCount_unsigned (g : Graph Binary64) (staged : List (StagedArc Binary64)) :
    (g.unsigned staged).nodeCount = g.nodeCount :=
  List.length_replicate

/-- The graph without signs is built, too. -/
theorem unsigned (hg : g.OverArcs distance staged) :
    (g.unsigned staged).OverArcs (fun _ _ => 0) (staged.map StagedArc.unsigned) where
  eq := rfl
  nodes_le := (nodeCount_unsigned g staged).trans_le hg.nodes_le
  externalIds_length := hg.externalIds_length.trans (nodeCount_unsigned g staged).symm
  coordinates_finite := by
    intro c hc
    obtain rfl : c = Coord.zero := List.eq_of_mem_replicate hc
    exact ⟨by decide, by decide⟩
  arcs_le := by
    rw [List.length_map]
    exact hg.arcs_le
  sorted := by
    refine List.pairwise_map.mpr (hg.sorted.imp_of_mem fun {a b} ha hb hab => ?_)
    rw [(hg.admissible b hb).stagedBefore_unsigned (hg.admissible a ha)]
    exact hab
  admissible := by
    intro a ha
    obtain ⟨b, hb, rfl⟩ := List.mem_map.mp ha
    rw [nodeCount_unsigned]
    exact (hg.admissible b hb).unsigned

/-- **The graph is the image of the one without signs.** -/
theorem alike_unsigned (hg : g.OverArcs distance staged) :
    (g.unsigned staged).Alike toBinary64 g where
  nodeCount := (nodeCount_unsigned g staged).symm
  offsets := by
    have hbelow : ∀ i, Csr.below StagedArc.row (staged.map StagedArc.unsigned) i
        = Csr.below StagedArc.row staged i := fun i => List.countP_map
    show g.offsets = canonicalOffsets (List.replicate g.nodeCount Coord.zero).length _
    rw [hg.offsets_eq, List.length_replicate]
    unfold canonicalOffsets
    simp only [hbelow]
  arcs := by
    rw [hg.arcs_eq]
    show List.Forall₂ _ ((staged.map StagedArc.unsigned).map StagedArc.toArc) _
    rw [List.map_map, List.forall₂_map_left_iff, List.forall₂_map_right_iff, List.forall₂_same]
    exact fun a ha => (hg.admissible a ha).alike

theorem contains_unsigned (hg : g.OverArcs distance staged) (v : NodeId) :
    (g.unsigned staged).contains v = g.contains v :=
  (hg.alike_unsigned.contains_eq v).symm

theorem hasArc_iff_mem_staged (hg : g.OverArcs distance staged) {u v : NodeId} {w : Binary64} :
    g.HasArc u v w ↔ (⟨u, v, w⟩ : StagedArc Binary64) ∈ staged := by
  constructor
  · rintro ⟨row, hrow, hmem⟩
    have hu : g.contains u = true := by
      by_contra hu
      rw [Bool.not_eq_true] at hu
      simp [arcsFrom, hu, outOfRange] at hrow
    obtain rfl := Except.ok.inj ((hg.arcsFrom_eq hu).symm.trans hrow)
    exact mem_rowOf.mp hmem
  · intro hmem
    have hu := (g.contains_iff u).mpr (hg.admissible _ hmem).source_lt
    exact ⟨_, hg.arcsFrom_eq hu, mem_rowOf.mpr hmem⟩

/-- The arcs without signs are those of the graph. -/
theorem hasArc_unsigned_iff (hg : g.OverArcs distance staged) {u v : NodeId} {w : NonnegBinary64} :
    (g.unsigned staged).HasArc u v w ↔ ∃ w', g.HasArc u v w' ∧ ofBinary64 w' = w := by
  rw [hg.unsigned.hasArc_iff, List.mem_map]
  constructor
  · rintro ⟨⟨u', v', w'⟩, hmem, heq⟩
    obtain ⟨rfl, rfl, rfl⟩ := StagedArc.mk.inj heq
    exact ⟨w', hg.hasArc_iff_mem_staged.mpr hmem, rfl⟩
  · rintro ⟨w', harc, rfl⟩
    exact ⟨⟨u, v, w'⟩, hg.hasArc_iff_mem_staged.mp harc, rfl⟩

/-- The walks of the graph are those of the graph without signs. -/
theorem walkCost_unsigned_iff (hg : g.OverArcs distance staged) {s v : NodeId} {c : Binary64} :
    Digraph.WalkCost g.HasArc s v c ↔
      ∃ c', Digraph.WalkCost (g.unsigned staged).HasArc s v c' ∧ c'.toBinary64 = c :=
  hg.alike_unsigned.walkCost_iff rfl

end Graph.OverArcs

/-! ## The searches -/

/-- What is said of a search on doubles that returned: a reported route is a walk, the checker
accepts it with exactly the cost, which is finite, and a result without a route is empty. -/
structure SearchResult.SoundOnDoubles (g : Graph Binary64) (source target : NodeId)
    (result : SearchResult Binary64) : Prop where
  finite : result.status = .found → result.cost.isFinite = true
  walk : result.status = .found → Digraph.WalkCost g.HasArc source target result.cost
  check : result.status = .found →
    checkPath g result source target = .ok ⟨true, result.cost, ""⟩ ∧ result.path.Nodup
  nodes : result.status = .found → ∀ v ∈ result.path, g.contains v = true
  empty : result.status = .unreachable → result.cost = ⊤ ∧ result.path = []

section

variable {distance : Coord Binary64 → Coord Binary64 → Binary64} {g : Graph Binary64}
  {staged : List (StagedArc Binary64)} {source target : NodeId}
  {estimate : NodeId → Outcome Binary64}

/-- The heuristic without signs. -/
def unsignedEstimate (estimate : NodeId → Outcome Binary64) (v : NodeId) :
    Outcome NonnegBinary64 :=
  (estimate v).map ofBinary64

/-- Values of a heuristic without a sign bit act like what they are read as. -/
theorem estimatesAlike_unsigned
    (h : ∀ v x, estimate v = .ok x → x.isNaN = false ∧ x.negative = false) (v : NodeId) :
    EstimatesAlike toBinary64 (unsignedEstimate estimate v) (estimate v) := by
  unfold unsignedEstimate
  cases hv : estimate v with
  | error e => rfl
  | ok x =>
      have heq : (ofBinary64 x).toBinary64 = x :=
        toBinary64_ofBinary64 (h v x hv).1 (h v x hv).2
      refine ⟨heq.symm, fun a => ?_⟩
      rw [toBinary64_add, heq]

/-- **A search on doubles is the image of the search without signs.** -/
theorem search_unsigned (hg : g.OverArcs distance staged)
    (h : ∀ v x, estimate v = .ok x → x.isNaN = false ∧ x.negative = false) :
    search g source target estimate
      = (search (g.unsigned staged) source target (unsignedEstimate estimate)).map
          (SearchResult.map toBinary64) :=
  search_map costMap_toBinary64 hg.alike_unsigned (estimatesAlike_unsigned h) source target

/-- The image of a sound result is sound. -/
theorem soundOnDoubles_of_ends (hg : g.OverArcs distance staged) {h : NodeId → NonnegBinary64}
    {t : SearchState NonnegBinary64} {es expanded : List (Expansion NonnegBinary64)}
    {result : SearchResult NonnegBinary64}
    (hinv : SearchInv (g.unsigned staged) source target h t (es.map Expansion.node).reverse)
    (hends : t.Ends (g.unsigned staged) source target h es result expanded) :
    (result.map toBinary64).SoundOnDoubles g source target := by
  rcases hends with ⟨-, rfl, -⟩ | ⟨e, rest, path, hchoose, rfl, hpath, hnodup, rfl, -⟩
  · refine ⟨?_, ?_, ?_, ?_, fun _ => ⟨rfl, rfl⟩⟩ <;> exact fun h => by cases h
  · obtain ⟨hcheck, hhead, hnodes⟩ := checkSteps_path hg.unsigned hinv hpath hchoose.labelled
    refine ⟨fun _ => ?_, fun _ => ?_, fun _ => ⟨?_, ?_⟩, fun _ v hv => ?_, fun h => by cases h⟩
    · show (toBinary64 _).isFinite = true
      rw [isFinite_toBinary64]
      exact decide_eq_true hchoose.labelled
    · exact hg.walkCost_unsigned_iff.mpr ⟨_, hinv.explored.walk _ hchoose.labelled, rfl⟩
    · rw [checkPath_map (φ := toBinary64) rfl hg.alike_unsigned]
      obtain ⟨tail, rfl⟩ := exists_cons_of_path hpath
      have hlast : (e.node :: tail).reverse.getLast? = some e.node := by simp
      unfold checkPath
      simp only [hhead, hlast]
      simp only [SearchResult.found, decide_true, Bool.not_true, Bool.false_eq_true, if_false,
        ne_eq, not_true_eq_false, List.isEmpty_reverse, List.isEmpty_cons, hcheck]
      rfl
    · exact List.nodup_reverse.mpr hnodup
    · rw [← hg.contains_unsigned]
      exact hnodes v (List.mem_reverse.mp hv)

/-- **Every search on doubles returns a sound result**, whatever the rounding, and whatever
overflows. -/
theorem search_sound (hg : g.OverArcs distance staged)
    (h : ∀ v x, estimate v = .ok x → x.isNaN = false ∧ x.negative = false)
    (hest : ∀ v, g.contains v = true → ∃ x, estimate v = .ok x)
    (hs : g.contains source = true) (ht : g.contains target = true) :
    ∃ result, search g source target estimate = .ok result ∧
      result.SoundOnDoubles g source target := by
  let value : NodeId → NonnegBinary64 := fun v =>
    match unsignedEstimate estimate v with | .ok x => x | .error _ => 0
  have hvalue : ∀ v, (g.unsigned staged).contains v = true →
      unsignedEstimate estimate v = .ok (value v) := by
    intro v hv
    rw [hg.contains_unsigned] at hv
    obtain ⟨x, hx⟩ := hest v hv
    simp only [value, unsignedEstimate, hx, Except.map]
  obtain ⟨es, t, result, -, hinv, hsearch, hends⟩ := search_outcome hg.unsigned hvalue
    (fun v => NonnegBinary64.zero_le _) ((hg.contains_unsigned source).trans hs)
    ((hg.contains_unsigned target).trans ht) (by decide) (NonnegBinary64.zero_add _)
  refine ⟨result.map toBinary64, ?_, soundOnDoubles_of_ends hg hinv hends⟩
  rw [search_unsigned hg h, hsearch]
  rfl

theorem zeroEstimate_unsigned (v : NodeId) {x : Binary64} (hx : zeroEstimate v = .ok x) :
    x.isNaN = false ∧ x.negative = false := by
  obtain rfl : (0 : Binary64) = x := Except.ok.inj hx
  exact ⟨by decide, by decide⟩

/-- The coordinates of a node of a built graph are finite. -/
theorem finite_of_coordinate (hg : g.OverArcs distance staged) {v : NodeId} {p : Coord Binary64}
    (hp : g.coordinate v = .ok p) : isFinite p.x = true ∧ isFinite p.y = true := by
  rw [Graph.coordinate, contains_of_coordinate hp] at hp
  exact hg.coordinates_finite p (List.mem_of_getElem? (subscript_eq_ok.mp hp))

/-- The straight line to a node of the graph is a number without a sign. -/
theorem euclideanEstimate_unsigned (hg : g.OverArcs distance staged)
    (hdistance : UnsignedDistance distance) {target : NodeId} {q : Coord Binary64}
    (hq : g.coordinate target = .ok q) (v : NodeId) {x : Binary64}
    (hx : euclideanEstimate distance g q v = .ok x) : x.isNaN = false ∧ x.negative = false := by
  obtain ⟨p, hp, hx⟩ := bind_eq_ok.mp hx
  obtain rfl := Except.ok.inj hx
  obtain ⟨hpx, hpy⟩ := finite_of_coordinate hg hp
  obtain ⟨hqx, hqy⟩ := finite_of_coordinate hg hq
  exact hdistance p q hpx hpy hqx hqy

/-- Every algorithm that does not refuse the graph returns a sound result. -/
theorem runSearch_sound (hg : g.OverArcs distance staged) (hdistance : UnsignedDistance distance)
    (hs : g.contains source = true) (ht : g.contains target = true) (algorithm : Algorithm)
    (hpass : algorithm = .astarEuclidean → g.metric.passes = true) :
    ∃ result, runSearch distance g source target algorithm = .ok result ∧
      result.SoundOnDoubles g source target := by
  apply runSearch_rule (p := fun outcome => ∃ result, outcome = .ok result ∧
    result.SoundOnDoubles g source target)
  · rw [dijkstra_eq hs ht]
    exact search_sound hg (fun v _ => zeroEstimate_unsigned v) (fun _ _ => ⟨0, rfl⟩) hs ht
  · intro halgorithm
    rw [astarEuclidean_eq distance (hpass halgorithm) hs ht]
    refine search_sound hg
      (fun v _ => euclideanEstimate_unsigned hg hdistance (coordinate_eq ht) v)
      (fun v hv => ?_) hs ht
    unfold euclideanEstimate
    rw [coordinate_eq hv]
    exact ⟨_, rfl⟩

theorem soundOnDoubles_of_eq_ok (hg : g.OverArcs distance staged)
    (hdistance : UnsignedDistance distance) {algorithm : Algorithm}
    {result : SearchResult Binary64}
    (h : runSearch distance g source target algorithm = .ok result) :
    result.SoundOnDoubles g source target := by
  obtain ⟨hs, ht, hpass⟩ := of_runSearch_eq_ok h
  obtain ⟨result', hresult', hsound⟩ := runSearch_sound hg hdistance hs ht algorithm hpass
  obtain rfl : result' = result := Except.ok.inj (hresult'.symm.trans h)
  exact hsound

/-- **Dijkstra on doubles, without signs**: the least folded cost, and a simple walk that has
it. -/
theorem dijkstra_unsigned (hg : g.OverArcs distance staged)
    (hs : g.contains source = true) (ht : g.contains target = true) :
    ∃ result : SearchResult NonnegBinary64,
      dijkstra g source target = .ok (result.map toBinary64) ∧
      IsLeast (insert ⊤ {c | Digraph.WalkCost (g.unsigned staged).HasArc source target c})
        result.cost ∧
      (result.status = .found ↔ result.cost ≠ ⊤) ∧
      (result.status = .found → ∃ before, result.path = (target :: before).reverse ∧
        (target :: before).Nodup ∧
        Digraph.Walk (g.unsigned staged).HasArc source before target result.cost) := by
  have hs' := (hg.contains_unsigned source).trans hs
  have ht' := (hg.contains_unsigned target).trans ht
  obtain ⟨result, hresult, hleast, hfound, -⟩ := dijkstra_least hg.unsigned hs' ht' (by decide)
  rw [dijkstra_eq hs' ht'] at hresult
  refine ⟨result, ?_, hleast, hfound, ?_⟩
  · rw [dijkstra_eq hs ht, search_unsigned hg (fun v _ => zeroEstimate_unsigned v)]
    exact congrArg (Except.map (SearchResult.map toBinary64)) hresult
  · obtain ⟨es, t, result', hsearch, hend, -, hends⟩ :=
      search_guided hg.unsigned (fun _ _ => rfl) (zeroHeuristic hg.unsigned) hs' ht' (by decide)
        (NonnegBinary64.zero_add 0)
    obtain rfl : result' = result := Except.ok.inj (hsearch.symm.trans hresult)
    rcases hends with ⟨-, rfl, -⟩ | ⟨e, rest, path, hchoose, rfl, hpath, hnodup, rfl, -⟩
    · exact fun h => by cases h
    · intro _
      obtain ⟨before, rfl, hwalk⟩ := hend.inv.explored.walk_of_path hpath hchoose.labelled
      exact ⟨before, rfl, hnodup, hwalk⟩

/-- Dijkstra's cost on doubles is finite exactly when the cost of some walk is, and it is the
least. -/
theorem dijkstra_least_doubles (hg : g.OverArcs distance staged)
    (hs : g.contains source = true) (ht : g.contains target = true) :
    ∃ result, dijkstra g source target = .ok result ∧
      (result.status = .found ↔
        ∃ c : Binary64, c.isFinite = true ∧ Digraph.WalkCost g.HasArc source target c) ∧
      ∀ c, Digraph.WalkCost g.HasArc source target c → result.cost ≤ c := by
  obtain ⟨result, hresult, hleast, hfound, -⟩ := dijkstra_unsigned hg hs ht
  refine ⟨result.map toBinary64, hresult, hfound.trans ⟨fun hne => ?_, ?_⟩, fun c hc => ?_⟩
  · refine ⟨result.cost.toBinary64, ?_,
      hg.walkCost_unsigned_iff.mpr ⟨_, hleast.1.resolve_left hne, rfl⟩⟩
    rw [isFinite_toBinary64]
    exact decide_eq_true hne
  · rintro ⟨c, hfin, hc⟩
    obtain ⟨c', hc', rfl⟩ := hg.walkCost_unsigned_iff.mp hc
    rw [isFinite_toBinary64] at hfin
    exact ne_top_of_le_ne_top (of_decide_eq_true hfin) (hleast.2 (Or.inr hc'))
  · obtain ⟨c', hc', rfl⟩ := hg.walkCost_unsigned_iff.mp hc
    exact toBinary64_le.mpr (hleast.2 (Or.inr hc'))

end

/-- **The searches on IEEE doubles.** On every graph the builder makes, with rounding, signed
zeros and overflow as they are, a search that does not refuse the graph returns: no subscript
fails and no loop goes on for ever. A reported route is a walk whose folded cost is exactly the
returned one, as the checker finds too. -/
theorem runSearch_doubles (distance : Coord Binary64 → Coord Binary64 → Binary64)
    (hdistance : UnsignedDistance distance)
    (std : Comparison.Sorter (GraphBuilder.stagedBefore (F := Binary64)))
    (g : Graph Binary64) (hg : g.Built distance std) (source target : NodeId)
    (hs : g.contains source = true) (ht : g.contains target = true) (algorithm : Algorithm)
    (hpass : algorithm = .astarEuclidean → g.metric.passes = true) :
    ∃ result, runSearch distance g source target algorithm = .ok result ∧
      result.SoundOnDoubles g source target := by
  obtain ⟨staged, hover⟩ := hg.exists_overArcs
  exact runSearch_sound hover hdistance hs ht algorithm hpass

/-- A weight `-0.0`, and a dearer way around it. -/
def signedRoad : Graph Binary64 where
  coordinates := [⟨0, 0⟩, ⟨0, 0⟩, ⟨1, 0⟩]
  externalIds := [1, 2, 3]
  offsets := [0, 2, 3, 3]
  arcs := [⟨1, negZero⟩, ⟨2, 1 + 1⟩, ⟨2, 1⟩]
  metric := ⟨true, 0, 0, 0, 1⟩

theorem signedRoad_built : signedRoad.Built lineDistance (Comparison.insertionSort _) :=
  Graph.built_of_ofCalls
    (show Graph.ofCalls lineDistance (Comparison.insertionSort _) 3
      [.setNode 0 ⟨0, 0⟩ 1, .setNode 1 ⟨0, 0⟩ 2, .setNode 2 ⟨1, 0⟩ 3,
        .addArc 0 2 (1 + 1), .addArc 1 2 1, .addArc 0 1 negZero] = .ok signedRoad by
      decide +kernel)

/-- A* takes the arc of weight `-0.0`. -/
theorem runSearch_doubles_signedRoad :
    ∃ result, runSearch lineDistance signedRoad 0 2 .astarEuclidean = .ok result ∧
      result.SoundOnDoubles signedRoad 0 2 ∧ result.cost = 1 ∧ result.path = [0, 1, 2] := by
  obtain ⟨result, hresult, hsound⟩ := runSearch_doubles lineDistance lineDistance_unsigned _
    signedRoad signedRoad_built 0 2 rfl rfl .astarEuclidean (fun _ => rfl)
  refine ⟨result, hresult, hsound, ?_⟩
  have hrun : (runSearch lineDistance signedRoad 0 2 .astarEuclidean).map
      (fun r => (r.cost, r.path)) = .ok (1, [0, 1, 2]) := by
    decide +kernel
  rw [hresult] at hrun
  exact Prod.mk.inj (Except.ok.inj hrun)

/-- **Dijkstra is optimal in the arithmetic of doubles.** It reports a route exactly when some
walk has a finite cost, summed and rounded along the walk; no walk costs less than the reported
route, and so no route that another algorithm reports does. -/
theorem dijkstra_doubles (distance : Coord Binary64 → Coord Binary64 → Binary64)
    (hdistance : UnsignedDistance distance)
    (std : Comparison.Sorter (GraphBuilder.stagedBefore (F := Binary64)))
    (g : Graph Binary64) (hg : g.Built distance std) (source target : NodeId)
    (hs : g.contains source = true) (ht : g.contains target = true) :
    ∃ result, dijkstra g source target = .ok result ∧
      (result.status = .found ↔
        ∃ c : Binary64, c.isFinite = true ∧ Digraph.WalkCost g.HasArc source target c) ∧
      (∀ c, Digraph.WalkCost g.HasArc source target c → result.cost ≤ c) ∧
      ∀ algorithm other, runSearch distance g source target algorithm = .ok other →
        other.status = .found → result.status = .found ∧ result.cost ≤ other.cost := by
  obtain ⟨staged, hover⟩ := hg.exists_overArcs
  obtain ⟨result, hresult, hiff, hle⟩ := dijkstra_least_doubles hover hs ht
  refine ⟨result, hresult, hiff, hle, fun algorithm other hother hstatus => ?_⟩
  have hsound := soundOnDoubles_of_eq_ok hover hdistance hother
  exact ⟨hiff.mpr ⟨_, hsound.finite hstatus, hsound.walk hstatus⟩, hle _ (hsound.walk hstatus)⟩

/-- The two walks of the road cost `1` and `2`. -/
theorem dijkstra_doubles_signedRoad :
    ∃ result, dijkstra signedRoad 0 2 = .ok result ∧ result.status = .found ∧ result.cost = 1 := by
  obtain ⟨result, hresult, hiff, -⟩ := dijkstra_doubles lineDistance lineDistance_unsigned _
    signedRoad signedRoad_built 0 2 rfl rfl
  have hrun : (dijkstra signedRoad 0 2).map SearchResult.cost = .ok 1 := by decide +kernel
  rw [hresult] at hrun
  have hwalk : Digraph.WalkCost signedRoad.HasArc 0 2 (0 + (1 + 1 : Binary64)) :=
    Digraph.walkCost_nil.snoc
      ⟨[⟨1, negZero⟩, ⟨2, 1 + 1⟩], rfl, List.mem_cons_of_mem _ List.mem_cons_self⟩
  exact ⟨result, hresult, hiff.mpr ⟨_, by decide +kernel, hwalk⟩, Except.ok.inj hrun⟩

end RouteEngine
