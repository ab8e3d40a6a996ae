import RouteEngine.CsvLoad
import RouteEngine.Double
import RouteEngine.CsvWriter
import RouteEngine.Search

set_option autoImplicit false

/-! # The order of the arcs

`build` sorts the arcs, so the order of the `add_arc` calls shows in the graph only where the
sort sees no difference between two arcs that differ. Weights are finite and not negative, and
of these values only `-0.0` and `0.0` differ and compare equal. -/

namespace RouteEngine

variable {F : Type}

/-! ## A sequence of `add_arc` calls and `build` -/

namespace GraphBuilder

section

variable [IsFinite F] [Zero F] [LT F] [DecidableLT F]

/-- The calls `add_arc(arc)` for each arc in turn. -/
def addArcs (b : GraphBuilder F) (arcs : List (StagedArc F)) : Outcome (GraphBuilder F) :=
  arcs.foldlM (fun b a => do
    let (_, b) ← (addArc a.source a.target a.weight).call b
    return b) b

omit [DecidableLT F] in
theorem Valid.withArcs {b : GraphBuilder F} (h : b.Valid) {arcs : List (StagedArc F)}
    (hadm : ∀ a ∈ arcs, a.Admissible b.coordinates.length)
    (hcap : b.staged.length + arcs.length ≤ maxArcCount) : (b.withArcs arcs).Valid := by
  refine ⟨h.nodes_le, h.externalIds_length, h.assigned_length, h.assignedCount_eq,
    h.coordinates_finite, ?_, ?_⟩
  · simpa [GraphBuilder.withArcs] using hcap
  · intro a ha
    rcases List.mem_append.mp ha with ha | ha
    · exact h.admissible a ha
    · exact hadm a ha

/-- The calls return if every arc is admitted and there is room for all of them. -/
theorem addArcs_eq_ok_iff (arcs : List (StagedArc F)) {b : GraphBuilder F} (h : b.Valid)
    (hopen : b.consumed = false) {b' : GraphBuilder F} :
    b.addArcs arcs = .ok b' ↔
      (∀ a ∈ arcs, a.Admissible b.coordinates.length) ∧
        b.staged.length + arcs.length ≤ maxArcCount ∧ b' = b.withArcs arcs := by
  induction arcs generalizing b with
  | nil =>
      have hle := h.staged_le
      simp [addArcs, hle, eq_comm]
  | cons a arcs ih =>
      rw [addArcs, List.foldlM_cons, Method.call, addArc_eq]
      cases hfail : b.addArcFailure a.source a.target a.weight with
      | some e =>
          -- the first arc is refused, for one of the reasons that the right side excludes
          show (Except.error e : Outcome (GraphBuilder F)) = .ok b' ↔ _
          simp only [reduceCtorEq, false_iff, not_and]
          intro hadm hcap
          have hnone : b.addArcFailure a.source a.target a.weight = none := by
            rw [addArcFailure_eq_none_iff]
            rw [List.length_cons] at hcap
            exact ⟨hopen, hadm a (by simp), by omega⟩
          rw [hnone] at hfail
          cases hfail
      | none =>
          have hadm := ((b.addArcFailure_eq_none_iff _ _ _).mp hfail).2.1
          have hstep : (b.withArc a.source a.target a.weight).withArcs arcs
              = b.withArcs (a :: arcs) := by
            simp [withArc, withArcs]
          have hlen : (b.withArc a.source a.target a.weight).staged.length + arcs.length
              = b.staged.length + (a :: arcs).length := by
            simp only [withArc, List.length_append, List.length_cons, List.length_nil]
            omega
          have hmem : (∀ x ∈ a :: arcs, x.Admissible b.coordinates.length)
              ↔ ∀ x ∈ arcs, x.Admissible b.coordinates.length := by
            rw [List.forall_mem_cons]
            exact and_iff_right hadm
          show (b.withArc a.source a.target a.weight).addArcs arcs = .ok b' ↔ _
          rw [ih (h.withArc hfail) hopen, hstep, hlen, hmem]
          rfl

end

variable [IsFinite F] [Zero F] [Top F] [LT F] [DecidableLT F] [LE F] [DecidableLE F] [Div F]

/-- The graph that `build` returns after the calls. -/
def buildAfter (distance : Coord F → Coord F → F)
    (std : Comparison.Sorter (stagedBefore (F := F))) (b : GraphBuilder F)
    (arcs : List (StagedArc F)) : Outcome (Graph F) := do
  let b ← b.addArcs arcs
  let (graph, _) ← (build distance std).call b
  return graph

/-- The builder lets these arcs be added and the graph be built. -/
structure Admits (b : GraphBuilder F) (arcs : List (StagedArc F)) : Prop where
  ready : b.buildFailure = none
  admissible : ∀ a ∈ arcs, a.Admissible b.coordinates.length
  length_le : arcs.length ≤ maxArcCount

variable [FiniteOrder F] {distance : Coord F → Coord F → F}
  {std : Comparison.Sorter (stagedBefore (F := F))}

/-- A consumed builder builds nothing. -/
theorem buildAfter_of_consumed {b : GraphBuilder F} (h : b.Valid) (hc : b.consumed = true)
    (arcs : List (StagedArc F)) :
    b.buildAfter distance std arcs = .error consumedError := by
  unfold buildAfter addArcs
  cases arcs with
  | nil =>
      have hfail : b.buildFailure = some consumedError := if_pos hc
      rw [List.foldlM_nil, pure_eq_ok, ok_bind, Method.call, build_eq distance std h, hfail]
      rfl
  | cons a arcs =>
      have hfail : b.addArcFailure a.source a.target a.weight = some consumedError := if_pos hc
      rw [List.foldlM_cons, Method.call, addArc_eq, hfail]
      rfl

/-- The graph of a successful `build`. -/
theorem call_build_eq_ok_iff {b : GraphBuilder F} (h : b.Valid) {g : Graph F} :
    (do let (graph, _) ← (build distance std).call b; return graph) = Except.ok g ↔
      b.buildFailure = none ∧
        g = canonicalGraph distance b.coordinates b.externalIds (std.sort b.staged) := by
  rw [Method.call, build_eq distance std h]
  cases b.buildFailure with
  | some e => simp
  | none => simp [eq_comm]

omit [Top F] [DecidableLT F] [LE F] [DecidableLE F] [Div F] [FiniteOrder F] in
/-- Staged arcs do not count for what `build` checks. -/
theorem buildFailure_withArcs_iff {b : GraphBuilder F} (h : b.Valid) {arcs : List (StagedArc F)}
    (hvalid : (b.withArcs arcs).Valid) :
    (b.withArcs arcs).buildFailure = none ↔ b.buildFailure = none := by
  rw [hvalid.buildFailure_eq_none_iff, h.buildFailure_eq_none_iff]
  rfl

/-- **What is built** from a builder without arcs depends on the sorted arcs alone. -/
theorem buildAfter_eq_ok_iff {b : GraphBuilder F} (h : b.Valid) (hempty : b.staged = [])
    (arcs : List (StagedArc F)) {g : Graph F} :
    b.buildAfter distance std arcs = .ok g ↔
      b.Admits arcs ∧
        g = canonicalGraph distance b.coordinates b.externalIds (std.sort arcs) := by
  cases hc : b.consumed with
  | true =>
      rw [buildAfter_of_consumed h hc]
      constructor
      · intro hcontra
        cases hcontra
      · rintro ⟨hadmits, _⟩
        have hopen := (h.buildFailure_eq_none_iff.mp hadmits.ready).1
        rw [hc] at hopen
        cases hopen
  | false =>
      have hstaged : (b.withArcs arcs).staged = arcs := by
        rw [withArcs, hempty, List.nil_append]
      unfold buildAfter
      rw [bind_eq_ok]
      constructor
      · rintro ⟨b', hadd, hb'⟩
        obtain ⟨hadm, hcap, rfl⟩ := (addArcs_eq_ok_iff arcs h hc).mp hadd
        have hvalid := h.withArcs hadm hcap
        obtain ⟨hnone, rfl⟩ := (call_build_eq_ok_iff hvalid).mp hb'
        rw [hempty, List.length_nil, Nat.zero_add] at hcap
        refine ⟨⟨(buildFailure_withArcs_iff h hvalid).mp hnone, hadm, hcap⟩, ?_⟩
        rw [hstaged]
        rfl
      · rintro ⟨hadmits, rfl⟩
        have hcap : b.staged.length + arcs.length ≤ maxArcCount := by
          rw [hempty, List.length_nil, Nat.zero_add]
          exact hadmits.length_le
        have hvalid := h.withArcs hadmits.admissible hcap
        refine ⟨_, (addArcs_eq_ok_iff arcs h hc).mpr ⟨hadmits.admissible, hcap, rfl⟩, ?_⟩
        have hready := (buildFailure_withArcs_iff h hvalid).mpr hadmits.ready
        refine (call_build_eq_ok_iff hvalid).mpr ⟨hready, ?_⟩
        rw [hstaged]
        rfl

end GraphBuilder

/-! ## The two zeros -/

/-- Two of the arcs have the same ends and the weights `-0.0` and `0.0`. -/
def MixesZeros (arcs : List (StagedArc Binary64)) : Prop :=
  ∃ a ∈ arcs, ∃ c ∈ arcs, a.source = c.source ∧ a.target = c.target ∧
    a.weight = Binary64.negZero ∧ c.weight = 0

/-- Finite values that compare equal are equal or are the two zeros. -/
theorem eq_or_zeros {x y : Binary64} (hx : isFinite x = true) (hy : isFinite y = true)
    (hlt : ¬ x < y) (hgt : ¬ y < x) :
    x = y ∨ (x = Binary64.negZero ∧ y = 0) ∨ (x = 0 ∧ y = Binary64.negZero) := by
  rw [Binary64.lt_of_isFinite hx hy] at hlt
  rw [Binary64.lt_of_isFinite hy hx] at hgt
  rcases Binary64.eq_or_zeros_of_key_eq (show x.key = y.key by omega) with heq | ⟨hx0, hy0⟩
  · exact Or.inl heq
  · rcases Binary64.eq_zero_or_negZero hx0 with rfl | rfl <;>
      rcases Binary64.eq_zero_or_negZero hy0 with rfl | rfl <;> simp

section Sorts

variable {std : Comparison.Sorter (GraphBuilder.stagedBefore (F := Binary64))}
  {arcs : List (StagedArc Binary64)} {nodes : Nat} (hadm : ∀ a ∈ arcs, a.Admissible nodes)

include hadm

/-- Without mixed zeros, arcs that compare equal are equal. -/
theorem eq_of_not_mixesZeros (h : ¬ MixesZeros arcs) :
    ∀ a ∈ arcs, ∀ c ∈ arcs, GraphBuilder.stagedBefore a c = false →
      GraphBuilder.stagedBefore c a = false → a = c := by
  intro a ha c hc hac hca
  obtain ⟨hsource, htarget, hlt, hgt⟩ := GraphBuilder.stagedBefore_eq_false_iff.mp ⟨hac, hca⟩
  have hweight : a.weight = c.weight := by
    rcases eq_or_zeros (hadm a ha).finite (hadm c hc).finite hlt hgt with
      heq | ⟨ha0, hc0⟩ | ⟨ha0, hc0⟩
    · exact heq
    · exact absurd ⟨a, ha, c, hc, hsource, htarget, ha0, hc0⟩ h
    · exact absurd ⟨c, hc, a, ha, hsource.symm, htarget.symm, hc0, ha0⟩ h
  calc a = ⟨a.source, a.target, a.weight⟩ := rfl
    _ = c := by rw [hsource, htarget, hweight]

theorem weak_of_admissible :
    Comparison.StrictWeakOn (GraphBuilder.stagedBefore (F := Binary64)) (· ∈ arcs) :=
  GraphBuilder.weak_stagedBefore.mono (fun a ha => (hadm a ha).finite)

/-- Without mixed zeros, every rearrangement is sorted alike. -/
theorem sort_eq_of_not_mixesZeros (h : ¬ MixesZeros arcs) {arcs' : List (StagedArc Binary64)}
    (hperm : arcs.Perm arcs') : std.sort arcs = std.sort arcs' :=
  std.sort_eq_of_perm hperm (weak_of_admissible hadm) (eq_of_not_mixesZeros hadm h)

omit hadm in
/-- Two elements of a list, in the order in which they stand in it. -/
theorem exists_split_pair {α : Type} {l : List α} {a c : α} (ha : a ∈ l) (hc : c ∈ l)
    (hne : a ≠ c) :
    ∃ l₁ l₂ l₃, l = l₁ ++ a :: l₂ ++ c :: l₃ ∨ l = l₁ ++ c :: l₂ ++ a :: l₃ := by
  obtain ⟨front, back, rfl⟩ := List.append_of_mem ha
  rcases List.mem_append.mp hc with hc | hc
  · obtain ⟨l₁, l₂, rfl⟩ := List.append_of_mem hc
    exact ⟨l₁, l₂, back, Or.inr rfl⟩
  · obtain ⟨l₂, l₃, rfl⟩ := List.append_of_mem ((List.mem_cons.mp hc).resolve_left (Ne.symm hne))
    exact ⟨front, l₂, l₃, Or.inl (by simp)⟩

/-- Exchanging two arcs that compare equal in the input exchanges them in the output, which
shows if their weights differ. -/
theorem exists_perm_of_split {p q : StagedArc Binary64} {l₁ l₂ l₃ : List (StagedArc Binary64)}
    (hne : p.weight ≠ q.weight) (hpq : GraphBuilder.stagedBefore p q = false)
    (hqp : GraphBuilder.stagedBefore q p = false) (harcs : arcs = l₁ ++ p :: l₂ ++ q :: l₃) :
    ∃ arcs', arcs.Perm arcs' ∧
      (std.sort arcs).map StagedArc.toArc ≠ (std.sort arcs').map StagedArc.toArc := by
  have hweak := weak_of_admissible hadm
  rw [harcs] at hweak ⊢
  refine ⟨l₁ ++ q :: l₂ ++ p :: l₃, ?_, fun heq => ?_⟩
  · have hmid : (p :: (l₂ ++ q :: l₃)).Perm (q :: (l₂ ++ p :: l₃)) :=
      calc (p :: (l₂ ++ q :: l₃)).Perm (p :: q :: (l₂ ++ l₃)) := List.perm_middle.cons p
        _ |>.Perm (q :: p :: (l₂ ++ l₃)) := List.Perm.swap q p _
        _ |>.Perm (q :: (l₂ ++ p :: l₃)) := List.perm_middle.symm.cons q
    simpa using hmid.append_left l₁
  · -- some place of the output holds `p` before and `q` after the exchange
    obtain ⟨i, hi, hget⟩ :=
      List.mem_iff_getElem.mp (std.exists_mem_zip_of_swap hweak hpq hqp)
    rw [List.getElem_zip, Prod.mk.injEq] at hget
    have hp := List.getElem?_eq_some_iff.mpr ⟨_, hget.1⟩
    have hq := List.getElem?_eq_some_iff.mpr ⟨_, hget.2⟩
    have harc := congrArg (fun l => l[i]?) heq
    simp only [List.getElem?_map, hp, hq, Option.map_some, Option.some.injEq] at harc
    exact hne (congrArg Arc.weight harc)

/-- With mixed zeros, some rearrangement is stored differently, however the sort treats arcs
that compare equal. -/
theorem exists_perm_of_mixesZeros (h : MixesZeros arcs) :
    ∃ arcs', arcs.Perm arcs' ∧
      (std.sort arcs).map StagedArc.toArc ≠ (std.sort arcs').map StagedArc.toArc := by
  obtain ⟨a, ha, c, hc, hsource, htarget, ha0, hc0⟩ := h
  have hweight : a.weight ≠ c.weight := by
    rw [ha0, hc0]
    decide
  have hequal : GraphBuilder.stagedBefore a c = false ∧ GraphBuilder.stagedBefore c a = false := by
    rw [GraphBuilder.stagedBefore_eq_false_iff, ha0, hc0]
    exact ⟨hsource, htarget, by decide, by decide⟩
  obtain ⟨l₁, l₂, l₃, hsplit | hsplit⟩ := exists_split_pair ha hc (fun heq => hweight (heq ▸ rfl))
  · exact exists_perm_of_split hadm hweight hequal.1 hequal.2 hsplit
  · exact exists_perm_of_split hadm (Ne.symm hweight) hequal.2 hequal.1 hsplit

end Sorts

/-! ## Order independence -/

/-- Nothing that a caller can see differs between the graphs. -/
structure SameOutput (distance : Coord Binary64 → Coord Binary64 → Binary64)
    (g g' : Graph Binary64) : Prop where
  offsets : g.offsets = g'.offsets
  arcs : g.arcs = g'.arcs
  written : ∀ toChars nodes edges, writeCsv toChars g nodes edges = writeCsv toChars g' nodes edges
  searched : ∀ source target algorithm,
    runSearch distance g source target algorithm = runSearch distance g' source target algorithm

section Order

variable (distance : Coord Binary64 → Coord Binary64 → Binary64)
  (std : Comparison.Sorter (GraphBuilder.stagedBefore (F := Binary64)))

/-- Every rearrangement of the `add_arc` calls builds the same graph. -/
def OrderIndependent (b : GraphBuilder Binary64) (arcs : List (StagedArc Binary64)) : Prop :=
  ∀ arcs', arcs.Perm arcs' → ∀ g, b.buildAfter distance std arcs = .ok g →
    ∃ g', b.buildAfter distance std arcs' = .ok g' ∧ SameOutput distance g g'

/-- **The order of the arcs is invisible exactly when no two arcs with the same ends have the
weights `-0.0` and `0.0`.** This holds of every comparison sort. The rows of an edge file are
added in their order, so without such arcs their order is invisible as well. -/
theorem orderIndependent_iff (b : GraphBuilder Binary64) (hb : b.Reachable distance std)
    (hempty : b.staged = []) (arcs : List (StagedArc Binary64)) (g : Graph Binary64)
    (hbuild : b.buildAfter distance std arcs = .ok g) :
    (OrderIndependent distance std b arcs ↔ ¬ MixesZeros arcs) ∧
      ∀ fromChars nodes rows edges edges' arcs' nodesName edgesName, ¬ MixesZeros arcs →
        NodeFile fromChars nodes rows → EdgeFile fromChars (idsOf rows) edges arcs →
        EdgeFile fromChars (idsOf rows) edges' arcs' → arcs.Perm arcs' →
          loadGraph fromChars distance std (.ofText nodes) nodesName (.ofText edges) edgesName
            = loadGraph fromChars distance std (.ofText nodes) nodesName (.ofText edges')
                edgesName := by
  obtain ⟨hadmits, hg⟩ := (GraphBuilder.buildAfter_eq_ok_iff hb.valid hempty arcs).mp hbuild
  have hadmits' : ∀ arcs', arcs.Perm arcs' → b.Admits arcs' := fun arcs' hperm =>
    ⟨hadmits.ready, fun a ha => hadmits.admissible a (hperm.mem_iff.mpr ha),
      hperm.length_eq ▸ hadmits.length_le⟩
  refine ⟨⟨fun hindep hmixes => ?_, fun hmixes => ?_⟩, ?_⟩
  · -- the rearrangement builds a graph too, and its arcs are the sorted ones
    obtain ⟨arcs', hperm, hne⟩ := exists_perm_of_mixesZeros hadmits.admissible hmixes
    obtain ⟨g', hg', hsame⟩ := hindep arcs' hperm g hbuild
    rw [GraphBuilder.buildAfter_eq_ok_iff hb.valid hempty] at hg'
    refine hne ?_
    calc (std.sort arcs).map StagedArc.toArc = g.arcs := by rw [hg]; rfl
      _ = g'.arcs := hsame.arcs
      _ = (std.sort arcs').map StagedArc.toArc := by rw [hg'.2]; rfl
  · -- the graph depends on the sorted arcs alone, so it is the same graph
    intro arcs' hperm g₁ hg₁
    refine ⟨g₁, ?_, rfl, rfl, fun _ _ _ => rfl, fun _ _ _ => rfl⟩
    obtain ⟨_, rfl⟩ := (GraphBuilder.buildAfter_eq_ok_iff hb.valid hempty arcs).mp hg₁
    refine (GraphBuilder.buildAfter_eq_ok_iff hb.valid hempty arcs').mpr
      ⟨hadmits' arcs' hperm, ?_⟩
    rw [sort_eq_of_not_mixesZeros hadmits.admissible hmixes hperm]
  · intro fromChars nodes rows edges edges' arcs' nodesName edgesName hmixes hnodes hedges hedges'
      hperm
    rw [loadGraph_of_files distance std hnodes hedges,
      loadGraph_of_files distance std hnodes hedges',
      sort_eq_of_not_mixesZeros hedges.admissible hmixes hperm]

end Order

/-! ## Two nodes and the two zeros -/

/-- A builder with two nodes set. -/
def twoNodes : GraphBuilder Binary64 where
  coordinates := [⟨0, 0⟩, ⟨0, 0⟩]
  externalIds := [1, 2]
  assigned := [true, true]
  staged := []
  assignedCount := 2
  consumed := false

theorem twoNodes_reachable :
    twoNodes.Reachable lineDistance (Comparison.insertionSort _) := by
  refine ⟨2, GraphBuilder.fresh 2, [.setNode 0 ⟨0, 0⟩ 1, .setNode 1 ⟨0, 0⟩ 2], rfl, ?_⟩
  decide +kernel

/-- Two parallel arcs that compare equal are stored, and written, in the order in which they
were added. -/
theorem build_keeps_order_of_zeros :
    ¬ ∀ (b : GraphBuilder Binary64) (arcs arcs' : List (StagedArc Binary64)),
        b.Reachable lineDistance (Comparison.insertionSort _) → b.staged = [] →
        arcs.Perm arcs' → ∀ g g' : Graph Binary64,
          b.buildAfter lineDistance (Comparison.insertionSort _) arcs = .ok g →
          b.buildAfter lineDistance (Comparison.insertionSort _) arcs' = .ok g' →
          g.arcs = g'.arcs := by
  intro hall
  have hfirst : (twoNodes.buildAfter lineDistance (Comparison.insertionSort _)
      [⟨0, 1, Binary64.negZero⟩, ⟨0, 1, 0⟩]).map Graph.arcs
      = .ok [⟨1, Binary64.negZero⟩, ⟨1, 0⟩] := by
    decide +kernel
  have hsecond : (twoNodes.buildAfter lineDistance (Comparison.insertionSort _)
      [⟨0, 1, 0⟩, ⟨0, 1, Binary64.negZero⟩]).map Graph.arcs
      = .ok [⟨1, 0⟩, ⟨1, Binary64.negZero⟩] := by
    decide +kernel
  obtain ⟨g, hg, harcs⟩ := map_eq_ok.mp hfirst
  obtain ⟨g', hg', harcs'⟩ := map_eq_ok.mp hsecond
  have hsame := hall twoNodes _ _ twoNodes_reachable rfl (List.Perm.swap _ _ _) g g' hg hg'
  rw [harcs, harcs'] at hsame
  exact absurd hsame (by decide)

/-- Parallel arcs of different weights, in both orders. -/
theorem orderIndependent_iff_twoNodes :
    ¬ MixesZeros [⟨0, 1, 1⟩, ⟨0, 1, Binary64.negZero⟩] ∧
      OrderIndependent lineDistance (Comparison.insertionSort _) twoNodes
        [⟨0, 1, 1⟩, ⟨0, 1, Binary64.negZero⟩] := by
  have hmixes : ¬ MixesZeros [⟨0, 1, 1⟩, ⟨0, 1, Binary64.negZero⟩] := by
    rintro ⟨a, ha, c, hc, -, -, ha0, hc0⟩
    simp only [List.mem_cons, List.not_mem_nil, or_false] at ha hc
    rcases hc with rfl | rfl
    · exact absurd hc0 (by decide)
    · exact absurd hc0 (by decide)
  have hrun : (twoNodes.buildAfter lineDistance (Comparison.insertionSort _)
      [⟨0, 1, 1⟩, ⟨0, 1, Binary64.negZero⟩]).map Graph.arcs
      = .ok [⟨1, Binary64.negZero⟩, ⟨1, 1⟩] := by
    decide +kernel
  obtain ⟨g, hg, -⟩ := map_eq_ok.mp hrun
  exact ⟨hmixes, (orderIndependent_iff lineDistance (Comparison.insertionSort _) twoNodes
    twoNodes_reachable rfl _ g hg).1.mpr hmixes⟩

end RouteEngine
