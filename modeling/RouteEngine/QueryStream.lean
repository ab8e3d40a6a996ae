import RouteEngine.QueryPairs

set_option autoImplicit false

/-! # Where the stream stands after a number of queries

`benchmark.hpp` promises that the number of draws per query is fixed, so that the position in the
stream depends only on the index of the query. Each bounded draw is a rejection loop, however: a
query takes two words of the stream when both first candidates are accepted, and more when one is
not (`queryStream_fixed_iff`). -/

namespace RouteEngine

open SplitMix64

variable {F : Type}

/-- The generator after `i` rounds of the loop of `make_query_pairs`. -/
def stateAfterQueries (g : Graph F) (seed : UInt64) (i : Nat) : Outcome SplitMix64 :=
  (drawQueries (UInt64.ofNat g.nodeCount) i ⟨seed⟩).map Prod.snd

/-- A graph that `make_query_pairs` accepts. -/
def Graph.HasQueries (g : Graph F) : Prop :=
  2 ≤ g.nodeCount ∧ g.nodeCount ≤ maxSupportedNodeCount

/-- With two words for each query, the first candidates of the first `i` queries are below their
bounds. -/
def FirstDrawsAccepted (g : Graph F) (seed : UInt64) (i : Nat) : Prop :=
  ∀ j, j < i →
    ((⟨seed⟩ : SplitMix64).skip (2 * j)).candidate (smearMask (UInt64.ofNat g.nodeCount - 1))
        < UInt64.ofNat g.nodeCount ∧
      ((⟨seed⟩ : SplitMix64).skip (2 * j + 1)).candidate
          (smearMask (UInt64.ofNat g.nodeCount - 1 - 1))
        < UInt64.ofNat g.nodeCount - 1

theorem firstDrawsAccepted_succ {g : Graph F} {seed : UInt64} {i : Nat} :
    FirstDrawsAccepted g seed (i + 1) ↔ FirstDrawsAccepted g seed i ∧
      ((⟨seed⟩ : SplitMix64).skip (2 * i)).candidate (smearMask (UInt64.ofNat g.nodeCount - 1))
        < UInt64.ofNat g.nodeCount ∧
      ((⟨seed⟩ : SplitMix64).skip (2 * i + 1)).candidate
          (smearMask (UInt64.ofNat g.nodeCount - 1 - 1))
        < UInt64.ofNat g.nodeCount - 1 := by
  simp only [FirstDrawsAccepted, Nat.forall_lt_succ_right]

section

variable {g : Graph F} {seed : UInt64}

/-- **One more query** from a fixed position takes two words exactly when both first candidates
are accepted. -/
theorem stateAfterQueries_succ (hg : g.HasQueries) {i : Nat}
    (hstate : stateAfterQueries g seed i = .ok ((⟨seed⟩ : SplitMix64).skip (2 * i))) :
    stateAfterQueries g seed (i + 1) = .ok ((⟨seed⟩ : SplitMix64).skip (2 * (i + 1))) ↔
      ((⟨seed⟩ : SplitMix64).skip (2 * i)).candidate (smearMask (UInt64.ofNat g.nodeCount - 1))
        < UInt64.ofNat g.nodeCount ∧
      ((⟨seed⟩ : SplitMix64).skip (2 * i + 1)).candidate
          (smearMask (UInt64.ofNat g.nodeCount - 1 - 1))
        < UInt64.ofNat g.nodeCount - 1 := by
  have h2 := two_le_toNat_nodeCount hg.1 hg.2
  rcases drawQueries_spec h2 i ⟨seed⟩ with ⟨queries, k, hloop, -⟩
  have hk : (⟨seed⟩ : SplitMix64).skip k = (⟨seed⟩ : SplitMix64).skip (2 * i) := by
    rw [stateAfterQueries, hloop] at hstate
    exact Except.ok.inj hstate
  rw [hk] at hloop
  rcases drawQuery_spec h2 ((⟨seed⟩ : SplitMix64).skip (2 * i)) with
    ⟨source, draw, a, b, -, -, hquery, -, ha, hb, hfirst, hfirst'⟩
  have hone : drawQueries (UInt64.ofNat g.nodeCount) 1 ((⟨seed⟩ : SplitMix64).skip (2 * i))
      = .ok ([queryOf (UInt64.ofNat g.nodeCount) source (1 + draw)],
          ((⟨seed⟩ : SplitMix64).skip (2 * i)).skip (a + 1 + (b + 1))) := by
    rw [drawQueries, hquery, ok_bind]
    rfl
  have hnext : stateAfterQueries g seed (i + 1)
      = .ok ((⟨seed⟩ : SplitMix64).skip (2 * (i + 1) + (a + b))) := by
    rw [stateAfterQueries, drawQueries_add h2 hloop hone]
    show Except.ok _ = _
    rw [skip_skip]
    refine congrArg (fun k => Except.ok ((⟨seed⟩ : SplitMix64).skip k)) ?_
    omega
  have htwo : stateAfterQueries g seed (i + 1) = .ok ((⟨seed⟩ : SplitMix64).skip (2 * (i + 1)))
      ↔ a + b = 0 := by
    -- fewer words are rejected than the stream has states
    rw [hnext, Except.ok.injEq, ← skip_skip]
    exact skip_eq_self_iff (by omega)
  rw [htwo]
  constructor
  · intro hzero
    obtain rfl : a = 0 := by omega
    obtain rfl : b = 0 := by omega
    rw [skip_skip] at hfirst'
    exact ⟨hfirst.mp rfl, hfirst'.mp rfl⟩
  · rintro ⟨haccepted, haccepted'⟩
    obtain rfl : a = 0 := hfirst.mpr haccepted
    rw [skip_skip] at hfirst'
    rw [Nat.zero_add]
    exact hfirst'.mpr haccepted'

/-- **The position is fixed exactly while no first candidate is rejected**, by induction on the
queries. -/
theorem stateAfterQueries_iff (hg : g.HasQueries) (i : Nat) :
    (∀ j, j ≤ i → stateAfterQueries g seed j = .ok ((⟨seed⟩ : SplitMix64).skip (2 * j))) ↔
      FirstDrawsAccepted g seed i := by
  induction i with
  | zero =>
      constructor
      · exact fun _ j hj => absurd hj (Nat.not_lt_zero j)
      · intro _ j hj
        obtain rfl : j = 0 := by omega
        rfl
  | succ i ih =>
      rw [firstDrawsAccepted_succ, ← ih]
      constructor
      · intro hall
        have hbefore := fun j (hj : j ≤ i) => hall j (by omega)
        exact ⟨hbefore, (stateAfterQueries_succ hg (hbefore i le_rfl)).mp (hall (i + 1) le_rfl)⟩
      · rintro ⟨hbefore, haccepted⟩ j hj
        rcases Nat.lt_or_eq_of_le hj with hlt | rfl
        · exact hbefore j (by omega)
        · exact (stateAfterQueries_succ hg (hbefore i le_rfl)).mpr haccepted

end

section

variable [Zero F] [Top F]

/-- Two nodes and no arcs. -/
def Graph.twoNodes : Graph F where
  coordinates := [⟨0, 0⟩, ⟨0, 0⟩]
  externalIds := [0, 1]
  offsets := [0, 0, 0]
  arcs := []
  metric := .initial

theorem hasQueries_twoNodes :
    (Graph.twoNodes : Graph F).HasQueries :=
  ⟨le_rfl, show 2 ≤ maxSupportedNodeCount by decide⟩

/-- Between two nodes nothing is ever rejected. -/
theorem firstDrawsAccepted_twoNodes (seed : UInt64) (i : Nat) :
    FirstDrawsAccepted (Graph.twoNodes : Graph F) seed i := by
  intro j _
  have hcount : UInt64.ofNat (Graph.twoNodes : Graph F).nodeCount = 2 := rfl
  rw [hcount, UInt64.lt_iff_toNat_lt, UInt64.lt_iff_toNat_lt, candidate, candidate,
    toNat_and_smearMask, toNat_and_smearMask]
  exact ⟨Nat.mod_lt _ (by decide), Nat.mod_lt _ (by decide)⟩

end

/-- **When the stream position depends on the index only.** For a graph the position after each
of the first `i` queries is two words for each query exactly when no first candidate is rejected;
and it is the same for all graphs exactly when that is so for every graph. -/
theorem queryStream_fixed_iff [Zero F] [Top F] (seed : UInt64) (i : Nat) :
    (∀ g : Graph F, g.HasQueries →
      ((∀ j, j ≤ i → stateAfterQueries g seed j = .ok ((⟨seed⟩ : SplitMix64).skip (2 * j))) ↔
        FirstDrawsAccepted g seed i)) ∧
    ((∀ g g' : Graph F, g.HasQueries → g'.HasQueries →
        ∀ j, j ≤ i → stateAfterQueries g seed j = stateAfterQueries g' seed j) ↔
      ∀ g : Graph F, g.HasQueries → FirstDrawsAccepted g seed i) := by
  refine ⟨fun g hg => stateAfterQueries_iff hg i, fun hsame g hg => ?_, fun hall g g' hg hg' => ?_⟩
  · -- a graph of two nodes takes two words for each query
    rw [← stateAfterQueries_iff hg]
    intro j hj
    rw [hsame g .twoNodes hg hasQueries_twoNodes j hj]
    exact (stateAfterQueries_iff hasQueries_twoNodes i).mpr (firstDrawsAccepted_twoNodes seed i)
      j hj
  · intro j hj
    rw [(stateAfterQueries_iff hg i).mpr (hall g hg) j hj,
      (stateAfterQueries_iff hg' i).mpr (hall g' hg') j hj]

/-- With the seed 42 the first query on the road takes two words. -/
theorem queryStream_fixed_iff_road :
    stateAfterQueries road 42 1 = .ok ((⟨42⟩ : SplitMix64).skip 2) := by
  have hroad : road.HasQueries := ⟨by decide, by decide⟩
  have haccepted : FirstDrawsAccepted road 42 1 := by
    intro j hj
    obtain rfl : j = 0 := by omega
    decide +kernel
  exact ((queryStream_fixed_iff 42 1).1 road hroad).mpr haccepted 1 le_rfl

/-- With the seed 0 the first query takes three words on the road and two between two nodes. -/
theorem queryStream_not_fixed :
    ¬ ∀ (seed : UInt64) (i : Nat) (g g' : Graph (WithTop ℚ)), g.HasQueries → g'.HasQueries →
      stateAfterQueries g seed i = stateAfterQueries g' seed i := by
  intro hsame
  have hroad : stateAfterQueries road 0 1 = .ok ((⟨0⟩ : SplitMix64).skip 3) := by decide +kernel
  have htwo : stateAfterQueries (Graph.twoNodes : Graph (WithTop ℚ)) 0 1
      = .ok ((⟨0⟩ : SplitMix64).skip 2) := by decide +kernel
  have heq := hsame 0 1 road .twoNodes ⟨by decide, by decide⟩ hasQueries_twoNodes
  rw [hroad, htwo, Except.ok.injEq] at heq
  exact absurd (skip_inj (by decide) (by decide) heq) (by decide)

end RouteEngine
