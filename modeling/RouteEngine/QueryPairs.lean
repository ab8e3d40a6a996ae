import RouteEngine.Benchmark
import RouteEngine.RandomBelow
import RouteEngine.Exact

set_option autoImplicit false

/-! # The query set of a benchmark

`make_query_pairs` (`src/benchmark.cpp`): for every query a source is drawn, and an offset that
gives the target modulo the number of nodes. -/

namespace RouteEngine

variable {F : Type}

/-- The query made of a source and an offset. -/
def queryOf (nodeCount source offset : UInt64) : QueryPair :=
  let target := (source + offset) % nodeCount
  ⟨source.toUInt32, target.toUInt32⟩

/-- The body of the loop: one query. -/
def drawQuery (nodeCount : UInt64) (rng : SplitMix64) : Outcome (QueryPair × SplitMix64) := do
  let (source, rng) ← rng.nextBelow nodeCount
  let (draw, rng) ← rng.nextBelow (nodeCount - 1)
  let offset := 1 + draw
  return (queryOf nodeCount source offset, rng)

/-- The loop: the queries and the generator afterwards. -/
def drawQueries (nodeCount : UInt64) : Nat → SplitMix64 → Outcome (List QueryPair × SplitMix64)
  | 0, rng => return ([], rng)
  | count + 1, rng => do
      let (query, rng) ← drawQuery nodeCount rng
      let (queries, rng) ← drawQueries nodeCount count rng
      return (query :: queries, rng)

/-- `max_size()` of a vector whose elements have eight bytes, such as a `QueryPair`. -/
def vectorMaxSize : Nat := 2 ^ 60 - 1

/-- `make_query_pairs`. -/
def makeQueryPairs (g : Graph F) (seed : UInt64) (count : Nat) : Outcome (List QueryPair) := do
  if g.nodeCount < 2 then
    throw (.graphValidation ("route::make_query_pairs: a benchmark needs at least two nodes, " ++
      "this graph has " ++ toString g.nodeCount))
  if count = 0 then
    throw (.graphValidation "route::make_query_pairs: query count must be at least 1")
  -- `queries.reserve(count)` throws `std::length_error`
  if vectorMaxSize < count then throw (.standard "vector::reserve")
  let nodeCount := UInt64.ofNat g.nodeCount
  let (queries, _) ← drawQueries nodeCount count ⟨seed⟩
  return queries

/-! ## One query -/

/-- A source and an offset that can be drawn. -/
def Drawable (nodeCount source offset : UInt64) : Prop :=
  source < nodeCount ∧ 1 ≤ offset ∧ offset < nodeCount

/-- A query between two distinct nodes of the graph. -/
structure QueryPair.Valid (g : Graph F) (query : QueryPair) : Prop where
  source : g.contains query.source = true
  target : g.contains query.target = true
  distinct : query.source ≠ query.target

/-- A sum of two residues wraps at most once. -/
theorem add_mod_of_lt {s o n : Nat} (hs : s < n) (ho : o < n) :
    (s + o) % n = if s + o < n then s + o else s + o - n := by
  split_ifs with h
  · exact Nat.mod_eq_of_lt h
  · rw [Nat.mod_eq_sub_mod (Nat.le_of_not_lt h), Nat.mod_eq_of_lt (by omega)]

section

variable {n source offset : UInt64}

/-- The endpoints of a query as natural numbers. -/
theorem toNat_queryOf (hn : n.toNat ≤ maxSupportedNodeCount) (h : Drawable n source offset) :
    (queryOf n source offset).source.toNat = source.toNat ∧
      (queryOf n source offset).target.toNat = (source.toNat + offset.toNat) % n.toNat := by
  rcases h with ⟨hs, -, ho⟩
  rw [UInt64.lt_iff_toNat_lt] at hs ho
  unfold maxSupportedNodeCount at hn
  have hmod : (source.toNat + offset.toNat) % n.toNat < n.toNat := Nat.mod_lt _ (by omega)
  have hsum : (source + offset).toNat = source.toNat + offset.toNat := by
    rw [UInt64.toNat_add, Nat.mod_eq_of_lt (by omega)]
  constructor
  · show source.toUInt32.toNat = _
    rw [UInt64.toNat_toUInt32, Nat.mod_eq_of_lt (by omega)]
  · show ((source + offset) % n).toUInt32.toNat = _
    rw [UInt64.toNat_toUInt32, UInt64.toNat_mod, hsum, Nat.mod_eq_of_lt (by omega)]

end

section

variable {g : Graph F} {source offset : UInt64}

theorem toNat_nodeCount (hn : g.nodeCount ≤ maxSupportedNodeCount) :
    (UInt64.ofNat g.nodeCount).toNat = g.nodeCount := by
  unfold maxSupportedNodeCount at hn
  exact UInt64.toNat_ofNat_of_lt' (by simp only [UInt64.size]; omega)

/-- **A drawn source and offset make a valid query.** -/
theorem queryOf_valid (hn : g.nodeCount ≤ maxSupportedNodeCount)
    (h : Drawable (UInt64.ofNat g.nodeCount) source offset) :
    (queryOf (UInt64.ofNat g.nodeCount) source offset).Valid g := by
  have hcount := toNat_nodeCount hn
  rcases toNat_queryOf (hcount.le.trans hn) h with ⟨hsource, htarget⟩
  rcases h with ⟨hs, hpos, ho⟩
  rw [UInt64.lt_iff_toNat_lt, hcount] at hs ho
  rw [UInt64.le_iff_toNat_le] at hpos
  have hone : 1 ≤ offset.toNat := hpos
  rw [hcount, add_mod_of_lt hs ho] at htarget
  refine ⟨?_, ?_, fun heq => ?_⟩
  · rw [g.contains_iff, hsource]
    exact hs
  · rw [g.contains_iff, htarget]
    split_ifs <;> omega
  · have hnat := congrArg UInt32.toNat heq
    rw [hsource, htarget] at hnat
    split_ifs at hnat <;> omega

/-- The source and the offset are determined by the endpoints. -/
theorem queryOf_injOn (hn : g.nodeCount ≤ maxSupportedNodeCount) :
    Set.InjOn (fun p : UInt64 × UInt64 => queryOf (UInt64.ofNat g.nodeCount) p.1 p.2)
      {p | Drawable (UInt64.ofNat g.nodeCount) p.1 p.2} := by
  have hcount := toNat_nodeCount hn
  have hn' : (UInt64.ofNat g.nodeCount).toNat ≤ maxSupportedNodeCount := hcount.le.trans hn
  rintro ⟨s, o⟩ hp ⟨s', o'⟩ hp' heq
  rcases toNat_queryOf hn' hp with ⟨hs, ht⟩
  rcases toNat_queryOf hn' hp' with ⟨hs', ht'⟩
  have heq' : queryOf (UInt64.ofNat g.nodeCount) s o = queryOf (UInt64.ofNat g.nodeCount) s' o' :=
    heq
  rw [heq'] at hs ht
  have hsource : s.toNat = s'.toNat := hs.symm.trans hs'
  have htarget := ht.symm.trans ht'
  rcases hp with ⟨hslt, -, holt⟩
  rcases hp' with ⟨hslt', -, holt'⟩
  simp only [UInt64.lt_iff_toNat_lt, hcount] at hslt holt hslt' holt'
  simp only [hcount] at htarget
  rw [add_mod_of_lt hslt holt, add_mod_of_lt hslt' holt'] at htarget
  have hoffset : o.toNat = o'.toNat := by
    split_ifs at htarget <;> omega
  exact Prod.ext (UInt64.toNat_inj.mp hsource) (UInt64.toNat_inj.mp hoffset)

/-- The step from one node to another one, counted around the table. -/
theorem exists_offset {n u v : Nat} (hu : u < n) (hv : v < n) (hne : u ≠ v) :
    ∃ o, 1 ≤ o ∧ o < n ∧ (u + o) % n = v := by
  by_cases hlt : u < v
  · refine ⟨v - u, by omega, by omega, ?_⟩
    calc (u + (v - u)) % n = v % n := by rw [Nat.add_sub_cancel' hlt.le]
      _ = v := Nat.mod_eq_of_lt hv
  · refine ⟨v + n - u, by omega, by omega, ?_⟩
    calc (u + (v + n - u)) % n = (v + n) % n := by rw [Nat.add_sub_cancel' (by omega)]
      _ = v % n := Nat.add_mod_right v n
      _ = v := Nat.mod_eq_of_lt hv

/-- **No pair is unreachable and none is favoured**: the pairs of a source and an offset are as
many as the queries between distinct nodes, one for each. -/
theorem queryOf_bijOn (hn : g.nodeCount ≤ maxSupportedNodeCount) :
    Set.BijOn (fun p : UInt64 × UInt64 => queryOf (UInt64.ofNat g.nodeCount) p.1 p.2)
      {p | Drawable (UInt64.ofNat g.nodeCount) p.1 p.2} {query | query.Valid g} := by
  have hcount := toNat_nodeCount hn
  have hn' : (UInt64.ofNat g.nodeCount).toNat ≤ maxSupportedNodeCount := hcount.le.trans hn
  refine ⟨fun p hp => queryOf_valid hn hp, queryOf_injOn hn, ?_⟩
  -- every pair of distinct nodes has an offset
  rintro ⟨source, target⟩ ⟨hs, ht, hne⟩
  have hs' := (g.contains_iff source).mp hs
  have ht' := (g.contains_iff target).mp ht
  have hne' : source.toNat ≠ target.toNat := fun heq => hne (UInt32.toNat_inj.mp heq)
  rcases exists_offset hs' ht' hne' with ⟨o, hpos, hlt, hstep⟩
  unfold maxSupportedNodeCount at hn
  have ho : (UInt64.ofNat o).toNat = o :=
    UInt64.toNat_ofNat_of_lt' (by simp only [UInt64.size]; omega)
  have hsource : source.toUInt64.toNat = source.toNat := UInt32.toNat_toUInt64 source
  have hdrawable : Drawable (UInt64.ofNat g.nodeCount) source.toUInt64 (UInt64.ofNat o) := by
    refine ⟨?_, ?_, ?_⟩
    · rwa [UInt64.lt_iff_toNat_lt, hcount, hsource]
    · rwa [UInt64.le_iff_toNat_le, ho]
    · rwa [UInt64.lt_iff_toNat_lt, hcount, ho]
  refine ⟨(source.toUInt64, UInt64.ofNat o), hdrawable, ?_⟩
  rcases toNat_queryOf hn' hdrawable with ⟨hqs, hqt⟩
  rw [hsource] at hqs hqt
  rw [ho, hcount, hstep] at hqt
  exact QueryPair.mk.injEq _ _ _ _ ▸ ⟨UInt32.toNat_inj.mp hqs, UInt32.toNat_inj.mp hqt⟩

end

/-! ## The stream -/

section

variable {n : UInt64}

/-- The queries that come from a position of the stream. Query `i` is made of the source and the
offset that `next_below` returned at its two draws, and the next query draws on from there. -/
def DrawnFrom (n : UInt64) (rng : SplitMix64) (queries : List QueryPair) : Prop :=
  ∃ position : Nat → SplitMix64, position 0 = rng ∧
    ∀ i query, queries[i]? = some query → ∃ source draw middle,
      (position i).nextBelow n = .ok (source, middle) ∧
      middle.nextBelow (n - 1) = .ok (draw, position (i + 1)) ∧
      Drawable n source (1 + draw) ∧ query = queryOf n source (1 + draw)

theorem DrawnFrom.nil (rng : SplitMix64) : DrawnFrom n rng [] :=
  ⟨fun _ => rng, rfl, fun i query h => by simp at h⟩

/-- One more query before some others. -/
theorem DrawnFrom.cons {rng middle last : SplitMix64} {source draw : UInt64}
    {queries : List QueryPair} (hsource : rng.nextBelow n = .ok (source, middle))
    (hdraw : middle.nextBelow (n - 1) = .ok (draw, last))
    (hdrawable : Drawable n source (1 + draw)) (h : DrawnFrom n last queries) :
    DrawnFrom n rng (queryOf n source (1 + draw) :: queries) := by
  obtain ⟨position, rfl, hall⟩ := h
  refine ⟨fun i => Nat.casesOn i rng position, rfl, fun i query hquery => ?_⟩
  cases i with
  | zero =>
      obtain rfl := Option.some.inj hquery
      exact ⟨source, draw, middle, hsource, hdraw, hdrawable, rfl⟩
  | succ i => exact hall i query hquery

/-- A query that comes from the stream is made of values that can be drawn. -/
theorem DrawnFrom.exists_drawable {rng : SplitMix64} {queries : List QueryPair}
    (h : DrawnFrom n rng queries) {query : QueryPair} (hquery : query ∈ queries) :
    ∃ source offset, Drawable n source offset ∧ query = queryOf n source offset := by
  obtain ⟨position, -, hall⟩ := h
  obtain ⟨i, hi⟩ := List.mem_iff_getElem?.mp hquery
  obtain ⟨source, draw, -, -, -, hdrawable, heq⟩ := hall i query hi
  exact ⟨source, 1 + draw, hdrawable, heq⟩

/-- **One query consumes two draws and those that are rejected.** -/
theorem drawQuery_spec (h2 : 2 ≤ n.toNat) (rng : SplitMix64) :
    ∃ source draw a b, rng.nextBelow n = .ok (source, rng.skip (a + 1)) ∧
      (rng.skip (a + 1)).nextBelow (n - 1) = .ok (draw, rng.skip (a + 1 + (b + 1))) ∧
      drawQuery n rng = .ok (queryOf n source (1 + draw), rng.skip (a + 1 + (b + 1))) ∧
      Drawable n source (1 + draw) ∧ a < 2 ^ 63 ∧ b < 2 ^ 63 ∧
      (a = 0 ↔ rng.candidate (SplitMix64.smearMask (n - 1)) < n) ∧
      (b = 0 ↔ (rng.skip (a + 1)).candidate (SplitMix64.smearMask (n - 1 - 1)) < n - 1) := by
  have hpos : 0 < n := by
    rw [UInt64.lt_iff_toNat_lt]
    exact Nat.lt_of_lt_of_le Nat.zero_lt_two h2
  have hpred := SplitMix64.toNat_pred hpos
  have hpos' : 0 < n - 1 := by
    rw [UInt64.lt_iff_toNat_lt, hpred]
    show 0 < n.toNat - 1
    omega
  rcases rng.nextBelow_draws hpos with ⟨a, source, ha, hsource, hlt, hfirst⟩
  rcases (rng.skip (a + 1)).nextBelow_draws hpos' with ⟨b, draw, hb, hdraw, hlt', hfirst'⟩
  rw [SplitMix64.skip_skip] at hdraw
  refine ⟨source, draw, a, b, hsource, hdraw, ?_, ⟨hlt, ?_⟩, ha, hb, hfirst, hfirst'⟩
  · rw [drawQuery, hsource, ok_bind]
    simp only [hdraw, ok_bind]
    rfl
  · -- the offset does not wrap
    have hn := n.toNat_lt
    rw [UInt64.lt_iff_toNat_lt, hpred] at hlt'
    have hone : (1 + draw).toNat = 1 + draw.toNat := by
      rw [UInt64.toNat_add, Nat.mod_eq_of_lt]
      · rfl
      · show 1 + draw.toNat < 2 ^ 64
        omega
    rw [UInt64.le_iff_toNat_le, UInt64.lt_iff_toNat_lt, hone]
    exact ⟨Nat.le_add_right 1 _, by omega⟩

/-- **The loop returns** the queries that come from its position of the stream. -/
theorem drawQueries_spec (h2 : 2 ≤ n.toNat) (count : Nat) :
    ∀ rng : SplitMix64, ∃ queries k, drawQueries n count rng = .ok (queries, rng.skip k) ∧
      queries.length = count ∧ DrawnFrom n rng queries := by
  induction count with
  | zero =>
      intro rng
      exact ⟨[], 0, rfl, rfl, .nil rng⟩
  | succ count ih =>
      intro rng
      rcases drawQuery_spec h2 rng with ⟨source, draw, a, b, hsource, hdraw, hquery, hdrawable, -⟩
      rcases ih (rng.skip (a + 1 + (b + 1))) with ⟨queries, k, hrest, hlen, hdrawn⟩
      refine ⟨queryOf n source (1 + draw) :: queries, a + 1 + (b + 1) + k, ?_,
        congrArg (· + 1) hlen, .cons hsource hdraw hdrawable hdrawn⟩
      rw [drawQueries, hquery, ok_bind]
      simp only [hrest, ok_bind, SplitMix64.skip_skip]
      rfl

/-- **More queries go on where fewer stop.** -/
theorem drawQueries_add (h2 : 2 ≤ n.toNat) {c d : Nat} :
    ∀ {rng rng₁ rng₂ : SplitMix64} {queries more : List QueryPair},
      drawQueries n c rng = .ok (queries, rng₁) → drawQueries n d rng₁ = .ok (more, rng₂) →
      drawQueries n (c + d) rng = .ok (queries ++ more, rng₂) := by
  induction c with
  | zero =>
      intro rng rng₁ rng₂ queries more hc hd
      obtain ⟨rfl, rfl⟩ := Prod.mk.inj (Except.ok.inj hc)
      rw [Nat.zero_add]
      exact hd
  | succ c ih =>
      intro rng rng₁ rng₂ queries more hc hd
      rcases drawQuery_spec h2 rng with ⟨source, draw, a, b, -, -, hquery, -⟩
      rw [drawQueries, hquery, ok_bind] at hc
      rcases bind_eq_ok.mp hc with ⟨⟨rest, rng'⟩, hrest, hc⟩
      obtain ⟨rfl, rfl⟩ := Prod.mk.inj (Except.ok.inj hc)
      rw [Nat.succ_add, drawQueries, hquery, ok_bind]
      simp only [ih hrest hd, ok_bind]
      rfl

end

/-! ## The query set -/

section

variable {g : Graph F}

theorem two_le_toNat_nodeCount (h2 : 2 ≤ g.nodeCount)
    (hn : g.nodeCount ≤ maxSupportedNodeCount) : 2 ≤ (UInt64.ofNat g.nodeCount).toNat := by
  rw [toNat_nodeCount hn]
  exact h2

/-- What `make_query_pairs` makes of its loop. -/
theorem makeQueryPairs_eq (h2 : 2 ≤ g.nodeCount) {seed : UInt64} {count : Nat}
    (hcount : 1 ≤ count) (hfits : count ≤ vectorMaxSize) {queries : List QueryPair}
    {rng : SplitMix64}
    (hloop : drawQueries (UInt64.ofNat g.nodeCount) count ⟨seed⟩ = .ok (queries, rng)) :
    makeQueryPairs g seed count = .ok queries := by
  have hfew : ¬ g.nodeCount < 2 := Nat.not_lt.mpr h2
  have hnone : ¬ count = 0 := by omega
  have hmany : ¬ vectorMaxSize < count := Nat.not_lt.mpr hfits
  simp [makeQueryPairs, hfew, hnone, hmany, hloop]

/-- There is no vector of so many queries. -/
theorem makeQueryPairs_of_tooMany (h2 : 2 ≤ g.nodeCount) (seed : UInt64) {count : Nat}
    (hcount : vectorMaxSize < count) :
    makeQueryPairs g seed count = .error (.standard "vector::reserve") := by
  have hfew : ¬ g.nodeCount < 2 := Nat.not_lt.mpr h2
  have hnone : ¬ count = 0 := by omega
  simp [makeQueryPairs, hfew, hnone, hcount]

end

/-- **The query set.** Up to the capacity of a vector, `make_query_pairs` returns as many queries
as asked for, between distinct nodes, and query `i` is made of the source and the offset that
`next_below` returned at its two draws. For a greater count it throws. Sources and offsets
correspond one to one to the queries between distinct nodes, and a smaller set is the beginning of
a larger one. -/
theorem makeQueryPairs_spec (g : Graph F) (h2 : 2 ≤ g.nodeCount)
    (hn : g.nodeCount ≤ maxSupportedNodeCount) (seed : UInt64) :
    (∀ count, 1 ≤ count → count ≤ vectorMaxSize → ∃ queries,
      makeQueryPairs g seed count = .ok queries ∧ queries.length = count ∧
      (∀ query ∈ queries, query.Valid g) ∧
      DrawnFrom (UInt64.ofNat g.nodeCount) ⟨seed⟩ queries) ∧
    (∀ count, vectorMaxSize < count →
      makeQueryPairs g seed count = .error (.standard "vector::reserve")) ∧
    Set.BijOn (fun p : UInt64 × UInt64 => queryOf (UInt64.ofNat g.nodeCount) p.1 p.2)
      {p | Drawable (UInt64.ofNat g.nodeCount) p.1 p.2} {query | query.Valid g} ∧
    ∀ c₁ c₂, 1 ≤ c₁ → c₁ ≤ c₂ → c₂ ≤ vectorMaxSize → ∃ queries₁ queries₂,
      makeQueryPairs g seed c₁ = .ok queries₁ ∧ makeQueryPairs g seed c₂ = .ok queries₂ ∧
        queries₁ <+: queries₂ := by
  have h2' := two_le_toNat_nodeCount h2 hn
  refine ⟨fun count hcount hfits => ?_, fun _ => makeQueryPairs_of_tooMany h2 seed,
    queryOf_bijOn hn, fun c₁ c₂ hc₁ hle hfits => ?_⟩
  · rcases drawQueries_spec h2' count ⟨seed⟩ with ⟨queries, k, hloop, hlen, hdrawn⟩
    refine ⟨queries, makeQueryPairs_eq h2 hcount hfits hloop, hlen, fun query hmem => ?_, hdrawn⟩
    rcases hdrawn.exists_drawable hmem with ⟨source, offset, hdrawable, rfl⟩
    exact queryOf_valid hn hdrawable
  · obtain ⟨d, rfl⟩ := Nat.exists_eq_add_of_le hle
    rcases drawQueries_spec h2' c₁ ⟨seed⟩ with ⟨queries, k, hloop, -⟩
    rcases drawQueries_spec h2' d ((⟨seed⟩ : SplitMix64).skip k) with ⟨more, k', hmore, -⟩
    exact ⟨queries, queries ++ more, makeQueryPairs_eq h2 hc₁ (hle.trans hfits) hloop,
      makeQueryPairs_eq h2 (by omega) hfits (drawQueries_add h2' hloop hmore),
      List.prefix_append _ _⟩

/-- Two queries on the road. -/
theorem makeQueryPairs_spec_road :
    (∃ queries, makeQueryPairs road 42 2 = .ok queries ∧ queries.length = 2 ∧
      (∀ query ∈ queries, query.Valid road) ∧ DrawnFrom 3 ⟨42⟩ queries) ∧
    ∃ queries₁ queries₂, makeQueryPairs road 42 1 = .ok queries₁ ∧
      makeQueryPairs road 42 2 = .ok queries₂ ∧ queries₁ <+: queries₂ := by
  rcases makeQueryPairs_spec road (by decide) (by decide) 42 with ⟨hall, -, -, hpre⟩
  exact ⟨hall 2 (by decide) (by decide), hpre 1 2 (by decide) (by decide) (by decide)⟩

/-- A count that no vector has room for. -/
theorem makeQueryPairs_not_always :
    ¬ ∀ (g : Graph (WithTop ℚ)) (seed : UInt64) (count : Nat), 2 ≤ g.nodeCount →
      g.nodeCount ≤ maxSupportedNodeCount → 1 ≤ count → count < 2 ^ 64 →
        ∃ queries, makeQueryPairs g seed count = .ok queries := by
  intro hclaim
  obtain ⟨queries, hqueries⟩ := hclaim road 42 (2 ^ 64 - 1) (by decide) (by decide) (by decide)
    (by decide)
  rw [makeQueryPairs_of_tooMany (by decide) 42 (by decide)] at hqueries
  cases hqueries

end RouteEngine
