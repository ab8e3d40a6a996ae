import RouteEngine.Library.TieBreaking
import RouteEngine.Expansions
import RouteEngine.SearchSteps
import Mathlib.Data.Set.Card

set_option autoImplicit false

/-! # How Dijkstra breaks ties

Over exact arithmetic and on positive weights, Dijkstra settles nodes in the order of their least
cost and, among equal costs, of their identifiers, and it returns the one route on which every
node is entered from the first node that can be (`dijkstra_byRank`). Neither depends on the queue
or on the order in which arcs are scanned. -/

namespace RouteEngine

/-! ## Ranks -/

section

variable {F : Type}

/-- The cost and the identifier of a node that was settled. -/
def Expansion.rank (e : Expansion F) : F ×ₗ ℕ := toLex (e.distance, e.node.toNat)

variable [Zero F] [Add F]

/-- `p` is the least cost of `v` with its identifier. -/
def Graph.Rank [LE F] (g : Graph F) (source v : NodeId) (p : F ×ₗ ℕ) : Prop :=
  g.MinCost source v (ofLex p).1 ∧ (ofLex p).2 = v.toNat

/-- A least-cost route to `v` may end with an arc from `u`. -/
def Graph.Tight [LE F] (g : Graph F) (source u v : NodeId) : Prop :=
  ∃ c w, g.MinCost source u c ∧ g.HasArc u v w ∧ g.MinCost source v (c + w)

/-- Of the nodes from which a least-cost route may enter `v`, the node `u` is ranked first. -/
def Graph.FirstTight [LE F] [LT F] (g : Graph F) (source u v : NodeId) : Prop :=
  g.Tight source u v ∧ ∀ x p q, g.Tight source x v → g.Rank source u p → g.Rank source x q → p ≤ q

/-- `TiePath g source v back`: going back from `v` to the source, each node is followed by the
first from which it may be entered. -/
inductive Graph.TiePath [LE F] [LT F] (g : Graph F) (source : NodeId) :
    NodeId → List NodeId → Prop
  | nil : TiePath g source source [source]
  | cons {u v : NodeId} {back : List NodeId} :
      g.FirstTight source u v → TiePath g source u back → TiePath g source v (v :: back)

/-- The nodes are settled in the order of their ranks, up to the target. -/
structure SettlesByRank [LE F] [LT F] (g : Graph F) (source target : NodeId)
    (settled : List (Expansion F)) : Prop where
  exact : ∀ e ∈ settled, g.Rank source e.node e.rank
  increasing : settled.Pairwise (fun e f => e.rank < f.rank)
  mem_iff : ∀ v, v ∈ settled.map Expansion.node ↔
    ∃ p q, g.Rank source v p ∧ g.Rank source target q ∧ p ≤ q

end

section

variable {F : Type} [LinearOrder F] [Zero F] [Add F]
variable {g : Graph F} {source target u v x : NodeId}

theorem Graph.Rank.unique {p q : F ×ₗ ℕ} (hp : g.Rank source v p) (hq : g.Rank source v q) :
    p = q :=
  Prod.ext (hp.1.unique hq.1) (hp.2.trans hq.2.symm)

/-- A rank belongs to one node. -/
theorem Graph.Rank.eq_of_same {p : F ×ₗ ℕ} (hu : g.Rank source u p) (hv : g.Rank source v p) :
    u = v :=
  UInt32.toNat_inj.mp (hu.2.symm.trans hv.2)

theorem Graph.MinCost.rank {c : F} (h : g.MinCost source v c) :
    g.Rank source v (toLex (c, v.toNat)) := ⟨h, rfl⟩

theorem Graph.FirstTight.unique (hu : g.FirstTight source u v) (hx : g.FirstTight source x v) :
    u = x := by
  rcases hu.1 with ⟨c, -, hc, -⟩
  rcases hx.1 with ⟨d, -, hd, -⟩
  have heq := le_antisymm (hu.2 x _ _ hx.1 hc.rank hd.rank) (hx.2 u _ _ hu.1 hd.rank hc.rank)
  exact Graph.Rank.eq_of_same hc.rank (heq ▸ hd.rank)

/-- **There is one such path**, where no arc leads back to the source at no cost. -/
theorem Graph.TiePath.unique (hsource : ∀ u, ¬ g.Tight source u source) {back back' : List NodeId}
    (h : g.TiePath source v back) (h' : g.TiePath source v back') : back = back' := by
  induction h generalizing back' with
  | nil =>
      cases h' with
      | nil => rfl
      | cons hfirst _ => exact absurd hfirst.1 (hsource _)
  | @cons u v back hfirst hpath ih =>
      cases h' with
      | nil => exact absurd hfirst.1 (hsource _)
      | cons hfirst' hpath' =>
          obtain rfl := hfirst.unique hfirst'
          rw [ih hpath']

end

/-! ## The run -/

section

variable {F : Type} [LinearOrder F] [OrderTop F] [Zero F] [Add F] [WeightArith F]
variable {distance : Coord F → Coord F → F} {g : Graph F} {staged : List (StagedArc F)}
variable {source target v : NodeId} {estimate : NodeId → Outcome F}
variable {s t : SearchState F} {closed : List NodeId} {es : List (Expansion F)}

/-- Under the zero heuristic the node that is settled next has the least rank of all open
nodes. -/
theorem SearchInv.rank_le_of_popTop (hinv : SearchInv g source target (fun _ => 0) s closed)
    {e : Entry F} {rest : List (Entry F)}
    (hpop : Comparison.popTop higherPriorityFirst s.queue = some (e, rest))
    (hchoose : s.Chooses g (fun _ => 0) closed e) (hv : v ∉ closed) :
    (s.toBestFirst closed).rank UInt32.toNat e.node
      ≤ (s.toBestFirst closed).rank UInt32.toNat v := by
  rw [BestFirst.State.rank, BestFirst.State.rank, Prod.Lex.toLex_le_toLex]
  show s.label e.node < s.label v ∨ s.label e.node = s.label v ∧ e.node.toNat ≤ v.toNat
  by_cases hlabel : s.label v = ⊤
  · rw [hlabel]
    exact Or.inl (lt_top_iff_ne_top.mpr hchoose.labelled)
  · -- the exact entry of `v` is in the queue and is not served before the popped one
    have hentry := hinv.frontier.entry v hlabel ((hinv.isSettled_eq_false_iff v).mpr hv)
    have hfirst := Comparison.popTop_first
      (weak_higherPriorityFirst.mono (fun _ _ => trivial)) hpop _ hentry
    have hprio : e.priority = s.label e.node := by
      rw [hchoose.priority_eq, WeightArith.add_zero]
    simp only [higherPriorityFirst, WeightArith.add_zero, hprio] at hfirst
    by_cases heq : s.label e.node = s.label v
    · simp only [heq, bne_self_eq_false, Bool.false_eq_true, if_false, decide_eq_false_iff_not,
        gt_iff_lt, UInt32.not_lt, UInt32.le_iff_toNat_le] at hfirst
      exact Or.inr ⟨heq, hfirst⟩
    · simp only [bne_iff_ne, ne_eq, heq, not_false_eq_true, if_true, decide_eq_false_iff_not,
        gt_iff_lt, not_lt] at hfirst
      exact Or.inl (lt_of_le_of_ne hfirst heq)

variable [AddLeftMono F] [AddRightMono F] [Div F]

/-- **A run settles nodes by rank.** -/
theorem Rounds.ranked (hg : g.OverArcs distance staged)
    (hest : ∀ v, g.contains v = true → estimate v = .ok (0 : F))
    (hstrict : Digraph.StrictFrom g.HasArc source)
    (hrun : Rounds g target estimate s es t)
    (hinv : SearchInv g source target (fun _ => 0) s closed)
    (hranked : BestFirst.Ranked g.HasArc source UInt32.toNat (s.toBestFirst closed)) :
    BestFirst.Ranked g.HasArc source UInt32.toNat
      (t.toBestFirst ((es.map Expansion.node).reverse ++ closed)) := by
  refine hrun.invariant
    (P := fun s closed => BestFirst.Ranked g.HasArc source UInt32.toNat (s.toBestFirst closed))
    hg hest (fun _ => le_rfl) ?_ ?_ hinv hranked
  · exact fun _ _ _ hranked => hranked
  · intro s closed e rest hinv hpop hchoose hne hranked
    rcases hinv.expand hg hpop hchoose hne with ⟨-, hexpands, -⟩
    exact hranked.expand (fun _ _ => UInt32.toNat_inj.mp) hstrict hinv.explored hexpands
      hchoose.not_mem hchoose.labelled (fun x hx => hinv.rank_le_of_popTop hpop hchoose hx)

omit [AddLeftMono F] [AddRightMono F] in
/-- Where a run ends because the target is chosen, the target has the least rank of all open
nodes. -/
theorem SearchInv.rank_le_of_reached (hg : g.OverArcs distance staged)
    (hest : ∀ v, g.contains v = true → estimate v = .ok (0 : F))
    (hinv : SearchInv g source target (fun _ => 0) t closed)
    (hstop : ∀ e s', searchRound g target estimate t ≠ .ok (.stale e s') ∧
      searchRound g target estimate t ≠ .ok (.expanded e s'))
    (hlabel : t.label target ≠ ⊤) (hv : v ∉ closed) :
    (t.toBestFirst closed).rank UInt32.toNat target
      ≤ (t.toBestFirst closed).rank UInt32.toNat v := by
  rcases hinv.round_cases hg hest with ⟨hqueue, -⟩ | ⟨e, rest, hpop, hr⟩
  · exact absurd (hinv.mem_closed_of_queue_nil hqueue hlabel) hinv.target_open
  · rcases hr with ⟨-, hr⟩ | ⟨hopen, htarget, -⟩ | ⟨-, -, hr⟩
    · exact absurd hr (hstop _ _).1
    · have hchoose := hinv.chooses (fun _ => le_rfl) hpop hopen
      rw [← htarget]
      exact hinv.rank_le_of_popTop hpop hchoose hv
    · exact absurd hr (hstop _ _).2

omit [WeightArith F] [AddLeftMono F] [Div F] in
/-- **Predecessors are the first of their kind**, all the way back to the source. -/
theorem tiePath_of_path (hstrict : Digraph.StrictFrom g.HasArc source)
    (hinv : SearchInv g source target (fun _ => 0) t closed)
    (hranked : BestFirst.Ranked g.HasArc source UInt32.toNat (t.toBestFirst closed))
    {back : List NodeId} (hpath : BestFirst.Path (t.toBestFirst closed) source v back)
    (hfixed : v ∈ closed ∨ ∀ x, x ∉ closed → (t.toBestFirst closed).rank UInt32.toNat v
      ≤ (t.toBestFirst closed).rank UInt32.toNat x)
    (hlabel : t.label v ≠ ⊤) : g.TiePath source v back := by
  induction hpath with
  | nil => exact .nil
  | @cons v back hvs _ ih =>
      rcases hinv.explored.pred_closed v hvs hlabel with ⟨hmem, w, hw, hcost⟩
      have hfinite := hinv.explored.finite _ hmem
      have hleast := hranked.isLeast hstrict hinv.explored hfixed hlabel
      have hpred := hranked.isLeast hstrict hinv.explored (Or.inl hmem) hfinite
      refine .cons ⟨⟨_, w, hpred, hw.1, hcost ▸ hleast⟩, fun x p q htight hp hq => ?_⟩
        (ih (Or.inl hmem) hfinite)
      -- another node from which a least-cost route enters `v` was closed before it
      rcases htight with ⟨c, w', hc, harc, hmin⟩
      have hsum : c + w' = t.label v := hmin.unique hleast
      have hx := hranked.mem_closed_of_arc hstrict hinv.explored hfixed hc.1 harc hsum.le
      have hleastx := hranked.isLeast hstrict hinv.explored (Or.inl hx)
        (hinv.explored.finite x hx)
      obtain rfl : c = (t.toBestFirst closed).label x := hc.unique hleastx
      calc p = (t.toBestFirst closed).rank UInt32.toNat _ := hp.unique ⟨hpred, rfl⟩
        _ ≤ (t.toBestFirst closed).rank UInt32.toNat x :=
            hranked.pred_le v hvs hlabel x w' hx harc hsum
        _ = q := Graph.Rank.unique ⟨hc, rfl⟩ hq

end

/-! ## The law -/

section

variable {K : Type} [Field K] [LinearOrder K] [IsStrictOrderedRing K]
variable {distance : Coord (WithTop K) → Coord (WithTop K) → WithTop K}
variable {g : Graph (WithTop K)} {staged : List (StagedArc (WithTop K))}
variable {source target : NodeId} {t : SearchState (WithTop K)}
variable {es : List (Expansion (WithTop K))}

theorem strictFrom_of_pos (hg : g.OverArcs distance staged)
    (hpos : ∀ u v w, g.HasArc u v w → 0 < w) : Digraph.StrictFrom g.HasArc source := by
  intro u v w c hc harc
  calc c = c + 0 := (add_zero c).symm
    _ < c + w := WithTop.add_lt_add_left (walkCost_ne_top hg hc) (hpos u v w harc)

/-- A run that ends at the target settles the nodes up to it. -/
theorem settlesByRank_of_ranked (hstrict : Digraph.StrictFrom g.HasArc source)
    (hinv : SearchInv g source target (fun _ => 0) t (es.map Expansion.node).reverse)
    (hranked : BestFirst.Ranked g.HasArc source UInt32.toNat
      (t.toBestFirst (es.map Expansion.node).reverse))
    (hlabel : t.label target ≠ ⊤)
    (hmin : ∀ x, x ∉ (es.map Expansion.node).reverse →
      (t.toBestFirst (es.map Expansion.node).reverse).rank UInt32.toNat target
        ≤ (t.toBestFirst (es.map Expansion.node).reverse).rank UInt32.toNat x)
    (hdist : ∀ e ∈ es, e.distance = t.label e.node) {last : Expansion (WithTop K)}
    (hnode : last.node = target) (hlast : last.distance = t.label target) :
    SettlesByRank g source target (es ++ [last]) := by
  set closed := (es.map Expansion.node).reverse with hclosed
  have hmem : ∀ e ∈ es, e.node ∈ closed :=
    fun e he => List.mem_reverse.mpr (List.mem_map_of_mem he)
  have hrank : ∀ e ∈ es, e.rank = (t.toBestFirst closed).rank UInt32.toNat e.node := by
    intro e he
    rw [Expansion.rank, hdist e he]
    rfl
  have hrankLast : last.rank = (t.toBestFirst closed).rank UInt32.toNat target := by
    rw [Expansion.rank, hlast, hnode]
    rfl
  have htarget : g.Rank source target last.rank := by
    rw [hrankLast]
    exact ⟨hranked.isLeast hstrict hinv.explored (Or.inr hmin) hlabel, rfl⟩
  have hexact : ∀ e ∈ es, g.Rank source e.node e.rank := by
    intro e he
    rw [hrank e he]
    exact ⟨hranked.isLeast hstrict hinv.explored (Or.inl (hmem e he))
      (hinv.explored.finite _ (hmem e he)), rfl⟩
  -- what was settled before the target is ranked before it
  have hbefore : ∀ e ∈ es, e.rank < last.rank := by
    intro e he
    rw [hrank e he, hrankLast]
    exact hranked.before _ (hmem e he) target hinv.target_open _
      (hinv.explored.walk target hlabel)
  constructor
  · intro e he
    rcases List.mem_append.mp he with he | he
    · exact hexact e he
    · obtain rfl := List.mem_singleton.mp he
      exact hnode ▸ htarget
  · rw [List.pairwise_append]
    refine ⟨?_, by simp, fun e he f hf => ?_⟩
    · have hincreasing := List.pairwise_map.mp (List.pairwise_reverse.mp hranked.increasing)
      refine hincreasing.imp_of_mem (fun {e f} he hf hlt => ?_)
      rwa [hrank e he, hrank f hf]
    · rw [List.mem_singleton.mp hf]
      exact hbefore e he
  · intro v
    rw [List.map_append, List.mem_append, List.map_singleton, List.mem_singleton, hnode]
    constructor
    · rintro (hv | rfl)
      · rcases List.mem_map.mp hv with ⟨e, he, rfl⟩
        exact ⟨_, _, hexact e he, htarget, (hbefore e he).le⟩
      · exact ⟨_, _, htarget, htarget, le_rfl⟩
    · rintro ⟨p, q, hp, hq, hle⟩
      by_cases hv : v ∈ closed
      · exact Or.inl (List.mem_reverse.mp hv)
      · -- an open node is not ranked before the target, so it is the target
        have hge : q ≤ p :=
          calc q = (t.toBestFirst closed).rank UInt32.toNat target :=
                hq.unique (hrankLast ▸ htarget)
            _ ≤ toLex ((ofLex p).1, v.toNat) :=
                hranked.of_minimal hstrict hinv.explored hmin hv hp.1.1
            _ = p := (Graph.MinCost.rank hp.1).unique hp
        exact Or.inr (hp.eq_of_same (le_antisymm hle hge ▸ hq))

end

/-- **The tie-breaking law.** On positive weights Dijkstra settles the nodes in the order of
their ranks, up to the target and no further, and returns the one route that enters every node
from the first node from which a least-cost route may. -/
theorem dijkstra_byRank {K : Type} [Field K] [LinearOrder K] [IsStrictOrderedRing K]
    (distance : Coord (WithTop K) → Coord (WithTop K) → WithTop K)
    (std : Comparison.Sorter (GraphBuilder.stagedBefore (F := WithTop K)))
    (g : Graph (WithTop K)) (hg : g.Built distance std)
    (hpos : ∀ u v w, g.HasArc u v w → 0 < w) (source target : NodeId)
    (hs : g.contains source = true) (ht : g.contains target = true)
    (hreach : Digraph.Reachable g.HasArc source target) :
    ∃ result settled, dijkstra g source target = .ok result ∧
      settled = expansions g source target zeroEstimate ∧
      SettlesByRank g source target settled ∧
      result.stats.nodesExpanded.toNat = settled.length ∧
      result.stats.nodesExpanded.toNat
        = {v | ∃ p q, g.Rank source v p ∧ g.Rank source target q ∧ p ≤ q}.ncard ∧
      result.status = .found ∧ g.TiePath source target result.path.reverse ∧
      ∀ back, g.TiePath source target back → result.path = back.reverse := by
  rcases hg.exists_overArcs with ⟨staged, hover⟩
  have hstrict : Digraph.StrictFrom g.HasArc source := strictFrom_of_pos hover hpos
  have hest : ∀ v, g.contains v = true → zeroEstimate v = .ok (0 : WithTop K) := fun _ _ => rfl
  rcases search_stops hover (h := fun _ => 0) hest (fun _ => le_rfl) hs ht WithTop.zero_ne_top
    (zero_add _) with ⟨es, t, result, hrun, hstop, hinv, hsearch, hends⟩
  have hstart := SearchInv.start (h := fun _ => (0 : WithTop K)) target hs WithTop.zero_ne_top
    (zero_add _)
  have hcount := hends.toNat_nodesExpanded hover.nodes_le hinv
  have hnodup := hends.nodup hinv
  have hfound := (found_iff_reachable hover (fun a b ha hb => WithTop.add_ne_top.mpr ⟨ha, hb⟩)
    WithTop.zero_ne_top hinv hends).mpr hreach
  rcases hrun.keeps hover hest (fun _ => le_rfl) hstart with ⟨-, -, hprio⟩
  have hranked := hrun.ranked hover hest hstrict hstart (.start rfl)
  rw [List.append_nil] at hranked
  rcases hends with ⟨-, rfl, -⟩ | ⟨e, rest, path, hchoose, htarget, hpath, -, rfl, hexp⟩
  · cases hfound
  have hlabel : t.label target ≠ ⊤ := htarget ▸ hchoose.labelled
  have hmin := fun x hx => hinv.rank_le_of_reached (v := x) hover hest hstop hlabel hx
  have hnode : (t.expansion e).node = target := htarget
  have hlast : (t.expansion e).distance = t.label target := htarget ▸ rfl
  have hsettles := settlesByRank_of_ranked hstrict hinv hranked hlabel hmin
    (fun e he => (hprio e he).1) hnode hlast
  have htie := tiePath_of_path hstrict hinv hranked hpath (Or.inr hmin) hlabel
  rw [dijkstra_eq hs ht]
  refine ⟨_, _, hsearch, rfl, hexp ▸ hsettles, hcount, ?_, rfl, ?_, fun back hback => ?_⟩
  · -- the settled nodes are distinct, so there are as many as were counted
    have hset : {v | ∃ p q, g.Rank source v p ∧ g.Rank source target q ∧ p ≤ q}
        = ((expansions g source target zeroEstimate).map Expansion.node).toFinset := by
      ext v
      rw [Finset.mem_coe, List.mem_toFinset, hexp]
      exact (hsettles.mem_iff v).symm
    rw [hset, Set.ncard_coe_finset, List.toFinset_card_of_nodup hnodup, List.length_map, hcount]
  · rw [List.reverse_reverse]
    exact htie
  · refine congrArg List.reverse (htie.unique (fun u htight => ?_) hback)
    -- no route leads back to the source at no cost
    rcases htight with ⟨c, w, hc, harc, hmin⟩
    have hzero : c + w ≤ 0 := hmin.2 Digraph.walkCost_nil
    have hlt : c < c + w := hstrict hc.1 harc
    exact absurd (hlt.trans_le hzero) (not_lt.mpr (hc.1.nonneg hover.growing))

/-! ## Two routes of one cost -/

def diamondCalls : List (BuilderCall (WithTop ℚ)) :=
  [.setNode 0 ⟨0, 0⟩ 1, .setNode 1 ⟨1, 1⟩ 2, .setNode 2 ⟨1, -1⟩ 3,
    .setNode 3 ⟨(2 : ℚ), 0⟩ 4, .addArc 0 1 (2 : ℚ), .addArc 0 2 (2 : ℚ), .addArc 1 3 (2 : ℚ),
    .addArc 2 3 (2 : ℚ)]

/-- The diamond of the tests. -/
def diamond : Graph (WithTop ℚ) where
  coordinates := [⟨0, 0⟩, ⟨1, 1⟩, ⟨1, -1⟩, ⟨(2 : ℚ), 0⟩]
  externalIds := [1, 2, 3, 4]
  offsets := [0, 2, 3, 4, 4]
  arcs := [⟨1, (2 : ℚ)⟩, ⟨2, (2 : ℚ)⟩, ⟨3, (2 : ℚ)⟩, ⟨3, (2 : ℚ)⟩]
  metric := ⟨true, 0, 0, 0, 1⟩

theorem diamond_built : diamond.Built taxicab.lift (Comparison.insertionSort _) :=
  Graph.built_of_ofCalls
    (show Graph.ofCalls taxicab.lift (Comparison.insertionSort _) 4 diamondCalls = .ok diamond by
      decide +kernel)

/-- What `arcs_from` shows is in the array of arcs. -/
theorem Graph.HasArc.mem_arcs {F : Type} {g : Graph F} {u v : NodeId} {w : F}
    (h : g.HasArc u v w) : (⟨v, w⟩ : Arc F) ∈ g.arcs := by
  rcases h with ⟨row, hrow, hmem⟩
  unfold Graph.arcsFrom at hrow
  split_ifs at hrow
  · cases hrow
  · rcases bind_eq_ok.mp hrow with ⟨rowBegin, -, hrow⟩
    rcases bind_eq_ok.mp hrow with ⟨rowEnd, -, hrow⟩
    dsimp only at hrow
    split_ifs at hrow
    obtain rfl := Except.ok.inj hrow
    exact List.mem_of_mem_drop (List.mem_of_mem_take hmem)

/-- In the diamond the route through the smaller identifier is taken. -/
theorem dijkstra_byRank_diamond :
    (∃ result settled, dijkstra diamond 0 3 = .ok result ∧
      settled = expansions diamond 0 3 zeroEstimate ∧ SettlesByRank diamond 0 3 settled ∧
      result.stats.nodesExpanded.toNat = settled.length ∧
      result.stats.nodesExpanded.toNat
        = {v | ∃ p q, diamond.Rank 0 v p ∧ diamond.Rank 0 3 q ∧ p ≤ q}.ncard ∧
      result.status = .found ∧ diamond.TiePath 0 3 result.path.reverse ∧
      ∀ back, diamond.TiePath 0 3 back → result.path = back.reverse) ∧
    (dijkstra diamond 0 3).map (fun result => result.path) = .ok [0, 1, 3] := by
  have hreach : Digraph.Reachable diamond.HasArc 0 3 := by
    have h01 : diamond.HasArc 0 1 2 := ⟨[⟨1, 2⟩, ⟨2, 2⟩], rfl, by decide⟩
    have h13 : diamond.HasArc 1 3 2 := ⟨[⟨3, 2⟩], rfl, by decide⟩
    exact ((Digraph.walkCost_nil.snoc h01).snoc h13).reachable
  have hpos : ∀ u v w, diamond.HasArc u v w → 0 < w := by
    intro u v w harc
    have hall : ∀ arc ∈ diamond.arcs, 0 < arc.weight := by decide
    exact hall _ harc.mem_arcs
  exact ⟨dijkstra_byRank taxicab.lift _ diamond diamond_built hpos 0 3 rfl rfl hreach,
    by decide +kernel⟩

end RouteEngine
