import Mathlib.Data.List.Perm.Basic
import RouteEngine.RouteCommand

set_option autoImplicit false

/-! # Graphs up to the numbering of their nodes

Two graphs are `SameNamed` when they have the same nodes and the same arcs once every number is
replaced by the external identifier and the coordinate behind it. The verdict of the metric scan
and the answer to a query that names its ends by external identifiers are the same for both. -/

namespace RouteEngine

/-! ## Numbers replaced by names -/

section Names

variable {F : Type} [Zero F]

/-- What a node is, apart from its number. -/
def rowAt (g : Graph F) (v : NodeId) : NodeRow F := ⟨idAt g v, coordAt g.coordinates v⟩

/-- An arc between nodes without numbers. -/
structure NamedArc (F : Type) where
  source : NodeRow F
  target : NodeRow F
  weight : F
  deriving DecidableEq

/-- The arc with its endpoints named. -/
def StagedArc.named (g : Graph F) (a : StagedArc F) : NamedArc F :=
  ⟨rowAt g a.source, rowAt g a.target, a.weight⟩

/-- The graphs over the arcs `staged` and `staged'` differ in numbers only. -/
structure SameNamed (g : Graph F) (staged : List (StagedArc F)) (g' : Graph F)
    (staged' : List (StagedArc F)) : Prop where
  nodup : g.externalIds.Nodup
  ids : g.externalIds.Perm g'.externalIds
  arcs : (staged.map (StagedArc.named g)).Perm (staged'.map (StagedArc.named g'))

theorem SameNamed.symm {g g' : Graph F} {staged staged' : List (StagedArc F)}
    (h : SameNamed g staged g' staged') : SameNamed g' staged' g staged :=
  ⟨h.ids.nodup_iff.mp h.nodup, h.ids.symm, h.arcs.symm⟩

end Names

/-! ## The verdict of the metric scan -/

section Verdict

variable {F : Type} [LinearOrder F] [Zero F] [Div F]

/-- The order of two arcs does not matter for the verdict. -/
theorem Verdict.observe_comm (verdict : Verdict F) (w d w' d' : F) :
    (verdict.observe w d).observe w' d' = (verdict.observe w' d').observe w d := by
  unfold Verdict.observe
  simp only [Verdict.mk.injEq]
  refine ⟨Bool.and_right_comm _ _ _, ?_, ?_⟩
  · split_ifs <;> rfl
  · split_ifs
    · exact min_right_comm _ _ _
    · rfl
    · rfl
    · rfl

variable (distance : Coord F → Coord F → F)

/-- The verdict after the arc between two named nodes. -/
def Verdict.observeNamed (verdict : Verdict F) (arc : NamedArc F) : Verdict F :=
  verdict.observe arc.weight (distance arc.source.coordinate arc.target.coordinate)

theorem verdict_foldl (g : Graph F) (staged : List (StagedArc F)) (report : MetricReport F) :
    (staged.foldl (observeStaged distance g.coordinates) report).verdict
      = (staged.map (StagedArc.named g)).foldl (Verdict.observeNamed distance)
          report.verdict := by
  induction staged generalizing report with
  | nil => rfl
  | cons a staged ih =>
      rw [List.foldl_cons, ih, List.map_cons, List.foldl_cons]
      congr 1
      exact report.verdict_observe a.source a.toArc _

/-- **The verdict depends on the named arcs only.** -/
theorem SameNamed.verdict_eq [Top F] {g g' : Graph F} {staged staged' : List (StagedArc F)}
    (h : SameNamed g staged g' staged') :
    (canonicalReport distance g.coordinates staged).verdict
      = (canonicalReport distance g'.coordinates staged').verdict := by
  unfold canonicalReport
  rw [verdict_foldl, verdict_foldl]
  exact h.arcs.foldl_eq' (fun a _ b _ v => v.observe_comm _ _ _ _) _

end Verdict

/-! ## Walks -/

section Walks

variable {F : Type} [LinearOrder F] [OrderTop F] [Zero F] [Div F]
variable {distance : Coord F → Coord F → F} {g g' : Graph F} {staged staged' : List (StagedArc F)}

theorem renamed_hasArc_iff (hg : g.OverArcs distance staged) {x y : ExternalId} {w : F} :
    Digraph.Renamed (idAt g) g.HasArc x y w ↔
      ∃ a ∈ staged.map (StagedArc.named g),
        a.source.externalId = x ∧ a.target.externalId = y ∧ a.weight = w := by
  constructor
  · rintro ⟨u, v, harc, rfl, rfl⟩
    refine ⟨StagedArc.named g ⟨u, v, w⟩, List.mem_map_of_mem ?_, rfl, rfl, rfl⟩
    exact (hg.hasArc_iff u v w).mp harc
  · rintro ⟨_, hnamed, rfl, rfl, rfl⟩
    rcases List.mem_map.mp hnamed with ⟨a, ha, rfl⟩
    exact ⟨a.source, a.target, (hg.hasArc_iff _ _ _).mpr ha, rfl, rfl⟩

/-- Between named nodes the graphs have the same arcs. -/
theorem SameNamed.renamed_eq (h : SameNamed g staged g' staged')
    (hg : g.OverArcs distance staged) (hg' : g'.OverArcs distance staged') :
    Digraph.Renamed (idAt g) g.HasArc = Digraph.Renamed (idAt g') g'.HasArc := by
  funext x y w
  rw [eq_iff_iff, renamed_hasArc_iff hg, renamed_hasArc_iff hg']
  simp only [h.arcs.mem_iff]

theorem idAt_eq_iff (hg : g.OverArcs distance staged) {v : NodeId} {externalId : ExternalId} :
    g.externalId v = .ok externalId ↔ g.contains v = true ∧ idAt g v = externalId := by
  rw [g.contains_iff]
  by_cases hv : v.toNat < g.nodeCount
  · rw [hg.externalId_eq hv]
    simp [hv]
  · simp [hv, externalId_ne_of_not_lt hv]

/-- Distinct nodes have distinct identifiers. -/
theorem idAt_injOn (hg : g.OverArcs distance staged) (hnodup : g.externalIds.Nodup)
    ⦃u v : NodeId⦄ (hu : g.contains u = true) (hv : g.contains v = true)
    (heq : idAt g u = idAt g v) : u = v := by
  have hfindu := findNode_eq_some hg hnodup ((idAt_eq_iff hg).mpr ⟨hu, heq⟩)
  have hfindv := findNode_eq_some hg hnodup ((idAt_eq_iff hg).mpr ⟨hv, rfl⟩)
  rw [hfindu] at hfindv
  exact Option.some.inj (Except.ok.inj hfindv)

/-- **Walks between nodes of the same names have the same costs.** -/
theorem SameNamed.walkCost_iff [Add F] (h : SameNamed g staged g' staged')
    (hg : g.OverArcs distance staged) (hg' : g'.OverArcs distance staged')
    {fromId toId : ExternalId} {source target source' target' : NodeId}
    (hs : g.externalId source = .ok fromId) (ht : g.externalId target = .ok toId)
    (hs' : g'.externalId source' = .ok fromId) (ht' : g'.externalId target' = .ok toId) {c : F} :
    Digraph.WalkCost g.HasArc source target c ↔ Digraph.WalkCost g'.HasArc source' target' c := by
  rw [idAt_eq_iff hg] at hs ht
  rw [idAt_eq_iff hg'] at hs' ht'
  rw [← Digraph.walkCost_renamed_iff (idAt_injOn hg h.nodup) hg.contains_of_hasArc hs.1 ht.1,
    ← Digraph.walkCost_renamed_iff (idAt_injOn hg' h.symm.nodup) hg'.contains_of_hasArc hs'.1
      ht'.1, h.renamed_eq hg hg', hs.2, ht.2, hs'.2, ht'.2]

end Walks

/-! ## Queries -/

/-- A query between external identifiers: whether there is a route and what it costs, or `none`
when an identifier is not in the graph. -/
def routeQuery {F : Type} [Zero F] [Top F] [Add F] [LT F] [DecidableLT F] [BEq F]
    (distance : Coord F → Coord F → F) (g : Graph F) (fromId toId : ExternalId)
    (algorithm : Algorithm) : Outcome (Option (SearchStatus × F)) := do
  match ← findNode g fromId with
  | none => return none
  | some source =>
  match ← findNode g toId with
  | none => return none
  | some target =>
      let result ← runSearch distance g source target algorithm
      return some (result.status, result.cost)

section Queries

variable {K : Type} [Field K] [LinearOrder K] {d : PlaneDistance K}
variable {g g' : Graph (WithTop K)} {staged staged' : List (StagedArc (WithTop K))}

/-- Results that answer for the same walks have the same status and cost. -/
theorem SearchResult.Answers.eq_of_walkCost_iff {source target source' target' : NodeId}
    {result result' : SearchResult (WithTop K)} (h : result.Answers g source target)
    (h' : result'.Answers g' source' target')
    (hwalk : ∀ c, Digraph.WalkCost g.HasArc source target c ↔
      Digraph.WalkCost g'.HasArc source' target' c) :
    result.status = result'.status ∧ result.cost = result'.cost := by
  constructor
  · apply SearchStatus.eq_of_found_iff
    rw [h.found_iff, h'.found_iff, Digraph.reachable_iff_exists_walkCost,
      Digraph.reachable_iff_exists_walkCost]
    simp only [hwalk]
  · have hset : {c | Digraph.WalkCost g.HasArc source target c}
        = {c | Digraph.WalkCost g'.HasArc source' target' c} := Set.ext hwalk
    have hleast := h.least
    rw [hset] at hleast
    exact hleast.unique h'.least

/-- The identifiers of one graph are found in the other. -/
theorem SameNamed.exists_externalId (h : SameNamed g staged g' staged')
    (hg : g.OverArcs d.lift staged) (hg' : g'.OverArcs d.lift staged') {externalId : ExternalId}
    {v : NodeId} (hv : g.externalId v = .ok externalId) :
    ∃ v', g'.externalId v' = .ok externalId := by
  rw [externalId_eq_ok_iff hg] at hv
  have hmem : externalId ∈ g'.externalIds := h.ids.mem_iff.mp (List.mem_of_getElem? hv)
  rcases List.getElem_of_mem hmem with ⟨i, hi, heq⟩
  have hlt : i < maxSupportedNodeCount := by
    have hle := hg'.nodes_le
    rw [hg'.externalIds_length] at hi
    omega
  refine ⟨UInt32.ofNat i, ?_⟩
  rw [externalId_eq_ok_iff hg', toNat_ofNat_node hlt, List.getElem?_eq_getElem hi, heq]

/-- An identifier is found in both graphs or in neither. -/
theorem SameNamed.findNode_cases (h : SameNamed g staged g' staged')
    (hg : g.OverArcs d.lift staged) (hg' : g'.OverArcs d.lift staged') (externalId : ExternalId) :
    (∃ v v', findNode g externalId = .ok (some v) ∧ findNode g' externalId = .ok (some v') ∧
        g.externalId v = .ok externalId ∧ g'.externalId v' = .ok externalId) ∨
      findNode g externalId = .ok none ∧ findNode g' externalId = .ok none := by
  rcases RouteEngine.findNode_cases hg externalId with ⟨v, hfind, hv⟩ | ⟨hnone, hall⟩
  · rcases h.exists_externalId hg hg' hv with ⟨v', hv'⟩
    exact .inl ⟨v, v', hfind, findNode_eq_some hg' h.symm.nodup hv', hv, hv'⟩
  · rcases RouteEngine.findNode_cases hg' externalId with ⟨v', -, hv'⟩ | ⟨hnone', -⟩
    · rcases h.symm.exists_externalId hg' hg hv' with ⟨v, hv⟩
      exact absurd hv (hall v)
    · exact .inr ⟨hnone, hnone'⟩

variable [IsStrictOrderedRing K]

/-- The searches between nodes of the same names are both refused, or both answered alike. -/
theorem SameNamed.runSearch_cases (h : SameNamed g staged g' staged')
    (hg : g.OverArcs d.lift staged) (hg' : g'.OverArcs d.lift staged') {fromId toId : ExternalId}
    {source target source' target' : NodeId}
    (hs : g.externalId source = .ok fromId) (ht : g.externalId target = .ok toId)
    (hs' : g'.externalId source' = .ok fromId) (ht' : g'.externalId target' = .ok toId)
    (algorithm : Algorithm) :
    (∃ e, runSearch d.lift g source target algorithm = .error e ∧
        runSearch d.lift g' source' target' algorithm = .error e) ∨
      ∃ result result', runSearch d.lift g source target algorithm = .ok result ∧
        runSearch d.lift g' source' target' algorithm = .ok result' ∧
        result.status = result'.status ∧ result.cost = result'.cost := by
  have hverdict : g.metric.verdict = g'.metric.verdict := by
    rw [hg.metric_eq, hg'.metric_eq]
    exact h.verdict_eq d.lift
  have hpasses : g.metric.passes = g'.metric.passes := congrArg Verdict.passes hverdict
  have hviolating : g.metric.violatingArcs = g'.metric.violatingArcs :=
    congrArg Verdict.violatingArcs hverdict
  have hsc := ((idAt_eq_iff hg).mp hs).1
  have htc := ((idAt_eq_iff hg).mp ht).1
  have hsc' := ((idAt_eq_iff hg').mp hs').1
  have htc' := ((idAt_eq_iff hg').mp ht').1
  by_cases hrefused : algorithm = .astarEuclidean ∧ g.metric.passes = false
  · -- both are refused with the same number of violating arcs
    rcases hrefused with ⟨rfl, hfails⟩
    have hfails' : g'.metric.passes = false := hpasses ▸ hfails
    exact .inl ⟨heuristicContractError g.metric.violatingArcs,
      runSearch_refused hsc htc hfails, hviolating ▸ runSearch_refused hsc' htc' hfails'⟩
  · have hkept : algorithm = .astarEuclidean → g.metric.passes = true := by
      intro halgorithm
      by_contra hfails
      exact hrefused ⟨halgorithm, by simpa using hfails⟩
    rcases runSearch_answers hg hsc htc algorithm hkept with ⟨result, hresult, hanswers⟩
    rcases runSearch_answers hg' hsc' htc' algorithm (fun ha => hpasses ▸ hkept ha) with
      ⟨result', hresult', hanswers'⟩
    exact .inr ⟨result, result', hresult, hresult',
      hanswers.eq_of_walkCost_iff hanswers' (fun c => h.walkCost_iff hg hg' hs ht hs' ht')⟩

/-- **The answer to a query depends on names only.** -/
theorem SameNamed.routeQuery_eq (h : SameNamed g staged g' staged')
    (hg : g.OverArcs d.lift staged) (hg' : g'.OverArcs d.lift staged') (fromId toId : ExternalId)
    (algorithm : Algorithm) :
    routeQuery d.lift g fromId toId algorithm = routeQuery d.lift g' fromId toId algorithm := by
  unfold routeQuery
  rcases h.findNode_cases hg hg' fromId with ⟨source, source', hfind, hfind', hs, hs'⟩ |
    ⟨hnone, hnone'⟩
  swap
  · rw [hnone, hnone']
    rfl
  rcases h.findNode_cases hg hg' toId with ⟨target, target', hfindt, hfindt', ht, ht'⟩ |
    ⟨hnone, hnone'⟩
  swap
  · rw [hfind, hfind', hnone, hnone']
    rfl
  rw [hfind, hfind', ok_bind, ok_bind, hfindt, hfindt']
  rcases h.runSearch_cases hg hg' hs ht hs' ht' algorithm with ⟨e, herror, herror'⟩ |
    ⟨result, result', hresult, hresult', hstatus, hcost⟩
  · simp [herror, herror']
  · simp [hresult, hresult', hstatus, hcost]

end Queries

end RouteEngine
