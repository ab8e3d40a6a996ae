import RouteEngine.Relabelling

set_option autoImplicit false

/-! # Files with permuted rows

The order of the rows decides the numbers of the nodes and nothing else: texts with the same data
rows in another order are both rejected, or both loaded into graphs that differ in numbers only
(`loadGraph_permute`), so every query has the same answer. -/

namespace RouteEngine

/-! ## Rows -/

/-- The same header, and the same data rows in some order. -/
structure SameRows (text text' : Text) : Prop where
  header : (dataRows text).head? = (dataRows text').head?
  rows : (dataRows text).tail.Perm (dataRows text').tail

theorem SameRows.symm {text text' : Text} (h : SameRows text text') : SameRows text' text :=
  ⟨h.header.symm, h.rows.symm⟩

/-- Permuted rows are the texts of a permuted list. -/
theorem RowsAre.permute {α : Type} {P : Fields → α → Prop} {header : Fields} {text text' : Text}
    {l : List α} (h : RowsAre P header text l) (hrows : SameRows text text') :
    ∃ l', RowsAre P header text' l' ∧ l'.Perm l := by
  rcases h with ⟨body, htext, hbody⟩
  have hhead := hrows.header
  have htail := hrows.rows
  rw [htext] at hhead htail
  cases htext' : dataRows text' with
  | nil =>
      rw [htext'] at hhead
      cases hhead
  | cons header' body' =>
      rw [htext'] at hhead htail
      rcases List.perm_comp_forall₂ htail.symm hbody with ⟨l', hl', hperm⟩
      refine ⟨l', ⟨body', ?_, hl'⟩, hperm⟩
      rw [htext', ← Option.some.inj hhead]

/-! ## Node files and edge files -/

section Files

variable {F : Type} [IsFinite F] {fromChars : Text → Option (F × Text)}
  {text text' : Text}

theorem NodeFile.permute {rows : List (NodeRow F)} (h : NodeFile fromChars text rows)
    (hrows : SameRows text text') :
    ∃ rows', NodeFile fromChars text' rows' ∧ rows'.Perm rows := by
  rcases (rowsAre_iff.mpr h.lines).permute hrows with ⟨rows', hlines, hperm⟩
  refine ⟨rows', ⟨rowsAre_iff.mp hlines, ?_, ?_⟩, hperm⟩
  · exact (hperm.map NodeRow.externalId).nodup_iff.mpr h.distinct
  · rw [hperm.length_eq]
    exact h.length_le

variable [Zero F] [LT F]

theorem EdgeFile.permute {ids : List ExternalId} {arcs : List (StagedArc F)}
    (h : EdgeFile fromChars ids text arcs) (hrows : SameRows text text') :
    ∃ arcs', EdgeFile fromChars ids text' arcs' ∧ arcs'.Perm arcs := by
  rcases (rowsAre_iff.mpr h.lines).permute hrows with ⟨arcs', hlines, hperm⟩
  refine ⟨arcs', ⟨rowsAre_iff.mp hlines, ?_⟩, hperm⟩
  rw [hperm.length_eq]
  exact h.length_le

/-- The numbers stand for the same row. -/
def SameRowAt (rows rows' : List (NodeRow F)) (v v' : NodeId) : Prop :=
  ∃ row, rows[v.toNat]? = some row ∧ rows'[v'.toNat]? = some row

omit [IsFinite F] [Zero F] [LT F] in
/-- A node has a number in every permutation of the rows. -/
theorem IsNodeId.renumber {rows rows' : List (NodeRow F)} (hperm : rows'.Perm rows)
    (hle : rows'.length ≤ maxSupportedNodeCount) {field : Text} {v : NodeId}
    (h : IsNodeId (idsOf rows) field v) :
    ∃ v', IsNodeId (idsOf rows') field v' ∧ SameRowAt rows rows' v v' := by
  rcases h with ⟨externalId, hdecimal, hid⟩
  rw [idsOf, List.getElem?_map, Option.map_eq_some_iff] at hid
  rcases hid with ⟨row, hrow, rfl⟩
  rcases List.getElem_of_mem (hperm.mem_iff.mpr (List.mem_of_getElem? hrow)) with ⟨i, hi, hrow'⟩
  have hnumber : (UInt32.ofNat i).toNat = i := toNat_ofNat_node (by omega)
  have hrow'' : rows'[(UInt32.ofNat i).toNat]? = some row := by
    rw [hnumber, List.getElem?_eq_getElem hi, hrow']
  refine ⟨UInt32.ofNat i, ⟨row.externalId, hdecimal, ?_⟩, row, hrow, hrow''⟩
  rw [idsOf, List.getElem?_map, hrow'']
  rfl

/-- The arcs differ in the numbers of their ends only. -/
structure SameArc (rows rows' : List (NodeRow F)) (a a' : StagedArc F) : Prop where
  source : SameRowAt rows rows' a.source a'.source
  target : SameRowAt rows rows' a.target a'.target
  weight : a.weight = a'.weight

theorem EdgeFile.renumber {rows rows' : List (NodeRow F)} (hperm : rows'.Perm rows)
    (hle : rows'.length ≤ maxSupportedNodeCount) {arcs : List (StagedArc F)}
    (h : EdgeFile fromChars (idsOf rows) text arcs) :
    ∃ arcs', EdgeFile fromChars (idsOf rows') text arcs' ∧
      List.Forall₂ (SameArc rows rows') arcs arcs' := by
  rcases h.lines with ⟨header, body, htext, hheader, hrows⟩
  have hbody : ∃ arcs', List.Forall₂ (IsEdgeRow fromChars (idsOf rows')) body arcs' ∧
      List.Forall₂ (SameArc rows rows') arcs arcs' := by
    clear htext h
    induction hrows with
    | nil => exact ⟨[], .nil, .nil⟩
    | @cons line arc body arcs hline _ ih =>
        rcases hline with ⟨fields, hrow, harc⟩
        rcases harc.source.renumber hperm hle with ⟨source, hsource, hsame⟩
        rcases harc.target.renumber hperm hle with ⟨target, htarget, hsame'⟩
        rcases ih with ⟨arcs', hrest, hsames⟩
        refine ⟨⟨source, target, arc.weight⟩ :: arcs', .cons ?_ hrest, .cons ?_ hsames⟩
        · exact ⟨fields, hrow, hsource, htarget, harc.weight, harc.nonneg⟩
        · exact ⟨hsame, hsame', rfl⟩
  rcases hbody with ⟨arcs', hrows', hsame⟩
  refine ⟨arcs', ⟨⟨header, body, htext, hheader, hrows'⟩, ?_⟩, hsame⟩
  rw [← hsame.length_eq]
  exact h.length_le

end Files

/-! ## Loaded graphs -/

section Load

variable {K : Type} [Field K] [LinearOrder K]
variable {distance : Coord (WithTop K) → Coord (WithTop K) → WithTop K}
  {rows rows' : List (NodeRow (WithTop K))} {arcs arcs' : List (StagedArc (WithTop K))}

/-- A node of the graph over the rows is its row. -/
theorem rowAt_canonicalGraph {v : NodeId} {row : NodeRow (WithTop K)}
    (h : rows[v.toNat]? = some row) (staged : List (StagedArc (WithTop K))) :
    rowAt (canonicalGraph distance (rows.map NodeRow.coordinate) (idsOf rows) staged) v = row := by
  have hid : (idsOf rows)[v.toNat]? = some row.externalId := by
    rw [idsOf, List.getElem?_map, h]
    rfl
  have hcoordinate : (rows.map NodeRow.coordinate)[v.toNat]? = some row.coordinate := by
    rw [List.getElem?_map, h]
    rfl
  show NodeRow.mk ((idsOf rows)[v.toNat]?.getD 0)
    ((rows.map NodeRow.coordinate)[v.toNat]?.getD Coord.zero) = row
  rw [hid, hcoordinate]
  rfl

/-- Permuted rows and renumbered arcs give graphs that differ in numbers only. -/
theorem sameNamed_of_sameArcs (std : Comparison.Sorter (GraphBuilder.stagedBefore (F := WithTop K)))
    (hdistinct : (idsOf rows).Nodup) (hperm : rows'.Perm rows)
    {renumbered : List (StagedArc (WithTop K))}
    (hsame : List.Forall₂ (SameArc rows rows') arcs renumbered) (harcs : arcs'.Perm renumbered) :
    SameNamed (canonicalGraph distance (rows.map NodeRow.coordinate) (idsOf rows) (std.sort arcs))
      (std.sort arcs)
      (canonicalGraph distance (rows'.map NodeRow.coordinate) (idsOf rows') (std.sort arcs'))
      (std.sort arcs') := by
  refine ⟨hdistinct, (hperm.map NodeRow.externalId).symm, ?_⟩
  generalize hg : canonicalGraph distance (rows.map NodeRow.coordinate) (idsOf rows)
    (std.sort arcs) = g
  generalize hg' : canonicalGraph distance (rows'.map NodeRow.coordinate) (idsOf rows')
    (std.sort arcs') = g'
  have hrow : ∀ v v', SameRowAt rows rows' v v' → rowAt g v = rowAt g' v' := by
    rintro v v' ⟨row, hv, hv'⟩
    rw [← hg, ← hg', rowAt_canonicalGraph hv, rowAt_canonicalGraph hv']
  have hnamed : arcs.map (StagedArc.named g) = renumbered.map (StagedArc.named g') := by
    rw [← List.forall₂_eq_eq_eq, List.forall₂_map_left_iff, List.forall₂_map_right_iff]
    apply hsame.imp
    intro a a' ha
    unfold StagedArc.named
    rw [hrow _ _ ha.source, hrow _ _ ha.target, ha.weight]
  calc ((std.sort arcs).map (StagedArc.named g)).Perm (arcs.map (StagedArc.named g)) :=
        (std.perm arcs).map _
    _ = renumbered.map (StagedArc.named g') := hnamed
    List.Perm _ (arcs'.map (StagedArc.named g')) := (harcs.map _).symm
    List.Perm _ ((std.sort arcs').map (StagedArc.named g')) := ((std.perm arcs').map _).symm

variable (fromChars : Text → Option (WithTop K × Text))
  (std : Comparison.Sorter (GraphBuilder.stagedBefore (F := WithTop K)))

/-- **Permuted rows are loaded alike**: from texts that are loaded, the permuted texts are loaded
too, into a graph that differs in numbers only. -/
theorem loadGraph_permute {nodes nodes' edges edges' : Text} (hnodes : SameRows nodes nodes')
    (hedges : SameRows edges edges') {nodesName edgesName : String} {g : Graph (WithTop K)}
    (hload : loadGraph fromChars distance std (.ofText nodes) nodesName (.ofText edges) edgesName
      = .ok g) :
    ∃ g' staged staged',
      loadGraph fromChars distance std (.ofText nodes') nodesName (.ofText edges') edgesName
        = .ok g' ∧
      g.OverArcs distance staged ∧ g'.OverArcs distance staged' ∧
      SameNamed g staged g' staged' := by
  rcases files_of_loadGraph hload with ⟨rows, arcs, hnodeFile, hedgeFile⟩
  rw [loadGraph_of_files distance std hnodeFile hedgeFile, Except.ok.injEq] at hload
  subst hload
  rcases hnodeFile.permute hnodes with ⟨rows', hnodeFile', hperm⟩
  rcases hedgeFile.renumber hperm hnodeFile'.length_le with ⟨renumbered, hrenumbered, hsame⟩
  rcases hrenumbered.permute hedges with ⟨arcs', hedgeFile', hpermArcs⟩
  exact ⟨_, _, _, loadGraph_of_files distance std hnodeFile' hedgeFile' nodesName edgesName,
    overArcs_of_files distance std hnodeFile hedgeFile,
    overArcs_of_files distance std hnodeFile' hedgeFile',
    sameNamed_of_sameArcs std hnodeFile.distinct hperm hsame hpermArcs⟩

end Load

/-- **The order of the rows does not matter.** Over exact arithmetic, two pairs of texts with the
same data rows are both rejected, or both loaded; the graphs then have the same metric verdict,
number of violating arcs and worst ratio, and every query between external identifiers has the
same outcome and cost in both, by every algorithm. -/
theorem loadGraph_row_order {K : Type} [Field K] [LinearOrder K] [IsStrictOrderedRing K]
    (d : PlaneDistance K) (fromChars : Text → Option (WithTop K × Text))
    (std : Comparison.Sorter (GraphBuilder.stagedBefore (F := WithTop K)))
    (nodes nodes' edges edges' : Text) (nodesName edgesName : String)
    (hnodes : SameRows nodes nodes') (hedges : SameRows edges edges') :
    (∃ file line message file' line' message',
      loadGraph fromChars d.lift std (.ofText nodes) nodesName (.ofText edges) edgesName
        = .error (.graphLoad file line message) ∧
      loadGraph fromChars d.lift std (.ofText nodes') nodesName (.ofText edges') edgesName
        = .error (.graphLoad file' line' message')) ∨
    ∃ g g',
      loadGraph fromChars d.lift std (.ofText nodes) nodesName (.ofText edges) edgesName = .ok g ∧
      loadGraph fromChars d.lift std (.ofText nodes') nodesName (.ofText edges') edgesName
        = .ok g' ∧
      g.metric.passes = g'.metric.passes ∧ g.metric.violatingArcs = g'.metric.violatingArcs ∧
      g.metric.worstRatio = g'.metric.worstRatio ∧
      ∀ fromId toId algorithm, routeQuery d.lift g fromId toId algorithm
        = routeQuery d.lift g' fromId toId algorithm := by
  have hcases : ∀ nodes edges : Text,
      (∃ g, loadGraph fromChars d.lift std (.ofText nodes) nodesName (.ofText edges) edgesName
        = .ok g) ∨ ∃ file line message,
      loadGraph fromChars d.lift std (.ofText nodes) nodesName (.ofText edges) edgesName
        = .error (.graphLoad file line message) := by
    intro nodes edges
    rcases loadGraph_cases fromChars d.lift std nodes edges nodesName edgesName with
      ⟨rows, arcs, hnodeFile, hedgeFile⟩ | herror
    · exact .inl ⟨_, loadGraph_of_files d.lift std hnodeFile hedgeFile nodesName edgesName⟩
    · exact .inr herror
  rcases hcases nodes edges with ⟨g, hload⟩ | ⟨file, line, message, herror⟩
  · right
    rcases loadGraph_permute fromChars std hnodes hedges hload with
      ⟨g', staged, staged', hload', hg, hg', hsame⟩
    have hverdict : g.metric.verdict = g'.metric.verdict := by
      rw [hg.metric_eq, hg'.metric_eq]
      exact hsame.verdict_eq d.lift
    exact ⟨g, g', hload, hload', congrArg Verdict.passes hverdict,
      congrArg Verdict.violatingArcs hverdict, congrArg Verdict.worstRatio hverdict,
      hsame.routeQuery_eq hg hg'⟩
  · left
    rcases hcases nodes' edges' with ⟨g', hload'⟩ | ⟨file', line', message', herror'⟩
    · -- the permuted texts cannot be loaded alone
      rcases loadGraph_permute fromChars std hnodes.symm hedges.symm hload' with
        ⟨g, _, _, hload, -⟩
      rw [herror] at hload
      cases hload
    · exact ⟨file, line, message, file', line', message', herror, herror'⟩

/-- The road with its rows in another order. -/
theorem loadGraph_row_order_road :
    ∃ g g',
      loadGraph naturalNumeral taxicab.lift (Comparison.insertionSort _)
        (.ofText "id,x,y\n7,0,0\n8,1,0\n9,2,0\n".toList) "nodes.csv"
        (.ofText "source,target,weight\n7,9,5\n7,8,1\n8,9,1\n".toList) "edges.csv" = .ok g ∧
      loadGraph naturalNumeral taxicab.lift (Comparison.insertionSort _)
        (.ofText "id,x,y\n9,2,0\n7,0,0\n8,1,0\n".toList) "nodes.csv"
        (.ofText "source,target,weight\n8,9,1\n7,9,5\n7,8,1\n".toList) "edges.csv" = .ok g' ∧
      routeQuery taxicab.lift g 7 9 .astarEuclidean
        = routeQuery taxicab.lift g' 7 9 .astarEuclidean := by
  have h := loadGraph_row_order taxicab naturalNumeral (Comparison.insertionSort _)
    "id,x,y\n7,0,0\n8,1,0\n9,2,0\n".toList "id,x,y\n9,2,0\n7,0,0\n8,1,0\n".toList
    "source,target,weight\n7,9,5\n7,8,1\n8,9,1\n".toList
    "source,target,weight\n8,9,1\n7,9,5\n7,8,1\n".toList "nodes.csv" "edges.csv"
    ⟨by decide +kernel, by decide +kernel⟩ ⟨by decide +kernel, by decide +kernel⟩
  have hload : (loadGraph naturalNumeral taxicab.lift (Comparison.insertionSort _)
      (.ofText "id,x,y\n7,0,0\n8,1,0\n9,2,0\n".toList) "nodes.csv"
      (.ofText "source,target,weight\n7,9,5\n7,8,1\n8,9,1\n".toList)
      "edges.csv").map Graph.externalIds = .ok [7, 8, 9] := by
    decide +kernel
  rcases h with ⟨file, line, message, -, -, -, herror, -⟩ | ⟨g, g', hg, hg', -, -, -, hquery⟩
  · rw [herror] at hload
    cases hload
  · exact ⟨g, g', hg, hg', hquery 7 9 .astarEuclidean⟩

end RouteEngine
