import RouteEngine.BuiltGraph

set_option autoImplicit false

/-! # Builders filled in order

The loader and the generator set the nodes `0, 1, …` one after the other and then add arcs. The
builder on the way is `partly`, the one after the last node and some arcs is `complete`, and
`build` turns it into the graph over the sorted arcs. -/

namespace RouteEngine

variable {F : Type}

namespace GraphBuilder

/-- The builder in which the first nodes are set and `unset` nodes follow. -/
def partly [Zero F] (coordinates : List (Coord F)) (externalIds : List ExternalId)
    (unset : Nat) : GraphBuilder F where
  coordinates := coordinates ++ List.replicate unset Coord.zero
  externalIds := externalIds ++ List.replicate unset 0
  assigned := List.replicate coordinates.length true ++ List.replicate unset false
  staged := []
  assignedCount := coordinates.length
  consumed := false

/-- The builder in which all nodes are set and some arcs added. -/
def complete (coordinates : List (Coord F)) (externalIds : List ExternalId)
    (staged : List (StagedArc F)) : GraphBuilder F where
  coordinates := coordinates
  externalIds := externalIds
  assigned := List.replicate coordinates.length true
  staged := staged
  assignedCount := coordinates.length
  consumed := false

/-- The builder with more arcs staged. -/
def withArcs (b : GraphBuilder F) (arcs : List (StagedArc F)) : GraphBuilder F :=
  { b with staged := b.staged ++ arcs }

@[simp] theorem withArcs_nil (b : GraphBuilder F) : b.withArcs [] = b := by
  rw [withArcs, List.append_nil]

theorem withArc_eq_withArcs (b : GraphBuilder F) (a : StagedArc F) :
    b.withArc a.source a.target a.weight = b.withArcs [a] := rfl

theorem withArcs_withArcs (b : GraphBuilder F) (arcs more : List (StagedArc F)) :
    (b.withArcs arcs).withArcs more = b.withArcs (arcs ++ more) := by
  simp only [withArcs, List.append_assoc]

/-! ## Setting the next node -/

theorem set_append_replicate {α : Type} (l : List α) (k : Nat) (old new : α) {i : Nat}
    (hi : i = l.length) :
    (l ++ List.replicate (k + 1) old).set i new = l ++ [new] ++ List.replicate k old := by
  subst hi
  simp [List.replicate_succ]

theorem fresh_eq_partly [Zero F] (nodes : Nat) :
    (fresh nodes : GraphBuilder F) = partly [] [] nodes := by
  simp [fresh, partly]

theorem partly_zero [Zero F] (coordinates : List (Coord F)) (externalIds : List ExternalId) :
    partly coordinates externalIds 0 = complete coordinates externalIds [] := by
  simp [partly, complete]

/-- `set_node` of the first unset node fails on its coordinate only. -/
theorem setNode_partly [IsFinite F] [Zero F] {coordinates : List (Coord F)}
    {externalIds : List ExternalId} (hids : externalIds.length = coordinates.length)
    (hlt : coordinates.length < maxSupportedNodeCount) (unset : Nat) (coordinate : Coord F)
    (externalId : ExternalId) :
    setNode (UInt32.ofNat coordinates.length) coordinate externalId
        (partly coordinates externalIds (unset + 1))
      = if isFinite coordinate.x = true ∧ isFinite coordinate.y = true then
          .ok () (partly (coordinates ++ [coordinate]) (externalIds ++ [externalId]) unset)
        else .error (coordinateError (UInt32.ofNat coordinates.length))
          (partly coordinates externalIds (unset + 1)) := by
  set b := partly coordinates externalIds (unset + 1) with hb
  have hid : (UInt32.ofNat coordinates.length).toNat = coordinates.length :=
    toNat_ofNat_node hlt
  have hlen : b.assigned.length = b.coordinates.length := by
    simp [hb, partly]
  have hnode : b.withNode (UInt32.ofNat coordinates.length) coordinate externalId
      = partly (coordinates ++ [coordinate]) (externalIds ++ [externalId]) unset := by
    simp only [hb, withNode, partly, hid]
    rw [set_append_replicate _ _ _ _ rfl, set_append_replicate _ _ _ _ hids.symm,
      set_append_replicate _ _ _ _ (by simp)]
    simp [List.replicate_succ']
  have hflag : b.assigned[coordinates.length]? = some false := by
    simp [hb, partly, List.replicate_succ]
  have hrange : ¬ coordinates.length ≥ b.coordinates.length := by
    simp [hb, partly]
  have hfailure : b.setNodeFailure (UInt32.ofNat coordinates.length) coordinate
      = if isFinite coordinate.x = true ∧ isFinite coordinate.y = true then none
        else some (coordinateError (UInt32.ofNat coordinates.length)) := by
    unfold setNodeFailure
    rw [hid, hflag, if_neg hrange]
    cases isFinite coordinate.x <;> cases isFinite coordinate.y <;> simp [hb, partly]
  rw [setNode_eq b hlen, hfailure, hnode]
  split_ifs <;> rfl

/-! ## Adding arcs -/

section

variable [IsFinite F] [Zero F] [LT F] [DecidableLT F]

/-- `add_arc` of a staged arc, by a caller that does not catch what it throws. -/
def stage (b : GraphBuilder F) (a : StagedArc F) : Outcome (GraphBuilder F) :=
  ((addArc a.source a.target a.weight).call b).map Prod.snd

theorem stage_eq_ok_iff {b b' : GraphBuilder F} (hc : b.consumed = false) (a : StagedArc F) :
    b.stage a = .ok b' ↔
      a.Admissible b.coordinates.length ∧ b.staged.length + 1 ≤ maxArcCount ∧
        b' = b.withArcs [a] := by
  unfold stage Method.call
  rw [addArc_eq]
  have hnone := b.addArcFailure_eq_none_iff a.source a.target a.weight
  cases hf : b.addArcFailure a.source a.target a.weight with
  | none =>
      obtain ⟨-, hadm, hcap⟩ := hnone.mp hf
      simp only [Except.map, Except.ok.injEq, withArc_eq_withArcs]
      exact ⟨fun h => ⟨hadm, hcap, h.symm⟩, fun h => h.2.2.symm⟩
  | some e =>
      simp only [Except.map, reduceCtorEq, false_iff]
      rintro ⟨hadm, hcap, -⟩
      rw [hnone.mpr ⟨hc, hadm, hcap⟩] at hf
      cases hf

/-- **Adding arcs one after the other** succeeds exactly when each is admissible and all of them
fit. -/
theorem foldlM_stage_eq_ok_iff (arcs : List (StagedArc F)) {b b' : GraphBuilder F}
    (hc : b.consumed = false) (hle : b.staged.length ≤ maxArcCount) :
    arcs.foldlM stage b = .ok b' ↔
      (∀ a ∈ arcs, a.Admissible b.coordinates.length) ∧
        b.staged.length + arcs.length ≤ maxArcCount ∧ b' = b.withArcs arcs := by
  induction arcs generalizing b with
  | nil =>
      simp only [List.foldlM_nil, pure_eq_ok, Except.ok.injEq, List.not_mem_nil, false_implies,
        implies_true, List.length_nil, withArcs_nil, true_and]
      exact ⟨fun h => ⟨hle, h.symm⟩, fun h => h.2.symm⟩
  | cons a arcs ih =>
      have hlen : (b.withArcs [a]).staged.length = b.staged.length + 1 := by
        simp [withArcs]
      rw [List.foldlM_cons, bind_eq_ok, List.forall_mem_cons, List.length_cons]
      constructor
      · rintro ⟨b₁, hstage, hrest⟩
        obtain ⟨hadm, hcap, rfl⟩ := (stage_eq_ok_iff hc a).mp hstage
        have hroom : (b.withArcs [a]).staged.length ≤ maxArcCount := hlen.trans_le hcap
        obtain ⟨hadms, hcaps, rfl⟩ := (ih (b := b.withArcs [a]) hc hroom).mp hrest
        refine ⟨⟨hadm, hadms⟩, by omega, withArcs_withArcs b [a] arcs⟩
      · rintro ⟨⟨hadm, hadms⟩, hcap, rfl⟩
        refine ⟨b.withArcs [a], (stage_eq_ok_iff hc a).mpr ⟨hadm, by omega, rfl⟩, ?_⟩
        refine (ih (b := b.withArcs [a]) hc (by omega)).mpr ⟨hadms, by omega, ?_⟩
        exact (withArcs_withArcs b [a] arcs).symm

end

/-! ## Building -/

section

variable [IsFinite F] [Zero F] [LT F]

theorem valid_complete {coordinates : List (Coord F)} {externalIds : List ExternalId}
    {staged : List (StagedArc F)} (hids : externalIds.length = coordinates.length)
    (hle : coordinates.length ≤ maxSupportedNodeCount)
    (hfinite : ∀ c ∈ coordinates, isFinite c.x = true ∧ isFinite c.y = true)
    (hcap : staged.length ≤ maxArcCount)
    (hadm : ∀ a ∈ staged, a.Admissible coordinates.length) :
    (complete coordinates externalIds staged).Valid :=
  ⟨hle, hids, by simp [complete], fun _ => by simp [complete],
    fun _ c _ hc => hfinite c (List.mem_of_getElem? hc), hcap, hadm⟩

theorem buildFailure_complete {coordinates : List (Coord F)} {externalIds : List ExternalId}
    {staged : List (StagedArc F)} (h : (complete coordinates externalIds staged).Valid) :
    (complete coordinates externalIds staged).buildFailure = none :=
  h.buildFailure_eq_none_iff.mpr ⟨rfl, rfl⟩

variable [Top F] [DecidableLT F] [LE F] [DecidableLE F] [Div F] [FiniteOrder F]
variable {distance : Coord F → Coord F → F} {std : Comparison.Sorter (stagedBefore (F := F))}

/-- **`build` of a complete builder** returns the graph over the sorted arcs. -/
theorem build_complete {coordinates : List (Coord F)} {externalIds : List ExternalId}
    {staged : List (StagedArc F)} (h : (complete coordinates externalIds staged).Valid) :
    build distance std (complete coordinates externalIds staged)
      = .ok (canonicalGraph distance coordinates externalIds (std.sort staged))
          (complete coordinates externalIds staged).spent := by
  rw [build_eq distance std h, buildFailure_complete h]
  rfl

end

end GraphBuilder

end RouteEngine
