import RouteEngine.GraphSpec

set_option autoImplicit false

/-! # What the member functions of the builder do

For each member function, one equation: it fails with the first check that the builder does
not pass and then leaves the builder alone, or it passes and makes one update. The invariant
`Valid` of the builder is what the unchecked subscripts rely on, and holds after every
sequence of calls. -/

namespace RouteEngine

variable {F : Type}

/-! ## Running a member function -/

section Run

variable {σ α β : Type}

@[simp] theorem Method.bind_apply (m : Method σ α) (f : α → Method σ β) (s : σ) :
    (m >>= f) s = match m s with
      | .ok a s' => f a s'
      | .error e s' => .error e s' := by
  show EStateM.bind m f s = _
  unfold EStateM.bind
  cases m s <;> rfl

@[simp] theorem Method.map_apply (f : α → β) (m : Method σ α) (s : σ) :
    (f <$> m) s = match m s with
      | .ok a s' => .ok (f a) s'
      | .error e s' => .error e s' := by
  show EStateM.map f m s = _
  unfold EStateM.map
  cases m s <;> rfl

@[simp] theorem Method.pure_apply (a : α) (s : σ) : (pure a : Method σ α) s = .ok a s := rfl

@[simp] theorem Method.throw_apply (e : Failure) (s : σ) :
    (throw e : Method σ α) s = .error e s := rfl

@[simp] theorem Method.get_apply (s : σ) : (get : Method σ σ) s = .ok s s := rfl

@[simp] theorem Method.modify_apply (f : σ → σ) (s : σ) :
    (modify f : Method σ Unit) s = .ok () (f s) := rfl

@[simp] theorem Method.lift_ok (a : α) (s : σ) : Method.lift (.ok a) s = .ok a s := rfl

@[simp] theorem Method.lift_error (e : Failure) (s : σ) :
    (Method.lift (.error e) : Method σ α) s = .error e s := rfl

/-- A call that throws what a check has found throws nothing else. -/
theorem Method.error_iff {check : Option Failure} {a : α} {s s' s'' : σ} {e : Failure} :
    (match check with
        | some e => EStateM.Result.error e s
        | none => .ok a s') = .error e s'' ↔ check = some e ∧ s = s'' := by
  cases check with
  | none => simp
  | some e' => simp

theorem Method.call_bind (m : Method σ α) (f : α → Method σ β) (s : σ) :
    (m >>= f).call s = m.call s >>= fun p => (f p.1).call p.2 := by
  unfold Method.call
  rw [Method.bind_apply]
  cases m s <;> rfl

@[simp] theorem Method.call_pure (a : α) (s : σ) : (pure a : Method σ α).call s = .ok (a, s) := rfl

theorem Method.call_lift (x : Outcome α) (s : σ) :
    (Method.lift x).call s = x.map (fun a => (a, s)) := by
  cases x <;> rfl

theorem Method.call_foldlM (f : β → α → Method σ β) (l : List α) (b : β) (s : σ) :
    (l.foldlM f b).call s = l.foldlM (fun p a => (f p.1 a).call p.2) (b, s) := by
  induction l generalizing b s with
  | nil => rfl
  | cons a l ih =>
      rw [List.foldlM_cons, List.foldlM_cons, Method.call_bind]
      exact congrArg _ (funext fun p => ih p.1 p.2)

theorem Method.call_forM (f : α → Method σ Unit) (l : List α) (s : σ) :
    (l.forM f).call s = l.foldlM (fun p a => (f a).call p.2) ((), s) := by
  induction l generalizing s with
  | nil => rfl
  | cons a l ih =>
      show (f a >>= fun _ => l.forM f).call s = _
      rw [List.foldlM_cons, Method.call_bind]
      exact congrArg _ (funext fun p => ih p.2)

end Run

namespace GraphBuilder

/-! ## set_node -/

/-- The first check of `set_node` that fails. -/
def setNodeFailure [IsFinite F] (b : GraphBuilder F) (id : NodeId) (coordinate : Coord F) :
    Option Failure :=
  if b.consumed then some consumedError
  else if id.toNat ≥ b.coordinates.length then some (nodeRangeError id b.coordinates.length)
  else if b.assigned[id.toNat]? = some true then some (alreadySetError id)
  else if !isFinite coordinate.x || !isFinite coordinate.y then some (coordinateError id)
  else none

/-- The update of `set_node`. -/
def withNode (b : GraphBuilder F) (id : NodeId) (coordinate : Coord F)
    (externalId : ExternalId) : GraphBuilder F :=
  { b with
    coordinates := b.coordinates.set id.toNat coordinate
    externalIds := b.externalIds.set id.toNat externalId
    assigned := b.assigned.set id.toNat true
    assignedCount := b.assignedCount + 1 }

theorem setNode_eq [IsFinite F] (b : GraphBuilder F)
    (hlen : b.assigned.length = b.coordinates.length) (id : NodeId) (coordinate : Coord F)
    (externalId : ExternalId) :
    setNode id coordinate externalId b
      = match b.setNodeFailure id coordinate with
        | some e => .error e b
        | none => .ok () (b.withNode id coordinate externalId) := by
  unfold setNode setNodeFailure requireNotConsumed
  by_cases hc : b.consumed = true
  · simp [hc]
  by_cases hid : id.toNat ≥ b.coordinates.length
  · simp [hc, hid]
  have hsome : b.assigned[id.toNat]? = some b.assigned[id.toNat] :=
    List.getElem?_eq_getElem (by omega)
  have hsub : subscript b.assigned id.toNat = .ok b.assigned[id.toNat] :=
    subscript_eq_ok.mpr hsome
  by_cases ha : b.assigned[id.toNat] = true
  · simp [hc, hid, hsub, hsome, ha]
  by_cases hf : (!isFinite coordinate.x || !isFinite coordinate.y) = true
  · simp [hc, hid, hsub, hsome, ha, hf]
  · simp [hc, hid, hsub, hsome, ha, hf, withNode]

theorem setNodeFailure_eq_none_iff [IsFinite F] (b : GraphBuilder F)
    (hlen : b.assigned.length = b.coordinates.length) (id : NodeId) (coordinate : Coord F) :
    b.setNodeFailure id coordinate = none ↔
      b.consumed = false ∧ b.assigned[id.toNat]? = some false ∧
        isFinite coordinate.x = true ∧ isFinite coordinate.y = true := by
  unfold setNodeFailure
  by_cases hid : id.toNat ≥ b.coordinates.length
  · have hnone : b.assigned[id.toNat]? = none := List.getElem?_eq_none (by omega)
    by_cases hc : b.consumed = true <;> simp [hc, hid, hnone]
  · have hsome : b.assigned[id.toNat]? = some b.assigned[id.toNat] :=
      List.getElem?_eq_getElem (by omega)
    rw [hsome]
    cases b.consumed <;> cases b.assigned[id.toNat] <;> cases isFinite coordinate.x <;>
      cases isFinite coordinate.y <;> simp [hid]

/-! ## add_arc -/

section AddArc

variable [IsFinite F] [Zero F] [LT F] [DecidableLT F]

/-- The first check of `add_arc` that fails. -/
def addArcFailure (b : GraphBuilder F) (source target : NodeId) (weight : F) :
    Option Failure :=
  if b.consumed then some consumedError
  else if source.toNat ≥ b.coordinates.length then
    some (arcRangeError "source" source b.coordinates.length)
  else if target.toNat ≥ b.coordinates.length then
    some (arcRangeError "target" target b.coordinates.length)
  else if !isFinite weight then some (weightError "non-finite" source target)
  else if weight < 0 then some (weightError "negative" source target)
  else
    match validateArcCapacity (b.staged.length + 1) with
    | .error e => some e
    | .ok _ => none

/-- The update of `add_arc`. -/
def withArc (b : GraphBuilder F) (source target : NodeId) (weight : F) : GraphBuilder F :=
  { b with staged := b.staged ++ [⟨source, target, weight⟩] }

theorem addArc_eq (b : GraphBuilder F) (source target : NodeId) (weight : F) :
    addArc source target weight b
      = match b.addArcFailure source target weight with
        | some e => .error e b
        | none => .ok () (b.withArc source target weight) := by
  unfold addArc addArcFailure requireNotConsumed
  by_cases hc : b.consumed = true
  · simp [hc]
  by_cases hs : source.toNat ≥ b.coordinates.length
  · simp [hc, hs]
  by_cases ht : target.toNat ≥ b.coordinates.length
  · simp [hc, hs, ht]
  by_cases hf : isFinite weight = true
  · by_cases hn : weight < 0
    · simp [hc, hs, ht, hf, hn]
    · cases hcap : validateArcCapacity (b.staged.length + 1) with
      | ok u => simp [hc, hs, ht, hf, hn, hcap, withArc]
      | error e => simp [hc, hs, ht, hf, hn, hcap]
  · simp [hc, hs, ht, hf]

end AddArc

/-! ## build -/

/-- The first check of `build` that fails. -/
def buildFailure (b : GraphBuilder F) : Option Failure :=
  if b.consumed then some consumedError
  else if b.assignedCount ≠ b.coordinates.length then
    some (unsetError (firstUnset b.assigned) (b.coordinates.length - b.assignedCount)
      b.coordinates.length)
  else
    match validateArcCapacity b.staged.length with
    | .error e => some e
    | .ok _ => none

/-- The builder that a successful `build` leaves. -/
def spent (b : GraphBuilder F) : GraphBuilder F :=
  { b with coordinates := [], externalIds := [], assigned := [], staged := [], consumed := true }

end GraphBuilder

/-- The arc is one that `add_arc` admits among `nodes` nodes. -/
structure StagedArc.Admissible [IsFinite F] [Zero F] [LT F] (a : StagedArc F) (nodes : Nat) :
    Prop where
  source_lt : a.source.toNat < nodes
  target_lt : a.target.toNat < nodes
  finite : isFinite a.weight = true
  nonneg : ¬ a.weight < 0

namespace GraphBuilder

section

variable [IsFinite F] [Zero F] [LT F]

/-- The state that the unchecked accesses of the builder rely on. -/
structure Valid (b : GraphBuilder F) : Prop where
  nodes_le : b.coordinates.length ≤ maxSupportedNodeCount
  externalIds_length : b.externalIds.length = b.coordinates.length
  assigned_length : b.assigned.length = b.coordinates.length
  assignedCount_eq : b.consumed = false → b.assignedCount = b.assigned.count true
  coordinates_finite : ∀ (i : Nat) (c : Coord F), b.assigned[i]? = some true →
    b.coordinates[i]? = some c → isFinite c.x = true ∧ isFinite c.y = true
  staged_le : b.staged.length ≤ maxArcCount
  admissible : ∀ a ∈ b.staged, a.Admissible b.coordinates.length

/-! ### The member functions keep the builder valid -/

theorem valid_new {nodes : Nat} {b : GraphBuilder F} (h : new nodes = .ok b) : b.Valid := by
  unfold new validateNodeCapacity at h
  by_cases hcap : nodes > maxSupportedNodeCount
  · simp [hcap] at h
  · simp only [hcap, if_false, ok_bind, pure_eq_ok, Except.ok.injEq] at h
    subst h
    refine ⟨by simpa [fresh] using hcap, by simp [fresh], by simp [fresh], ?_, ?_, ?_, ?_⟩
    · intro _
      simp [fresh, List.count_replicate]
    · intro i c hi
      simp [fresh, List.getElem?_replicate] at hi
    · simp [fresh]
    · simp [fresh]

theorem Valid.withNode {b : GraphBuilder F} (h : b.Valid) {id : NodeId} {coordinate : Coord F}
    (externalId : ExternalId) (hnone : b.setNodeFailure id coordinate = none) :
    (b.withNode id coordinate externalId).Valid := by
  obtain ⟨hc, hunset, hx, hy⟩ :=
    (b.setNodeFailure_eq_none_iff h.assigned_length id coordinate).mp hnone
  have hid : id.toNat < b.assigned.length := (List.getElem?_eq_some_iff.mp hunset).1
  refine ⟨?_, ?_, ?_, ?_, ?_, h.staged_le, ?_⟩
  · simpa [GraphBuilder.withNode] using h.nodes_le
  · simpa [GraphBuilder.withNode] using h.externalIds_length
  · simpa [GraphBuilder.withNode] using h.assigned_length
  · intro _
    have hcount : (b.assigned.set id.toNat true).count true = b.assigned.count true + 1 := by
      have hget : b.assigned[id.toNat] = false := (List.getElem?_eq_some_iff.mp hunset).2
      rw [List.count_set hid, hget]
      simp
    simp only [GraphBuilder.withNode, hcount, h.assignedCount_eq hc]
  · intro i c hi hci
    simp only [GraphBuilder.withNode, List.getElem?_set] at hi hci
    by_cases heq : id.toNat = i
    · rw [if_pos heq] at hci
      split at hci
      · obtain rfl := Option.some.inj hci
        exact ⟨hx, hy⟩
      · exact absurd hci (by simp)
    · rw [if_neg heq] at hi hci
      exact h.coordinates_finite i c hi hci
  · intro a ha
    simpa [GraphBuilder.withNode] using h.admissible a ha

theorem addArcFailure_eq_none_iff [DecidableLT F] (b : GraphBuilder F) (source target : NodeId)
    (weight : F) :
    b.addArcFailure source target weight = none ↔
      b.consumed = false ∧
        StagedArc.Admissible ⟨source, target, weight⟩ b.coordinates.length ∧
        b.staged.length + 1 ≤ maxArcCount := by
  unfold addArcFailure validateArcCapacity
  constructor
  · intro h
    split_ifs at h with h1 h2 h3 h4 h5 h6
    exact ⟨by simpa using h1, ⟨not_le.mp h2, not_le.mp h3, by simpa using h4, h5⟩, not_lt.mp h6⟩
  · rintro ⟨hc, ⟨hs, ht, hf, hn⟩, hcap⟩
    simp only at hs ht hf hn
    simp [hc, hf, hn, Nat.not_le.mpr hs, Nat.not_le.mpr ht, Nat.not_lt.mpr hcap]

theorem Valid.withArc [DecidableLT F] {b : GraphBuilder F} (h : b.Valid)
    {source target : NodeId} {weight : F}
    (hnone : b.addArcFailure source target weight = none) :
    (b.withArc source target weight).Valid := by
  obtain ⟨_, hadm, hcap⟩ := (b.addArcFailure_eq_none_iff source target weight).mp hnone
  refine ⟨h.nodes_le, h.externalIds_length, h.assigned_length, h.assignedCount_eq,
    h.coordinates_finite, ?_, ?_⟩
  · simpa [GraphBuilder.withArc] using hcap
  · intro a ha
    simp only [GraphBuilder.withArc, List.mem_append, List.mem_singleton] at ha
    rcases ha with ha | rfl
    · exact h.admissible a ha
    · exact hadm

theorem valid_spent (b : GraphBuilder F) : b.spent.Valid := by
  constructor <;> simp [spent]

theorem sort_admissible [DecidableLT F] (std : Comparison.Sorter (stagedBefore (F := F)))
    {b : GraphBuilder F} (h : b.Valid) :
    ∀ a ∈ std.sort b.staged, a.Admissible b.coordinates.length :=
  fun a ha => h.admissible a ((std.perm b.staged).mem_iff.mp ha)

/-- The scan of `build` finds the first node without its flag. -/
theorem firstUnset_spec {assigned : List Bool} (h : false ∈ assigned) :
    assigned[firstUnset assigned]? = some false ∧
      ∀ i, i < firstUnset assigned → assigned[i]? = some true := by
  have hlt : firstUnset assigned < assigned.length :=
    List.findIdx_lt_length_of_exists ⟨false, h, rfl⟩
  constructor
  · have hflag : (!assigned[firstUnset assigned]) = true := List.findIdx_getElem (w := hlt)
    rw [List.getElem?_eq_getElem hlt]
    simpa using hflag
  · intro i hi
    have hset := List.not_of_lt_findIdx hi
    rw [List.getElem?_eq_getElem (by omega)]
    simpa using hset

/-- The arc capacity is never the reason for `build` to fail. -/
theorem Valid.buildFailure_eq_none_iff {b : GraphBuilder F} (h : b.Valid) :
    b.buildFailure = none ↔ b.consumed = false ∧ b.assignedCount = b.coordinates.length := by
  have hcap : validateArcCapacity b.staged.length = .ok () := by
    unfold validateArcCapacity
    rw [if_neg (not_lt.mpr h.staged_le)]
  unfold buildFailure
  rw [hcap]
  by_cases hc : b.consumed = true <;> by_cases hcount : b.assignedCount = b.coordinates.length <;>
    simp [hc, hcount]

/-- A `build` that fails before the builder is consumed names the smallest unset node. -/
theorem Valid.unset_of_buildFailure {b : GraphBuilder F} (h : b.Valid) (hc : b.consumed = false)
    {e : Failure} (hf : b.buildFailure = some e) :
    firstUnset b.assigned < b.coordinates.length ∧
      b.assigned[firstUnset b.assigned]? = some false ∧
      (∀ i, i < firstUnset b.assigned → b.assigned[i]? = some true) ∧
      e = unsetError (firstUnset b.assigned) (b.coordinates.length - b.assignedCount)
        b.coordinates.length := by
  have hcount : b.assignedCount ≠ b.coordinates.length := by
    intro hcount
    rw [h.buildFailure_eq_none_iff.mpr ⟨hc, hcount⟩] at hf
    exact absurd hf (by simp)
  -- otherwise the count of set flags would be the number of nodes
  have hmem : false ∈ b.assigned := by
    by_contra hmem
    have hall : b.assigned.count true = b.assigned.length :=
      List.count_eq_length.mpr (fun flag hflag => by
        cases flag with
        | true => rfl
        | false => exact absurd hflag hmem)
    rw [h.assignedCount_eq hc, hall, h.assigned_length] at hcount
    exact hcount rfl
  obtain ⟨hunset, hset⟩ := firstUnset_spec hmem
  have hlt : firstUnset b.assigned < b.assigned.length := (List.getElem?_eq_some_iff.mp hunset).1
  refine ⟨by rw [← h.assigned_length]; exact hlt, hunset, hset, ?_⟩
  unfold buildFailure at hf
  simp only [hc, Bool.false_eq_true, if_false, hcount, ne_eq, not_false_eq_true, if_true,
    Option.some.injEq] at hf
  exact hf.symm

/-- A builder that passes the checks of `build` has every node set. -/
theorem Valid.all_assigned {b : GraphBuilder F} (h : b.Valid) (hnone : b.buildFailure = none) :
    b.consumed = false ∧ ∀ i, i < b.coordinates.length → b.assigned[i]? = some true := by
  obtain ⟨hc, hcount⟩ := h.buildFailure_eq_none_iff.mp hnone
  refine ⟨hc, fun i hi => ?_⟩
  have hall : b.assigned.count true = b.assigned.length := by
    rw [← h.assignedCount_eq hc, hcount, h.assigned_length]
  rw [List.count_eq_length] at hall
  have hlt : i < b.assigned.length := by
    rw [h.assigned_length]
    exact hi
  rw [List.getElem?_eq_getElem hlt, ← hall _ (List.getElem_mem hlt)]

end

/-! ### What `build` returns -/

/-- Arcs that compare equal have the same ends, and weights that compare equal. -/
theorem stagedBefore_eq_false_iff [LT F] [DecidableLT F] {a b : StagedArc F} :
    (stagedBefore a b = false ∧ stagedBefore b a = false) ↔
      a.source = b.source ∧ a.target = b.target ∧ ¬ a.weight < b.weight ∧
        ¬ b.weight < a.weight := by
  have htotal : ∀ u v : NodeId, u ≠ v → u < v ∨ v < u := by
    intro u v h
    rw [UInt32.lt_iff_toNat_lt, UInt32.lt_iff_toNat_lt]
    have := mt UInt32.toNat_inj.mp h
    omega
  unfold stagedBefore
  by_cases hs : a.source = b.source
  · by_cases ht : a.target = b.target
    · simp [hs, ht]
    · have htotal := htotal _ _ ht
      simp only [hs, ht, Ne.symm ht, ne_eq, not_true_eq_false, not_false_eq_true, if_false,
        if_true, decide_eq_false_iff_not, false_and, and_false, iff_false, not_and, not_not]
      intro hlt
      exact htotal.resolve_left hlt
  · have htotal := htotal _ _ hs
    simp only [hs, Ne.symm hs, ne_eq, not_false_eq_true, if_true, decide_eq_false_iff_not,
      false_and, iff_false, not_and, not_not]
    intro hlt
    exact htotal.resolve_left hlt

/-- The canonical order is a strict weak order on arcs of finite weight. -/
theorem weak_stagedBefore [IsFinite F] [LT F] [DecidableLT F] [FiniteOrder F] :
    Comparison.StrictWeakOn (stagedBefore (F := F)) (fun a => isFinite a.weight = true) := by
  have hweight := (FiniteOrder.weak (F := F)).comap StagedArc.weight
  have hlex := (hweight.lex (fun a => a.target.toNat)).lex (fun a => a.source.toNat)
  have heq : stagedBefore (F := F) = fun a b =>
      if a.source.toNat ≠ b.source.toNat then decide (a.source.toNat < b.source.toNat)
      else if a.target.toNat ≠ b.target.toNat then decide (a.target.toNat < b.target.toNat)
      else decide (a.weight < b.weight) := by
    funext a b
    simp only [stagedBefore, ne_eq, UInt32.toNat_inj, UInt32.lt_iff_toNat_lt]
  rw [heq]
  exact hlex

end GraphBuilder

theorem GraphBuilder.Valid.weak [IsFinite F] [Zero F] [LT F] [DecidableLT F] [FiniteOrder F]
    {b : GraphBuilder F} (h : b.Valid) :
    Comparison.StrictWeakOn (GraphBuilder.stagedBefore (F := F)) (· ∈ b.staged) :=
  GraphBuilder.weak_stagedBefore.mono (fun a ha => (h.admissible a ha).finite)

section

variable [IsFinite F] [Zero F] [Top F] [LT F] [DecidableLT F] [LE F] [DecidableLE F] [Div F]
  [FiniteOrder F]

/-- The graph over sorted arcs. -/
def canonicalGraph (distance : Coord F → Coord F → F) (coordinates : List (Coord F))
    (externalIds : List ExternalId) (staged : List (StagedArc F)) : Graph F where
  coordinates := coordinates
  externalIds := externalIds
  offsets := canonicalOffsets coordinates.length staged
  arcs := staged.map StagedArc.toArc
  metric := canonicalReport distance coordinates staged

namespace GraphBuilder

/-- **`build`**: it fails with the first check that does not pass and leaves the builder
alone, or it returns the graph over the sorted arcs and leaves the builder spent. -/
theorem build_eq (distance : Coord F → Coord F → F)
    (std : Comparison.Sorter (stagedBefore (F := F))) {b : GraphBuilder F} (h : b.Valid) :
    build distance std b
      = match b.buildFailure with
        | some e => .error e b
        | none => .ok (canonicalGraph distance b.coordinates b.externalIds (std.sort b.staged))
            b.spent := by
  unfold build buildFailure requireNotConsumed
  by_cases hc : b.consumed = true
  · simp [hc]
  by_cases hcount : b.assignedCount = b.coordinates.length
  swap
  · simp [hc, hcount]
  cases hcap : validateArcCapacity b.staged.length with
  | error e => simp [hc, hcount, hcap]
  | ok u =>
      -- the sorted arcs are admitted, so neither the offsets nor the metric scan can fail
      have hsorted : SortedBySource (std.sort b.staged) :=
        sortedBySource_of_sorted (std.sorted b.staged h.weak)
      have hadm := sort_admissible std h
      have hle : (std.sort b.staged).length ≤ maxArcCount := by
        rw [(std.perm b.staged).length_eq]
        exact h.staged_le
      have hoffsets : rowOffsets b.coordinates.length (std.sort b.staged)
          = .ok (canonicalOffsets b.coordinates.length (std.sort b.staged)) :=
        rowOffsets_eq _ (fun a ha => (hadm a ha).source_lt)
      have hmetric := computeMetricReport_eq distance b.coordinates hsorted hle h.nodes_le
        (fun a ha => (hadm a ha).source_lt) (fun a ha => (hadm a ha).target_lt)
      simp [hc, hcount, hcap, hoffsets, Graph.make, hmetric, canonicalGraph, spent]

end GraphBuilder

end

end RouteEngine
