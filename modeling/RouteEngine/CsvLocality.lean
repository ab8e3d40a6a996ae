import RouteEngine.LoaderCalls

set_option autoImplicit false

/-! # What an error of the loader depends on

The loader reads line by line and throws at the first line that it refuses. So an error that names
a line depends on the lines up to that one only (`loadGraph_error_local`): whatever the stream
goes on to deliver, and whether it ends or breaks off, the error is the same, to the letter. -/

namespace RouteEngine

variable {F σ : Type}

/-! ## Lines and their numbers -/

theorem contents_append (lines lines' : List Text) (before : Nat) :
    contents (lines ++ lines') before
      = contents lines before ++ contents lines' (before + lines.length) := by
  induction lines generalizing before with
  | nil => rfl
  | cons line lines ih =>
      have hnext : before + 1 + lines.length = before + (line :: lines).length := by
        rw [List.length_cons]
        omega
      rw [List.cons_append, contents, contents, ih, hnext]
      split_ifs
      · rfl
      · rfl

/-- The lines that carry data keep their numbers. -/
theorem number_of_mem_contents {lines : List Text} {before : Nat} {line : Nat × Text}
    (h : line ∈ contents lines before) :
    before < line.1 ∧ line.1 ≤ before + lines.length := by
  induction lines generalizing before with
  | nil => exact absurd h List.not_mem_nil
  | cons first lines ih =>
      rw [contents] at h
      rw [List.length_cons]
      split_ifs at h
      · obtain ⟨hlt, hle⟩ := ih h
        omega
      · rcases List.mem_cons.mp h with rfl | h
        · exact ⟨Nat.lt_succ_self _, by show before + 1 ≤ _; omega⟩
        · obtain ⟨hlt, hle⟩ := ih h
          omega

/-! ## Rounds that fail at their own line -/

/-- What a body throws about a line of a file is about the line that the reader is at. -/
def ErrorsAtLine (body : Reader → Fields → σ → Outcome σ) : Prop :=
  ∀ reader fields state file number message,
    body reader fields state = .error (.graphLoad file number message) →
      number = reader.lineNumber

theorem ErrorsAtLine.rowStep {body : Reader → Fields → σ → Outcome σ} (h : ErrorsAtLine body)
    {name file message : String} {state : σ} {line : Nat × Text} {number : Nat}
    (herror : rowStep name body state line = .error (.graphLoad file number message)) :
    number = line.1 := by
  unfold RouteEngine.rowStep fieldCountError at herror
  cases hfields : splitFields line.2 with
  | error found =>
      rw [hfields] at herror
      simp only [Except.error.injEq, Failure.graphLoad.injEq] at herror
      exact herror.2.1.symm
  | ok fields =>
      simp only [hfields] at herror
      split_ifs at herror
      · simp only [Except.error.injEq, Failure.graphLoad.injEq] at herror
        exact herror.2.1.symm
      · exact h _ _ _ _ _ _ herror

/-- **Reading rows**: an error about one of the first lines does not depend on the others. -/
theorem readRows_error_local {body : Reader → Fields → σ → Outcome σ}
    (hbody : ∀ reader, body reader = body (Reader.atLine reader.name reader.lineNumber))
    (hline : ErrorsAtLine body) {head rest rest' : List Text} {ending ending' : Ending}
    {name first second third file message : String} {state : σ} {number : Nat}
    (hpos : 1 ≤ number) (hle : number ≤ head.length)
    (h : (do
      let reader ← (Reader.new ⟨head ++ rest, ending⟩ name).expectHeader first second third
      eachRow body reader.rowFuel reader state) = .error (.graphLoad file number message)) :
    (do
      let reader ← (Reader.new ⟨head ++ rest', ending'⟩ name).expectHeader first second third
      eachRow body reader.rowFuel reader state) = .error (.graphLoad file number message) := by
  -- a line of the rest has a greater number
  have hlater : ∀ {lines : List Text} {line : Nat × Text},
      line ∈ contents lines (0 + head.length) → number ≠ line.1 := by
    intro lines line hmem
    obtain ⟨hlt, -⟩ := number_of_mem_contents hmem
    omega
  rw [readRows_eq hbody] at h ⊢
  simp only [contents_append] at h ⊢
  cases hhead : contents head 0 with
  | nil =>
      exfalso
      rw [hhead, List.nil_append] at h
      cases hrest : contents rest (0 + head.length) with
      | nil =>
          simp only [hrest, Except.error.injEq, Failure.graphLoad.injEq] at h
          omega
      | cons header rows =>
          have hmem : ∀ line ∈ header :: rows, number ≠ line.1 := fun line hline =>
            hlater (hrest ▸ hline)
          simp only [hrest] at h
          split_ifs at h
          · obtain ⟨s, line, hin, herror⟩ := exists_step_of_foldlM_error h
            exact hmem line (List.mem_cons_of_mem _ hin) (hline.rowStep herror)
          · simp only [Except.error.injEq, Failure.graphLoad.injEq] at h
            exact hmem header List.mem_cons_self h.2.1.symm
  | cons header rows =>
      simp only [hhead, List.cons_append] at h ⊢
      split_ifs at h ⊢
      · have hfirst := foldlM_error_of_append h fun s line hin herror =>
          hlater hin (hline.rowStep herror)
        exact foldlM_append_of_error hfirst _
      · exact h

/-! ## The two loops -/

theorem number_of_fail {α : Type} {reader : Reader} {text file message : String} {number : Nat}
    (h : (reader.fail text : Outcome α) = .error (.graphLoad file number message)) :
    number = reader.lineNumber := by
  simp only [Reader.fail, Reader.failAt, Except.error.injEq, Failure.graphLoad.injEq] at h
  exact h.2.1.symm

theorem errorsAtLine_readNode [IsFinite F] (fromChars : Text → Option (F × Text)) :
    ErrorsAtLine (readNode fromChars) := by
  rintro reader fields ⟨records, index⟩ file number message h
  unfold readNode at h
  simp only at h
  split at h
  · exact number_of_fail h
  split at h
  · exact number_of_fail h
  split at h
  · exact number_of_fail h
  split_ifs at h
  · exact number_of_fail h
  split at h
  · -- the record of the first definition
    rename_i earlier _
    unfold subscript at h
    cases hrecord : records[earlier.toNat]? with
    | none =>
        rw [hrecord] at h
        cases h
    | some record =>
        rw [hrecord] at h
        exact number_of_fail h
  · cases h

theorem errorsAtLine_readEdge [IsFinite F] [Zero F] [LT F] [DecidableLT F]
    (fromChars : Text → Option (F × Text)) (index : NodeIndex) :
    ErrorsAtLine (readEdge fromChars index) := by
  intro reader fields builder file number message h
  unfold readEdge at h
  split at h
  · exact number_of_fail h
  split at h
  · exact number_of_fail h
  split at h
  · exact number_of_fail h
  split_ifs at h
  · exact number_of_fail h
  split at h
  · exact number_of_fail h
  split at h
  · exact number_of_fail h
  · -- what `add_arc` throws is reported at the line of the reader
    rename_i weight _ _ _ source _ _ target _
    unfold Method.rethrowing at h
    rw [GraphBuilder.addArc_eq] at h
    cases hfail : builder.addArcFailure source target weight with
    | none =>
        rw [hfail] at h
        cases h
    | some e =>
        obtain ⟨text, rfl⟩ := (BuilderCall.addArc source target weight).failure_validation hfail
        rw [hfail] at h
        simp only [error_bind, Except.error.injEq, Failure.graphLoad.injEq] at h
        exact h.2.1.symm

/-! ## The loader -/

section Load

variable [IsFinite F] [Zero F] [Top F] [LT F] [DecidableLT F] [LE F] [DecidableLE F] [Div F]
  [FiniteOrder F]
variable {fromChars : Text → Option (F × Text)} {distance : Coord F → Coord F → F}
  {std : Comparison.Sorter (GraphBuilder.stagedBefore (F := F))} {nodes edges : InputStream}
  {nodesName edgesName : String}

/-- What the loader throws was thrown by one of the two loops. -/
theorem loadGraph_eq_error_iff {e : Failure} :
    loadGraph fromChars distance std nodes nodesName edges edgesName = .error e ↔
      readNodes fromChars nodes nodesName = .error e ∨
        ∃ records, readNodes fromChars nodes nodesName = .ok (nodeState records) ∧
          readEdges fromChars edges edgesName (nodeState records).2 (filled records 0)
            = .error e := by
  rcases readNodes_outcome fromChars nodes nodesName with
    ⟨records, hread, hrecords⟩ | ⟨number, message, -, herror⟩
  · have hset := hrecords.foldlM_before nodesName (List.append_nil records).symm
    have hload : loadGraph fromChars distance std nodes nodesName edges edgesName
        = readEdges fromChars edges edgesName (nodeState records).2 (filled records 0) >>=
          fun b => (GraphBuilder.build distance std).rethrowing edgesName 0 b >>=
            fun result => .ok result.1 := by
      unfold loadGraph
      rw [hread, ok_bind]
      simp only [nodeState, hrecords.new_eq, hset, ok_bind]
      rfl
    rw [hload]
    constructor
    · intro h
      refine .inr ⟨records, hread, ?_⟩
      cases hedges : readEdges fromChars edges edgesName (nodeState records).2
          (filled records 0) with
      | ok b =>
          -- the builder that the loop leaves is built
          obtain ⟨g, b', hbuild⟩ :=
            (Loading.of_readEdges hrecords hedges).build_eq hrecords distance std
          rw [hedges, ok_bind, Method.rethrowing, hbuild] at h
          cases h
      | error e' =>
          rw [hedges, error_bind] at h
          rw [Except.error.inj h]
    · rintro (h | ⟨records', hread', hedges⟩)
      · rw [hread] at h
        cases h
      · obtain rfl : records = records' :=
          congrArg Prod.fst (Except.ok.inj (hread.symm.trans hread'))
        rw [hedges, error_bind]
  · rw [loadGraph, herror, error_bind]
    simp

omit [Top F] [LE F] [DecidableLE F] [Div F] [FiniteOrder F] in
/-- A loop reports its own file. -/
theorem file_of_readEdges_error {records : List (NodeRecord F)}
    (hread : readNodes fromChars nodes nodesName = .ok (nodeState records))
    {file message : String} {number : Nat}
    (h : readEdges fromChars edges edgesName (nodeState records).2 (filled records 0)
      = .error (.graphLoad file number message)) : file = edgesName := by
  rcases readNodes_outcome fromChars nodes nodesName with
    ⟨records', hread', hrecords⟩ | ⟨_, _, -, herror⟩
  · obtain rfl : records = records' :=
      congrArg Prod.fst (Except.ok.inj (hread.symm.trans hread'))
    obtain ⟨_, _, heq, -⟩ := readEdges_error hrecords h
    exact (Failure.graphLoad.inj heq).1
  · rw [hread] at herror
    cases herror

end Load

/-- **Errors are local.** When the loader throws an error about a line of the node file, the lines
after that one do not matter, nor does the edge file; and for an error about a line of the edge
file, the lines after that one do not. It throws the same error whatever they are, and however
the stream ends. -/
theorem loadGraph_error_local [IsFinite F] [Zero F] [Top F] [LT F] [DecidableLT F] [LE F]
    [DecidableLE F] [Div F] [FiniteOrder F] (fromChars : Text → Option (F × Text))
    (distance : Coord F → Coord F → F)
    (std : Comparison.Sorter (GraphBuilder.stagedBefore (F := F))) (nodesName edgesName : String)
    (hnames : nodesName ≠ edgesName) (head rest : List Text) (ending : Ending)
    (other : InputStream) (line : Nat) (hpos : 1 ≤ line) (hle : line ≤ head.length)
    (message : String) :
    (loadGraph fromChars distance std ⟨head ++ rest, ending⟩ nodesName other edgesName
        = .error (.graphLoad nodesName line message) →
      ∀ rest' ending' other', loadGraph fromChars distance std ⟨head ++ rest', ending'⟩ nodesName
        other' edgesName = .error (.graphLoad nodesName line message)) ∧
    (loadGraph fromChars distance std other nodesName ⟨head ++ rest, ending⟩ edgesName
        = .error (.graphLoad edgesName line message) →
      ∀ rest' ending', loadGraph fromChars distance std other nodesName ⟨head ++ rest', ending'⟩
        edgesName = .error (.graphLoad edgesName line message)) := by
  constructor
  · intro h rest' ending' other'
    rcases loadGraph_eq_error_iff.mp h with h | ⟨records, hread, hedges⟩
    · exact loadGraph_eq_error_iff.mpr (.inl (readRows_error_local (fun _ => rfl)
        (errorsAtLine_readNode fromChars) hpos hle h))
    · exact absurd (file_of_readEdges_error hread hedges) hnames
  · intro h rest' ending'
    rcases loadGraph_eq_error_iff.mp h with h | ⟨records, hread, hedges⟩
    · exact loadGraph_eq_error_iff.mpr (.inl h)
    · exact loadGraph_eq_error_iff.mpr (.inr ⟨records, hread, readRows_error_local (fun _ => rfl)
        (errorsAtLine_readEdge fromChars _) hpos hle hedges⟩)

/-- A node file that repeats an identifier in its third line and then breaks off. -/
theorem loadGraph_error_local_repeated :
    ∃ message, ∀ rest' ending' other', loadGraph Binary64.ofText lineDistance
        (Comparison.insertionSort _)
        ⟨["id,x,y".toList, "7,0,0".toList, "7,1,0".toList] ++ rest', ending'⟩ "nodes.csv" other'
        "edges.csv" = .error (.graphLoad "nodes.csv" 3 message) := by
  have hrun : loadGraph Binary64.ofText lineDistance (Comparison.insertionSort _)
      ⟨["id,x,y".toList, "7,0,0".toList, "7,1,0".toList] ++ [], .readError⟩ "nodes.csv"
      ⟨[], .endOfFile⟩ "edges.csv" = .error (.graphLoad "nodes.csv" 3
        "duplicate node id 7, already defined on line 2") := by
    decide +kernel
  exact ⟨_, (loadGraph_error_local Binary64.ofText lineDistance (Comparison.insertionSort _)
    "nodes.csv" "edges.csv" (by decide) ["id,x,y".toList, "7,0,0".toList, "7,1,0".toList] []
    .readError ⟨[], .endOfFile⟩ 3 (by decide) (by decide) _).1 hrun⟩

end RouteEngine
