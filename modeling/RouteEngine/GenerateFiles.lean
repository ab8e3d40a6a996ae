import RouteEngine.GenerateCommand
import RouteEngine.BuilderSpec

set_option autoImplicit false

/-! # What generate does to the files

The two streams hand over portions of their texts in any order. While they lead to different
files, each file holds what was handed over (`Writing.Delivers`), and a stream that was flushed
without failure has written its text. Nothing but the two files is touched. -/

namespace RouteEngine

variable {ι : Type} [DecidableEq ι]

/-! ## Two files -/

namespace OutputFile

variable {f : OutputFile → ι}

omit [DecidableEq ι] in
theorem injective_of_ne (h : f .nodes ≠ f .edges) : Function.Injective f := by
  intro output output' heq
  cases output <;> cases output'
  · rfl
  · exact absurd heq h
  · exact absurd heq.symm h
  · rfl

omit [DecidableEq ι] in
theorem eq_of_eq (h : f .nodes = f .edges) (output output' : OutputFile) :
    f output = f output' := by
  cases output <;> cases output'
  · rfl
  · exact h
  · exact h.symm
  · rfl

omit [DecidableEq ι] in
theorem forall_of {p : OutputFile → Prop} (hnodes : p .nodes) (hedges : p .edges)
    (output : OutputFile) : p output := by
  cases output with
  | nodes => exact hnodes
  | edges => exact hedges

end OutputFile

/-! ## Steps of the streams -/

namespace Writing

variable {s : Writing ι} {write : Write} {system : FileSystem ι} {output : OutputFile}

theorem handOver_of_failed (h : (s.streams write.output).failed = true) : s.handOver write = s :=
  if_pos h

theorem handOver_of_good (h : (s.streams write.output).failed = false) :
    s.handOver write
      = ⟨(s.files.drain (s.streams write.output).handle write.count).1,
          Function.update s.streams write.output
            ⟨(s.files.drain (s.streams write.output).handle write.count).2, write.fails⟩⟩ := by
  rw [handOver, h]
  rfl

/-- A write that fails leaves a stream that has failed. -/
theorem failed_handOver_self (h : (s.streams write.output).failed = false) :
    ((s.handOver write).streams write.output).failed = write.fails := by
  rw [handOver_of_good h]
  show (Function.update s.streams write.output _ write.output).failed = _
  rw [Function.update_self]

theorem streams_handOver_of_ne (h : output ≠ write.output) :
    (s.handOver write).streams output = s.streams output := by
  cases hfailed : (s.streams write.output).failed with
  | true => rw [handOver_of_failed hfailed]
  | false =>
      rw [handOver_of_good hfailed]
      exact Function.update_of_ne h ..

/-- The stream that hands over keeps its file and its text. -/
theorem handle_handOver (s : Writing ι) (write : Write) (output : OutputFile) :
    ((s.handOver write).streams output).handle.file = (s.streams output).handle.file ∧
      ((s.handOver write).streams output).handle.text = (s.streams output).handle.text := by
  by_cases hne : output = write.output
  · cases hfailed : (s.streams write.output).failed with
    | true =>
        rw [handOver_of_failed hfailed]
        exact ⟨rfl, rfl⟩
    | false =>
        rw [handOver_of_good hfailed, hne]
        simp
  · rw [streams_handOver_of_ne hne]
    exact ⟨rfl, rfl⟩

/-- A stream fails in a write of its own that fails. -/
theorem failed_handOver (h : write.output = output → write.fails = false) :
    ((s.handOver write).streams output).failed = (s.streams output).failed := by
  by_cases hne : output = write.output
  · cases hfailed : (s.streams write.output).failed with
    | true => rw [handOver_of_failed hfailed]
    | false => rw [hne, failed_handOver_self hfailed, h hne.symm, hfailed]
  · rw [streams_handOver_of_ne hne]

/-- `flush` is one more write. -/
theorem exists_flush_eq (s : Writing ι) (system : FileSystem ι) (output : OutputFile) :
    ∃ write : Write, write.output = output ∧ s.flush system output = s.handOver write := by
  unfold flush
  cases system.flush output with
  | none => exact ⟨_, rfl, rfl⟩
  | some count => exact ⟨_, rfl, rfl⟩

theorem failed_flush {other : OutputFile} (h : system.flush output = none) :
    ((s.flush system output).streams other).failed = (s.streams other).failed := by
  rw [flush, h]
  exact failed_handOver fun _ => rfl

/-- **A stream that was flushed without failure has nothing left.** -/
theorem pending_flush (h : ((s.flush system output).streams output).failed = false) :
    ((s.flush system output).streams output).handle.pending = [] := by
  cases hfailed : (s.streams output).failed with
  | true =>
      -- a stream that had failed before stays so
      rcases exists_flush_eq s system output with ⟨write, rfl, hflush⟩
      rw [hflush, handOver_of_failed hfailed, hfailed] at h
      cases h
  | false =>
      unfold flush at h ⊢
      cases hflush : system.flush output with
      | none =>
          rw [handOver_of_good hfailed]
          show (Function.update s.streams output _ output).handle.pending = []
          rw [Function.update_self]
          exact FileHandle.pending_drain_all s.files le_rfl
      | some count =>
          have hlast : (s.streams (Write.mk output count true).output).failed = false := hfailed
          rw [hflush] at h
          have htrue : true = false := (failed_handOver_self hlast).symm.trans h
          cases htrue

theorem close_of_good (h : (s.streams output).failed = false) : s.close system output = s := by
  rw [close, h]
  rfl

theorem streams_close (s : Writing ι) (system : FileSystem ι) (output : OutputFile) :
    (s.close system output).streams = s.streams := by
  unfold close
  dsimp only
  split_ifs <;> rfl

/-- The destructor of a stream changes no other file. -/
theorem contents_close_of_ne (s : Writing ι) (system : FileSystem ι) {file : ι}
    (hne : file ≠ (s.streams output).handle.file) :
    (s.close system output).files.contents file = s.files.contents file := by
  unfold close
  dsimp only
  split_ifs
  · exact Function.update_of_ne hne ..
  · rfl

/-! ## Where the streams lead -/

/-- Each stream leads to its own file, which holds what the stream handed over. -/
structure Delivers (file : OutputFile → ι) (text : OutputFile → Text) (s : Writing ι) :
    Prop where
  file_eq : ∀ output, (s.streams output).handle.file = file output
  text_eq : ∀ output, (s.streams output).handle.text = text output
  handed : ∀ output, (s.streams output).handle.Handed s.files

variable {file : OutputFile → ι} {text : OutputFile → Text}

/-- **A write keeps both files up to date**, if they are different files. -/
theorem Delivers.handOver (h : s.Delivers file text) (hne : Function.Injective file)
    (write : Write) : (s.handOver write).Delivers file text := by
  refine ⟨fun output => (handle_handOver s write output).1.trans (h.file_eq output),
    fun output => (handle_handOver s write output).2.trans (h.text_eq output), ?_⟩
  intro output
  cases hfailed : (s.streams write.output).failed with
  | true =>
      rw [handOver_of_failed hfailed]
      exact h.handed output
  | false =>
      rw [handOver_of_good hfailed]
      by_cases houtput : output = write.output
      -- the file of the write moves on, the other one is not its file
      · rw [houtput]
        show (Function.update s.streams write.output _ write.output).handle.Handed _
        rw [Function.update_self]
        exact (h.handed write.output).drain write.count
      · show (Function.update s.streams write.output _ output).handle.Handed _
        rw [Function.update_of_ne houtput]
        apply (h.handed output).drain_other
        rw [h.file_eq, h.file_eq]
        exact fun heq => houtput (hne heq)

/-- The streams lead to files in `touched`, and nothing else changed since `files`. -/
structure Within (touched : Set ι) (files : FileStore ι Char) (s : Writing ι) : Prop where
  mem : ∀ output, (s.streams output).handle.file ∈ touched
  frame : FileStore.Frame touched files s.files

variable {touched : Set ι} {files : FileStore ι Char}

theorem Within.handOver (h : s.Within touched files) (write : Write) :
    (s.handOver write).Within touched files := by
  refine ⟨fun output => ?_, h.frame.trans ?_⟩
  · rw [(handle_handOver s write output).1]
    exact h.mem output
  · cases hfailed : (s.streams write.output).failed with
    | true =>
        rw [handOver_of_failed hfailed]
        exact .refl _ _
    | false =>
        rw [handOver_of_good hfailed]
        exact .drain (h.mem write.output) write.count

theorem Within.close (h : s.Within touched files) (system : FileSystem ι) (output : OutputFile) :
    (s.close system output).Within touched files := by
  cases hfailed : (s.streams output).failed with
  | true =>
      rw [Writing.close, hfailed]
      exact ⟨h.mem, h.frame.trans (.overwrite (h.mem output) _)⟩
  | false =>
      rw [close_of_good hfailed]
      exact h

end Writing

/-! ## The whole run -/

section Run

variable {system : FileSystem ι} {options : Options} {streams : OutputStream × OutputStream}
  {files : FileStore ι Char}

/-- The files when both outputs were opened. -/
def FileSystem.bothOpened (system : FileSystem ι) (options : Options) (files : FileStore ι Char) :
    FileStore ι Char :=
  (files.truncate (system.identity (outputPath options .nodes))).truncate
    (system.identity (outputPath options .edges))

theorem contents_bothOpened (files : FileStore ι Char) (output : OutputFile) :
    (system.bothOpened options files).contents (system.identity (outputPath options output))
      = some [] := by
  unfold FileSystem.bothOpened
  cases output with
  | edges => exact FileStore.contents_truncate_self _ _
  | nodes =>
      by_cases hsame : system.identity (outputPath options .nodes)
          = system.identity (outputPath options .edges)
      · rw [hsame]
        exact FileStore.contents_truncate_self _ _
      · rw [FileStore.contents_truncate_of_ne _ hsame]
        exact FileStore.contents_truncate_self _ _

theorem closedFiles_of_good {s : Writing ι}
    (hgood : ∀ output, (s.streams output).failed = false) : closedFiles system s = s.files := by
  unfold closedFiles
  rw [Writing.close_of_good (hgood .edges), Writing.close_of_good (hgood .nodes)]

/-- What every write keeps holds in the end. -/
theorem writeStreams_induction {P : Writing ι → Prop}
    (hstart : P ⟨files, openStreams system options streams⟩)
    (hwrite : ∀ s write, P s → P (s.handOver write))
    (hmark : ∀ s, P s → P (s.markFailed streams)) :
    P (writeStreams system options streams files) := by
  -- by induction on the writes before the flushes, and a flush is one more write
  have hwrites : ∀ (writes : List Write) s, P s → P (writes.foldl Writing.handOver s) := by
    intro writes
    induction writes with
    | nil => exact fun _ hs => hs
    | cons write writes ih => exact fun s hs => ih _ (hwrite s write hs)
  have hflush : ∀ s output, P s → P (s.flush system output) := by
    intro s output hs
    rcases s.exists_flush_eq system output with ⟨write, -, heq⟩
    rw [heq]
    exact hwrite s write hs
  exact hflush _ _ (hflush _ _ (hmark _ (hwrites system.writes _ hstart)))

/-- The files that the two streams lead to. -/
def FileSystem.outputs (system : FileSystem ι) (options : Options) : Set ι :=
  Set.range fun output => system.identity (outputPath options output)

theorem within_writeStreams (system : FileSystem ι) (options : Options)
    (streams : OutputStream × OutputStream) (files : FileStore ι Char) :
    (writeStreams system options streams files).Within (system.outputs options) files := by
  apply writeStreams_induction
  · exact ⟨fun output => Set.mem_range_self output, .refl _ _⟩
  · exact fun s write hs => hs.handOver write
  · exact fun s hs => ⟨hs.mem, hs.frame⟩

/-- Each file holds what was handed over in the end. -/
theorem delivers_writeStreams
    (hne : Function.Injective fun output => system.identity (outputPath options output))
    (hnew : ∀ output, files.contents (system.identity (outputPath options output)) = some []) :
    (writeStreams system options streams files).Delivers
      (fun output => system.identity (outputPath options output))
      (fun output => (streamOf streams output).text) := by
  apply writeStreams_induction
  · exact ⟨fun _ => rfl, fun _ => rfl, fun output => ⟨hnew output, Nat.zero_le _⟩⟩
  · exact fun s write hs => hs.handOver hne write
  · exact fun s hs => ⟨hs.file_eq, hs.text_eq, hs.handed⟩

/-- **What was written**: after a flush without a failure, the file holds its text. -/
theorem contents_writeStreams
    (hne : Function.Injective fun output => system.identity (outputPath options output))
    (hnew : ∀ output, files.contents (system.identity (outputPath options output)) = some [])
    {output : OutputFile}
    (hgood : ((writeStreams system options streams files).streams output).failed = false) :
    (writeStreams system options streams files).files.contents
        (system.identity (outputPath options output))
      = some (streamOf streams output).text := by
  have hdelivers : (writeStreams system options streams files).Delivers _ _ :=
    delivers_writeStreams hne hnew
  -- nothing is left in a stream whose flush did not fail
  have hpending : ((writeStreams system options streams files).streams output).handle.pending
      = [] := by
    obtain ⟨s, hs⟩ : ∃ s : Writing ι, writeStreams system options streams files
        = (s.flush system .nodes).flush system .edges := ⟨_, rfl⟩
    rw [hs] at hgood ⊢
    cases output with
    | edges => exact Writing.pending_flush hgood
    | nodes =>
        -- the second flush is not about the first stream
        rcases (s.flush system .nodes).exists_flush_eq system .edges with ⟨write, hedges, heq⟩
        have hother : OutputFile.nodes ≠ write.output := by rw [hedges]; decide
        rw [heq, Writing.streams_handOver_of_ne hother] at hgood ⊢
        exact Writing.pending_flush hgood
  have hcontents := (hdelivers.handed output).contents_of_pending hpending
  rwa [hdelivers.file_eq, hdelivers.text_eq] at hcontents

/-- **What is left**: the destructors change no file whose stream has not failed. -/
theorem contents_closedFiles
    (hne : Function.Injective fun output => system.identity (outputPath options output))
    (hnew : ∀ output, files.contents (system.identity (outputPath options output)) = some [])
    {output : OutputFile}
    (hgood : ((writeStreams system options streams files).streams output).failed = false) :
    (closedFiles system (writeStreams system options streams files)).contents
        (system.identity (outputPath options output))
      = some (streamOf streams output).text := by
  have hdelivers : (writeStreams system options streams files).Delivers _ _ :=
    delivers_writeStreams hne hnew
  rw [← contents_writeStreams hne hnew hgood]
  generalize writeStreams system options streams files = s at hgood hdelivers
  have hother : ∀ {other : OutputFile}, output ≠ other →
      system.identity (outputPath options output) ≠ (s.streams other).handle.file := by
    intro other hdiffer heq
    rw [hdelivers.file_eq other] at heq
    exact hdiffer (hne heq)
  unfold closedFiles
  cases output with
  | nodes =>
      rw [Writing.close_of_good ((congrFun (s.streams_close system .edges) _).symm ▸ hgood)]
      exact s.contents_close_of_ne system (hother (by decide))
  | edges =>
      rw [Writing.close_of_good hgood]
      exact s.contents_close_of_ne system (hother (by decide))

/-- No write to the output fails. -/
structure FileSystem.WritesTo (system : FileSystem ι) (output : OutputFile) : Prop where
  writes : ∀ write ∈ system.writes, write.output = output → write.fails = false
  flush : system.flush output = none

/-- No write fails. -/
structure FileSystem.Writes (system : FileSystem ι) : Prop where
  writes : ∀ write ∈ system.writes, write.fails = false
  flush : ∀ output, system.flush output = none

omit [DecidableEq ι] in
theorem FileSystem.Writes.writesTo (h : system.Writes) (output : OutputFile) :
    system.WritesTo output :=
  ⟨fun write hmem _ => h.writes write hmem, h.flush output⟩

/-- A stream fails only when one of its own writes fails. -/
theorem failed_writeStreams {output : OutputFile} (h : system.WritesTo output) :
    ((writeStreams system options streams files).streams output).failed
      = (streamOf streams output).failed := by
  have hwrites : ∀ (writes : List Write) (s : Writing ι),
      (∀ write ∈ writes, write.output = output → write.fails = false) →
        ((writes.foldl Writing.handOver s).streams output).failed
          = (s.streams output).failed := by
    intro writes
    induction writes with
    | nil => exact fun _ _ => rfl
    | cons write writes ih =>
        intro s hall
        rw [List.foldl_cons, ih _ (fun write hmem => hall write (List.mem_cons_of_mem _ hmem))]
        exact Writing.failed_handOver (hall write List.mem_cons_self)
  -- the flush of the other stream does not matter
  have hflush : ∀ (s : Writing ι) (other : OutputFile),
      ((s.flush system other).streams output).failed = (s.streams output).failed := by
    intro s other
    by_cases hsame : other = output
    · exact Writing.failed_flush (hsame ▸ h.flush)
    · rcases s.exists_flush_eq system other with ⟨write, hwrite, heq⟩
      rw [heq]
      exact Writing.failed_handOver fun hwriteTo => absurd (hwrite.symm.trans hwriteTo) hsame
  unfold writeStreams
  rw [hflush, hflush]
  show (((system.writes.foldl Writing.handOver _).streams output).failed ||
    (streamOf streams output).failed) = _
  rw [hwrites _ _ h.writes]
  rfl

end Run

end RouteEngine
