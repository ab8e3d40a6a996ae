import Mathlib.Data.List.TakeDrop
import Mathlib.Data.Set.Defs
import Mathlib.Logic.Function.Basic

set_option autoImplicit false

/-! # Files written through handles

A file store maps the identities of files to their contents, and remembers which files were
opened for writing. A handle writes a text to a file in portions. While nobody else writes to
the file, it holds what was handed over (`FileHandle.Handed`), and no other file changes
(`FileStore.Frame`). -/

variable {ι α : Type*} [DecidableEq ι]

/-- What each file holds, if it exists, and the files opened for writing, the last one first. -/
structure FileStore (ι α : Type*) where
  contents : ι → Option (List α)
  opened : List ι

/-- A text on its way to a file: so much of it was handed over. -/
structure FileHandle (ι α : Type*) where
  file : ι
  text : List α
  written : Nat

/-- What is still to be handed over. -/
def FileHandle.pending (h : FileHandle ι α) : List α := h.text.drop h.written

namespace FileStore

/-- Bytes written over a content, from an offset on which is not beyond its end. -/
def overlay (old : List α) (offset : Nat) (bytes : List α) : List α :=
  old.take offset ++ bytes ++ old.drop (offset + bytes.length)

/-- Open a file for writing, which creates or truncates it. -/
def truncate (files : FileStore ι α) (file : ι) : FileStore ι α where
  contents := Function.update files.contents file (some [])
  opened := file :: files.opened

def writeAt (files : FileStore ι α) (file : ι) (offset : Nat) (bytes : List α) :
    FileStore ι α :=
  { files with
    contents := Function.update files.contents file
      (some (overlay ((files.contents file).getD []) offset bytes)) }

def overwrite (files : FileStore ι α) (file : ι) (text : List α) : FileStore ι α :=
  { files with contents := Function.update files.contents file (some text) }

/-- Hand over the next `count` bytes of a handle, or all that are left. -/
def drain (files : FileStore ι α) (h : FileHandle ι α) (count : Nat) :
    FileStore ι α × FileHandle ι α :=
  let bytes := h.pending.take count
  (files.writeAt h.file h.written bytes, { h with written := h.written + bytes.length })

@[simp] theorem contents_truncate_self (files : FileStore ι α) (file : ι) :
    (files.truncate file).contents file = some [] := Function.update_self ..

theorem contents_truncate_of_ne (files : FileStore ι α) {file other : ι} (h : other ≠ file) :
    (files.truncate file).contents other = files.contents other := Function.update_of_ne h ..

@[simp] theorem file_drain (files : FileStore ι α) (h : FileHandle ι α) (count : Nat) :
    (files.drain h count).2.file = h.file := rfl

@[simp] theorem text_drain (files : FileStore ι α) (h : FileHandle ι α) (count : Nat) :
    (files.drain h count).2.text = h.text := rfl

/-- Only the file of the handle changes. -/
theorem contents_drain_of_ne (files : FileStore ι α) (h : FileHandle ι α) (count : Nat)
    {other : ι} (hne : other ≠ h.file) :
    (files.drain h count).1.contents other = files.contents other :=
  Function.update_of_ne hne ..

/-! ## Frames -/

/-- Only these files changed, and only they were opened. -/
structure Frame (touched : Set ι) (before after : FileStore ι α) : Prop where
  contents : ∀ file ∉ touched, after.contents file = before.contents file
  opened : ∀ file ∉ touched, file ∈ after.opened → file ∈ before.opened

namespace Frame

variable {touched : Set ι} {files files' files'' : FileStore ι α} {file : ι}

omit [DecidableEq ι] in
theorem refl (touched : Set ι) (files : FileStore ι α) : Frame touched files files :=
  ⟨fun _ _ => rfl, fun _ _ => id⟩

omit [DecidableEq ι] in
theorem trans (h : Frame touched files files') (h' : Frame touched files' files'') :
    Frame touched files files'' where
  contents file hfile := (h'.contents file hfile).trans (h.contents file hfile)
  opened file hfile := h.opened file hfile ∘ h'.opened file hfile

theorem truncate (hfile : file ∈ touched) : Frame touched files (files.truncate file) where
  contents other hother := files.contents_truncate_of_ne (ne_of_mem_of_not_mem hfile hother).symm
  opened other hother hmem := by
    rcases List.mem_cons.mp hmem with rfl | hmem
    · exact absurd hfile hother
    · exact hmem

theorem drain {h : FileHandle ι α} (hfile : h.file ∈ touched) (count : Nat) :
    Frame touched files (files.drain h count).1 where
  contents _ hother :=
    files.contents_drain_of_ne h count (ne_of_mem_of_not_mem hfile hother).symm
  opened _ _ := id

theorem overwrite (hfile : file ∈ touched) (text : List α) :
    Frame touched files (files.overwrite file text) where
  contents _ hother := Function.update_of_ne (ne_of_mem_of_not_mem hfile hother).symm ..
  opened _ _ := id

end Frame

/-! ## Handing over -/

/-- The portion after what was handed over. -/
theorem overlay_take (text : List α) {written : Nat} (hle : written ≤ text.length)
    (count : Nat) :
    overlay (text.take written) written ((text.drop written).take count)
      = text.take (written + ((text.drop written).take count).length) := by
  have hlast : (text.take written).drop
      (written + ((text.drop written).take count).length) = [] := by
    apply List.drop_eq_nil_of_le
    rw [List.length_take]
    omega
  have hportion : (text.drop written).take ((text.drop written).take count).length
      = (text.drop written).take count := by
    rw [List.length_take, List.take_eq_take_min, Nat.min_assoc, Nat.min_self,
      ← List.take_eq_take_min]
  rw [overlay, hlast, List.append_nil, List.take_take, Nat.min_self, List.take_add, hportion]

end FileStore

namespace FileHandle

/-- The file holds what was handed over. -/
structure Handed (h : FileHandle ι α) (files : FileStore ι α) : Prop where
  contents : files.contents h.file = some (h.text.take h.written)
  le : h.written ≤ h.text.length

variable {h other : FileHandle ι α} {files : FileStore ι α}

/-- Handing over a portion keeps the file up to date. -/
theorem Handed.drain (hh : h.Handed files) (count : Nat) :
    (files.drain h count).2.Handed (files.drain h count).1 := by
  refine ⟨?_, ?_⟩
  · show Function.update files.contents h.file _ h.file = _
    rw [Function.update_self, hh.contents, Option.getD_some]
    exact congrArg some (FileStore.overlay_take h.text hh.le count)
  · show h.written + (h.pending.take count).length ≤ h.text.length
    rw [List.length_take, pending, List.length_drop]
    have hle := hh.le
    omega

/-- Another handle keeps the file as it is, if it writes elsewhere. -/
theorem Handed.drain_other (hh : h.Handed files) (hne : h.file ≠ other.file) (count : Nat) :
    h.Handed (files.drain other count).1 :=
  ⟨(files.contents_drain_of_ne other count hne).trans hh.contents, hh.le⟩

omit [DecidableEq ι] in
/-- When nothing is left to be handed over, the file holds the text. -/
theorem Handed.contents_of_pending (hh : h.Handed files) (hpending : h.pending = []) :
    files.contents h.file = some h.text := by
  rw [hh.contents, List.take_of_length_le (List.drop_eq_nil_iff.mp hpending)]

/-- Handing over everything leaves nothing. -/
theorem pending_drain_all (files : FileStore ι α) {count : Nat}
    (hcount : h.pending.length ≤ count) : (files.drain h count).2.pending = [] := by
  show h.text.drop (h.written + (h.pending.take count).length) = []
  rw [List.take_of_length_le hcount, pending, List.length_drop]
  apply List.drop_eq_nil_of_le
  omega

end FileHandle
