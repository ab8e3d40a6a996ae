import Mathlib.Data.List.Basic
import Mathlib.Data.List.Flatten
import Mathlib.Data.List.Nodup

set_option autoImplicit false

/-! # Nested loops as one loop

A loop that may throw, over the rows and then the columns of a table, is one loop over the cells
in row-major order (`foldlM_range_mul`). A loop whose rounds each make a batch of steps is the
loop over all steps (`foldlM_range_batch`), and no step is made twice when each names its round
(`nodup_flatMap_range`). -/

namespace RangeLoop

variable {ε α β σ : Type}

theorem foldlM_congr {f g : σ → α → Except ε σ} {l : List α}
    (h : ∀ a ∈ l, ∀ s, f s a = g s a) (s : σ) : l.foldlM f s = l.foldlM g s := by
  induction l generalizing s with
  | nil => rfl
  | cons a l ih =>
      rw [List.foldlM_cons, List.foldlM_cons, h a (by simp)]
      exact congrArg _ (funext fun s' => ih (fun b hb => h b (by simp [hb])) s')

/-- The cells of a table in row-major order. -/
theorem range_mul (rows cols : Nat) :
    List.range (rows * cols)
      = (List.range rows).flatMap (fun r => (List.range cols).map (fun c => r * cols + c)) := by
  induction rows with
  | zero => simp
  | succ rows ih =>
      rw [Nat.succ_mul, List.range_add, ih, List.range_succ, List.flatMap_append]
      simp

/-- **Two nested loops are one loop over the cells.** -/
theorem foldlM_range_mul (f : σ → Nat → Nat → Except ε σ) (rows cols : Nat) (s : σ) :
    (List.range rows).foldlM (fun s r => (List.range cols).foldlM (fun s c => f s r c) s) s
      = (List.range (rows * cols)).foldlM (fun s i => f s (i / cols) (i % cols)) s := by
  rw [range_mul]
  induction List.range rows generalizing s with
  | nil => rfl
  | cons r l ih =>
      have hrow : ∀ s, (List.range cols).foldlM (fun s c => f s r c) s
          = ((List.range cols).map (fun c => r * cols + c)).foldlM
              (fun s i => f s (i / cols) (i % cols)) s := by
        intro s
        rw [List.foldlM_map]
        refine foldlM_congr (fun c hc s => ?_) s
        have hlt := List.mem_range.mp hc
        have hpos : 0 < cols := by omega
        rw [Nat.mul_comm, Nat.mul_add_div hpos, Nat.div_eq_of_lt hlt, Nat.add_zero,
          Nat.mul_add_mod, Nat.mod_eq_of_lt hlt]
      rw [List.foldlM_cons, List.flatMap_cons, List.foldlM_append, hrow]
      exact congrArg _ (funext fun s' => ih s')

/-- **A loop of batches**: round `i` turns the state `embed i b` into `embed (i + 1) b'`, where
`b'` comes from `b` by the steps `items i`. -/
theorem foldlM_range_batch (f : σ → Nat → Except ε σ) (step : β → α → Except ε β)
    (embed : Nat → β → σ) (items : Nat → List α) (n : Nat)
    (hround : ∀ i, i < n → ∀ b, f (embed i b) i = ((items i).foldlM step b).map (embed (i + 1)))
    (b : β) :
    (List.range n).foldlM f (embed 0 b)
      = (((List.range n).flatMap items).foldlM step b).map (embed n) := by
  induction n with
  | zero => rfl
  | succ n ih =>
      rw [List.range_succ, List.foldlM_append, ih (fun i hi => hround i (by omega)),
        List.flatMap_append, List.foldlM_append]
      cases ((List.range n).flatMap items).foldlM step b with
      | error e => rfl
      | ok b' =>
          show [n].foldlM f (embed n b') = _
          rw [List.foldlM_cons, hround n (by omega), List.flatMap_singleton]
          cases hlast : (items n).foldlM step b' with
          | error e =>
              show _ = ((items n).foldlM step b').map _
              rw [hlast]
              rfl
          | ok b'' =>
              show _ = ((items n).foldlM step b').map _
              rw [hlast]
              rfl

/-- The items of all rounds are distinct when the round can be read off an item. -/
theorem nodup_flatMap_range {items : Nat → List α} (round : α → Nat) {n : Nat}
    (hitems : ∀ i, i < n → (items i).Nodup)
    (hround : ∀ i, i < n → ∀ a ∈ items i, round a = i) :
    ((List.range n).flatMap items).Nodup := by
  rw [List.nodup_flatMap]
  refine ⟨fun i hi => hitems i (List.mem_range.mp hi), ?_⟩
  refine List.Pairwise.imp_of_mem ?_ List.nodup_range
  intro i j hi hj hne a hai haj
  apply hne
  calc i = round a := (hround i (List.mem_range.mp hi) a hai).symm
    _ = j := hround j (List.mem_range.mp hj) a haj

end RangeLoop
