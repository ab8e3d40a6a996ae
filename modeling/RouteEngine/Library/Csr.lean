import Mathlib.Data.List.Basic
import Mathlib.Logic.Function.Basic

set_option autoImplicit false

/-! # Compressed sparse rows

A list sorted by a row number `key` is a concatenation of rows, and row `u` is the slice
between the number of elements below row `u` and the number below row `u + 1`. These numbers
are computed as the row sizes, shifted by one, followed by prefix sums in place; the counters
may be of any type `β` into which the natural numbers map additively, so that machine words
are an instance. -/

namespace Csr

variable {α β : Type}

/-! ## Rows of a sorted list -/

section Rows

variable (key : α → Nat)

/-- The number of elements in rows below `u`. -/
def below (l : List α) (u : Nat) : Nat := l.countP (fun a => decide (key a < u))

theorem below_zero (l : List α) : below key l 0 = 0 := by
  simp [below]

theorem below_le_length (l : List α) (u : Nat) : below key l u ≤ l.length :=
  List.countP_le_length

theorem below_mono (l : List α) {u v : Nat} (h : u ≤ v) : below key l u ≤ below key l v := by
  refine List.countP_mono_left (fun a _ ha => ?_)
  simp only [decide_eq_true_eq] at ha ⊢
  omega

theorem below_eq_length (l : List α) {n : Nat} (h : ∀ a ∈ l, key a < n) :
    below key l n = l.length := by
  refine List.countP_eq_length.mpr (fun a ha => ?_)
  simpa using h a ha

theorem below_succ (l : List α) (u : Nat) :
    below key l (u + 1) = below key l u + l.countP (fun a => decide (key a = u)) := by
  induction l with
  | nil => simp [below]
  | cons a l ih =>
      simp only [below, List.countP_cons, decide_eq_true_eq] at ih ⊢
      split_ifs <;> omega

/-- The rows below `u` are a front part of a sorted list. -/
theorem take_below {l : List α} (hs : l.Pairwise (fun a b => key a ≤ key b)) (u : Nat) :
    l.take (below key l u) = l.filter (fun a => decide (key a < u)) := by
  induction l with
  | nil => simp
  | cons a l ih =>
      rw [List.pairwise_cons] at hs
      by_cases ha : key a < u
      · simp only [below, List.countP_cons, ha, decide_true, if_true, List.take_succ_cons,
          List.filter_cons_of_pos]
        rw [← ih hs.2, below]
      · have hnone : ∀ b ∈ l, ¬ key b < u := fun b hb => by have := hs.1 b hb; omega
        have hcount : below key (a :: l) u = 0 := by
          refine List.countP_eq_zero.mpr (fun b hb => ?_)
          rcases List.mem_cons.mp hb with rfl | hb
          · simpa using ha
          · simpa using hnone b hb
        have hfilter : (a :: l).filter (fun a => decide (key a < u)) = [] := by
          refine List.filter_eq_nil_iff.mpr (fun b hb => ?_)
          rcases List.mem_cons.mp hb with rfl | hb
          · simpa using ha
          · simpa using hnone b hb
        rw [hcount, hfilter, List.take_zero]

/-- What follows the rows below `u` is the rest of the rows. -/
theorem drop_below {l : List α} (hs : l.Pairwise (fun a b => key a ≤ key b)) (u : Nat) :
    l.drop (below key l u) = l.filter (fun a => decide (u ≤ key a)) := by
  induction l with
  | nil => simp
  | cons a l ih =>
      rw [List.pairwise_cons] at hs
      by_cases ha : key a < u
      · have hnot : ¬ u ≤ key a := by omega
        simp only [below, List.countP_cons, ha, decide_true, if_true, List.drop_succ_cons]
        rw [List.filter_cons_of_neg (by simpa using hnot), ← ih hs.2, below]
      · have hall : ∀ b ∈ a :: l, u ≤ key b := by
          intro b hb
          rcases List.mem_cons.mp hb with rfl | hb
          · omega
          · have := hs.1 b hb; omega
        have hcount : below key (a :: l) u = 0 := by
          refine List.countP_eq_zero.mpr (fun b hb => ?_)
          have := hall b hb
          simpa using this
        rw [hcount, List.drop_zero, List.filter_eq_self.mpr (fun b hb => by
          simpa using hall b hb)]

/-- **Row `u` of a sorted list** is the slice from the number of elements below `u` to the
number below `u + 1`. -/
theorem slice_below {l : List α} (hs : l.Pairwise (fun a b => key a ≤ key b)) (u : Nat) :
    (l.drop (below key l u)).take (below key l (u + 1) - below key l u)
      = l.filter (fun a => decide (key a = u)) := by
  have hrest : (l.drop (below key l u)).Pairwise (fun a b => key a ≤ key b) :=
    hs.sublist (List.drop_sublist _ _)
  have hcount : below key (l.drop (below key l u)) (u + 1)
      = below key l (u + 1) - below key l u := by
    have hsplit : below key l (u + 1)
        = below key (l.take (below key l u)) (u + 1)
          + below key (l.drop (below key l u)) (u + 1) := by
      simp only [below]
      rw [← List.countP_append, List.take_append_drop]
    have hfront : below key (l.take (below key l u)) (u + 1) = below key l u := by
      rw [below_eq_length, List.length_take]
      · have := below_le_length key l u
        omega
      · intro a ha
        rw [take_below key hs, List.mem_filter, decide_eq_true_eq] at ha
        omega
    omega
  rw [← hcount, take_below key hrest, drop_below key hs, List.filter_filter]
  refine List.filter_congr (fun a _ => ?_)
  rw [← Bool.decide_and]
  exact decide_eq_decide.mpr (by omega)

/-- The rows of a sorted list, one after the other, are the list. -/
theorem flatMap_rows {l : List α} (hs : l.Pairwise (fun a b => key a ≤ key b)) (n : Nat) :
    (List.range n).flatMap (fun u => l.filter (fun a => decide (key a = u)))
      = l.filter (fun a => decide (key a < n)) := by
  induction n with
  | zero => simp
  | succ n ih =>
      rw [List.range_succ, List.flatMap_append, ih, List.flatMap_singleton, ← slice_below key hs,
        ← take_below key hs, ← take_below key hs]
      have hle : below key l n ≤ below key l (n + 1) := below_mono key l (Nat.le_succ n)
      rw [← List.take_add, Nat.add_sub_cancel' hle]

end Rows

/-! ## Tables

A vector whose entry at `i` is `f i`. -/

/-- The vector of length `n` with entries `f 0, f 1, …`. -/
def table (n : Nat) (f : Nat → β) : List β := (List.range n).map f

@[simp] theorem length_table (n : Nat) (f : Nat → β) : (table n f).length = n := by
  simp [table]

@[simp] theorem getElem?_table {n : Nat} (f : Nat → β) {i : Nat} (hi : i < n) :
    (table n f)[i]? = some (f i) := by
  simp [table, hi]

theorem set_table (n : Nat) (f : Nat → β) (i : Nat) (b : β) :
    (table n f).set i b = table n (Function.update f i b) := by
  refine List.ext_getElem (by simp) (fun j hj hj' => ?_)
  simp only [List.getElem_set, table, List.getElem_map, List.getElem_range]
  by_cases h : i = j
  · subst h; simp
  · rw [if_neg h, Function.update_of_ne (Ne.symm h)]

theorem table_const (n : Nat) (b : β) : table n (fun _ => b) = List.replicate n b := by
  simp [table, List.map_const']

theorem table_congr {n : Nat} {f g : Nat → β} (h : ∀ i, i < n → f i = g i) :
    table n f = table n g :=
  List.map_congr_left (fun i hi => h i (List.mem_range.mp hi))

/-! ## Row sizes and their prefix sums -/

section Offsets

variable [Add β] (φ : Nat → β)

/-- Count one element of row `u`, one place to the right. -/
def countRow (f : Nat → β) (u : Nat) : Nat → β := Function.update f (u + 1) (f (u + 1) + φ 1)

/-- Add the total before `row` to the size stored after it. -/
def sumRow (f : Nat → β) (row : Nat) : Nat → β :=
  Function.update f (row + 1) (f (row + 1) + f row)

variable (key : α → Nat) {φ}

theorem foldl_countRow (hφ : ∀ a b, φ (a + b) = φ a + φ b) (l : List α) (f : Nat → Nat) :
    l.foldl (fun f a => countRow φ f (key a)) (fun i => φ (f i))
      = fun i => φ (f i + l.countP (fun a => decide (key a + 1 = i))) := by
  induction l generalizing f with
  | nil => simp
  | cons a l ih =>
      have hstep : countRow φ (fun i => φ (f i)) (key a)
          = fun i => φ (Function.update f (key a + 1) (f (key a + 1) + 1) i) := by
        funext i
        by_cases hi : i = key a + 1
        · subst hi
          simp [countRow, hφ]
        · simp [countRow, Function.update_of_ne hi]
      rw [List.foldl_cons, hstep, ih]
      funext i
      rw [List.countP_cons]
      by_cases hi : key a + 1 = i
      · subst hi
        simp only [Function.update_self, decide_true, if_true]
        congr 1
        omega
      · simp [hi, Function.update_of_ne (Ne.symm hi)]

/-- After `m` steps of the prefix sum the entries up to `m` are totals, the others still
sizes. -/
theorem foldl_sumRow (hφ : ∀ a b, φ (a + b) = φ a + φ b) (l : List α) (m : Nat) :
    (List.range m).foldl sumRow (l.foldl (fun f a => countRow φ f (key a)) (fun _ => φ 0))
      = fun i => if i ≤ m then φ (below key l i)
          else φ (l.countP (fun a => decide (key a + 1 = i))) := by
  have hsizes := foldl_countRow key hφ l (fun _ => 0)
  simp only [Nat.zero_add] at hsizes
  induction m with
  | zero =>
      rw [List.range_zero, List.foldl_nil, hsizes]
      funext i
      by_cases hi : i ≤ 0
      · obtain rfl : i = 0 := by omega
        rw [if_pos hi, below_zero]
        simp
      · rw [if_neg hi]
  | succ m ih =>
      rw [List.range_succ, List.foldl_append, ih, List.foldl_cons, List.foldl_nil]
      funext i
      by_cases hi : i = m + 1
      · subst hi
        have hm : ¬ m + 1 ≤ m := by omega
        simp only [sumRow, Function.update_self, Nat.le_refl, hm, if_true, if_false,
          Nat.add_right_cancel_iff]
        rw [← hφ, below_succ, Nat.add_comm]
      · rw [sumRow, Function.update_of_ne hi]
        by_cases him : i ≤ m
        · rw [if_pos him, if_pos (by omega)]
        · rw [if_neg him, if_neg (by omega)]

/-- **The offsets.** Row sizes counted one place to the right, then summed in place, are the
numbers of elements below each row. -/
theorem offsets_eq_below (hφ : ∀ a b, φ (a + b) = φ a + φ b) (l : List α) (n : Nat) :
    ∀ i, i ≤ n →
      ((List.range n).foldl sumRow (l.foldl (fun f a => countRow φ f (key a)) (fun _ => φ 0))) i
        = φ (below key l i) := by
  intro i hi
  rw [foldl_sumRow key hφ l n]
  exact if_pos hi

end Offsets

end Csr
