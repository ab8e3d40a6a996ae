import Mathlib.Data.List.Sort

set_option autoImplicit false

/-! # Sorting and priority queues that see their elements through a comparison

A comparison `lt : α → α → Bool` is a *strict weak order* on a set of elements when
incomparability is transitive there. Elements that compare equal need not be equal, which is
why a sort is described here by what every comparison sort promises and no more: the result
is a rearrangement, it is sorted, and the rearrangement depends on the outcomes of the
comparisons only. -/

namespace Comparison

variable {α : Type}

/-- `lt` is a strict weak order on the elements that satisfy `P`. -/
structure StrictWeakOn (lt : α → α → Bool) (P : α → Prop) : Prop where
  asymm : ∀ a b, P a → P b → lt a b = true → lt b a = false
  negTrans : ∀ a b c, P a → P b → P c → lt a b = false → lt b c = false → lt a c = false

namespace StrictWeakOn

variable {lt : α → α → Bool} {P : α → Prop}

theorem irrefl (h : StrictWeakOn lt P) {a : α} (ha : P a) : lt a a = false := by
  cases hl : lt a a with
  | false => rfl
  | true => exact hl.symm.trans (h.asymm a a ha ha hl)

theorem mono (h : StrictWeakOn lt P) {Q : α → Prop} (hQ : ∀ a, Q a → P a) :
    StrictWeakOn lt Q where
  asymm a b ha hb := h.asymm a b (hQ a ha) (hQ b hb)
  negTrans a b c ha hb hc := h.negTrans a b c (hQ a ha) (hQ b hb) (hQ c hc)

/-- A comparison of images is a strict weak order wherever the comparison itself is. -/
theorem comap {β : Type} (h : StrictWeakOn lt P) (f : β → α) :
    StrictWeakOn (fun a b => lt (f a) (f b)) (fun b => P (f b)) where
  asymm a b := h.asymm (f a) (f b)
  negTrans a b c := h.negTrans (f a) (f b) (f c)

/-- Elements that compare equal compare alike with every third element, on the left. -/
theorem left_eq_of_incomparable (h : StrictWeakOn lt P) {a b c : α} (ha : P a) (hb : P b)
    (hc : P c) (hab : lt a b = false) (hba : lt b a = false) : lt a c = lt b c := by
  cases hac : lt a c with
  | false => exact (h.negTrans b a c hb ha hc hba hac).symm
  | true =>
      cases hbc : lt b c with
      | true => rfl
      | false => exact absurd (h.negTrans a b c ha hb hc hab hbc) (by simp [hac])

/-- Elements that compare equal compare alike with every third element, on the right. -/
theorem right_eq_of_incomparable (h : StrictWeakOn lt P) {a b c : α} (ha : P a) (hb : P b)
    (hc : P c) (hab : lt a b = false) (hba : lt b a = false) : lt c a = lt c b := by
  cases hca : lt c a with
  | false => exact (h.negTrans c a b hc ha hb hca hab).symm
  | true =>
      cases hcb : lt c b with
      | true => rfl
      | false => exact absurd (h.negTrans c b a hc hb ha hcb hba) (by simp [hca])

theorem flip (h : StrictWeakOn lt P) : StrictWeakOn (fun a b => lt b a) P where
  asymm a b ha hb := h.asymm b a hb ha
  negTrans a b c ha hb hc hab hbc := h.negTrans c b a hc hb ha hbc hab

/-- The order of a key in a linear order. -/
theorem of_key {κ : Type} [LinearOrder κ] (key : α → κ) :
    StrictWeakOn (fun a b => decide (key a < key b)) P where
  asymm a b _ _ h := by
    simp only [decide_eq_true_eq, decide_eq_false_iff_not, not_lt] at h ⊢
    exact h.le
  negTrans a b c _ _ _ hab hbc := by
    simp only [decide_eq_false_iff_not, not_lt] at hab hbc ⊢
    exact hbc.trans hab

/-- A key in a linear order is compared first, and `lt` decides between equal keys. -/
theorem lex {κ : Type} [LinearOrder κ] (key : α → κ) (h : StrictWeakOn lt P) :
    StrictWeakOn (fun a b => if key a ≠ key b then decide (key a < key b) else lt a b) P where
  asymm a b ha hb hab := by
    by_cases hk : key a = key b
    · simp only [hk, ne_eq, not_true_eq_false, if_false] at hab ⊢
      exact h.asymm a b ha hb hab
    · simp only [ne_eq, hk, not_false_eq_true, if_true, Ne.symm hk, decide_eq_true_eq,
        decide_eq_false_iff_not, not_lt] at hab ⊢
      exact hab.le
  negTrans a b c ha hb hc hab hbc := by
    have hle : ∀ x y : α, (if key x ≠ key y then decide (key x < key y) else lt x y) = false →
        key y ≤ key x := by
      intro x y hxy
      by_cases hk : key x = key y
      · exact hk.ge
      · simpa [hk] using hxy
    have hba := hle a b hab
    have hcb := hle b c hbc
    by_cases hk : key a = key c
    · -- all three keys agree
      have hab' : key a = key b := le_antisymm (hk.trans_le hcb) hba
      have hbc' : key b = key c := hab'.symm.trans hk
      simp only [hab', hbc', ne_eq, not_true_eq_false, if_false] at hab hbc ⊢
      exact h.negTrans a b c ha hb hc hab hbc
    · simpa [hk] using hcb.trans hba

end StrictWeakOn

/-! ## Comparison sorts -/

/-- The sorted arrangement: no element is followed by one that compares below it. -/
def Sorted (lt : α → α → Bool) (l : List α) : Prop := l.Pairwise (fun a b => lt b a = false)

/-- **A comparison sort.** On lists whose elements `lt` orders weakly, `sort` returns a sorted
rearrangement; two lists whose elements compare alike, position by position, are rearranged
alike (`oblivious`). Where elements compare equal, any order of them is allowed. -/
structure Sorter (lt : α → α → Bool) where
  sort : List α → List α
  perm : ∀ l, (sort l).Perm l
  sorted : ∀ l, StrictWeakOn lt (· ∈ l) → Sorted lt (sort l)
  oblivious : ∀ p : List (α × α), (∀ x ∈ p, ∀ y ∈ p, lt x.1 y.1 = lt x.2 y.2) →
    ∃ q : List (α × α), q.Perm p ∧ q.map Prod.fst = sort (p.map Prod.fst) ∧
      q.map Prod.snd = sort (p.map Prod.snd)

/-- Insertion sort keeps the sorting promise on a list that `lt` orders weakly. -/
theorem sorted_insertionSort (lt : α → α → Bool) (l : List α) (h : StrictWeakOn lt (· ∈ l)) :
    Sorted lt (l.insertionSort (fun a b => lt b a = false)) := by
  -- sort the list of elements paired with their membership, where `lt` is an order
  let r : {a // a ∈ l} → {a // a ∈ l} → Prop := fun a b => lt b.1 a.1 = false
  have htotal : Std.Total r := ⟨fun a b => by
    cases hlt : lt b.1 a.1 with
    | false => exact Or.inl hlt
    | true => exact Or.inr (h.asymm _ _ b.2 a.2 hlt)⟩
  have htrans : IsTrans _ r := ⟨fun a b c hab hbc => h.negTrans _ _ _ c.2 b.2 a.2 hbc hab⟩
  have hs := List.pairwise_insertionSort r l.attach
  have hmap := List.map_insertionSort r (fun a b => lt b a = false) Subtype.val l.attach
    (fun a _ b _ => Iff.rfl)
  rw [List.attach_map_subtype_val] at hmap
  rw [← hmap]
  exact List.pairwise_map.mpr hs

/-- Insertion sort is a comparison sort. -/
def insertionSort (lt : α → α → Bool) : Sorter lt where
  sort l := l.insertionSort (fun a b => lt b a = false)
  perm l := List.perm_insertionSort _ l
  sorted l h := sorted_insertionSort lt l h
  oblivious p h := by
    refine ⟨p.insertionSort (fun x y => lt y.1 x.1 = false), List.perm_insertionSort _ p, ?_, ?_⟩
    · exact List.map_insertionSort _ _ Prod.fst p (fun _ _ _ _ => Iff.rfl)
    · refine List.map_insertionSort _ _ Prod.snd p (fun x hx y hy => ?_)
      rw [h y hy x hx]

/-- **A sorted arrangement is determined by its elements** where elements that compare equal
are equal. -/
theorem Sorted.eq_of_perm {lt : α → α → Bool} {l₁ l₂ : List α} (h₁ : Sorted lt l₁)
    (h₂ : Sorted lt l₂) (hp : l₁.Perm l₂)
    (hsep : ∀ a ∈ l₁, ∀ b ∈ l₁, lt a b = false → lt b a = false → a = b) : l₁ = l₂ := by
  refine hp.eq_of_pairwise (fun a b ha hb hab hba => ?_) h₁ h₂
  exact hsep a ha b (hp.mem_iff.mpr hb) hba hab

theorem Sorter.sort_sorted_eq_self {lt : α → α → Bool} (s : Sorter lt) {l : List α}
    (hl : Sorted lt l) (hweak : StrictWeakOn lt (· ∈ l))
    (hsep : ∀ a ∈ l, ∀ b ∈ l, lt a b = false → lt b a = false → a = b) : s.sort l = l := by
  exact (hl.eq_of_perm (s.sorted l hweak) (s.perm l).symm hsep).symm

/-- Two lists with the same elements are sorted alike where elements that compare equal are
equal. -/
theorem Sorter.sort_eq_of_perm {lt : α → α → Bool} (s : Sorter lt) {l₁ l₂ : List α}
    (hp : l₁.Perm l₂) (hweak : StrictWeakOn lt (· ∈ l₁))
    (hsep : ∀ a ∈ l₁, ∀ b ∈ l₁, lt a b = false → lt b a = false → a = b) :
    s.sort l₁ = s.sort l₂ := by
  have hweak₂ : StrictWeakOn lt (· ∈ l₂) := hweak.mono (fun a ha => hp.mem_iff.mpr ha)
  have hsort : (s.sort l₁).Perm (s.sort l₂) :=
    calc (s.sort l₁).Perm l₁ := s.perm l₁
      _ |>.Perm l₂ := hp
      _ |>.Perm (s.sort l₂) := (s.perm l₂).symm
  apply (s.sorted l₁ hweak).eq_of_perm (s.sorted l₂ hweak₂) hsort
  intro a ha b hb
  exact hsep a ((s.perm l₁).mem_iff.mp ha) b ((s.perm l₁).mem_iff.mp hb)

/-- **A comparison sort cannot tell apart elements that compare equal.** Exchanging two of
them in the input exchanges them in the output: some pair `(a, b)` stands at one position of
the two results. -/
theorem Sorter.exists_mem_zip_of_swap {lt : α → α → Bool} (s : Sorter lt) {l₁ l₂ l₃ : List α}
    {a b : α} (hweak : StrictWeakOn lt (· ∈ l₁ ++ a :: l₂ ++ b :: l₃))
    (hab : lt a b = false) (hba : lt b a = false) :
    (a, b) ∈ (s.sort (l₁ ++ a :: l₂ ++ b :: l₃)).zip (s.sort (l₁ ++ b :: l₂ ++ a :: l₃)) := by
  set l := l₁ ++ a :: l₂ ++ b :: l₃ with hl
  have ha : a ∈ l := by simp [hl]
  have hb : b ∈ l := by simp [hl]
  let p : List (α × α) :=
    l₁.map (fun x => (x, x)) ++ (a, b) :: l₂.map (fun x => (x, x)) ++
      (b, a) :: l₃.map (fun x => (x, x))
  have hfst : p.map Prod.fst = l := by simp [p, hl, Function.comp_def]
  have hsnd : p.map Prod.snd = l₁ ++ b :: l₂ ++ a :: l₃ := by simp [p, Function.comp_def]
  -- the two sides of a pair are equal, or are `a` and `b`
  have hmem : ∀ x ∈ p, x.1 ∈ l ∧ x.2 ∈ l ∧ lt x.1 x.2 = false ∧ lt x.2 x.1 = false := by
    intro x hx
    have hx' : (x.1 ∈ l ∧ x.2 = x.1) ∨ x = (a, b) ∨ x = (b, a) := by
      simp only [p, List.append_assoc, List.cons_append, List.mem_append, List.mem_map,
        List.mem_cons] at hx
      rcases hx with ⟨y, hy, rfl⟩ | rfl | ⟨y, hy, rfl⟩ | rfl | ⟨y, hy, rfl⟩
      · exact Or.inl ⟨by simp [hl, hy], rfl⟩
      · exact Or.inr (Or.inl rfl)
      · exact Or.inl ⟨by simp [hl, hy], rfl⟩
      · exact Or.inr (Or.inr rfl)
      · exact Or.inl ⟨by simp [hl, hy], rfl⟩
    rcases hx' with ⟨hx1, hx2⟩ | rfl | rfl
    · rw [hx2]
      exact ⟨hx1, hx1, hweak.irrefl hx1, hweak.irrefl hx1⟩
    · exact ⟨ha, hb, hab, hba⟩
    · exact ⟨hb, ha, hba, hab⟩
  have hsame : ∀ x ∈ p, ∀ y ∈ p, lt x.1 y.1 = lt x.2 y.2 := by
    intro x hx y hy
    obtain ⟨hx1, hx2, hxl, hxr⟩ := hmem x hx
    obtain ⟨hy1, hy2, hyl, hyr⟩ := hmem y hy
    calc lt x.1 y.1
        = lt x.2 y.1 := hweak.left_eq_of_incomparable hx1 hx2 hy1 hxl hxr
      _ = lt x.2 y.2 := hweak.right_eq_of_incomparable hy1 hy2 hx2 hyl hyr
  obtain ⟨q, hq, hqf, hqs⟩ := s.oblivious p hsame
  rw [hfst] at hqf
  rw [hsnd] at hqs
  have hzip : (s.sort l).zip (s.sort (l₁ ++ b :: l₂ ++ a :: l₃)) = q := by
    rw [← hqf, ← hqs, List.zip_map']
    simp
  rw [hzip]
  exact hq.mem_iff.mpr (by simp [p])

/-- **Sorting commutes with a map** that keeps the comparisons of the elements. -/
theorem Sorter.sort_map {lt : α → α → Bool} (s : Sorter lt) {f : α → α} {l : List α}
    (h : ∀ a ∈ l, ∀ b ∈ l, lt (f a) (f b) = lt a b) : s.sort (l.map f) = (s.sort l).map f := by
  let p : List (α × α) := l.map (fun a => (a, f a))
  have hmem : ∀ x ∈ p, x.1 ∈ l ∧ x.2 = f x.1 := by
    intro x hx
    obtain ⟨a, ha, rfl⟩ := List.mem_map.mp hx
    exact ⟨ha, rfl⟩
  have hsame : ∀ x ∈ p, ∀ y ∈ p, lt x.1 y.1 = lt x.2 y.2 := by
    intro x hx y hy
    rw [(hmem x hx).2, (hmem y hy).2]
    exact (h _ (hmem x hx).1 _ (hmem y hy).1).symm
  obtain ⟨q, hq, hqf, hqs⟩ := s.oblivious p hsame
  have hfst : p.map Prod.fst = l := by
    rw [List.map_map]
    exact List.map_id l
  have hsnd : p.map Prod.snd = l.map f := by
    rw [List.map_map]
    rfl
  rw [hfst] at hqf
  rw [hsnd] at hqs
  rw [← hqs, ← hqf, List.map_map]
  exact List.map_congr_left (fun x hx => (hmem x (hq.mem_iff.mp hx)).2)

/-! ## Priority queues

`lower e f` says that `e` is served after `f`. A queue is the list of its entries in any
order; `popTop` removes an entry that no other is served before. -/

/-- The entry served first and the remaining entries; `none` for an empty queue. -/
def popTop (lower : α → α → Bool) : List α → Option (α × List α)
  | [] => none
  | e :: queue =>
      match popTop lower queue with
      | none => some (e, [])
      | some (top, rest) => if lower e top then some (top, e :: rest) else some (e, queue)

@[simp] theorem popTop_eq_none_iff {lower : α → α → Bool} {queue : List α} :
    popTop lower queue = none ↔ queue = [] := by
  cases queue with
  | nil => simp [popTop]
  | cons e queue =>
      simp only [popTop, reduceCtorEq, iff_false]
      cases popTop lower queue with
      | none => simp
      | some p => dsimp only; split <;> simp

/-- The popped entry and the rest are the entries of the queue. -/
theorem popTop_perm {lower : α → α → Bool} {queue : List α} {top : α} {rest : List α}
    (h : popTop lower queue = some (top, rest)) : queue.Perm (top :: rest) := by
  induction queue generalizing top rest with
  | nil => simp [popTop] at h
  | cons e queue ih =>
      simp only [popTop] at h
      cases hq : popTop lower queue with
      | none =>
          rw [popTop_eq_none_iff] at hq
          subst hq
          simp only [popTop, Option.some.injEq, Prod.mk.injEq] at h
          obtain ⟨rfl, rfl⟩ := h
          exact List.Perm.refl _
      | some p =>
          obtain ⟨m, rest'⟩ := p
          rw [hq] at h
          by_cases hlow : lower e m
          · simp only [hlow, if_true, Option.some.injEq, Prod.mk.injEq] at h
            obtain ⟨rfl, rfl⟩ := h
            exact ((ih hq).cons e).trans (List.Perm.swap m e rest')
          · simp only [hlow, Bool.false_eq_true, if_false, Option.some.injEq,
              Prod.mk.injEq] at h
            obtain ⟨rfl, rfl⟩ := h
            exact List.Perm.refl _

theorem popTop_length {lower : α → α → Bool} {queue : List α} {top : α} {rest : List α}
    (h : popTop lower queue = some (top, rest)) : queue.length = rest.length + 1 := by
  simpa using (popTop_perm h).length_eq

theorem mem_iff_of_popTop {lower : α → α → Bool} {queue : List α} {top : α} {rest : List α}
    (h : popTop lower queue = some (top, rest)) (e : α) :
    e ∈ queue ↔ e = top ∨ e ∈ rest := by
  rw [(popTop_perm h).mem_iff, List.mem_cons]

/-- A queue is popped alike under a map that the comparison does not see. -/
theorem popTop_map {β : Type} {lower : α → α → Bool} {lower' : β → β → Bool} (f : α → β)
    (h : ∀ a b, lower' (f a) (f b) = lower a b) (queue : List α) :
    popTop lower' (queue.map f) = (popTop lower queue).map (Prod.map f (List.map f)) := by
  induction queue with
  | nil => rfl
  | cons e queue ih =>
      simp only [List.map_cons, popTop, ih]
      cases popTop lower queue with
      | none => rfl
      | some p =>
          simp only [Option.map_some, Prod.map, h]
          split_ifs <;> rfl

/-- **No entry is served before the popped one.** -/
theorem popTop_first {lower : α → α → Bool} {queue : List α} {top : α} {rest : List α}
    (hweak : StrictWeakOn lower (· ∈ queue)) (h : popTop lower queue = some (top, rest)) :
    ∀ e ∈ queue, lower top e = false := by
  induction queue generalizing top rest with
  | nil => simp [popTop] at h
  | cons f queue ih =>
      have hweak' : StrictWeakOn lower (· ∈ queue) :=
        hweak.mono (fun a ha => List.mem_cons_of_mem f ha)
      simp only [popTop] at h
      cases hq : popTop lower queue with
      | none =>
          rw [popTop_eq_none_iff] at hq
          subst hq
          simp only [popTop, Option.some.injEq, Prod.mk.injEq] at h
          obtain ⟨rfl, rfl⟩ := h
          intro e he
          obtain rfl : e = f := by simpa using he
          exact hweak.irrefl (by simp)
      | some p =>
          obtain ⟨m, rest'⟩ := p
          have hm : m ∈ queue := (mem_iff_of_popTop hq m).mpr (Or.inl rfl)
          rw [hq] at h
          -- the entry in front of the queue is popped unless it is served after the popped one
          by_cases hlow : lower f m
          · simp only [hlow, if_true, Option.some.injEq, Prod.mk.injEq] at h
            obtain ⟨rfl, rfl⟩ := h
            intro e he
            rcases List.mem_cons.mp he with rfl | he
            · exact hweak.asymm e m (by simp) (by simp [hm]) hlow
            · exact ih hweak' hq e he
          · simp only [hlow, Bool.false_eq_true, if_false, Option.some.injEq,
              Prod.mk.injEq] at h
            obtain ⟨rfl, rfl⟩ := h
            intro e he
            rcases List.mem_cons.mp he with rfl | he
            · exact hweak.irrefl (by simp)
            · exact hweak.negTrans f m e (by simp) (by simp [hm]) (by simp [he])
                (by simpa using hlow) (ih hweak' hq e he)

end Comparison
