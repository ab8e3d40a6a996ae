import RouteEngine.Library.BestFirst
import Mathlib.Data.Prod.Lex

set_option autoImplicit false

/-! # Best-first search that breaks ties by a key

Vertices are ranked by their label and, among equal labels, by a key that tells them apart. Where
every arc makes a walk dearer, a search that always closes the open vertex of least rank closes
all vertices in the order of their ranks (`Ranked.increasing`, `Ranked.before`), and the
predecessor of a vertex is the first vertex from which a cheapest walk reaches it
(`Ranked.pred_le`). -/

namespace Digraph

variable {V W : Type} [LinearOrder W] [Zero W] [Add W] {arc : V → V → W → Prop} {s v : V}

/-- Every arc makes a walk from `s` dearer. -/
def StrictFrom (arc : V → V → W → Prop) (s : V) : Prop :=
  ∀ ⦃u v : V⦄ ⦃w c : W⦄, WalkCost arc s u c → arc u v w → c < c + w

/-- Every walk to an open vertex `v` has a first open vertex `x`, which is labelled with at most
the cost of the walk up to it; unless `x` is `v`, that part costs less than the whole. -/
theorem WalkCost.exists_open_strict [AddRightMono W] {S : V → Prop} {dist : V → W}
    (hs : ¬ S s → dist s ≤ 0) (hopt : ∀ u c, S u → WalkCost arc s u c → dist u ≤ c)
    (hrelaxed : ∀ u v w, S u → ¬ S v → arc u v w → dist v ≤ dist u + w)
    (hstrict : StrictFrom arc s) {c : W} (hw : WalkCost arc s v c) (hv : ¬ S v) :
    ∃ x cx, ¬ S x ∧ dist x ≤ cx ∧ (x = v ∧ cx = c ∨ cx < c) := by
  refine hw.induct (P := fun v c => ¬ S v →
    ∃ x cx, ¬ S x ∧ dist x ≤ cx ∧ (x = v ∧ cx = c ∨ cx < c)) ?_ ?_ hv
  · intro hsS
    exact ⟨s, 0, hsS, hs hsS, Or.inl ⟨rfl, rfl⟩⟩
  · intro u v c w hu ih harc hvS
    by_cases huS : S u
    · -- the walk enters the open vertices at its end
      have hd : dist v ≤ c + w :=
        calc dist v ≤ dist u + w := hrelaxed u v w huS hvS harc
          _ ≤ c + w := add_le_add_left (hopt u c huS hu) w
      exact ⟨v, c + w, hvS, hd, Or.inl ⟨rfl, rfl⟩⟩
    · rcases ih huS with ⟨x, cx, hx, hdx, ⟨-, rfl⟩ | hlt⟩
      · exact ⟨x, cx, hx, hdx, Or.inr (hstrict hu harc)⟩
      · exact ⟨x, cx, hx, hdx, Or.inr (hlt.trans (hstrict hu harc))⟩

end Digraph

namespace BestFirst

open Digraph

variable {V W N : Type} [LinearOrder W] [LinearOrder N]
variable {arc : V → V → W → Prop} {s : V} {a b : State V W} {key : V → N} {u v : V}

/-- The label of a vertex and then its key. -/
def State.rank (key : V → N) (a : State V W) (v : V) : W ×ₗ N := toLex (a.label v, key v)

variable [OrderTop W] [Zero W] [Add W]

/-- Closed vertices carry least costs and were closed in the order of their ranks, before every
open vertex; predecessors are the first of their kind. -/
structure Ranked (arc : V → V → W → Prop) (s : V) (key : V → N) (a : State V W) : Prop where
  optimal : ∀ u ∈ a.closed, ∀ c, WalkCost arc s u c → a.label u ≤ c
  increasing : a.closed.Pairwise (fun v u => a.rank key u < a.rank key v)
  before : ∀ u ∈ a.closed, ∀ v, v ∉ a.closed → ∀ c, WalkCost arc s v c →
    a.rank key u < toLex (c, key v)
  pred_le : ∀ v, v ≠ s → a.label v ≠ ⊤ → ∀ u w, u ∈ a.closed → arc u v w →
    a.label u + w = a.label v → a.rank key (a.pred v) ≤ a.rank key u

namespace Ranked

omit [OrderTop W] in
theorem start [OrderTop W] (hclosed : a.closed = []) : Ranked arc s key a where
  optimal := by simp [hclosed]
  increasing := by simp [hclosed]
  before := by simp [hclosed]
  pred_le := by simp [hclosed]

variable [AddRightMono W]

/-- **The open vertex of least rank comes before every walk to another open vertex**, and no
walk undercuts its label. -/
theorem of_minimal (hstrict : StrictFrom arc s) (hr : Ranked arc s key a) (he : Explored arc s a)
    (hmin : ∀ x, x ∉ a.closed → a.rank key u ≤ a.rank key x) {c : W} (hv : v ∉ a.closed)
    (hw : WalkCost arc s v c) : a.rank key u ≤ toLex (c, key v) := by
  rcases hw.exists_open_strict (S := (· ∈ a.closed)) (fun _ => he.source.le)
      (fun x c hx hc => hr.optimal x hx c hc) (fun x v w hx hv harc => he.relaxed x v w hx hv harc)
      hstrict hv with ⟨x, cx, hx, hle, ⟨rfl, rfl⟩ | hlt⟩
  · -- the vertex itself is the first open one
    refine (hmin x hx).trans ?_
    rw [State.rank, Prod.Lex.toLex_le_toLex]
    rcases hle.lt_or_eq with hlt | heq
    · exact Or.inl hlt
    · exact Or.inr ⟨heq, le_rfl⟩
  · -- the walk passes an open vertex before its end
    have hx' : a.rank key x < toLex (c, key v) := by
      rw [State.rank, Prod.Lex.toLex_lt_toLex]
      exact Or.inl (hle.trans_lt hlt)
    exact ((hmin x hx).trans_lt hx').le

theorem label_le (hstrict : StrictFrom arc s) (hr : Ranked arc s key a) (he : Explored arc s a)
    (hu : u ∉ a.closed) (hmin : ∀ x, x ∉ a.closed → a.rank key u ≤ a.rank key x) {c : W}
    (hw : WalkCost arc s u c) : a.label u ≤ c := by
  have hle := hr.of_minimal hstrict he hmin hu hw
  rw [State.rank, Prod.Lex.toLex_le_toLex] at hle
  rcases hle with hlt | ⟨heq, -⟩
  · exact hlt.le
  · exact heq.le

/-- **Closing the open vertex of least rank keeps the invariant.** -/
theorem expand (hkey : Function.Injective key) (hstrict : StrictFrom arc s)
    (hr : Ranked arc s key a) (he : Explored arc s a) (hab : Expands arc u a b)
    (hu : u ∉ a.closed) (hlabel : a.label u ≠ ⊤)
    (hmin : ∀ x, x ∉ a.closed → a.rank key u ≤ a.rank key x) : Ranked arc s key b := by
  have hkept : ∀ {x}, x ∈ a.closed → b.label x = a.label x :=
    fun hx => (hab.label_eq (hab.mem_closed hx)).1
  have hself : b.label u = a.label u := (hab.label_eq hab.mem_closed_self).1
  have hrank : ∀ {x}, x ∈ a.closed → b.rank key x = a.rank key x :=
    fun hx => by rw [State.rank, hkept hx, State.rank]
  have hranku : b.rank key u = a.rank key u := by rw [State.rank, hself, State.rank]
  -- every closed vertex comes before `u`
  have hlt : ∀ {x}, x ∈ a.closed → a.rank key x < a.rank key u :=
    fun hx => hr.before _ hx u hu _ (he.walk u hlabel)
  constructor
  · exact hab.forall_closed (p := fun x l => ∀ c, WalkCost arc s x c → l ≤ c)
      (fun c hc => hr.label_le hstrict he hu hmin hc) hr.optimal
  · rw [hab.closed_eq, List.pairwise_cons]
    constructor
    · intro x hx
      rw [hranku, hrank hx]
      exact hlt hx
    · refine hr.increasing.imp_of_mem (fun {x y} hx hy hxy => ?_)
      rwa [hrank hx, hrank hy]
  · intro x hx v hv c hc
    have hva : v ∉ a.closed := fun hmem => hv (hab.mem_closed hmem)
    have huv : u ≠ v := fun heq => hv (heq ▸ hab.mem_closed_self)
    rw [hab.closed_eq, List.mem_cons] at hx
    rcases hx with rfl | hx
    · rw [hranku]
      refine lt_of_le_of_ne (hr.of_minimal hstrict he hmin hva hc) fun heq => huv ?_
      exact hkey (congrArg (fun p => (ofLex p).2) heq)
    · rw [hrank hx]
      exact hr.before x hx v hva c hc
  · intro v hvs hv x w hx harc hcost
    rcases hab.lowered v with ⟨heq, hpred⟩ | ⟨hopen, hpred, hless, -⟩
    · -- the predecessor stays: it was closed before `u`
      rw [heq] at hv hcost
      rcases he.pred_closed v hvs hv with ⟨hmem, -⟩
      rw [hpred, hrank hmem]
      rw [hab.closed_eq, List.mem_cons] at hx
      rcases hx with rfl | hx
      · rw [hranku]
        exact (hlt hmem).le
      · rw [hkept hx] at hcost
        rw [hrank hx]
        exact hr.pred_le v hvs hv x w hx harc hcost
    · -- `u` is the new predecessor: no vertex closed before has an arc as good
      rw [hpred]
      rw [hab.closed_eq, List.mem_cons] at hx
      rcases hx with rfl | hx
      · exact le_rfl
      · have hva : v ∉ a.closed := fun hmem => hopen (hab.mem_closed hmem)
        have hle : a.label v ≤ b.label v := by
          rw [← hcost, hkept hx]
          exact he.relaxed x v w hx hva harc
        exact absurd hless (not_lt.mpr hle)

/-- A vertex from which a walk enters `v` at no more than its label is closed, if `v` is or is
the next to be. -/
theorem mem_closed_of_arc (hstrict : StrictFrom arc s) (hr : Ranked arc s key a)
    (he : Explored arc s a)
    (hv : v ∈ a.closed ∨ ∀ x, x ∉ a.closed → a.rank key v ≤ a.rank key x) {w c : W}
    (hw : WalkCost arc s u c) (harc : arc u v w) (hle : c + w ≤ a.label v) : u ∈ a.closed := by
  by_contra hu
  have hlt : c < a.label v := (hstrict hw harc).trans_le hle
  have hrank : a.rank key v ≤ toLex (c, key u) := by
    rcases hv with hv | hmin
    · exact (hr.before v hv u hu c hw).le
    · exact hr.of_minimal hstrict he hmin hu hw
  rw [State.rank, Prod.Lex.toLex_le_toLex] at hrank
  rcases hrank with hgt | ⟨heq, -⟩
  · exact absurd hlt (not_lt.mpr hgt.le)
  · exact absurd hlt (not_lt.mpr heq.le)

/-- The label of such a vertex is its least cost. -/
theorem isLeast (hstrict : StrictFrom arc s) (hr : Ranked arc s key a) (he : Explored arc s a)
    (hv : v ∈ a.closed ∨ ∀ x, x ∉ a.closed → a.rank key v ≤ a.rank key x)
    (hlabel : a.label v ≠ ⊤) : IsLeast {c | WalkCost arc s v c} (a.label v) := by
  refine ⟨he.walk v hlabel, fun c hc => ?_⟩
  by_cases hmem : v ∈ a.closed
  · exact hr.optimal v hmem c hc
  · exact hr.label_le hstrict he hmem (hv.resolve_left hmem) hc

end Ranked

end BestFirst
