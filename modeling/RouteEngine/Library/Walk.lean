import Mathlib.Algebra.Order.Monoid.Unbundled.Basic
import Mathlib.Order.Bounds.Basic
import Mathlib.Logic.Relation

set_option autoImplicit false

/-! # Walks in a weighted digraph and their folded cost

A digraph is a relation `arc u v w` ("an arc of weight `w` leads from `u` to `v`") over
arbitrary vertices `V` and weights `W`. The cost of a walk is folded from the left,
`((0 + w₁) + w₂) + …`, and nothing here asks the addition to be associative or commutative:
what is used of it is monotonicity in the left argument (`AddRightMono`), that an arc never
makes a walk cheaper (`Growing`), and, where a potential guides a search, that the potential
drops by no more than the weight along an arc (`Consistent`). -/

namespace Digraph

variable {V W : Type} [Zero W] [Add W]

/-- `Walk arc s vs v c`: a walk from `s` to `v` of folded cost `c` that visits `vs` before
`v`, the latest vertex first. -/
inductive Walk (arc : V → V → W → Prop) (s : V) : List V → V → W → Prop
  | nil : Walk arc s [] s 0
  | snoc {vs : List V} {u v : V} {c w : W} :
      Walk arc s vs u c → arc u v w → Walk arc s (u :: vs) v (c + w)

/-- Some walk from `s` to `v` has folded cost `c`. -/
def WalkCost (arc : V → V → W → Prop) (s v : V) (c : W) : Prop := ∃ vs, Walk arc s vs v c

/-- `v` can be reached from `s` by arcs. -/
def Reachable (arc : V → V → W → Prop) (s v : V) : Prop :=
  Relation.ReflTransGen (fun a b => ∃ w, arc a b w) s v

variable {arc : V → V → W → Prop} {s : V}

theorem walkCost_nil : WalkCost arc s s 0 := ⟨[], .nil⟩

theorem WalkCost.snoc {u v : V} {c w : W} (h : WalkCost arc s u c) (ha : arc u v w) :
    WalkCost arc s v (c + w) := by
  obtain ⟨vs, hvs⟩ := h
  exact ⟨u :: vs, hvs.snoc ha⟩

theorem WalkCost.reachable {v : V} {c : W} (h : WalkCost arc s v c) : Reachable arc s v := by
  obtain ⟨vs, hvs⟩ := h
  induction hvs with
  | nil => exact .refl
  | snoc _ ha ih => exact ih.tail ⟨_, ha⟩

theorem reachable_iff_exists_walkCost {v : V} :
    Reachable arc s v ↔ ∃ c, WalkCost arc s v c := by
  constructor
  · intro h
    induction h with
    | refl => exact ⟨0, walkCost_nil⟩
    | tail _ ha ih =>
        obtain ⟨c, hc⟩ := ih
        obtain ⟨w, hw⟩ := ha
        exact ⟨c + w, hc.snoc hw⟩
  · rintro ⟨c, hc⟩
    exact hc.reachable

/-- A property of the source that every arc carries over holds of the end of every walk. -/
theorem WalkCost.induct {P : V → W → Prop} (h0 : P s 0)
    (hstep : ∀ {u v : V} {c w : W}, WalkCost arc s u c → P u c → arc u v w → P v (c + w))
    {v : V} {c : W} (h : WalkCost arc s v c) : P v c := by
  obtain ⟨vs, hvs⟩ := h
  induction hvs with
  | nil => exact h0
  | snoc hu ha ih => exact hstep ⟨_, hu⟩ ih ha

/-- More arcs leave every walk there. -/
theorem WalkCost.mono {arc' : V → V → W → Prop} (hsub : ∀ ⦃u v w⦄, arc u v w → arc' u v w)
    {v : V} {c : W} (h : WalkCost arc s v c) : WalkCost arc' s v c :=
  h.induct (P := fun v c => WalkCost arc' s v c) walkCost_nil
    (fun _ hu ha => hu.snoc (hsub ha))

/-! ## Renamed vertices -/

/-- The digraph in which the vertices have the names `f`. -/
def Renamed {U : Type} (f : V → U) (arc : V → V → W → Prop) (x y : U) (w : W) : Prop :=
  ∃ u v, arc u v w ∧ f u = x ∧ f v = y

/-- Names that tell the vertices of `C` apart change no walk in `C`. -/
theorem walkCost_renamed_iff {U : Type} {f : V → U} {C : V → Prop}
    (hf : ∀ ⦃u v⦄, C u → C v → f u = f v → u = v) (harc : ∀ ⦃u v w⦄, arc u v w → C u ∧ C v)
    (hs : C s) {v : V} (hv : C v) {c : W} :
    WalkCost (Renamed f arc) (f s) (f v) c ↔ WalkCost arc s v c := by
  constructor
  · intro h
    have hback : ∃ u, C u ∧ f u = f v ∧ WalkCost arc s u c := by
      refine h.induct (P := fun y c => ∃ u, C u ∧ f u = y ∧ WalkCost arc s u c)
        ⟨s, hs, rfl, walkCost_nil⟩ ?_
      rintro _ _ c w - ⟨u, hu, rfl, hwalk⟩ ⟨u', v', ha, hu', rfl⟩
      obtain rfl : u' = u := hf (harc ha).1 hu hu'
      exact ⟨v', (harc ha).2, rfl, hwalk.snoc ha⟩
    obtain ⟨u, hu, heq, hwalk⟩ := hback
    rwa [hf hu hv heq] at hwalk
  · intro h
    exact h.induct (P := fun v c => WalkCost (Renamed f arc) (f s) (f v) c) walkCost_nil
      (fun _ hwalk ha => hwalk.snoc ⟨_, _, ha, rfl, rfl⟩)

/-! ## Arcs that never make a walk cheaper -/

section Order

variable [LinearOrder W]

/-- No arc makes a walk cheaper, whatever has been paid before it. -/
def Growing (arc : V → V → W → Prop) : Prop :=
  ∀ ⦃u v : V⦄ ⦃w : W⦄, arc u v w → ∀ a, a ≤ a + w

/-- Along an arc the potential `h` drops by at most the weight, whatever has been paid
before it. -/
def Consistent (arc : V → V → W → Prop) (h : V → W) : Prop :=
  ∀ ⦃u v : V⦄ ⦃w : W⦄, arc u v w → ∀ a, a + h u ≤ a + w + h v

/-- Along an arc the potential drops by at most the weight, whatever a walk from `s` has paid
before it. -/
def ConsistentFrom (arc : V → V → W → Prop) (s : V) (h : V → W) : Prop :=
  ∀ ⦃u v : V⦄ ⦃w c : W⦄, WalkCost arc s u c → arc u v w → c + h u ≤ c + w + h v

theorem Consistent.from {h : V → W} (hcons : Consistent arc h) (s : V) :
    ConsistentFrom arc s h :=
  fun _ _ _ c _ harc => hcons harc c

theorem WalkCost.nonneg (hgrow : Growing arc) {v : V} {c : W} (h : WalkCost arc s v c) :
    0 ≤ c :=
  h.induct (P := fun _ c => 0 ≤ c) le_rfl (fun _ hc ha => hc.trans (hgrow ha _))

/-- Cutting a walk at a vertex it visits leaves a walk that is not dearer. -/
theorem Walk.exists_cut (hgrow : Growing arc) {vs : List V} {u x : V} {c : W}
    (h : Walk arc s vs u c) (hx : x ∈ u :: vs) :
    ∃ vs' c', Walk arc s vs' x c' ∧ c' ≤ c ∧ (x :: vs') <:+ (u :: vs) := by
  induction h with
  | nil =>
      obtain rfl : x = s := by simpa using hx
      exact ⟨[], 0, .nil, le_rfl, List.suffix_refl _⟩
  | @snoc vs u v c w hu ha ih =>
      rcases List.mem_cons.mp hx with rfl | hx
      · exact ⟨u :: vs, c + w, hu.snoc ha, le_rfl, List.suffix_refl _⟩
      · obtain ⟨vs', c', hw, hle, hsuf⟩ := ih hx
        exact ⟨vs', c', hw, hle.trans (hgrow ha c), hsuf.trans (List.suffix_cons _ _)⟩

/-- **Cycles can be cut out.** For every walk there is one to the same vertex that repeats no
vertex and is not dearer. Only monotonicity of the addition is used, not associativity. -/
theorem Walk.exists_simple [AddRightMono W] (hgrow : Growing arc) {vs : List V} {v : V} {c : W}
    (h : Walk arc s vs v c) :
    ∃ vs' c', Walk arc s vs' v c' ∧ c' ≤ c ∧ (v :: vs').Nodup := by
  induction h with
  | nil => exact ⟨[], 0, .nil, le_rfl, by simp⟩
  | @snoc vs u v c w _ ha ih =>
      obtain ⟨vs', c', hw, hle, hnd⟩ := ih
      by_cases hv : v ∈ u :: vs'
      · -- the new arc closes a cycle: keep the part of the walk before it
        obtain ⟨vs'', c'', hw', hle', hsuf⟩ := hw.exists_cut hgrow hv
        have hcheap : c'' ≤ c + w :=
          calc c'' ≤ c' := hle'
            _ ≤ c := hle
            _ ≤ c + w := hgrow ha c
        exact ⟨vs'', c'', hw', hcheap, hnd.sublist hsuf.sublist⟩
      · exact ⟨u :: vs', c' + w, hw.snoc ha, add_le_add_left hle w,
          List.nodup_cons.mpr ⟨hv, hnd⟩⟩

/-! ## The first open vertex of a walk

`S` is the set of vertices a search has closed, `dist` its labels and `h` its potential. -/

/-- **Frontier crossing.** Every walk to an open vertex `v` has a first open vertex `x`. If
the labels of closed vertices bound every walk to them from below and their arcs have been
relaxed, then `x` is labelled with at most the cost of the walk up to `x`, and that cost plus
the potential at `x` is at most the cost of the whole walk plus the potential at `v`. -/
theorem WalkCost.exists_open [AddRightMono W] {S : V → Prop} {dist h : V → W}
    (hs : ¬ S s → dist s ≤ 0)
    (hopt : ∀ u c, S u → WalkCost arc s u c → dist u ≤ c)
    (hrelaxed : ∀ u v w, S u → ¬ S v → arc u v w → dist v ≤ dist u + w)
    (hcons : ConsistentFrom arc s h) {v : V} {c : W} (hw : WalkCost arc s v c) (hv : ¬ S v) :
    ∃ x cx, ¬ S x ∧ WalkCost arc s x cx ∧ dist x ≤ cx ∧ cx + h x ≤ c + h v := by
  refine hw.induct (P := fun v c => ¬ S v →
    ∃ x cx, ¬ S x ∧ WalkCost arc s x cx ∧ dist x ≤ cx ∧ cx + h x ≤ c + h v) ?_ ?_ hv
  · intro hsS
    exact ⟨s, 0, hsS, walkCost_nil, hs hsS, le_rfl⟩
  · intro u v c w hu ih ha hvS
    by_cases huS : S u
    · have hd : dist v ≤ c + w :=
        calc dist v ≤ dist u + w := hrelaxed u v w huS hvS ha
          _ ≤ c + w := add_le_add_left (hopt u c huS hu) w
      exact ⟨v, c + w, hvS, hu.snoc ha, hd, le_rfl⟩
    · obtain ⟨x, cx, hx, hwx, hdx, hle⟩ := ih huS
      exact ⟨x, cx, hx, hwx, hdx, hle.trans (hcons hu ha)⟩

/-- **The greedy choice is safe.** Under the hypotheses of `WalkCost.exists_open`, an open
vertex whose label plus potential is minimal among the open vertices is labelled with a lower
bound of every walk to it. -/
theorem WalkCost.label_le_of_minimal [AddRightMono W] {S : V → Prop} {dist h : V → W}
    (hs : ¬ S s → dist s ≤ 0)
    (hopt : ∀ u c, S u → WalkCost arc s u c → dist u ≤ c)
    (hrelaxed : ∀ u v w, S u → ¬ S v → arc u v w → dist v ≤ dist u + w)
    (hcons : ConsistentFrom arc s h) {v : V} {c : W} (hw : WalkCost arc s v c) (hv : ¬ S v)
    (hcancel : ∀ b : W, dist v + h v ≤ b + h v → dist v ≤ b)
    (hmin : ∀ x cx, ¬ S x → WalkCost arc s x cx → dist x ≤ cx → dist v + h v ≤ dist x + h x) :
    dist v ≤ c := by
  obtain ⟨x, cx, hx, hwx, hdx, hle⟩ := hw.exists_open hs hopt hrelaxed hcons hv
  apply hcancel
  calc dist v + h v
      ≤ dist x + h x := hmin x cx hx hwx hdx
    _ ≤ cx + h x := add_le_add_left hdx (h x)
    _ ≤ c + h v := hle

/-! ## Relaxed labels

`a` and `b` label the vertices before and after a round that relaxes every arc. -/

/-- Labels that no arc can lower bound every walk from below. -/
theorem WalkCost.label_le_of_relaxed [AddRightMono W] {a : V → W} (hs : a s ≤ 0)
    (hrelaxed : ∀ u v w, arc u v w → a v ≤ a u + w) {v : V} {c : W}
    (hw : WalkCost arc s v c) : a v ≤ c :=
  hw.induct (P := fun v c => a v ≤ c) hs
    (fun _ hu harc => (hrelaxed _ _ _ harc).trans (add_le_add_left hu _))

/-- A round that relaxes every arc bounds the walks with one more arc. -/
theorem Walk.label_le_succ [AddRightMono W] {a b : V → W} {k : Nat} (hle : ∀ v, b v ≤ a v)
    (hrelaxed : ∀ u v w, arc u v w → b v ≤ a u + w)
    (hk : ∀ vs v c, Walk arc s vs v c → vs.length ≤ k → a v ≤ c) :
    ∀ vs v c, Walk arc s vs v c → vs.length ≤ k + 1 → b v ≤ c := by
  intro vs v c hw hlen
  cases hw with
  | nil => exact (hle s).trans (hk [] s 0 .nil (Nat.zero_le k))
  | @snoc vs u _ c w hu harc =>
      have hlen' : vs.length ≤ k := by simpa using hlen
      exact (hrelaxed u v w harc).trans (add_le_add_left (hk vs u c hu hlen') w)

end Order

end Digraph
