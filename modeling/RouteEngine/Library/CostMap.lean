import RouteEngine.Library.Walk

set_option autoImplicit false

/-! # Maps between cost arithmetics

A map of costs that keeps zero, infinity and the comparisons, and turns the addition of one
weight into the addition of another. Nothing is asked about sums of costs that are not the cost
of a walk and a weight, so a weight may be followed by one that is not its image. -/

namespace Digraph

variable {V W W' : Type}

/-- Costs keep their comparisons, and zero and infinity are kept. -/
structure CostMap [Zero W] [Top W] [LT W] [BEq W] [Zero W'] [Top W'] [LT W'] [BEq W']
    (φ : W → W') : Prop where
  zero : φ 0 = 0
  top : φ ⊤ = ⊤
  lt_iff : ∀ a b, φ a < φ b ↔ a < b
  beq_eq : ∀ a b, (φ a == φ b) = (a == b)

/-- Adding `w'` to the image of a cost does what adding `w` does to the cost. -/
def ActsAs [Add W] [Add W'] (φ : W → W') (w : W) (w' : W') : Prop := ∀ a, φ (a + w) = φ a + w'

section

variable [Zero W] [Add W] [Zero W'] [Add W'] {φ : W → W'}
  {arc : V → V → W → Prop} {arc' : V → V → W' → Prop} {s v : V}

/-- **A walk can be followed in another digraph**, arc by arc, when every arc has a counterpart
there that keeps the costs related. The relation may depend on the number of arcs. -/
theorem Walk.exists_related_length {R : Nat → W → W' → Prop} (hzero : R 0 0 0)
    (hstep : ∀ {u v w k a a'}, arc u v w → R k a a' →
      ∃ w', arc' u v w' ∧ R (k + 1) (a + w) (a' + w'))
    {vs : List V} {c : W} (h : Walk arc s vs v c) :
    ∃ c', Walk arc' s vs v c' ∧ R vs.length c c' := by
  induction h with
  | nil => exact ⟨0, .nil, hzero⟩
  | snoc _ ha ih =>
      obtain ⟨c', hwalk, hR⟩ := ih
      obtain ⟨w', ha', hR'⟩ := hstep ha hR
      exact ⟨c' + w', hwalk.snoc ha', hR'⟩

theorem Walk.exists_related {R : W → W' → Prop} (hzero : R 0 0)
    (hstep : ∀ {u v w a a'}, arc u v w → R a a' → ∃ w', arc' u v w' ∧ R (a + w) (a' + w'))
    {vs : List V} {c : W} (h : Walk arc s vs v c) : ∃ c', Walk arc' s vs v c' ∧ R c c' := by
  refine h.exists_related_length (R := fun _ => R) hzero ?_
  exact fun ha hR => hstep ha hR

/-- The image of a walk. -/
theorem WalkCost.map (hzero : φ 0 = 0)
    (harc : ∀ u v w, arc u v w → ∃ w', arc' u v w' ∧ ActsAs φ w w') {c : W}
    (h : WalkCost arc s v c) : WalkCost arc' s v (φ c) := by
  obtain ⟨vs, hwalk⟩ := h
  obtain ⟨c', hwalk', rfl⟩ := hwalk.exists_related (R := fun a a' => φ a = a') hzero
    (fun ha hR => by
      obtain ⟨w', ha', hacts⟩ := harc _ _ _ ha
      exact ⟨w', ha', hR ▸ hacts _⟩)
  exact ⟨vs, hwalk'⟩

/-- **Walks in both digraphs have corresponding costs**, when the arcs correspond. -/
theorem walkCost_map_iff (hzero : φ 0 = 0)
    (harc : ∀ u v w, arc u v w → ∃ w', arc' u v w' ∧ ActsAs φ w w')
    (harc' : ∀ u v w', arc' u v w' → ∃ w, arc u v w ∧ ActsAs φ w w') {c' : W'} :
    WalkCost arc' s v c' ↔ ∃ c, WalkCost arc s v c ∧ φ c = c' := by
  constructor
  · rintro ⟨vs, hwalk⟩
    obtain ⟨c, hwalk', hc⟩ := hwalk.exists_related (R := fun a' a => φ a = a') hzero
      (fun ha' hR => by
        obtain ⟨w, ha, hacts⟩ := harc' _ _ _ ha'
        exact ⟨w, ha, hR ▸ hacts _⟩)
    exact ⟨c, ⟨vs, hwalk'⟩, hc⟩
  · rintro ⟨c, hc, rfl⟩
    exact hc.map hzero harc

end

end Digraph
