import Mathlib.Order.WithBot
import RouteEngine.Library.Comparison

set_option autoImplicit false

/-! # Values of the route engine

Identifiers, coordinates, arcs and the ways a call can end without returning
(`include/route/types.hpp`, `include/route/errors.hpp`).

The scalar type `double` is a type variable `F`. Each definition asks for the operators it
uses (`+`, `<`, `==`, `0.0`, `infinity()`) as instances, so that the same definition can be
read over IEEE values, over an exact ordered field with a top element, or over any other
arithmetic a result needs. -/

namespace RouteEngine

/-- Dense internal node identifier, `enum class NodeId : std::uint32_t`. -/
abbrev NodeId := UInt32

/-- Node identifier as it appears in input files. -/
abbrev ExternalId := UInt64

/-- `std::isfinite`. -/
class IsFinite (F : Type) where
  isFinite : F → Bool

export IsFinite (isFinite)

/-- In a linearly ordered arithmetic with a top element, only the top is not finite. -/
instance (priority := low) instIsFiniteOfOrderTop {W : Type} [LinearOrder W] [OrderTop W] :
    IsFinite W where
  isFinite x := decide (x ≠ ⊤)

@[simp] theorem isFinite_eq_true_iff {W : Type} [LinearOrder W] [OrderTop W] (x : W) :
    isFinite x = true ↔ x ≠ ⊤ := by
  simp [isFinite]

/-- `<` is a strict weak order on the finite values: it orders them up to values that
compare equal. -/
class FiniteOrder (F : Type) [IsFinite F] [LT F] [DecidableLT F] : Prop where
  weak : Comparison.StrictWeakOn (fun a b : F => decide (a < b)) (fun a => isFinite a = true)

instance {W : Type} [LinearOrder W] [OrderTop W] : FiniteOrder W where
  weak := .of_key id

/-- Projected planar coordinate. -/
structure Coord (F : Type) where
  x : F
  y : F
  deriving DecidableEq, Repr

/-- `Coord{}`. -/
def Coord.zero {F : Type} [Zero F] : Coord F := ⟨0, 0⟩

/-- One directed arc, stored in the CSR arc array. -/
structure Arc (F : Type) where
  target : NodeId
  weight : F
  deriving DecidableEq, Repr

/-! ## Ways a call ends without returning -/

/-- The exceptions of `errors.hpp`, `std::out_of_range` and any other `std::exception`, and two
outcomes that no exception reports: a subscript outside its vector and a loop that does not
end. -/
inductive Failure where
  | graphValidation (message : String)
  | graphLoad (file : String) (line : Nat) (message : String)
  | heuristicContract (message : String)
  | benchmarkAgreement (message : String)
  | outOfRange (message : String)
  | standard (message : String)
  | undefinedBehavior
  | diverged
  deriving DecidableEq, Repr

/-- `format_load_message`: the text of a `GraphLoadError`. -/
def formatLoadMessage (file : String) (line : Nat) (message : String) : String :=
  if line = 0 then file ++ ": " ++ message
  else file ++ ":" ++ toString line ++ ": " ++ message

/-- A call that returns a value or ends in a `Failure`. -/
abbrev Outcome (α : Type) := Except Failure α

@[simp] theorem ok_bind {α β : Type} (a : α) (f : α → Outcome β) :
    (Except.ok a >>= f) = f a := rfl

@[simp] theorem error_bind {α β : Type} (e : Failure) (f : α → Outcome β) :
    ((Except.error e : Outcome α) >>= f) = .error e := rfl

@[simp] theorem pure_eq_ok {α : Type} (a : α) : (pure a : Outcome α) = .ok a := rfl

@[simp] theorem throw_eq_error {α : Type} (e : Failure) :
    (throw e : Outcome α) = .error e := rfl

/-- A sequence of two calls returns only if both do. -/
theorem bind_eq_ok {α β : Type} {x : Outcome α} {f : α → Outcome β} {b : β} :
    (x >>= f) = .ok b ↔ ∃ a, x = .ok a ∧ f a = .ok b := by
  cases x with
  | ok a => simp
  | error e => simp

theorem map_eq_ok {α β : Type} {x : Outcome α} {f : α → β} {b : β} :
    x.map f = .ok b ↔ ∃ a, x = .ok a ∧ f a = b := by
  cases x with
  | ok a => simp [Except.map]
  | error e => simp [Except.map]

/-- `vector[i]`, which is undefined outside the vector. -/
def subscript {α : Type} (vector : List α) (i : Nat) : Outcome α :=
  match vector[i]? with
  | some a => .ok a
  | none => .error .undefinedBehavior

theorem subscript_eq_ok {α : Type} {vector : List α} {i : Nat} {a : α} :
    subscript vector i = .ok a ↔ vector[i]? = some a := by
  unfold subscript
  cases vector[i]? with
  | none => simp
  | some b => simp

/-- A loop over a list whose every round returns, as the invariant `P` guarantees, returns
what the pure rounds compute, and keeps the invariant. -/
theorem foldlM_eq_ok {α σ : Type} {f : σ → α → Outcome σ} {g : σ → α → σ} (P : σ → Prop) :
    ∀ (l : List α), (∀ a ∈ l, ∀ s, P s → f s a = .ok (g s a) ∧ P (g s a)) →
      ∀ s, P s → l.foldlM f s = .ok (l.foldl g s) ∧ P (l.foldl g s) := by
  intro l
  induction l with
  | nil => intro _ s hs; exact ⟨rfl, hs⟩
  | cons a l ih =>
      intro h s hs
      obtain ⟨hf, hP⟩ := h a (by simp) s hs
      have hl := ih (fun b hb => h b (by simp [hb])) (g s a) hP
      rw [List.foldlM_cons, hf, ok_bind, List.foldl_cons]
      exact hl

/-- A loop that collects the results of calls that return. -/
theorem mapM_eq_ok {α β : Type} {f : α → Outcome β} {g : α → β} {l : List α}
    (h : ∀ a ∈ l, f a = .ok (g a)) : l.mapM f = .ok (l.map g) := by
  induction l with
  | nil => rfl
  | cons a l ih =>
      rw [List.mapM_cons, h a (by simp), ok_bind, ih (fun b hb => h b (by simp [hb])), ok_bind]
      rfl

end RouteEngine
