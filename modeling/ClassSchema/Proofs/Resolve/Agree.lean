import Mathlib.Data.List.Forall2

/-! # Computations that end alike

Two computations agree if both succeed with related results, or both fail with related errors. The
relation follows the sequence of steps, so two long computations agree if each of their steps
does. -/

namespace ClassSchema

universe u v w

/-- Both computations succeed with results that `R` relates, or both fail with errors that `E` does.
-/
inductive Agree {ε : Type u} {α : Type v} {β : Type w} (E : ε → ε → Prop) (R : α → β → Prop) :
    Except ε α → Except ε β → Prop
  | ok {a : α} {b : β} (h : R a b) : Agree E R (.ok a) (.ok b)
  | error {e e' : ε} (h : E e e') : Agree E R (.error e) (.error e')

namespace Agree

variable {ε ε' α β γ δ : Type u} {E : ε → ε → Prop} {R : α → β → Prop} {S : γ → δ → Prop}

/-- A step that does not depend on what may differ agrees with itself. -/
theorem rfl_of (hE : ∀ e, E e e) (x : Except ε α) : Agree E Eq x x := by
  cases x with
  | error e => exact .error (hE e)
  | ok a => exact .ok rfl

/-- What is to be shown of both computations is shown of two results, and of two errors. -/
@[elab_as_elim]
theorem elim {motive : Except ε α → Except ε β → Prop} {x : Except ε α} {y : Except ε β}
    (h : Agree E R x y) (ok : ∀ a b, R a b → motive (.ok a) (.ok b))
    (error : ∀ e e', E e e' → motive (.error e) (.error e')) : motive x y := by
  cases h with
  | ok h => exact ok _ _ h
  | error h => exact error _ _ h

/-- A choice that does not depend on what may differ. -/
theorem ite {c : Prop} [Decidable c] {x x' : Except ε α} {y y' : Except ε β} (h : Agree E R x y)
    (h' : Agree E R x' y') : Agree E R (if c then x else x') (if c then y else y') := by
  split
  · exact h
  · exact h'

/-- A second stage that agrees on related results. -/
theorem bind {x : Except ε α} {y : Except ε β} {f : α → Except ε γ} {g : β → Except ε δ}
    (h : Agree E R x y) (hf : ∀ a b, R a b → Agree E S (f a) (g b)) :
    Agree E S (x >>= f) (y >>= g) := by
  cases h with
  | ok h => exact hf _ _ h
  | error h => exact .error h

/-- Related results are changed to related ones. -/
theorem map {x : Except ε α} {y : Except ε β} {f : α → γ} {g : β → δ} (h : Agree E R x y)
    (hf : ∀ a b, R a b → S (f a) (g b)) : Agree E S (x.map f) (y.map g) := by
  cases h with
  | ok h => exact .ok (hf _ _ h)
  | error h => exact .error h

/-- Related errors are changed to related ones. -/
theorem mapError {E' : ε' → ε' → Prop} {f : ε → ε'} {x : Except ε α} {y : Except ε β}
    (h : Agree E R x y) (hf : ∀ e e', E e e' → E' (f e) (f e')) :
    Agree E' R (x.mapError f) (y.mapError f) := by
  cases h with
  | ok h => exact .ok h
  | error h => exact .error (hf _ _ h)

/-- Steps that agree on the elements of related lists agree on the lists. -/
theorem mapM {as : List α} {bs : List β} {f : α → Except ε γ} {g : β → Except ε δ}
    (h : List.Forall₂ R as bs) (hf : ∀ a b, R a b → Agree E S (f a) (g b)) :
    Agree E (List.Forall₂ S) (as.mapM f) (bs.mapM g) := by
  induction h with
  | nil => exact .ok .nil
  | cons hab _ ih =>
      rw [List.mapM_cons, List.mapM_cons]
      refine (hf _ _ hab).bind fun c d hcd => ?_
      exact ih.bind fun cs ds hcds => .ok (.cons hcd hcds)

/-- The same list on both sides. -/
theorem mapM_same {f : α → Except ε γ} {g : α → Except ε δ} (hf : ∀ a, Agree E S (f a) (g a))
    (as : List α) : Agree E (List.Forall₂ S) (as.mapM f) (as.mapM g) := by
  refine mapM (R := Eq) (List.forall₂_refl as) ?_
  rintro a _ rfl
  exact hf a

end Agree

end ClassSchema
