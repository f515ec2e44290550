import Mathlib.Logic.Function.Basic

/-! # Records by their fields

A record is known by the values of its fields, and setting a field changes that
value and no other. After a list of assignments each field has the value that it
was assigned last.
-/

/-- How a record of type `σ` is read and written by its fields. -/
structure Fields (σ ι : Type) [DecidableEq ι] (Value : ι → Type) where
  get : σ → (i : ι) → Value i
  set : σ → (i : ι) → Value i → σ
  get_set : ∀ s i value, get (set s i value) = Function.update (get s) i value
  ext : ∀ s t, get s = get t → s = t

namespace Fields

variable {σ ι : Type} [DecidableEq ι] {Value : ι → Type}

def lastAssigned (values : (i : ι) → Value i) (assignments : List (Σ i, Value i)) :
    (i : ι) → Value i :=
  assignments.foldl
    (fun values assignment => Function.update values assignment.1 assignment.2) values

variable (fields : Fields σ ι Value)

def assign (s : σ) (assignments : List (Σ i, Value i)) : σ :=
  assignments.foldl (fun s assignment => fields.set s assignment.1 assignment.2) s

theorem get_assign (s : σ) (assignments : List (Σ i, Value i)) :
    fields.get (fields.assign s assignments) = lastAssigned (fields.get s) assignments := by
  induction assignments generalizing s with
  | nil => rfl
  | cons assignment rest ih =>
      have hrest := ih (fields.set s assignment.1 assignment.2)
      rw [fields.get_set] at hrest
      exact hrest

end Fields
