import Mathlib.Data.List.Basic

/-! # Fallible computations

A computation in `Except` that ends well is peeled apart at its binds, and put
together again from steps that are known to end well.
-/

namespace Fallible

variable {ε ε' α β : Type}

/-- A sequence ends well when its first part does and the rest does from there. -/
theorem bind_eq_ok {x : Except ε α} {f : α → Except ε β} {b : β} :
    x >>= f = .ok b ↔ ∃ a, x = .ok a ∧ f a = .ok b := by
  cases x with
  | error e => simp [bind, Except.bind]
  | ok a => simp [bind, Except.bind]

@[simp] theorem ok_bind (a : α) (f : α → Except ε β) : (Except.ok a >>= f) = f a := rfl

@[simp] theorem pure_eq_ok (a : α) : (pure a : Except ε α) = .ok a := rfl

@[simp] theorem mapError_ok (a : α) (f : ε → ε') : (Except.ok a).mapError f = .ok a := rfl

theorem mapError_eq_ok {x : Except ε α} {f : ε → ε'} {a : α} :
    x.mapError f = .ok a ↔ x = .ok a := by
  cases x with
  | error e => simp [Except.mapError]
  | ok a => simp [Except.mapError]

/-- Decoding a list of rows that all decode. -/
theorem mapM_ok_of_forall {f : α → Except ε β} {g : α → β} {rows : List α}
    (h : ∀ row ∈ rows, f row = .ok (g row)) : rows.mapM f = .ok (rows.map g) := by
  induction rows with
  | nil => rfl
  | cons row rows ih =>
      have hrow : f row = .ok (g row) := h row List.mem_cons_self
      have hrows := ih fun r hr => h r (List.mem_cons_of_mem row hr)
      rw [List.mapM_cons, hrow, hrows]
      rfl

end Fallible
