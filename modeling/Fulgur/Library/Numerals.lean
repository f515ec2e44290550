import Mathlib.Data.List.Shortlex
import Mathlib.Data.Fin.Basic

/-! # Numerals without a zero

In a numeral no digit means nothing, so that the numerals of the indices are all
lists of digits but the empty one: first those of one digit, then those of two.
Later indices have later numerals, the shorter of two numerals being the earlier.
-/

namespace Numerals

variable {α β : Type} {r : α → α → Prop} {s t : List α}

/-! ## The order by length -/

theorem lex_append (h : List.Lex r s t) (hlength : s.length = t.length) (u v : List α) :
    List.Lex r (s ++ u) (t ++ v) := by
  induction h with
  | nil => cases hlength
  | rel hab => exact .rel hab
  | cons _ ih => exact .cons (ih (Nat.succ.inj hlength))

theorem lex_map {r' : β → β → Prop} {f : α → β} (hf : ∀ a b, r a b → r' (f a) (f b))
    (h : List.Lex r s t) : List.Lex r' (s.map f) (t.map f) := by
  induction h with
  | nil => exact .nil
  | rel hab => exact .rel (hf _ _ hab)
  | cons _ ih => exact .cons ih

theorem shortlex_map {r' : β → β → Prop} {f : α → β} (hf : ∀ a b, r a b → r' (f a) (f b))
    (h : List.Shortlex r s t) : List.Shortlex r' (s.map f) (t.map f) := by
  rw [List.shortlex_def] at h ⊢
  rw [List.length_map, List.length_map]
  exact h.imp id (And.imp id (lex_map hf))

/-- One more digit at the end does not change which of two is the earlier. -/
theorem shortlex_concat (h : List.Shortlex r s t) (a b : α) :
    List.Shortlex r (s ++ [a]) (t ++ [b]) := by
  rcases List.shortlex_def.mp h with hshorter | ⟨hlength, hlex⟩
  · refine .of_length_lt ?_
    rw [List.length_append, List.length_append]
    exact Nat.add_lt_add_right hshorter 1
  · refine .of_lex ?_ (lex_append hlex hlength [a] [b])
    rw [List.length_append, List.length_append, hlength]
    rfl

theorem shortlex_last {a b : α} (h : r a b) (s : List α) :
    List.Shortlex r (s ++ [a]) (s ++ [b]) := by
  have hlast : List.Shortlex r [a] [b] := .of_lex rfl (.rel h)
  exact hlast.append_left s

/-! ## The numerals -/

variable (base : Nat) [NeZero base]

theorem prefix_lt {index : Nat} (h : ¬index < base) : index / base - 1 < index := by
  have hpos : 0 < base := Nat.pos_of_ne_zero (NeZero.ne base)
  have hle : index / base ≤ index := Nat.div_le_self index base
  omega

def numeral (index : Nat) : List (Fin base) :=
  if index < base then [Fin.ofNat base index]
  else numeral (index / base - 1) ++ [Fin.ofNat base index]
termination_by index
decreasing_by exact prefix_lt base ‹_›

theorem numeral_of_lt {index : Nat} (h : index < base) :
    numeral base index = [Fin.ofNat base index] := by
  rw [numeral, if_pos h]

theorem numeral_of_le {index : Nat} (h : base ≤ index) :
    numeral base index = numeral base (index / base - 1) ++ [Fin.ofNat base index] := by
  rw [numeral, if_neg (Nat.not_lt.mpr h)]

theorem numeral_ne_nil (index : Nat) : numeral base index ≠ [] := by
  rw [numeral]
  split <;> simp

/-- Later indices have later numerals. -/
theorem shortlex_numeral {i j : Nat} (h : i < j) :
    List.Shortlex (· < ·) (numeral base i) (numeral base j) := by
  have hpos : 0 < base := Nat.pos_of_ne_zero (NeZero.ne base)
  induction j using Nat.strong_induction_on generalizing i with
  | h j ih =>
      by_cases hj : j < base
      · rw [numeral_of_lt base (h.trans hj), numeral_of_lt base hj, List.shortlex_singleton_iff,
          Fin.lt_def, Fin.val_ofNat, Fin.val_ofNat, Nat.mod_eq_of_lt (h.trans hj),
          Nat.mod_eq_of_lt hj]
        exact h
      · have hj : base ≤ j := Nat.not_lt.mp hj
        rw [numeral_of_le base hj]
        by_cases hi : i < base
        · refine .of_length_lt ?_
          have hsome := List.length_pos_iff.mpr (numeral_ne_nil base (j / base - 1))
          rw [numeral_of_lt base hi, List.length_append, List.length_singleton,
            List.length_singleton]
          omega
        · have hi : base ≤ i := Nat.not_lt.mp hi
          rw [numeral_of_le base hi]
          have hi1 : 1 ≤ i / base := (Nat.one_le_div_iff hpos).mpr hi
          have hle : i / base ≤ j / base := Nat.div_le_div_right h.le
          rcases Nat.lt_or_eq_of_le hle with hlt | heq
          · exact shortlex_concat (ih (j / base - 1) (prefix_lt base (by omega)) (by omega)) _ _
          · -- the same digits before the last one, which is then the smaller one
            rw [heq]
            refine shortlex_last ?_ _
            rw [Fin.lt_def, Fin.val_ofNat, Fin.val_ofNat]
            have hdivi := Nat.div_add_mod i base
            have hdivj := Nat.div_add_mod j base
            rw [heq] at hdivi
            omega

end Numerals
