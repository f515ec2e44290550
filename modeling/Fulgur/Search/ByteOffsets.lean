import Mathlib.Algebra.GroupWithZero.Nat
import Mathlib.Data.List.Basic

/-! # Byte offsets into a text

A text is sliced at byte offsets, and can only be sliced between two characters.
-/

namespace Fulgur

/-- `str::is_char_boundary`. -/
def isCharBoundary : Nat → List Char → Bool
  | 0, _ => true
  | _ + 1, [] => false
  | n + 1, c :: cs => c.utf8Size ≤ n + 1 && isCharBoundary (n + 1 - c.utf8Size) cs

/-- The text up to a byte offset. -/
def textUpTo : Nat → List Char → List Char
  | 0, _ => []
  | _ + 1, [] => []
  | n + 1, c :: cs => c :: textUpTo (n + 1 - c.utf8Size) cs

/-- The text from a byte offset on. -/
def textFrom : Nat → List Char → List Char
  | 0, cs => cs
  | _ + 1, [] => []
  | n + 1, c :: cs => textFrom (n + 1 - c.utf8Size) cs

def byteLen (text : List Char) : Nat := (text.map Char.utf8Size).sum

/-! ## Offsets between two characters -/

variable {n : Nat} {text before after : List Char}

@[simp] theorem byteLen_nil : byteLen [] = 0 := rfl

theorem byteLen_cons (c : Char) (cs : List Char) : byteLen (c :: cs) = c.utf8Size + byteLen cs := by
  rw [byteLen, List.map_cons, List.sum_cons]
  rfl

theorem byteLen_append (before after : List Char) :
    byteLen (before ++ after) = byteLen before + byteLen after := by
  rw [byteLen, List.map_append, List.sum_append]
  rfl

theorem length_le_byteLen (text : List Char) : text.length ≤ byteLen text := by
  induction text with
  | nil => exact Nat.le_refl 0
  | cons c cs ih =>
      have hsize := c.utf8Size_pos
      rw [byteLen_cons, List.length_cons]
      omega

theorem byteLen_pos (h : text ≠ []) : 0 < byteLen text :=
  Nat.lt_of_lt_of_le (List.length_pos_iff.mpr h) (length_le_byteLen text)

theorem offset_cons (c : Char) (cs : List Char) :
    ∃ n, byteLen (c :: cs) = n + 1 ∧ c.utf8Size ≤ n + 1 ∧ n + 1 - c.utf8Size = byteLen cs := by
  have hsize := c.utf8Size_pos
  have hlen := byteLen_cons c cs
  exact ⟨byteLen (c :: cs) - 1, by omega, by omega, by omega⟩

theorem isCharBoundary_append (before after : List Char) :
    isCharBoundary (byteLen before) (before ++ after) = true := by
  induction before with
  | nil => cases after <;> rfl
  | cons c before ih =>
      obtain ⟨n, hlen, hle, hsub⟩ := offset_cons c before
      rw [hlen, List.cons_append, isCharBoundary, hsub, ih, decide_eq_true hle]
      rfl

theorem textFrom_append (before after : List Char) :
    textFrom (byteLen before) (before ++ after) = after := by
  induction before with
  | nil => cases after <;> rfl
  | cons c before ih =>
      obtain ⟨n, hlen, -, hsub⟩ := offset_cons c before
      rw [hlen, List.cons_append, textFrom, hsub, ih]

theorem textUpTo_append (before after : List Char) :
    textUpTo (byteLen before) (before ++ after) = before := by
  induction before with
  | nil => cases after <;> rfl
  | cons c before ih =>
      obtain ⟨n, hlen, -, hsub⟩ := offset_cons c before
      rw [hlen, List.cons_append, textUpTo, hsub, ih]

/-- A text can be sliced just after each part of it. -/
theorem isCharBoundary_iff :
    isCharBoundary n text = true ↔
      ∃ before after, text = before ++ after ∧ byteLen before = n := by
  constructor
  · intro h
    induction text generalizing n with
    | nil =>
        cases n with
        | zero => exact ⟨[], [], rfl, rfl⟩
        | succ n => exact nomatch h
    | cons c cs ih =>
        cases n with
        | zero => exact ⟨[], c :: cs, rfl, rfl⟩
        | succ n =>
            simp only [isCharBoundary, Bool.and_eq_true, decide_eq_true_eq] at h
            obtain ⟨before, after, rfl, hlen⟩ := ih h.2
            refine ⟨c :: before, after, rfl, ?_⟩
            rw [byteLen_cons]
            omega
  · rintro ⟨before, after, rfl, rfl⟩
    exact isCharBoundary_append before after

theorem eq_of_byteLen_eq {before' after' : List Char} (htext : before ++ after = before' ++ after')
    (hlen : byteLen before = byteLen before') : before = before' := by
  rw [← textUpTo_append before after, htext, hlen, textUpTo_append]

end Fulgur
