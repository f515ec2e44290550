import Mathlib.Data.List.Basic
import Mathlib.Data.List.DropRight

/-! # Splitting at a delimiter

A list is split at the first or at the last occurrence of a delimiter, which
belongs to neither part.
-/

namespace Delimiters

variable {α : Type} [DecidableEq α]

def splitFirst (delimiter : α) : List α → Option (List α × List α)
  | [] => none
  | x :: xs =>
      if x = delimiter then some ([], xs)
      else (splitFirst delimiter xs).map fun parts => (x :: parts.1, parts.2)

def splitLast (delimiter : α) : List α → Option (List α × List α)
  | [] => none
  | x :: xs =>
      match splitLast delimiter xs with
      | some (before, after) => some (x :: before, after)
      | none => if x = delimiter then some ([], xs) else none

variable {delimiter : α} {xs before after : List α}

/-! ## The first one -/

theorem splitFirst_append (h : delimiter ∉ before) (after : List α) :
    splitFirst delimiter (before ++ delimiter :: after) = some (before, after) := by
  induction before with
  | nil => exact if_pos rfl
  | cons x before ih =>
      obtain ⟨hx, hbefore⟩ := List.ne_and_not_mem_of_not_mem_cons h
      rw [List.cons_append, splitFirst, if_neg (Ne.symm hx), ih hbefore]
      rfl

theorem splitFirst_eq_none (h : delimiter ∉ xs) : splitFirst delimiter xs = none := by
  induction xs with
  | nil => rfl
  | cons x xs ih =>
      obtain ⟨hx, hxs⟩ := List.ne_and_not_mem_of_not_mem_cons h
      rw [splitFirst, if_neg (Ne.symm hx), ih hxs]
      rfl

theorem notMem_of_splitFirst (h : splitFirst delimiter xs = none) : delimiter ∉ xs := by
  intro hmem
  obtain ⟨start, rest, rfl, hstart⟩ := List.eq_append_cons_of_mem hmem
  rw [splitFirst_append hstart] at h
  cases h

/-- The parts of a list, with the delimiter between them. -/
theorem splitFirst_eq_some (h : splitFirst delimiter xs = some (before, after)) :
    xs = before ++ delimiter :: after ∧ delimiter ∉ before := by
  by_cases hmem : delimiter ∈ xs
  · obtain ⟨start, rest, rfl, hstart⟩ := List.eq_append_cons_of_mem hmem
    rw [splitFirst_append hstart] at h
    cases h
    exact ⟨rfl, hstart⟩
  · rw [splitFirst_eq_none hmem] at h
    exact nomatch h

/-! ## The last one -/

theorem splitLast_eq_none (h : delimiter ∉ xs) : splitLast delimiter xs = none := by
  induction xs with
  | nil => rfl
  | cons x xs ih =>
      obtain ⟨hx, hxs⟩ := List.ne_and_not_mem_of_not_mem_cons h
      rw [splitLast, ih hxs]
      exact if_neg (Ne.symm hx)

theorem splitLast_append (before : List α) (h : delimiter ∉ after) :
    splitLast delimiter (before ++ delimiter :: after) = some (before, after) := by
  induction before with
  | nil =>
      rw [List.nil_append, splitLast, splitLast_eq_none h]
      exact if_pos rfl
  | cons x before ih => rw [List.cons_append, splitLast, ih]

omit [DecidableEq α] in
/-- A list that has the delimiter, cut at the last one. -/
theorem exists_last (h : delimiter ∈ xs) :
    ∃ before after, xs = before ++ delimiter :: after ∧ delimiter ∉ after := by
  obtain ⟨start, rest, hxs, hstart⟩ := List.eq_append_cons_of_mem (List.mem_reverse.mpr h)
  refine ⟨rest.reverse, start.reverse, ?_, fun hmem => hstart (List.mem_reverse.mp hmem)⟩
  rw [← List.reverse_reverse xs, hxs, List.reverse_append, List.reverse_cons, List.append_assoc]
  rfl

/-- The parts of a list, with the delimiter between them. -/
theorem splitLast_eq_some (h : splitLast delimiter xs = some (before, after)) :
    xs = before ++ delimiter :: after ∧ delimiter ∉ after := by
  by_cases hmem : delimiter ∈ xs
  · obtain ⟨start, rest, rfl, hrest⟩ := exists_last hmem
    rw [splitLast_append start hrest] at h
    cases h
    exact ⟨rfl, hrest⟩
  · rw [splitLast_eq_none hmem] at h
    exact nomatch h

/-! ## The last segment

Delimiters are now told by a predicate, and several may stand together.
-/

section LastSegment

variable {isDelimiter : α → Bool} {segment : List α}

/-- The last stretch without delimiters that is not empty. -/
structure IsLastSegment (isDelimiter : α → Bool) (xs before segment after : List α) : Prop where
  parts : xs = before ++ (segment ++ after)
  nonempty : segment ≠ []
  segment : ∀ x ∈ segment, isDelimiter x = false
  after : ∀ x ∈ after, isDelimiter x = true
  before : ∀ x ∈ before.getLast?, isDelimiter x = true

omit [DecidableEq α] in
/-- A list has a last segment, unless it only consists of delimiters. -/
theorem exists_lastSegment (isDelimiter : α → Bool) (xs : List α) :
    (∀ x ∈ xs, isDelimiter x = true) ∨
      ∃ before segment after, IsLastSegment isDelimiter xs before segment after := by
  induction xs using List.reverseRecOn with
  | nil => exact Or.inl nofun
  | append_singleton xs x ih =>
      by_cases hx : isDelimiter x = true
      · rcases ih with hall | ⟨before, segment, after, h⟩
        · exact Or.inl (List.forall_mem_append.mpr ⟨hall, by simpa using hx⟩)
        · refine Or.inr ⟨before, segment, after ++ [x], ?_, h.nonempty, h.segment, ?_, h.before⟩
          · rw [h.parts, List.append_assoc, List.append_assoc]
          · exact List.forall_mem_append.mpr ⟨h.after, by simpa using hx⟩
      · -- the segment goes back from `x` to the delimiter before it
        have hx : isDelimiter x = false := Bool.eq_false_iff.mpr hx
        refine Or.inr ⟨xs.rdropWhile (!isDelimiter ·),
          xs.rtakeWhile (!isDelimiter ·) ++ [x], [], ?_, ?_, ?_, nofun, ?_⟩
        · rw [List.append_nil, ← List.append_assoc, List.rdropWhile_append_rtakeWhile]
        · exact List.append_ne_nil_of_right_ne_nil _ (List.cons_ne_nil x [])
        · refine List.forall_mem_append.mpr ⟨fun y hy => ?_, by simpa using hx⟩
          simpa using List.mem_rtakeWhile_imp hy
        · intro y hy
          obtain ⟨hne, rfl⟩ := List.mem_getLast?_eq_getLast hy
          simpa using List.rdropWhile_last_not (!isDelimiter ·) xs hne

/-- Where a list is split at the delimiters, the last segment is the last part that is not empty. -/
theorem IsLastSegment.find_splitOn {xs before after : List α}
    (h : IsLastSegment (· = delimiter) xs before segment after) :
    (xs.splitOn delimiter).reverse.find? (fun part => part ≠ []) = some segment := by
  obtain ⟨rfl, hne, hsegment, hafter, hbefore⟩ := h
  have hmem : delimiter ∉ segment := fun hmem => by simpa using hsegment delimiter hmem
  induction after using List.reverseRecOn with
  | nil =>
      have hlast : segment.splitOn delimiter = [segment] := List.splitOn_eq_singleton hmem
      rw [List.append_nil]
      rcases List.eq_nil_or_concat before with rfl | ⟨before, x, rfl⟩
      · rw [List.nil_append, hlast]
        simp [hne]
      · rw [List.concat_eq_append] at hbefore ⊢
        obtain rfl : x = delimiter := by simpa using hbefore
        rw [List.append_assoc, List.singleton_append, List.splitOn_append_cons_self, hlast,
          List.reverse_append]
        simp [hne]
  | append_singleton after x ih =>
      rw [List.forall_mem_append] at hafter
      obtain rfl : x = delimiter := by simpa using hafter.2
      have hsplit := List.splitOn_append_cons_self (before ++ (segment ++ after)) ([] : List α)
        (a := x)
      rw [List.append_assoc, List.append_assoc] at hsplit
      rw [hsplit, List.splitOn_nil, List.reverse_append]
      exact (List.find?_cons_of_neg (by simp)).trans (ih hafter.1)

theorem find_splitOn_of_delimiters {xs : List α} (h : ∀ x ∈ xs, x = delimiter) :
    (xs.splitOn delimiter).reverse.find? (fun part => part ≠ []) = none := by
  rw [List.eq_replicate_of_mem h]
  induction xs.length with
  | zero => rfl
  | succ n ih =>
      have hsplit := List.splitOn_append_cons_self ([] : List α) (List.replicate n delimiter)
        (a := delimiter)
      rw [List.replicate_succ]
      rw [List.nil_append] at hsplit
      rw [hsplit, List.splitOn_nil, List.reverse_append, List.find?_append, ih]
      rfl

end LastSegment

/-! ## Numerals -/

/-- A numeral is made of digits. -/
theorem isDigit_of_mem_numeral {n : Nat} {c : Char} (h : c ∈ (toString n).toList) :
    c.isDigit = true := by
  rw [Nat.toString_eq_repr, Nat.toList_repr] at h
  exact Nat.isDigit_of_mem_toDigits (by decide) (by decide) h

theorem notMem_numeral {c : Char} (n : Nat) (h : c.isDigit = false) : c ∉ (toString n).toList := by
  intro hmem
  rw [isDigit_of_mem_numeral hmem] at h
  exact nomatch h

end Delimiters
