import Mathlib.Data.List.Basic

/-! # Lines of a text

A text is lines, each ended by a newline, and a tail that is not ended. A reader
of lines takes a carriage return before the newline for part of the line's end.
-/

namespace Lines

/-- The ended lines and the tail; newlines belong to neither. -/
def split : List Char → List (List Char) × List Char
  | [] => ([], [])
  | c :: rest =>
      if c = '\n' then ([] :: (split rest).1, (split rest).2)
      else
        match split rest with
        | ([], tail) => ([], c :: tail)
        | (line :: lines, tail) => ((c :: line) :: lines, tail)

def dropReturn (line : List Char) : List Char :=
  if line.getLast? = some '\r' then line.dropLast else line

/-- What a reader yields up to the end of the text; an empty tail is no line. -/
def read (text : List Char) : List (List Char) :=
  (split text).1.map dropReturn ++ if (split text).2 = [] then [] else [(split text).2]

/-- What a reader yields when the tail cannot be read. -/
def readEnded (text : List Char) : List (List Char) := (split text).1.map dropReturn

/-! ## Putting lines together -/

@[simp] theorem split_nil : split [] = ([], []) := rfl

theorem split_newline (rest : List Char) :
    split ('\n' :: rest) = ([] :: (split rest).1, (split rest).2) := by
  simp [split]

theorem split_tail {tail : List Char} (h : '\n' ∉ tail) : split tail = ([], tail) := by
  induction tail with
  | nil => rfl
  | cons c tail ih =>
      obtain ⟨hc, htail⟩ := List.ne_and_not_mem_of_not_mem_cons h
      simp [split, Ne.symm hc, ih htail]

theorem split_line {line : List Char} (h : '\n' ∉ line) (rest : List Char) :
    split (line ++ '\n' :: rest) = (line :: (split rest).1, (split rest).2) := by
  induction line with
  | nil => exact split_newline rest
  | cons c line ih =>
      obtain ⟨hc, hline⟩ := List.ne_and_not_mem_of_not_mem_cons h
      simp [split, Ne.symm hc, ih hline]

/-- Lines without newlines, each ended by one, and a tail without one. -/
theorem split_lines {lines : List (List Char)} (hlines : ∀ line ∈ lines, '\n' ∉ line)
    {tail : List Char} (htail : '\n' ∉ tail) :
    split ((lines.flatMap fun line => line ++ ['\n']) ++ tail) = (lines, tail) := by
  induction lines with
  | nil => exact split_tail htail
  | cons line lines ih =>
      have hfirst := hlines line List.mem_cons_self
      have hrest := ih fun other hother => hlines other (List.mem_cons_of_mem line hother)
      have hassoc : (((line :: lines).flatMap fun line => line ++ ['\n']) ++ tail) =
          line ++ '\n' :: ((lines.flatMap fun line => line ++ ['\n']) ++ tail) := by simp
      rw [hassoc, split_line hfirst, hrest]

/-- No part has a newline in it. -/
theorem newline_notMem_split (text : List Char) :
    (∀ line ∈ (split text).1, '\n' ∉ line) ∧ '\n' ∉ (split text).2 := by
  induction text with
  | nil => simp
  | cons c rest ih =>
      by_cases hc : c = '\n'
      · subst hc
        rw [split_newline]
        exact ⟨fun line hline => (List.mem_cons.mp hline).elim (fun h => by simp [h])
          (ih.1 line), ih.2⟩
      · simp only [split, hc, if_false]
        split
        · rename_i tail heq
          rw [heq] at ih
          exact ⟨by simp, by simpa [Ne.symm hc] using ih.2⟩
        · rename_i line lines tail heq
          rw [heq] at ih
          refine ⟨fun other hother => ?_, ih.2⟩
          cases List.mem_cons.mp hother with
          | inl hsame =>
              have hline := ih.1 line List.mem_cons_self
              simpa [hsame, Ne.symm hc] using hline
          | inr hrest => exact ih.1 other (List.mem_cons_of_mem line hrest)

theorem dropReturn_sublist (line : List Char) : (dropReturn line).Sublist line := by
  unfold dropReturn
  split
  · exact List.dropLast_sublist line
  · exact List.Sublist.refl line

/-- A line is read as it is exactly when it has no carriage return at its end. -/
theorem dropReturn_eq_self {line : List Char} :
    dropReturn line = line ↔ line.getLast? ≠ some '\r' := by
  unfold dropReturn
  split
  · rename_i hreturn
    constructor
    · intro hsame
      have hlength := congrArg List.length hsame
      have hpos : line ≠ [] := fun hnil => by simp [hnil] at hreturn
      have := List.length_pos_iff.mpr hpos
      rw [List.length_dropLast] at hlength
      omega
    · exact fun hnot => absurd hreturn hnot
  · rename_i hnot
    exact iff_of_true rfl hnot

theorem newline_notMem_read {text line : List Char} (h : line ∈ read text) : '\n' ∉ line := by
  obtain ⟨hlines, htail⟩ := newline_notMem_split text
  unfold read at h
  cases List.mem_append.mp h with
  | inl hended =>
      obtain ⟨whole, hwhole, rfl⟩ := List.mem_map.mp hended
      exact fun hnewline => hlines whole hwhole ((dropReturn_sublist whole).subset hnewline)
  | inr hlast =>
      split at hlast
      · simp at hlast
      · rw [List.mem_singleton] at hlast
        exact hlast ▸ htail

theorem read_lines {lines : List (List Char)} (h : ∀ line ∈ lines, '\n' ∉ line) :
    read (lines.flatMap fun line => line ++ ['\n']) = lines.map dropReturn := by
  have hsplit := @split_lines lines h [] (by simp)
  rw [List.append_nil] at hsplit
  simp [read, hsplit]

/-- A cut leaves some lines whole, and perhaps part of the next one. -/
theorem take_lines {lines : List (List Char)} (n : Nat) :
    ∃ k tail, ((lines.flatMap fun line => line ++ ['\n']).take n) =
        ((lines.take k).flatMap fun line => line ++ ['\n']) ++ tail ∧
      (tail = [] ∨ ∃ next, lines[k]? = some next ∧ tail <+: next) := by
  induction lines generalizing n with
  | nil => exact ⟨0, [], by simp, Or.inl rfl⟩
  | cons line lines ih =>
      by_cases hshort : n ≤ line.length
      · refine ⟨0, line.take n, ?_, Or.inr ⟨line, rfl, List.take_prefix n line⟩⟩
        simp only [List.flatMap_cons, List.append_assoc, List.take_zero, List.flatMap_nil,
          List.nil_append]
        rw [List.take_append_of_le_length hshort]
      · obtain ⟨k, tail, htake, htail⟩ := ih (n - (line.length + 1))
        refine ⟨k + 1, tail, ?_, by simpa using htail⟩
        have hline : (line ++ ['\n']).length ≤ n := by
          simp only [List.length_append, List.length_singleton]
          omega
        rw [List.flatMap_cons, List.take_append, List.take_of_length_le hline]
        simp only [List.length_append, List.length_singleton, List.take_succ_cons,
          List.flatMap_cons]
        rw [htake]
        simp only [List.append_assoc]

end Lines
