import Fulgur.Library.Delimiters
import Fulgur.Search.Places

/-! # Lines and columns

The line of an offset is found among the offsets of the newlines, and its column
by the characters from the last newline on.
-/

namespace Fulgur

/-- The line that a text ends in. -/
def lineOf (before : List Char) : Nat := before.count '\n'

/-- The characters of the line that a text ends in. -/
def columnOf (before : List Char) : Nat := (before.reverse.takeWhile fun c => c ≠ '\n').length

/-! ## Newlines among the bytes -/

theorem first_eq_newline {c : Char} {first : UInt8} {rest : List UInt8} (h : Encodes c first rest)
    (hfirst : first = 10) : c = '\n' := by
  subst hfirst
  have hwidth := h.width
  have hrest : rest = [] := by
    rw [← List.length_eq_zero_iff]
    change 1 = rest.length + 1 at hwidth
    omega
  have hscalar := h.scalar
  rw [hrest] at hscalar
  rw [← Char.ofNat_toNat c, ← hscalar]
  rfl

theorem newline_notMem {c : Char} (hc : c ≠ '\n') : 10 ∉ String.utf8EncodeChar c := by
  obtain ⟨first, rest, h⟩ := encodes c
  rw [h.bytes, List.mem_cons]
  rintro (hfirst | hrest)
  · exact hc (first_eq_newline h hfirst.symm)
  · exact absurd (h.continues 10 hrest).1 (by decide)

def newlinesFrom (start : Nat) (text : List Char) : List Nat :=
  ((charBytes text).zipIdx start).filterMap fun (b, i) => if b = 10 then some i else none

theorem newlinesFrom_append (start : Nat) (before after : List Char) :
    newlinesFrom start (before ++ after) =
      newlinesFrom start before ++ newlinesFrom (start + byteLen before) after := by
  rw [newlinesFrom, charBytes_append, List.zipIdx_append, List.filterMap_append, length_charBytes]
  rfl

theorem newlinesFrom_of_notMem {text : List Char} (start : Nat) (h : '\n' ∉ text) :
    newlinesFrom start text = [] := by
  rw [newlinesFrom, List.filterMap_eq_nil_iff]
  rintro ⟨b, i⟩ hmem
  obtain ⟨c, hc, hb⟩ := List.mem_flatMap.mp (List.fst_mem_of_mem_zipIdx hmem)
  refine if_neg fun hten => newline_notMem (fun hnewline => h (hnewline ▸ hc)) ?_
  rwa [show b = 10 from hten] at hb

theorem newlinesFrom_newline (start : Nat) (after : List Char) :
    newlinesFrom start ('\n' :: after) = start :: newlinesFrom (start + 1) after :=
  newlinesFrom_append start ['\n'] after

theorem mem_newlinesFrom {start nl : Nat} {text : List Char} (h : nl ∈ newlinesFrom start text) :
    start ≤ nl ∧ nl < start + byteLen text := by
  obtain ⟨⟨b, i⟩, hmem, hnl⟩ := List.mem_filterMap.mp h
  by_cases hb : b = 10
  · simp only [hb, if_true, Option.some.injEq] at hnl
    obtain ⟨hle, hlt, -⟩ := List.mem_zipIdx hmem
    rw [length_charBytes] at hlt
    omega
  · simp only [if_neg hb] at hnl
    exact nomatch hnl

theorem length_newlinesFrom (start : Nat) (text : List Char) :
    (newlinesFrom start text).length = lineOf text := by
  induction text generalizing start with
  | nil => rfl
  | cons c cs ih =>
      rw [lineOf, List.count_cons]
      by_cases hc : c = '\n'
      · rw [hc, newlinesFrom_newline, List.length_cons, ih]
        rfl
      · have hnone : newlinesFrom start [c] = [] :=
          newlinesFrom_of_notMem start (by simpa using Ne.symm hc)
        rw [← List.singleton_append, newlinesFrom_append, hnone, List.nil_append, ih]
        simp [lineOf, hc]

/-! ## The line of an offset -/

/-- The newlines before an offset are those of the text before it. -/
theorem partitionPoint_append (before after : List Char) :
    partitionPoint (newlinesFrom 0 (before ++ after)) (byteLen before) = lineOf before := by
  have hbefore : ∀ nl ∈ newlinesFrom 0 before, decide (nl < byteLen before) = true := by
    intro nl hnl
    have hbound := (mem_newlinesFrom hnl).2
    exact decide_eq_true (by omega)
  have hafter : (newlinesFrom (0 + byteLen before) after).takeWhile
      (fun nl => nl < byteLen before) = [] := by
    cases hrest : newlinesFrom (0 + byteLen before) after with
    | nil => rfl
    | cons nl rest =>
        have hbound := (mem_newlinesFrom (by rw [hrest]; exact List.mem_cons_self : nl ∈ _)).1
        exact List.takeWhile_cons_of_neg (by simpa using hbound)
  rw [partitionPoint, newlinesFrom_append, List.takeWhile_append_of_pos hbefore, hafter,
    List.append_nil, length_newlinesFrom]

theorem reverse_of_notMem {line : List Char} (h : '\n' ∉ line) :
    ∀ c ∈ line.reverse, decide (c ≠ '\n') = true := by
  intro c hc
  refine decide_eq_true fun hnewline => h ?_
  rw [← hnewline]
  exact List.mem_reverse.mp hc

theorem columnOf_append {before : List Char} (start : List Char) (h : '\n' ∉ before) :
    columnOf (start ++ '\n' :: before) = before.length := by
  rw [columnOf, List.reverse_append, List.reverse_cons, List.append_assoc,
    List.takeWhile_append_of_pos (reverse_of_notMem h), List.singleton_append,
    List.takeWhile_cons_of_neg (by simp), List.append_nil, List.length_reverse]

theorem columnOf_of_notMem {before : List Char} (h : '\n' ∉ before) :
    columnOf before = before.length := by
  rw [columnOf, List.takeWhile_eq_self_iff.mpr (reverse_of_notMem h), List.length_reverse]

/-- Line and column of a place between two characters. -/
theorem getLineColFast_append (before after : List Char) :
    getLineColFast (before ++ after) (byteLen before) (newlinesFrom 0 (before ++ after)) =
      some (lineOf before, columnOf before) := by
  have hmin : min (byteLen before) (byteLen (before ++ after)) = byteLen before := by
    rw [byteLen_append]
    omega
  rw [getLineColFast, hmin, partitionPoint_append]
  by_cases hnewline : '\n' ∈ before
  · obtain ⟨start, line, rfl, hline⟩ := Delimiters.exists_last hnewline
    have hcount : lineOf (start ++ '\n' :: line) = lineOf start + 1 := by
      simp [lineOf, List.count_eq_zero_of_not_mem hline]
    have hindex : (newlinesFrom 0 ((start ++ '\n' :: line) ++ after))[lineOf start]? =
        some (byteLen start) := by
      rw [List.append_assoc, newlinesFrom_append, ← length_newlinesFrom 0 start,
        List.getElem?_append_right (Nat.le_refl _), Nat.sub_self, List.cons_append,
        newlinesFrom_newline, Nat.zero_add]
      rfl
    have hstart : byteLen start + 1 = byteLen (start ++ ['\n']) := by
      rw [byteLen_append]
      rfl
    have hslice : slice (byteLen (start ++ ['\n'])) (byteLen (start ++ '\n' :: line))
        ((start ++ '\n' :: line) ++ after) = some line := by
      rw [List.append_cons start '\n' line]
      exact slice_append (start ++ ['\n']) line after
    rw [hcount, if_neg (Nat.succ_ne_zero _), Nat.add_sub_cancel, hindex, Option.map_some,
      Option.bind_some, hstart, hslice, columnOf_append start hline]
    rfl
  · have hzero : lineOf before = 0 := List.count_eq_zero_of_not_mem hnewline
    have hslice : slice 0 (byteLen before) (before ++ after) = some before :=
      slice_append [] before after
    rw [hzero, if_pos rfl, Option.bind_some, hslice, columnOf_of_notMem hnewline]
    rfl

end Fulgur
