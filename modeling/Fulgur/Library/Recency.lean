import Mathlib.Data.List.Dedup

/-! # Lists in the order of the last use

A list of bounded length keeps what was used last, the latest use at its end.
The log of all uses tells the order: of each element its last occurrence counts.
-/

namespace Recency

variable {α : Type} [DecidableEq α]

/-- Use an element: it goes to the end, and the first one goes when there are too many. -/
def touch (bound : Nat) (a : α) (xs : List α) : List α :=
  let used := xs.filter (· ≠ a) ++ [a]
  if bound < used.length then used.tail else used

/-- No element twice, not too many, and those that were used last come last. -/
structure Kept (bound : Nat) (log xs : List α) : Prop where
  nodup : xs.Nodup
  length : xs.length ≤ bound
  sublist : xs.Sublist log.dedup

variable {bound : Nat} {log xs ys : List α} {a : α}

/-- A use makes the earlier ones of the same element irrelevant. -/
theorem dedup_concat (log : List α) (a : α) :
    (log ++ [a]).dedup = log.dedup.filter (· ≠ a) ++ [a] := by
  induction log with
  | nil => rfl
  | cons b log ih =>
      rw [List.cons_append]
      by_cases hb : b ∈ log ++ [a]
      · rw [List.dedup_cons_of_mem hb, ih]
        congr 1
        by_cases hlog : b ∈ log
        · rw [List.dedup_cons_of_mem hlog]
        · have hba : b = a := by simpa [hlog] using hb
          rw [List.dedup_cons_of_notMem hlog, List.filter_cons_of_neg (by simpa using hba)]
      · obtain ⟨hlog, hba⟩ : b ∉ log ∧ b ≠ a := by simpa [not_or] using hb
        rw [List.dedup_cons_of_notMem hb, ih, List.dedup_cons_of_notMem hlog,
          List.filter_cons_of_pos (by simpa using hba), List.cons_append]

theorem Kept.of_sublist (h : Kept bound log xs) (hys : ys.Sublist xs) : Kept bound log ys :=
  ⟨hys.nodup h.nodup, Nat.le_trans hys.length_le h.length, hys.trans h.sublist⟩

/-- A list that is as it should be is its own log. -/
theorem kept_self (hnodup : xs.Nodup) (hlength : xs.length ≤ bound) : Kept bound xs xs :=
  ⟨hnodup, hlength, by rw [hnodup.dedup]⟩

theorem Kept.touch (h : Kept bound log xs) (a : α) :
    Kept bound (log ++ [a]) (touch bound a xs) := by
  have hnodup : (xs.filter (· ≠ a) ++ [a]).Nodup := by
    refine (h.nodup.filter _).append (List.nodup_singleton a) fun b hb hba => ?_
    rw [List.mem_singleton.mp hba] at hb
    simp at hb
  have hsublist : (xs.filter (· ≠ a) ++ [a]).Sublist (log ++ [a]).dedup := by
    rw [dedup_concat]
    exact (h.sublist.filter _).append (List.Sublist.refl [a])
  have hlength := (List.filter_sublist (p := (· ≠ a)) (l := xs)).length_le
  have hbound := h.length
  unfold Recency.touch
  dsimp only
  split
  · refine ⟨(List.tail_sublist _).nodup hnodup, ?_, (List.tail_sublist _).trans hsublist⟩
    rw [List.length_tail, List.length_append, List.length_singleton]
    omega
  · exact ⟨hnodup, by omega, hsublist⟩

/-- What was just used comes last, if there is room for anything. -/
theorem getLast?_touch (hbound : 0 < bound) (a : α) (xs : List α) :
    (touch bound a xs).getLast? = some a := by
  unfold touch
  dsimp only
  split
  · rename_i hlong
    cases hused : xs.filter (· ≠ a) with
    | nil =>
        rw [hused, List.nil_append, List.length_singleton] at hlong
        omega
    | cons b used => rw [List.cons_append, List.tail_cons, List.getLast?_concat]
  · exact List.getLast?_concat

end Recency
