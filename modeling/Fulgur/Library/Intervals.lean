import Mathlib.Data.List.Basic

/-! # Intervals that do not overlap

Of a list of intervals the first is taken, and then of those that do not start
before its end again the first, and so on. One scan that remembers where the
last taken one ended does the same.
-/

namespace Intervals

variable {α : Type} {start stop : α → Nat} {xs : List α}

def notBefore (start : α → Nat) (n : Nat) (xs : List α) : List α := xs.filter fun x => n ≤ start x

/-- The first interval, and those taken of the intervals that start behind it. -/
def greedy (start stop : α → Nat) : List α → List α
  | [] => []
  | x :: xs => x :: greedy start stop (notBefore start (stop x) xs)
termination_by xs => xs.length
decreasing_by
  exact Nat.lt_succ_of_le (List.length_filter_le _ _)

/-- One scan: an interval is taken unless it starts before `last`. -/
def scan (start stop : α → Nat) : Nat → List α → List α
  | _, [] => []
  | last, x :: xs =>
      if start x < last then scan start stop last xs else x :: scan start stop (stop x) xs

theorem greedy_sublist (xs : List α) : (greedy start stop xs).Sublist xs := by
  induction xs using greedy.induct start stop with
  | case1 => rw [greedy]
  | case2 x xs ih =>
      rw [greedy]
      exact (ih.trans List.filter_sublist).cons_cons x

/-- Intervals that are taken do not overlap. -/
theorem greedy_pairwise (xs : List α) :
    (greedy start stop xs).Pairwise fun x y => stop x ≤ start y := by
  induction xs using greedy.induct start stop with
  | case1 =>
      rw [greedy]
      exact .nil
  | case2 x xs ih =>
      rw [greedy, List.pairwise_cons]
      refine ⟨fun y hy => ?_, ih⟩
      have hmem := (greedy_sublist (notBefore start (stop x) xs)).subset hy
      exact of_decide_eq_true (List.mem_filter.mp hmem).2

/-- Of intervals that do not overlap each is taken. -/
theorem greedy_of_pairwise (h : xs.Pairwise fun x y => stop x ≤ start y) :
    greedy start stop xs = xs := by
  induction xs with
  | nil => rw [greedy]
  | cons x xs ih =>
      obtain ⟨hfirst, hrest⟩ := List.pairwise_cons.mp h
      have hall : notBefore start (stop x) xs = xs :=
        List.filter_eq_self.mpr fun y hy => decide_eq_true (hfirst y hy)
      rw [greedy, hall, ih hrest]

/-- An interval that is not taken starts within one that is, and not before it. -/
theorem greedy_covered (hsorted : xs.Pairwise fun x y => start x ≤ start y) {y : α} (hy : y ∈ xs) :
    y ∈ greedy start stop xs ∨
      ∃ x ∈ greedy start stop xs, start x ≤ start y ∧ start y < stop x := by
  induction xs using greedy.induct start stop with
  | case1 => exact nomatch hy
  | case2 x xs ih =>
      rw [greedy]
      obtain ⟨hfirst, hrest⟩ := List.pairwise_cons.mp hsorted
      rcases List.mem_cons.mp hy with rfl | hy
      · exact Or.inl List.mem_cons_self
      by_cases hbehind : stop x ≤ start y
      · have hmem : y ∈ notBefore start (stop x) xs :=
          List.mem_filter.mpr ⟨hy, decide_eq_true hbehind⟩
        rcases ih (hrest.filter _) hmem with htaken | ⟨z, hz, hwithin⟩
        · exact Or.inl (List.mem_cons_of_mem x htaken)
        · exact Or.inr ⟨z, List.mem_cons_of_mem x hz, hwithin⟩
      · exact Or.inr ⟨x, List.mem_cons_self, hfirst y hy, Nat.lt_of_not_le hbehind⟩

/-- The scan takes what is taken of the intervals that do not start before `last`. -/
theorem scan_eq_greedy (last : Nat) (h : ∀ x ∈ xs, start x ≤ stop x) :
    scan start stop last xs = greedy start stop (notBefore start last xs) := by
  induction xs generalizing last with
  | nil => rw [scan, notBefore, List.filter_nil, greedy]
  | cons x xs ih =>
      have hxs : ∀ y ∈ xs, start y ≤ stop y := fun y hy => h y (List.mem_cons_of_mem x hy)
      rw [scan]
      by_cases hlast : start x < last
      · rw [if_pos hlast, notBefore, List.filter_cons_of_neg (by simpa using hlast), ih last hxs]
        rfl
      · have hle := h x List.mem_cons_self
        have htwice : notBefore start (stop x) (xs.filter fun y => last ≤ start y) =
            notBefore start (stop x) xs := by
          rw [notBefore, List.filter_filter]
          refine List.filter_congr fun y _ => ?_
          by_cases hbehind : stop x ≤ start y
          · have hbound : last ≤ start y := by omega
            simp [hbehind, hbound]
          · simp [hbehind]
        rw [if_neg hlast, notBefore, List.filter_cons_of_pos (by simpa using hlast), greedy, htwice,
          ih (stop x) hxs]

end Intervals
