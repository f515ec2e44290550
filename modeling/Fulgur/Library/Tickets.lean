import Mathlib.Data.List.Basic
import Mathlib.Data.List.Induction

/-! # Numbered entries of a log

Entries of a log may carry a number, and no two carry the same one. An entry is
added without a number or with a fresh one; it is replaced by one with its own
number, or with a fresh one.
-/

namespace Tickets

variable {α κ : Type} (number : α → Option κ)

/-- No two entries of the log carry the same number. -/
def Distinct (log : List α) : Prop :=
  ∀ (i j : Nat) (a b : α) (k : κ), log[i]? = some a → log[j]? = some b →
    number a = some k → number b = some k → i = j

/-- No entry of the log carries the number. -/
def Fresh (log : List α) (k : κ) : Prop := ∀ a ∈ log, number a ≠ some k

variable {number} {log : List α}

theorem distinct_nil : Distinct number [] := by
  intro i j a b k ha
  simp at ha

/-- What is found in a longer log is the entry just added or was there before. -/
theorem getElem?_append_singleton {i : Nat} {a b : α} (h : (log ++ [b])[i]? = some a) :
    log[i]? = some a ∨ (i = log.length ∧ a = b) := by
  by_cases hi : i < log.length
  · left
    rwa [List.getElem?_append_left hi] at h
  · right
    rw [List.getElem?_append_right (by omega)] at h
    have hbound := (List.getElem?_eq_some_iff.mp h).1
    have hlast : i - log.length = 0 := by simpa using hbound
    rw [hlast] at h
    exact ⟨by omega, (Option.some.inj h).symm⟩

theorem getElem?_set_cases {i j : Nat} {a b : α} (h : (log.set i b)[j]? = some a) :
    (j ≠ i ∧ log[j]? = some a) ∨ (j = i ∧ a = b) := by
  by_cases hij : i = j
  · right
    subst hij
    have hbound := (List.getElem?_eq_some_iff.mp h).1
    rw [List.length_set] at hbound
    rw [List.getElem?_set_self hbound] at h
    exact ⟨rfl, (Option.some.inj h).symm⟩
  · left
    rw [List.getElem?_set_ne hij] at h
    exact ⟨fun hji => hij hji.symm, h⟩

/-- How an entry that is replaced changes the number of those that pass a test. -/
theorem countP_set_add {p : α → Bool} {i : Nat} {a b : α} (h : log[i]? = some a) :
    (log.set i b).countP p + (p a).toNat = log.countP p + (p b).toNat := by
  obtain ⟨hbound, rfl⟩ := List.getElem?_eq_some_iff.mp h
  have hone := List.boole_getElem_le_countP (p := p) hbound
  rw [List.countP_set hbound]
  cases hbefore : p log[i] <;> cases hafter : p b <;>
    simp only [hbefore, if_true, Bool.false_eq_true, if_false, Bool.toNat_true,
      Bool.toNat_false] at hone ⊢ <;> omega

/-- The last of those that pass the test: none behind it does. -/
theorem getLast?_filter {p : α → Bool} {xs : List α} {x : α}
    (h : (xs.filter p).getLast? = some x) : p x = true ∧ ∃ i : Nat, xs[i]? = some x ∧
      ∀ (j : Nat) (y : α), i < j → xs[j]? = some y → p y = false := by
  induction xs using List.reverseRecOn with
  | nil => cases h
  | append_singleton xs y ih =>
      by_cases hy : p y = true
      · rw [List.filter_append, List.filter_singleton, hy] at h
        simp only [cond_true, List.getLast?_concat, Option.some.injEq] at h
        subst h
        refine ⟨hy, xs.length, by simp, fun j z hlt hz => ?_⟩
        have hbound := (List.getElem?_eq_some_iff.mp hz).1
        simp only [List.length_append, List.length_singleton] at hbound
        omega
      · rw [List.filter_append, List.filter_singleton, Bool.not_eq_true _ |>.mp hy] at h
        simp only [cond_false, List.append_nil] at h
        rcases ih h with ⟨hx, i, hi, hlast⟩
        refine ⟨hx, i, ?_, fun j z hlt hz => ?_⟩
        · rw [List.getElem?_append_left (List.getElem?_eq_some_iff.mp hi).1]
          exact hi
        · rcases getElem?_append_singleton hz with hz | ⟨_, rfl⟩
          · exact hlast j z hlt hz
          · simpa using hy

/-- Replacing an entry by one that is alike in some respect changes nothing in that respect. -/
theorem exists_mem_set_iff {P : α → Prop} {i : Nat} {a b : α} (ha : log[i]? = some a)
    (hsame : P b ↔ P a) : (∃ c ∈ log.set i b, P c) ↔ ∃ c ∈ log, P c := by
  constructor
  · rintro ⟨c, hc, hP⟩
    rcases List.mem_or_eq_of_mem_set hc with hold | rfl
    · exact ⟨c, hold, hP⟩
    · exact ⟨a, List.mem_of_getElem? ha, hsame.mp hP⟩
  · rintro ⟨c, hc, hP⟩
    rcases List.getElem?_of_mem hc with ⟨j, hj⟩
    by_cases hij : i = j
    · subst hij
      rw [ha] at hj
      cases hj
      exact ⟨b, List.mem_set (List.getElem?_eq_some_iff.mp ha).1 b, hsame.mpr hP⟩
    · exact ⟨c, List.mem_of_getElem? ((List.getElem?_set_ne hij).trans hj), hP⟩

/-- An entry that stays where it is, or takes a number nobody has, keeps numbers distinct. -/
theorem Distinct.set (h : Distinct number log) {i : Nat} {b : α}
    (hfresh : ∀ k, number b = some k → ∀ (j : Nat) (a : α), j ≠ i → log[j]? = some a →
      number a ≠ some k) : Distinct number (log.set i b) := by
  intro m n c d k hc hd hkc hkd
  rcases getElem?_set_cases hc with ⟨hm, hcOld⟩ | ⟨hm, rfl⟩ <;>
    rcases getElem?_set_cases hd with ⟨hn, hdOld⟩ | ⟨hn, rfl⟩
  · exact h m n c d k hcOld hdOld hkc hkd
  · exact absurd hkc (hfresh k hkd m c hm hcOld)
  · exact absurd hkd (hfresh k hkc n d hn hdOld)
  · rw [hm, hn]

theorem Distinct.set_same (h : Distinct number log) {i : Nat} {a b : α} (ha : log[i]? = some a)
    (hsame : number b = number a) : Distinct number (log.set i b) := by
  apply h.set
  intro k hk j c hj hc hkc
  exact hj (h j i c a k hc ha hkc (hsame ▸ hk))

theorem Distinct.set_fresh (h : Distinct number log) {i : Nat} {b : α}
    (hfresh : ∀ k, number b = some k → Fresh number log k) : Distinct number (log.set i b) :=
  h.set fun k hk _ a _ ha => hfresh k hk a (List.mem_of_getElem? ha)

theorem Distinct.append (h : Distinct number log) {b : α}
    (hfresh : ∀ k, number b = some k → Fresh number log k) : Distinct number (log ++ [b]) := by
  intro m n c d k hc hd hkc hkd
  rcases getElem?_append_singleton hc with hcOld | ⟨hm, rfl⟩ <;>
    rcases getElem?_append_singleton hd with hdOld | ⟨hn, rfl⟩
  · exact h m n c d k hcOld hdOld hkc hkd
  · exact absurd hkc (hfresh k hkd c (List.mem_of_getElem? hcOld))
  · exact absurd hkd (hfresh k hkc d (List.mem_of_getElem? hdOld))
  · rw [hm, hn]

end Tickets
