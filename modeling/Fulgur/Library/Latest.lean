import Mathlib.Algebra.Group.Nat.Defs
import Mathlib.Data.List.Nodup
import Mathlib.Data.List.Perm.Basic

/-! # The last of numbered requests

Requests get the numbers of a counter of 64 bits, and stay open until something is
done about them. While the counter has not run over, a number that was given out is not
above it, and a new one is not open yet.
-/

namespace Latest

/-- The open numbers are distinct ones that the counter has given out. -/
structure Issued (last : UInt64) (numbers : List UInt64) : Prop where
  nodup : numbers.Nodup
  le_last : ∀ number ∈ numbers, number ≤ last

variable {last number : UInt64} {numbers : List UInt64}

theorem issued_nil (last : UInt64) : Issued last [] := ⟨List.nodup_nil, by simp⟩

theorem toNat_succ (h : last.toNat + 1 < 2 ^ 64) : (last + 1).toNat = last.toNat + 1 := by
  rw [UInt64.toNat_add, UInt64.toNat_one, Nat.mod_eq_of_lt h]

theorem lt_succ (h : last.toNat + 1 < 2 ^ 64) : last < last + 1 := by
  rw [UInt64.lt_iff_toNat_lt, toNat_succ h]
  exact Nat.lt_succ_self _

/-- The next number is not an open one. -/
theorem Issued.fresh (h : Issued last numbers) (hroom : last.toNat + 1 < 2 ^ 64) :
    last + 1 ∉ numbers := by
  intro hmem
  have hle := UInt64.le_iff_toNat_le.mp (h.le_last _ hmem)
  rw [toNat_succ hroom] at hle
  omega

theorem Issued.issue (h : Issued last numbers) (hroom : last.toNat + 1 < 2 ^ 64) :
    Issued (last + 1) (numbers ++ [last + 1]) where
  nodup := by
    refine List.nodup_append.mpr ⟨h.nodup, List.nodup_singleton _, ?_⟩
    intro number hnumber next hnext hequal
    rw [List.mem_singleton.mp hnext] at hequal
    exact h.fresh hroom (hequal ▸ hnumber)
  le_last := by
    intro number hnumber
    rw [List.mem_append, List.mem_singleton] at hnumber
    cases hnumber with
    | inl hold =>
        have hle := UInt64.le_iff_toNat_le.mp (h.le_last number hold)
        rw [UInt64.le_iff_toNat_le, toNat_succ hroom]
        omega
    | inr hnew =>
        rw [hnew]
        exact UInt64.le_refl _

theorem Issued.erase (h : Issued last numbers) (index : Nat) :
    Issued last (numbers.eraseIdx index) where
  nodup := h.nodup.sublist (List.eraseIdx_sublist numbers index)
  le_last := fun number hnumber =>
    h.le_last number ((List.eraseIdx_sublist numbers index).subset hnumber)

/-- What is done about a number leaves exactly the other ones open. -/
theorem Issued.mem_erase (h : Issued last numbers) {index : Nat} {taken : UInt64}
    (htaken : numbers[index]? = some taken) :
    number ∈ numbers.eraseIdx index ↔ number ∈ numbers ∧ number ≠ taken := by
  obtain ⟨hbound, hget⟩ := List.getElem?_eq_some_iff.mp htaken
  have hperm := List.getElem_cons_eraseIdx_perm hbound
  have hnodup := hperm.nodup_iff.mpr h.nodup
  rw [hget] at hperm hnodup
  have hnew := (List.nodup_cons.mp hnodup).1
  constructor
  · intro hmem
    refine ⟨(List.eraseIdx_sublist numbers index).subset hmem, fun hequal => ?_⟩
    exact hnew (hequal ▸ hmem)
  · intro hboth
    have hcons := hperm.mem_iff.mpr hboth.1
    exact (List.mem_cons.mp hcons).resolve_left hboth.2

end Latest
