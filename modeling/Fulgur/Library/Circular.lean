import Mathlib.Data.List.Rotate

/-! # Places in a circle

The places of a list in a circle: after the last one comes the first again. Going
on from a place visits every place once before it comes back.
-/

namespace Circular

def next (n i : Nat) : Nat := (i + 1) % n

def previous (n i : Nat) : Nat := (i + n - 1) % n

variable {n i : Nat}

theorem next_lt (hi : i < n) : next n i < n := Nat.mod_lt _ (by omega)

theorem previous_lt (hi : i < n) : previous n i < n := Nat.mod_lt _ (by omega)

theorem previous_eq (hi : i < n) : previous n i = if i = 0 then n - 1 else i - 1 := by
  unfold previous
  split
  · rename_i hzero
    rw [hzero, Nat.zero_add, Nat.mod_eq_of_lt (by omega)]
  · have hsum : i + n - 1 = i - 1 + n := by omega
    rw [hsum, Nat.add_mod_right, Nat.mod_eq_of_lt (by omega)]

theorem next_eq (hi : i < n) : next n i = if i + 1 = n then 0 else i + 1 := by
  unfold next
  split
  · rename_i hlast
    rw [hlast, Nat.mod_self]
  · exact Nat.mod_eq_of_lt (by omega)

theorem previous_next (hi : i < n) : previous n (next n i) = i := by
  rw [previous_eq (next_lt hi), next_eq hi]
  split
  · simp
    omega
  · simp

theorem next_previous (hi : i < n) : next n (previous n i) = i := by
  rw [next_eq (previous_lt hi), previous_eq hi]
  split <;> split <;> omega

theorem iterate_next (hi : i < n) (k : Nat) : (next n)^[k] i = (i + k) % n := by
  induction k with
  | zero => exact (Nat.mod_eq_of_lt hi).symm
  | succ k ih =>
      rw [Function.iterate_succ_apply', ih, next, Nat.mod_add_mod, Nat.add_assoc]

theorem iterate_next_length (hi : i < n) : (next n)^[n] i = i := by
  rw [iterate_next hi, Nat.add_mod_right, Nat.mod_eq_of_lt hi]

/-- The elements met on the way round are the list, from the first of them on. -/
theorem map_iterate_next {α : Type} {xs : List α} (hi : i < xs.length) :
    ((List.range xs.length).map fun k => xs[(next xs.length)^[k] i]?) = (xs.rotate i).map some := by
  refine List.ext_getElem (by simp) fun k hk hk' => ?_
  simp only [List.length_map, List.length_range] at hk
  simp only [List.getElem_map, List.getElem_range, iterate_next hi]
  rw [List.getElem_rotate, Nat.add_comm i k, List.getElem?_eq_getElem (Nat.mod_lt _ (by omega))]

end Circular
