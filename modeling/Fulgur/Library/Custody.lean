import Mathlib.Data.List.Nodup
import Mathlib.Data.List.Perm.Basic
import Mathlib.Data.List.Range

/-! # Custody of numbered entries

Entries come in under consecutive numbers. Each is held in some place until it
leaves; it may be changed and moved about while it is held, but not its number.
-/

namespace Custody

variable {α : Type}

/-! ## Places -/

/-- What one of several places holds can be brought to the front. -/
theorem flatMap_perm {β : Type} {place : β → List α} {places : List β} {i : Nat} {a : β}
    (h : places[i]? = some a) :
    (places.flatMap place).Perm (place a ++ (places.eraseIdx i).flatMap place) := by
  induction places generalizing i with
  | nil => simp at h
  | cons b places ih =>
      cases i with
      | zero =>
          cases h
          exact .refl _
      | succ i =>
          rw [List.flatMap_cons, List.eraseIdx_cons_succ, List.flatMap_cons, ← List.append_assoc]
          refine ((ih h).append_left (place b)).trans ?_
          rw [← List.append_assoc]
          exact List.perm_append_comm.append_right _

theorem flatMap_set_perm {β : Type} {place : β → List α} {places : List β} {i : Nat} {a : β} (b : β)
    (h : places[i]? = some a) :
    ((places.set i b).flatMap place).Perm (place b ++ (places.eraseIdx i).flatMap place) := by
  have hb : (places.set i b)[i]? = some b :=
    List.getElem?_set_self (List.getElem?_eq_some_iff.mp h).1
  have herase : ((places.set i b).flatMap place).Perm _ := flatMap_perm hb
  rwa [List.eraseIdx_set_eq] at herase

/-! ## What is held and what has left -/

variable (number : α → Nat)

/-- Every number given out so far is held once, or has left once. -/
def Balanced (entered : Nat) (held left : List α) : Prop :=
  ((held ++ left).map number).Perm (List.range entered)

variable {number} {entered : Nat} {held held' left : List α}

theorem balanced_nil : Balanced number 0 [] [] := .nil

theorem Balanced.perm (h : Balanced number entered held left) (hheld : held'.Perm held) :
    Balanced number entered held' left :=
  ((hheld.append_right left).map number).trans h

/-- What comes in takes the next numbers. -/
theorem Balanced.enter (h : Balanced number entered held left) {new : List α}
    (hnew : new.map number = List.range' entered new.length) :
    Balanced number (entered + new.length) (held ++ new) left := by
  have hmove : (held ++ new ++ left).Perm (held ++ left ++ new) := by
    rw [List.append_assoc, List.append_assoc]
    exact List.perm_append_comm.append_left held
  refine (hmove.map number).trans ?_
  rw [List.map_append, hnew, List.range_add, ← List.range'_eq_map_range]
  exact h.append_right _

theorem Balanced.renew {a b : α} (h : Balanced number entered (a :: held) left)
    (hsame : number b = number a) : Balanced number entered (b :: held) left := by
  unfold Balanced at h ⊢
  rw [List.cons_append, List.map_cons, hsame]
  exact h

theorem Balanced.leave {a b : α} (h : Balanced number entered (a :: held) left)
    (hsame : number b = number a) : Balanced number entered held (left ++ [b]) := by
  have hmove : (held ++ (left ++ [b])).Perm (b :: held ++ left) := by
    rw [← List.append_assoc]
    exact List.perm_append_singleton b (held ++ left)
  exact (hmove.map number).trans (h.renew hsame)

theorem Balanced.nodup (h : Balanced number entered held left) :
    ((held ++ left).map number).Nodup :=
  h.nodup_iff.mpr List.nodup_range

/-- No other entry that is held has the number of this one. -/
theorem Balanced.ne_of_mem {a b : α} (h : Balanced number entered (a :: held) left)
    (hb : b ∈ held) : number b ≠ number a := by
  intro hsame
  have hhead := (List.nodup_cons.mp h.nodup).1
  rw [← hsame] at hhead
  exact hhead (List.mem_map_of_mem (List.mem_append_left left hb))

theorem Balanced.count (h : Balanced number entered held left) {n : Nat} (hn : n < entered) :
    (held.map number).count n + (left.map number).count n = 1 := by
  have htotal := h.count_eq n
  rwa [List.count_eq_one_of_mem List.nodup_range (List.mem_range.mpr hn), List.map_append,
    List.count_append] at htotal

end Custody
