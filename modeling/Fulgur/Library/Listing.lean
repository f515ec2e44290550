import Mathlib.Data.List.Sort
import Mathlib.Data.Int.Basic

/-! # Rows listed by position and key

A table keyed by integers is listed in the order of a position column, ties
broken by the key. The listing is the only sorted arrangement of its rows, so
it can be read off from any list that is already in that order, in particular
from rows numbered along a list.
-/

namespace Listing

variable {ρ : Type} (position : ρ → Int)

/-- The order of a listing: by position, then by key. -/
def Before (a b : Int × ρ) : Prop :=
  position a.2 < position b.2 ∨ position a.2 = position b.2 ∧ a.1 ≤ b.1

instance : DecidableRel (Before position) := fun _ _ => inferInstanceAs (Decidable (_ ∨ _))

instance : Std.Total (Before position) := ⟨fun a b => by unfold Before; omega⟩

instance : IsTrans (Int × ρ) (Before position) := ⟨fun a b c => by unfold Before; omega⟩

/-- `ORDER BY position, id`. -/
def orderBy (rows : List (Int × ρ)) : List (Int × ρ) := rows.insertionSort (Before position)

theorem orderBy_perm (rows : List (Int × ρ)) : (orderBy position rows).Perm rows :=
  List.perm_insertionSort _ rows

theorem mem_orderBy {rows : List (Int × ρ)} {row : Int × ρ} :
    row ∈ orderBy position rows ↔ row ∈ rows :=
  (orderBy_perm position rows).mem_iff

theorem orderBy_pairwise (rows : List (Int × ρ)) :
    (orderBy position rows).Pairwise (Before position) :=
  List.pairwise_insertionSort _ rows

/-- Rows are determined by their key when no key occurs twice. -/
theorem eq_of_key_eq {rows : List (Int × ρ)} (hkeys : (rows.map Prod.fst).Nodup) {a b : Int × ρ}
    (ha : a ∈ rows) (hb : b ∈ rows) (hab : a.1 = b.1) : a = b :=
  List.inj_on_of_nodup_map hkeys ha hb hab

/-- Two arrangements of the same keyed rows in listing order are equal. -/
theorem eq_of_perm_of_pairwise {rows listed : List (Int × ρ)} (hkeys : (rows.map Prod.fst).Nodup)
    (hperm : rows.Perm listed) (hrows : rows.Pairwise (Before position))
    (hlisted : listed.Pairwise (Before position)) : rows = listed := by
  refine List.Perm.eq_of_pairwise ?_ hrows hlisted hperm
  intro a b ha hb hab hba
  have hkey : a.1 = b.1 := by
    unfold Before at hab hba
    omega
  exact eq_of_key_eq hkeys ha (hperm.mem_iff.mpr hb) hkey

/-- A listing is any sorted list with the same keyed rows. -/
theorem orderBy_eq_of_mem_iff {rows listed : List (Int × ρ)} (hkeys : (rows.map Prod.fst).Nodup)
    (hlistedKeys : (listed.map Prod.fst).Nodup) (hmem : ∀ row, row ∈ rows ↔ row ∈ listed)
    (hlisted : listed.Pairwise (Before position)) : orderBy position rows = listed := by
  have hperm : (orderBy position rows).Perm listed :=
    (orderBy_perm position rows).trans
      ((List.perm_ext_iff_of_nodup hkeys.of_map hlistedKeys.of_map).mpr hmem)
  have horderedKeys : ((orderBy position rows).map Prod.fst).Nodup :=
    ((orderBy_perm position rows).map Prod.fst).nodup_iff.mpr hkeys
  exact eq_of_perm_of_pairwise position horderedKeys hperm (orderBy_pairwise position rows) hlisted

/-- Only which rows there are matters for their listing. -/
theorem orderBy_congr {rows others : List (Int × ρ)} (hkeys : (rows.map Prod.fst).Nodup)
    (hothers : (others.map Prod.fst).Nodup) (hmem : ∀ row, row ∈ rows ↔ row ∈ others) :
    orderBy position rows = orderBy position others := by
  refine orderBy_eq_of_mem_iff position hkeys ?_ ?_ (orderBy_pairwise position others)
  · exact ((orderBy_perm position others).map Prod.fst).nodup_iff.mpr hothers
  · intro row
    rw [hmem, mem_orderBy]

/-- Selecting rows commutes with listing them. -/
theorem filter_orderBy {rows : List (Int × ρ)} (hkeys : (rows.map Prod.fst).Nodup)
    (keep : Int × ρ → Bool) :
    (orderBy position rows).filter keep = orderBy position (rows.filter keep) := by
  have hsub : List.Sublist ((rows.filter keep).map Prod.fst) (rows.map Prod.fst) :=
    (List.filter_sublist (p := keep)).map Prod.fst
  have hordered : ((orderBy position rows).map Prod.fst).Nodup :=
    ((orderBy_perm position rows).map Prod.fst).nodup_iff.mpr hkeys
  have horderedSub : List.Sublist (((orderBy position rows).filter keep).map Prod.fst)
      ((orderBy position rows).map Prod.fst) :=
    (List.filter_sublist (p := keep)).map Prod.fst
  symm
  refine orderBy_eq_of_mem_iff position (hsub.nodup hkeys) (horderedSub.nodup hordered) ?_
    ((orderBy_pairwise position rows).filter _)
  intro row
  simp only [List.mem_filter, mem_orderBy]

/-- Rows numbered along a list are in listing order. -/
theorem pairwise_before_of_positions {listed : List (Int × ρ)}
    (hpos : listed.Pairwise fun a b => position a.2 < position b.2) :
    listed.Pairwise (Before position) :=
  hpos.imp fun h => Or.inl h

/-! ## Rows numbered along a list -/

variable {α β γ : Type}

/-- Build a row from every element and its position, counting on from the given one. -/
def numbered (row : α → Nat → β) : List α → Nat → List β
  | [], _ => []
  | x :: xs, position => row x position :: numbered row xs (position + 1)

theorem mem_numbered {row : α → Nat → β} {xs : List α} {start : Nat} {y : β} :
    y ∈ numbered row xs start ↔ ∃ i x, xs[i]? = some x ∧ y = row x (start + i) := by
  induction xs generalizing start with
  | nil => simp [numbered]
  | cons x xs ih =>
      rw [numbered, List.mem_cons, ih]
      constructor
      · rintro (rfl | ⟨i, x', hi, rfl⟩)
        · exact ⟨0, x, rfl, rfl⟩
        · exact ⟨i + 1, x', by simpa using hi, by rw [Nat.add_right_comm, Nat.add_assoc]⟩
      · rintro ⟨i, x', hi, rfl⟩
        cases i with
        | zero =>
            cases hi
            exact Or.inl rfl
        | succ i =>
            exact Or.inr ⟨i, x', by simpa using hi, by rw [Nat.add_right_comm, Nat.add_assoc]⟩

/-- What does not depend on the position is read off the list itself. -/
theorem map_numbered {row : α → Nat → β} {g : β → γ} {f : α → γ} {xs : List α}
    (h : ∀ x ∈ xs, ∀ i, g (row x i) = f x) (start : Nat) :
    (numbered row xs start).map g = xs.map f := by
  induction xs generalizing start with
  | nil => rfl
  | cons x xs ih =>
      rw [numbered, List.map_cons, List.map_cons, h x List.mem_cons_self,
        ih fun y hy => h y (List.mem_cons_of_mem x hy)]

theorem pairwise_numbered {row : α → Nat → β} {lt : β → β → Prop}
    (h : ∀ x y i j, i < j → lt (row x i) (row y j)) (xs : List α) (start : Nat) :
    (numbered row xs start).Pairwise lt := by
  induction xs generalizing start with
  | nil => exact List.Pairwise.nil
  | cons x xs ih =>
      refine List.Pairwise.cons ?_ (ih (start + 1))
      intro y hy
      obtain ⟨i, x', -, rfl⟩ := mem_numbered.mp hy
      exact h x x' start (start + 1 + i) (by omega)

end Listing
