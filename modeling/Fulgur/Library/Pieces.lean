import Mathlib.Data.List.Basic

/-! # The last pieces of a list

A list is cut into pieces, each ended by a separator. Its last pieces are what
is left once earlier ones are dropped; what is not ended yet is never dropped.
Cutting early does not matter: what is appended to the last pieces and cut
again is cut as if nothing had been dropped before.
-/

namespace Pieces

variable {α : Type} [DecidableEq α] {sep : α}

def dropPieces (sep : α) : Nat → List α → List α
  | 0, xs => xs
  | _ + 1, [] => []
  | n + 1, x :: xs => dropPieces sep (if x = sep then n else n + 1) xs

def lastPieces (sep : α) (n : Nat) (xs : List α) : List α := dropPieces sep (xs.count sep - n) xs

@[simp] theorem dropPieces_zero (xs : List α) : dropPieces sep 0 xs = xs := by
  cases xs <;> rfl

theorem dropPieces_cons (n : Nat) (x : α) (xs : List α) :
    dropPieces sep (n + 1) (x :: xs) = dropPieces sep (if x = sep then n else n + 1) xs := rfl

theorem dropPieces_suffix (n : Nat) (xs : List α) : dropPieces sep n xs <:+ xs := by
  induction xs generalizing n with
  | nil => cases n <;> exact List.suffix_rfl
  | cons x xs ih =>
      cases n with
      | zero => exact List.suffix_rfl
      | succ n => exact (ih _).trans (List.suffix_cons x xs)

theorem dropPieces_append {n : Nat} {xs : List α} (ys : List α) (hn : n ≤ xs.count sep) :
    dropPieces sep n (xs ++ ys) = dropPieces sep n xs ++ ys := by
  induction xs generalizing n with
  | nil =>
      rw [List.count_nil, Nat.le_zero] at hn
      simp [hn]
  | cons x xs ih =>
      cases n with
      | zero => simp
      | succ n =>
          rw [List.cons_append, dropPieces_cons, dropPieces_cons]
          refine ih ?_
          rw [List.count_cons] at hn
          by_cases hx : x = sep
          · simp only [hx, beq_self_eq_true, if_true] at hn ⊢
            omega
          · simpa [hx] using hn

theorem dropPieces_dropPieces {m n : Nat} {xs : List α} (hm : m ≤ xs.count sep) :
    dropPieces sep n (dropPieces sep m xs) = dropPieces sep (m + n) xs := by
  induction xs generalizing m with
  | nil =>
      rw [List.count_nil, Nat.le_zero] at hm
      simp [hm]
  | cons x xs ih =>
      cases m with
      | zero => simp
      | succ m =>
          rw [Nat.add_right_comm, dropPieces_cons, dropPieces_cons]
          rw [List.count_cons] at hm
          by_cases hx : x = sep
          · simp only [hx, beq_self_eq_true, if_true] at hm ⊢
            exact ih (by omega)
          · simp only [hx, if_false]
            rw [ih (by simpa [hx] using hm), Nat.add_right_comm]

theorem count_dropPieces (n : Nat) (xs : List α) :
    (dropPieces sep n xs).count sep = xs.count sep - n := by
  induction xs generalizing n with
  | nil => cases n <;> simp [dropPieces]
  | cons x xs ih =>
      cases n with
      | zero => simp
      | succ n =>
          rw [dropPieces_cons, ih, List.count_cons]
          by_cases hx : x = sep
          · simp only [hx, beq_self_eq_true, if_true]
            omega
          · simp [hx]

theorem lastPieces_suffix (n : Nat) (xs : List α) : lastPieces sep n xs <:+ xs :=
  dropPieces_suffix _ xs

theorem lastPieces_of_le {n : Nat} {xs : List α} (h : xs.count sep ≤ n) :
    lastPieces sep n xs = xs := by
  rw [lastPieces, Nat.sub_eq_zero_of_le h, dropPieces_zero]

/-- Cutting before an append and after it is cutting after it. -/
theorem lastPieces_append (n : Nat) (xs ys : List α) :
    lastPieces sep n (lastPieces sep n xs ++ ys) = lastPieces sep n (xs ++ ys) := by
  have hfirst : xs.count sep - n ≤ xs.count sep := Nat.sub_le _ _
  have hall : xs.count sep - n ≤ (xs ++ ys).count sep := by
    rw [List.count_append]
    omega
  rw [lastPieces, lastPieces, lastPieces, ← dropPieces_append ys hfirst, dropPieces_dropPieces hall,
    count_dropPieces, List.count_append]
  congr 1
  omega

@[simp] theorem lastPieces_lastPieces (n : Nat) (xs : List α) :
    lastPieces sep n (lastPieces sep n xs) = lastPieces sep n xs := by
  simpa using lastPieces_append n xs []

/-- Two lists with the same last pieces still have them after the same append. -/
theorem lastPieces_append_congr {n : Nat} {xs xs' : List α}
    (h : lastPieces sep n xs = lastPieces sep n xs') (ys : List α) :
    lastPieces sep n (xs ++ ys) = lastPieces sep n (xs' ++ ys) := by
  rw [← lastPieces_append n xs ys, h, lastPieces_append]

/-! ## All pieces -/

/-- The pieces without their separators; what follows the last separator is one if it is there. -/
def pieces (sep : α) : List α → List (List α)
  | [] => []
  | x :: xs =>
      if x = sep then [] :: pieces sep xs
      else match pieces sep xs with
        | [] => [[x]]
        | piece :: rest => (x :: piece) :: rest

theorem pieces_sep (xs : List α) : pieces sep (sep :: xs) = [] :: pieces sep xs := by
  rw [pieces, if_pos rfl]

/-- A piece that ends does not look at what comes after it. -/
theorem pieces_append_sep (xs ys : List α) :
    pieces sep (xs ++ sep :: ys) = pieces sep (xs ++ [sep]) ++ pieces sep ys := by
  induction xs with
  | nil =>
      rw [List.nil_append, List.nil_append, pieces_sep, pieces_sep]
      rfl
  | cons x xs ih =>
      by_cases hx : x = sep
      · rw [hx, List.cons_append, List.cons_append, pieces_sep, pieces_sep, ih, List.cons_append]
      · rw [List.cons_append, List.cons_append, pieces, pieces, if_neg hx, if_neg hx, ih]
        cases hpieces : pieces sep (xs ++ [sep]) with
        | nil =>
            -- the separator ends a piece, so there is one
            cases xs with
            | nil => simp [pieces] at hpieces
            | cons y ys =>
                rw [List.cons_append, pieces] at hpieces
                split at hpieces
                · cases hpieces
                · split at hpieces <;> cases hpieces
        | cons piece rest => rfl

theorem pieces_of_notMem {xs : List α} (hsep : sep ∉ xs) : pieces sep (xs ++ [sep]) = [xs] := by
  induction xs with
  | nil => exact pieces_sep []
  | cons x xs ih =>
      have hx : x ≠ sep := fun h => hsep (h ▸ List.mem_cons_self)
      rw [List.cons_append, pieces, if_neg hx, ih fun h => hsep (List.mem_cons_of_mem x h)]

/-- A separator after an unended piece only ends it. -/
theorem pieces_ended {xs : List α} (hne : xs ≠ []) (hlast : xs.getLast? ≠ some sep) :
    pieces sep (xs ++ [sep]) = pieces sep xs := by
  induction xs with
  | nil => exact absurd rfl hne
  | cons x xs ih =>
      by_cases hxs : xs = []
      · subst hxs
        have hx : x ≠ sep := fun h => hlast (by rw [h]; rfl)
        simp [pieces, hx]
      · have hlast' : xs.getLast? ≠ some sep := by
          rwa [List.getLast?_cons_of_ne_nil hxs] at hlast
        rw [List.cons_append, pieces, pieces, ih hxs hlast']

/-- A text whose last piece has ended ends in a separator. -/
theorem pieces_append_of_ended {xs : List α} (ys : List α)
    (hlast : xs = [] ∨ xs.getLast? = some sep) :
    pieces sep (xs ++ ys) = pieces sep xs ++ pieces sep ys := by
  rcases hlast with rfl | hlast
  · rfl
  · obtain ⟨front, rfl⟩ := List.getLast?_eq_some_iff.mp hlast
    rw [List.append_assoc, List.singleton_append, pieces_append_sep]

/-! ## The list as a value made of pieces -/

/-- Pieces that have ended, and what follows them. -/
structure Pieced (sep : α) where
  ended : List (List α)
  unended : List α
  closed : ∀ piece ∈ ended, sep ∉ piece
  notEnded : sep ∉ unended

namespace Pieced

def toList (p : Pieced sep) : List α := (p.ended.flatMap fun piece => piece ++ [sep]) ++ p.unended

def last (n : Nat) (p : Pieced sep) : Pieced sep where
  ended := p.ended.drop (p.ended.length - n)
  unended := p.unended
  closed := fun piece hpiece => p.closed piece (List.mem_of_mem_drop hpiece)
  notEnded := p.notEnded

theorem count_flatMap {ended : List (List α)} (hclosed : ∀ piece ∈ ended, sep ∉ piece) :
    (ended.flatMap fun piece => piece ++ [sep]).count sep = ended.length := by
  induction ended with
  | nil => rfl
  | cons piece ended ih =>
      have hpiece : piece.count sep = 0 := List.count_eq_zero.mpr (hclosed piece List.mem_cons_self)
      rw [List.flatMap_cons, List.count_append, List.count_append,
        hpiece, List.count_singleton_self,
        ih fun later hlater => hclosed later (List.mem_cons_of_mem piece hlater), List.length_cons]
      omega

@[simp] theorem count_toList (p : Pieced sep) : p.toList.count sep = p.ended.length := by
  rw [toList, List.count_append, count_flatMap p.closed, List.count_eq_zero.mpr p.notEnded,
    Nat.add_zero]

theorem dropPieces_piece {piece : List α} (hpiece : sep ∉ piece) (n : Nat) (xs : List α) :
    dropPieces sep (n + 1) (piece ++ sep :: xs) = dropPieces sep n xs := by
  induction piece with
  | nil => rw [List.nil_append, dropPieces_cons, if_pos rfl]
  | cons x piece ih =>
      have hx : x ≠ sep := fun h => hpiece (h ▸ List.mem_cons_self)
      rw [List.cons_append, dropPieces_cons, if_neg hx,
        ih fun h => hpiece (List.mem_cons_of_mem x h)]

theorem dropPieces_flatMap {n : Nat} {ended : List (List α)} (hn : n ≤ ended.length)
    (hclosed : ∀ piece ∈ ended, sep ∉ piece) (rest : List α) :
    dropPieces sep n ((ended.flatMap fun piece => piece ++ [sep]) ++ rest) =
      ((ended.drop n).flatMap fun piece => piece ++ [sep]) ++ rest := by
  induction ended generalizing n with
  | nil =>
      obtain rfl : n = 0 := Nat.le_zero.mp hn
      rw [dropPieces_zero, List.drop_zero]
  | cons piece ended ih =>
      cases n with
      | zero => simp
      | succ n =>
          have hpiece : sep ∉ piece := hclosed piece List.mem_cons_self
          rw [List.flatMap_cons, List.append_assoc, List.append_assoc, List.singleton_append,
            dropPieces_piece hpiece, List.drop_succ_cons]
          exact ih (Nat.le_of_succ_le_succ hn)
            fun later hlater => hclosed later (List.mem_cons_of_mem piece hlater)

theorem lastPieces_toList (n : Nat) (p : Pieced sep) :
    lastPieces sep n p.toList = (p.last n).toList := by
  rw [lastPieces, count_toList, toList, dropPieces_flatMap (Nat.sub_le _ _) p.closed]
  rfl

/-- Every list is made of its pieces. -/
theorem exists_toList (xs : List α) : ∃ p : Pieced sep, p.toList = xs := by
  induction xs with
  | nil => exact ⟨⟨[], [], nofun, List.not_mem_nil⟩, rfl⟩
  | cons x xs ih =>
      obtain ⟨⟨ended, unended, closed, notEnded⟩, rfl⟩ := ih
      by_cases hx : x = sep
      · subst hx
        exact ⟨⟨[] :: ended, unended, List.forall_mem_cons.mpr ⟨List.not_mem_nil, closed⟩,
          notEnded⟩,
          rfl⟩
      · have hcons : ∀ {piece : List α}, sep ∉ piece → sep ∉ x :: piece := fun hpiece hmem =>
          (List.mem_cons.mp hmem).elim (fun h => hx h.symm) hpiece
        cases ended with
        | nil => exact ⟨⟨[], x :: unended, nofun, hcons notEnded⟩, rfl⟩
        | cons piece ended =>
            obtain ⟨hpiece, hended⟩ := List.forall_mem_cons.mp closed
            exact ⟨⟨(x :: piece) :: ended, unended,
              List.forall_mem_cons.mpr ⟨hcons hpiece, hended⟩, notEnded⟩, rfl⟩

end Pieced

end Pieces
