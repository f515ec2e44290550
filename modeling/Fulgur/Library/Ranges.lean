import Mathlib.Data.List.Basic
import Mathlib.Order.MinMax

/-! # Searching in ranges

A binary search finds an element if what comes before it is answered by `.lt` and
what comes behind it by `.gt`. So it does in a list of ranges which begin one after
the other, each behind the end of those before it.
-/

namespace Ranges

/-! ## Binary search -/

section Search

variable {β : Type} (f : β → Ordering) (xs : List β)

/-- The loop of the search: it ends with a window of one element, and gives its index. -/
def narrow (base size : Nat) : Nat :=
  if size ≤ 1 then base
  else
    let half := size / 2
    let mid := base + half
    narrow (if xs[mid]?.map f = some .gt then base else mid) (size - half)
termination_by size
decreasing_by omega

/-- `slice::binary_search_by`. -/
def binarySearchBy : Except Nat Nat :=
  let base := narrow f xs 0 xs.length
  match xs[base]? with
  | none => .error 0
  | some x =>
      match f x with
      | .eq => .ok base
      | .lt => .error (base + 1)
      | .gt => .error base

/-- The answers are first `.lt`, then `.eq` and last `.gt`. -/
def Partitioned : Prop :=
  xs.Pairwise fun x y => (f y = .lt → f x = .lt) ∧ (f x = .gt → f y = .gt)

variable {f xs}

/-- An element that is searched for stays in the window. -/
theorem narrow_spec (h : Partitioned f xs) {base size : Nat} (hsize : base + size ≤ xs.length)
    {i : Nat} {x : β} (hx : xs[i]? = some x) (hfound : f x = .eq) (hbase : base ≤ i)
    (hi : i < base + size) : ∃ y, xs[narrow f xs base size]? = some y ∧ f y = .eq := by
  induction hmeasure : size using Nat.strong_induction_on generalizing base size i x with
  | _ n ih =>
      subst hmeasure
      rw [narrow]
      split
      · rename_i hone
        obtain rfl : i = base := by omega
        exact ⟨x, hx, hfound⟩
      · rename_i hmore
        have hmid : base + size / 2 < xs.length := by omega
        have hget := List.getElem?_eq_getElem hmid
        have hordered : ∀ {j k : Nat} {y z : β}, xs[j]? = some y → xs[k]? = some z → j < k →
            (f z = .lt → f y = .lt) ∧ (f y = .gt → f z = .gt) := by
          intro j k y z hy hz hjk
          obtain ⟨hj, rfl⟩ := List.getElem?_eq_some_iff.mp hy
          obtain ⟨hk, rfl⟩ := List.getElem?_eq_some_iff.mp hz
          exact List.pairwise_iff_getElem.mp h j k hj hk hjk
        dsimp only
        rw [hget, Option.map_some]
        cases hanswer : f xs[base + size / 2] with
        | gt =>
            have hbefore : i < base + size / 2 := by
              by_contra hnot
              rcases Nat.lt_or_eq_of_le (Nat.le_of_not_lt hnot) with hlt | rfl
              · have hgt := (hordered hget hx hlt).2 hanswer
                rw [hfound] at hgt
                cases hgt
              · rw [hget] at hx
                cases hx
                rw [hfound] at hanswer
                cases hanswer
            rw [if_pos rfl]
            exact ih (size - size / 2) (by omega) (by omega) hx hfound hbase (by omega) rfl
        | eq =>
            rw [if_neg (by simp)]
            exact ih (size - size / 2) (by omega) (by omega) hget hanswer (Nat.le_refl _)
              (by omega) rfl
        | lt =>
            have hbehind : base + size / 2 ≤ i := by
              by_contra hnot
              have hlt := (hordered hx hget (Nat.lt_of_not_le hnot)).1 hanswer
              rw [hfound] at hlt
              cases hlt
            rw [if_neg (by simp)]
            exact ih (size - size / 2) (by omega) (by omega) hx hfound hbehind (by omega) rfl

theorem isOk_binarySearchBy (h : Partitioned f xs) :
    (binarySearchBy f xs).isOk = true ↔ ∃ x ∈ xs, f x = .eq := by
  unfold binarySearchBy
  constructor
  · intro hok
    dsimp only at hok
    split at hok
    · cases hok
    · rename_i x hx
      cases hanswer : f x with
      | eq => exact ⟨x, List.mem_of_getElem? hx, hanswer⟩
      | lt =>
          rw [hanswer] at hok
          cases hok
      | gt =>
          rw [hanswer] at hok
          cases hok
  · rintro ⟨x, hmem, hfound⟩
    obtain ⟨i, hi⟩ := List.getElem?_of_mem hmem
    have hbound : i < xs.length := (List.getElem?_eq_some_iff.mp hi).1
    obtain ⟨y, hy, hanswer⟩ := narrow_spec h (Nat.le_of_eq (Nat.zero_add _)) hi hfound
      (Nat.zero_le i) (by omega)
    dsimp only
    rw [hy]
    dsimp only
    rw [hanswer]
    rfl

end Search

/-! ## Ranges -/

variable {α : Type} [LinearOrder α]

/-- A range reaches up to its end, without it. -/
def Within (x : α) (range : α × α) : Prop := range.1 ≤ x ∧ x < range.2

instance (x : α) (range : α × α) : Decidable (Within x range) := inferInstanceAs (Decidable (_ ∧ _))

def Covered (ranges : List (α × α)) (x : α) : Prop := ∃ range ∈ ranges, Within x range

instance (ranges : List (α × α)) (x : α) : Decidable (Covered ranges x) :=
  inferInstanceAs (Decidable (∃ range ∈ ranges, Within x range))

/-- Sorted, and each range ends before the next one begins. -/
def Separated (ranges : List (α × α)) : Prop :=
  ranges.Pairwise fun range next => range.1 ≤ next.1 ∧ range.2 < next.1

def side (x : α) (range : α × α) : Ordering :=
  if x < range.1 then .gt else if range.2 ≤ x then .lt else .eq

theorem side_eq {x : α} {range : α × α} : side x range = .eq ↔ Within x range := by
  unfold side Within
  split
  · rename_i hbefore
    exact iff_of_false nofun fun h => not_lt_of_ge h.1 hbefore
  · rename_i hnot
    split
    · rename_i hbehind
      exact iff_of_false nofun fun h => not_lt_of_ge hbehind h.2
    · rename_i hinside
      exact iff_of_true rfl ⟨le_of_not_gt hnot, lt_of_not_ge hinside⟩

theorem side_eq_gt {x : α} {range : α × α} : side x range = .gt ↔ x < range.1 := by
  unfold side
  split
  · rename_i hbefore
    exact iff_of_true rfl hbefore
  · rename_i hnot
    split <;> exact iff_of_false nofun hnot

theorem side_eq_lt {x : α} {range : α × α} :
    side x range = .lt ↔ range.1 ≤ x ∧ range.2 ≤ x := by
  unfold side
  split
  · rename_i hbefore
    exact iff_of_false nofun fun h => not_lt_of_ge h.1 hbefore
  · rename_i hnot
    split
    · rename_i hbehind
      exact iff_of_true rfl ⟨le_of_not_gt hnot, hbehind⟩
    · rename_i hinside
      exact iff_of_false nofun fun h => hinside h.2

theorem Separated.partitioned {ranges : List (α × α)} (h : Separated ranges) (x : α) :
    Partitioned (side x) ranges := by
  refine List.Pairwise.imp ?_ h
  rintro range next ⟨hstart, hstop⟩
  constructor
  · intro hnext
    have hbehind := (side_eq_lt.mp hnext).1
    exact side_eq_lt.mpr ⟨hstart.trans hbehind, (hstop.trans_le hbehind).le⟩
  · intro hrange
    exact side_eq_gt.mpr ((side_eq_gt.mp hrange).trans_le hstart)

/-- The search finds the range that an element is in. -/
theorem Separated.isOk_binarySearchBy {ranges : List (α × α)} (h : Separated ranges) (x : α) :
    (binarySearchBy (side x) ranges).isOk = true ↔ Covered ranges x := by
  rw [Ranges.isOk_binarySearchBy (h.partitioned x)]
  exact exists_congr fun range => and_congr_right fun _ => side_eq

theorem covered_append {front back : List (α × α)} {x : α} :
    Covered (front ++ back) x ↔ Covered front x ∨ Covered back x := by
  simp only [Covered, List.mem_append, or_and_right, exists_or]

theorem covered_singleton {range : α × α} {x : α} : Covered [range] x ↔ Within x range := by
  simp only [Covered, List.mem_singleton, exists_eq_left]

/-- A range that begins in another one, or right behind it, makes it longer. -/
theorem within_widen {last range : α × α} (hstart : last.1 ≤ range.1) (htouch : range.1 ≤ last.2)
    (x : α) : Within x (last.1, max last.2 range.2) ↔ Within x last ∨ Within x range := by
  unfold Within
  dsimp only
  rw [lt_max_iff]
  constructor
  · rintro ⟨hlast, hbefore | hbefore⟩
    · exact Or.inl ⟨hlast, hbefore⟩
    · rcases lt_or_ge x last.2 with hinside | hbehind
      · exact Or.inl ⟨hlast, hinside⟩
      · exact Or.inr ⟨htouch.trans hbehind, hbefore⟩
  · rintro (⟨hlast, hbefore⟩ | ⟨hrange, hbefore⟩)
    · exact ⟨hlast, Or.inl hbefore⟩
    · exact ⟨hstart.trans hrange, Or.inr hbefore⟩

theorem Separated.widen {front : List (α × α)} {last : α × α} (h : Separated (front ++ [last]))
    (stop : α) : Separated (front ++ [(last.1, stop)]) := by
  obtain ⟨hfront, -, hlast⟩ := List.pairwise_append.mp h
  refine List.pairwise_append.mpr ⟨hfront, List.pairwise_singleton _ _, ?_⟩
  intro range hrange next hnext
  rw [List.mem_singleton.mp hnext]
  exact hlast range hrange last (List.mem_singleton_self last)

/-- A range is added behind the end of the last one. -/
theorem Separated.concat {front : List (α × α)} {last range : α × α}
    (h : Separated (front ++ [last])) (hstarts : ∀ r ∈ front ++ [last], r.1 ≤ range.1)
    (hbehind : last.2 < range.1) : Separated (front ++ [last] ++ [range]) := by
  refine List.pairwise_append.mpr ⟨h, List.pairwise_singleton _ _, ?_⟩
  intro r hr next hnext
  rw [List.mem_singleton.mp hnext]
  refine ⟨hstarts r hr, ?_⟩
  rcases List.mem_append.mp hr with hfront | hlast
  · obtain ⟨-, -, hbefore⟩ := List.pairwise_append.mp h
    have hnear := hbefore r hfront last (List.mem_singleton_self last)
    exact hnear.2.trans_le (hstarts last (List.mem_append_right _ (List.mem_singleton_self last)))
  · rw [List.mem_singleton.mp hlast]
    exact hbehind

end Ranges
