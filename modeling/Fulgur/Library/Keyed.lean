import Mathlib.Data.List.Basic
import Mathlib.Data.List.Nodup

/-! # Lists with distinct keys

When no key occurs twice, an element stands out from a list: the list is that
element and others with other keys. What an update or a removal by key does to
the list, and to anything gathered from it, can be read off there.
-/

namespace Keyed

variable {α κ : Type} {key : α → κ} {xs rest : List α} {x : α}

/-- An element and the others, which have other keys. -/
theorem exists_rest (hkeys : (xs.map key).Nodup) (hx : x ∈ xs) :
    ∃ rest, xs.Perm (x :: rest) ∧ ∀ other ∈ rest, key other ≠ key x := by
  rcases List.append_of_mem hx with ⟨before, after, rfl⟩
  refine ⟨before ++ after, List.perm_middle, fun other hother hsame => ?_⟩
  have hdistinct := (List.perm_middle.map key).nodup_iff.mp hkeys
  rw [List.map_cons, List.nodup_cons] at hdistinct
  exact hdistinct.1 (hsame ▸ List.mem_map_of_mem hother)

/-- An element is the only one exactly when there is one. -/
theorem length_eq_one_iff (hkeys : (xs.map key).Nodup) (hx : x ∈ xs) :
    xs.length = 1 ↔ ∀ other ∈ xs, other = x := by
  obtain ⟨rest, hperm, hrest⟩ := exists_rest hkeys hx
  rw [hperm.length_eq, List.length_cons, Nat.add_eq_right, List.length_eq_zero_iff]
  constructor
  · rintro rfl other hother
    simpa using hperm.mem_iff.mp hother
  · intro honly
    refine List.eq_nil_iff_forall_not_mem.mpr fun other hother => hrest other hother ?_
    rw [honly other (hperm.mem_iff.mpr (List.mem_cons_of_mem x hother))]

/-- What is gathered from a list, one element singled out. -/
theorem filterMap_perm {β : Type} (f : α → Option β) (hxs : xs.Perm (x :: rest)) :
    (xs.filterMap f).Perm ((f x).toList ++ rest.filterMap f) := by
  have hmapped := hxs.filterMap f
  cases hvalue : f x with
  | none => rwa [List.filterMap_cons_none hvalue] at hmapped
  | some value => rwa [List.filterMap_cons_some hvalue] at hmapped

/-- What is not gathered may stand anywhere. -/
theorem filterMap_insertIdx {β : Type} {f : α → Option β} (hx : f x = none) (xs : List α)
    (index : Nat) : (xs.insertIdx index x).filterMap f = xs.filterMap f := by
  induction xs generalizing index with
  | nil =>
      cases index with
      | zero => simp [hx]
      | succ index => simp
  | cons y ys ih =>
      cases index with
      | zero => simp [hx]
      | succ index => rw [List.insertIdx_succ_cons, List.filterMap_cons, List.filterMap_cons, ih]

/-- What is gathered keeps its keys, so no two of it have the same. -/
theorem sublist_filterMap {β : Type} {f : α → Option β} {keyOf : β → κ}
    (hkey : ∀ x y, f x = some y → keyOf y = key x) (xs : List α) :
    ((xs.filterMap f).map keyOf).Sublist (xs.map key) := by
  induction xs with
  | nil => exact List.Sublist.refl _
  | cons x xs ih =>
      cases hvalue : f x with
      | none =>
          rw [List.filterMap_cons_none hvalue, List.map_cons]
          exact ih.cons _
      | some y =>
          rw [List.filterMap_cons_some hvalue, List.map_cons, List.map_cons, hkey x y hvalue]
          exact ih.cons_cons _

/-- An index finds an element by its key exactly when it is the number of elements before it. -/
theorem getElem?_key_iff {before after : List α} (hkeys : ((before ++ x :: after).map key).Nodup)
    {index : Nat} :
    (before ++ x :: after)[index]?.map key = some (key x) ↔ index = before.length := by
  have hat : ((before ++ x :: after).map key)[before.length]? = some (key x) := by
    simp
  have hlt : before.length < ((before ++ x :: after).map key).length := by
    simp
  rw [← List.getElem?_map]
  constructor
  · intro hindex
    exact ((List.getElem?_inj hlt hkeys).mp (hat.trans hindex.symm)).symm
  · rintro rfl
    exact hat

variable [DecidableEq κ]

variable (key) in
def updateKey (k : κ) (f : α → α) (xs : List α) : List α :=
  xs.map fun x => if key x = k then f x else x

variable (key) in
def dropKey (k : κ) (xs : List α) : List α := xs.filter fun x => key x ≠ k

/-- Elements with other keys are not updated. -/
theorem updateKey_of_ne {k : κ} (f : α → α) (hrest : ∀ other ∈ rest, key other ≠ k) :
    updateKey key k f rest = rest := by
  unfold updateKey
  rw [List.map_congr_left (fun other hother => if_neg (hrest other hother)), List.map_id']

theorem updateKey_perm (f : α → α) (hxs : xs.Perm (x :: rest))
    (hrest : ∀ other ∈ rest, key other ≠ key x) :
    (updateKey key (key x) f xs).Perm (f x :: rest) := by
  have hmapped := hxs.map fun other => if key other = key x then f other else other
  rw [List.map_cons, if_pos rfl] at hmapped
  have hkept : rest.map (fun other => if key other = key x then f other else other) = rest :=
    updateKey_of_ne f hrest
  rwa [hkept] at hmapped

theorem dropKey_perm (hxs : xs.Perm (x :: rest)) (hrest : ∀ other ∈ rest, key other ≠ key x) :
    (dropKey key (key x) xs).Perm rest := by
  have hfiltered := hxs.filter fun other => key other ≠ key x
  have hkept : rest.filter (fun other => key other ≠ key x) = rest :=
    List.filter_eq_self.mpr (by simpa using hrest)
  rw [List.filter_cons_of_neg (by simp), hkept] at hfiltered
  exact hfiltered

/-- An update that keeps the key keeps the keys distinct. -/
theorem map_key_updateKey {k : κ} {f : α → α} (hf : ∀ x, key x = k → key (f x) = k) (xs : List α) :
    (updateKey key k f xs).map key = xs.map key := by
  unfold updateKey
  rw [List.map_map]
  refine List.map_congr_left fun x _ => ?_
  simp only [Function.comp_apply]
  split
  · rename_i hkey
    exact (hf x hkey).trans hkey.symm
  · rfl

/-- Erasing the first element with a key drops all that have it. -/
theorem eraseP_eq_dropKey (k : κ) (hkeys : (xs.map key).Nodup) :
    xs.eraseP (fun x => key x = k) = dropKey key k xs := by
  induction xs with
  | nil => rfl
  | cons x xs ih =>
      rw [List.map_cons, List.nodup_cons] at hkeys
      unfold dropKey at ih ⊢
      by_cases hx : key x = k
      · rw [List.eraseP_cons_of_pos (by simpa using hx), 
          List.filter_cons_of_neg (by simpa using hx), eq_comm, List.filter_eq_self]
        intro other hother
        have hne : key other ≠ k := fun h =>
          hkeys.1 (List.mem_map.mpr ⟨other, hother, h.trans hx.symm⟩)
        simpa using hne
      · rw [List.eraseP_cons_of_neg (by simpa using hx), 
          List.filter_cons_of_pos (by simpa using hx), ih hkeys.2]

theorem nodup_dropKey (k : κ) (hkeys : (xs.map key).Nodup) : ((dropKey key k xs).map key).Nodup :=
  hkeys.sublist (List.filter_sublist.map key)

theorem mem_updateKey {k : κ} {f : α → α} {y : α} (h : y ∈ updateKey key k f xs) :
    y ∈ xs ∨ ∃ x ∈ xs, key x = k ∧ y = f x := by
  rcases List.mem_map.mp h with ⟨x, hx, rfl⟩
  split
  · rename_i hkey
    exact Or.inr ⟨x, hx, hkey, rfl⟩
  · exact Or.inl hx

/-- What stands under a key is found there. -/
theorem find_of_mem (hkeys : (xs.map key).Nodup) (hx : x ∈ xs) :
    xs.find? (fun y => key y = key x) = some x := by
  cases hfound : xs.find? (fun y => key y = key x) with
  | none =>
      have hmissing := List.find?_eq_none.mp hfound x hx
      simp at hmissing
  | some y =>
      have hsame : key y = key x := by simpa using List.find?_some hfound
      rw [List.inj_on_of_nodup_map hkeys (List.mem_of_find?_eq_some hfound) hx hsame]

/-! ## The first element with a key -/

variable (key) in
def replaceFirst (x : α) : List α → List α
  | [] => []
  | y :: ys => if key y = key x then x :: ys else y :: replaceFirst x ys

/-- What is found under the key is the new element. -/
theorem find_replaceFirst_self (xs : List α) :
    (replaceFirst key x xs).find? (fun y => key y = key x) =
      (xs.find? fun y => key y = key x).map fun _ => x := by
  induction xs with
  | nil => rfl
  | cons y ys ih =>
      unfold replaceFirst
      by_cases hy : key y = key x
      · rw [if_pos hy, List.find?_cons_of_pos (by simp), List.find?_cons_of_pos (by simpa using hy)]
        rfl
      · rw [if_neg hy, List.find?_cons_of_neg (by simpa using hy),
          List.find?_cons_of_neg (by simpa using hy), ih]

/-- Other keys find what they found before. -/
theorem find_replaceFirst_of_ne {k : κ} (hk : k ≠ key x) (xs : List α) :
    (replaceFirst key x xs).find? (fun y => key y = k) = xs.find? fun y => key y = k := by
  induction xs with
  | nil => rfl
  | cons y ys ih =>
      unfold replaceFirst
      by_cases hy : key y = key x
      · have hx : key x ≠ k := fun h => hk h.symm
        have hyk : key y ≠ k := fun h => hx (hy ▸ h)
        rw [if_pos hy, List.find?_cons_of_neg (by simpa using hx),
          List.find?_cons_of_neg (by simpa using hyk)]
      · rw [if_neg hy, List.find?_cons, List.find?_cons, ih]

/-- What is left after a removal was found before. -/
theorem find_of_find_dropKey {k j : κ} {xs : List α}
    (h : (dropKey key k xs).find? (fun y => key y = j) = some x) :
    xs.find? (fun y => key y = j) = some x := by
  have hx : key x = j := by simpa using List.find?_some h
  have hxk : key x ≠ k := by simpa using (List.mem_filter.mp (List.mem_of_find?_eq_some h)).2
  induction xs with
  | nil => exact h
  | cons y ys ih =>
      by_cases hy : key y = k
      · rw [dropKey, List.filter_cons_of_neg (by simpa using hy)] at h
        have hyj : key y ≠ j := fun hyj => hxk (hx.trans (hyj.symm.trans hy))
        rw [List.find?_cons_of_neg (by simpa using hyj)]
        exact ih h
      · rw [dropKey, List.filter_cons_of_pos (by simpa using hy), List.find?_cons] at h
        rw [List.find?_cons]
        split at h
        · exact h
        · exact ih h

/-! ## Groups -/

/-- Elements collected key by key are all there, each once. -/
theorem flatMap_filter_perm {keys : List κ} (hnodup : keys.Nodup) (hkey : ∀ x ∈ xs, key x ∈ keys) :
    (keys.flatMap fun k => xs.filter fun x => key x = k).Perm xs := by
  induction keys generalizing xs with
  | nil =>
      have hnil : xs = [] := List.eq_nil_iff_forall_not_mem.mpr fun x hx => by simpa using hkey x hx
      simp [hnil]
  | cons k keys ih =>
      obtain ⟨hfresh, hnodup⟩ := List.nodup_cons.mp hnodup
      have hrest : ∀ x ∈ xs.filter (fun x => !decide (key x = k)), key x ∈ keys := by
        intro x hx
        simp only [List.mem_filter, Bool.not_eq_true', decide_eq_false_iff_not] at hx
        exact (List.mem_cons.mp (hkey x hx.1)).resolve_left hx.2
      have hsame : (keys.flatMap fun other => xs.filter fun x => key x = other) =
          keys.flatMap fun other =>
            (xs.filter fun x => !decide (key x = k)).filter fun x => key x = other := by
        refine List.flatMap_congr fun other hother => ?_
        rw [List.filter_filter]
        refine List.filter_congr fun x _ => ?_
        have hne : key x = other → key x ≠ k := fun hx hk => hfresh (hk ▸ hx ▸ hother)
        by_cases hx : key x = other
        · simp [hx, hx ▸ hne hx]
        · simp [hx]
      rw [List.flatMap_cons, hsame]
      exact ((ih hnodup hrest).append_left _).trans (List.filter_append_perm _ xs)

/-! ## Pairs of a key and a value -/

section Lookup

variable {β : Type} [BEq κ] [LawfulBEq κ] {k j : κ}

theorem lookup_dropKey (hj : j ≠ k) (xs : List (κ × β)) :
    (dropKey Prod.fst k xs).lookup j = xs.lookup j := by
  unfold dropKey
  induction xs with
  | nil => rfl
  | cons x xs ih =>
      by_cases hx : x.1 = k
      · rw [List.filter_cons_of_neg (by simpa using hx), ih, List.lookup_cons,
          beq_false_of_ne (hx ▸ hj)]
      · rw [List.filter_cons_of_pos (by simpa using hx), List.lookup_cons, List.lookup_cons, ih]

/-- What replaces the value of a key is found under it, and nothing else changes. -/
theorem lookup_replace (k j : κ) (value : β) (xs : List (κ × β)) :
    ((k, value) :: dropKey Prod.fst k xs).lookup j = if j = k then some value else xs.lookup j := by
  rw [List.lookup_cons]
  by_cases hj : j = k
  · rw [if_pos hj, beq_iff_eq.mpr hj]
  · rw [if_neg hj, beq_false_of_ne hj]
    exact lookup_dropKey hj xs

omit [DecidableEq κ] in
theorem lookup_eq_none {xs : List (κ × β)} (h : ∀ x ∈ xs, x.1 ≠ k) : xs.lookup k = none := by
  rw [List.lookup_eq_none_iff]
  exact fun x hx => bne_iff_ne.mpr (h x hx).symm

end Lookup

end Keyed
