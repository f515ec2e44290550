import Mathlib.Data.List.Basic

/-! # Lists whose elements are expanded

Each element of a list is replaced by a list of its own. A place in the result
lies between the expansions of two elements or within the expansion of one.
-/

namespace Expansion

variable {α β : Type} {f : α → List β} {xs before after : List α} {p r : List β}

/--
The result cut into `p` and `r`, traced back to the elements: all of `before` is
expanded in `p`, and of the first of `after` a part at most.
-/
inductive Cut (f : α → List β) (before : List α) : List α → List β → List β → Prop
  | between (after : List α) : Cut f before after (before.flatMap f) (after.flatMap f)
  | within (a : α) (rest : List α) (pre post : List β) (hpre : pre ≠ []) (hpost : post ≠ [])
      (ha : f a = pre ++ post) :
      Cut f before (a :: rest) (before.flatMap f ++ pre) (post ++ rest.flatMap f)

theorem Cut.cons (a : α) (h : Cut f before after p r) : Cut f (a :: before) after (f a ++ p) r := by
  cases h with
  | between after =>
      rw [← List.flatMap_cons]
      exact .between after
  | within b rest pre post hpre hpost hb =>
      rw [← List.append_assoc, ← List.flatMap_cons]
      exact .within b rest pre post hpre hpost hb

/-- A place that is traced back is one of the whole result. -/
theorem Cut.flatMap (h : Cut f before after p r) : (before ++ after).flatMap f = p ++ r := by
  rw [List.flatMap_append]
  cases h with
  | between after => rfl
  | within a rest pre post hpre hpost ha =>
      rw [List.flatMap_cons, ha, List.append_assoc, List.append_assoc]

/-- Every place can be traced back. -/
theorem exists_cut (h : xs.flatMap f = p ++ r) :
    ∃ before after, xs = before ++ after ∧ Cut f before after p r := by
  induction xs generalizing p with
  | nil =>
      obtain ⟨rfl, rfl⟩ := List.append_eq_nil_iff.mp h.symm
      exact ⟨[], [], rfl, .between []⟩
  | cons a xs ih =>
      rw [List.flatMap_cons] at h
      rcases List.append_eq_append_iff.mp h with ⟨p', rfl, hp'⟩ | ⟨post, hpost, hr⟩
      · obtain ⟨before, after, rfl, hcut⟩ := ih hp'
        exact ⟨a :: before, after, rfl, hcut.cons a⟩
      · -- the place lies before the end of the first expansion
        by_cases hnil : p = []
        · subst hnil
          refine ⟨[], a :: xs, rfl, ?_⟩
          rw [List.nil_append] at hpost
          rw [hr, ← hpost, ← List.flatMap_cons]
          exact .between (a :: xs)
        by_cases hend : post = []
        · subst hend
          rw [List.append_nil] at hpost
          refine ⟨[a], xs, rfl, ?_⟩
          rw [hr, ← hpost, List.nil_append, ← List.append_nil (f a)]
          exact .between xs
        · rw [hr]
          exact ⟨[], a :: xs, rfl, .within a xs p post hnil hend hpost⟩

/-- How far a place is from the beginning. -/
theorem Cut.length (h : Cut f before after p r) :
    (before.flatMap f).length ≤ p.length ∧
      ∀ a rest, after = a :: rest → f a ≠ [] → p.length < ((before ++ [a]).flatMap f).length := by
  have happend : ∀ a, ((before ++ [a]).flatMap f).length =
      (before.flatMap f).length + (f a).length := by
    intro a
    simp
  cases h with
  | between after =>
      refine ⟨Nat.le_refl _, fun a rest _ ha => ?_⟩
      have hpos := List.length_pos_iff.mpr ha
      rw [happend]
      omega
  | within b rest pre post hpre hpost hb =>
      have hlen := congrArg List.length hb
      have hpos := List.length_pos_iff.mpr hpost
      rw [List.length_append] at hlen ⊢
      refine ⟨by omega, fun a rest' hcons _ => ?_⟩
      obtain ⟨rfl, -⟩ := List.cons.inj hcons
      rw [happend]
      omega

/-- Two places, traced back in their order. -/
theorem exists_span (hf : ∀ a, f a ≠ []) {q : List β} (h : xs.flatMap f = p ++ (q ++ r)) :
    ∃ before middle after, xs = before ++ (middle ++ after) ∧
      Cut f before (middle ++ after) p (q ++ r) ∧ Cut f (before ++ middle) after (p ++ q) r := by
  obtain ⟨before, after, hxs, hcut⟩ := exists_cut h
  rw [← List.append_assoc] at h
  obtain ⟨before', after', hxs', hcut'⟩ := exists_cut h
  rcases List.append_eq_append_iff.mp (hxs.symm.trans hxs') with
    ⟨middle, rfl, hmiddle⟩ | ⟨middle, rfl, hmiddle⟩
  · exact ⟨before, middle, after', by rw [hxs, hmiddle], hmiddle ▸ hcut, hcut'⟩
  · cases middle with
    | nil =>
        rw [List.append_nil] at hcut hxs
        rw [List.nil_append] at hmiddle
        exact ⟨before', [], after, hxs, hcut, by rwa [List.append_nil, ← hmiddle]⟩
    | cons a middle =>
        -- the second place would come before the first
        have hlt := hcut'.length.2 a (middle ++ after) hmiddle (hf a)
        have hle := hcut.length.1
        rw [List.append_cons before' a middle, List.flatMap_append, List.length_append] at hle
        rw [List.length_append] at hlt
        omega

/-- A place before the end of an expansion belongs to its element. -/
theorem Cut.of_part (before : List α) {a : α} (rest : List α) {pre post : List β}
    (ha : f a = pre ++ post) (hpost : post ≠ []) :
    Cut f before (a :: rest) (before.flatMap f ++ pre) (post ++ rest.flatMap f) := by
  by_cases hpre : pre = []
  · subst hpre
    rw [List.append_nil, ← List.nil_append post, ← ha, ← List.flatMap_cons]
    exact .between (a :: rest)
  · exact .within a rest pre post hpre hpost ha

/-- Two places of one element: what lies between them is a part of its expansion. -/
theorem Cut.part {q : List β} (hq : q ≠ []) (hstart : Cut f before after p (q ++ r))
    (hend : Cut f before after (p ++ q) r) :
    ∃ a rest pre post, after = a :: rest ∧ f a = pre ++ (q ++ post) ∧ post ≠ [] ∧
      r = post ++ rest.flatMap f := by
  obtain ⟨pre, rfl⟩ : ∃ pre, p = before.flatMap f ++ pre := by
    generalize q ++ r = result at hstart
    cases hstart with
    | between => exact ⟨[], (List.append_nil _).symm⟩
    | within a rest pre post hpre hpost ha => exact ⟨pre, rfl⟩
  rw [List.append_assoc] at hend
  generalize hwhole : before.flatMap f ++ (pre ++ q) = whole at hend
  cases hend with
  | between =>
      have hnil := List.append_right_eq_self.mp hwhole
      exact absurd (List.append_eq_nil_iff.mp hnil).2 hq
  | within a rest pre' post hpre hpost ha =>
      obtain rfl := List.append_cancel_left hwhole
      exact ⟨a, rest, pre, post, rfl, by rw [ha, List.append_assoc], hpost, rfl⟩

end Expansion
