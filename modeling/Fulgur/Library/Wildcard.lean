import Mathlib.Data.List.Basic

/-! # Patterns with wildcards

A pattern is a list of symbols. A star stands for any text, every other symbol for
one letter that it accepts. The matcher goes through pattern and text side by side
and saves one place to come back to, the one after the last star: what the stars
before it took never has to change.
-/

namespace Wildcard

variable {β α : Type} (isStar : β → Bool) (accepts : β → α → Bool)

inductive Matches : List β → List α → Prop
  | nil : Matches [] []
  | one {b : β} {p : List β} {c : α} {t : List α} (hstar : isStar b = false)
      (haccepts : accepts b c = true) (h : Matches p t) : Matches (b :: p) (c :: t)
  | star {b : β} {p : List β} {t : List α} (u : List α) (hstar : isStar b = true)
      (h : Matches p t) : Matches (b :: p) (u ++ t)

/-- The matcher; `saved` is the pattern after the last star, with the text it is tried at. -/
def scan (pattern : List β) (text : List α) (saved : Option (List β × List α)) : Bool :=
  match text with
  | [] => pattern.all isStar
  | c :: rest =>
      if pattern.head?.any (accepts · c) then scan pattern.tail rest saved
      else if pattern.head?.any isStar then
        scan pattern.tail (c :: rest) (some (pattern.tail, c :: rest))
      else match saved with
        | some (afterStar, tried) => scan afterStar tried.tail (some (afterStar, tried.tail))
        | none => false
termination_by (max text.length (saved.elim 0 fun s => s.2.length), pattern.length)
decreasing_by
  · rename_i haccepts
    have hne : pattern ≠ [] := by
      rintro rfl
      cases haccepts
    obtain ⟨b, pattern', rfl⟩ := List.exists_cons_of_ne_nil hne
    simp only [Prod.lex_def, List.length_cons, List.tail_cons]
    omega
  · rename_i hstar
    have hne : pattern ≠ [] := by
      rintro rfl
      cases hstar
    obtain ⟨b, pattern', rfl⟩ := List.exists_cons_of_ne_nil hne
    simp only [Prod.lex_def, List.length_cons, List.tail_cons, Option.elim_some]
    omega
  · simp only [Prod.lex_def, List.length_cons, List.length_tail, Option.elim_some]
    omega

variable {isStar accepts} {b : β} {c : α} {p : List β} {t : List α}

theorem matches_nil : Matches isStar accepts [] t ↔ t = [] := by
  constructor
  · intro h
    cases h
    rfl
  · rintro rfl
    exact .nil

theorem matches_one (hstar : isStar b = false) :
    Matches isStar accepts (b :: p) (c :: t) ↔ accepts b c = true ∧ Matches isStar accepts p t := by
  constructor
  · intro h
    generalize htext : c :: t = text at h
    cases h with
    | one _ haccepts h =>
        cases htext
        exact ⟨haccepts, h⟩
    | star u hstar' _ =>
        rw [hstar] at hstar'
        cases hstar'
  · rintro ⟨haccepts, h⟩
    exact .one hstar haccepts h

theorem matches_star (hstar : isStar b = true) :
    Matches isStar accepts (b :: p) t ↔ ∃ u v, t = u ++ v ∧ Matches isStar accepts p v := by
  constructor
  · intro h
    cases h with
    | one hstar' _ _ =>
        rw [hstar] at hstar'
        cases hstar'
    | star u _ h => exact ⟨u, _, rfl, h⟩
  · rintro ⟨u, v, rfl, h⟩
    exact .star u hstar h

theorem matches_empty : Matches isStar accepts p [] ↔ p.all isStar = true := by
  induction p with
  | nil => simp [matches_nil]
  | cons b p ih =>
      rw [List.all_cons, Bool.and_eq_true, ← ih]
      constructor
      · intro h
        generalize htext : ([] : List α) = text at h
        cases h with
        | one _ _ _ => cases htext
        | star u hstar h =>
            obtain ⟨rfl, rfl⟩ := List.append_eq_nil_iff.mp htext.symm
            exact ⟨hstar, h⟩
      · rintro ⟨hstar, h⟩
        exact (matches_star hstar).mpr ⟨[], [], rfl, h⟩

/-- Symbols that are no stars take as many letters. -/
theorem matches_segment {segment : List β} (hsegment : ∀ b ∈ segment, isStar b = false)
    (h : Matches isStar accepts (segment ++ p) t) :
    ∃ w v, t = w ++ v ∧ w.length = segment.length ∧ Matches isStar accepts p v := by
  induction segment generalizing t with
  | nil => exact ⟨[], t, rfl, rfl, h⟩
  | cons b segment ih =>
      have hstar := hsegment b List.mem_cons_self
      rw [List.cons_append] at h
      cases h with
      | one _ _ h =>
          obtain ⟨w, v, rfl, hlength, hmatches⟩ :=
            ih (fun other hother => hsegment other (List.mem_cons_of_mem b hother)) h
          exact ⟨_ :: w, v, rfl, by rw [List.length_cons, List.length_cons, hlength], hmatches⟩
      | star u hstar' _ =>
          rw [hstar] at hstar'
          cases hstar'

/-- A star in front of the pattern takes what is put in front of the text. -/
theorem Matches.prepend (hstar : isStar b = true) (h : Matches isStar accepts (b :: p) t)
    (u : List α) : Matches isStar accepts (b :: p) (u ++ t) := by
  obtain ⟨u', v, rfl, hmatches⟩ := (matches_star hstar).mp h
  exact (matches_star hstar).mpr ⟨u ++ u', v, (List.append_assoc u u' v).symm, hmatches⟩

variable (isStar accepts) in
/-- The pattern after the last star matches further on than where it is tried. -/
def MatchesLater : Option (List β × List α) → Prop
  | none => False
  | some (afterStar, tried) =>
      ∃ u v, u ≠ [] ∧ tried = u ++ v ∧ Matches isStar accepts afterStar v

variable (isStar) in
/-- Since the last star the matcher took one letter for each symbol. -/
def Tried (saved : Option (List β × List α)) (pattern : List β) (text : List α) : Prop :=
  ∀ s ∈ saved, ∃ segment w, s.1 = segment ++ pattern ∧ s.2 = w ++ text ∧
    segment.length = w.length ∧ ∀ b ∈ segment, isStar b = false

/-- A star that the matcher comes to does whatever a retry of the last one could do. -/
theorem matches_of_later {saved : Option (List β × List α)} (hstar : isStar b = true)
    (htried : Tried isStar saved (b :: p) t) (hlater : MatchesLater isStar accepts saved) :
    Matches isStar accepts (b :: p) t := by
  cases saved with
  | none => exact hlater.elim
  | some s =>
      obtain ⟨u, v, _, hsplit, hmatches⟩ := hlater
      obtain ⟨segment, w, hpattern, htext, hlength, hsegment⟩ := htried s rfl
      rw [hpattern] at hmatches
      obtain ⟨w', v', rfl, hlength', hrest⟩ := matches_segment hsegment hmatches
      have hjoined : w ++ t = (u ++ w') ++ v' := by
        rw [← htext, hsplit, List.append_assoc]
      have hlong : w.length ≤ (u ++ w').length := by
        rw [List.length_append]
        omega
      obtain ⟨x, hx⟩ := List.prefix_of_prefix_length_le (List.prefix_append w t)
        (hjoined ▸ List.prefix_append (u ++ w') v') hlong
      rw [← hx, List.append_assoc] at hjoined
      rw [List.append_cancel_left hjoined]
      exact hrest.prepend hstar x

/-- At the end of the text a retry would leave symbols without letters. -/
theorem not_matchesLater {saved : Option (List β × List α)} (htried : Tried isStar saved p []) :
    ¬MatchesLater isStar accepts saved := by
  cases saved with
  | none => exact id
  | some s =>
      rintro ⟨u, v, hu, hsplit, hmatches⟩
      obtain ⟨segment, w, hpattern, htext, hlength, hsegment⟩ := htried s rfl
      rw [hpattern] at hmatches
      obtain ⟨w', v', rfl, hlength', _⟩ := matches_segment hsegment hmatches
      have htotal := congrArg List.length (htext.symm.trans hsplit)
      simp only [List.length_append, List.length_nil] at htotal
      have hpos := List.length_pos_iff.mpr hu
      omega

theorem matchesLater_cons {afterStar : List β} :
    MatchesLater isStar accepts (some (afterStar, c :: t)) ↔
      Matches isStar accepts afterStar t ∨ MatchesLater isStar accepts (some (afterStar, t)) := by
  constructor
  · rintro ⟨u, v, hu, hsplit, hmatches⟩
    obtain ⟨d, u', rfl⟩ := List.exists_cons_of_ne_nil hu
    obtain ⟨rfl, rfl⟩ := List.cons.inj hsplit
    cases u' with
    | nil => exact Or.inl hmatches
    | cons d u' => exact Or.inr ⟨d :: u', v, List.cons_ne_nil d u', rfl, hmatches⟩
  · rintro (hmatches | ⟨u, v, _, rfl, hmatches⟩)
    · exact ⟨[c], t, List.cons_ne_nil c [], rfl, hmatches⟩
    · exact ⟨c :: u, v, List.cons_ne_nil c u, rfl, hmatches⟩

theorem matches_star_iff (hstar : isStar b = true) :
    Matches isStar accepts (b :: p) t ↔
      Matches isStar accepts p t ∨ MatchesLater isStar accepts (some (p, t)) := by
  rw [matches_star hstar]
  constructor
  · rintro ⟨u, v, rfl, hmatches⟩
    by_cases hu : u = []
    · rw [hu]
      exact Or.inl hmatches
    · exact Or.inr ⟨u, v, hu, rfl, hmatches⟩
  · rintro (hmatches | ⟨u, v, _, hsplit, hmatches⟩)
    · exact ⟨[], t, rfl, hmatches⟩
    · exact ⟨u, v, hsplit, hmatches⟩

/-- Neither the letter nor a star: the matcher is stuck. -/
theorem not_matches (haccepts : ¬p.head?.any (accepts · c) = true)
    (hstar : ¬p.head?.any isStar = true) : ¬Matches isStar accepts p (c :: t) := by
  cases p with
  | nil => exact fun h => List.cons_ne_nil c t (matches_nil.mp h)
  | cons b p =>
      have hsymbol : isStar b = false := Bool.not_eq_true _ ▸ hstar
      rw [matches_one hsymbol]
      exact fun h => haccepts h.1

theorem tried_here (p : List β) (t : List α) : Tried isStar (some (p, t)) p t := by
  intro s hs
  cases hs
  exact ⟨[], [], rfl, rfl, rfl, by simp⟩

theorem Tried.next {saved : Option (List β × List α)} (h : Tried isStar saved (b :: p) (c :: t))
    (hstar : isStar b = false) : Tried isStar saved p t := by
  intro s hs
  obtain ⟨segment, w, hpattern, htext, hlength, hsegment⟩ := h s hs
  refine ⟨segment ++ [b], w ++ [c], by simpa using hpattern, by simpa using htext, ?_, ?_⟩
  · rw [List.length_append, List.length_append, hlength]
    rfl
  · intro other hother
    rcases List.mem_append.mp hother with hold | hnew
    · exact hsegment other hold
    · rwa [List.mem_singleton.mp hnew]

variable (isStar accepts) in
/-- Only symbols that are no stars accept the letter. -/
def Plain (c : α) : Prop := ∀ b, accepts b c = true → isStar b = false

/-- The matcher finds a match where it is, or one further on for what it saved. -/
theorem scan_iff_of_tried {saved : Option (List β × List α)} (htried : Tried isStar saved p t)
    (hplain : ∀ c ∈ t, Plain isStar accepts c)
    (hplains : ∀ s ∈ saved, ∀ c ∈ s.2, Plain isStar accepts c) :
    scan isStar accepts p t saved = true ↔
      Matches isStar accepts p t ∨ MatchesLater isStar accepts saved := by
  fun_induction scan isStar accepts p t saved with
  | case1 pattern saved => rw [matches_empty, or_iff_left (not_matchesLater htried)]
  | case2 pattern saved c rest haccepts ih =>
      cases pattern with
      | nil => cases haccepts
      | cons b pattern =>
          have hstar := hplain c List.mem_cons_self b haccepts
          have hrest := fun d hd => hplain d (List.mem_cons_of_mem c hd)
          rw [List.tail_cons] at ih ⊢
          rw [ih (htried.next hstar) hrest hplains, matches_one hstar,
            and_iff_right (show accepts b c = true from haccepts)]
  | case3 pattern saved c rest haccepts hstar ih =>
      cases pattern with
      | nil => cases hstar
      | cons b pattern =>
          have hsymbol : isStar b = true := hstar
          rw [List.tail_cons] at ih ⊢
          rw [ih (tried_here pattern (c :: rest)) hplain (by rintro s ⟨⟩; exact hplain),
            ← matches_star_iff hsymbol]
          exact ⟨Or.inl, fun h => h.elim id (matches_of_later hsymbol htried)⟩
  | case4 pattern c rest haccepts hstar afterStar tried ih =>
      obtain ⟨segment, w, _, htext, _, _⟩ := htried _ rfl
      have hne : tried ≠ [] := by
        rw [show tried = w ++ c :: rest from htext]
        exact List.append_ne_nil_of_right_ne_nil w (List.cons_ne_nil c rest)
      obtain ⟨d, tried, rfl⟩ := List.exists_cons_of_ne_nil hne
      have hplains' := fun e he => hplains _ rfl e (List.mem_cons_of_mem d he)
      rw [List.tail_cons] at ih ⊢
      rw [ih (tried_here afterStar tried) hplains' (by rintro s ⟨⟩; exact hplains'),
        ← matchesLater_cons, or_iff_right (not_matches haccepts hstar)]
  | case5 pattern c rest haccepts hstar =>
      refine iff_of_false Bool.false_ne_true (not_or_intro (not_matches haccepts hstar) id)

/-- On a text of plain letters the matcher is right. -/
theorem scan_iff (hplain : ∀ c ∈ t, Plain isStar accepts c) :
    scan isStar accepts p t none = true ↔ Matches isStar accepts p t := by
  rw [scan_iff_of_tried (by rintro s ⟨⟩) hplain (by rintro s ⟨⟩),
    or_iff_left (show ¬MatchesLater isStar accepts none from id)]

/-- A pattern of symbols that accept nothing but themselves matches itself. -/
theorem matches_literal {isStar : α → Bool} {accepts : α → α → Bool} {p t : List α}
    (hstar : ∀ b ∈ p, isStar b = false) (haccepts : ∀ b ∈ p, ∀ c, accepts b c = true ↔ b = c) :
    Matches isStar accepts p t ↔ p = t := by
  induction p generalizing t with
  | nil => rw [matches_nil, eq_comm]
  | cons b p ih =>
      have hsymbol := hstar b List.mem_cons_self
      cases t with
      | nil =>
          rw [matches_empty, List.all_cons, hsymbol]
          exact iff_of_false Bool.false_ne_true (List.cons_ne_nil b p)
      | cons c t =>
          rw [matches_one hsymbol, haccepts b List.mem_cons_self, List.cons.injEq,
            ih (fun d hd => hstar d (List.mem_cons_of_mem b hd))
              fun d hd => haccepts d (List.mem_cons_of_mem b hd)]

end Wildcard
