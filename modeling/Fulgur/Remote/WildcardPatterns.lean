import Mathlib.Computability.Language
import Fulgur.Remote.TrustedHosts

/-! # The loop of the wildcard matcher

The loop moves two indices and goes back to the last star when it is stuck. It
ends after boundedly many rounds, with the answer of the matcher on what the
indices leave of pattern and target. For a target without a star the answer
tells whether it is in the language of the pattern.
-/

namespace Fulgur

namespace KnownHosts

/-! ## The loop with its indices -/

/-- The variables of `wildcard_pattern_matches`. -/
structure WildcardLoop where
  patternIndex : Nat
  targetIndex : Nat
  starPatternIndex : Option Nat
  starTargetIndex : Nat
deriving DecidableEq

namespace WildcardLoop

def start : WildcardLoop := ⟨0, 0, none, 0⟩

/-- The second loop, which skips the stars at the end, and the comparison after it. -/
def restIsStars (pattern : List Char) (patternIndex : Nat) : Bool :=
  if h : patternIndex < pattern.length then
    if pattern[patternIndex] = '*' then restIsStars pattern (patternIndex + 1)
    else patternIndex = pattern.length
  else patternIndex = pattern.length
termination_by pattern.length - patternIndex

/-- One round of the first loop: on with other indices, or an answer. -/
def round (pattern target : List Char) (s : WildcardLoop) : WildcardLoop ⊕ Bool :=
  match target[s.targetIndex]? with
  | none => .inr (restIsStars pattern s.patternIndex)
  | some c =>
      if pattern[s.patternIndex]?.any (acceptsChar · c) then
        .inl { s with patternIndex := s.patternIndex + 1, targetIndex := s.targetIndex + 1 }
      else if pattern[s.patternIndex]?.any isStar then
        .inl { s with
          starPatternIndex := some s.patternIndex
          patternIndex := s.patternIndex + 1
          starTargetIndex := s.targetIndex }
      else
        match s.starPatternIndex with
        | some starIdx =>
            .inl { s with
              patternIndex := starIdx + 1
              starTargetIndex := s.starTargetIndex + 1
              targetIndex := s.starTargetIndex + 1 }
        | none => .inr false

/-- The answer after at most `fuel` rounds. -/
def answer (pattern target : List Char) : Nat → WildcardLoop → Option Bool
  | 0, _ => none
  | fuel + 1, s =>
      match round pattern target s with
      | .inl next => answer pattern target fuel next
      | .inr result => some result

/-- What the matcher saved, when the loop has these indices. -/
def saved (pattern target : List Char) (s : WildcardLoop) : Option (List Char × List Char) :=
  s.starPatternIndex.map fun starIdx =>
    (pattern.drop (starIdx + 1), target.drop s.starTargetIndex)

variable {pattern target : List Char} {s : WildcardLoop}

theorem restIsStars_eq (patternIndex : Nat) (h : patternIndex ≤ pattern.length) :
    restIsStars pattern patternIndex = (pattern.drop patternIndex).all isStar := by
  fun_induction restIsStars pattern patternIndex with
  | case1 patternIndex hlt hstar ih =>
      rw [ih hlt, List.drop_eq_getElem_cons hlt, List.all_cons, isStar, hstar, decide_eq_true rfl,
        Bool.true_and]
  | case2 patternIndex hlt hstar =>
      rw [List.drop_eq_getElem_cons hlt, List.all_cons, isStar, decide_eq_false hstar,
        Bool.false_and]
      exact decide_eq_false (by omega)
  | case3 patternIndex hge =>
      rw [List.drop_eq_nil_of_le (by omega)]
      exact decide_eq_true (by omega)

theorem answer_of_le {fuel fuel' : Nat} {result : Bool} (hle : fuel ≤ fuel')
    (h : answer pattern target fuel s = some result) :
    answer pattern target fuel' s = some result := by
  induction fuel generalizing fuel' s with
  | zero => exact nomatch h
  | succ fuel ih =>
      obtain ⟨more, rfl⟩ := Nat.exists_eq_add_of_le hle
      rw [Nat.add_right_comm, answer]
      rw [answer] at h
      cases hround : round pattern target s with
      | inl next =>
          rw [hround] at h
          exact ih (Nat.le_add_right fuel more) h
      | inr answered =>
          rw [hround] at h
          exact h

theorem exists_answer_of_round (next : WildcardLoop) {result : Bool}
    (hround : round pattern target s = .inl next)
    (h : ∃ fuel, answer pattern target fuel next = some result) :
    ∃ fuel, answer pattern target fuel s = some result := by
  obtain ⟨fuel, hfuel⟩ := h
  exact ⟨fuel + 1, by rw [answer, hround]; exact hfuel⟩

theorem exists_answer_of_result {result : Bool} (hround : round pattern target s = .inr result) :
    ∃ fuel, answer pattern target fuel s = some result :=
  ⟨1, by rw [answer, hround]⟩

theorem getElem?_of_drop {xs rest : List Char} {x : Char} {i : Nat} (h : xs.drop i = x :: rest) :
    xs[i]? = some x ∧ xs.drop (i + 1) = rest ∧ i < xs.length := by
  have hlt : i < xs.length := by
    have hlength := congrArg List.length h
    rw [List.length_drop, List.length_cons] at hlength
    omega
  rw [List.drop_eq_getElem_cons hlt, List.cons.injEq] at h
  exact ⟨by rw [List.getElem?_eq_getElem hlt, h.1], h.2, hlt⟩

theorem getElem?_of_drop_nil {xs : List Char} {i : Nat} (h : xs.drop i = []) : xs[i]? = none :=
  List.getElem?_eq_none (List.drop_eq_nil_iff.mp h)

theorem getElem?_eq_head? (xs : List Char) (i : Nat) : xs[i]? = (xs.drop i).head? := by
  rw [List.head?_drop]

/-- The loop ends, with the answer of the matcher. -/
theorem exists_answer (s : WildcardLoop) (hpattern : s.patternIndex ≤ pattern.length)
    (hstar : ∀ i ∈ s.starPatternIndex, i < pattern.length) :
    ∃ fuel, answer pattern target fuel s =
      some (Wildcard.scan isStar acceptsChar (pattern.drop s.patternIndex)
        (target.drop s.targetIndex) (saved pattern target s)) := by
  generalize hp : pattern.drop s.patternIndex = p
  generalize ht : target.drop s.targetIndex = t
  generalize hs : saved pattern target s = sv
  have hhead : pattern[s.patternIndex]? = p.head? := by rw [getElem?_eq_head?, hp]
  fun_induction Wildcard.scan isStar acceptsChar p t sv generalizing s with
  | case1 p sv =>
      refine exists_answer_of_result ?_
      rw [round, getElem?_of_drop_nil ht, ← hp, restIsStars_eq _ hpattern]
  | case2 p sv c rest haccepts ih =>
      obtain ⟨hc, hrest, -⟩ := getElem?_of_drop ht
      obtain ⟨b, p, rfl⟩ : ∃ b p', p = b :: p' := by
        cases p with
        | nil => cases haccepts
        | cons b p => exact ⟨b, p, rfl⟩
      obtain ⟨-, htail, hlt⟩ := getElem?_of_drop hp
      refine exists_answer_of_round
        { s with patternIndex := s.patternIndex + 1, targetIndex := s.targetIndex + 1 } ?_ ?_
      · rw [round, hc]
        dsimp only
        rw [hhead, if_pos haccepts]
      · refine ih _ hlt hstar htail hrest hs ?_
        rw [getElem?_eq_head?, htail]
        rfl
  | case3 p sv c rest haccepts hsymbol ih =>
      obtain ⟨hc, hrest, -⟩ := getElem?_of_drop ht
      obtain ⟨b, p, rfl⟩ : ∃ b p', p = b :: p' := by
        cases p with
        | nil => cases hsymbol
        | cons b p => exact ⟨b, p, rfl⟩
      obtain ⟨-, htail, hlt⟩ := getElem?_of_drop hp
      refine exists_answer_of_round
        { s with
          starPatternIndex := some s.patternIndex
          patternIndex := s.patternIndex + 1
          starTargetIndex := s.targetIndex } ?_ ?_
      · rw [round, hc]
        dsimp only
        rw [hhead, if_neg haccepts, if_pos hsymbol]
      · refine ih _ hlt (by rintro i ⟨⟩; exact hlt) htail ht ?_ ?_
        · exact congrArg some (Prod.ext htail ht)
        · rw [getElem?_eq_head?, htail]
          rfl
  | case4 p c rest haccepts hsymbol afterStar tried ih =>
      obtain ⟨hc, -, -⟩ := getElem?_of_drop ht
      obtain ⟨starIdx, hidx, hpair⟩ := Option.map_eq_some_iff.mp hs
      obtain ⟨hafter, htried⟩ := Prod.mk.inj hpair
      have htail : target.drop (s.starTargetIndex + 1) = tried.tail := by
        rw [← htried, List.tail_drop]
      refine exists_answer_of_round
        { s with
          patternIndex := starIdx + 1
          starTargetIndex := s.starTargetIndex + 1
          targetIndex := s.starTargetIndex + 1 } ?_ ?_
      · rw [round, hc]
        dsimp only
        rw [hhead, if_neg haccepts, if_neg hsymbol, hidx]
      · refine ih _ (hstar starIdx hidx) hstar hafter htail ?_ ?_
        · rw [saved, hidx]
          exact congrArg some (Prod.ext hafter htail)
        · rw [getElem?_eq_head?, hafter]
  | case5 p c rest haccepts hsymbol =>
      obtain ⟨hc, -, -⟩ := getElem?_of_drop ht
      have hnone : s.starPatternIndex = none := Option.map_eq_none_iff.mp hs
      refine exists_answer_of_result ?_
      rw [round, hc]
      dsimp only
      rw [hhead, if_neg haccepts, if_neg hsymbol, hnone]

end WildcardLoop

/-! ## The language of a pattern -/

/-- What one symbol of a pattern stands for. -/
def symbolLanguage (symbol : Char) : Language Char :=
  {text | symbol = '*' ∨ (symbol = '?' ∧ ∃ c, text = [c]) ∨ text = [symbol]}

def patternLanguage (pattern : List Char) : Language Char := (pattern.map symbolLanguage).prod

theorem mem_symbolLanguage {symbol : Char} (hsymbol : symbol ≠ '*') {text : List Char} :
    text ∈ symbolLanguage symbol ↔ ∃ c, text = [c] ∧ acceptsChar symbol c = true := by
  constructor
  · rintro (hstar | ⟨rfl, c, rfl⟩ | rfl)
    · exact absurd hstar hsymbol
    · exact ⟨c, rfl, rfl⟩
    · exact ⟨symbol, rfl, by simp [acceptsChar]⟩
  · rintro ⟨c, rfl, haccepts⟩
    have hother : symbol = '?' ∨ symbol = c := by simpa [acceptsChar] using haccepts
    rcases hother with hquestion | rfl
    · exact Or.inr (Or.inl ⟨hquestion, c, rfl⟩)
    · exact Or.inr (Or.inr rfl)

/-- The language of a pattern is what the wildcards describe. -/
theorem mem_patternLanguage {pattern target : List Char} :
    target ∈ patternLanguage pattern ↔ WildcardMatches pattern target := by
  induction pattern generalizing target with
  | nil =>
      rw [WildcardMatches, Wildcard.matches_nil]
      exact Language.mem_one target
  | cons symbol pattern ih =>
      rw [patternLanguage, List.map_cons, List.prod_cons, Language.mem_mul]
      by_cases hsymbol : symbol = '*'
      · have hstar : isStar symbol = true := decide_eq_true hsymbol
        rw [WildcardMatches, Wildcard.matches_star hstar]
        constructor
        · rintro ⟨u, -, v, hv, rfl⟩
          exact ⟨u, v, rfl, ih.mp hv⟩
        · rintro ⟨u, v, rfl, hv⟩
          exact ⟨u, Or.inl hsymbol, v, ih.mpr hv, rfl⟩
      · constructor
        · rintro ⟨u, hu, v, hv, rfl⟩
          obtain ⟨c, rfl, haccepts⟩ := (mem_symbolLanguage hsymbol).mp hu
          exact .one (decide_eq_false hsymbol) haccepts (ih.mp hv)
        · intro h
          cases h with
          | one _ haccepts hv =>
              exact ⟨[_], (mem_symbolLanguage hsymbol).mpr ⟨_, rfl, haccepts⟩, _, ih.mpr hv, rfl⟩
          | star _ hstar _ => exact absurd (of_decide_eq_true hstar) hsymbol

/-! ## Pattern lists -/

/-- Some pattern of the list, negated or not, has a candidate in its language. -/
def SomeDescribes (negated : Bool) (patterns candidates : List String) : Prop :=
  ∃ pattern ∈ patterns, (splitNegation pattern).1 = negated ∧
    ∃ candidate ∈ candidates, candidate.toList ∈ patternLanguage (splitNegation pattern).2

/-- The loop over the patterns, for any candidates. -/
theorem matchPatternsFrom_candidates {patterns candidates : List String} {matched : Bool} :
    matchPatternsFrom candidates patterns matched = true ↔
      (matched = true ∨ ∃ pattern ∈ patterns, (splitNegation pattern).1 = false ∧
        candidates.any (fun c => wildcardPatternMatches (splitNegation pattern).2 c.toList) =
          true) ∧
      ¬∃ pattern ∈ patterns, (splitNegation pattern).1 = true ∧
        candidates.any (fun c => wildcardPatternMatches (splitNegation pattern).2 c.toList) =
          true := by
  induction patterns generalizing matched with
  | nil => simp [matchPatternsFrom]
  | cons pattern patterns ih =>
      rw [List.exists_mem_cons_iff, List.exists_mem_cons_iff]
      simp only [matchPatternsFrom]
      split
      · rename_i hmatches
        split
        · rename_i hnegated
          simp [hnegated, hmatches]
        · rename_i hpositive
          rw [ih]
          simp [hpositive, hmatches]
      · rename_i hmisses
        rw [ih]
        simp [hmisses]

theorem any_wildcardPatternMatches {pattern : List Char} {candidates : List String}
    (hplain : ∀ candidate ∈ candidates, '*' ∉ candidate.toList) :
    candidates.any (fun c => wildcardPatternMatches pattern c.toList) = true ↔
      ∃ candidate ∈ candidates, candidate.toList ∈ patternLanguage pattern := by
  rw [List.any_eq_true]
  refine exists_congr fun candidate => and_congr_right fun hcandidate => ?_
  rw [wildcardPatternMatches_iff (hplain candidate hcandidate), mem_patternLanguage]

theorem star_notMem_candidates {host : String} (port : UInt16) (hhost : '*' ∉ host.toList) :
    ∀ candidate ∈ hostMatchCandidates host port, '*' ∉ candidate.toList := by
  intro candidate hcandidate
  rcases mem_hostMatchCandidates.mp hcandidate with ⟨-, rfl⟩ | rfl
  · exact hhost
  · have hport : '*' ∉ (toString port.toNat).toList :=
      fun hstar => absurd (Delimiters.isDigit_of_mem_numeral hstar) (by decide)
    simpa [bracketed, hhost] using hport

/--
The loop of the matcher ends for every pattern and target. For a target without a
star it answers whether the target is in the language of the pattern; so a list
matches candidates without stars just when some positive pattern has one of them
in its language and no negated pattern has.
-/
theorem wildcard_patterns_match :
    (∀ pattern target, ∃ enough, ∀ fuel, enough ≤ fuel →
      WildcardLoop.answer pattern target fuel .start =
        some (wildcardPatternMatches pattern target)) ∧
    (∀ pattern target, '*' ∉ target →
      (wildcardPatternMatches pattern target = true ↔ target ∈ patternLanguage pattern)) ∧
    (∀ patterns candidates, (∀ candidate ∈ candidates, '*' ∉ candidate.toList) →
      (matchKnownHostPatterns patterns candidates = true ↔
        SomeDescribes false patterns candidates ∧ ¬SomeDescribes true patterns candidates)) ∧
    ∀ host port, '*' ∉ host.toList →
      ∀ candidate ∈ hostMatchCandidates host port, '*' ∉ candidate.toList := by
  refine ⟨fun pattern target => ?_, fun pattern target htarget => ?_,
    fun patterns candidates hplain => ?_, fun host port => star_notMem_candidates port⟩
  · obtain ⟨enough, henough⟩ := @WildcardLoop.exists_answer pattern target .start
      (Nat.zero_le pattern.length) nofun
    exact ⟨enough, fun fuel hfuel => WildcardLoop.answer_of_le hfuel henough⟩
  · rw [wildcardPatternMatches_iff htarget, mem_patternLanguage]
  · rw [matchKnownHostPatterns, matchPatternsFrom_candidates]
    simp only [Bool.false_eq_true, false_or, any_wildcardPatternMatches hplain]
    rfl

theorem wildcard_patterns_sample :
    "db.lan".toList ∈ patternLanguage "d?*.lan".toList ∧
      SomeDescribes false ["!mail*", "*.l?n"] (hostMatchCandidates "db.lan" 22) ∧
      ¬SomeDescribes true ["!mail*", "*.l?n"] (hostMatchCandidates "db.lan" 22) := by
  obtain ⟨-, hmatches, hlists, hplain⟩ := wildcard_patterns_match
  refine ⟨(hmatches _ _ (by decide)).mp ?_,
    (hlists _ _ (hplain "db.lan" 22 (by decide))).mp ?_⟩
  · simp [wildcardPatternMatches, Wildcard.scan, isStar, acceptsChar]
  · simp [matchKnownHostPatterns, matchPatternsFrom, splitNegation, hostMatchCandidates,
      wildcardPatternMatches, bracketed, Wildcard.scan, isStar, acceptsChar]

end KnownHosts

end Fulgur
