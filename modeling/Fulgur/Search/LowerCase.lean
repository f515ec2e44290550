import Fulgur.Search.SearchExact

/-! # The lower-case text

Every byte of the lower-case text knows the character that it came from, and the
end of the text that it is the end. A place of the lower-case query is traced
back to whole characters.
-/

namespace Fulgur

open Expansion

variable {u : Unicode} {text before middle after p q r : List Char}

def lowerText (u : Unicode) (text : List Char) : List Char := text.flatMap u.toLowercase

/-- For each byte of the lower-case text the offset of its character; the text starts at `start`. -/
def origOffsets (u : Unicode) : Nat → List Char → List Nat
  | _, [] => []
  | start, c :: cs =>
      List.replicate (byteLen (u.toLowercase c)) start ++ origOffsets u (start + c.utf8Size) cs

theorem lowercaseLoop_eq (start : Nat) (text lowered : List Char) (offsets : List Nat) :
    lowercaseLoop u start text (lowered, offsets) =
      (lowered ++ lowerText u text, offsets ++ origOffsets u start text) := by
  induction text generalizing start lowered offsets with
  | nil =>
      rw [lowercaseLoop, lowerText, List.flatMap_nil, List.append_nil, origOffsets, List.append_nil]
  | cons c cs ih =>
      have hadded : byteLen (lowered ++ u.toLowercase c) - byteLen lowered =
          byteLen (u.toLowercase c) := by
        rw [byteLen_append]
        omega
      rw [lowercaseLoop, hadded, ih, lowerText, lowerText, List.flatMap_cons, origOffsets,
        List.append_assoc, List.append_assoc]

theorem origOffsets_append (start : Nat) (before after : List Char) :
    origOffsets u start (before ++ after) =
      origOffsets u start before ++ origOffsets u (start + byteLen before) after := by
  induction before generalizing start with
  | nil => rfl
  | cons c before ih =>
      rw [List.cons_append, origOffsets, origOffsets, ih, List.append_assoc, byteLen_cons,
        Nat.add_assoc]

theorem length_origOffsets (start : Nat) (text : List Char) :
    (origOffsets u start text).length = byteLen (lowerText u text) := by
  induction text generalizing start with
  | nil => rfl
  | cons c cs ih =>
      rw [origOffsets, List.length_append, List.length_replicate, ih, lowerText, lowerText,
        List.flatMap_cons, byteLen_append]

def lowercaseOffsets (u : Unicode) (text : List Char) : List Nat :=
  origOffsets u 0 text ++ [byteLen text]

theorem lowercaseOffsets_append (before after : List Char) :
    lowercaseOffsets u (before ++ after) =
      origOffsets u 0 before ++
        (origOffsets u (byteLen before) after ++ [byteLen (before ++ after)]) := by
  rw [lowercaseOffsets, origOffsets_append, List.append_assoc, Nat.zero_add]

/-- A place of the lower-case text has the offset of the character that it lies in or before. -/
theorem lowercaseOffsets_of_cut (hcut : Cut u.toLowercase before after p r) :
    (lowercaseOffsets u (before ++ after))[byteLen p]? = some (byteLen before) := by
  have hlen : (origOffsets u 0 before).length = byteLen (before.flatMap u.toLowercase) :=
    length_origOffsets 0 before
  rw [lowercaseOffsets_append]
  cases hcut with
  | between after =>
      rw [← hlen, List.getElem?_append_right (Nat.le_refl _), Nat.sub_self]
      cases after with
      | nil =>
          rw [List.append_nil]
          rfl
      | cons c after =>
          obtain ⟨n, hn⟩ := Nat.exists_eq_succ_of_ne_zero
            (Nat.ne_of_gt (byteLen_pos (u.lowercase_ne_nil c)))
          rw [origOffsets, hn]
          rfl
  | within c rest pre post hpre hpost hc =>
      have hshort : byteLen pre < byteLen (u.toLowercase c) := by
        have hpos := byteLen_pos hpost
        rw [hc, byteLen_append]
        omega
      have hindex : byteLen (before.flatMap u.toLowercase ++ pre) =
          (origOffsets u 0 before).length + byteLen pre := by
        rw [byteLen_append, hlen]
      rw [hindex, List.getElem?_append_right (Nat.le_add_right _ _), Nat.add_sub_cancel_left,
        origOffsets, List.append_assoc, List.getElem?_append_left (by rwa [List.length_replicate]),
        List.getElem?_replicate_of_lt hshort]

/-! ## Looking past case -/

variable {wholeWord : Bool} {scratch : SearchScratch} {query : List Char}

/-- The buffers of a search that looks past case. -/
def foldedScratch (u : Unicode) (text : List Char) (scratch : SearchScratch) : SearchScratch :=
  rebuildLowercaseText u text (refreshNewlineOffsets text scratch)

theorem foldedScratch_eq (u : Unicode) (text : List Char) (scratch : SearchScratch) :
    foldedScratch u text scratch =
      ⟨newlinesFrom 0 text, lowerText u text, lowercaseOffsets u text⟩ := by
  rw [foldedScratch, rebuildLowercaseText, lowercaseLoop_eq]
  rfl

/-- The search that looks past case, with the buffers it has filled. -/
def foldedSearch (u : Unicode) (text : List Char) (wholeWord : Bool) (scratch : SearchScratch) :
    MatchSearch :=
  ⟨text, false, wholeWord, foldedScratch u text scratch⟩

def foldedMatches (u : Unicode) (text query : List Char) (wholeWord : Bool)
    (scratch : SearchScratch) : List SearchMatch :=
  allFound ((foldedSearch u text wholeWord scratch).matchAt u) (u.strToLowercase query)
    (lowerText u text)

theorem matchAt_folded (htext : text = before ++ (middle ++ after))
    (hstart : Cut u.toLowercase before (middle ++ after) p (q ++ r))
    (hend : Cut u.toLowercase (before ++ middle) after (p ++ q) r) :
    (foldedSearch u text wholeWord scratch).matchAt u (byteLen p) (byteLen (p ++ q)) =
      some (if isKept u wholeWord before after then some (placedMatch before
        middle) else none) := by
  have htext' : text = (before ++ middle) ++ after := htext.trans (List.append_assoc _ _ _).symm
  have hfrom := lowercaseOffsets_of_cut hstart
  have hto := lowercaseOffsets_of_cut hend
  rw [← htext] at hfrom
  rw [← htext'] at hto
  refine matchAt_append htext' ?_ ?_
  · rw [foldedSearch, foldedScratch_eq]
  · rw [MatchSearch.range, foldedSearch, foldedScratch_eq]
    simp only [Bool.false_eq_true, if_false, hfrom, hto, Option.bind_some, Option.map_some]

theorem exists_matchAt_folded (h : lowerText u text = p ++ (q ++ r)) :
    ∃ before middle after, text = before ++ (middle ++ after) ∧
      Cut u.toLowercase before (middle ++ after) p (q ++ r) ∧
      Cut u.toLowercase (before ++ middle) after (p ++ q) r ∧
      (foldedSearch u text wholeWord scratch).matchAt u (byteLen p) (byteLen (p ++ q)) =
        some (if isKept u wholeWord before after then some (placedMatch before middle)
          else none) := by
  obtain ⟨before, middle, after, htext, hstart, hend⟩ := exists_span u.lowercase_ne_nil h
  exact ⟨before, middle, after, htext, hstart, hend, matchAt_folded htext hstart hend⟩

theorem strToLowercaseFrom_ne_nil {before query : List Char} (hquery : query ≠ []) :
    u.strToLowercaseFrom before query ≠ [] := by
  cases query with
  | nil => exact absurd rfl hquery
  | cons c cs =>
      intro h
      obtain ⟨hfirst, -⟩ := List.append_eq_nil_iff.mp h
      split at hfirst
      · exact nomatch hfirst
      · exact u.lowercase_ne_nil c hfirst

theorem strToLowercase_ne_nil (hquery : query ≠ []) : u.strToLowercase query ≠ [] :=
  strToLowercaseFrom_ne_nil hquery

/-- The search that looks past case does not panic, whatever its buffers held. -/
theorem findMatches_folded (hquery : query ≠ []) :
    (findMatchesWithScratch u text query false wholeWord scratch).map Prod.fst =
      some (foldedMatches u text query wholeWord scratch) := by
  have hloop : findLoop (lowerText u text) (u.strToLowercase query)
      ((foldedSearch u text wholeWord scratch).matchAt u) (byteLen (lowerText u text) + 1) 0 =
      some (foldedMatches u text query wholeWord scratch) := by
    refine findLoop_start (strToLowercase_ne_nil hquery) fun p r htext => ?_
    obtain ⟨before, middle, after, -, -, -, hmatch⟩ := exists_matchAt_folded htext
    rw [hmatch]
    rfl
  have htext : (foldedScratch u text scratch).lowercaseText = lowerText u text := by
    rw [foldedScratch_eq]
  rw [← htext] at hloop
  rw [findMatchesWithScratch, if_neg hquery]
  exact congrArg (Option.map Prod.fst)
    (congrArg (Option.map fun searchMatches => (searchMatches, _)) hloop)

theorem mem_foldedMatches (hquery : query ≠ []) {found : SearchMatch} :
    found ∈ foldedMatches u text query wholeWord scratch ↔
      ∃ before middle after p r, text = before ++ (middle ++ after) ∧
        Cut u.toLowercase before (middle ++ after) p (u.strToLowercase query ++ r) ∧
        Cut u.toLowercase (before ++ middle) after (p ++ u.strToLowercase query) r ∧
        isKept u wholeWord before after = true ∧ found = placedMatch before middle := by
  rw [foldedMatches, mem_allFound (strToLowercase_ne_nil hquery)]
  constructor
  · rintro ⟨p, r, htext, hfound⟩
    obtain ⟨before, middle, after, htext', hstart, hend, hmatch⟩ := exists_matchAt_folded htext
    rw [foundAt, hmatch] at hfound
    split at hfound
    · rename_i hkept
      exact ⟨before, middle, after, p, r, htext', hstart, hend, hkept,
        (Option.some.inj hfound).symm⟩
    · cases hfound
  · rintro ⟨before, middle, after, p, r, htext, hstart, hend, hkept, rfl⟩
    refine ⟨p, r, ?_, ?_⟩
    · rw [htext]
      exact hstart.flatMap
    · rw [foundAt, matchAt_folded htext hstart hend, if_pos hkept]
      rfl

end Fulgur
