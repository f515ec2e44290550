import Fulgur.Library.Expansion
import Fulgur.Search.LineCol

/-! # What a search finds

A search that looks at case finds every place of the query. The other one looks
for the query in the lower-case text and traces what it finds back to the text.
-/

namespace Fulgur

open Expansion

variable {u : Unicode} {wholeWord : Bool} {text query before middle after : List Char}
  {search : MatchSearch}

/-- Whether a search keeps what stands between two parts of a text. -/
def isKept (u : Unicode) (wholeWord : Bool) (before after : List Char) : Bool :=
  !wholeWord || !before.getLast?.any (isWordChar u) && !after.head?.any (isWordChar u)

/-- The match of a part of a text. -/
def placedMatch (before middle : List Char) : SearchMatch :=
  ⟨byteLen before, byteLen (before ++ middle), lineOf before, columnOf before⟩

/-! ## One place -/

theorem isWholeWord_append (before middle after : List Char) :
    isWholeWord u ((before ++ middle) ++ after) (byteLen before) (byteLen (before ++ middle)) =
      some (isKept u true before after) := by
  have hstart : (if byteLen before = 0 then some true
      else (sliceUpTo (byteLen before) ((before ++ middle) ++ after)).map
        fun before => !before.getLast?.any (isWordChar u)) =
      some (!before.getLast?.any (isWordChar u)) := by
    split
    · rename_i hzero
      have hnil : before = [] := by
        by_contra hne
        exact absurd hzero (Nat.ne_of_gt (byteLen_pos hne))
      rw [hnil]
      rfl
    · rw [List.append_assoc, sliceUpTo_append]
      rfl
  have hend : (if byteLen ((before ++ middle) ++ after) ≤ byteLen (before ++ middle) then some true
      else (sliceFrom (byteLen (before ++ middle)) ((before ++ middle) ++ after)).map
        fun after => !after.head?.any (isWordChar u)) =
      some (!after.head?.any (isWordChar u)) := by
    split
    · rename_i hle
      have hnil : after = [] := by
        by_contra hne
        have hpos := byteLen_pos hne
        rw [byteLen_append (before ++ middle)] at hle
        omega
      rw [hnil]
      rfl
    · rw [sliceFrom_append]
      rfl
  rw [isWholeWord]
  simp only [hstart, hend]
  rfl

/-- What a search makes of a place that stands for a part of the text. -/
theorem matchAt_append {searchStart searchEnd : Nat}
    (htext : search.text = (before ++ middle) ++ after)
    (hlines : search.scratch.newlineOffsets = newlinesFrom 0 search.text)
    (hrange : search.range searchStart searchEnd =
      some (byteLen before, byteLen (before ++ middle))) :
    search.matchAt u searchStart searchEnd =
      some (if isKept u search.matchWholeWord before after then some (placedMatch before middle)
        else none) := by
  have hkept : (if search.matchWholeWord then
      isWholeWord u search.text (byteLen before) (byteLen (before ++ middle)) else some true) =
      some (isKept u search.matchWholeWord before after) := by
    cases hword : search.matchWholeWord with
    | true => rw [if_pos rfl, htext, isWholeWord_append]
    | false => rfl
  have hline : getLineColFast search.text (byteLen before) search.scratch.newlineOffsets =
      some (lineOf before, columnOf before) := by
    rw [hlines, htext, List.append_assoc, getLineColFast_append]
  rw [MatchSearch.matchAt, hrange, Option.bind_some]
  simp only [hkept, Option.bind_some, hline, Option.map_some]
  split
  · rfl
  · rfl

/-! ## Looking at case -/

variable {scratch : SearchScratch}

/-- The search that looks at case, with the buffer it has filled. -/
def sensitiveSearch (text : List Char) (wholeWord : Bool) (scratch : SearchScratch) : MatchSearch :=
  ⟨text, true, wholeWord, refreshNewlineOffsets text scratch⟩

def sensitiveMatches (u : Unicode) (text query : List Char) (wholeWord : Bool)
    (scratch : SearchScratch) : List SearchMatch :=
  allFound ((sensitiveSearch text wholeWord scratch).matchAt u) query text

theorem matchAt_sensitive (htext : text = (before ++ middle) ++ after) :
    (sensitiveSearch text wholeWord scratch).matchAt u (byteLen before)
        (byteLen (before ++ middle)) =
      some (if isKept u wholeWord before after then some (placedMatch before middle) else none) :=
  matchAt_append htext rfl rfl

theorem findMatches_sensitive (hquery : query ≠ []) :
    (findMatchesWithScratch u text query true wholeWord scratch).map Prod.fst =
      some (sensitiveMatches u text query wholeWord scratch) := by
  have hloop : findLoop text query ((sensitiveSearch text wholeWord scratch).matchAt u)
      (byteLen text + 1) 0 = some (sensitiveMatches u text query wholeWord scratch) := by
    refine findLoop_start hquery fun p r htext => ?_
    rw [matchAt_sensitive (htext.trans (List.append_assoc _ _ _).symm)]
    rfl
  rw [findMatchesWithScratch, if_neg hquery]
  exact congrArg (Option.map Prod.fst)
    (congrArg (Option.map fun searchMatches => (searchMatches, _)) hloop)

/-- The search that looks at case finds the places of the query that it keeps, and nothing else. -/
theorem mem_sensitiveMatches (hquery : query ≠ []) {found : SearchMatch} :
    found ∈ sensitiveMatches u text query wholeWord scratch ↔
      ∃ before after, text = (before ++ query) ++ after ∧ isKept u wholeWord before after = true ∧
        found = placedMatch before query := by
  rw [sensitiveMatches, mem_allFound hquery]
  constructor
  · rintro ⟨before, after, htext, hfound⟩
    rw [← List.append_assoc] at htext
    rw [foundAt, matchAt_sensitive htext] at hfound
    split at hfound
    · rename_i hkept
      exact ⟨before, after, htext, hkept, (Option.some.inj hfound).symm⟩
    · cases hfound
  · rintro ⟨before, after, htext, hkept, rfl⟩
    refine ⟨before, after, htext.trans (List.append_assoc _ _ _), ?_⟩
    rw [foundAt, matchAt_sensitive htext, if_pos hkept]
    rfl

theorem start_of_foundAt_sensitive {after : List Char} (htext : text = before ++ (query ++ after))
    {found : SearchMatch}
    (hfound : foundAt ((sensitiveSearch text wholeWord scratch).matchAt u) query before =
      some found) : found.start = byteLen before := by
  rw [foundAt, matchAt_sensitive (htext.trans (List.append_assoc _ _ _).symm)] at hfound
  split at hfound
  · rw [← Option.some.inj hfound]
    rfl
  · cases hfound

theorem sensitiveMatches_pairwise (hquery : query ≠ []) :
    (sensitiveMatches u text query wholeWord scratch).Pairwise fun a b => a.start < b.start := by
  refine allFound_pairwise hquery fun p r c skipped r' htext htext' a ha b hb => ?_
  have hpos := byteLen_pos (List.cons_ne_nil c skipped)
  rw [start_of_foundAt_sensitive htext ha, start_of_foundAt_sensitive htext' hb, byteLen_append]
  omega

end Fulgur
