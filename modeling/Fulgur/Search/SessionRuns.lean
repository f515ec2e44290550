import Fulgur.Library.Circular
import Fulgur.Search.CaseFolding
import Fulgur.Search.ReplaceAll
import Fulgur.Search.Session

/-! # What the search bar shows

In every state the bar has a current match exactly when it has matches, and these
are the matches of the text that it searched last, for what its inputs say now. A
replacement never uses an older search.
-/

namespace Fulgur

open LabelledRun

variable {u : Unicode} {component : EditorComponent}

/-! ## Fresh searches -/

/-- What a search gives, with empty buffers. -/
def matchesOf (u : Unicode) (text query : List Char) (matchCase matchWholeWord : Bool) :
    List SearchMatch :=
  ((findMatchesWithScratch u text query matchCase matchWholeWord ⟨[], [], []⟩).map Prod.fst).getD []

theorem sensitiveMatches_scratch (u : Unicode) (text query : List Char) (wholeWord : Bool)
    (scratch scratch' : SearchScratch) :
    sensitiveMatches u text query wholeWord scratch =
      sensitiveMatches u text query wholeWord scratch' := rfl

theorem foldedMatches_scratch (u : Unicode) (text query : List Char) (wholeWord : Bool)
    (scratch scratch' : SearchScratch) :
    foldedMatches u text query wholeWord scratch =
      foldedMatches u text query wholeWord scratch' := by
  unfold foldedMatches foldedSearch
  rw [foldedScratch_eq, foldedScratch_eq]

/-- A search does not panic, and the buffers that an earlier one left do not matter. -/
theorem findMatches_eq {text query : List Char} (hquery : query ≠ [])
    (matchCase matchWholeWord : Bool) (scratch : SearchScratch) :
    ∃ scratch', findMatchesWithScratch u text query matchCase matchWholeWord scratch =
      some (matchesOf u text query matchCase matchWholeWord, scratch') := by
  have hmap : (findMatchesWithScratch u text query matchCase matchWholeWord scratch).map Prod.fst =
      some (matchesOf u text query matchCase matchWholeWord) := by
    unfold matchesOf
    cases matchCase with
    | true =>
        rw [findMatches_sensitive hquery, findMatches_sensitive hquery]
        exact congrArg some (sensitiveMatches_scratch u text query matchWholeWord _ _)
    | false =>
        rw [findMatches_folded hquery, findMatches_folded hquery]
        exact congrArg some (foldedMatches_scratch u text query matchWholeWord _ _)
  obtain ⟨⟨found, scratch'⟩, hfound, hsame⟩ := Option.map_eq_some_iff.mp hmap
  cases hsame
  exact ⟨scratch', hfound⟩

theorem slices_of_mem_matchesOf {text query : List Char} (hquery : query ≠ [])
    {matchCase matchWholeWord : Bool} {found : SearchMatch}
    (h : found ∈ matchesOf u text query matchCase matchWholeWord) : found.slices text = true := by
  unfold matchesOf at h
  cases matchCase with
  | true =>
      rw [findMatches_sensitive hquery, Option.getD_some] at h
      obtain ⟨before, after, htext, -, rfl⟩ := (mem_sensitiveMatches hquery).mp h
      exact slices_placedMatch htext
  | false =>
      rw [findMatches_folded hquery, Option.getD_some] at h
      obtain ⟨before, middle, after, p, r, htext, -, -, -, rfl⟩ := (mem_foldedMatches hquery).mp h
      exact slices_placedMatch (htext.trans (List.append_assoc _ _ _).symm)

theorem matchesOf_nil (u : Unicode) (text : List Char) (matchCase matchWholeWord : Bool) :
    matchesOf u text [] matchCase matchWholeWord = [] := by
  simp [matchesOf, findMatchesWithScratch]

namespace SearchSession

variable {s s' : SearchSession}

def contentText (s : SearchSession) : Option (List Char) := s.content.map SearchEditor.text

/-- What a search of the editor finds as things are now. -/
def matchesNow (u : Unicode) (s : SearchSession) : List SearchMatch :=
  (s.contentText.map fun text =>
    matchesOf u text s.searchInput s.matchCase s.matchWholeWord).getD []

def currentNow (u : Unicode) (s : SearchSession) : Option Nat :=
  s.content.bind fun editor => firstFrom editor.cursor (s.matchesNow u)

theorem firstFrom_eq_none {cursor : Nat} {searchMatches : List SearchMatch} :
    firstFrom cursor searchMatches = none ↔ searchMatches = [] := by
  cases searchMatches with
  | nil => simp [firstFrom]
  | cons found searchMatches =>
      unfold firstFrom
      split <;> simp

theorem firstFrom_lt {cursor index : Nat} {searchMatches : List SearchMatch}
    (h : firstFrom cursor searchMatches = some index) : index < searchMatches.length := by
  unfold firstFrom at h
  split at h
  · rename_i hfound
    cases h
    exact (List.findIdx?_eq_some_iff_getElem.mp hfound).1
  · cases searchMatches with
    | nil => simp at h
    | cons found searchMatches =>
        cases h
        simp

/-- Highlighting moves the cursor only. -/
theorem highlightCurrentMatch_eq (component : EditorComponent) (s : SearchSession) :
    ∃ content, s.highlightCurrentMatch component = { s with content := content } ∧
      content.map SearchEditor.text = s.contentText := by
  unfold highlightCurrentMatch
  split
  · exact ⟨s.content, rfl, rfl⟩
  · rename_i found hfound
    refine ⟨_, rfl, ?_⟩
    simp [contentText, Function.comp_def, component.setCursorPosition_text]

/-- What is true after a search. -/
structure Searched (u : Unicode) (s s' : SearchSession) : Prop where
  showSearch : s'.showSearch = s.showSearch
  searchInput : s'.searchInput = s.searchInput
  replaceInput : s'.replaceInput = s.replaceInput
  matchCase : s'.matchCase = s.matchCase
  matchWholeWord : s'.matchWholeWord = s.matchWholeWord
  lastSearchQuery : s'.lastSearchQuery = s.searchInput
  lastSearchMatchCase : s'.lastSearchMatchCase = s.matchCase
  lastSearchMatchWholeWord : s'.lastSearchMatchWholeWord = s.matchWholeWord
  contentText : s'.contentText = s.contentText
  searchMatches : s'.searchMatches = s.matchesNow u
  currentMatchIndex : s'.currentMatchIndex = s.currentNow u
  searched : s'.searchMatches ≠ [] → s.contentText = some s'.searched
  stale : s'.stale = false

theorem performSearch_of_nil (u : Unicode) (component : EditorComponent)
    (h : s.searchMatches = []) :
    ∃ s', s.performSearch u component = some s' ∧ Searched u s s' := by
  unfold performSearch
  rw [if_neg (by simp [h])]
  cases hcontent : s.content with
  | none =>
      refine ⟨_, rfl, ?_⟩
      constructor <;> simp [contentText, matchesNow, currentNow, hcontent]
  | some editor =>
      by_cases hquery : s.searchInput = []
      · refine ⟨_, if_pos hquery, ?_⟩
        have hnone : s.matchesNow u = [] := by
          simp [matchesNow, contentText, hcontent, hquery, matchesOf_nil]
        have hcurrent : s.currentNow u = none := by
          simp [currentNow, hcontent, hnone, firstFrom_eq_none]
        constructor <;> simp [hnone, hcurrent, contentText, hcontent, clearDiagnostics]
      · obtain ⟨scratch', hfound⟩ := @findMatches_eq u editor.text s.searchInput hquery s.matchCase
          s.matchWholeWord s.scratch
        have hnow : matchesOf u editor.text s.searchInput s.matchCase s.matchWholeWord =
            s.matchesNow u := by
          simp [matchesNow, contentText, hcontent]
        dsimp only
        rw [if_neg hquery, hfound, hnow]
        refine ⟨_, rfl, ?_⟩
        obtain ⟨content, heq, htext⟩ := highlightCurrentMatch_eq component { s with
          lastSearchQuery := s.searchInput
          lastSearchMatchCase := s.matchCase
          lastSearchMatchWholeWord := s.matchWholeWord
          scratch := scratch'
          searchMatches := s.matchesNow u
          searched := editor.text
          content := some { editor with
            diagnostics := editor.diagnostics.map fun _ => s.matchesNow u }
          stale := false
          currentMatchIndex := firstFrom editor.cursor (s.matchesNow u) }
        simp only [heq]
        constructor <;> simp_all [contentText, currentNow]

/-! ## What the bar shows -/

/-- What the matches are, whatever the inputs say by now. -/
structure Consistent (u : Unicode) (s : SearchSession) : Prop where
  index : ∀ index, s.currentMatchIndex = some index → index < s.searchMatches.length
  current : s.currentMatchIndex = none → s.searchMatches = []
  found : s.searchMatches ≠ [] → s.searchMatches =
    matchesOf u s.searched s.lastSearchQuery s.lastSearchMatchCase s.lastSearchMatchWholeWord
  text : s.searchMatches ≠ [] → s.stale = false → s.contentText = some s.searched

structure Matched (u : Unicode) (s : SearchSession) : Prop extends Consistent u s where
  hidden : s.showSearch = false → s.searchMatches = []
  inputs : s.searchMatches ≠ [] → s.searchInput = s.lastSearchQuery ∧
    s.matchCase = s.lastSearchMatchCase ∧ s.matchWholeWord = s.lastSearchMatchWholeWord
  fresh : s.showSearch = true → s.stale = false → s.searchMatches = s.matchesNow u

theorem Searched.matchesNow (h : Searched u s s') : s'.matchesNow u = s.matchesNow u := by
  simp [SearchSession.matchesNow, h.contentText, h.searchInput, h.matchCase, h.matchWholeWord]

theorem Searched.consistent (h : Searched u s s') : Consistent u s' where
  index := by
    intro index hindex
    rw [h.currentMatchIndex] at hindex
    obtain ⟨editor, -, hfirst⟩ := Option.bind_eq_some_iff.mp hindex
    rw [h.searchMatches]
    exact firstFrom_lt hfirst
  current := by
    intro hnone
    rw [h.currentMatchIndex] at hnone
    rw [h.searchMatches]
    cases hcontent : s.content with
    | none => simp [SearchSession.matchesNow, SearchSession.contentText, hcontent]
    | some editor => exact firstFrom_eq_none.mp (by simpa [currentNow, hcontent] using hnone)
  found := by
    intro hne
    rw [h.lastSearchQuery, h.lastSearchMatchCase, h.lastSearchMatchWholeWord, h.searchMatches]
    simp [SearchSession.matchesNow, h.searched hne]
  text := fun hne _ => h.contentText.trans (h.searched hne)

theorem Searched.matched (h : Searched u s s') (hshown : s.showSearch = true) : Matched u s' where
  toConsistent := h.consistent
  hidden := by
    intro hhidden
    rw [h.showSearch, hshown] at hhidden
    cases hhidden
  inputs := by
    intro _
    simp [h.searchInput, h.matchCase, h.matchWholeWord, h.lastSearchQuery, h.lastSearchMatchCase,
      h.lastSearchMatchWholeWord]
  fresh := fun _ _ => h.searchMatches.trans h.matchesNow.symm

/-- A search that is left out would find what is there already. -/
theorem Consistent.performSearch (h : Consistent u s) (hshown : s.showSearch = true)
    (component : EditorComponent) :
    ∃ s', s.performSearch u component = some s' ∧ Matched u s' := by
  by_cases hkept : s.searchInput = s.lastSearchQuery ∧ s.matchCase = s.lastSearchMatchCase ∧
      s.matchWholeWord = s.lastSearchMatchWholeWord ∧ s.searchMatches ≠ []
  · obtain ⟨hquery, hcase, hword, hne⟩ := hkept
    refine ⟨s, if_pos ⟨hquery, hcase, hword, hne⟩, h, ?_, fun _ => ⟨hquery, hcase, hword⟩, ?_⟩
    · intro hhidden
      rw [hshown] at hhidden
      cases hhidden
    · intro _ hstale
      rw [h.found hne, SearchSession.matchesNow, h.text hne hstale, hquery, hcase, hword]
      rfl
  · obtain ⟨s', hperform, hsearched⟩ := performSearch_of_nil (s := { s with searchMatches := [] })
      u component rfl
    refine ⟨s', ?_, hsearched.matched hshown⟩
    rw [← hperform]
    unfold SearchSession.performSearch
    rw [if_neg hkept, if_neg (by simp)]

/-! ## Steps -/

def movedTo (component : EditorComponent) (s : SearchSession) (index : Nat) : SearchSession :=
  { s with currentMatchIndex := some index }.highlightCurrentMatch component

theorem movedTo_eq (component : EditorComponent) (s : SearchSession) (index : Nat) :
    ∃ content, s.movedTo component index =
        { s with currentMatchIndex := some index, content := content } ∧
      content.map SearchEditor.text = s.contentText :=
  highlightCurrentMatch_eq component { s with currentMatchIndex := some index }

theorem contentText_movedTo (component : EditorComponent) (s : SearchSession) (index : Nat) :
    (s.movedTo component index).contentText = s.contentText := by
  obtain ⟨content, heq, htext⟩ := movedTo_eq component s index
  rw [heq]
  exact htext

theorem Matched.movedTo (h : Matched u s) (component : EditorComponent) {index : Nat}
    (hlt : index < s.searchMatches.length) : Matched u (s.movedTo component index) := by
  have htext := contentText_movedTo component s index
  obtain ⟨content, heq, -⟩ := movedTo_eq component s index
  rw [heq] at htext ⊢
  constructor
  · constructor
    · intro other hother
      cases hother
      exact hlt
    · simp
    · exact h.found
    · exact fun hne hstale => htext.trans (h.text hne hstale)
  · exact h.hidden
  · exact h.inputs
  · intro hshown hstale
    rw [matchesNow, htext]
    exact h.fresh hshown hstale

theorem Matched.ne_nil (h : Matched u s) {index : Nat} (hindex : s.currentMatchIndex = some index) :
    s.searchMatches ≠ [] := by
  intro hnil
  have hlt := h.index index hindex
  simp [hnil] at hlt

theorem searchNext_eq (component : EditorComponent) {index : Nat} (h : Matched u s)
    (hindex : s.currentMatchIndex = some index) :
    s.searchNext component = s.movedTo component (Circular.next s.searchMatches.length index) := by
  rw [searchNext, if_neg (h.ne_nil hindex), hindex]
  rfl

theorem searchPrevious_eq (component : EditorComponent) {index : Nat} (h : Matched u s)
    (hindex : s.currentMatchIndex = some index) :
    s.searchPrevious component =
      s.movedTo component (Circular.previous s.searchMatches.length index) := by
  rw [searchPrevious, if_neg (h.ne_nil hindex), hindex, Circular.previous_eq (h.index index hindex)]
  rfl

theorem Matched.searchNext (h : Matched u s) (component : EditorComponent) :
    Matched u (s.searchNext component) := by
  cases hindex : s.currentMatchIndex with
  | none =>
      rw [SearchSession.searchNext, if_pos (h.current hindex)]
      exact h
  | some index =>
      rw [searchNext_eq component h hindex]
      exact h.movedTo component (Circular.next_lt (h.index index hindex))

theorem Matched.searchPrevious (h : Matched u s) (component : EditorComponent) :
    Matched u (s.searchPrevious component) := by
  cases hindex : s.currentMatchIndex with
  | none =>
      rw [SearchSession.searchPrevious, if_pos (h.current hindex)]
      exact h
  | some index =>
      rw [searchPrevious_eq component h hindex]
      exact h.movedTo component (Circular.previous_lt (h.index index hindex))

theorem matched_closeBar (u : Unicode) (s : SearchSession) : Matched u s.closeBar := by
  constructor
  · constructor <;> simp [closeBar]
  · simp [closeBar]
  · simp [closeBar]
  · simp [closeBar]

def replacedText (u : Unicode) (s : SearchSession) : Option (List Char) :=
  match (s.currentNow u).bind fun index => (s.matchesNow u)[index]? with
  | none => s.contentText
  | some found => s.contentText.map fun text => replacedAt found text s.replaceInput

def replacedAllText (u : Unicode) (s : SearchSession) : Option (List Char) :=
  s.contentText.map fun text => applyReplacementsFrom text s.replaceInput 0 (s.matchesNow u)

theorem Matched.keepIndex (h : Matched u s) (component : EditorComponent) (matchIndex : Nat) :
    Matched u (s.keepIndex component matchIndex) ∧
      (s.keepIndex component matchIndex).contentText = s.contentText := by
  unfold SearchSession.keepIndex
  split
  · exact ⟨h, rfl⟩
  · rename_i hne
    have hpos := List.length_pos_iff.mpr hne
    have hlt : (if matchIndex < s.searchMatches.length then matchIndex else 0) <
        s.searchMatches.length := by
      split <;> omega
    exact ⟨h.movedTo component hlt, contentText_movedTo component s _⟩

theorem forcePerformSearch_eq (u : Unicode) (component : EditorComponent) (s : SearchSession) :
    ∃ s', s.forcePerformSearch u component = some s' ∧ Searched u s s' := by
  obtain ⟨s', hperform, h⟩ := performSearch_of_nil
    (s := { s with lastSearchQuery := [], searchMatches := [] }) u component rfl
  exact ⟨s', hperform, h.showSearch, h.searchInput, h.replaceInput, h.matchCase, h.matchWholeWord,
    h.lastSearchQuery, h.lastSearchMatchCase, h.lastSearchMatchWholeWord, h.contentText,
    h.searchMatches, h.currentMatchIndex, h.searched, h.stale⟩

theorem slices_of_mem_matchesNow {text : List Char} {found : SearchMatch}
    (htext : s.contentText = some text) (hfound : found ∈ s.matchesNow u) :
    found.slices text = true := by
  rw [matchesNow, htext, Option.map_some, Option.getD_some] at hfound
  refine slices_of_mem_matchesOf ?_ hfound
  intro hnil
  rw [hnil, matchesOf_nil] at hfound
  cases hfound

/-- The current match of a fresh search is replaced, and the bar searches again. -/
theorem Searched.replaceFound (h : Searched u s s') (hshown : s.showSearch = true)
    (component : EditorComponent) :
    ∃ after, s'.replaceFound u component = some after ∧ Matched u after ∧
      after.contentText = s.replacedText u := by
  unfold SearchSession.replaceFound
  cases hindex : s'.currentMatchIndex with
  | none =>
      refine ⟨s', rfl, h.matched hshown, ?_⟩
      rw [replacedText, ← h.currentMatchIndex, hindex, h.contentText]
      rfl
  | some matchIndex =>
      have hlt := h.consistent.index matchIndex hindex
      have hat : s'.searchMatches[matchIndex]? = some s'.searchMatches[matchIndex] :=
        List.getElem?_eq_getElem hlt
      have hmem : s'.searchMatches[matchIndex] ∈ s.matchesNow u := by
        rw [← h.searchMatches]
        exact List.getElem_mem hlt
      have hreplaced : s.replacedText u = s.contentText.map fun text =>
          replacedAt s'.searchMatches[matchIndex] text s.replaceInput := by
        rw [replacedText, ← h.currentMatchIndex, hindex, Option.bind_some, ← h.searchMatches, hat]
      cases hcontent : s'.content with
      | none =>
          -- a match is made current in an editor only
          rw [SearchSession.matchesNow, ← h.contentText, SearchSession.contentText,
            hcontent] at hmem
          cases hmem
      | some editor =>
          have htext : s.contentText = some editor.text := by
            rw [← h.contentText, SearchSession.contentText, hcontent, Option.map_some]
          dsimp only
          rw [hat]
          dsimp only
          rw [if_pos (slices_of_mem_matchesNow htext hmem)]
          obtain ⟨again, hperform, hagain⟩ := performSearch_of_nil (s := { s' with
            content := some (component.setValue editor
              (replacedAt s'.searchMatches[matchIndex] editor.text s'.replaceInput))
            searchMatches := []
            currentMatchIndex := some matchIndex }) u component rfl
          obtain ⟨hmatched, hsame⟩ := (hagain.matched (h.showSearch.trans hshown)).keepIndex
            component matchIndex
          refine ⟨_, by rw [hperform, Option.map_some], hmatched, ?_⟩
          rw [hsame, hagain.contentText, hreplaced, htext, ← h.replaceInput]
          simp [SearchSession.contentText, component.setValue_text]

theorem replaceCurrent_eq (u : Unicode) (component : EditorComponent)
    (hshown : s.showSearch = true) :
    ∃ after, s.replaceCurrent u component = some after ∧ Matched u after ∧
      after.contentText = s.replacedText u := by
  obtain ⟨s', hforce, hsearched⟩ := forcePerformSearch_eq u component s
  rw [replaceCurrent, hforce, Option.bind_some]
  exact hsearched.replaceFound hshown component

theorem replaceOccurrences_eq {text query replace : List Char} (hquery : query ≠ []) :
    replaceOccurrences query replace 0 text =
      applyReplacementsFrom text replace 0 (matchesOf u text query true false) := by
  have hplaces := (applyReplacementsFrom_places hquery replace text).1 [] 0 rfl
  rw [matchesOf, findMatches_sensitive hquery, Option.getD_some, sensitiveMatches_eq u _ _ _ hquery]
  exact hplaces.symm

theorem Searched.replaceAllFound (h : Searched u s s') (hshown : s.showSearch = true)
    (component : EditorComponent) :
    Matched u (s'.replaceAllFound component) ∧
      (s'.replaceAllFound component).contentText = s.replacedAllText u := by
  unfold SearchSession.replaceAllFound replacedAllText
  cases hcontent : s'.content with
  | none =>
      refine ⟨h.matched hshown, ?_⟩
      rw [← h.contentText, SearchSession.contentText, hcontent]
      rfl
  | some editor =>
      have htext : s.contentText = some editor.text := by
        rw [← h.contentText, SearchSession.contentText, hcontent, Option.map_some]
      dsimp only
      split
      · rename_i hnil
        refine ⟨h.matched hshown, ?_⟩
        rw [h.contentText, htext, ← h.searchMatches, hnil, Option.map_some, applyReplacementsFrom]
        exact congrArg some (textFrom_append [] editor.text).symm
      · rename_i hne
        constructor
        · constructor
          · constructor <;> simp
          · simp
          · simp
          · simp
        · have hnow : s.matchesNow u =
              matchesOf u editor.text s.searchInput s.matchCase s.matchWholeWord := by
            simp [SearchSession.matchesNow, htext]
          have hquery : s.searchInput ≠ [] := by
            intro hnil
            rw [h.searchMatches, hnow, hnil, matchesOf_nil] at hne
            exact hne rfl
          simp only [SearchSession.contentText, Option.map_some, component.setValue_text]
          change _ = s.contentText.map _
          rw [htext, Option.map_some, h.matchCase, h.matchWholeWord, h.searchInput, h.replaceInput,
            h.searchMatches]
          split
          · rename_i hplain
            simp only [Bool.and_eq_true, Bool.not_eq_true'] at hplain
            rw [replaceOccurrences_eq hquery, hnow, hplain.1, hplain.2]
          · rfl

theorem replaceAll_eq (u : Unicode) (component : EditorComponent) (hshown : s.showSearch = true) :
    ∃ after, s.replaceAll u component = some after ∧ Matched u after ∧
      after.contentText = s.replacedAllText u := by
  obtain ⟨s', hforce, hsearched⟩ := forcePerformSearch_eq u component s
  obtain ⟨hmatched, htext⟩ := hsearched.replaceAllFound hshown component
  exact ⟨_, by rw [replaceAll, hforce, Option.map_some], hmatched, htext⟩

theorem matched_start (u : Unicode) (content : Option SearchEditor) :
    Matched u (start content) := by
  constructor
  · constructor <;> simp [start]
  · simp [start]
  · simp [start]
  · simp [start]

/-- Every step that the bar offers is taken without a panic, and keeps the invariant. -/
theorem Matched.step (h : Matched u s) (component : EditorComponent) {action : SearchAction}
    (henabled : s.enabled action = true) :
    ∃ after, s.step u component action = some after ∧ Matched u after := by
  rw [SearchSession.step, if_pos henabled]
  cases action with
  | findInFile =>
      by_cases hshown : s.showSearch = true
      · exact ⟨_, if_pos hshown, matched_closeBar u s⟩
      · have hopen : Consistent u { s with showSearch := true } :=
          ⟨h.index, h.current, h.found, h.text⟩
        obtain ⟨after, hperform, hmatched⟩ := hopen.performSearch rfl component
        exact ⟨after, (if_neg hshown).trans hperform, hmatched⟩
  | close => exact ⟨_, rfl, matched_closeBar u s⟩
  | typeQuery query =>
      have htyped : Consistent u { s with searchInput := query } :=
        ⟨h.index, h.current, h.found, h.text⟩
      by_cases hshown : s.showSearch = true
      · obtain ⟨after, hperform, hmatched⟩ := htyped.performSearch hshown component
        exact ⟨after, (if_pos hshown).trans hperform, hmatched⟩
      · have hnil := h.hidden (by simpa using hshown)
        exact ⟨_, if_neg hshown, htyped, fun _ => hnil, fun hne => absurd hnil hne,
          fun htrue => absurd htrue hshown⟩
  | typeReplacement text =>
      exact ⟨_, rfl, ⟨h.index, h.current, h.found, h.text⟩, h.hidden, h.inputs, h.fresh⟩
  | toggleMatchCase =>
      have htoggled : Consistent u { s with matchCase := !s.matchCase } :=
        ⟨h.index, h.current, h.found, h.text⟩
      exact htoggled.performSearch henabled component
  | toggleMatchWholeWord =>
      have htoggled : Consistent u { s with matchWholeWord := !s.matchWholeWord } :=
        ⟨h.index, h.current, h.found, h.text⟩
      exact htoggled.performSearch henabled component
  | searchNext => exact ⟨_, rfl, h.searchNext component⟩
  | searchPrevious => exact ⟨_, rfl, h.searchPrevious component⟩
  | replaceCurrent =>
      obtain ⟨after, hreplace, hmatched, -⟩ := replaceCurrent_eq u component henabled
      exact ⟨after, hreplace, hmatched⟩
  | replaceAll =>
      obtain ⟨after, hreplace, hmatched, -⟩ := replaceAll_eq u component henabled
      exact ⟨after, hreplace, hmatched⟩
  | edit changed =>
      exact ⟨_, rfl, ⟨h.index, h.current, h.found, by simp⟩, h.hidden, h.inputs, by simp⟩
  | activate content =>
      by_cases hshown : s.showSearch = true
      · obtain ⟨after, hperform, hsearched⟩ := performSearch_of_nil
          (s := { s with content := content, searchMatches := [] }) u component rfl
        exact ⟨after, (if_pos hshown).trans hperform, hsearched.matched hshown⟩
      · have hnil := h.hidden (by simpa using hshown)
        exact ⟨_, if_neg hshown,
          ⟨h.index, h.current, h.found, fun hne => absurd hnil hne⟩, h.hidden,
          h.inputs, fun htrue => absurd htrue hshown⟩
  | replaceTab content =>
      exact ⟨_, rfl, ⟨h.index, h.current, h.found, by simp⟩, h.hidden, h.inputs, by simp⟩

theorem matched_of_run {content : Option SearchEditor} {actions : List SearchAction}
    (hrun : run (step u component) (start content) actions = some s) : Matched u s := by
  refine invariant_of_run (Matched u) ?_ (matched_start u content) hrun
  intro s action s' h hstep
  have henabled : s.enabled action = true := by
    by_contra hnot
    simp [step, hnot] at hstep
  obtain ⟨after, hafter, hmatched⟩ := h.step component henabled
  cases hafter.symm.trans hstep
  exact hmatched

/-- Going on from a match changes the current one only. -/
theorem iterate_searchNext (component : EditorComponent) (h : Matched u s) {index : Nat}
    (hindex : s.currentMatchIndex = some index) (k : Nat) :
    ((searchNext component)^[k] s).searchMatches = s.searchMatches ∧
      ((searchNext component)^[k] s).currentMatchIndex =
        some ((Circular.next s.searchMatches.length)^[k] index) := by
  induction k generalizing s index with
  | zero => exact ⟨rfl, hindex⟩
  | succ k ih =>
      obtain ⟨content, heq, -⟩ :=
        movedTo_eq component s (Circular.next s.searchMatches.length index)
      have hnext := (searchNext_eq component h hindex).trans heq
      have hrest := ih (h.searchNext component) (by rw [hnext])
      rw [hnext] at hrest
      rw [Function.iterate_succ_apply, Function.iterate_succ_apply, hnext]
      exact hrest

def sampleComponent : EditorComponent where
  setValue editor text := { editor with text := text, cursor := 0 }
  setValue_text _ _ := rfl
  setCursorPosition editor _ _ := { editor with cursor := 0 }
  setCursorPosition_text _ _ _ := rfl

def sampleSession : List SearchAction :=
  [.findInFile, .typeQuery ['a'], .typeReplacement ['b'], .edit ⟨['x', 'a', 'a'], 2, none⟩]

end SearchSession

end Fulgur
