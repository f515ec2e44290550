import Fulgur.Library.Run
import Fulgur.Search.Matching

/-! # The search bar

The bar searches the editor of the active tab whenever its query, one of its
options or the active tab changes. A search for what was searched for last is left
out as long as there are matches; edits of the text start no search.
-/

namespace Fulgur

open LabelledRun

structure SearchEditor where
  text : List Char
  /-- The byte offset of the cursor. -/
  cursor : Nat
  /-- The matches that are highlighted, if the editor highlights anything. -/
  diagnostics : Option (List SearchMatch)

/-- What the editor component does with a new text and with a new position. -/
structure EditorComponent where
  setValue : SearchEditor → List Char → SearchEditor
  setValue_text : ∀ editor text, (setValue editor text).text = text
  setCursorPosition : SearchEditor → Nat → Nat → SearchEditor
  setCursorPosition_text : ∀ editor line col, (setCursorPosition editor line col).text = editor.text

/-- The bar, and the editor of the active tab. -/
structure SearchSession where
  showSearch : Bool
  searchInput : List Char
  replaceInput : List Char
  matchCase : Bool
  matchWholeWord : Bool
  searchMatches : List SearchMatch
  currentMatchIndex : Option Nat
  lastSearchQuery : List Char
  lastSearchMatchCase : Bool
  lastSearchMatchWholeWord : Bool
  scratch : SearchScratch
  content : Option SearchEditor
  /-- The text that was searched last. -/
  searched : List Char
  /-- The text was edited since, or is that of another tab. -/
  stale : Bool

inductive SearchAction where
  | findInFile
  | close
  | typeQuery (query : List Char)
  | typeReplacement (text : List Char)
  | toggleMatchCase
  | toggleMatchWholeWord
  | searchNext
  | searchPrevious
  | replaceCurrent
  | replaceAll
  /-- The user works in the editor. -/
  | edit (changed : SearchEditor)
  | activate (content : Option SearchEditor)
  /-- A tab that was opened, or the one next to a closed one, is active now. -/
  | replaceTab (content : Option SearchEditor)

/-- `u32::MAX` for what does not fit. -/
def saturateU32 (n : Nat) : Nat := min n (2 ^ 32 - 1)

namespace SearchSession

def start (content : Option SearchEditor) : SearchSession where
  showSearch := false
  searchInput := []
  replaceInput := []
  matchCase := false
  matchWholeWord := false
  searchMatches := []
  currentMatchIndex := none
  lastSearchQuery := []
  lastSearchMatchCase := false
  lastSearchMatchWholeWord := false
  scratch := ⟨[], [], []⟩
  content := content
  searched := []
  stale := false

def highlightCurrentMatch (component : EditorComponent) (s : SearchSession) : SearchSession :=
  match s.currentMatchIndex.bind fun index => s.searchMatches[index]? with
  | none => s
  | some found => { s with
      content := s.content.map fun editor =>
        component.setCursorPosition editor (saturateU32 found.line) (saturateU32 found.col) }

def firstFrom (cursor : Nat) (searchMatches : List SearchMatch) : Option Nat :=
  match searchMatches.findIdx? fun found => cursor ≤ found.start with
  | some index => some index
  | none => if searchMatches.isEmpty then none else some 0

def clearDiagnostics (editor : SearchEditor) : SearchEditor :=
  { editor with diagnostics := editor.diagnostics.map fun _ => [] }

/-- `none` is a panic of the search. -/
def performSearch (u : Unicode) (component : EditorComponent) (s : SearchSession) :
    Option SearchSession :=
  if s.searchInput = s.lastSearchQuery ∧ s.matchCase = s.lastSearchMatchCase ∧
      s.matchWholeWord = s.lastSearchMatchWholeWord ∧ s.searchMatches ≠ [] then some s
  else
    let cleared := { s with
      lastSearchQuery := s.searchInput
      lastSearchMatchCase := s.matchCase
      lastSearchMatchWholeWord := s.matchWholeWord
      searchMatches := []
      currentMatchIndex := none
      content := s.content.map clearDiagnostics
      stale := false }
    match s.content with
    | none => some cleared
    | some editor =>
        if s.searchInput = [] then some cleared
        else
          (findMatchesWithScratch u editor.text s.searchInput s.matchCase s.matchWholeWord
            s.scratch).map fun (found, scratch) =>
              { cleared with
                scratch := scratch
                searchMatches := found
                searched := editor.text
                content := some { editor with diagnostics := editor.diagnostics.map fun _ => found }
                currentMatchIndex := firstFrom editor.cursor found }.highlightCurrentMatch component

def closeBar (s : SearchSession) : SearchSession :=
  { s with
    showSearch := false
    content := s.content.map clearDiagnostics
    searchMatches := []
    currentMatchIndex := none }

def refreshMatches (u : Unicode) (component : EditorComponent) (s : SearchSession) :
    Option SearchSession :=
  { s with searchMatches := [] }.performSearch u component

def forcePerformSearch (u : Unicode) (component : EditorComponent) (s : SearchSession) :
    Option SearchSession :=
  { s with lastSearchQuery := [], searchMatches := [] }.performSearch u component

def searchNext (component : EditorComponent) (s : SearchSession) : SearchSession :=
  if s.searchMatches = [] then s
  else
    let index := match s.currentMatchIndex with
      | some current => (current + 1) % s.searchMatches.length
      | none => 0
    { s with currentMatchIndex := some index }.highlightCurrentMatch component

def searchPrevious (component : EditorComponent) (s : SearchSession) : SearchSession :=
  if s.searchMatches = [] then s
  else
    let index := match s.currentMatchIndex with
      | some current => if current = 0 then s.searchMatches.length - 1 else current - 1
      | none => 0
    { s with currentMatchIndex := some index }.highlightCurrentMatch component

def replacedAt (found : SearchMatch) (text replaceText : List Char) : List Char :=
  textUpTo found.start text ++ replaceText ++ textFrom found.stop text

def keepIndex (component : EditorComponent) (matchIndex : Nat) (s : SearchSession) :
    SearchSession :=
  if s.searchMatches = [] then s
  else
    let index := if matchIndex < s.searchMatches.length then matchIndex else 0
    { s with currentMatchIndex := some index }.highlightCurrentMatch component

/-- Replace the current match of a fresh search, unless its offsets cannot be used. -/
def replaceFound (u : Unicode) (component : EditorComponent) (s : SearchSession) :
    Option SearchSession :=
  match s.currentMatchIndex, s.content with
  | some matchIndex, some editor =>
      match s.searchMatches[matchIndex]? with
      | none => some s
      | some found =>
          if found.slices editor.text then
            ({ s with
              content := some (component.setValue editor
                (replacedAt found editor.text s.replaceInput))
              searchMatches := [] }.performSearch u component).map (keepIndex component matchIndex)
          else some s
  | _, _ => some s

def replaceCurrent (u : Unicode) (component : EditorComponent) (s : SearchSession) :
    Option SearchSession :=
  (s.forcePerformSearch u component).bind (replaceFound u component)

def replaceAllFound (component : EditorComponent) (s : SearchSession) : SearchSession :=
  match s.content with
  | none => s
  | some editor =>
      if s.searchMatches = [] then s
      else
        let newText :=
          if s.matchCase && !s.matchWholeWord then
            replaceOccurrences s.searchInput s.replaceInput 0 editor.text
          else applyReplacementsFrom editor.text s.replaceInput 0 s.searchMatches
        { s with
          content := some (component.setValue editor newText)
          searchMatches := []
          currentMatchIndex := none
          stale := true }

def replaceAll (u : Unicode) (component : EditorComponent) (s : SearchSession) :
    Option SearchSession :=
  (s.forcePerformSearch u component).map (replaceAllFound component)

/-- The buttons are there while the bar is shown, and edits need an editor. -/
def enabled (s : SearchSession) : SearchAction → Bool
  | .findInFile | .typeQuery _ | .typeReplacement _ | .activate _ | .replaceTab _ => true
  | .edit _ => s.content.isSome
  | _ => s.showSearch

def perform (u : Unicode) (component : EditorComponent) (s : SearchSession) :
    SearchAction → Option SearchSession
  | .findInFile =>
      if s.showSearch then some s.closeBar
      else { s with showSearch := true }.performSearch u component
  | .close => some s.closeBar
  | .typeQuery query =>
      let typed := { s with searchInput := query }
      if s.showSearch then typed.performSearch u component else some typed
  | .typeReplacement text => some { s with replaceInput := text }
  | .toggleMatchCase => { s with matchCase := !s.matchCase }.performSearch u component
  | .toggleMatchWholeWord =>
      { s with matchWholeWord := !s.matchWholeWord }.performSearch u component
  | .searchNext => some (s.searchNext component)
  | .searchPrevious => some (s.searchPrevious component)
  | .replaceCurrent => s.replaceCurrent u component
  | .replaceAll => s.replaceAll u component
  | .edit changed => some { s with content := some changed, stale := true }
  | .activate content =>
      let switched := { s with content := content }
      if s.showSearch then switched.refreshMatches u component else some switched
  | .replaceTab content => some { s with content := content, stale := true }

def step (u : Unicode) (component : EditorComponent) (s : SearchSession) (action : SearchAction) :
    Option SearchSession :=
  if s.enabled action then s.perform u component action else none

end SearchSession

end Fulgur
