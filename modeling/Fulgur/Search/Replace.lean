import Fulgur.Search.ByteOffsets

/-! # Replacing search matches

A match is a range of byte offsets. A replacement is spliced in at the offsets
of the match; matches that overlap an earlier one, or do not fall on character
boundaries, are passed over.
-/

namespace Fulgur

structure SearchMatch where
  start : Nat
  stop : Nat
  line : Nat
  col : Nat
deriving DecidableEq

/-- Whether the offsets of a match can be used to slice a text. -/
def SearchMatch.slices (found : SearchMatch) (text : List Char) : Bool :=
  found.stop ≤ byteLen text && found.start ≤ found.stop && isCharBoundary found.start text &&
    isCharBoundary found.stop text

def SearchMatch.covered (found : SearchMatch) (text : List Char) : List Char :=
  textFrom found.start (textUpTo found.stop text)

/-! ## Replacing -/

def applyReplacementsFrom (text replace : List Char) : Nat → List SearchMatch → List Char
  | lastPos, [] => textFrom lastPos text
  | lastPos, found :: rest =>
      if found.start < lastPos ∨ found.slices text = false then
        applyReplacementsFrom text replace lastPos rest
      else
        textFrom lastPos (textUpTo found.start text) ++ replace ++
          applyReplacementsFrom text replace found.stop rest

def applyReplacements (searchMatches : List SearchMatch) (text replace : String) : String :=
  String.ofList (applyReplacementsFrom text.toList replace.toList 0 searchMatches)

/-- `str::replace`: leftmost matches first, each scan going on behind the match before. -/
def replaceOccurrences (query replace : List Char) : Nat → List Char → List Char
  | _, [] => []
  | skip + 1, _ :: cs => replaceOccurrences query replace skip cs
  | 0, c :: cs =>
      if query.isPrefixOf (c :: cs) then
        replace ++ replaceOccurrences query replace (query.length - 1) cs
      else c :: replaceOccurrences query replace 0 cs

/-- The search bar: its inputs, and what a fresh search of a text finds and makes current. -/
structure SearchBar where
  searchInput : String
  replaceInput : String
  matchCase : Bool
  matchWholeWord : Bool
  performSearch : String → List SearchMatch × Option Nat
  emptyFinds : searchInput = "" → ∀ text, (performSearch text).1 = []

namespace SearchBar

/-- The text after replacing the current match, unless there is none that can be sliced out. -/
def replacedCurrent (bar : SearchBar) (text : String) : Option String :=
  let (searchMatches, currentMatchIndex) := bar.performSearch text
  match currentMatchIndex.bind fun index => searchMatches[index]? with
  | none => none
  | some found =>
      if found.slices text.toList then
        some (String.ofList (textUpTo found.start text.toList ++ bar.replaceInput.toList ++
          textFrom found.stop text.toList))
      else none

/-- The text after replacing all matches, unless there are none. -/
def replacedAll (bar : SearchBar) (text : String) : Option String :=
  let searchMatches := (bar.performSearch text).1
  if searchMatches.isEmpty then none
  else if bar.matchCase && !bar.matchWholeWord then
    some (String.ofList
      (replaceOccurrences bar.searchInput.toList bar.replaceInput.toList 0 text.toList))
  else some (applyReplacements searchMatches text bar.replaceInput)

def currentParts (bar : SearchBar) (text : String) : List (List Char) :=
  let (searchMatches, currentMatchIndex) := bar.performSearch text
  ((currentMatchIndex.bind fun index => searchMatches[index]?).toList.filter fun found =>
    found.slices text.toList).map fun found => found.covered text.toList

def replacedParts (bar : SearchBar) (text : String) : List (List Char) :=
  let searchMatches := (bar.performSearch text).1
  if searchMatches.isEmpty then []
  else if bar.matchCase && !bar.matchWholeWord then [bar.searchInput.toList]
  else searchMatches.map fun found => found.covered text.toList

end SearchBar

example :
    applyReplacements [⟨1, 3, 0, 1⟩, ⟨2, 4, 0, 2⟩, ⟨4, 5, 0, 3⟩] "aébc" "x" = "axbx" := by decide

end Fulgur
