import Fulgur.Files.LossyDecoding
import Fulgur.Search.Replace

/-! # Searching

All places of a query are found in a text, or in its lower-case form, where the
offsets are mapped back to the text. A slice that does not fall between two
characters and an index past the end of a list panic: they give `none`.
-/

namespace Fulgur

/-- The Unicode tables behind the standard library. -/
structure Unicode where
  toLowercase : Char → List Char
  isAlphanumeric : Char → Bool
  caseIgnorable : Char → Bool
  cased : Char → Bool
  lowercase_ne_nil : ∀ c, toLowercase c ≠ []
  lowercase_nodup : ∀ c, (toLowercase c).Nodup
  lowercase_sigma : toLowercase 'Σ' = ['σ']

/-- The buffers that a search leaves for the next one. -/
structure SearchScratch where
  newlineOffsets : List Nat
  lowercaseText : List Char
  lowercaseOffsets : List Nat

/-! ## Strings of the standard library -/

/-- `&text[n..]`. -/
def sliceFrom (n : Nat) (text : List Char) : Option (List Char) :=
  if isCharBoundary n text then some (textFrom n text) else none

/-- `&text[..n]`. -/
def sliceUpTo (n : Nat) (text : List Char) : Option (List Char) :=
  if isCharBoundary n text then some (textUpTo n text) else none

/-- `&text[m..n]`. -/
def slice (m n : Nat) (text : List Char) : Option (List Char) :=
  if m ≤ n then (sliceUpTo n text).bind (sliceFrom m) else none

def findStr (query : List Char) : List Char → Option Nat
  | [] => if query = [] then some 0 else none
  | c :: cs =>
      if query.isPrefixOf (c :: cs) then some 0
      else (findStr query cs).map fun pos => c.utf8Size + pos

namespace Unicode

/-- Whether a cased character comes after characters that are ignored for case. -/
def caseIgnorableThenCased (u : Unicode) (text : List Char) : Bool :=
  match text.dropWhile u.caseIgnorable with
  | c :: _ => u.cased c
  | [] => false

/-- A capital sigma is lowered by whether it ends a word. -/
def mapUppercaseSigma (u : Unicode) (before after : List Char) : Char :=
  if u.caseIgnorableThenCased before.reverse && !u.caseIgnorableThenCased after then 'ς' else 'σ'

/-- The loop of `str::to_lowercase`. -/
def strToLowercaseFrom (u : Unicode) : List Char → List Char → List Char
  | _, [] => []
  | before, c :: cs =>
      (if c = 'Σ' then [u.mapUppercaseSigma before cs] else u.toLowercase c) ++
        u.strToLowercaseFrom (before ++ [c]) cs

/-- `str::to_lowercase`. -/
def strToLowercase (u : Unicode) (text : List Char) : List Char := u.strToLowercaseFrom [] text

end Unicode

/-! ## Lines, and the lower-case text -/

def newlineOffsets (bytes : List UInt8) : List Nat :=
  bytes.zipIdx.filterMap fun (b, i) => if b = 10 then some i else none

def refreshNewlineOffsets (text : List Char) (scratch : SearchScratch) : SearchScratch :=
  { scratch with newlineOffsets := newlineOffsets (charBytes text) }

/-- The loop of `rebuild_lowercase_text`, over the characters and their offsets. -/
def lowercaseLoop (u : Unicode) : Nat → List Char → List Char × List Nat → List Char × List Nat
  | _, [], lowered => lowered
  | origOffset, ch :: rest, (lowerText, lowerOffsets) =>
      let before := byteLen lowerText
      let lowerText := lowerText ++ u.toLowercase ch
      let added := byteLen lowerText - before
      lowercaseLoop u (origOffset + ch.utf8Size) rest
        (lowerText, lowerOffsets ++ List.replicate added origOffset)

def rebuildLowercaseText (u : Unicode) (text : List Char) (scratch : SearchScratch) :
    SearchScratch :=
  let (lowerText, lowerOffsets) := lowercaseLoop u 0 text ([], [])
  { scratch with lowercaseText := lowerText, lowercaseOffsets := lowerOffsets ++ [byteLen text] }

def partitionPoint (newlineOffsets : List Nat) (pos : Nat) : Nat :=
  (newlineOffsets.takeWhile fun nl => nl < pos).length

def getLineColFast (text : List Char) (bytePos : Nat) (newlineOffsets : List Nat) :
    Option (Nat × Nat) :=
  let pos := min bytePos (byteLen text)
  let line := partitionPoint newlineOffsets pos
  let lineStart := if line = 0 then some 0 else newlineOffsets[line - 1]?.map fun nl => nl + 1
  lineStart.bind fun lineStart => (slice lineStart pos text).map fun before => (line, before.length)

/-- The offset after the character at `pos`. -/
def advancePastChar (text : List Char) (pos : Nat) : Option Nat :=
  (sliceFrom pos text).map fun rest =>
    match rest with
    | c :: _ => pos + c.utf8Size
    | [] => pos + 1

/-! ## Matches -/

def isWordChar (u : Unicode) (c : Char) : Bool := u.isAlphanumeric c || c = '_'

/-- Whether no word character touches a match. -/
def isWholeWord (u : Unicode) (text : List Char) (matchStart matchEnd : Nat) : Option Bool :=
  let isWordStart := if matchStart = 0 then some true
    else (sliceUpTo matchStart text).map fun before => !before.getLast?.any (isWordChar u)
  let isWordEnd := if byteLen text ≤ matchEnd then some true
    else (sliceFrom matchEnd text).map fun after => !after.head?.any (isWordChar u)
  isWordStart.bind fun isWordStart => isWordEnd.map fun isWordEnd => isWordStart && isWordEnd

/-- What a search looks for: the text, and the buffers and flags it maps a place with. -/
structure MatchSearch where
  text : List Char
  matchCase : Bool
  matchWholeWord : Bool
  scratch : SearchScratch

/-- The range in the text that a place of the searched text stands for. -/
def MatchSearch.range (search : MatchSearch) (searchStart searchEnd : Nat) : Option (Nat × Nat) :=
  if search.matchCase then some (searchStart, searchEnd)
  else search.scratch.lowercaseOffsets[searchStart]?.bind fun matchStart =>
    search.scratch.lowercaseOffsets[searchEnd]?.map fun matchEnd => (matchStart, matchEnd)

/-- The match at a place of the searched text, unless it is not a whole word. -/
def MatchSearch.matchAt (u : Unicode) (search : MatchSearch) (searchStart searchEnd : Nat) :
    Option (Option SearchMatch) :=
  (search.range searchStart searchEnd).bind fun (matchStart, matchEnd) =>
    let kept := if search.matchWholeWord then isWholeWord u search.text matchStart matchEnd
      else some true
    kept.bind fun kept =>
      if kept then
        (getLineColFast search.text matchStart search.scratch.newlineOffsets).map
          fun (line, col) => some ⟨matchStart, matchEnd, line, col⟩
      else some none

/-- The loop of `find_matches_with_scratch`; the fuel bounds how often it goes on. -/
def findLoop (searchText searchQuery : List Char)
    (matchAt : Nat → Nat → Option (Option SearchMatch)) : Nat → Nat → Option (List SearchMatch)
  | 0, _ => none
  | fuel + 1, startPos =>
      (sliceFrom startPos searchText).bind fun rest =>
        match findStr searchQuery rest with
        | none => some []
        | some pos =>
            let searchStart := startPos + pos
            (matchAt searchStart (searchStart + byteLen searchQuery)).bind fun found =>
              (advancePastChar searchText searchStart).bind fun startPos =>
                (findLoop searchText searchQuery matchAt fuel startPos).map fun rest =>
                  found.toList ++ rest

/-- The matches, and the buffers that are left; `none` is a panic. -/
def findMatchesWithScratch (u : Unicode) (text query : List Char) (matchCase matchWholeWord : Bool)
    (scratch : SearchScratch) : Option (List SearchMatch × SearchScratch) :=
  if query = [] then some ([], scratch)
  else
    let scratch := refreshNewlineOffsets text scratch
    let scratch := if matchCase then scratch else rebuildLowercaseText u text scratch
    let searchText := if matchCase then text else scratch.lowercaseText
    let searchQuery := if matchCase then query else u.strToLowercase query
    let search : MatchSearch := ⟨text, matchCase, matchWholeWord, scratch⟩
    (findLoop searchText searchQuery (search.matchAt u) (byteLen searchText + 1) 0).map
      fun searchMatches => (searchMatches, scratch)

end Fulgur
