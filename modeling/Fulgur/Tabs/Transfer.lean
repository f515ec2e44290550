import Fulgur.Tabs.EditorTab

/-! # Copies of a tab

A tab is duplicated in its window, or sent to another one as the text of its
buffer with what else makes it up. Both rebuild the buffer and decide the
large-file mode anew.
-/

namespace Fulgur

/-- `str::trim`. -/
def trim (text : String) : String :=
  String.ofList ((((text.toList.dropWhile isWhiteSpace).reverse).dropWhile isWhiteSpace).reverse)

/-- `str::trim_end_matches`; the fuel bounds how often the suffix occurs. -/
def trimEndMatchesAux (pattern : List Char) : Nat → List Char → List Char
  | 0, text => text
  | fuel + 1, text =>
      if pattern.isSuffixOf text then
        trimEndMatchesAux pattern fuel (text.take (text.length - pattern.length))
      else text

def trimEndMatches (text pattern : String) : String :=
  String.ofList (trimEndMatchesAux pattern.toList text.length text.toList)

/-- All state required to transfer an editor tab between windows. -/
structure TabTransferData where
  title : String
  content : String
  location : TabLocation
  modified : Bool
  originalContentHash : UInt64
  originalContentLen : Nat
  encoding : String
  lossyDecode : Bool
  colorTag : Option ColorTag
  logView : Bool
deriving DecidableEq

/-- Parameters for creating an editor tab as a duplicate of another. -/
structure FromDuplicateParams where
  id : Nat
  title : String
  currentContent : String
  encoding : String
  lossyDecode : Bool

namespace EditorTab

/-- What a window takes of a tab that is sent away. -/
def transferData (tab : EditorTab) : TabTransferData where
  title := tab.title
  content := tab.content.toText
  location := tab.location
  modified := tab.modified
  originalContentHash := tab.originalContentHash
  originalContentLen := tab.originalContentLen
  encoding := tab.encoding
  lossyDecode := tab.lossyDecode
  colorTag := tab.colorTag
  logView := tab.logView

def fromTransfer (id : Nat) (data : TabTransferData) : EditorTab where
  id := id
  title := data.title
  content := .ofText data.content
  location := data.location
  modified := data.modified
  originalContentHash := data.originalContentHash
  originalContentLen := data.originalContentLen
  encoding := data.encoding
  lossyDecode := data.lossyDecode
  largeFile := isLargeFile data.content.utf8ByteSize
  colorTag := data.colorTag
  logView := data.logView

def fromDuplicate (params : FromDuplicateParams) : EditorTab where
  id := params.id
  title := params.title
  content := .ofText params.currentContent
  location := .untitled
  modified := true
  originalContentHash := (contentFingerprintFromStr "").1
  originalContentLen := (contentFingerprintFromStr "").2
  encoding := params.encoding
  lossyDecode := params.lossyDecode
  largeFile := isLargeFile params.currentContent.utf8ByteSize
  colorTag := none
  logView := false

def duplicate (tab : EditorTab) (id : Nat) : EditorTab :=
  fromDuplicate
    { id := id
      title := trim (trimEndMatches tab.title " •")
      currentContent := tab.content.toText
      encoding := tab.encoding
      lossyDecode := tab.lossyDecode }

theorem toText_fromTransfer (id : Nat) (data : TabTransferData) :
    (fromTransfer id data).content.toText = data.content := by
  simp [fromTransfer]

end EditorTab

example : trim (trimEndMatches "  a • •" " •") = "a" := by decide

end Fulgur
