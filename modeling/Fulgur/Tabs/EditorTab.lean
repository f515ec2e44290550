import Fulgur.Files.Disk

/-! # Editor tabs

A tab holds a buffer and the baseline it was last saved or loaded at: a hash and
a length. Whether the buffer differs from its baseline is decided from these
two, except in large-file mode, where the hash is not kept and the modified flag
answers for buffers of the baseline's length.
-/

namespace Fulgur

inductive ColorTag where
  | red | redLight | green | greenLight | blue | blueLight | yellow | yellowLight
  | magenta | magentaLight | cyan | cyanLight | accent | primary
deriving DecidableEq

namespace ColorTag

/-- Every color tag, in menu order. -/
def all : List ColorTag :=
  [.red, .redLight, .green, .greenLight, .blue, .blueLight, .yellow, .yellowLight,
    .magenta, .magentaLight, .cyan, .cyanLight, .accent, .primary]

/-- Stable key used to persist the tag. -/
def key : ColorTag → String
  | .red => "red"
  | .redLight => "red_light"
  | .green => "green"
  | .greenLight => "green_light"
  | .blue => "blue"
  | .blueLight => "blue_light"
  | .yellow => "yellow"
  | .yellowLight => "yellow_light"
  | .magenta => "magenta"
  | .magentaLight => "magenta_light"
  | .cyan => "cyan"
  | .cyanLight => "cyan_light"
  | .accent => "accent"
  | .primary => "primary"

def fromKey : String → Option ColorTag
  | "red" => some .red
  | "red_light" => some .redLight
  | "green" => some .green
  | "green_light" => some .greenLight
  | "blue" => some .blue
  | "blue_light" => some .blueLight
  | "yellow" => some .yellow
  | "yellow_light" => some .yellowLight
  | "magenta" => some .magenta
  | "magenta_light" => some .magentaLight
  | "cyan" => some .cyan
  | "cyan_light" => some .cyanLight
  | "accent" => some .accent
  | "primary" => some .primary
  | _ => none

theorem fromKey_key (tag : ColorTag) : fromKey tag.key = some tag := by
  cases tag <;> rfl

end ColorTag

inductive TabLocation where
  | localPath (path : PathBuf)
  | remote (spec : RemoteSpec)
  | untitled
deriving DecidableEq

structure EditorTab where
  id : Nat
  title : String
  content : Rope
  location : TabLocation
  modified : Bool
  originalContentHash : UInt64
  originalContentLen : Nat
  encoding : String
  lossyDecode : Bool
  largeFile : Bool
  colorTag : Option ColorTag
  logView : Bool
deriving DecidableEq

namespace EditorTab

def filePath (tab : EditorTab) : Option PathBuf :=
  match tab.location with
  | .localPath path => some path
  | _ => none

/-! ## The saved baseline -/

def contentDiffersFromOriginal (tab : EditorTab) : Bool :=
  if tab.content.len ≠ tab.originalContentLen then true
  else if tab.largeFile then tab.modified
  else (contentFingerprintFromRope tab.content).1 ≠ tab.originalContentHash

/-- Recompute the modified flag from the baseline. -/
def checkModified (tab : EditorTab) : EditorTab :=
  { tab with modified := tab.contentDiffersFromOriginal }

/-- Take the current buffer as the baseline. -/
def markAsSaved (tab : EditorTab) : EditorTab :=
  let fingerprint :=
    if tab.largeFile then (0, tab.content.len) else contentFingerprintFromRope tab.content
  { tab with
    originalContentHash := fingerprint.1
    originalContentLen := fingerprint.2
    modified := false }

/-- Take a text that is not the buffer as the baseline; the flag stays. -/
def setOriginalContentFromStr (tab : EditorTab) (content : String) : EditorTab :=
  let fingerprint :=
    if tab.largeFile then (0, content.utf8ByteSize) else contentFingerprintFromStr content
  { tab with
    originalContentHash := fingerprint.1
    originalContentLen := fingerprint.2 }

/-- What the content subscription does on a change event. -/
def onContentChange (tab : EditorTab) : EditorTab :=
  if tab.largeFile then { tab with modified := true } else tab.checkModified

/-- The user changes the buffer, and the content entity emits its change event. -/
def edit (tab : EditorTab) (content : Rope) : EditorTab :=
  { tab with content := content }.onContentChange

/-- The search bar replaces in the buffer, and the content entity emits no event. -/
def setValue (tab : EditorTab) (content : Rope) : EditorTab :=
  { tab with content := content }

def moveTo (tab : EditorTab) (path : PathBuf) : EditorTab :=
  { tab with
    location := .localPath path
    title := (path.fileName.bind fromUtf8).getD UNTITLED }

def contentTooLargeToPersist (tab : EditorTab) : Bool :=
  tab.largeFile || isLargeFile tab.content.len

/-! ## Constructors -/

def new (id : Nat) (title : String) : EditorTab where
  id := id
  title := title
  content := ⟨[]⟩
  location := .untitled
  modified := false
  originalContentHash := (contentFingerprintFromStr "").1
  originalContentLen := (contentFingerprintFromStr "").2
  encoding := UTF_8
  lossyDecode := false
  largeFile := false
  colorTag := none
  logView := false

/-- A tab for a shared file: it has no path and counts as unsaved. -/
def fromContent (id : Nat) (contents fileName : String) : EditorTab where
  id := id
  title := fileName
  content := .ofText contents
  location := .untitled
  modified := true
  originalContentHash := (contentFingerprintFromStr "").1
  originalContentLen := (contentFingerprintFromStr "").2
  encoding := UTF_8
  lossyDecode := false
  largeFile := isLargeFile contents.utf8ByteSize
  colorTag := none
  logView := false

structure FromFileParams where
  id : Nat
  path : PathBuf
  contents : String
  encoding : String
  isModified : Bool

def fromFile (params : FromFileParams) : EditorTab :=
  let contentLen := params.contents.utf8ByteSize
  let largeFile := isLargeFile contentLen
  let fingerprint :=
    if largeFile then (0, contentLen) else contentFingerprintFromStr params.contents
  let fileName := (params.path.fileName.bind fromUtf8).getD UNTITLED
  { id := params.id
    title := fileName ++ if params.isModified then " •" else ""
    content := .ofText params.contents
    location := .localPath params.path
    modified := params.isModified
    originalContentHash := fingerprint.1
    originalContentLen := fingerprint.2
    encoding := params.encoding
    lossyDecode := false
    largeFile := largeFile
    colorTag := none
    logView := false }

/-- A remote file as the connection delivered it. -/
structure RemoteFileResult where
  spec : RemoteSpec
  content : String
  encoding : String
  lossy : Bool

def remoteFileName (path : String) : String :=
  (((path.toList.splitOn '/').getLast?).map String.ofList).getD path

def fromRemoteLoaded (id : Nat) (result : RemoteFileResult) : EditorTab :=
  let fingerprint := contentFingerprintFromStr result.content
  { id := id
    title := remoteFileName result.spec.path
    content := .ofText result.content
    location := .remote result.spec
    modified := false
    originalContentHash := fingerprint.1
    originalContentLen := fingerprint.2
    encoding := result.encoding
    lossyDecode := result.lossy
    largeFile := isLargeFile fingerprint.2
    colorTag := none
    logView := false }

/-! ## When a tab differs from its baseline -/

theorem edit_eq (tab : EditorTab) (content : Rope) :
    ∃ modified, tab.edit content = { tab with content := content, modified := modified } := by
  unfold edit onContentChange checkModified
  cases tab.largeFile with
  | true => exact ⟨true, rfl⟩
  | false => exact ⟨_, rfl⟩

theorem contentDiffers_eq_false_iff {tab : EditorTab} (hlarge : tab.largeFile = false) :
    tab.contentDiffersFromOriginal = false ↔
      contentFingerprintFromStr tab.content.toText =
        (tab.originalContentHash, tab.originalContentLen) := by
  unfold contentDiffersFromOriginal
  rw [contentFingerprintFromRope_eq, hlarge, Prod.ext_iff]
  have hlen : (contentFingerprintFromStr tab.content.toText).2 = tab.content.len := rfl
  by_cases h : tab.content.len = tab.originalContentLen
  · simp [hlen, h]
  · simp [hlen, h]

theorem contentDiffers_markAsSaved (tab : EditorTab) :
    tab.markAsSaved.contentDiffersFromOriginal = false := by
  cases hlarge : tab.largeFile with
  | true => simp [markAsSaved, contentDiffersFromOriginal, hlarge]
  | false =>
      have hmode : tab.markAsSaved.largeFile = false := hlarge
      rw [contentDiffers_eq_false_iff hmode, ← contentFingerprintFromRope_eq]
      simp [markAsSaved, hlarge]

/-- A tab opened from a file equals its baseline, unless it is large and flagged modified. -/
theorem contentDiffers_fromFile (params : FromFileParams) :
    (fromFile params).contentDiffersFromOriginal =
      (isLargeFile params.contents.utf8ByteSize && params.isModified) := by
  have hlen : (Rope.ofText params.contents).len = params.contents.utf8ByteSize := by
    simp [Rope.len]
  have htext : contentFingerprintFromRope (Rope.ofText params.contents) =
      contentFingerprintFromStr params.contents := by
    simp [contentFingerprintFromRope_eq]
  cases hlarge : isLargeFile params.contents.utf8ByteSize with
  | true => simp [fromFile, contentDiffersFromOriginal, hlarge, hlen]
  | false =>
      simp [fromFile, contentDiffersFromOriginal, hlarge, hlen, htext, contentFingerprintFromStr]

theorem contentDiffers_fromRemoteLoaded (id : Nat) (result : RemoteFileResult)
    (tag : Option ColorTag) (modified : Bool)
    (hlimit : isLargeFile result.content.utf8ByteSize = false) :
    ({ fromRemoteLoaded id result with modified := modified, colorTag := tag } : EditorTab
      ).contentDiffersFromOriginal = false := by
  rw [contentDiffers_eq_false_iff (by exact hlimit)]
  simp [fromRemoteLoaded]

end EditorTab

end Fulgur
