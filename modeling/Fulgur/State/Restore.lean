import Fulgur.State.Save

/-! # Restoring a tab

How a saved tab comes back is decided from what was saved and what the disk
shows; each decision has its own constructor, and each constructor sets the
baseline that the next save compares with.
-/

namespace Fulgur

/-- Decision for how to restore a tab from saved state. -/
inductive TabRestoreDecision where
  | restoreRemote (remote : SerializedRemoteSpec) (content : Option String)
  | loadFromFile (path : PathBuf)
  | useSavedContentWithPath (path : PathBuf) (content : String)
  | useSavedContentNoPath (content : String)
  | skip
deriving DecidableEq

def determineTabRestoreStrategy (parse : String → Option Int) (savedPath : Option PathBuf)
    (savedRemote : Option SerializedRemoteSpec) (savedContent lastSaved : Option String)
    (fileExists : Bool) (fileModifiedTime : Option String) (canReadFile : Bool) :
    TabRestoreDecision :=
  match savedRemote with
  | some remote => .restoreRemote remote savedContent
  | none =>
      match savedPath, savedContent with
      | some path, some content =>
          if fileExists then
            match lastSaved, fileModifiedTime with
            | some savedTime, some fileTime =>
                if isFileNewer parse fileTime savedTime then
                  if canReadFile then .loadFromFile path
                  else .useSavedContentWithPath path content
                else .useSavedContentWithPath path content
            | _, _ => .useSavedContentWithPath path content
          else .useSavedContentNoPath content
      | some path, none => if fileExists && canReadFile then .loadFromFile path else .skip
      | none, some content => .useSavedContentNoPath content
      | none, none => .skip

/-- The tab of a saved buffer that has no path: an untitled one under its saved title. -/
def restoredUntitled (tabId : Nat) (title content : String) : EditorTab where
  id := tabId
  title := title
  content := .ofText content
  location := .untitled
  modified := true
  originalContentHash := (contentFingerprintFromStr "").1
  originalContentLen := 0
  encoding := "UTF-8"
  lossyDecode := false
  largeFile := isLargeFile content.utf8ByteSize
  colorTag := none
  logView := false

def finishRestore (tabState : TabState) (tab : EditorTab) : EditorTab :=
  { tab with
    logView := tabState.logView || tab.filePath.any opensAsLogByDefault || tab.logView
    colorTag := tabState.colorTag.bind ColorTag.fromKey }

def restoreDecision (parse : String → Option Int) (disk : Disk) (tabState : TabState) :
    TabRestoreDecision :=
  determineTabRestoreStrategy parse tabState.filePath tabState.remote
    (tabState.content.map TabContent.toText) tabState.lastSaved
    (tabState.filePath.any fun path => (disk path).isPresent)
    (tabState.filePath.bind (getFileModifiedTime disk))
    (tabState.filePath.any fun path => (disk path).canOpen)

def restoreTabFromState (encodings : Encodings) (parse : String → Option Int) (disk : Disk)
    (tabState : TabState) (tabId : Nat) : Option EditorTab :=
  match restoreDecision parse disk tabState with
  | .restoreRemote remote content =>
      let tab := EditorTab.fromRemoteLoaded tabId
        { spec := remote.toRemoteSpec, content := content.getD "", encoding := UTF_8,
          lossy := false }
      some { tab with
        modified := content.isSome
        colorTag := tabState.colorTag.bind ColorTag.fromKey }
  | .loadFromFile path =>
      if (disk path).canOpen then
        (disk path).contents.map fun bytes =>
          let decoded := detectEncodingAndDecode encodings bytes
          let tab := EditorTab.fromFile
            { id := tabId, path := path, contents := decoded.content, encoding := decoded.encoding,
              isModified := false }
          finishRestore tabState { tab with lossyDecode := decoded.lossy }
      else none
  | .useSavedContentWithPath path content =>
      let tab := EditorTab.fromFile
        { id := tabId, path := path, contents := content, encoding := UTF_8, isModified := true }
      some (finishRestore tabState { tab with lossyDecode := false })
  | .useSavedContentNoPath content =>
      some (finishRestore tabState (restoredUntitled tabId tabState.title content))
  | .skip => none

/-! ## Each way a tab comes back -/

@[simp] theorem finishRestore_location (tabState : TabState) (tab : EditorTab) :
    (finishRestore tabState tab).location = tab.location := rfl

@[simp] theorem finishRestore_content (tabState : TabState) (tab : EditorTab) :
    (finishRestore tabState tab).content = tab.content := rfl

@[simp] theorem finishRestore_title (tabState : TabState) (tab : EditorTab) :
    (finishRestore tabState tab).title = tab.title := rfl

@[simp] theorem finishRestore_tooLarge (tabState : TabState) (tab : EditorTab) :
    (finishRestore tabState tab).contentTooLargeToPersist = tab.contentTooLargeToPersist := rfl

@[simp] theorem finishRestore_differs (tabState : TabState) (tab : EditorTab) :
    (finishRestore tabState tab).contentDiffersFromOriginal = tab.contentDiffersFromOriginal := rfl

theorem restoredUntitled_tooLarge (tabId : Nat) (title content : String) :
    (restoredUntitled tabId title content).contentTooLargeToPersist =
      isLargeFile content.utf8ByteSize := by
  simp [restoredUntitled, EditorTab.contentTooLargeToPersist, Rope.len]

/-- How a restored tab stands to the state it was restored from. -/
inductive RestoredFrom (encodings : Encodings) (parse : String → Option Int) (disk : Disk)
    (tabState : TabState) (tab : EditorTab) : Prop where
  /-- A remote tab: the saved buffer, or an empty one, is its own baseline. -/
  | remote (remote : SerializedRemoteSpec) (hremote : tabState.remote = some remote)
      (hloc : tab.location = .remote remote.toRemoteSpec)
      (htext : tab.content.toText = (tabState.content.map TabContent.toText).getD "")
      (hsame : isLargeFile tab.content.len = false → tab.contentDiffersFromOriginal = false)
  /-- A file read from disk, which is its own baseline. -/
  | file (path : PathBuf) (hpath : tabState.filePath = some path)
      (hcase : tabState.content = none ∨
        ∃ savedTime fileTime, tabState.lastSaved = some savedTime ∧
          (disk path).modified = some fileTime ∧ isFileNewer parse fileTime savedTime = true)
      (hloc : tab.location = .localPath path)
      (hread : ∃ bytes, (disk path).contents = some bytes ∧
        tab.content.toText = (detectEncodingAndDecode encodings bytes).content)
      (hsame : tab.contentDiffersFromOriginal = false)
  /-- A saved buffer on its path, which is its own baseline. -/
  | saved (path : PathBuf) (content : TabContent)
      (hdecision : restoreDecision parse disk tabState =
        .useSavedContentWithPath path content.toText)
      (hpath : tabState.filePath = some path) (hpresent : (disk path).isPresent = true)
      (hcontent : tabState.content = some content) (hloc : tab.location = .localPath path)
      (htext : tab.content.toText = content.toText)
      (hsame : isLargeFile content.toText.utf8ByteSize = false →
        tab.contentDiffersFromOriginal = false)
  /-- A saved buffer without its path, as an untitled tab. -/
  | untitled (content : TabContent) (hcontent : tabState.content = some content)
      (hremote : tabState.remote = none)
      (hpath : ∀ path, tabState.filePath = some path → (disk path).isPresent = false)
      (hloc : tab.location = .untitled) (htitle : tab.title = tabState.title)
      (htext : tab.content.toText = content.toText)
      (hlarge : tab.contentTooLargeToPersist = isLargeFile content.toText.utf8ByteSize)

section

variable {parse : String → Option Int} {savedPath : Option PathBuf}
  {savedRemote : Option SerializedRemoteSpec} {savedContent lastSaved : Option String}
  {fileExists canReadFile : Bool} {fileModifiedTime : Option String}

private theorem strategy_remote {remote : SerializedRemoteSpec} {content : Option String}
    (h : determineTabRestoreStrategy parse savedPath savedRemote savedContent lastSaved fileExists
      fileModifiedTime canReadFile = .restoreRemote remote content) :
    savedRemote = some remote ∧ savedContent = content := by
  unfold determineTabRestoreStrategy at h
  grind

/-- A saved buffer gives way to its file only when the file is newer than the save. -/
theorem strategy_file {path : PathBuf}
    (h : determineTabRestoreStrategy parse savedPath savedRemote savedContent lastSaved fileExists
      fileModifiedTime canReadFile = .loadFromFile path) :
    savedPath = some path ∧ (savedContent = none ∨
      ∃ savedTime fileTime, lastSaved = some savedTime ∧ fileModifiedTime = some fileTime ∧
        isFileNewer parse fileTime savedTime = true) := by
  unfold determineTabRestoreStrategy at h
  grind

theorem strategy_withPath {path : PathBuf} {content : String}
    (h : determineTabRestoreStrategy parse savedPath savedRemote savedContent lastSaved fileExists
      fileModifiedTime canReadFile = .useSavedContentWithPath path content) :
    savedPath = some path ∧ fileExists = true ∧ savedContent = some content := by
  unfold determineTabRestoreStrategy at h
  grind

private theorem strategy_noPath {content : String}
    (h : determineTabRestoreStrategy parse savedPath savedRemote savedContent lastSaved fileExists
      fileModifiedTime canReadFile = .useSavedContentNoPath content) :
    savedContent = some content ∧ savedRemote = none ∧
      (savedPath = none ∨ fileExists = false) := by
  unfold determineTabRestoreStrategy at h
  grind

private theorem strategy_of_missing {content : String} (hremote : savedRemote = none)
    (hcontent : savedContent = some content) (hmissing : savedPath = none ∨ fileExists = false) :
    determineTabRestoreStrategy parse savedPath savedRemote savedContent lastSaved fileExists
      fileModifiedTime canReadFile = .useSavedContentNoPath content := by
  unfold determineTabRestoreStrategy
  grind

end

section

variable {encodings : Encodings} {parse : String → Option Int} {disk : Disk} {tabState : TabState}
  {tabId : Nat}

theorem restoredFrom_of_restore {tab : EditorTab}
    (h : restoreTabFromState encodings parse disk tabState tabId = some tab) :
    RestoredFrom encodings parse disk tabState tab := by
  unfold restoreTabFromState at h
  simp only at h
  split at h
  case h_1 remote content hdecision =>
      obtain ⟨hremote, hcontent⟩ := strategy_remote hdecision
      cases h
      apply RestoredFrom.remote remote hremote rfl
      · simp [EditorTab.fromRemoteLoaded, hcontent]
      · intro hlimit
        apply EditorTab.contentDiffers_fromRemoteLoaded
        simpa [EditorTab.fromRemoteLoaded, Rope.len] using hlimit
  case h_2 path hdecision =>
      obtain ⟨hpath, hcase⟩ := strategy_file hdecision
      rw [hpath, Option.bind_some, Option.map_eq_none_iff] at hcase
      split at h
      · rcases Option.map_eq_some_iff.mp h with ⟨bytes, hbytes, htab⟩
        cases htab
        apply RestoredFrom.file path hpath hcase rfl ⟨bytes, hbytes, by simp [EditorTab.fromFile]⟩
        show (EditorTab.fromFile _).contentDiffersFromOriginal = false
        rw [EditorTab.contentDiffers_fromFile, Bool.and_false]
      · cases h
  case h_3 path text hdecision =>
      obtain ⟨hpath, hpresent, hcontent⟩ := strategy_withPath hdecision
      rcases Option.map_eq_some_iff.mp hcontent with ⟨content, hsaved, rfl⟩
      rw [hpath, Option.any_some] at hpresent
      cases h
      apply RestoredFrom.saved path content hdecision hpath hpresent hsaved rfl
      · simp [EditorTab.fromFile]
      · intro hlimit
        show (EditorTab.fromFile _).contentDiffersFromOriginal = false
        rw [EditorTab.contentDiffers_fromFile, hlimit, Bool.false_and]
  case h_4 text hdecision =>
      obtain ⟨hcontent, hremote, hmissing⟩ := strategy_noPath hdecision
      rcases Option.map_eq_some_iff.mp hcontent with ⟨content, hsaved, rfl⟩
      cases h
      apply RestoredFrom.untitled content hsaved hremote ?_ rfl rfl (by simp [restoredUntitled])
      · rw [finishRestore_tooLarge, restoredUntitled_tooLarge]
      · intro path hpath
        simpa [hpath] using hmissing
  case h_5 => cases h

/-- A tab comes back under the identity it is restored with. -/
theorem restore_id {tab : EditorTab}
    (h : restoreTabFromState encodings parse disk tabState tabId = some tab) : tab.id = tabId := by
  unfold restoreTabFromState at h
  split at h
  · cases h
    rfl
  · split at h
    · rcases Option.map_eq_some_iff.mp h with ⟨bytes, _, rfl⟩
      rfl
    · cases h
  · cases h
    rfl
  · cases h
    rfl
  · cases h

theorem restore_of_missing {content : TabContent} (hremote : tabState.remote = none)
    (hcontent : tabState.content = some content)
    (hmissing : ∀ path, tabState.filePath = some path → (disk path).isPresent = false) :
    restoreTabFromState encodings parse disk tabState tabId =
      some (finishRestore tabState (restoredUntitled tabId tabState.title content.toText)) := by
  have habsent : tabState.filePath = none ∨
      tabState.filePath.any (fun path => (disk path).isPresent) = false := by
    cases hpath : tabState.filePath with
    | none => exact Or.inl rfl
    | some path => exact Or.inr (hmissing path hpath)
  have htext : tabState.content.map TabContent.toText = some content.toText := by
    rw [hcontent, Option.map_some]
  unfold restoreTabFromState restoreDecision
  simp only [strategy_of_missing hremote htext habsent]

end

end Fulgur
