import Fulgur.Tabs.EditorTab

/-! # Saving the tabs of a window

Each editor tab becomes at most one tab state. Only a buffer that differs from
its baseline and is within the size limit is saved with its content; an untitled
tab without content worth keeping is left out.
-/

namespace Fulgur

/-- What a tab state carries from its tab whatever the location. -/
def tabStateOf (tab : EditorTab) : TabState where
  tabId := tab.id
  title := tab.title
  filePath := none
  content := none
  lastSaved := none
  remote := none
  logView := tab.logView
  colorTag := tab.colorTag.map ColorTag.key

/-- Whether the buffer of a tab with a location is saved with the session. -/
def savesContent (persistUnsaved : Bool) (tab : EditorTab) : Bool :=
  persistUnsaved && tab.contentDiffersFromOriginal && !tab.contentTooLargeToPersist

/-- The body of `build_tab_states` for one tab; `none` leaves the tab out. -/
def buildTabState (persistUnsaved : Bool) (disk : Disk) (tab : EditorTab) : Option TabState :=
  match tab.location with
  | .localPath path =>
      if savesContent persistUnsaved tab then
        some { tabStateOf tab with
          filePath := some path
          content := some (.rope tab.content)
          lastSaved := getFileModifiedTime disk path }
      else some { tabStateOf tab with filePath := some path }
  | .remote spec =>
      let content := if savesContent persistUnsaved tab then some (.rope tab.content) else none
      some { tabStateOf tab with
        content := content
        remote := some (SerializedRemoteSpec.fromRemoteSpec spec) }
  | .untitled =>
      if !persistUnsaved then none
      else if tab.contentTooLargeToPersist then none
      else if TabContent.isEmpty (.rope tab.content)
          && UNTITLED.toList.isPrefixOf tab.title.toList then none
      else some { tabStateOf tab with content := some (.rope tab.content) }

def buildTabStates (persistUnsaved : Bool) (disk : Disk) (tabs : List EditorTab) : List TabState :=
  tabs.filterMap (buildTabState persistUnsaved disk)

/-! ## What a saved tab says -/

section

variable {persistUnsaved : Bool} {disk : Disk} {tab : EditorTab} {state : TabState}

theorem buildTabState_tabId (h : buildTabState persistUnsaved disk tab = some state) :
    state.tabId = tab.id ∧ state.title = tab.title := by
  unfold buildTabState at h
  split at h <;> grind [tabStateOf]

theorem buildTabState_content {content : TabContent}
    (h : buildTabState persistUnsaved disk tab = some state) (hc : state.content = some content) :
    content = .rope tab.content ∧ tab.contentTooLargeToPersist = false := by
  unfold buildTabState at h
  split at h <;> grind [tabStateOf, savesContent]

theorem buildTabState_local {path : PathBuf} (hloc : tab.location = .localPath path)
    (h : buildTabState persistUnsaved disk tab = some state) :
    state.filePath = some path ∧ state.remote = none := by
  unfold buildTabState at h
  rw [hloc] at h
  grind [tabStateOf]

variable (disk) in
theorem buildTabState_local_saved {path : PathBuf} (hloc : tab.location = .localPath path)
    (hsaves : savesContent persistUnsaved tab = true) :
    buildTabState persistUnsaved disk tab = some { tabStateOf tab with
      filePath := some path
      content := some (.rope tab.content)
      lastSaved := getFileModifiedTime disk path } := by
  unfold buildTabState
  rw [hloc]
  exact if_pos hsaves

theorem buildTabState_remote {spec : RemoteSpec} (hloc : tab.location = .remote spec)
    (h : buildTabState persistUnsaved disk tab = some state) :
    state.filePath = none ∧ state.remote = some (SerializedRemoteSpec.fromRemoteSpec spec) := by
  unfold buildTabState at h
  rw [hloc] at h
  grind [tabStateOf]

theorem buildTabState_untitled (hloc : tab.location = .untitled) :
    buildTabState true disk tab =
      if tab.contentTooLargeToPersist = true ∨
          (tab.content.toText = "" ∧ UNTITLED.toList.isPrefixOf tab.title.toList = true) then none
      else some { tabStateOf tab with content := some (.rope tab.content) } := by
  have hempty : TabContent.isEmpty (.rope tab.content) = true ↔ tab.content.toText = "" :=
    TabContent.isEmpty_iff (.rope tab.content)
  unfold buildTabState
  rw [hloc]
  simp only [Bool.not_true, Bool.false_eq_true, if_false, Bool.and_eq_true, hempty]
  split
  · simp [*]
  · simp [*]

theorem buildTabState_content_none (hloc : tab.location ≠ .untitled)
    (hsame : tab.contentDiffersFromOriginal = false)
    (h : buildTabState persistUnsaved disk tab = some state) : state.content = none := by
  unfold buildTabState at h
  split at h <;> grind [tabStateOf, savesContent]

end

end Fulgur
