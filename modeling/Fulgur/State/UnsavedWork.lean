import Fulgur.State.Sessions
import Fulgur.Tabs.ActiveRestart

/-! # Unsaved work, from the buffer to the next launch

A snapshot of all windows is built from their tabs, written by the snapshot writer,
loaded by the next launch and turned into tabs again. What was in a buffer and
nowhere else is in a buffer again after that, under its identity and marked as
modified, unless its file was written by something else in the meantime.
-/

namespace Fulgur

open LabelledRun

/-- A window as `build_windows_state` finds it. -/
structure OpenWindow where
  manager : TabManager
  persistUnsaved : Bool
  windowId : Int
  windowBounds : SerializedWindowBounds

def OpenWindow.buildWindowState (disk : Disk) (window : OpenWindow) : WindowState :=
  window.manager.buildWindowState window.persistUnsaved disk window.windowId window.windowBounds

def OpenWindow.buildWindowsState (disk : Disk) (windows : List OpenWindow) : WindowsState :=
  ⟨windows.map (OpenWindow.buildWindowState disk)⟩

/--
The buffer is within the size limit, and it differs from the baseline of a tab that has
a place, or is worth keeping in one that has none.
-/
def EditorTab.unsavedWork (persistUnsaved : Bool) (tab : EditorTab) : Bool :=
  persistUnsaved && !tab.contentTooLargeToPersist && match tab.location with
    | .untitled =>
        !(TabContent.isEmpty (.rope tab.content) && UNTITLED.toList.isPrefixOf tab.title.toList)
    | _ => tab.contentDiffersFromOriginal

/-- The file of the tab can be read and is newer than it was when the tab was saved. -/
def RestoreContext.ChangedOutside (context : RestoreContext) (disk : Disk) (tab : EditorTab) :
    Prop :=
  ∃ path, tab.location = .localPath path ∧ (context.disk path).canOpen = true ∧
    ∃ savedTime fileTime, getFileModifiedTime disk path = some savedTime ∧
      getFileModifiedTime context.disk path = some fileTime ∧
      isFileNewer context.parse fileTime savedTime = true

section

variable {context : RestoreContext} {persistUnsaved : Bool} {disk : Disk} {tab : EditorTab}

variable (disk) in
/-- Unsaved work is saved with its text. -/
theorem buildTabState_unsavedWork (hwork : tab.unsavedWork persistUnsaved = true) :
    ∃ state, buildTabState persistUnsaved disk tab = some state ∧
      state.content = some (.rope tab.content) ∧
      ∀ path, state.filePath = some path →
        tab.location = .localPath path ∧ state.lastSaved = getFileModifiedTime disk path := by
  unfold EditorTab.unsavedWork at hwork
  rw [Bool.and_eq_true, Bool.and_eq_true, Bool.not_eq_true'] at hwork
  obtain ⟨⟨hpersist, hlimit⟩, hkept⟩ := hwork
  unfold buildTabState savesContent
  cases hloc : tab.location with
  | untitled =>
      rw [hloc, Bool.not_eq_true'] at hkept
      refine ⟨_, by simp only [hpersist, hlimit, hkept]; rfl, rfl, ?_⟩
      intro path hpath
      cases hpath
  | remote spec =>
      rw [hloc] at hkept
      refine ⟨_, by simp only [hpersist, hlimit, hkept]; rfl, rfl, ?_⟩
      intro path hpath
      cases hpath
  | localPath path =>
      rw [hloc] at hkept
      refine ⟨_, by simp only [hpersist, hlimit, hkept]; rfl, rfl, ?_⟩
      intro other hother
      cases hother
      exact ⟨rfl, rfl⟩

/-- The decisions under which the saved text is restored. -/
theorem restoreDecision_saved {state : TabState} {text : String}
    (hcontent : state.content.map TabContent.toText = some text)
    (hfile : ∀ path, state.filePath = some path → (context.disk path).canOpen = true →
      ∀ savedTime fileTime, state.lastSaved = some savedTime →
        getFileModifiedTime context.disk path = some fileTime →
        isFileNewer context.parse fileTime savedTime = false) :
    (∃ remote,
      restoreDecision context.parse context.disk state = .restoreRemote remote (some text)) ∨
      (∃ path, restoreDecision context.parse context.disk state =
        .useSavedContentWithPath path text) ∨
      restoreDecision context.parse context.disk state = .useSavedContentNoPath text := by
  unfold restoreDecision determineTabRestoreStrategy
  rw [hcontent]
  cases hremote : state.remote with
  | some remote => exact Or.inl ⟨remote, rfl⟩
  | none =>
      cases hpath : state.filePath with
      | none => exact Or.inr (Or.inr rfl)
      | some path =>
          have hkept := hfile path hpath
          simp only [Option.any_some, Option.bind_some]
          grind

/-- Unsaved work comes back with its text, and marked as modified. -/
theorem reopen_unsavedWork (hwork : tab.unsavedWork persistUnsaved = true)
    (hsame : ¬ context.ChangedOutside disk tab) :
    ∃ restored, context.reopen persistUnsaved disk tab = some restored ∧ restored.id = tab.id ∧
      restored.content.toText = tab.content.toText ∧ restored.modified = true := by
  obtain ⟨state, hsaved, hcontent, hpath⟩ := buildTabState_unsavedWork disk hwork
  have htext : state.flatten.content.map TabContent.toText = some tab.content.toText := by
    rw [TabState.flatten, hcontent]
    rfl
  have hfile : ∀ path, state.flatten.filePath = some path → (context.disk path).canOpen = true →
      ∀ savedTime fileTime, state.flatten.lastSaved = some savedTime →
        getFileModifiedTime context.disk path = some fileTime →
        isFileNewer context.parse fileTime savedTime = false := by
    intro path hlocal hopen savedTime fileTime hsavedTime hfileTime
    obtain ⟨hloc, hlast⟩ := hpath path hlocal
    rw [← Bool.not_eq_true]
    intro hnewer
    exact hsame ⟨path, hloc, hopen, savedTime, fileTime, hlast.symm.trans hsavedTime,
      hfileTime, hnewer⟩
  have hreopen : context.reopen persistUnsaved disk tab = context.restore state.flatten := by
    rw [RestoreContext.reopen, hsaved, Option.bind_some]
  have hid : state.flatten.tabId = tab.id := (buildTabState_tabId hsaved).1
  rw [hreopen]
  rcases restoreDecision_saved htext hfile with ⟨remote, hdecision⟩ | ⟨path, hdecision⟩ | hdecision
  · exact ⟨_, by simp only [RestoreContext.restore, restoreTabFromState, hdecision]; rfl, hid,
      by simp [EditorTab.fromRemoteLoaded], rfl⟩
  · exact ⟨_, by simp only [RestoreContext.restore, restoreTabFromState, hdecision]; rfl, hid,
      by simp [EditorTab.fromFile], rfl⟩
  · exact ⟨_, by simp only [RestoreContext.restore, restoreTabFromState, hdecision]; rfl, hid,
      by simp [restoredUntitled], rfl⟩

end

/-! ## The tabs of the next launch -/

namespace TabManager

theorem editors_insertPreviewsFrom (left : Nat) (s : TabManager) (index : Nat) :
    (insertPreviewsFrom left s index).editors = s.editors := by
  induction left generalizing s index with
  | zero => rfl
  | succ left ih =>
      rw [insertPreviewsFrom]
      split
      · rename_i inserted hinserted
        rw [ih]
        unfold insertPreviewAt at hinserted
        split at hinserted
        · split at hinserted
          · cases hinserted
          · cases hinserted
            exact Keyed.filterMap_insertIdx rfl s.tabs (index + 1)
        · cases hinserted
      · exact ih s (index + 1)

theorem editors_insertPreviewTabs (s : TabManager) :
    s.insertPreviewTabsForMarkdown.editors = s.editors := by
  unfold insertPreviewTabsForMarkdown
  split
  · rfl
  · exact editors_insertPreviewsFrom _ _ _

/-- A launch has the tabs that could be restored, next to their previews, or one new tab. -/
theorem editors_launched (context : RestoreContext) (dedicatedTab showMarkdownPreview : Bool)
    (windowState : WindowState) {restored : List EditorTab}
    (hrestored : (restoreTabs context windowState.tabs ([], 0)).1 = restored) :
    (launched context dedicatedTab showMarkdownPreview (.restored (some windowState))).editors =
      if restored = [] then [.new 0 UNTITLED] else restored := by
  cases hpair : restoreTabs context windowState.tabs ([], 0) with
  | mk tabs highestTabId =>
      obtain rfl : tabs = restored := by rw [← hrestored, hpair]
      let opened : TabManager := { empty dedicatedTab showMarkdownPreview with
        tabs := tabs.map fun tab => .editor tab (context.isMarkdown tab)
        nextTabId := saturatingSucc highestTabId }
      have hwindow :
        ((empty dedicatedTab showMarkdownPreview).restoreWindow context windowState).tabs =
          opened.insertPreviewTabsForMarkdown.tabs := by
        rw [restoreWindow, hpair]
      have hopened : opened.editors = tabs := by
        rw [TabManager.editors, List.filterMap_map]
        exact List.filterMap_some
      have heditors : opened.insertPreviewTabsForMarkdown.tabs.filterMap Tab.asEditor = tabs := by
        rw [← hopened, ← editors_insertPreviewTabs, TabManager.editors]
      have hhead : opened.insertPreviewTabsForMarkdown.tabs.head? = opened.tabs.head? :=
        insertPreviewTabs_head opened
      show (loadState context (empty dedicatedTab showMarkdownPreview)
        (some windowState)).editors = _
      unfold loadState
      dsimp only
      rw [TabManager.editors, hwindow]
      cases htabs : tabs with
      | nil =>
          have hempty : opened.insertPreviewTabsForMarkdown.tabs = [] := by
            rw [← List.head?_eq_none_iff, hhead]
            simp [opened, htabs]
          rw [hempty]
          rfl
      | cons tab rest =>
          have hnonempty : opened.insertPreviewTabsForMarkdown.tabs.isEmpty = false := by
            rw [List.isEmpty_eq_false_iff]
            intro hnil
            rw [hnil] at heditors
            rw [htabs] at heditors
            cases heditors
          rw [hnonempty, if_neg (by simp), if_neg (by simp), hwindow, heditors, htabs]

end TabManager

theorem OpenWindow.editors_restored (context : RestoreContext) (disk : Disk) (window : OpenWindow)
    (dedicatedTab showMarkdownPreview : Bool) :
    (TabManager.launched context dedicatedTab showMarkdownPreview
      (.restored (some (window.buildWindowState disk).normalise))).editors =
        let restored := window.manager.editors.filterMap (context.reopen window.persistUnsaved disk)
        if restored = [] then [.new 0 UNTITLED] else restored :=
  TabManager.editors_launched context dedicatedTab showMarkdownPreview _
    (restoreTabs_saved context window.persistUnsaved disk window.manager.editors)

theorem OpenWindow.mem_editors_restored {context : RestoreContext} {disk : Disk}
    {window : OpenWindow}
    (dedicatedTab showMarkdownPreview : Bool) {tab : EditorTab}
    (htab : tab ∈ window.manager.editors)
    (hwork : tab.unsavedWork window.persistUnsaved = true)
    (hsame : ¬ context.ChangedOutside disk tab) :
    ∃ restored ∈ (TabManager.launched context dedicatedTab showMarkdownPreview
        (.restored (some (window.buildWindowState disk).normalise))).editors,
      restored.id = tab.id ∧ restored.content.toText = tab.content.toText ∧
        restored.modified = true := by
  obtain ⟨restored, hreopen, hkept⟩ := reopen_unsavedWork hwork hsame
  have hmem :
    restored ∈ window.manager.editors.filterMap (context.reopen window.persistUnsaved disk) :=
    List.mem_filterMap.mpr ⟨tab, htab, hreopen⟩
  refine ⟨restored, ?_, hkept⟩
  rw [window.editors_restored context disk]
  dsimp only
  rwa [if_neg (List.ne_nil_of_mem hmem)]

def sampleUnsavedNote : EditorTab := { EditorTab.new 1 "Untitled 1" with content := .ofText "a" }

/-- A window with a note that was never saved, next to an empty tab. -/
def sampleOpenWindow : OpenWindow where
  manager := { TabManager.empty false false with
    tabs := [.editor (.new 0 UNTITLED) false, .editor sampleUnsavedNote false]
    activeTabId := some 1
    nextTabId := 2 }
  persistUnsaved := true
  windowId := 7
  windowBounds := .default

end Fulgur
