import Fulgur.Tabs.Transfer

/-! # The tabs of a window

A window keeps its tabs in a strip and the identifier of the active one. Each
operation edits the two on its own; what closes several tabs goes through them
one by one, and stops at a modified tab to ask.
-/

namespace Fulgur

structure SettingsTab where
  id : Nat
  title : String
deriving DecidableEq

/-- A read-only tab that renders a live Markdown preview for a linked editor tab. -/
structure MarkdownPreviewTab where
  id : Nat
  title : String
  sourceTabId : Nat
deriving DecidableEq

/-- A tab; of an editor's language only whether it is Markdown is kept. -/
inductive Tab where
  | editor (tab : EditorTab) (markdown : Bool)
  | settings (tab : SettingsTab)
  | markdownPreview (tab : MarkdownPreviewTab)
deriving DecidableEq

namespace Tab

def id : Tab → Nat
  | .editor tab _ => tab.id
  | .settings tab => tab.id
  | .markdownPreview tab => tab.id

def isModified : Tab → Bool
  | .editor tab _ => tab.modified
  | .settings _ => false
  | .markdownPreview _ => false

def asEditor : Tab → Option EditorTab
  | .editor tab _ => some tab
  | _ => none

def previews (tabId : Nat) : Tab → Bool
  | .markdownPreview tab => tab.sourceTabId = tabId
  | _ => false

/-- Another state of the editor tab `tabId`, under its identifier; other tabs stay. -/
def change (tabId : Nat) (changed : EditorTab) (markdown : Bool) : Tab → Tab
  | .editor tab language =>
      if tab.id = tabId then .editor { changed with id := tabId } markdown
      else .editor tab language
  | other => other

end Tab

/-- What the dialog about unsaved changes does when it is confirmed. -/
inductive OnConfirm where
  | closeTab (tabId : Nat)
  | closeAllTabs (tabId : Nat)
  | closeTabsToLeft (tabId keepId : Nat)
  | closeTabsToRight (tabId keepId : Nat)
  | closeOtherTabs (tabId activeTabId : Nat)
deriving DecidableEq

structure TabManager where
  tabs : List Tab
  activeTabId : Option Nat
  nextTabId : Nat
  /-- The settings: previews open in a tab of their own, and open along with a file. -/
  dedicatedTab : Bool
  showMarkdownPreview : Bool
  /-- The open dialogs about unsaved changes. -/
  dialogs : List OnConfirm

namespace TabManager

/-- The window as it is created, before any tab. -/
def empty (dedicatedTab showMarkdownPreview : Bool) : TabManager where
  tabs := []
  activeTabId := none
  nextTabId := 0
  dedicatedTab := dedicatedTab
  showMarkdownPreview := showMarkdownPreview
  dialogs := []

def tabIndexOf (s : TabManager) (tabId : Nat) : Option Nat :=
  s.tabs.findIdx? fun tab => tab.id = tabId

def findTab (s : TabManager) (tabId : Nat) : Option Tab := s.tabs.find? fun tab => tab.id = tabId

def activeTabIndex (s : TabManager) : Option Nat := s.activeTabId.bind s.tabIndexOf

def activeTab (s : TabManager) : Option Tab := s.activeTabId.bind s.findTab

/-- Whether a tab with this identifier is in the strip. -/
def contains (s : TabManager) (tabId : Nat) : Bool := s.tabs.any fun tab => tab.id = tabId

/-! ## Closing -/

def closeTabManageFocus (s : TabManager) (pos : Nat) : TabManager :=
  if s.tabs.isEmpty then { s with activeTabId := none }
  else if s.activeTabIndex.isNone then
    { s with activeTabId := s.tabs[min pos (s.tabs.length - 1)]?.map Tab.id }
  else s

/-- Take a tab out of the strip by its position. -/
def removeAt (s : TabManager) (pos : Nat) : TabManager :=
  { s with tabs := s.tabs.eraseIdx pos }.closeTabManageFocus pos

def linkedPreviewId (s : TabManager) : Tab → Option Nat
  | .editor tab _ => (s.tabs.find? (Tab.previews tab.id)).map Tab.id
  | _ => none

def removeTabById (s : TabManager) (tabId : Nat) : TabManager :=
  match s.tabIndexOf tabId with
  | none => s
  | some pos =>
      let removed := s.removeAt pos
      match (s.tabs[pos]?.bind s.linkedPreviewId).bind removed.tabIndexOf with
      | none => removed
      | some previewPos => removed.removeAt previewPos

def setActiveTab (s : TabManager) (index : Nat) : TabManager :=
  if index < s.tabs.length then { s with activeTabId := s.tabs[index]?.map Tab.id } else s

def checkTabModified (s : TabManager) (tabId : Nat) : Bool :=
  (s.findTab tabId).any Tab.isModified

def showUnsavedChangesDialog (s : TabManager) (onConfirm : OnConfirm) : TabManager :=
  { s with dialogs := s.dialogs ++ [onConfirm] }

def closeTab (s : TabManager) (tabId : Nat) : TabManager :=
  if !s.contains tabId then s
  else if s.checkTabModified tabId then s.showUnsavedChangesDialog (.closeTab tabId)
  else s.removeTabById tabId

def closeActiveTab (s : TabManager) : TabManager :=
  match s.activeTabId with
  | some tabId => s.closeTab tabId
  | none => s

/--
The loop that the operations below share: close the tabs that are still there,
and stop at a modified one to ask. Also tells whether the loop went through.
-/
def closeEach (onConfirm : Nat → OnConfirm) : TabManager → List Nat → TabManager × Bool
  | s, [] => (s, true)
  | s, tabId :: tabIds =>
      if !s.contains tabId then closeEach onConfirm s tabIds
      else if s.checkTabModified tabId then
        let shown := match s.tabIndexOf tabId with
          | some pos => s.setActiveTab pos
          | none => s
        (shown.showUnsavedChangesDialog (onConfirm tabId), false)
      else closeEach onConfirm (s.removeTabById tabId) tabIds

def clearActiveIfEmpty (s : TabManager) : TabManager :=
  if s.tabs.isEmpty then { s with activeTabId := none } else s

def closeAllTabs (s : TabManager) : TabManager :=
  if s.tabs.isEmpty then s
  else match closeEach .closeAllTabs s (s.tabs.map Tab.id) with
    | (stopped, false) => stopped
    | (closed, true) => closed.clearActiveIfEmpty

def closeTabsToLeft (s : TabManager) (index : Nat) : TabManager :=
  match s.tabs[index]? with
  | some keep =>
      if index = 0 then s
      else (closeEach (.closeTabsToLeft · keep.id) s ((s.tabs.take index).map Tab.id)).1
  | none => s

def closeTabsToRight (s : TabManager) (index : Nat) : TabManager :=
  if s.tabs.length - 1 ≤ index then s
  else match s.tabs[index]? with
    | some keep =>
        (closeEach (.closeTabsToRight · keep.id) s ((s.tabs.drop (index + 1)).map Tab.id)).1
    | none => s

def otherTabIds (s : TabManager) (tabId : Nat) : List Nat :=
  (s.tabs.map Tab.id).filter fun id => id ≠ tabId

def closeOtherTabs (s : TabManager) : TabManager :=
  match s.activeTabId with
  | none => s
  | some activeTabId =>
      if s.tabs.length ≤ 1 then s
      else match closeEach (.closeOtherTabs · activeTabId) s (s.otherTabIds activeTabId) with
        | (stopped, false) => stopped
        | (closed, true) => { closed with activeTabId := some activeTabId }

/-- The tab that was asked about is gone, and its operation goes on in this state. -/
def confirmedOthers (s : TabManager) (tabId activeTabId : Nat) : TabManager :=
  let closed := s.removeTabById tabId
  if closed.contains activeTabId then { closed with activeTabId := some activeTabId } else closed

def runOnConfirm (s : TabManager) : OnConfirm → TabManager
  | .closeTab tabId => s.removeTabById tabId
  | .closeAllTabs tabId =>
      let closed := s.removeTabById tabId
      if closed.tabs.isEmpty then { closed with activeTabId := none } else closed.closeAllTabs
  | .closeTabsToLeft tabId keepId =>
      let closed := s.removeTabById tabId
      match closed.tabIndexOf keepId with
      | some boundaryIndex =>
          if 0 < boundaryIndex then closed.closeTabsToLeft boundaryIndex else closed
      | none => closed
  | .closeTabsToRight tabId keepId =>
      let closed := s.removeTabById tabId
      match closed.tabIndexOf keepId with
      | some boundaryIndex =>
          if boundaryIndex < closed.tabs.length - 1 then closed.closeTabsToRight boundaryIndex
          else closed
      | none => closed
  | .closeOtherTabs tabId activeTabId => (s.confirmedOthers tabId activeTabId).closeOtherTabs

def confirmDialog (s : TabManager) (index : Nat) : Option TabManager :=
  s.dialogs[index]?.map fun onConfirm =>
    { s with dialogs := s.dialogs.eraseIdx index }.runOnConfirm onConfirm

/-! ## Opening -/

/-- A tab at the end of the strip, made active. -/
def pushActive (s : TabManager) (tab : Tab) : TabManager :=
  { s with tabs := s.tabs ++ [tab], activeTabId := some tab.id }

def allocated (s : TabManager) : TabManager := { s with nextTabId := s.nextTabId + 1 }

def newTab (s : TabManager) (markdown : Bool) : TabManager :=
  s.allocated.pushActive (.editor (.new s.nextTabId (UNTITLED ++ " " ++ toString s.nextTabId))
    markdown)

def reusableScratchTabId (s : TabManager) : Option Nat :=
  match s.tabs.getLast? with
  | some (.editor editor _) =>
      if editor.location = .untitled ∧ isBlank editor.content.toText then
        some editor.id
      else none
  | _ => none

def placeEditorTabReusingScratch (s : TabManager) (tab : Tab) : TabManager :=
  match s.reusableScratchTabId with
  | some scratchId => (s.removeTabById scratchId).pushActive tab
  | none => s.pushActive tab

def insertAt (s : TabManager) (pos : Nat) (tab : Tab) : TabManager :=
  { s with tabs := s.tabs.insertIdx pos tab }

def buildPreviewTab (s : TabManager) (sourceTabId : Nat) (sourceTitle : String) : Tab :=
  .markdownPreview
    { id := s.nextTabId, title := "Preview - " ++ sourceTitle, sourceTabId := sourceTabId }

def maybeOpenMarkdownPreviewForEditor (s : TabManager) (index : Nat) : TabManager :=
  if !s.dedicatedTab || !s.showMarkdownPreview then s
  else match s.tabs[index]? with
    | some (.editor tab true) =>
        if tab.largeFile then s
        else s.allocated.insertAt (index + 1) (s.buildPreviewTab tab.id tab.title)
    | _ => s

def openFile (s : TabManager) (path : PathBuf) (decoded : DecodedContents) (markdown : Bool) :
    TabManager :=
  let tab := EditorTab.fromFile
    { id := s.nextTabId, path := path, contents := decoded.content, encoding := decoded.encoding,
      isModified := false }
  let placed := s.allocated.placeEditorTabReusingScratch
    (.editor { tab with lossyDecode := decoded.lossy } markdown)
  placed.maybeOpenMarkdownPreviewForEditor (placed.tabs.length - 1)

def openRemoteFile (s : TabManager) (result : EditorTab.RemoteFileResult) (markdown : Bool) :
    TabManager :=
  s.allocated.placeEditorTabReusingScratch
    (.editor (.fromRemoteLoaded s.nextTabId result) markdown)

def openSharedFile (s : TabManager) (contents fileName : String) (markdown : Bool) : TabManager :=
  s.allocated.pushActive (.editor (.fromContent s.nextTabId contents fileName) markdown)

/-- The tab of a file that is opened again is made active. -/
def focusExisting (s : TabManager) (index : Nat) : TabManager :=
  { s with activeTabId := s.tabs[index]?.map Tab.id }

def openSettings (s : TabManager) : TabManager :=
  match s.tabs.findIdx? fun tab => tab matches .settings _ with
  | some index => s.setActiveTab index
  | none => s.allocated.pushActive (.settings ⟨s.nextTabId, "Settings"⟩)

def duplicateTab (s : TabManager) (index : Nat) : TabManager :=
  match s.tabs[index]? with
  | some (.editor tab markdown) =>
      { s.allocated.insertAt (index + 1) (.editor (tab.duplicate s.nextTabId) markdown) with
        activeTabId := some s.nextTabId }
  | _ => s

def previewSourceId (s : TabManager) : Option Nat :=
  match s.activeTab with
  | some (.editor tab _) => some tab.id
  | some (.markdownPreview preview) => some preview.sourceTabId
  | _ => none

def openMarkdownPreviewTab (s : TabManager) : TabManager :=
  if !s.dedicatedTab then s
  else match s.previewSourceId with
    | none => s
    | some editorId =>
        match s.tabs.find? (Tab.previews editorId) with
        | some preview => s.removeTabById preview.id
        | none =>
            match s.activeTab with
            | some (.editor tab _) =>
                if tab.largeFile then s
                else
                  let editorPos := s.activeTabIndex.getD 0
                  (s.allocated.insertAt (editorPos + 1) (s.buildPreviewTab editorId tab.title)
                    ).setActiveTab (editorPos + 1)
            | _ => s

def nextTab (s : TabManager) : TabManager :=
  match s.activeTabIndex with
  | some index => s.setActiveTab ((index + 1) % s.tabs.length)
  | none => s

def previousTab (s : TabManager) : TabManager :=
  match s.activeTabIndex with
  | some index => s.setActiveTab ((index + s.tabs.length - 1) % s.tabs.length)
  | none => s

def reorderTab (s : TabManager) (source slot : Nat) : TabManager :=
  if s.tabs.length ≤ source ∨ s.tabs.length < slot then s
  else if slot = source ∨ slot = source + 1 then s
  else match s.tabs[source]? with
    | some tab =>
        -- without the tab, the slots after it are one further down
        let insertAt := if source < slot then slot - 1 else slot
        { s with tabs := (s.tabs.eraseIdx source).insertIdx insertAt tab }
    | none => s

/-! ## Tabs of other windows -/

def extractTabTransferData (s : TabManager) (tabId : Nat) : Option (TabTransferData × Bool) :=
  match s.findTab tabId with
  | some (.editor tab markdown) => some (tab.transferData, markdown)
  | _ => none

/-- A tab comes in from another window. -/
def handlePendingTabTransfer (s : TabManager) (data : TabTransferData) (markdown : Bool) :
    TabManager :=
  s.allocated.pushActive (.editor (.fromTransfer s.nextTabId data) markdown)

def handlePendingTabRemoval (s : TabManager) (tabId : Nat) : TabManager := s.removeTabById tabId

/-! ## Runs -/

/-- Give an editor tab another state. -/
def changeEditor (s : TabManager) (tabId : Nat) (changed : EditorTab) (markdown : Bool) :
    TabManager :=
  { s with tabs := s.tabs.map fun tab => tab.change tabId changed markdown }

end TabManager

inductive TabAction where
  | newTab (markdown : Bool)
  | openFile (path : PathBuf) (decoded : DecodedContents) (markdown : Bool)
  | openRemoteFile (result : EditorTab.RemoteFileResult) (markdown : Bool)
  | openSharedFile (contents fileName : String) (markdown : Bool)
  | focusExisting (tabId : Nat)
  | duplicateTab (tabId : Nat)
  | openMarkdownPreviewTab
  | openSettings
  | setActiveTab (index : Nat)
  | nextTab
  | previousTab
  | closeTab (tabId : Nat)
  | closeActiveTab
  | closeAllTabs
  | closeTabsToLeft (tabId : Nat)
  | closeTabsToRight (tabId : Nat)
  | closeOtherTabs
  | confirmDialog (index : Nat)
  | cancelDialog (index : Nat)
  | handleTabDrop (tabId slot : Nat)
  | handlePendingTabTransfer (data : TabTransferData) (markdown : Bool)
  | handlePendingTabRemoval (tabId : Nat)
  /-- An edit, a save, a reload, a rename: the editor tab changes, the strip does not. -/
  | changeEditor (tabId : Nat) (changed : EditorTab) (markdown : Bool)
  | changeSettings (dedicatedTab showMarkdownPreview : Bool)
  | render

namespace TabManager

def step (s : TabManager) : TabAction → Option TabManager
  | .newTab markdown => some (s.newTab markdown)
  | .openFile path decoded markdown => some (s.openFile path decoded markdown)
  | .openRemoteFile result markdown => some (s.openRemoteFile result markdown)
  | .openSharedFile contents fileName markdown => some (s.openSharedFile contents fileName markdown)
  | .focusExisting tabId => (s.tabIndexOf tabId).map s.focusExisting
  | .duplicateTab tabId => (s.tabIndexOf tabId).map s.duplicateTab
  | .openMarkdownPreviewTab => some s.openMarkdownPreviewTab
  | .openSettings => some s.openSettings
  | .setActiveTab index => some (s.setActiveTab index)
  | .nextTab => some s.nextTab
  | .previousTab => some s.previousTab
  | .closeTab tabId => some (s.closeTab tabId)
  | .closeActiveTab => some s.closeActiveTab
  | .closeAllTabs => some s.closeAllTabs
  | .closeTabsToLeft tabId => (s.tabIndexOf tabId).map s.closeTabsToLeft
  | .closeTabsToRight tabId => (s.tabIndexOf tabId).map s.closeTabsToRight
  | .closeOtherTabs => some s.closeOtherTabs
  | .confirmDialog index => s.confirmDialog index
  | .cancelDialog index => some { s with dialogs := s.dialogs.eraseIdx index }
  | .handleTabDrop tabId slot => (s.tabIndexOf tabId).map fun source => s.reorderTab source slot
  | .handlePendingTabTransfer data markdown => some (s.handlePendingTabTransfer data markdown)
  | .handlePendingTabRemoval tabId => some (s.handlePendingTabRemoval tabId)
  | .changeEditor tabId changed markdown => some (s.changeEditor tabId changed markdown)
  | .changeSettings dedicatedTab showMarkdownPreview => some
      { s with dedicatedTab := dedicatedTab, showMarkdownPreview := showMarkdownPreview }
  | .render => some s.clearActiveIfEmpty

end TabManager

end Fulgur
