import Fulgur.Library.Keyed
import Fulgur.Library.Run
import Fulgur.Tabs.ActiveTab
import Fulgur.Window.Close
import Mathlib.Data.List.Perm.Basic
import Mathlib.Data.List.Sort

/-! # The registry of windows

A window registers with the window manager while it is being opened, and is taken
off its lists by what closes it. The manager counts what is registered to tell
whether a window that closes is the last one; the windows that are really open
are kept beside it here.
-/

namespace Fulgur

open LabelledRun Keyed

/-- What the system menus show of a tab. -/
structure WindowMenuTab where
  path : Option PathBuf
  title : String
deriving DecidableEq

def Tab.title : Tab → String
  | .editor tab _ => tab.title
  | .settings tab => tab.title
  | .markdownPreview tab => tab.title

def Tab.isEditor (tabId : Nat) (tab : Tab) : Bool :=
  tab.asEditor.any fun editor => editor.id = tabId

def Tab.menuTab (tab : Tab) : WindowMenuTab :=
  ⟨tab.asEditor.bind EditorTab.filePath, tab.title⟩

/-- The letters of a window, counted like the columns of a spreadsheet. -/
def indexToName (index : Nat) : String :=
  let letter := String.singleton (Char.ofNat ('A'.toNat + index % 26))
  if index < 26 then letter else indexToName (index / 26 - 1) ++ letter
termination_by index
decreasing_by omega

/-- The manager; its hash maps are lists of their keys, or of keys and values. -/
structure WindowManager where
  windows : List Nat
  lastFocused : Option Nat
  windowNames : List (Nat × String)
  nextNameIndex : Nat
  windowMenuTabs : List (Nat × List WindowMenuTab)

namespace WindowManager

def empty : WindowManager where
  windows := []
  lastFocused := none
  windowNames := []
  nextNameIndex := 0
  windowMenuTabs := []

def register (m : WindowManager) (windowId : Nat) : WindowManager :=
  { m with
    windows := windowId :: m.windows.filter (· ≠ windowId)
    lastFocused := some windowId
    windowNames :=
      (windowId, indexToName m.nextNameIndex) :: dropKey Prod.fst windowId m.windowNames
    nextNameIndex := m.nextNameIndex + 1 }

/-- `first` tells which of the keys that are left the map lists first. -/
def unregister (m : WindowManager) (windowId first : Nat) : WindowManager :=
  let windows := m.windows.filter (· ≠ windowId)
  { m with
    windows := windows
    windowNames := dropKey Prod.fst windowId m.windowNames
    windowMenuTabs := dropKey Prod.fst windowId m.windowMenuTabs
    lastFocused :=
      if m.lastFocused = some windowId then windows[first % windows.length]? else m.lastFocused }

def setFocused (m : WindowManager) (windowId : Nat) : WindowManager :=
  if windowId ∈ m.windows then { m with lastFocused := some windowId } else m

def windowCount (m : WindowManager) : Nat := m.windows.length

def getWindowName (m : WindowManager) (windowId : Nat) : Option String :=
  if m.windows.length ≤ 1 then none else m.windowNames.lookup windowId

/-- Also tells whether the snapshot is stored. -/
def publishWindowMenuTabs (m : WindowManager) (windowId : Nat) (tabs : List WindowMenuTab) :
    WindowManager × Bool :=
  if windowId ∉ m.windows then (m, false)
  else if m.windowMenuTabs.lookup windowId = some tabs then (m, false)
  else ({ m with
    windowMenuTabs := (windowId, tabs) :: dropKey Prod.fst windowId m.windowMenuTabs }, true)

def nameLe (a b : String × Nat) : Prop :=
  a.1.length < b.1.length ∨ a.1.length = b.1.length ∧ a.1 ≤ b.1

instance : DecidableRel nameLe := fun _ _ => inferInstanceAs (Decidable (_ ∨ _ ∧ _))

def orderedWindowMenuTabs (m : WindowManager) : List (List WindowMenuTab) :=
  let namedIds := m.windowNames.map fun (windowId, name) => (name, windowId)
  (namedIds.insertionSort nameLe).filterMap fun (_, windowId) => m.windowMenuTabs.lookup windowId

end WindowManager

/-- An open dialog of the window. -/
inductive WindowDialog where
  | largeFile (tabId : Nat) (rest : List Nat) (continuation : CloseContinuation)
  | confirmExit
deriving DecidableEq

structure FulgurWindow where
  windowId : Nat
  tabs : TabManager
  pendingTabTransfer : Option (TabTransferData × Bool)
  pendingTabRemoval : Option Nat
  confirmExit : Bool
  saveFailedOnce : Bool
  /-- Innermost dialog first. -/
  dialogs : List WindowDialog

structure WindowSystem where
  manager : WindowManager
  windows : List FulgurWindow
  /-- No window has had this identifier or a later one. -/
  nextWindowId : Nat
  /-- The windows that were asked for, by the tab that each is to receive. -/
  opening : List (Option (TabTransferData × Bool))
  /-- Whether the menus of the system list the tabs. -/
  hasSystemMenus : Bool
  hasQuit : Bool

inductive WindowAction where
  /-- At the start: a first window, or one of the last session. -/
  | createWindow (tabs : TabManager) (confirmExit : Bool)
  | openNewWindow (windowId : Nat)
  | sendToNewWindow (windowId tabId : Nat)
  | sendToWindow (source tabId target : Nat)
  /-- A window that was asked for is there, or its creation failed. -/
  | opened (index : Nat) (tabs : TabManager) (confirmExit succeeds : Bool)
  /-- The user works on the tabs and the settings. -/
  | work (windowId : Nat) (tabs : TabManager) (confirmExit : Bool)
  | render (windowId : Nat) (isActive : Bool)
  | requestClose (windowId : Nat) (saveOk : Bool) (first : Nat)
  | quit (windowId : Nat) (saveOk : Bool) (first : Nat)
  | resolveWarning (windowId : Nat) (choice : LargeFileCloseChoice) (writeOk saveOk : Bool)
      (first : Nat)
  | answerConfirmExit (windowId : Nat) (confirmed saveOk : Bool)

namespace FulgurWindow

def create (windowId : Nat) (tabs : TabManager) (confirmExit : Bool)
    (incoming : Option (TabTransferData × Bool)) : FulgurWindow where
  windowId := windowId
  tabs := tabs
  pendingTabTransfer := incoming
  pendingTabRemoval := none
  confirmExit := confirmExit
  saveFailedOnce := false
  dialogs := []

def menuTabs (w : FulgurWindow) : List WindowMenuTab := w.tabs.tabs.map Tab.menuTab

/-- The large, modified local files: their changes cannot be kept in the session. -/
def largeModifiedLocalTabs (w : FulgurWindow) : List Nat :=
  ((w.tabs.tabs.filterMap Tab.asEditor).filter EditorTab.isLargeModifiedLocal).map (·.id)

def tabStillNeedsCloseWarning (w : FulgurWindow) (tabId : Nat) : Bool :=
  ((w.tabs.findTab tabId).bind Tab.asEditor).any EditorTab.isLargeModifiedLocal

def handlePendingTabTransfer (w : FulgurWindow) : FulgurWindow :=
  match w.pendingTabTransfer with
  | none => w
  | some (data, markdown) => { w with
      tabs := w.tabs.handlePendingTabTransfer data markdown
      pendingTabTransfer := none }

/-- The tab that was sent away is removed; `none` when the window goes with its last tab. -/
def handlePendingTabRemoval (w : FulgurWindow) : Option FulgurWindow :=
  match w.pendingTabRemoval with
  | none => some w
  | some tabId =>
      let tabs := w.tabs.handlePendingTabRemoval tabId
      if tabs.tabs.isEmpty then none
      else some { w with tabs := tabs, pendingTabRemoval := none }

/-- The frame takes in the tab that was sent here before it removes the one that was sent away. -/
def received (w : FulgurWindow) : FulgurWindow :=
  { w with tabs := w.tabs.clearActiveIfEmpty }.handlePendingTabTransfer

def openDialog (w : FulgurWindow) (dialog : WindowDialog) : FulgurWindow :=
  { w with dialogs := dialog :: w.dialogs }

/-- The window with a warning about a tab that it goes to. -/
def showLargeFileCloseDialog (w : FulgurWindow) (tabId : Nat) (rest : List Nat)
    (continuation : CloseContinuation) : FulgurWindow :=
  let tabs := match w.tabs.tabIndexOf tabId with
    | some index => w.tabs.setActiveTab index
    | none => w.tabs
  { w with tabs := tabs }.openDialog (.largeFile tabId rest continuation)

/-- The tab is written to its file; `none` when it has none or the write fails. -/
def saveLocalTabBlocking (w : FulgurWindow) (tabId : Nat) (writeOk : Bool) :
    Option FulgurWindow :=
  match w.tabs.findTab tabId with
  | some (.editor tab markdown) =>
      if tab.filePath.isSome && writeOk then
        some { w with tabs := w.tabs.changeEditor tabId tab.markAsSaved markdown }
      else none
  | _ => none

end FulgurWindow

namespace WindowSystem

def start (hasSystemMenus : Bool) : WindowSystem where
  manager := .empty
  windows := []
  nextWindowId := 0
  opening := []
  hasSystemMenus := hasSystemMenus
  hasQuit := false

def find (s : WindowSystem) (windowId : Nat) : Option FulgurWindow :=
  s.windows.find? fun w => w.windowId = windowId

def update (s : WindowSystem) (windowId : Nat) (f : FulgurWindow → FulgurWindow) : WindowSystem :=
  { s with windows := updateKey FulgurWindow.windowId windowId f s.windows }

/-- The window is gone, whether or not the manager knows. -/
def removeWindow (s : WindowSystem) (windowId : Nat) : WindowSystem :=
  { s with windows := dropKey FulgurWindow.windowId windowId s.windows }

def openWindow (s : WindowSystem) (tabs : TabManager) (confirmExit : Bool)
    (incoming : Option (TabTransferData × Bool)) : WindowSystem :=
  { s with
    manager := s.manager.register s.nextWindowId
    windows := s.windows ++ [.create s.nextWindowId tabs confirmExit incoming]
    nextWindowId := s.nextWindowId + 1 }

/-- The closing window is taken off the manager's lists and goes. -/
def unregister (s : WindowSystem) (windowId first : Nat) : WindowSystem :=
  { s.removeWindow windowId with manager := s.manager.unregister windowId first }

def exitProcess (s : WindowSystem) : WindowSystem := { s with hasQuit := true }

def quitInner (s : WindowSystem) (w : FulgurWindow) (saveOk : Bool) : WindowSystem :=
  if w.confirmExit then s.update w.windowId fun w => w.openDialog .confirmExit
  else if saveOk then s.exitProcess
  else s

def finishWindowClose (s : WindowSystem) (w : FulgurWindow) (saveOk : Bool) (first : Nat) :
    WindowSystem :=
  if saveOk then s.unregister w.windowId first else s

def runCloseContinuation (s : WindowSystem) (w : FulgurWindow) (continuation : CloseContinuation)
    (saveOk : Bool) (first : Nat) : WindowSystem :=
  match continuation with
  | .quit => s.quitInner w saveOk
  | .closeWindow => s.finishWindowClose w saveOk first

def driveLargeFileCloseWarnings (s : WindowSystem) (w : FulgurWindow) (remaining : List Nat)
    (continuation : CloseContinuation) (saveOk : Bool) (first : Nat) : WindowSystem :=
  match remaining.dropWhile fun tabId => !w.tabStillNeedsCloseWarning tabId with
  | [] => s.runCloseContinuation w continuation saveOk first
  | tabId :: rest =>
      s.update w.windowId fun w => w.showLargeFileCloseDialog tabId rest continuation

def quit (s : WindowSystem) (w : FulgurWindow) (saveOk : Bool) (first : Nat) : WindowSystem :=
  if w.largeModifiedLocalTabs = [] then s.quitInner w saveOk
  else s.driveLargeFileCloseWarnings w w.largeModifiedLocalTabs .quit saveOk first

/-- Save and go; after a second failed save the window goes unsaved. -/
def saveAndClose (s : WindowSystem) (w : FulgurWindow) (saveOk : Bool) (first : Nat) :
    WindowSystem :=
  if saveOk || w.saveFailedOnce then s.unregister w.windowId first
  else s.update w.windowId fun w => { w with saveFailedOnce := true }

def onWindowCloseRequested (s : WindowSystem) (w : FulgurWindow) (saveOk : Bool) (first : Nat) :
    WindowSystem :=
  if w.largeModifiedLocalTabs ≠ [] then
    let continuation := if s.manager.windowCount = 1 then .quit else .closeWindow
    s.driveLargeFileCloseWarnings w w.largeModifiedLocalTabs continuation saveOk first
  else if s.manager.windowCount = 1 ∧ w.confirmExit = true then s.quit w saveOk first
  else s.saveAndClose w saveOk first

/-- Answer the warning on top: its dialog closes first, whatever the choice. -/
def resolveLargeFileCloseWarning (s : WindowSystem) (w : FulgurWindow)
    (choice : LargeFileCloseChoice) (writeOk saveOk : Bool) (first : Nat) : Option WindowSystem :=
  match w.dialogs with
  | .largeFile tabId rest continuation :: dialogs =>
      let closed := { w with dialogs := dialogs }
      let s := s.update w.windowId fun _ => closed
      match choice with
      | .cancel => some s
      | .discard => some (s.driveLargeFileCloseWarnings closed rest continuation saveOk first)
      | .save =>
          match closed.saveLocalTabBlocking tabId writeOk with
          | none => some s
          | some written => some ((s.update w.windowId fun _ => written).driveLargeFileCloseWarnings
              written rest continuation saveOk first)
  | _ => none

/-- Answer the quit confirmation on top; it stays open when the save fails. -/
def answerConfirmExit (s : WindowSystem) (w : FulgurWindow) (confirmed saveOk : Bool) :
    Option WindowSystem :=
  match w.dialogs with
  | .confirmExit :: dialogs =>
      if confirmed then some (if saveOk then s.exitProcess else s)
      else some (s.update w.windowId fun w => { w with dialogs := dialogs })
  | _ => none

/-- The focus is noted only when it changed. -/
def processFocus (s : WindowSystem) (windowId : Nat) (isActive : Bool) : WindowSystem :=
  if isActive ∧ s.manager.lastFocused ≠ some windowId then
    { s with manager := s.manager.setFocused windowId }
  else s

def publishWindowMenuTabsIfChanged (s : WindowSystem) (w : FulgurWindow) : WindowSystem :=
  if s.hasSystemMenus then
    { s with manager := (s.manager.publishWindowMenuTabs w.windowId w.menuTabs).1 }
  else s

/-- A window that loses its last tab goes by itself. -/
def render (s : WindowSystem) (w : FulgurWindow) (isActive : Bool) : WindowSystem :=
  let updated := (s.processFocus w.windowId isActive).publishWindowMenuTabsIfChanged w
  match w.received.handlePendingTabRemoval with
  | some rendered => updated.update w.windowId fun _ => rendered
  | none => updated.removeWindow w.windowId

def sendToWindow (s : WindowSystem) (src : FulgurWindow) (tabId target : Nat) :
    Option WindowSystem :=
  (src.tabs.extractTabTransferData tabId).map fun sent =>
    (s.update target fun w => { w with pendingTabTransfer := some sent }).update src.windowId
      fun w => { w with pendingTabRemoval := some tabId }

def sendToNewWindow (s : WindowSystem) (src : FulgurWindow) (tabId : Nat) : Option WindowSystem :=
  (src.tabs.extractTabTransferData tabId).map fun sent =>
    { s.update src.windowId fun w => { w with pendingTabRemoval := some tabId } with
      opening := s.opening ++ [some sent] }

def step (s : WindowSystem) (action : WindowAction) : Option WindowSystem :=
  if s.hasQuit then none
  else match action with
    | .createWindow tabs confirmExit => some (s.openWindow tabs confirmExit none)
    | .openNewWindow windowId =>
        (s.find windowId).map fun _ => { s with opening := s.opening ++ [none] }
    | .sendToNewWindow windowId tabId => (s.find windowId).bind fun w => s.sendToNewWindow w tabId
    | .sendToWindow source tabId target =>
        if source = target then none
        else (s.find source).bind fun src => (s.find target).bind fun _ =>
          s.sendToWindow src tabId target
    | .opened index tabs confirmExit succeeds =>
        s.opening[index]?.map fun incoming =>
          let waited := { s with opening := s.opening.eraseIdx index }
          if succeeds then waited.openWindow tabs confirmExit incoming else waited
    | .work windowId tabs confirmExit =>
        (s.find windowId).map fun _ =>
          s.update windowId fun w => { w with tabs := tabs, confirmExit := confirmExit }
    | .render windowId isActive => (s.find windowId).map fun w => s.render w isActive
    | .requestClose windowId saveOk first =>
        (s.find windowId).map fun w => s.onWindowCloseRequested w saveOk first
    | .quit windowId saveOk first => (s.find windowId).map fun w => s.quit w saveOk first
    | .resolveWarning windowId choice writeOk saveOk first =>
        (s.find windowId).bind fun w =>
          s.resolveLargeFileCloseWarning w choice writeOk saveOk first
    | .answerConfirmExit windowId confirmed saveOk =>
        (s.find windowId).bind fun w => s.answerConfirmExit w confirmed saveOk

end WindowSystem

end Fulgur
