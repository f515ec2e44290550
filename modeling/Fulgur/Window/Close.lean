import Fulgur.Files.LocalSave

/-! # Closing windows and quitting

A window that is closed, or the whole application when it quits, first asks
about each modified local file of that window that is too large to be kept in
the session, then saves the session, then goes. Dialogs are modal: no buffer of
the window is edited while one is open.
-/

namespace Fulgur

/-- What to do once every large-file close warning has been resolved. -/
inductive CloseContinuation where
  | quit
  | closeWindow
deriving DecidableEq

/-- The choice the user made in a single large-file close warning. -/
inductive LargeFileCloseChoice where
  | save
  | discard
  | cancel
deriving DecidableEq

/-- An open dialog; `resolved` are the warnings answered on the way to it. -/
inductive CloseDialog where
  | largeFile (tabId : Nat) (rest : List Nat) (continuation : CloseContinuation)
      (resolved : List Nat)
  | confirmExit (resolved : List Nat)

structure EditorWindow where
  windowId : Nat
  persistentWindowId : Int
  tabs : List EditorTab
  activeTabId : Option Nat
  bounds : SerializedWindowBounds
  persistUnsaved : Bool
  confirmExit : Bool
  saveFailedOnce : Bool
  /-- Innermost dialog first. -/
  dialogs : List CloseDialog

structure Departure where
  window : EditorWindow
  /-- Whether the close or the quit was requested in this window. -/
  requested : Bool
  /-- Whether the session was saved as the window went. -/
  saved : Bool
  rows : List WindowState
  /-- The tabs whose warning was answered by a successful save or by Discard. -/
  resolved : List Nat
  /-- The number of windows left. -/
  remaining : Nat

structure Application where
  windows : List EditorWindow
  disk : Disk
  /-- The session rows of these windows, as last saved. -/
  rows : List WindowState
  departed : List Departure

def EditorTab.isLargeModifiedLocal (tab : EditorTab) : Bool :=
  tab.filePath.isSome && tab.contentTooLargeToPersist && tab.contentDiffersFromOriginal

namespace EditorWindow

def largeModifiedLocalTabs (window : EditorWindow) : List Nat :=
  (window.tabs.filter EditorTab.isLargeModifiedLocal).map (·.id)

def tabStillNeedsCloseWarning (window : EditorWindow) (tabId : Nat) : Bool :=
  (window.tabs.find? fun tab => tab.id = tabId).any EditorTab.isLargeModifiedLocal

def activeEditorIndexForState (window : EditorWindow) : Option Nat :=
  window.activeTabId.bind fun id => window.tabs.findIdx? fun tab => tab.id = id

def buildWindowState (disk : Disk) (window : EditorWindow) : WindowState where
  windowId := window.persistentWindowId
  tabs := buildTabStates window.persistUnsaved disk window.tabs
  activeTabIndex := window.activeEditorIndexForState
  windowBounds := window.bounds

def openDialog (window : EditorWindow) (dialog : CloseDialog) : EditorWindow :=
  { window with dialogs := dialog :: window.dialogs }

def markTabSaved (tabId : Nat) (window : EditorWindow) : EditorWindow :=
  { window with tabs := updateEditorTab window.tabs tabId EditorTab.markAsSaved }

def closeDialog (window : EditorWindow) : EditorWindow :=
  { window with dialogs := window.dialogs.tail }

end EditorWindow

namespace Application

def buildWindowsState (app : Application) : List WindowState :=
  app.windows.map (EditorWindow.buildWindowState app.disk)

def updateWindow (app : Application) (windowId : Nat) (f : EditorWindow → EditorWindow) :
    Application :=
  { app with windows := app.windows.map fun w => if w.windowId = windowId then f w else w }

/-- The other windows, once this one is unregistered. -/
def othersOf (app : Application) (window : EditorWindow) : List EditorWindow :=
  app.windows.filter fun w => w.windowId ≠ window.windowId

/-- One window goes; `saved` tells whether its last save succeeded. -/
def unregister (app : Application) (window : EditorWindow) (saved : Bool) (resolved : List Nat) :
    Application :=
  let rows := if saved then app.buildWindowsState else app.rows
  let departure : Departure :=
    { window := window, requested := true, saved := saved, rows := rows, resolved := resolved,
      remaining := (app.othersOf window).length }
  { app with
    windows := app.othersOf window
    rows := rows
    departed := departure :: app.departed }

def exitProcess (app : Application) (window : EditorWindow) (resolved : List Nat) : Application :=
  let departure (w : EditorWindow) : Departure :=
    { window := w, requested := w.windowId = window.windowId, saved := true,
      rows := app.buildWindowsState
      resolved := if w.windowId = window.windowId then resolved else []
      remaining := 0 }
  { app with
    windows := []
    rows := app.buildWindowsState
    departed := app.windows.map departure ++ app.departed }

/-- Quit, after a confirmation where the setting asks for one; a failed save keeps the session. -/
def quitInner (app : Application) (window : EditorWindow) (resolved : List Nat) (saveOk : Bool) :
    Application :=
  if window.confirmExit then
    app.updateWindow window.windowId fun w => w.openDialog (.confirmExit resolved)
  else if saveOk then app.exitProcess window resolved
  else app

def finishWindowClose (app : Application) (window : EditorWindow) (resolved : List Nat)
    (saveOk : Bool) : Application :=
  if saveOk then app.unregister window true resolved else app

def runCloseContinuation (app : Application) (window : EditorWindow)
    (continuation : CloseContinuation) (resolved : List Nat) (saveOk : Bool) : Application :=
  match continuation with
  | .quit => app.quitInner window resolved saveOk
  | .closeWindow => app.finishWindowClose window resolved saveOk

/-- Warn about the first tab that still needs it, or go on when none does. -/
def driveLargeFileCloseWarnings (app : Application) (window : EditorWindow) (remaining : List Nat)
    (continuation : CloseContinuation) (resolved : List Nat) (saveOk : Bool) : Application :=
  match remaining.dropWhile fun tabId => !window.tabStillNeedsCloseWarning tabId with
  | [] => app.runCloseContinuation window continuation resolved saveOk
  | tabId :: rest =>
      app.updateWindow window.windowId fun w =>
        w.openDialog (.largeFile tabId rest continuation resolved)

def quit (app : Application) (window : EditorWindow) (saveOk : Bool) : Application :=
  if window.largeModifiedLocalTabs = [] then app.quitInner window [] saveOk
  else app.driveLargeFileCloseWarnings window window.largeModifiedLocalTabs .quit [] saveOk

/-- Save and let the window go; after a second failed save it goes unsaved. -/
def saveAndClose (app : Application) (window : EditorWindow) (saveOk : Bool) : Application :=
  if saveOk then app.unregister window true []
  else if window.saveFailedOnce then app.unregister window false []
  else app.updateWindow window.windowId fun w => { w with saveFailedOnce := true }

def onWindowCloseRequested (app : Application) (window : EditorWindow) (saveOk : Bool) :
    Application :=
  if window.largeModifiedLocalTabs ≠ [] then
    let continuation := if app.windows.length = 1 then .quit else .closeWindow
    app.driveLargeFileCloseWarnings window window.largeModifiedLocalTabs continuation [] saveOk
  else if app.windows.length = 1 ∧ window.confirmExit = true then app.quit window saveOk
  else app.saveAndClose window saveOk

/-- Write a local tab at once; `none` when it has no file or its text cannot be written. -/
def saveLocalTabBlocking (encodings : Encodings) (app : Application) (window : EditorWindow)
    (tabId : Nat) (writeOk : Bool) (modified : Option String) : Option Application :=
  match window.tabs.find? fun tab => tab.id = tabId with
  | none => none
  | some tab =>
      match tab.location with
      | .localPath path =>
          if tab.lossyDecode then none
          else match encodeForSave encodings tab.content.toText tab.encoding with
            | .lossy => none
            | .encoded bytes =>
                if writeOk then
                  some ({ app with disk := app.disk.write path bytes modified }.updateWindow
                    window.windowId (EditorWindow.markTabSaved tabId))
                else none
      | _ => none

def findWindow (app : Application) (windowId : Nat) : Option EditorWindow :=
  app.windows.find? fun w => w.windowId = windowId

/-- Go on with the warnings after one was answered. -/
def continueWarnings (app : Application) (windowId : Nat) (rest : List Nat)
    (continuation : CloseContinuation) (resolved : List Nat) (saveOk : Bool) : Application :=
  match app.findWindow windowId with
  | none => app
  | some window => app.driveLargeFileCloseWarnings window rest continuation resolved saveOk

/-- Answer the warning on top: its dialog closes first, whatever the choice. -/
def resolveLargeFileCloseWarning (encodings : Encodings) (app : Application) (window : EditorWindow)
    (choice : LargeFileCloseChoice) (writeOk : Bool) (modified : Option String) (saveOk : Bool) :
    Option Application :=
  match window.dialogs with
  | .largeFile tabId rest continuation resolved :: _ =>
      let closed := app.updateWindow window.windowId EditorWindow.closeDialog
      match choice with
      | .cancel => some closed
      | .discard =>
          some (closed.continueWarnings window.windowId rest continuation
            (tabId :: resolved) saveOk)
      | .save =>
          match closed.saveLocalTabBlocking encodings window.closeDialog tabId writeOk modified with
          | none => some closed
          | some written =>
              some (written.continueWarnings window.windowId rest continuation (tabId :: resolved)
                saveOk)
  | _ => none

/-- Answer the quit confirmation on top; it stays open when the save fails. -/
def answerConfirmExit (app : Application) (window : EditorWindow) (confirmed saveOk : Bool) :
    Option Application :=
  match window.dialogs with
  | .confirmExit resolved :: _ =>
      if confirmed then
        if saveOk then some (app.exitProcess window resolved) else some app
      else some (app.updateWindow window.windowId EditorWindow.closeDialog)
  | _ => none

end Application

inductive CloseAction where
  | edit (windowId tabId : Nat) (content : Rope)
  | openFile (windowId tabId : Nat) (path : PathBuf)
  | newTab (windowId tabId : Nat) (title : String)
  | closeTab (windowId tabId : Nat)
  | openNewWindow (fromWindow : Nat) (window : EditorWindow)
  | requestClose (windowId : Nat) (saveOk : Bool)
  | quit (windowId : Nat) (saveOk : Bool)
  | resolveWarning (windowId : Nat) (choice : LargeFileCloseChoice) (writeOk : Bool)
      (modified : Option String) (saveOk : Bool)
  | answerConfirmExit (windowId : Nat) (confirmed saveOk : Bool)

namespace Application

def addTab (app : Application) (window : EditorWindow) (tab : EditorTab) : Option Application :=
  if window.tabs.all fun old => old.id ≠ tab.id then
    some (app.updateWindow window.windowId fun w => { w with tabs := w.tabs ++ [tab] })
  else none

def openFileFromPath (encodings : Encodings) (app : Application) (window : EditorWindow)
    (tabId : Nat) (path : PathBuf) : Option Application :=
  match (app.disk path).contents with
  | none => none
  | some bytes =>
      if looksBinary bytes then none
      else app.addTab window (Session.openedTab encodings tabId path bytes)

def openNewWindow (app : Application) (window : EditorWindow) : Option Application :=
  if app.windows.all fun w => w.windowId ≠ window.windowId then
    some { app with windows := app.windows ++
      [{ window with tabs := [EditorTab.new 0 UNTITLED], dialogs := [], saveFailedOnce := false }] }
  else none

/-- One step of the application; each is taken in one of its windows. -/
def step (encodings : Encodings) (app : Application) : CloseAction → Option Application
  | .edit windowId tabId content =>
      (app.findWindow windowId).bind fun window =>
        if window.dialogs.isEmpty then
          some (app.updateWindow windowId fun w =>
            { w with tabs := updateEditorTab w.tabs tabId fun tab => tab.edit content })
        else none
  | .openFile windowId tabId path =>
      (app.findWindow windowId).bind fun window => app.openFileFromPath encodings window tabId path
  | .newTab windowId tabId title =>
      (app.findWindow windowId).bind fun window => app.addTab window (EditorTab.new tabId title)
  | .closeTab windowId tabId =>
      (app.findWindow windowId).bind fun _ =>
        some (app.updateWindow windowId fun w =>
          { w with tabs := w.tabs.filter fun tab => tab.id ≠ tabId })
  | .openNewWindow fromWindow window =>
      (app.findWindow fromWindow).bind fun _ => app.openNewWindow window
  | .requestClose windowId saveOk =>
      (app.findWindow windowId).map fun window => app.onWindowCloseRequested window saveOk
  | .quit windowId saveOk => (app.findWindow windowId).map fun window => app.quit window saveOk
  | .resolveWarning windowId choice writeOk modified saveOk =>
      (app.findWindow windowId).bind fun window =>
        app.resolveLargeFileCloseWarning encodings window choice writeOk modified saveOk
  | .answerConfirmExit windowId confirmed saveOk =>
      (app.findWindow windowId).bind fun window => app.answerConfirmExit window confirmed saveOk

end Application

end Fulgur
