import Mathlib.Logic.Function.Basic
import Fulgur.Files.Disk
import Fulgur.LogView.Tail

/-! # The log views of a window

A log view keeps a display next to the buffer of its tab, and for the tail of
the file the offset it has consumed and the text that waits while follow is
off. A poll task asks for the offset, reads in the background and applies what
it read; it looks at its cancel flag only when its timer fires. Opening,
switching, toggling and loading the full file change the same data in between.
-/

namespace Fulgur

/-- Per-tab tail bookkeeping, held centrally and keyed by tab id. -/
structure LogTailState where
  /-- Byte offset in the file up to which content has already been consumed. -/
  byteOffset : Nat
  droppedLines : Bool
  /-- Newly appended text accumulated while follow is paused. -/
  pending : String
deriving DecidableEq

/-- What the log view goes by of an editor tab. -/
structure LogTab where
  filePath : Option PathBuf
  content : String
  logView : Bool
  logFollow : Bool
  logFull : Bool
  logContent : Option String
deriving DecidableEq

/-- Where a poll task is in its loop; a read keeps the offset it was started with. -/
inductive PollStage where
  | sleeping
  | reading (offset : Nat)
  | measured (offset len : Nat)
  | loaded (offset : Nat) (chunk : LogChunk)
  | finished
deriving DecidableEq

/-- A poll task: its own copy of the path, its cancel flag, and its stage. -/
structure LogPoll where
  tabId : Nat
  path : PathBuf
  cancelled : Bool
  stage : PollStage
deriving DecidableEq

/-- A window with its editor tabs, by identifier, and the files they show. -/
structure LogWindow where
  files : PathBuf → LogFile
  tabs : Nat → Option LogTab
  activeTabId : Option Nat
  nextTabId : Nat
  logTailState : Nat → Option LogTailState
  /-- The poll task whose cancel flag is kept for a tab. -/
  logTailCancel : Nat → Option Nat
  polls : List LogPoll

def logToggleAvailable (path : PathBuf) : Bool :=
  match extensionLowercase path with
  | some extension =>
      extension = "log" || extension = "txt" || extension = "out" || extension = "err"
  | none => false

inductive LogAction where
  | append (path : PathBuf) (more : LogFile)
  /-- The buffer of a tab is edited or reloaded. -/
  | setContent (tabId : Nat) (content : String)
  | openFile (path : PathBuf) (content : String) (found : Bool)
  /-- A tab is closed and another, if any, becomes the active one. -/
  | closeTab (tabId : Nat) (next : Option Nat)
  | setActiveTab (tabId : Nat) (found : Bool)
  | toggleLogView (found : Bool)
  | toggleLogFollow
  | loadFullLog (readable : Bool)
  | tick (poll : Nat)
  | measure (poll : Nat) (found : Bool)
  | read (poll : Nat) (readable : Bool)
  | applyChunk (poll : Nat)
deriving DecidableEq

namespace LogWindow

def setTab (s : LogWindow) (tabId : Nat) (tab : LogTab) : LogWindow :=
  { s with tabs := Function.update s.tabs tabId (some tab) }

def updateTail (s : LogWindow) (tabId : Nat) (f : LogTailState → LogTailState) : LogWindow :=
  { s with logTailState := Function.update s.logTailState tabId ((s.logTailState tabId).map f) }

def getActiveEditorTab (s : LogWindow) : Option (Nat × LogTab) :=
  s.activeTabId.bind fun tabId => (s.tabs tabId).map fun tab => (tabId, tab)

/-! ## The poll tasks of a tab -/

def stopLogPollTask (s : LogWindow) (tabId : Nat) : LogWindow :=
  match s.logTailCancel tabId with
  | none => s
  | some poll =>
      { s with
        logTailCancel := Function.update s.logTailCancel tabId none
        polls := s.polls.modify poll fun task => { task with cancelled := true } }

/-- A new task, unless one that was not stopped is noted for the tab. -/
def startLogPollTask (s : LogWindow) (tabId : Nat) (path : PathBuf) : LogWindow :=
  match s.logTailCancel tabId with
  | some _ => s
  | none =>
      { s with
        logTailCancel := Function.update s.logTailCancel tabId (some s.polls.length)
        polls := s.polls ++ [⟨tabId, path, false, .sleeping⟩] }

def logTailOffset (s : LogWindow) (tabId : Nat) : Option Nat :=
  (s.tabs tabId).bind fun tab =>
    if tab.logView then (s.logTailState tabId).map LogTailState.byteOffset else none

/-! ## What is read reaches the display -/

def applyLogTailChunk (s : LogWindow) (tabId : Nat) (chunk : LogChunk) : LogWindow :=
  match s.tabs tabId with
  | none => s
  | some tab =>
      match tab.logContent with
      | none => s
      | some display =>
          let s := s.updateTail tabId fun state => { state with byteOffset := chunk.newOffset }
          if chunk.truncated then
            let (display, dropped) :=
              if tab.logFull then (chunk.text, false) else trimToLastLines chunk.text LOG_LINE_CAP
            (s.updateTail tabId fun state =>
              { state with pending := "", droppedLines := dropped }).setTab tabId
                { tab with logContent := some display }
          else if tab.logFollow = false then
            s.updateTail tabId fun state => { state with pending := state.pending ++ chunk.text }
          else
            let (display, droppedNow) :=
              appendLogToBottom newlineRope display chunk.text tab.logFull
            (s.updateTail tabId fun state =>
              { state with pending := "", droppedLines := state.droppedLines || droppedNow }).setTab
                tabId { tab with logContent := some display }

def flushLogFollow (s : LogWindow) (tabId : Nat) : LogWindow :=
  match s.tabs tabId with
  | none => s
  | some tab =>
      match tab.logContent with
      | none => s
      | some display =>
          let pending := ((s.logTailState tabId).map LogTailState.pending).getD ""
          let (display, droppedNow) := appendLogToBottom newlineRope display pending tab.logFull
          (s.updateTail tabId fun state =>
            { state with pending := "", droppedLines := state.droppedLines || droppedNow }).setTab
              tabId { tab with logContent := some display }

/-! ## Entering, leaving and switching -/

def activateLogView (s : LogWindow) (tabId : Nat) (found : Bool) : LogWindow :=
  match s.tabs tabId with
  | none => s
  | some tab =>
      match tab.filePath with
      | none => s
      | some path =>
          let byteOffset := if found then (s.files path).bytes.length else 0
          let (display, dropped) := trimToLastLines tab.content LOG_LINE_CAP
          let s := s.setTab tabId
            { tab with
              logView := true, logFollow := true, logFull := false
              logContent := some display }
          { s with
            logTailState := Function.update s.logTailState tabId (some ⟨byteOffset, dropped, ""⟩)
          }.startLogPollTask tabId path

def clearLogTail (s : LogWindow) (tabId : Nat) : LogWindow :=
  let s := s.stopLogPollTask tabId
  { s with logTailState := Function.update s.logTailState tabId none }

def deactivateLogView (s : LogWindow) (tabId : Nat) : LogWindow :=
  let s := s.clearLogTail tabId
  match s.tabs tabId with
  | none => s
  | some tab => s.setTab tabId { tab with logView := false, logFull := false, logContent := none }

def resumeLogView (s : LogWindow) (tabId : Nat) (found : Bool) : LogWindow :=
  match s.tabs tabId with
  | none => s
  | some tab =>
      if tab.logContent = none then s.activateLogView tabId found
      else
        match tab.filePath with
        | none => s
        | some path => s.startLogPollTask tabId path

/-- The task of the tab that was active is stopped, unless that tab stays active. -/
def leaveActiveTab (s : LogWindow) (tabId : Nat) : LogWindow :=
  match s.activeTabId with
  | none => s
  | some previous => if previous = tabId then s else s.stopLogPollTask previous

def setActiveTab (s : LogWindow) (tabId : Nat) (found : Bool) : LogWindow :=
  let s := { s.leaveActiveTab tabId with activeTabId := some tabId }
  match s.tabs tabId with
  | none => s
  | some tab => if tab.logView then s.resumeLogView tabId found else s

/-! ## User actions -/

def toggleLogView (s : LogWindow) (found : Bool) : LogWindow :=
  match s.getActiveEditorTab with
  | none => s
  | some (tabId, tab) =>
      if tab.filePath.any logToggleAvailable = false then s
      else if tab.logView then s.deactivateLogView tabId
      else s.activateLogView tabId found

def toggleLogFollow (s : LogWindow) : LogWindow :=
  match s.getActiveEditorTab with
  | none => s
  | some (tabId, tab) =>
      if tab.logView = false then s
      else
        let s := s.setTab tabId { tab with logFollow := !tab.logFollow }
        if tab.logFollow then s else s.flushLogFollow tabId

def loadFullLog (s : LogWindow) (readable : Bool) : LogWindow :=
  match s.getActiveEditorTab with
  | none => s
  | some (tabId, tab) =>
      match tab.filePath, tab.logContent with
      | some path, some _ =>
          if tab.logView = false ∨ readable = false then s
          else
            let bytes := (s.files path).bytes
            (s.updateTail tabId fun _ => ⟨bytes.length, false, ""⟩).setTab tabId
              { tab with
                logContent := some (fromUtf8Lossy bytes), logFull := true, logFollow := true }
      | _, _ => s

def openFile (s : LogWindow) (path : PathBuf) (content : String) (found : Bool) : LogWindow :=
  let tabId := s.nextTabId
  let s := { s.setTab tabId ⟨some path, content, false, true, false, none⟩ with
    activeTabId := some tabId
    nextTabId := tabId + 1 }
  if opensAsLogByDefault path then s.activateLogView tabId found else s

def closeTab (s : LogWindow) (tabId : Nat) (next : Option Nat) : LogWindow :=
  { s.clearLogTail tabId with tabs := Function.update s.tabs tabId none, activeTabId := next }

/-! ## The steps of a poll task -/

def setStage (s : LogWindow) (poll : Nat) (stage : PollStage) : LogWindow :=
  { s with polls := s.polls.modify poll fun task => { task with stage := stage } }

/-- The timer has fired: a task that was not stopped asks for the offset. -/
def tick (s : LogWindow) (poll : Nat) : Option LogWindow :=
  match s.polls[poll]? with
  | some ⟨tabId, _, cancelled, .sleeping⟩ =>
      if cancelled then some (s.setStage poll .finished)
      else match s.logTailOffset tabId with
        | none => some (s.setStage poll .finished)
        | some offset => some (s.setStage poll (.reading offset))
  | _ => none

def measure (s : LogWindow) (poll : Nat) (found : Bool) : Option LogWindow :=
  match s.polls[poll]? with
  | some ⟨_, path, _, .reading offset⟩ =>
      if found then some (s.setStage poll (.measured offset (s.files path).bytes.length))
      else some (s.setStage poll .sleeping)
  | _ => none

/-- The file is read; a read that fails or finds nothing new is not applied. -/
def read (s : LogWindow) (poll : Nat) (readable : Bool) : Option LogWindow :=
  match s.polls[poll]? with
  | some ⟨_, path, _, .measured offset len⟩ =>
      let chunk := readNewLogBytes len (s.files path).bytes offset
      if readable = false ∨ (chunk.text = "" ∧ chunk.truncated = false) then
        some (s.setStage poll .sleeping)
      else some (s.setStage poll (.loaded offset chunk))
  | _ => none

/-- The chunk is applied; the flag and the offset are not looked at again. -/
def applyChunk (s : LogWindow) (poll : Nat) : Option LogWindow :=
  match s.polls[poll]? with
  | some ⟨tabId, _, _, .loaded _ chunk⟩ =>
      some ((s.applyLogTailChunk tabId chunk).setStage poll .sleeping)
  | _ => none

def step (s : LogWindow) : LogAction → Option LogWindow
  | .append path more =>
      some { s with files := Function.update s.files path ((s.files path).append more) }
  | .setContent tabId content =>
      (s.tabs tabId).map fun tab => s.setTab tabId { tab with content := content }
  | .openFile path content found => some (s.openFile path content found)
  | .closeTab tabId next => some (s.closeTab tabId next)
  | .setActiveTab tabId found => some (s.setActiveTab tabId found)
  | .toggleLogView found => some (s.toggleLogView found)
  | .toggleLogFollow => some s.toggleLogFollow
  | .loadFullLog readable => some (s.loadFullLog readable)
  | .tick poll => s.tick poll
  | .measure poll found => s.measure poll found
  | .read poll readable => s.read poll readable
  | .applyChunk poll => s.applyChunk poll

end LogWindow

end Fulgur
