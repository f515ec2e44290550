import Fulgur.Files.LocalSave

/-! # Watching files

The watcher reports what happens to the files of open tabs. A changed file is
read again when its tab is clean, and the user is asked when it is not; a file
that is gone marks its tab. A reload reads on a background thread and is applied
on the UI thread, to whichever tab has the path by then.

Next to the program's own state the model notes, for each path, what the
application last wrote to it or took from it, and whether the path was reported
deleted after that.
-/

namespace Fulgur

inductive FileWatchEvent where
  | modified (path : PathBuf)
  | deleted (path : PathBuf)
  | renamed (source target : PathBuf)
  | error (msg : String)
deriving DecidableEq

/-- A reload of a path, with when its read ran and what it found. -/
structure Reload where
  path : PathBuf
  readResult : Option (Nat × List UInt8)
deriving DecidableEq

/-- A session whose files are watched. -/
structure WatchedSession where
  session : Session
  activeTabId : Option Nat
  pendingConflicts : List PathBuf
  openConflictDialogs : List (PathBuf × Nat)
  reloads : List Reload
  clock : Nat
  /-- The bytes last written to a path or taken from it, and when that was. -/
  lastIo : PathBuf → Option (Nat × List UInt8)
  /-- When a path was reported deleted, unless it was written or read since. -/
  deletedAt : PathBuf → Option Nat

def Disk.replace (disk : Disk) (path : PathBuf) (file : FileView) : Disk :=
  fun other => if other = path then file else disk other

def findTabByPath (tabs : List EditorTab) (path : PathBuf) : Option EditorTab :=
  tabs.find? fun tab => tab.filePath = some path

/-- Put freshly decoded file contents into a tab, as its buffer and its baseline. -/
def EditorTab.applyReload (tab : EditorTab) (decoded : DecodedContents) : EditorTab :=
  let reloaded :=
    { tab with content := .ofText decoded.content }.setOriginalContentFromStr decoded.content
  { reloaded with
    encoding := decoded.encoding
    lossyDecode := decoded.lossy
    modified := false }

def sessionIo (parse : String → Option Int) (s : Session) :
    SessionAction → Option (PathBuf × List UInt8)
  | .openFile _ path => (s.disk path).contents.map fun bytes => (path, bytes)
  | .restoreTab state =>
      match restoreDecision parse s.disk state with
      | .loadFromFile path => (s.disk path).contents.map fun bytes => (path, bytes)
      | _ => none
  | .write tabId true _ =>
      (s.inflightSaves tabId).map fun save => (save.completion.path, save.bytes)
  | _ => none

namespace WatchedSession

/-- A watched session that has opened nothing yet. -/
def launched (disk : Disk) (persisted : List TabState) : WatchedSession where
  session := Session.launched disk persisted
  activeTabId := none
  pendingConflicts := []
  openConflictDialogs := []
  reloads := []
  clock := 0
  lastIo := fun _ => none
  deletedAt := fun _ => none

/-! ## What is known about a path -/

/-- Note that a path was written or read just now. -/
def recordIo (w : WatchedSession) (path : PathBuf) (bytes : List UInt8) : WatchedSession :=
  { w with
    clock := w.clock + 1
    lastIo := Function.update w.lastIo path (some (w.clock, bytes))
    deletedAt := Function.update w.deletedAt path none }

/-- Of two notes about one path, the one that is about the later moment. -/
def newerIo (known : Option (Nat × List UInt8)) (io : Nat × List UInt8) : Nat × List UInt8 :=
  match known with
  | none => io
  | some last => if io.1 < last.1 then last else io

/-- Note that a read which ran earlier was taken over by the application. -/
def recordRead (w : WatchedSession) (path : PathBuf) (io : Nat × List UInt8) : WatchedSession :=
  { w with
    lastIo := Function.update w.lastIo path (some (newerIo (w.lastIo path) io))
    deletedAt :=
      Function.update w.deletedAt path ((w.deletedAt path).filter fun at_ => io.1 < at_) }

/-- Note that the user was told a path is gone. -/
def reportDeleted (w : WatchedSession) (path : PathBuf) : WatchedSession :=
  { w with clock := w.clock + 1, deletedAt := Function.update w.deletedAt path (some w.clock) }

/-! ## Reloading -/

/-- Start to read a path again, in the background. -/
def reloadTabFromDisk (w : WatchedSession) (path : PathBuf) : WatchedSession :=
  { w with reloads := w.reloads ++ [⟨path, none⟩] }

/-- Run the background read of a reload; one that fails ends the reload. -/
def runRead (w : WatchedSession) (index : Nat) : Option WatchedSession :=
  match w.reloads[index]? with
  | some ⟨path, none⟩ =>
      match (w.session.disk path).contents with
      | none => some { w with reloads := w.reloads.eraseIdx index }
      | some bytes => some { w with
          reloads := w.reloads.set index ⟨path, some (w.clock, bytes)⟩
          clock := w.clock + 1 }
  | _ => none

def applyReloadedContents (encodings : Encodings) (w : WatchedSession) (path : PathBuf)
    (io : Nat × List UInt8) : WatchedSession :=
  match findTabByPath w.session.tabs path with
  | none => w
  | some tab =>
      let decoded := detectEncodingAndDecode encodings io.2
      { w.recordRead path io with
        session.tabs :=
          updateEditorTab w.session.tabs tab.id fun tab => tab.applyReload decoded }

/-- The outcome of a read reaches the UI thread. -/
def finishReload (encodings : Encodings) (w : WatchedSession) (index : Nat) :
    Option WatchedSession :=
  match w.reloads[index]? with
  | some ⟨path, some io⟩ =>
      some ({ w with reloads := w.reloads.eraseIdx index }.applyReloadedContents encodings path io)
  | _ => none

def reloadWatchedTabById (w : WatchedSession) (tabId : Nat) (path : PathBuf) : WatchedSession :=
  if w.session.tabs.any fun tab => tab.id = tabId ∧ tab.filePath = some path then
    w.reloadTabFromDisk path
  else w

/-! ## Watch events -/

/--
Whether an event is an echo of a save or a duplicate. Whether it is recent
depends on the time; a save in flight to the path always swallows the event.
-/
def shouldSuppressFileWatchEvent (w : WatchedSession) (path : PathBuf) (recent : Bool) : Bool :=
  recent || w.session.tabs.any fun tab =>
    (w.session.inflightSaves tab.id).any fun save => save.completion.path = path

/-- Ask the user about a changed file, unless a dialog for it is open. -/
def showFileConflictDialog (w : WatchedSession) (path : PathBuf) (tabId : Nat) : WatchedSession :=
  if w.openConflictDialogs.any fun dialog => dialog.1 = path then w
  else { w with openConflictDialogs := w.openConflictDialogs ++ [(path, tabId)] }

def forgetPendingConflict (w : WatchedSession) (path : PathBuf) : WatchedSession :=
  { w with pendingConflicts := w.pendingConflicts.filter fun other => other ≠ path }

def applyExternalModification (w : WatchedSession) (path : PathBuf) : WatchedSession :=
  match findTabByPath w.session.tabs path with
  | none => w
  | some tab =>
      if tab.modified then
        if w.activeTabId = some tab.id then w.showFileConflictDialog path tab.id
        else { w with pendingConflicts := w.pendingConflicts.insert path }
      else w.reloadTabFromDisk path

def markTabDeletedExternally (w : WatchedSession) (path : PathBuf) : WatchedSession :=
  match findTabByPath w.session.tabs path with
  | none => w.forgetPendingConflict path
  | some tab =>
      { w.forgetPendingConflict path with
        session.tabs :=
          updateEditorTab w.session.tabs tab.id fun tab => { tab with modified := true } }

/-- The tab of a renamed file goes on at its new path; the old one is no longer watched. -/
def moveRenamedTab (w : WatchedSession) (source target : PathBuf) : WatchedSession :=
  match findTabByPath w.session.tabs source with
  | none => w
  | some tab =>
      { w.forgetPendingConflict source with
        session.tabs := updateEditorTab w.session.tabs tab.id fun tab => tab.moveTo target }

def handleFileWatchEvent (w : WatchedSession) (event : FileWatchEvent) (recent : Bool) :
    WatchedSession :=
  match event with
  | .modified path =>
      if w.shouldSuppressFileWatchEvent path recent then w else w.applyExternalModification path
  | .deleted path =>
      if w.shouldSuppressFileWatchEvent path recent then w
      else if (w.session.disk path).isPresent then
        -- an atomic save of another program: the watch is renewed, which forgets its conflict
        (w.forgetPendingConflict path).applyExternalModification path
      else (w.markTabDeletedExternally path).reportDeleted path
  | .renamed source target =>
      if w.shouldSuppressFileWatchEvent source recent then w else w.moveRenamedTab source target
  | .error _ => w

/-- Ask about the conflict that waited for a tab to become active. -/
def showPendingConflict (w : WatchedSession) (tabId : Nat) : WatchedSession :=
  match (w.session.tabs.find? fun tab => tab.id = tabId).bind EditorTab.filePath with
  | none => w
  | some path =>
      if path ∈ w.pendingConflicts then
        (w.forgetPendingConflict path).showFileConflictDialog path tabId
      else w

def setActiveTab (w : WatchedSession) (tabId : Nat) : WatchedSession :=
  { w with activeTabId := some tabId }.showPendingConflict tabId

def answerConflict (w : WatchedSession) (path : PathBuf) (load : Bool) : Option WatchedSession :=
  match w.openConflictDialogs.find? fun dialog => dialog.1 = path with
  | none => none
  | some dialog =>
      let closed := { w with
        openConflictDialogs := w.openConflictDialogs.filter fun dialog => dialog.1 ≠ path }
      some (if load then closed.reloadWatchedTabById dialog.2 path else closed)

def renewWatch (w : WatchedSession) : SessionAction → WatchedSession
  | .complete tabId =>
      match w.session.inflightSaves tabId with
      | none => w
      | some save =>
          if save.writeResult = some true then w.forgetPendingConflict save.completion.path else w
  | _ => w

/-- The state after a step of the session. -/
def afterSession (parse : String → Option Int) (w : WatchedSession) (action : SessionAction)
    (s : Session) : WatchedSession :=
  let stepped := { w.renewWatch action with session := s }
  match sessionIo parse w.session action with
  | none => stepped
  | some (path, bytes) => stepped.recordIo path bytes

end WatchedSession

inductive WatchAction where
  | session (action : SessionAction)
  /-- Another program changes or deletes a file. -/
  | external (path : PathBuf) (file : FileView)
  | event (event : FileWatchEvent) (recent : Bool)
  | setActiveTab (tabId : Nat)
  | answerConflict (path : PathBuf) (load : Bool)
  /-- The dialog of a file that was opened again is answered with the disk. -/
  | reloadReopened (tabId : Nat) (path : PathBuf)
  | readReload (index : Nat)
  | finishReload (index : Nat)

namespace WatchedSession

/-- One step; what the UI thread does takes place while the session runs. -/
def step (encodings : Encodings) (parse : String → Option Int) (w : WatchedSession)
    (action : WatchAction) : Option WatchedSession :=
  match action with
  | .session action =>
      (w.session.step encodings parse action).map fun s => w.afterSession parse action s
  | .external path file => some { w with session.disk := w.session.disk.replace path file }
  | .readReload index => if w.session.phase = .exited then none else w.runRead index
  | action =>
      if w.session.phase = .running then
        match action with
        | .event event recent => some (w.handleFileWatchEvent event recent)
        | .setActiveTab tabId => some (w.setActiveTab tabId)
        | .answerConflict path load => w.answerConflict path load
        | .reloadReopened tabId path => some (w.reloadWatchedTabById tabId path)
        | .finishReload index => w.finishReload encodings index
        | _ => none
      else none

/-! ## What is known of a path after a step -/

variable {parse : String → Option Int} {w : WatchedSession}

theorem renewWatch_eq (action : SessionAction) :
    ∃ pending, w.renewWatch action = { w with pendingConflicts := pending } := by
  unfold renewWatch
  split
  · split
    · exact ⟨_, rfl⟩
    · split
      · exact ⟨_, rfl⟩
      · exact ⟨_, rfl⟩
  · exact ⟨_, rfl⟩

@[simp] theorem afterSession_session (action : SessionAction) (s : Session) :
    (w.afterSession parse action s).session = s := by
  unfold afterSession
  cases sessionIo parse w.session action <;> rfl

theorem afterSession_of_none {action : SessionAction} (s : Session)
    (h : sessionIo parse w.session action = none) :
    (w.afterSession parse action s).lastIo = w.lastIo ∧
      (w.afterSession parse action s).deletedAt = w.deletedAt := by
  rcases w.renewWatch_eq action with ⟨pending, hrenew⟩
  simp [afterSession, h, hrenew]

theorem afterSession_of_some {action : SessionAction} (s : Session) {path : PathBuf}
    {bytes : List UInt8} (h : sessionIo parse w.session action = some (path, bytes)) :
    (w.afterSession parse action s).lastIo =
        Function.update w.lastIo path (some (w.clock, bytes)) ∧
      (w.afterSession parse action s).deletedAt = Function.update w.deletedAt path none := by
  rcases w.renewWatch_eq action with ⟨pending, hrenew⟩
  simp [afterSession, h, hrenew, recordIo]

end WatchedSession

end Fulgur
