import Fulgur.Window.Close

/-! # Saves of a window and their writes

Save and "Save as" write in the background and leave a note in a map of saves in
flight until they complete on the UI thread; the save of a close warning writes
while the UI thread waits. Every save is kept here from its request on, so that
what the writes leave on disk can be compared with what was asked for.
-/

namespace Fulgur

/-- The file that a path names, symbolic links followed. -/
structure Links where
  canonicalize : PathBuf → PathBuf
  canonicalize_idem : ∀ path, canonicalize (canonicalize path) = canonicalize path

/-- How far an atomic write has come. -/
inductive WriteStage where
  | queued
  | running
  /-- The new contents are in place, the directory is not synced yet. -/
  | renamed
  | over (succeeded : Bool)
deriving DecidableEq

inductive SaveKind where
  | save
  | saveAs (encoding : String)
  /-- Of a close warning. -/
  | blocking
deriving DecidableEq

structure RequestedSave where
  kind : SaveKind
  completion : SaveCompletion
  bytes : List UInt8
  stage : WriteStage
  completed : Bool
deriving DecidableEq

namespace RequestedSave

def tabId (save : RequestedSave) : Nat := save.completion.tabId

def file (links : Links) (save : RequestedSave) : PathBuf :=
  links.canonicalize save.completion.path

/-- The write has returned, with an error or without. -/
def returned (save : RequestedSave) : Bool :=
  match save.stage with
  | .over _ => true
  | _ => false

def isSaveAs (save : RequestedSave) : Bool :=
  match save.kind with
  | .saveAs _ => true
  | _ => false

def outstandingFor (save : RequestedSave) : Option Nat :=
  if save.kind ≠ .blocking ∧ save.completed = false then some save.tabId else none

def writingFor (save : RequestedSave) : Option Nat :=
  if save.stage = .running ∨ save.stage = .renamed then some save.tabId else none

end RequestedSave

/-- A window whose tabs are saved. Files are looked up under their canonical path. -/
structure SavingWindow where
  tabs : List EditorTab
  nextTabId : Nat
  disk : Disk
  inflightSaves : Nat → Option PathBuf
  /-- The tabs that a close warning is open for. -/
  closeWarnings : List Nat
  /-- Every save requested so far, the first one first. -/
  saves : List RequestedSave

namespace SavingWindow

def launched (disk : Disk) : SavingWindow where
  tabs := []
  nextTabId := 0
  disk := disk
  inflightSaves := fun _ => none
  closeWarnings := []
  saves := []

/-- The UI thread is in the write of a close warning. -/
def isBlocked (s : SavingWindow) : Bool :=
  s.saves.any fun save => save.kind = .blocking && !save.completed

def findTab (s : SavingWindow) (tabId : Nat) : Option EditorTab :=
  s.tabs.find? fun tab => tab.id = tabId

/-- A new tab takes the next id; ids are not used twice. -/
def addTab (s : SavingWindow) (tab : Nat → EditorTab) : SavingWindow :=
  { s with tabs := s.tabs ++ [tab s.nextTabId], nextTabId := s.nextTabId + 1 }

def openFile (encodings : Encodings) (links : Links) (s : SavingWindow) (path : PathBuf) :
    Option SavingWindow :=
  match (s.disk (links.canonicalize path)).contents with
  | none => none
  | some bytes =>
      if looksBinary bytes then none
      else some (s.addTab fun id => Session.openedTab encodings id path bytes)

/-! ## Background saves -/

/-- Note a save in flight, mark its tab saved and hand the write to the background. -/
def dispatch (s : SavingWindow) (kind : SaveKind) (tabId : Nat) (path : PathBuf)
    (bytes : List UInt8) : SavingWindow :=
  { s with
    inflightSaves := Function.update s.inflightSaves tabId (some path)
    tabs := updateEditorTab s.tabs tabId EditorTab.markAsSaved
    saves := s.saves ++
      [{ kind := kind
         completion :=
          { tabId := tabId, path := path, byteLen := bytes.length,
            previousBaseline := captureSavedBaseline s.tabs tabId }
         bytes := bytes, stage := .queued, completed := false }] }

def spawnLocalSave (s : SavingWindow) (tabId : Nat) (path : PathBuf) (bytes : List UInt8) :
    SavingWindow :=
  if (s.inflightSaves tabId).isSome then s else s.dispatch .save tabId path bytes

def encodedTab (encodings : Encodings) (s : SavingWindow) (tabId : Nat) :
    Option (PathBuf × List UInt8) :=
  (s.findTab tabId).bind fun tab =>
    match tab.location with
    | .localPath path =>
        if tab.lossyDecode then none
        else match encodeForSave encodings tab.content.toText tab.encoding with
          | .lossy => none
          | .encoded bytes => some (path, bytes)
    | _ => none

/-- Save a local tab; one whose text cannot be written asks first. -/
def saveFile (encodings : Encodings) (s : SavingWindow) (tabId : Nat) : SavingWindow :=
  match s.encodedTab encodings tabId with
  | none => s
  | some (path, bytes) => s.spawnLocalSave tabId path bytes

/-- The dialog about a text that the encoding of its tab cannot hold was confirmed. -/
def toUtf8 (s : SavingWindow) (tabId : Nat) : SavingWindow :=
  { s with
    tabs := updateEditorTab s.tabs tabId fun tab =>
      { tab with encoding := UTF_8, lossyDecode := false } }

def finalizeSaveAs (s : SavingWindow) (tabId : Nat) (path : PathBuf) (bytes : List UInt8)
    (encoding : String) : SavingWindow :=
  if (s.inflightSaves tabId).isSome then s else s.dispatch (.saveAs encoding) tabId path bytes

def finishLocalSave (s : SavingWindow) (completion : SaveCompletion) (succeeded : Bool) :
    SavingWindow :=
  let landed :=
    { s with inflightSaves := Function.update s.inflightSaves completion.tabId none }
  if succeeded then landed
  else { landed with
    tabs := updateEditorTab landed.tabs completion.tabId (handleFailedSave completion) }

/-- The tab of a "Save as" moves to the path that was written. -/
def relocate (path : PathBuf) (encoding : String) (tab : EditorTab) : EditorTab :=
  { tab with
    location := .localPath path
    title := (path.fileName.bind fromUtf8).getD UNTITLED
    encoding := encoding }

/-- `written` is the canonical path where it can be had, else the path as it was chosen. -/
def finishSaveAs (s : SavingWindow) (completion : SaveCompletion) (encoding : String)
    (written : PathBuf) (succeeded : Bool) : SavingWindow :=
  let landed :=
    { s with inflightSaves := Function.update s.inflightSaves completion.tabId none }
  if succeeded then
    { landed with
      tabs := updateEditorTab landed.tabs completion.tabId (relocate written encoding) }
  else { landed with
    tabs := updateEditorTab landed.tabs completion.tabId (handleFailedSave completion) }

/-! ## The save of a close warning -/

/-- Warn about a tab whose changes would be lost. -/
def warnClose (s : SavingWindow) (tabId : Nat) : Option SavingWindow :=
  if (s.findTab tabId).any EditorTab.isLargeModifiedLocal then
    some { s with closeWarnings := s.closeWarnings ++ [tabId] }
  else none

def closeWarning (s : SavingWindow) (tabId : Nat) : SavingWindow :=
  { s with closeWarnings := s.closeWarnings.erase tabId }

/-- Begin to write a local tab while the UI thread waits; in flight or not is not asked. -/
def saveLocalTabBlocking (encodings : Encodings) (s : SavingWindow) (tabId : Nat) : SavingWindow :=
  match s.encodedTab encodings tabId with
  | none => s
  | some (path, bytes) =>
      { s with saves := s.saves ++
        [{ kind := .blocking
           completion :=
            { tabId := tabId, path := path, byteLen := bytes.length, previousBaseline := none }
           bytes := bytes, stage := .queued, completed := false }] }

def finishBlockingSave (s : SavingWindow) (tabId : Nat) (succeeded : Bool) : SavingWindow :=
  if succeeded then { s with tabs := updateEditorTab s.tabs tabId EditorTab.markAsSaved } else s

/-! ## Writes -/

def setStage (s : SavingWindow) (index : Nat) (save : RequestedSave) (stage : WriteStage) :
    SavingWindow :=
  { s with saves := s.saves.set index { save with stage := stage } }

def startWrite (s : SavingWindow) (index : Nat) : Option SavingWindow :=
  s.saves[index]?.bind fun save =>
    if save.stage = .queued then some (s.setStage index save .running) else none

def renameOver (links : Links) (s : SavingWindow) (index : Nat) (modified : Option String) :
    Option SavingWindow :=
  s.saves[index]?.bind fun save =>
    if save.stage = .running then
      some { s.setStage index save .renamed with
        disk := s.disk.write (save.file links) save.bytes modified }
    else none

def failWrite (s : SavingWindow) (index : Nat) : Option SavingWindow :=
  s.saves[index]?.bind fun save =>
    if save.stage = .running then some (s.setStage index save (.over false)) else none

/-- The write returns; when the directory cannot be synced it reports an error all the same. -/
def returnWrite (s : SavingWindow) (index : Nat) (synced : Bool) : Option SavingWindow :=
  s.saves[index]?.bind fun save =>
    if save.stage = .renamed then some (s.setStage index save (.over synced)) else none

/-- The outcome of a write reaches the UI thread. -/
def complete (links : Links) (s : SavingWindow) (index : Nat) (canonical : Bool) :
    Option SavingWindow :=
  s.saves[index]?.bind fun save =>
    match save.stage, save.completed with
    | .over succeeded, false =>
        let done := { s with saves := s.saves.set index { save with completed := true } }
        match save.kind with
        | .save => some (done.finishLocalSave save.completion succeeded)
        | .saveAs encoding =>
            let written := if canonical then save.file links else save.completion.path
            some (done.finishSaveAs save.completion encoding written succeeded)
        | .blocking => some (done.finishBlockingSave save.tabId succeeded)
    | _, _ => none

end SavingWindow

inductive SavingAction where
  | openFile (path : PathBuf)
  | newTab (title : String)
  | edit (tabId : Nat) (content : Rope)
  | closeTab (tabId : Nat)
  | save (tabId : Nat)
  /-- The tab that the dialog asked about, and the active one, which is saved. -/
  | confirmLossySave (tabId activeTabId : Nat)
  | finalizeSaveAs (tabId : Nat) (path : PathBuf) (bytes : List UInt8) (encoding : String)
  | warnClose (tabId : Nat)
  | dismissWarning (tabId : Nat)
  | saveOnWarning (tabId : Nat)
  | startWrite (index : Nat)
  | renameOver (index : Nat) (modified : Option String)
  | failWrite (index : Nat)
  | returnWrite (index : Nat) (synced : Bool)
  | complete (index : Nat) (canonical : Bool)

namespace SavingWindow

/-- What the UI thread does while it is not in a blocking write. -/
def uiStep (encodings : Encodings) (links : Links) (s : SavingWindow) :
    SavingAction → Option SavingWindow
  | .openFile path => s.openFile encodings links path
  | .newTab title => some (s.addTab fun id => EditorTab.new id title)
  | .edit tabId content =>
      some { s with tabs := updateEditorTab s.tabs tabId fun tab => tab.edit content }
  | .closeTab tabId => some { s with tabs := s.tabs.filter fun tab => tab.id ≠ tabId }
  | .save tabId => some (s.saveFile encodings tabId)
  | .confirmLossySave tabId activeTabId => some ((s.toUtf8 tabId).saveFile encodings activeTabId)
  | .finalizeSaveAs tabId path bytes encoding =>
      -- the tab was open when its path was asked for
      if tabId < s.nextTabId then some (s.finalizeSaveAs tabId path bytes encoding) else none
  | .warnClose tabId => s.warnClose tabId
  | .dismissWarning tabId => some (s.closeWarning tabId)
  | .saveOnWarning tabId =>
      if tabId ∈ s.closeWarnings then
        some ((s.closeWarning tabId).saveLocalTabBlocking encodings tabId)
      else none
  | _ => none

/-- Whether the completion is that of the write the UI thread waits for. -/
def endsBlocking (s : SavingWindow) (index : Nat) : Bool :=
  s.saves[index]?.any fun save => save.kind = .blocking

def step (encodings : Encodings) (links : Links) (s : SavingWindow) (action : SavingAction) :
    Option SavingWindow :=
  match action with
  | .startWrite index => s.startWrite index
  | .renameOver index modified => s.renameOver links index modified
  | .failWrite index => s.failWrite index
  | .returnWrite index synced => s.returnWrite index synced
  | .complete index canonical =>
      if s.isBlocked && !s.endsBlocking index then none else s.complete links index canonical
  | action => if s.isBlocked then none else s.uiStep encodings links action

end SavingWindow

end Fulgur
