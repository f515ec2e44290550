import Mathlib.Algebra.Group.Nat.Defs
import Fulgur.Remote.Task
import Fulgur.Files.LocalSave

/-! # Remote files of a window

A remote file is loaded into a new tab, or into a tab that was restored and is
now activated; a remote tab is saved by an upload. Both ask for a password when
none is cached, and then run as a background task. A window numbers the requests
that are about a tab of its own and keeps, by tab, the latest one of each kind.
Outcomes of loads wait in a queue that the next render drains; the outcome of a
save is taken by its monitor.
-/

namespace Fulgur

open EditorTab (RemoteFileResult)

def readRemoteFile (encodings : Encodings) (spec : RemoteSpec) (bytes : List UInt8) :
    RemoteFileResult :=
  let decoded := detectEncodingAndDecode encodings bytes
  { spec := spec
    content := decoded.content
    encoding := decoded.encoding
    lossy := decoded.lossy }

/-- Data required to open a remote browsing dialog when the requested path is not a file. -/
structure RemoteBrowseResult where
  directorySpec : RemoteSpec
  notice : Option String
deriving DecidableEq

inductive RemoteOpenResult where
  | file (result : RemoteFileResult)
  | browse (result : RemoteBrowseResult)

structure PendingRemoteOpenOutcome where
  targetTabId : Option Nat
  targetRequestId : Option Nat
  result : Except String RemoteOpenResult

/-- A request asks for a password first, unless one is cached. -/
inductive RequestStage (Task : Type) where
  | prompting
  | dismissed
  | running (task : Task)

/-- The task of a request that got past the password prompt. -/
def RequestStage.task {Task : Type} : RequestStage Task → Option Task
  | .running task => some task
  | _ => none

theorem RequestStage.eq_running {Task : Type} {stage : RequestStage Task} {running : Task}
    (h : stage.task = some running) : stage = .running running := by
  cases stage with
  | prompting => cases h
  | dismissed => cases h
  | running task =>
      cases h
      rfl

structure OpenRequest where
  spec : RemoteSpec
  targetTabId : Option Nat
  targetRequestId : Option Nat
  stage : RequestStage (SshTask RemoteOpenResult)

structure SaveRequest where
  spec : RemoteSpec
  tabId : Nat
  savedContent : String
  savedBytes : List UInt8
  /-- The number of the request, which it is given when its task is spawned. -/
  requestId : Option Nat
  stage : RequestStage (SshTask Unit)
  pendingSaveResult : Option (Except String Unit)
  /-- How many bytes the upload has put in place of the remote file, once it has. -/
  written : Option Nat

structure RemoteWindow where
  tabs : List EditorTab
  nextTabId : Nat
  nextRemoteRequestId : Nat
  latestRemoteOpenRequestByTab : Nat → Option Nat
  latestRemoteSaveRequestByTab : Nat → Option Nat
  pendingRemoteRestore : Nat → Bool
  inflightRemoteRestore : Nat → Bool
  pendingRemoteOpen : List PendingRemoteOpenOutcome
  /-- Every request made so far, in order. -/
  openRequests : List OpenRequest
  saveRequests : List SaveRequest
  /-- The remote files, by location. -/
  server : RemoteSpec → Option (List UInt8)

/-! ## Tabs -/

/-- Put fresh remote contents into a tab, as its buffer and its baseline. -/
def EditorTab.applyRemoteReload (tab : EditorTab) (result : RemoteFileResult) : EditorTab :=
  let reloaded :=
    { tab with content := .ofText result.content }.setOriginalContentFromStr result.content
  { reloaded with
    location := .remote result.spec
    encoding := result.encoding
    modified := false
    title := remoteFileName result.spec.path }

/-- Take the text of a remote save as the baseline; a buffer changed since stays modified. -/
def EditorTab.takeRemoteSave (tab : EditorTab) (savedContent : String) : EditorTab :=
  { tab.setOriginalContentFromStr savedContent with modified := false }.checkModified

/-- Fill in the user that a remote tab's place lacked. -/
def EditorTab.setRemoteUser (tab : EditorTab) (user : String) : EditorTab :=
  match tab.location with
  | .remote spec => { tab with location := .remote { spec with user := some user } }
  | _ => tab

def findTabByRemoteSpec (tabs : List EditorTab) (spec : RemoteSpec) : Option EditorTab :=
  tabs.find? fun tab =>
    match tab.location with
    | .remote existing =>
        existing.host = spec.host ∧ existing.port = spec.port ∧ existing.user = spec.user ∧
          existing.path = spec.path
    | _ => false

/-- The monitor of a save: it takes the outcome when there is one to deliver. -/
def SaveRequest.pollMonitor (request : SaveRequest) (task : SshTask Unit) (pastDeadline : Bool) :
    SaveRequest × Option (Except String Unit) :=
  match request.pendingSaveResult with
  | some result =>
      ({ request with
          pendingSaveResult := none
          stage := .running { task with monitorDone := true } }, some result)
  | none =>
      if task.cancelFlag then
        ({ request with stage := .running { task with monitorDone := true } }, none)
      else if pastDeadline then
        let timedOut := task.timeOut SSH_SAVE_TIMEOUT_LABEL
        ({ request with stage := .running { timedOut.1 with monitorDone := true } }, timedOut.2)
      else (request, none)

/-- The monitor of a load: it has nothing to deliver, but publishes the timeout. -/
def OpenRequest.pollMonitor (request : OpenRequest) (task : SshTask RemoteOpenResult)
    (pastDeadline : Bool) : OpenRequest × Option (Except String RemoteOpenResult) :=
  if task.finished || task.cancelFlag then
    ({ request with stage := .running { task with monitorDone := true } }, none)
  else if pastDeadline then
    let timedOut := task.timeOut SSH_CONNECTION_TIMEOUT_LABEL
    ({ request with stage := .running { timedOut.1 with monitorDone := true } }, timedOut.2)
  else (request, none)

namespace RemoteWindow

def restoredTabs (encodings : Encodings) (parse : String → Option Int) (disk : Disk)
    (states : List TabState) : List EditorTab :=
  states.filterMap fun state => restoreTabFromState encodings parse disk state state.tabId

/-- A window with the tabs that were restored for it; remote ones are to be loaded yet. -/
def launched (encodings : Encodings) (parse : String → Option Int) (disk : Disk)
    (states : List TabState) (server : RemoteSpec → Option (List UInt8)) : RemoteWindow where
  tabs := restoredTabs encodings parse disk states
  nextTabId :=
    (restoredTabs encodings parse disk states).foldl (fun highest tab => max highest tab.id) 0 + 1
  nextRemoteRequestId := 1
  latestRemoteOpenRequestByTab := fun _ => none
  latestRemoteSaveRequestByTab := fun _ => none
  pendingRemoteRestore := fun tabId =>
    states.any fun state => state.tabId = tabId ∧ state.remote.isSome
  inflightRemoteRestore := fun _ => false
  pendingRemoteOpen := []
  openRequests := []
  saveRequests := []
  server := server

/-- Number a request; the counter wraps at 2^64. -/
def nextRequestId (w : RemoteWindow) : Nat := (w.nextRemoteRequestId + 1) % 2 ^ 64

/-- Away from the wrap the counter goes up by one; it never stays where it is. -/
theorem nextRequestId_eq {w : RemoteWindow} (h : w.nextRemoteRequestId + 1 < 2 ^ 64 ∨
    w.nextRequestId = w.nextRemoteRequestId) : w.nextRequestId = w.nextRemoteRequestId + 1 := by
  unfold nextRequestId at h ⊢
  rcases h with hbound | hsame
  · exact Nat.mod_eq_of_lt hbound
  · omega

/-! ## Loading -/

def spawnSshOpenTask (w : RemoteWindow) (index : Nat) (request : OpenRequest)
    (user : Option String) : RemoteWindow :=
  let running := { request with
    spec := { request.spec with user := user }
    stage := .running .spawned }
  { w with
    openRequests := w.openRequests.set index running
    inflightRemoteRestore :=
      match request.targetTabId with
      | none => w.inflightRemoteRestore
      | some tabId => Function.update w.inflightRemoteRestore tabId true }

/-- Make a request, for a new tab or for an existing one; only the latter is numbered. -/
def requestOpen (w : RemoteWindow) (spec : RemoteSpec) : Option Nat → RemoteWindow × OpenRequest
  | none =>
      let request : OpenRequest := ⟨spec, none, none, .prompting⟩
      ({ w with openRequests := w.openRequests ++ [request] }, request)
  | some tabId =>
      let request : OpenRequest := ⟨spec, some tabId, some w.nextRemoteRequestId, .prompting⟩
      ({ w with
        openRequests := w.openRequests ++ [request]
        nextRemoteRequestId := w.nextRequestId
        latestRemoteOpenRequestByTab := Function.update w.latestRemoteOpenRequestByTab tabId
          (some w.nextRemoteRequestId) }, request)

/-- Whether the request needs no password prompt: the user is known and the password cached. -/
def hasPassword (spec : RemoteSpec) (cached : Bool) : Bool :=
  spec.user.isSome && (cached || spec.passwordInUrl.isSome)

def openRemoteFileWithTarget (w : RemoteWindow) (spec : RemoteSpec) (targetTabId : Option Nat)
    (cached : Bool) : RemoteWindow :=
  let (requested, request) := w.requestOpen { spec with passwordInUrl := none } targetTabId
  if hasPassword spec cached then
    requested.spawnSshOpenTask w.openRequests.length request spec.user
  else requested

/-- Open a remote file; one that is open already is only focused. -/
def doOpenRemoteFile (w : RemoteWindow) (spec : RemoteSpec) (cached : Bool) : RemoteWindow :=
  match findTabByRemoteSpec w.tabs spec with
  | some _ => w
  | none => w.openRemoteFileWithTarget spec none cached

/-- Activate a tab; a restored remote tab that is unmodified and not loading is loaded. -/
def setActiveTab (w : RemoteWindow) (tabId : Nat) (cached : Bool) : RemoteWindow :=
  match w.tabs.find? fun tab => tab.id = tabId with
  | none => w
  | some tab =>
      match tab.location with
      | .remote spec =>
          if w.pendingRemoteRestore tabId && !w.inflightRemoteRestore tabId && !tab.modified then
            w.openRemoteFileWithTarget spec (some tabId) cached
          else w
      | _ => w

def answerOpenPassword (w : RemoteWindow) (index : Nat) (answer : Option String) :
    Option RemoteWindow :=
  match w.openRequests[index]? with
  | some request =>
      match request.stage, answer with
      | .prompting, none =>
          some { w with
            openRequests := w.openRequests.set index { request with stage := .dismissed } }
      | .prompting, some entered =>
          let user := request.spec.user.getD entered
          -- a blank user name keeps the dialog open
          if isBlank user then some w
          else some (w.spawnSshOpenTask index request (some user))
      | _, _ => none
  | none => none

/-- Change the task of a load, and queue the outcome it publishes. -/
def updateOpenTask (w : RemoteWindow) (index : Nat) (request : OpenRequest)
    (published : Option (Except String RemoteOpenResult)) : RemoteWindow :=
  { w with
    openRequests := w.openRequests.set index request
    pendingRemoteOpen := match published with
      | none => w.pendingRemoteOpen
      | some result =>
          w.pendingRemoteOpen ++ [⟨request.targetTabId, request.targetRequestId, result⟩] }

/-- The running task of a load. -/
def openTask (w : RemoteWindow) (index : Nat) : Option (OpenRequest × SshTask RemoteOpenResult) :=
  w.openRequests[index]?.bind fun request => request.stage.task.map fun task => (request, task)

def openWorks (w : RemoteWindow) (index : Nat) (outcome : Except String RemoteOpenResult) :
    Option RemoteWindow :=
  (w.openTask index).bind fun (request, task) =>
    (task.works outcome).map fun task =>
      w.updateOpenTask index { request with stage := .running task } none

def advanceOpen (w : RemoteWindow) (index : Nat) : Option RemoteWindow :=
  (w.openTask index).bind fun (request, task) =>
    task.advance.map fun (task, stored) =>
      w.updateOpenTask index { request with stage := .running task } stored

def monitorOpen (w : RemoteWindow) (index : Nat) (pastDeadline : Bool) : Option RemoteWindow :=
  (w.openTask index).bind fun (request, task) =>
    if task.monitorDone then none
    else
      let polled := request.pollMonitor task pastDeadline
      some (w.updateOpenTask index polled.1 polled.2)

def cancelOpen (w : RemoteWindow) (index : Nat) : Option RemoteWindow :=
  (w.openTask index).bind fun (request, task) =>
    task.cancel.map fun task =>
      let cancelled := w.updateOpenTask index { request with stage := .running task } none
      match request.targetTabId with
      | none => cancelled
      | some tabId => { cancelled with
          latestRemoteOpenRequestByTab :=
            Function.update w.latestRemoteOpenRequestByTab tabId none
          inflightRemoteRestore := Function.update w.inflightRemoteRestore tabId false }

/-! ## The queue of outcomes -/

/-- What an outcome does to an existing tab. -/
def applyToTab (w : RemoteWindow) (tabId : Nat) : Except String RemoteOpenResult → RemoteWindow
  | .ok (.file result) => { w with
      pendingRemoteRestore := Function.update w.pendingRemoteRestore tabId false
      tabs := updateEditorTab w.tabs tabId fun tab => tab.applyRemoteReload result }
  | _ => { w with pendingRemoteRestore := Function.update w.pendingRemoteRestore tabId true }

/-- What an outcome does that is for no tab yet: a file opens one. -/
def applyToNewTab (w : RemoteWindow) : Except String RemoteOpenResult → RemoteWindow
  | .ok (.file result) => { w with
      tabs := w.tabs ++ [EditorTab.fromRemoteLoaded w.nextTabId result]
      nextTabId := w.nextTabId + 1 }
  | _ => w

def processOutcome (w : RemoteWindow) (outcome : PendingRemoteOpenOutcome) : RemoteWindow :=
  match outcome.targetTabId with
  | none => w.applyToNewTab outcome.result
  | some tabId =>
      if outcome.targetRequestId.isSome ∧
          w.latestRemoteOpenRequestByTab tabId ≠ outcome.targetRequestId then
        -- a newer request for this tab is already in flight
        w
      else
        let taken := { w with
          latestRemoteOpenRequestByTab :=
            if outcome.targetRequestId.isSome then
              Function.update w.latestRemoteOpenRequestByTab tabId none
            else w.latestRemoteOpenRequestByTab
          inflightRemoteRestore := Function.update w.inflightRemoteRestore tabId false }
        taken.applyToTab tabId outcome.result

def processPendingRemoteFiles (w : RemoteWindow) : RemoteWindow :=
  w.pendingRemoteOpen.foldl processOutcome { w with pendingRemoteOpen := [] }

/-! ## Saving -/

def spawnSshSaveTask (w : RemoteWindow) (index : Nat) (request : SaveRequest)
    (user : Option String) : RemoteWindow :=
  let running := { request with
    spec := { request.spec with user := user }
    requestId := some w.nextRemoteRequestId
    stage := .running .spawned }
  { w with
    saveRequests := w.saveRequests.set index running
    nextRemoteRequestId := w.nextRequestId
    latestRemoteSaveRequestByTab := Function.update w.latestRemoteSaveRequestByTab request.tabId
      (some w.nextRemoteRequestId) }

def savePrompt (tabId : Nat) (spec : RemoteSpec) (contents : String) (bytes : List UInt8) :
    SaveRequest where
  spec := { spec with passwordInUrl := none }
  tabId := tabId
  savedContent := contents
  savedBytes := bytes
  requestId := none
  stage := .prompting
  pendingSaveResult := none
  written := none

def saveRemoteFile (w : RemoteWindow) (tabId : Nat) (spec : RemoteSpec) (contents : String)
    (bytes : List UInt8) (cached : Bool) : RemoteWindow :=
  let request := savePrompt tabId spec contents bytes
  let requested := { w with saveRequests := w.saveRequests ++ [request] }
  if hasPassword spec cached then
    requested.spawnSshSaveTask w.saveRequests.length request spec.user
  else requested

/-- Save a remote tab; a text its encoding cannot represent asks the user instead. -/
def saveFile (encodings : Encodings) (w : RemoteWindow) (tabId : Nat) (cached : Bool) :
    Option RemoteWindow :=
  match w.tabs.find? fun tab => tab.id = tabId with
  | none => none
  | some tab =>
      match tab.location with
      | .remote spec =>
          if tab.lossyDecode then some w
          else match encodeForSave encodings tab.content.toText tab.encoding with
            | .lossy => some w
            | .encoded bytes =>
                some (w.saveRemoteFile tabId spec tab.content.toText bytes cached)
      | _ => none

/-- The password dialog of a save is answered; the user goes into the tab's place, too. -/
def answerSavePassword (w : RemoteWindow) (index : Nat) (answer : Option String) :
    Option RemoteWindow :=
  match w.saveRequests[index]? with
  | some request =>
      match request.stage, answer with
      | .prompting, none =>
          some { w with
            saveRequests := w.saveRequests.set index { request with stage := .dismissed } }
      | .prompting, some entered =>
          let user := request.spec.user.getD entered
          if isBlank user then some w
          else some ({ w with
            tabs := updateEditorTab w.tabs request.tabId fun tab => tab.setRemoteUser user
              }.spawnSshSaveTask index request (some user))
      | _, _ => none
  | none => none

def saveTask (w : RemoteWindow) (index : Nat) : Option (SaveRequest × SshTask Unit) :=
  w.saveRequests[index]?.bind fun request => request.stage.task.map fun task => (request, task)

def updateSaveTask (w : RemoteWindow) (index : Nat) (request : SaveRequest) : RemoteWindow :=
  { w with saveRequests := w.saveRequests.set index request }

/--
The upload replaces the remote file, by a rename, or byte by byte where the
server has no rename; nothing but the end of the operation stops it.
-/
def upload (w : RemoteWindow) (index count : Nat) : Option RemoteWindow :=
  (w.saveTask index).bind fun (request, task) =>
    match task.worker with
    | .working => some { w.updateSaveTask index { request with written := some count } with
        server := Function.update w.server request.spec (some (request.savedBytes.take count)) }
    | _ => none

/-- The upload is over; it succeeds only with the whole content in place. -/
def saveWorks (w : RemoteWindow) (index : Nat) (outcome : Except String Unit) :
    Option RemoteWindow :=
  (w.saveTask index).bind fun (request, task) =>
    if outcome.isOk && !(request.written.any fun count => request.savedBytes.length ≤ count) then
      none
    else (task.works outcome).map fun task =>
      w.updateSaveTask index { request with stage := .running task }

def advanceSave (w : RemoteWindow) (index : Nat) : Option RemoteWindow :=
  (w.saveTask index).bind fun (request, task) =>
    task.advance.map fun (task, stored) =>
      w.updateSaveTask index { request with
        stage := .running task
        pendingSaveResult := stored.or request.pendingSaveResult }

/-- Apply a completed remote-save result; only the latest request of the tab counts. -/
def handleRemoteSaveResult (w : RemoteWindow) (tabId : Nat) (requestId : Option Nat)
    (savedContent : String) (result : Except String Unit) : RemoteWindow :=
  if w.latestRemoteSaveRequestByTab tabId ≠ requestId then w
  else
    let taken := { w with
      latestRemoteSaveRequestByTab := Function.update w.latestRemoteSaveRequestByTab tabId none }
    match result with
    | .error _ => taken
    | .ok () =>
        if w.tabs.any fun tab => tab.id = tabId then
          { taken with
            tabs := updateEditorTab w.tabs tabId fun tab => tab.takeRemoteSave savedContent
            pendingRemoteRestore := Function.update w.pendingRemoteRestore tabId false
            inflightRemoteRestore := Function.update w.inflightRemoteRestore tabId false }
        else taken

/-- Hand over what the monitor of a save has to deliver. -/
def deliverSave (w : RemoteWindow) (request : SaveRequest)
    (delivered : Option (Except String Unit)) : RemoteWindow :=
  match delivered with
  | none => w
  | some result =>
      w.handleRemoteSaveResult request.tabId request.requestId request.savedContent result

def monitorSave (w : RemoteWindow) (index : Nat) (pastDeadline : Bool) : Option RemoteWindow :=
  (w.saveTask index).bind fun (request, task) =>
    if task.monitorDone then none
    else
      let polled := request.pollMonitor task pastDeadline
      some ((w.updateSaveTask index polled.1).deliverSave request polled.2)

def cancelSave (w : RemoteWindow) (index : Nat) : Option RemoteWindow :=
  (w.saveTask index).bind fun (request, task) =>
    task.cancel.map fun task =>
      let cancelled := w.updateSaveTask index { request with stage := .running task }
      if w.latestRemoteSaveRequestByTab request.tabId = request.requestId then
        { cancelled with latestRemoteSaveRequestByTab :=
            Function.update w.latestRemoteSaveRequestByTab request.tabId none }
      else cancelled

/-- Close a tab and forget what was recorded for it. -/
def removeTabById (w : RemoteWindow) (tabId : Nat) : RemoteWindow :=
  if w.tabs.any fun tab => tab.id = tabId then
    { w with
      tabs := w.tabs.filter fun tab => tab.id ≠ tabId
      pendingRemoteRestore := Function.update w.pendingRemoteRestore tabId false
      inflightRemoteRestore := Function.update w.inflightRemoteRestore tabId false
      latestRemoteOpenRequestByTab := Function.update w.latestRemoteOpenRequestByTab tabId none
      latestRemoteSaveRequestByTab := Function.update w.latestRemoteSaveRequestByTab tabId none }
  else w

end RemoteWindow

inductive RemoteAction where
  | openRemote (spec : RemoteSpec) (cached : Bool)
  | setActiveTab (tabId : Nat) (cached : Bool)
  | answerOpenPassword (index : Nat) (answer : Option String)
  | openWorks (index : Nat) (outcome : Except String RemoteOpenResult)
  | advanceOpen (index : Nat)
  | monitorOpen (index : Nat) (pastDeadline : Bool)
  | cancelOpen (index : Nat)
  | processPendingRemoteFiles
  | edit (tabId : Nat) (content : Rope)
  /-- The search bar replaces matches in the buffer. -/
  | replace (tabId : Nat) (content : Rope)
  | save (tabId : Nat) (cached : Bool)
  | answerSavePassword (index : Nat) (answer : Option String)
  | upload (index count : Nat)
  | saveWorks (index : Nat) (outcome : Except String Unit)
  | advanceSave (index : Nat)
  | monitorSave (index : Nat) (pastDeadline : Bool)
  | cancelSave (index : Nat)
  | closeTab (tabId : Nat)

namespace RemoteWindow

def step (encodings : Encodings) (w : RemoteWindow) : RemoteAction → Option RemoteWindow
  | .openRemote spec cached => some (w.doOpenRemoteFile spec cached)
  | .setActiveTab tabId cached => some (w.setActiveTab tabId cached)
  | .answerOpenPassword index answer => w.answerOpenPassword index answer
  | .openWorks index outcome => w.openWorks index outcome
  | .advanceOpen index => w.advanceOpen index
  | .monitorOpen index pastDeadline => w.monitorOpen index pastDeadline
  | .cancelOpen index => w.cancelOpen index
  | .processPendingRemoteFiles => some w.processPendingRemoteFiles
  | .edit tabId content =>
      some { w with tabs := updateEditorTab w.tabs tabId fun tab => tab.edit content }
  | .replace tabId content =>
      some { w with tabs := updateEditorTab w.tabs tabId fun tab => tab.setValue content }
  | .save tabId cached => w.saveFile encodings tabId cached
  | .answerSavePassword index answer => w.answerSavePassword index answer
  | .upload index count => w.upload index count
  | .saveWorks index outcome => w.saveWorks index outcome
  | .advanceSave index => w.advanceSave index
  | .monitorSave index pastDeadline => w.monitorSave index pastDeadline
  | .cancelSave index => w.cancelSave index
  | .closeTab tabId => some (w.removeTabById tabId)

end RemoteWindow

end Fulgur
