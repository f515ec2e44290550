import Fulgur.Library.Run

/-! # The event workers of a profile

Each start of a profile's event connection rotates a new worker into the shared
state and tells the one before to stop. A job retires the old worker, runs the
initial synchronization and spawns the thread of the new one. The published
status is written by worker threads, by jobs, by the requests themselves, by the
UI when it handles a queued heartbeat, and by the share sheet, which connects to
the server to fetch the devices. Every lock is a step of its own.
-/

namespace Fulgur

inductive SynchronizationStatus where
  | connected
  | connecting
  | disconnected
  | authenticationFailed
  | connectionFailed
  | other
  | notActivated
deriving DecidableEq

/-- The errors that a status tells apart, and all others. -/
inductive SynchronizationError where
  | authenticationFailed
  | hostNotFound
  | connectionFailed
  | timeout
  | unspecific
deriving DecidableEq

def SynchronizationStatus.fromError : SynchronizationError → SynchronizationStatus
  | .authenticationFailed => .authenticationFailed
  | .hostNotFound | .connectionFailed | .timeout => .connectionFailed
  | .unspecific => .other

/-- The thread of a worker; it publishes a status in three steps. -/
inductive SseThread where
  | notSpawned
  | running
  /-- The shutdown flag was found clear. -/
  | checked (status : SynchronizationStatus)
  /-- The shared status was found to be another one. -/
  | compared (status : SynchronizationStatus)
  | exited
deriving DecidableEq

structure SseWorker where
  shutdownFlag : Bool
  thread : SseThread
deriving DecidableEq

namespace SseWorker

def hasStarted (worker : SseWorker) : Bool := worker.thread ≠ .notSpawned

def signalShutdown (worker : SseWorker) : SseWorker := { worker with shutdownFlag := true }

end SseWorker

inductive SseMessage where
  | heartbeat
  | connectionStatusChanged
  /-- Shares and errors: they leave the status alone. -/
  | other
deriving DecidableEq

inductive RestartKind where
  | bootstrap
  | plain
  | withProgress
deriving DecidableEq

/-- How the initial synchronization of a job ended. -/
inductive SyncResult where
  | succeeded
  | failed (error : SynchronizationError)
deriving DecidableEq

inductive RestartStep where
  | setStatus (status : SynchronizationStatus)
  | startSse
deriving DecidableEq

/-- What is left to do after the initial synchronization. -/
def RestartKind.steps : RestartKind → SyncResult → List RestartStep
  | .bootstrap, .succeeded => [.setStatus .connected, .startSse]
  | .bootstrap, .failed _ => [.setStatus .disconnected]
  | .plain, .succeeded => [.startSse]
  | .plain, .failed _ => []
  | .withProgress, .succeeded => [.startSse, .setStatus .connected]
  | .withProgress, .failed error => [.setStatus (.fromError error)]

inductive RestartStage where
  /-- The worker before is joined, for as long as it takes or the time-out allows. -/
  | retiring
  | synchronizing
  | settling (steps : List RestartStep)
deriving DecidableEq

/-- A background job that is to spawn the thread of a worker. -/
structure SseRestartJob where
  worker : Nat
  kind : RestartKind
  cancelled : Bool
  /-- Its progress indicator is gone. -/
  dismissed : Bool
  stage : RestartStage
deriving DecidableEq

inductive DeviceFetchStage where
  | spawned
  | synchronizing
  | fetching
  | over
deriving DecidableEq

/-- A thread of the share sheet that fetches the devices of the profile. -/
structure DeviceFetch where
  needsReconnect : Bool
  stage : DeviceFetchStage
deriving DecidableEq

/-- What the UI thread is in the middle of. -/
inductive UiWork where
  /-- A request is about to set the status. -/
  | setStatus (status : SynchronizationStatus)
  /-- A heartbeat of this worker found the profile not connected. -/
  | restore (worker : Nat)
  /-- The share sheet is about to show the profile as connecting. -/
  | fetchDevices (needsReconnect : Bool)
deriving DecidableEq

/-- A change of the status: the worker behind it, and how that one stood. -/
structure StatusChange where
  worker : Option Nat
  toldToStop : Bool
  successorStarted : Bool
deriving DecidableEq

/-- The connection state of a profile. -/
structure SseConnection where
  workers : List SseWorker
  /-- The worker in the shared state. -/
  worker : Option Nat
  connectionStatus : SynchronizationStatus
  /-- The event channel, with the worker each event comes from. -/
  events : List (Nat × SseMessage)
  jobs : List SseRestartJob
  fetches : List DeviceFetch
  ui : Option UiWork
  syncInitialized : Bool
  /-- The connection was stopped and not started again. -/
  stopped : Bool
  changes : List StatusChange
deriving DecidableEq

inductive SseAction where
  | bootstrap
  | restart (progress : Bool)
  | stop
  /-- The profile is deleted: its worker is told to stop. -/
  | shutdown
  | finishUi
  | drain
  | cancel (job : Nat)
  | dismiss (job : Nat)
  /-- The share sheet is opened. -/
  | fetchDevices
  | checkSheet (fetch : Nat) (active : Bool)
  | reconnected (fetch : Nat) (result : SyncResult)
  | devicesFetched (fetch : Nat) (succeeded : Bool)
  | release (job : Nat)
  | synchronized (job : Nat) (result : SyncResult)
  | settle (job : Nat) (spawned : Bool)
  | publish (worker : Nat) (status : SynchronizationStatus)
  | compare (worker : Nat)
  | store (worker : Nat)
  | send (worker : Nat) (message : SseMessage)
  | exit (worker : Nat)
deriving DecidableEq

namespace SseConnection

def init (status : SynchronizationStatus) : SseConnection :=
  ⟨[], none, status, [], [], [], none, false, false, []⟩

def toldToStop (s : SseConnection) (worker : Nat) : Bool :=
  (s.workers[worker]?).any (·.shutdownFlag)

def successorStarted (s : SseConnection) (worker : Nat) : Bool :=
  (s.workers.drop (worker + 1)).any (·.hasStarted)

def setStatus (s : SseConnection) (worker : Option Nat) (status : SynchronizationStatus) :
    SseConnection :=
  { s with
    connectionStatus := status
    changes := if s.connectionStatus = status then s.changes
      else s.changes ++ [⟨worker, worker.any s.toldToStop, worker.any s.successorStarted⟩] }

/-- Tell the worker in the shared state to stop. -/
def signalWorker (s : SseConnection) : List SseWorker :=
  match s.worker with
  | none => s.workers
  | some worker => s.workers.modify worker SseWorker.signalShutdown

/-- Rotate a fresh worker into the shared state, under its lock, and leave its start to a job. -/
def rotate (s : SseConnection) (kind : RestartKind) : SseConnection :=
  { s with
    workers := s.signalWorker ++ [⟨false, .notSpawned⟩]
    worker := some s.workers.length
    jobs := s.jobs ++ [⟨s.workers.length, kind, false, false, .retiring⟩]
    stopped := false }

def setThread (s : SseConnection) (worker : Nat) (thread : SseThread) : SseConnection :=
  { s with workers := s.workers.modify worker fun w => { w with thread := thread } }

def setStage (s : SseConnection) (job : Nat) (stage : RestartStage) : SseConnection :=
  { s with jobs := s.jobs.modify job fun j => { j with stage := stage } }

def setFetch (s : SseConnection) (fetch : Nat) (stage : DeviceFetchStage) : SseConnection :=
  { s with fetches := s.fetches.modify fetch fun f => { f with stage := stage } }

/-! ## The UI thread -/

/-- `begin_synchronization`, once: a worker that was there is dropped. -/
def bootstrap (s : SseConnection) : Option SseConnection :=
  if s.ui = none ∧ s.syncInitialized = false then
    some { s.rotate .bootstrap with syncInitialized := true }
  else none

def restart (s : SseConnection) (progress : Bool) : Option SseConnection :=
  if s.ui = none then
    some (if progress then
      { s.rotate .withProgress with ui := some (.setStatus .connecting) } else s.rotate .plain)
  else none

def stop (s : SseConnection) : Option SseConnection :=
  if s.ui = none then
    some { s with
      workers := s.signalWorker, worker := none, ui := some (.setStatus .notActivated) }
  else none

def shutdown (s : SseConnection) : Option SseConnection :=
  if s.ui = none then some { s with workers := s.signalWorker, worker := none } else none

def finishUi (s : SseConnection) : Option SseConnection :=
  match s.ui with
  | none => none
  | some (.setStatus status) =>
      some { s.setStatus none status with
        ui := none, stopped := s.stopped || status = .notActivated }
  | some (.restore worker) => some { s.setStatus (some worker) .connected with ui := none }
  | some (.fetchDevices needsReconnect) =>
      some { s.setStatus none .connecting with
        ui := none, fetches := s.fetches ++ [⟨needsReconnect, .spawned⟩] }

/-- `handle_sse_event_for_profile`: a heartbeat restores a connection that is not connected. -/
def drain (s : SseConnection) : Option SseConnection :=
  match s.ui, s.events with
  | none, (worker, .heartbeat) :: rest =>
      some { s with
        events := rest
        ui := if s.connectionStatus = .connected then none else some (.restore worker) }
  | none, _ :: rest => some { s with events := rest }
  | _, _ => none

def cancel (s : SseConnection) (job : Nat) : Option SseConnection :=
  match s.ui, s.jobs[job]? with
  | none, some ⟨_, .withProgress, false, false, _⟩ =>
      some { s.setStatus none .disconnected with
        jobs := s.jobs.modify job fun j => { j with cancelled := true } }
  | _, _ => none

/-- The indicator of a job that is over goes away. -/
def dismiss (s : SseConnection) (job : Nat) : Option SseConnection :=
  match s.ui, s.jobs[job]? with
  | none, some ⟨_, _, _, _, .settling []⟩ =>
      some { s with jobs := s.jobs.modify job fun j => { j with dismissed := true } }
  | _, _ => none

/-- `spawn_profile_device_fetch` looks at the status before it sets it. -/
def fetchDevices (s : SseConnection) : Option SseConnection :=
  if s.ui = none then
    some { s with ui := some (.fetchDevices (s.connectionStatus ≠ .connected)) }
  else none

/-! ## Jobs -/

/-- The old worker is gone or the wait for it has timed out. -/
def release (s : SseConnection) (job : Nat) : Option SseConnection :=
  match s.jobs[job]? with
  | some ⟨_, _, cancelled, _, .retiring⟩ =>
      some (s.setStage job (if cancelled then .settling [] else .synchronizing))
  | _ => none

def synchronized (s : SseConnection) (job : Nat) (result : SyncResult) : Option SseConnection :=
  match s.jobs[job]? with
  | some ⟨_, kind, _, _, .synchronizing⟩ => some (s.setStage job (.settling (kind.steps result)))
  | _ => none

/-- The next step of a job; a worker's thread may fail to spawn. -/
def settle (s : SseConnection) (job : Nat) (spawned : Bool) : Option SseConnection :=
  match s.jobs[job]? with
  | some ⟨worker, kind, _, _, .settling (.setStatus status :: rest)⟩ =>
      some { (s.setStage job (.settling rest)).setStatus none status with
        events := if kind = .withProgress then s.events ++ [(worker, .connectionStatusChanged)]
          else s.events }
  | some ⟨worker, _, _, _, .settling (.startSse :: rest)⟩ =>
      some (if spawned then (s.setStage job (.settling rest)).setThread worker .running
        else s.setStage job (.settling rest))
  | _ => none

/-! ## Fetching the devices -/

/-- A fetch of a sheet that was closed in the meantime ends; one may have to connect first. -/
def checkSheet (s : SseConnection) (fetch : Nat) (active : Bool) : Option SseConnection :=
  match s.fetches[fetch]? with
  | some ⟨needsReconnect, .spawned⟩ =>
      some (s.setFetch fetch (if !active then .over
        else if needsReconnect then .synchronizing else .fetching))
  | _ => none

def reconnected (s : SseConnection) (fetch : Nat) (result : SyncResult) : Option SseConnection :=
  match s.fetches[fetch]?, result with
  | some ⟨_, .synchronizing⟩, .succeeded =>
      some ((s.setFetch fetch .fetching).setStatus none .connected)
  | some ⟨_, .synchronizing⟩, .failed error =>
      some ((s.setFetch fetch .over).setStatus none (.fromError error))
  | _, _ => none

/-- A list of devices shows the profile as connected; a failure leaves the status. -/
def devicesFetched (s : SseConnection) (fetch : Nat) (succeeded : Bool) : Option SseConnection :=
  match s.fetches[fetch]? with
  | some ⟨_, .fetching⟩ =>
      some (if succeeded then (s.setFetch fetch .over).setStatus none .connected
        else s.setFetch fetch .over)
  | _ => none

/-! ## Worker threads -/

def thread (s : SseConnection) (worker : Nat) : Option SseThread :=
  (s.workers[worker]?).map (·.thread)

/-- The statuses that a worker publishes. -/
def isPublished : SynchronizationStatus → Bool
  | .connected | .disconnected | .authenticationFailed | .other => true
  | _ => false

/-- `publish_connection_status` looks at the shutdown flag first. -/
def publish (s : SseConnection) (worker : Nat) (status : SynchronizationStatus) :
    Option SseConnection :=
  if s.thread worker = some .running ∧ isPublished status = true then
    some (if s.toldToStop worker then s else s.setThread worker (.checked status))
  else none

def compare (s : SseConnection) (worker : Nat) : Option SseConnection :=
  match s.thread worker with
  | some (.checked status) =>
      some (s.setThread worker (if s.connectionStatus = status then .running else .compared status))
  | _ => none

def store (s : SseConnection) (worker : Nat) : Option SseConnection :=
  match s.thread worker with
  | some (.compared status) =>
      some { (s.setStatus (some worker) status).setThread worker .running with
        events := s.events ++ [(worker, .connectionStatusChanged)] }
  | _ => none

def send (s : SseConnection) (worker : Nat) (message : SseMessage) : Option SseConnection :=
  if s.thread worker = some .running then
    some { s with events := s.events ++ [(worker, message)] }
  else none

def exit (s : SseConnection) (worker : Nat) : Option SseConnection :=
  if s.thread worker = some .running ∧ s.toldToStop worker = true then
    some (s.setThread worker .exited)
  else none

def step (s : SseConnection) : SseAction → Option SseConnection
  | .bootstrap => s.bootstrap
  | .restart progress => s.restart progress
  | .stop => s.stop
  | .shutdown => s.shutdown
  | .finishUi => s.finishUi
  | .drain => s.drain
  | .cancel job => s.cancel job
  | .dismiss job => s.dismiss job
  | .fetchDevices => s.fetchDevices
  | .checkSheet fetch active => s.checkSheet fetch active
  | .reconnected fetch result => s.reconnected fetch result
  | .devicesFetched fetch succeeded => s.devicesFetched fetch succeeded
  | .release job => s.release job
  | .synchronized job result => s.synchronized job result
  | .settle job spawned => s.settle job spawned
  | .publish worker status => s.publish worker status
  | .compare worker => s.compare worker
  | .store worker => s.store worker
  | .send worker message => s.send worker message
  | .exit worker => s.exit worker

end SseConnection

end Fulgur
