import Fulgur.Library.Run
import Fulgur.Remote.Task
import Fulgur.Remote.TrustedHosts

/-! # Asking the user about a host key

The worker of a remote operation takes a session from the pool or connects. It
looks the key of the server up in the file of known hosts; for an unknown key it
posts a request, which the monitor of the operation shows in a dialog, and waits
for the answer. The password is sent behind all that. Operations run at the same
time, each on threads of its own, and share the file and the pool.
-/

namespace Fulgur

open LabelledRun KnownHosts

structure HostKeyRequest where
  fingerprint : String
  host : String
  port : UInt16
deriving DecidableEq

structure SshTarget where
  host : String
  port : UInt16
  user : String
  password : String
deriving DecidableEq

structure ConnectedSession where
  target : SshTarget
  /-- The key of the server that the session was made with. -/
  serverKey : List UInt8
deriving DecidableEq

/-- What the worker does next. -/
inductive ConnectPhase where
  /-- The pool is asked for a session. -/
  | checkout
  | connecting
  /-- The server has shown its key; the library reads the file. -/
  | handshaken (serverKey : List UInt8)
  /-- The library has answered; the parser reads the file. -/
  | lookedUp (serverKey : List UInt8) (primary : CheckResult)
  | waiting (serverKey : List UInt8)
  /-- The user accepts the key; the end of the file is looked at. -/
  | accepted (serverKey : List UInt8)
  | appending (serverKey : List UInt8) (separator entry : String)
  /-- The password is sent. -/
  | trusted (serverKey : List UInt8)
  | authenticating (session : ConnectedSession)
  | working (session : ConnectedSession)
  | over
deriving DecidableEq

/-- A remote operation; what it brings is the session that it was done over. -/
structure HostKeyTask where
  target : SshTarget
  label : String
  phase : ConnectPhase
  pendingHostKey : Option HostKeyRequest
  /-- The request that a dialog shows. -/
  dialog : Option HostKeyRequest
  /-- The answer in the channel. -/
  decision : Option HostKeyDecision
  timedOut : Bool
  task : SshTask ConnectedSession

/-- What all operations share, and a log of what they did. -/
structure SharedHosts where
  file : String
  pool : List ConnectedSession
  /-- All texts that the file has had. -/
  texts : List String
  /-- The operations that posted a request. -/
  asked : List Nat
  /-- The operations whose dialog the user answered. -/
  answered : List Nat
  /-- The requests that the user answered with "Trust and connect", by the operation. -/
  trusted : List (Nat × HostKeyRequest)
  /-- The connections that a password was sent over. -/
  passwords : List (Nat × ConnectedSession)
  /-- What was appended to the file. -/
  entries : List (Nat × String)

/-- The libraries that a key is looked up with. -/
structure HostKeyLookups (KeyData : Type) where
  checkPort : String → String → UInt16 → List UInt8 → CheckResult
  check : String → String → List UInt8 → CheckResult
  parseLine : List Char → Option (Option (KnownHostEntry KeyData))
  publicKeyFromBytes : List UInt8 → Option KeyData
  hmacSha1 : List UInt8 → List UInt8 → Option (List UInt8)
  sha256Fingerprint : List UInt8 → String

inductive TaskMove where
  /-- A session is taken from the pool; it may have lost its authentication. -/
  | takePooled (place : Nat) (authenticated : Bool)
  | connect
  | handshake (serverKey : List UInt8)
  | lookUp
  | parse
  /-- The monitor shows the request, unless the window is gone. -/
  | poll (shown : Bool)
  | press (decision : HostKeyDecision)
  /-- The dialog goes away with its window. -/
  | dismiss
  | receive
  | waitTimesOut
  | disconnected
  | lookAtEnd
  | append
  /-- The write stops within the line. -/
  | tear (written : Nat) (message : String)
  | sendPassword
  | authenticate
  | work (error : Option String)
  /-- The connection, the server or a file gives an error. -/
  | fail (message : String)
  | advance
  | monitorTimesOut
  | monitorEnds
  | cancel

inductive HostMove where
  | spawn (target : SshTarget) (label : String)
  /-- Another program writes the file. -/
  | edit (text : String)
  | evict (place : Nat)
  | act (index : Nat) (move : TaskMove)

structure HostApprovals where
  shared : SharedHosts
  tasks : List HostKeyTask

def SshError.userMessage : SshError → String
  | .connectionFailed message => "Connection failed: " ++ message
  | .hostKeyMismatch host port =>
      "Host key mismatch for " ++ host ++ ":" ++ toString port.toNat ++
        " - possible MITM. Verify or update ~/.ssh/known_hosts."

namespace HostKeyLookups

variable {KeyData : Type}

def request (lookups : HostKeyLookups KeyData) (target : SshTarget) (serverKey : List UInt8) :
    HostKeyRequest := ⟨lookups.sha256Fingerprint serverKey, target.host, target.port⟩

def library (lookups : HostKeyLookups KeyData) (text : String) (target : SshTarget)
    (serverKey : List UInt8) : CheckResult :=
  resolveKnownHostCheckResult (fun host port => lookups.checkPort text host port serverKey)
    (fun host => lookups.check text host serverKey) target.host target.port

def checkKnownHostsWithParser [DecidableEq KeyData] (lookups : HostKeyLookups KeyData)
    (text : String) (target : SshTarget) (serverKey : List UInt8) : Option CheckResult :=
  (parseKnownHosts lookups.parseLine text).bind fun entries =>
    (lookups.publicKeyFromBytes serverKey).map fun key =>
      resolveKnownHostCheckResultFromEntries lookups.hmacSha1 entries target.host target.port key

end HostKeyLookups

namespace HostKeyTask

def spawned (target : SshTarget) (label : String) : HostKeyTask where
  target := target
  label := label
  phase := .checkout
  pendingHostKey := none
  dialog := none
  decision := none
  timedOut := false
  task := .spawned

/-- The operation is over; a wait that timed out is what it reports. -/
def ends (t : HostKeyTask) (outcome : Except String ConnectedSession) : Option HostKeyTask :=
  (t.task.works (if t.timedOut then .error (timeoutMessage t.label) else outcome)).map
    fun task => { t with phase := .over, task := task }

def rejected (t : HostKeyTask) : Option HostKeyTask :=
  t.ends (.error (SshError.connectionFailed
    ("Host key rejected for " ++ t.target.host ++ ":" ++ toString t.target.port.toNat)).userMessage)

variable {KeyData : Type} [DecidableEq KeyData]

def checked (lookups : HostKeyLookups KeyData) (shared : SharedHosts) (index : Nat)
    (t : HostKeyTask) (serverKey : List UInt8) (result : CheckResult) :
    Option (SharedHosts × HostKeyTask) :=
  match result with
  | .matched => some (shared, { t with phase := .trusted serverKey })
  | .mismatch =>
      (t.ends (.error (SshError.hostKeyMismatch t.target.host t.target.port).userMessage)).map
        (shared, ·)
  | .notFound | .failure =>
      some ({ shared with asked := shared.asked ++ [index] }, { t with
        phase := .waiting serverKey
        pendingHostKey := some (lookups.request t.target serverKey) })

/-- The worker goes on by itself or with what the server, a file or the channel gives it. -/
def workerStep (lookups : HostKeyLookups KeyData) (shared : SharedHosts) (index : Nat)
    (t : HostKeyTask) : TaskMove → Option (SharedHosts × HostKeyTask)
  | .takePooled place authenticated =>
      match t.phase, shared.pool[place]? with
      | .checkout, some session =>
          if session.target = t.target then
            some ({ shared with pool := shared.pool.eraseIdx place },
              { t with phase := if authenticated then .working session else .connecting })
          else none
      | _, _ => none
  | .connect =>
      match t.phase with
      | .checkout => some (shared, { t with phase := .connecting })
      | _ => none
  | .handshake serverKey =>
      match t.phase with
      | .connecting => some (shared, { t with phase := .handshaken serverKey })
      | _ => none
  | .lookUp =>
      match t.phase with
      | .handshaken serverKey =>
          some (shared, { t with
            phase := .lookedUp serverKey (lookups.library shared.file t.target serverKey) })
      | _ => none
  | .parse =>
      match t.phase with
      | .lookedUp serverKey primary =>
          t.checked lookups shared index serverKey (resolveWithKnownHostsFallback primary
            (lookups.checkKnownHostsWithParser shared.file t.target serverKey))
      | _ => none
  | .receive =>
      match t.phase, t.decision with
      | .waiting serverKey, some .accept =>
          some (shared, { t with phase := .accepted serverKey, decision := none })
      | .waiting _, some .reject => ({ t with decision := none }.rejected).map (shared, ·)
      | _, _ => none
  | .waitTimesOut =>
      match t.phase, t.decision with
      | .waiting _, none => ({ t with timedOut := true }.rejected).map (shared, ·)
      | _, _ => none
  | .disconnected =>
      match t.phase, t.pendingHostKey, t.dialog, t.decision with
      | .waiting _, none, none, none => t.rejected.map (shared, ·)
      | _, _, _, _ => none
  | .lookAtEnd =>
      match t.phase with
      | .accepted serverKey =>
          match knownHostsEntryLine (knownHostsEntryHost t.target.host t.target.port) serverKey with
          | .error error => (t.ends (.error error.userMessage)).map (shared, ·)
          | .ok entry =>
              some (shared, { t with
                phase := .appending serverKey
                  (if knownHostsEndsMidLine shared.file then "\n" else "") entry })
      | _ => none
  | .append =>
      match t.phase with
      | .appending serverKey separator entry =>
          let text := shared.file ++ (separator ++ entry ++ "\n")
          some ({ shared with
            file := text
            texts := shared.texts ++ [text]
            entries := shared.entries ++ [(index, entry)] },
            { t with phase := .trusted serverKey })
      | _ => none
  | .tear written message =>
      match t.phase with
      | .appending _ separator entry =>
          let text := shared.file ++ String.ofList ((separator ++ entry).toList.take written)
          (t.ends (.error message)).map
            ({ shared with file := text, texts := shared.texts ++ [text] }, ·)
      | _ => none
  | .sendPassword =>
      match t.phase with
      | .trusted serverKey =>
          let session : ConnectedSession := ⟨t.target, serverKey⟩
          some ({ shared with passwords := shared.passwords ++ [(index, session)] },
            { t with phase := .authenticating session })
      | _ => none
  | .authenticate =>
      match t.phase with
      | .authenticating session => some (shared, { t with phase := .working session })
      | _ => none
  | .work error =>
      match t.phase, error with
      | .working session, none =>
          (t.ends (.ok session)).map ({ shared with pool := shared.pool ++ [session] }, ·)
      | .working _, some message => (t.ends (.error message)).map (shared, ·)
      | _, _ => none
  | .fail message =>
      match t.phase with
      | .waiting _ | .working _ | .over => none
      | _ => (t.ends (.error message)).map (shared, ·)
  | .advance => t.task.advance.map fun (task, _) => (shared, { t with task := task })
  | _ => none

/-- The monitor takes the request out of its place, and the user sees its dialog. -/
def monitorStep (shared : SharedHosts) (index : Nat) (t : HostKeyTask) :
    TaskMove → Option (SharedHosts × HostKeyTask)
  | .poll shown =>
      if t.task.monitorDone || t.task.cancelFlag then none
      else match t.pendingHostKey with
        | some request => some (shared, { t with
            pendingHostKey := none
            dialog := if shown then some request else none })
        | none => some (shared, t)
  | .press decision =>
      match t.dialog, decision with
      | some request, .accept =>
          some ({ shared with
            answered := shared.answered ++ [index]
            trusted := shared.trusted ++ [(index, request)] },
            { t with dialog := none, decision := some .accept })
      | some _, .reject =>
          some ({ shared with answered := shared.answered ++ [index] },
            { t with dialog := none, decision := some .reject })
      | none, _ => none
  | .dismiss => if t.dialog.isSome then some (shared, { t with dialog := none }) else none
  | .monitorTimesOut =>
      if t.task.monitorDone || t.task.cancelFlag then none
      else
        let task := (t.task.timeOut t.label).1
        let t := { t with task := { task with monitorDone := true } }
        match t.pendingHostKey with
        | some _ => some (shared, { t with pendingHostKey := none, decision := some .reject })
        | none => some (shared, t)
  | .monitorEnds =>
      if !t.task.monitorDone && (t.task.finished || t.task.cancelFlag) then
        some (shared, { t with task := { t.task with monitorDone := true } })
      else none
  | .cancel => t.task.cancel.map fun task => (shared, { t with task := task })
  | _ => none

def step (lookups : HostKeyLookups KeyData) (shared : SharedHosts) (index : Nat) (t : HostKeyTask)
    (move : TaskMove) : Option (SharedHosts × HostKeyTask) :=
  (t.workerStep lookups shared index move).or (t.monitorStep shared index move)

end HostKeyTask

namespace HostApprovals

variable {KeyData : Type} [DecidableEq KeyData]

def start (file : String) : HostApprovals := ⟨⟨file, [], [file], [], [], [], [], []⟩, []⟩

def step (lookups : HostKeyLookups KeyData) (s : HostApprovals) : HostMove → Option HostApprovals
  | .spawn target label => some { s with tasks := s.tasks ++ [.spawned target label] }
  | .edit text => some { s with
      shared := { s.shared with file := text, texts := s.shared.texts ++ [text] } }
  | .evict place => some { s with
      shared := { s.shared with pool := s.shared.pool.eraseIdx place } }
  | .act index move =>
      s.tasks[index]?.bind fun t => (t.step lookups s.shared index move).map
        fun (shared, t) => ⟨shared, s.tasks.set index t⟩

end HostApprovals

end Fulgur
