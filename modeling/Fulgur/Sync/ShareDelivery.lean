import Mathlib.Algebra.Group.Nat.Defs
import Mathlib.Logic.Function.Basic

/-! # Receiving shares from the sync server

The server keeps a share until it is acknowledged or expires, and announces it
as often as it likes. Doorbells and reconnect catch-ups fetch announced shares
one by one; an initial synchronization fetches all listed ones in parallel and
queues them together. A decryption pass, one at a time, takes the queue, opens
what it can decrypt and acknowledges it.
-/

namespace Fulgur

/-- A share as the server sends it, still encrypted. -/
structure SharedFileResponse where
  id : String
  fileName : String
  content : String
deriving DecidableEq

/-- A decrypted share waiting to be opened. -/
structure DecryptedShare where
  shareId : String
  fileName : String
  content : String
deriving DecidableEq

/-- How far one fetch of a share has come. -/
inductive FetchStage where
  | announced
  /-- Asked for, under the size limit known at that moment. -/
  | requested (serverMaxFileSize : Nat)
  | fetched (share : SharedFileResponse)
  /-- Its id is in the acknowledgement set, it is not queued yet. -/
  | registered (share : SharedFileResponse)
deriving DecidableEq

/-- One fetch: by a doorbell, or as part of an initial synchronization. -/
structure FetchTask where
  initialSync : Option Nat
  shareId : String
  stage : FetchStage
deriving DecidableEq

namespace FetchTask

/-- The share a fetch of this synchronization brought back. -/
def syncShare (sync : Nat) (fetch : FetchTask) : Option SharedFileResponse :=
  if fetch.initialSync = some sync then
    match fetch.stage with
    | .fetched share => some share
    | .registered share => some share
    | _ => none
  else none

def isDone (fetch : FetchTask) : Bool :=
  match fetch.stage with
  | .fetched _ => true
  | _ => false

def isRegistered (fetch : FetchTask) : Bool :=
  match fetch.stage with
  | .registered _ => true
  | _ => false

def registerIn (sync : Nat) (fetch : FetchTask) : FetchTask :=
  if fetch.initialSync = some sync then
    match fetch.stage with
    | .fetched share => { fetch with stage := .registered share }
    | _ => fetch
  else fetch

end FetchTask

/-- A decryption pass over the shares it took from the queue. -/
structure DecryptionPass where
  /-- The size limit as it was when the pass began. -/
  serverMaxFileSize : Nat
  todo : List SharedFileResponse
  retryQueue : List SharedFileResponse
  decryptedIds : List String
  /-- Ids still to acknowledge, once the retries are back in the queue. -/
  idsToAck : Option (List String)
deriving DecidableEq

def U64_MAX : Nat := 2 ^ 64 - 1

def MAX_SYNC_SHARE_PAYLOAD_BYTES : Nat := 1024 * 1024

def MAX_DECRYPT_ATTEMPTS : Nat := 5

/-- Whether an encrypted payload is over twice the server's limit. -/
def sharePayloadExceedsLimit (contentLen serverMaxFileSize : Nat) : Bool :=
  serverMaxFileSize ≠ U64_MAX && min (serverMaxFileSize * 2) U64_MAX < contentLen

def resolveServerMaxFileSize : Option Nat → Nat
  | none => U64_MAX
  | some 0 => MAX_SYNC_SHARE_PAYLOAD_BYTES
  | some n => n

/-- The server and the receiving side of one profile. -/
structure ShareDelivery where
  /-- Shares the server can still deliver. -/
  available : String → Option SharedFileResponse
  /-- Every id the server ever used. -/
  posted : List String
  fetches : List FetchTask
  pendingSharedFiles : List SharedFileResponse
  pendingAckShareIds : List String
  /-- Failed decryption attempts by share id. -/
  shareRetryState : String → Option Nat
  maxFileSizeBytes : Nat
  decryptInFlight : Option DecryptionPass
  pendingDecryptedFiles : List DecryptedShare
  /-- Share ids opened in a tab, in the order of the tabs. -/
  opened : List String

namespace ShareDelivery

def start : ShareDelivery where
  available := fun _ => none
  posted := []
  fetches := []
  pendingSharedFiles := []
  pendingAckShareIds := []
  shareRetryState := fun _ => none
  maxFileSizeBytes := U64_MAX
  decryptInFlight := none
  pendingDecryptedFiles := []
  opened := []

/-! ## The server -/

/-- A new share; the server uses each id once. -/
def post (s : ShareDelivery) (share : SharedFileResponse) : Option ShareDelivery :=
  if share.id ∈ s.posted then none
  else some { s with
    available := Function.update s.available share.id (some share)
    posted := share.id :: s.posted }

/-- The server no longer delivers a share. -/
def consume (s : ShareDelivery) (id : String) : ShareDelivery :=
  { s with available := Function.update s.available id none }

/-! ## Fetching -/

def replaceFetch (s : ShareDelivery) (fetch : FetchTask) (stage : FetchStage) : ShareDelivery :=
  { s with fetches := { fetch with stage := stage } :: s.fetches.erase fetch }

def dropFetch (s : ShareDelivery) (fetch : FetchTask) : ShareDelivery :=
  { s with fetches := s.fetches.erase fetch }

/-- Start a fetch; only a doorbell skips an id that awaits acknowledgement. -/
def request (s : ShareDelivery) (fetch : FetchTask) : Option ShareDelivery :=
  if fetch ∈ s.fetches ∧ fetch.stage = .announced then
    if fetch.initialSync = none ∧ fetch.shareId ∈ s.pendingAckShareIds then some (s.dropFetch fetch)
    else some (s.replaceFetch fetch (.requested s.maxFileSizeBytes))
  else none

/-- The server answers a fetch; a doorbell drops an oversized payload. -/
def respond (s : ShareDelivery) (fetch : FetchTask) : Option ShareDelivery :=
  match fetch.stage, s.available fetch.shareId with
  | .requested serverMaxFileSize, some share =>
      if fetch ∈ s.fetches then
        if fetch.initialSync = none ∧
            sharePayloadExceedsLimit share.content.utf8ByteSize serverMaxFileSize = true then
          some (s.dropFetch fetch)
        else some (s.replaceFetch fetch (.fetched share))
      else none
  | _, _ => none

def fail (s : ShareDelivery) (fetch : FetchTask) : Option ShareDelivery :=
  match fetch.stage with
  | .requested _ => if fetch ∈ s.fetches then some (s.dropFetch fetch) else none
  | _ => none

def register (s : ShareDelivery) (fetch : FetchTask) : Option ShareDelivery :=
  match fetch.stage with
  | .fetched share =>
      if fetch ∈ s.fetches ∧ fetch.initialSync = none then
        some { s.replaceFetch fetch (.registered share) with
          pendingAckShareIds := share.id :: s.pendingAckShareIds }
      else none
  | _ => none

def push (s : ShareDelivery) (fetch : FetchTask) : Option ShareDelivery :=
  match fetch.stage with
  | .registered share =>
      if fetch ∈ s.fetches ∧ fetch.initialSync = none then
        some { s.dropFetch fetch with pendingSharedFiles := s.pendingSharedFiles ++ [share] }
      else none
  | _ => none

/-! ## Initial synchronization -/

def beginSync (s : ShareDelivery) (sync : Nat) (shareIds : List String) : Option ShareDelivery :=
  if s.fetches.any fun fetch => fetch.initialSync = some sync then none
  else some { s with
    fetches := s.fetches ++ shareIds.map fun id => ⟨some sync, id, .announced⟩ }

def registerSync (s : ShareDelivery) (sync : Nat) : Option ShareDelivery :=
  if s.fetches.all fun fetch => fetch.initialSync ≠ some sync || FetchTask.isDone fetch then
    some { s with
      fetches := s.fetches.map (FetchTask.registerIn sync)
      pendingAckShareIds :=
        (s.fetches.filterMap (FetchTask.syncShare sync)).map (·.id) ++ s.pendingAckShareIds }
  else none

def queuePendingShares (pending shares : List SharedFileResponse) : List SharedFileResponse :=
  pending ++ shares.filter fun share => !(pending.map (·.id)).contains share.id

def applySync (s : ShareDelivery) (sync : Nat) (advertised : Option Nat) : Option ShareDelivery :=
  if s.fetches.all fun fetch => fetch.initialSync ≠ some sync || FetchTask.isRegistered fetch then
    some { s with
      maxFileSizeBytes := resolveServerMaxFileSize advertised
      pendingSharedFiles :=
        queuePendingShares s.pendingSharedFiles (s.fetches.filterMap (FetchTask.syncShare sync))
      fetches := s.fetches.filter fun fetch => fetch.initialSync ≠ some sync }
  else none

/-! ## Decryption -/

/-- Whether a share's retry time has come; `late` are the ids whose delay is over. -/
def isDue (s : ShareDelivery) (late : List String) (share : SharedFileResponse) : Bool :=
  (s.shareRetryState share.id).isNone || late.contains share.id

/-- Start a pass over the shares that are due, unless one is running. -/
def startPass (s : ShareDelivery) (late : List String) : Option ShareDelivery :=
  if s.decryptInFlight.isSome then none
  else
    let due := s.pendingSharedFiles.filter (s.isDue late)
    if due = [] then none
    else some { s with
      pendingSharedFiles := s.pendingSharedFiles.filter fun share => !s.isDue late share
      decryptInFlight := some ⟨s.maxFileSizeBytes, due, [], [], none⟩ }

/-- The private key cannot be loaded: the whole batch is deferred. -/
def deferBatchForKeyRetry (s : ShareDelivery) : Option ShareDelivery :=
  match s.decryptInFlight with
  | some ⟨serverMaxFileSize, todo, [], [], none⟩ =>
      some { s with
        shareRetryState := fun id =>
          if todo.any fun share => share.id = id then some ((s.shareRetryState id).getD 0)
          else s.shareRetryState id
        decryptInFlight := some ⟨serverMaxFileSize, [], todo, [], none⟩ }
  | _ => none

/-- Decrypt the next share of the pass; `decoded` is its plaintext when that succeeds. -/
def decryptNext (s : ShareDelivery) (decoded : Option String) : Option ShareDelivery :=
  match s.decryptInFlight with
  | some ⟨serverMaxFileSize, share :: todo, retryQueue, decryptedIds, none⟩ =>
      let pass : DecryptionPass := ⟨serverMaxFileSize, todo, retryQueue, decryptedIds, none⟩
      if sharePayloadExceedsLimit share.content.utf8ByteSize serverMaxFileSize then
        some { s with decryptInFlight := some pass }
      else match decoded with
        | some content =>
            some { s with
              pendingDecryptedFiles :=
                s.pendingDecryptedFiles ++ [⟨share.id, share.fileName, content⟩]
              shareRetryState := Function.update s.shareRetryState share.id none
              decryptInFlight := some { pass with decryptedIds := decryptedIds ++ [share.id] } }
        | none =>
            let attempts := (s.shareRetryState share.id).getD 0 + 1
            if MAX_DECRYPT_ATTEMPTS ≤ attempts then
              -- quarantined: the id stays in the acknowledgement set
              some { s with
                shareRetryState := Function.update s.shareRetryState share.id none
                decryptInFlight := some pass }
            else some { s with
              shareRetryState := Function.update s.shareRetryState share.id (some attempts)
              decryptInFlight := some { pass with retryQueue := retryQueue ++ [share] } }
  | _ => none

/-- Put the retries back in front of the queue and see which ids to acknowledge. -/
def requeue (s : ShareDelivery) : Option ShareDelivery :=
  match s.decryptInFlight with
  | some ⟨serverMaxFileSize, [], retryQueue, decryptedIds, none⟩ =>
      some { s with
        pendingSharedFiles := retryQueue ++ s.pendingSharedFiles
        decryptInFlight :=
          some ⟨serverMaxFileSize, [], [], decryptedIds,
            some (decryptedIds.filter fun id => s.pendingAckShareIds.contains id)⟩ }
  | _ => none

end ShareDelivery

/-- How an acknowledgement ends: done, lost on its way back, or never arrived. -/
inductive AckResult where
  | acknowledged
  | responseLost
  | failed
deriving DecidableEq

namespace ShareDelivery

/-- Acknowledge the next share; a failed one stays in the set and on the server. -/
def acknowledgeNext (s : ShareDelivery) (result : AckResult) : Option ShareDelivery :=
  match s.decryptInFlight with
  | some ⟨serverMaxFileSize, [], [], decryptedIds, some (id :: rest)⟩ =>
      let next := { s with
        decryptInFlight := some ⟨serverMaxFileSize, [], [], decryptedIds, some rest⟩ }
      match result with
      | .acknowledged =>
          some { next.consume id with
            pendingAckShareIds := s.pendingAckShareIds.filter fun other => other ≠ id }
      | .responseLost => some (next.consume id)
      | .failed => some next
  | _ => none

def endPass (s : ShareDelivery) : Option ShareDelivery :=
  match s.decryptInFlight with
  | some ⟨_, [], [], _, some []⟩ => some { s with decryptInFlight := none }
  | _ => none

/-- The UI opens everything that has finished decrypting. -/
def processSharedFiles (s : ShareDelivery) : ShareDelivery :=
  { s with
    opened := s.opened ++ s.pendingDecryptedFiles.map (·.shareId)
    pendingDecryptedFiles := [] }

end ShareDelivery

inductive ShareAction where
  | post (share : SharedFileResponse)
  | expire (id : String)
  | announce (id : String)
  | beginSync (sync : Nat) (shareIds : List String)
  | request (fetch : FetchTask)
  | respond (fetch : FetchTask)
  | fail (fetch : FetchTask)
  | register (fetch : FetchTask)
  | push (fetch : FetchTask)
  | registerSync (sync : Nat)
  | applySync (sync : Nat) (advertised : Option Nat)
  | startPass (late : List String)
  | keyUnavailable
  | decrypt (decoded : Option String)
  | requeue
  | acknowledge (result : AckResult)
  | endPass
  | openDecrypted

namespace ShareDelivery

def step (s : ShareDelivery) : ShareAction → Option ShareDelivery
  | .post share => s.post share
  | .expire id => some (s.consume id)
  | .announce id => some { s with fetches := s.fetches ++ [⟨none, id, .announced⟩] }
  | .beginSync sync shareIds => s.beginSync sync shareIds
  | .request fetch => s.request fetch
  | .respond fetch => s.respond fetch
  | .fail fetch => s.fail fetch
  | .register fetch => s.register fetch
  | .push fetch => s.push fetch
  | .registerSync sync => s.registerSync sync
  | .applySync sync advertised => s.applySync sync advertised
  | .startPass late => s.startPass late
  | .keyUnavailable => s.deferBatchForKeyRetry
  | .decrypt decoded => s.decryptNext decoded
  | .requeue => s.requeue
  | .acknowledge result => s.acknowledgeNext result
  | .endPass => s.endPass
  | .openDecrypted => some s.processSharedFiles

end ShareDelivery

end Fulgur
