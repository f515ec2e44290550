import Fulgur.Sync.ShareDelivery

/-! # The decryption queue of a profile

Fetched shares wait in a queue. A background pass takes those whose retry time
has come, decodes them one by one and puts back what failed; failures are counted
by share id, and a share that failed too often is given up. The clock is read
anew wherever the code reads it; nothing is assumed about what it shows.
-/

namespace Fulgur

/-- A share on its way through the queue: the number it entered with and its failed decodes. -/
structure QueuedShare where
  entry : Nat
  share : SharedFileResponse
  failures : Nat
deriving DecidableEq

/-- Retry bookkeeping for a share that failed to decode. Times are in milliseconds. -/
structure ShareRetryState where
  attempts : Nat
  nextRetryAt : Nat
deriving DecidableEq

/-- How a share leaves the queue for good. -/
inductive ShareExit where
  | decrypted (content : String)
  | oversized (serverMaxSize : Nat)
  | quarantined
deriving DecidableEq

/-- How far a pass has come. -/
inductive PassStage where
  | spawned
  /-- The size limit and the time are read. -/
  | timed (serverMaxSize now : Nat)
  | taken (serverMaxSize : Nat) (sharedFiles : List QueuedShare)
  | decoding (serverMaxSize : Nat) (sharedFiles retryQueue : List QueuedShare)
  /-- What failed is back in the queue; acknowledgements may still be sent. -/
  | ended
deriving DecidableEq

namespace PassStage

def batch : PassStage → List QueuedShare
  | .taken _ sharedFiles => sharedFiles
  | .decoding _ sharedFiles retryQueue => sharedFiles ++ retryQueue
  | _ => []

end PassStage

inductive KeyLoad where
  | loaded
  | unavailable
  | failed
deriving DecidableEq

def DECRYPT_RETRY_BASE_DELAY : Nat := 2000

def KEY_RETRY_DELAY : Nat := 5000

def backoffDelay (attempts : Nat) : Nat := DECRYPT_RETRY_BASE_DELAY * 2 ^ min (attempts - 1) 16

/-- The receiving side of a profile, with all that ever entered its queue and left it. -/
structure ProfileQueue where
  pendingSharedFiles : List QueuedShare
  shareRetryState : String → Option ShareRetryState
  maxFileSizeBytes : Nat
  decryptInFlight : Bool
  /-- Callers that saw a share to be due and have not reached for the flag yet. -/
  callers : Nat
  passes : List PassStage
  pendingDecryptedFiles : List DecryptedShare
  opened : List DecryptedShare
  entered : List SharedFileResponse
  left : List (QueuedShare × ShareExit)

namespace ProfileQueue

def launched : ProfileQueue where
  pendingSharedFiles := []
  shareRetryState := fun _ => none
  maxFileSizeBytes := U64_MAX
  decryptInFlight := false
  callers := 0
  passes := []
  pendingDecryptedFiles := []
  opened := []
  entered := []
  left := []

/-! ## Queueing -/

def numbered (first : Nat) (shares : List SharedFileResponse) : List QueuedShare :=
  shares.mapIdx fun i share => ⟨first + i, share, 0⟩

def enter (s : ProfileQueue) (shares : List SharedFileResponse) : ProfileQueue :=
  { s with
    pendingSharedFiles := s.pendingSharedFiles ++ numbered s.entered.length shares
    entered := s.entered ++ shares }

def queuePendingShares (s : ProfileQueue) (shares : List SharedFileResponse) : ProfileQueue :=
  s.enter (shares.filter fun share =>
    !(s.pendingSharedFiles.map (·.share.id)).contains share.id)

theorem numbered_shares (first : Nat) (shares : List SharedFileResponse) :
    (numbered first shares).map QueuedShare.share = shares := by
  refine List.ext_getElem? fun i => ?_
  by_cases hi : i < shares.length <;> simp [numbered, hi]

theorem queuePendingShares_shares (s : ProfileQueue) (shares : List SharedFileResponse) :
    (s.queuePendingShares shares).pendingSharedFiles.map QueuedShare.share =
      ShareDelivery.queuePendingShares (s.pendingSharedFiles.map QueuedShare.share) shares := by
  simp only [queuePendingShares, enter, List.map_append, numbered_shares, List.map_map,
    ShareDelivery.queuePendingShares]
  rfl

def push (s : ProfileQueue) (share : SharedFileResponse) : ProfileQueue := s.enter [share]

/-! ## Starting a pass -/

def isDue (retryState : String → Option ShareRetryState) (now : Nat) (queued : QueuedShare) :
    Bool :=
  (retryState queued.share.id).all fun retry => retry.nextRetryAt ≤ now

def anyShareDue (s : ProfileQueue) (now : Nat) : Bool :=
  s.pendingSharedFiles.any (isDue s.shareRetryState now)

/-- The first half of `start_decryption_if_idle`: look for a share that is due. -/
def checkDue (s : ProfileQueue) (now : Nat) : ProfileQueue :=
  if s.anyShareDue now then { s with callers := s.callers + 1 } else s

/-- The second half: whoever turns the flag starts a thread. -/
def claim (s : ProfileQueue) : Option ProfileQueue :=
  if s.callers = 0 then none
  else
    let s := { s with callers := s.callers - 1 }
    if s.decryptInFlight then some s
    else some { s with decryptInFlight := true, passes := s.passes ++ [.spawned] }

/-! ## A pass -/

def setPass (s : ProfileQueue) (index : Nat) (stage : PassStage) : ProfileQueue :=
  { s with passes := s.passes.set index stage }

def readLimit (s : ProfileQueue) (index now : Nat) : Option ProfileQueue :=
  match s.passes[index]? with
  | some .spawned => some (s.setPass index (.timed s.maxFileSizeBytes now))
  | _ => none

/-- Take the shares that are due; without any the pass is over. -/
def takeDue (s : ProfileQueue) (index : Nat) : Option ProfileQueue :=
  match s.passes[index]? with
  | some (.timed serverMaxSize now) =>
      let due := s.pendingSharedFiles.filter (isDue s.shareRetryState now)
      let deferred := s.pendingSharedFiles.filter fun queued => !isDue s.shareRetryState now queued
      some ({ s with pendingSharedFiles := deferred }.setPass index
        (if due = [] then .ended else .taken serverMaxSize due))
  | _ => none

def deferRetry (nextRetryAt : Nat) (retryState : String → Option ShareRetryState)
    (queued : QueuedShare) : String → Option ShareRetryState :=
  Function.update retryState queued.share.id
    (some (match retryState queued.share.id with
      | some retry => { retry with nextRetryAt := nextRetryAt }
      | none => ⟨0, nextRetryAt⟩))

/-- Push the next retries out, without counting an attempt. -/
def deferBatchForKeyRetry (retryState : String → Option ShareRetryState)
    (sharedFiles : List QueuedShare) (nextRetryAt : Nat) : String → Option ShareRetryState :=
  sharedFiles.foldl (deferRetry nextRetryAt) retryState

def loadPrivateKey (s : ProfileQueue) (index : Nat) (key : KeyLoad) (now : Nat) :
    Option ProfileQueue :=
  match s.passes[index]? with
  | some (.taken serverMaxSize sharedFiles) =>
      match key with
      | .loaded => some (s.setPass index (.decoding serverMaxSize sharedFiles []))
      | _ =>
          some ({ s with
            shareRetryState :=
              deferBatchForKeyRetry s.shareRetryState sharedFiles (now + KEY_RETRY_DELAY)
          }.setPass index (.decoding serverMaxSize [] sharedFiles))
  | _ => none

def attempts (s : ProfileQueue) (id : String) : Nat :=
  ((s.shareRetryState id).map ShareRetryState.attempts).getD 0

def handOver (s : ProfileQueue) (decrypted : DecryptedShare) : ProfileQueue :=
  { s with pendingDecryptedFiles := s.pendingDecryptedFiles ++ [decrypted] }

def leave (s : ProfileQueue) (queued : QueuedShare) (exit : ShareExit) : ProfileQueue :=
  { s with left := s.left ++ [(queued, exit)] }

def setRetry (s : ProfileQueue) (id : String) (retry : Option ShareRetryState) : ProfileQueue :=
  { s with shareRetryState := Function.update s.shareRetryState id retry }

/-- Decode the next share of the pass; `decoded` is its plaintext when that succeeds. -/
def decodeNext (s : ProfileQueue) (index : Nat) (decoded : Option String) (now : Nat) :
    Option ProfileQueue :=
  match s.passes[index]? with
  | some (.decoding serverMaxSize (queued :: sharedFiles) retryQueue) =>
      let id := queued.share.id
      let rest := s.setPass index (.decoding serverMaxSize sharedFiles retryQueue)
      if sharePayloadExceedsLimit queued.share.content.utf8ByteSize serverMaxSize then
        some (rest.leave queued (.oversized serverMaxSize))
      else match decoded with
        | some content =>
            some (rest.handOver ⟨id, queued.share.fileName, content⟩ |>.setRetry id none
              |>.leave queued (.decrypted content))
        | none =>
            let failed := { queued with failures := queued.failures + 1 }
            let attempts := s.attempts id + 1
            if MAX_DECRYPT_ATTEMPTS ≤ attempts then
              some (rest.setRetry id none |>.leave failed .quarantined)
            else
              some ((s.setRetry id (some ⟨attempts, now + backoffDelay attempts⟩)).setPass index
                (.decoding serverMaxSize sharedFiles (retryQueue ++ [failed])))
  | _ => none

/-- What failed goes back in front of what was queued meanwhile. -/
def requeue (s : ProfileQueue) (index : Nat) : Option ProfileQueue :=
  match s.passes[index]? with
  | some (.decoding _ [] retryQueue) =>
      some ({ s with
        pendingSharedFiles := retryQueue ++ s.pendingSharedFiles }.setPass index .ended)
  | _ => none

/-- The thread gives the flag back. -/
def finishPass (s : ProfileQueue) (index : Nat) : Option ProfileQueue :=
  match s.passes[index]? with
  | some .ended => some { s with passes := s.passes.eraseIdx index, decryptInFlight := false }
  | _ => none

/-! ## The UI -/

def processSharedFiles (s : ProfileQueue) : ProfileQueue :=
  { s with opened := s.opened ++ s.pendingDecryptedFiles, pendingDecryptedFiles := [] }

end ProfileQueue

inductive QueueAction where
  | queuePendingShares (shares : List SharedFileResponse)
  | push (share : SharedFileResponse)
  | limitAdvertised (maxFileSizeBytes : Nat)
  | checkDue (now : Nat)
  | claim
  | readLimit (index now : Nat)
  | takeDue (index : Nat)
  | loadPrivateKey (index : Nat) (key : KeyLoad) (now : Nat)
  | decodeNext (index : Nat) (decoded : Option String) (now : Nat)
  | requeue (index : Nat)
  | finishPass (index : Nat)
  | processSharedFiles

namespace ProfileQueue

def step (s : ProfileQueue) : QueueAction → Option ProfileQueue
  | .queuePendingShares shares => some (s.queuePendingShares shares)
  | .push share => some (s.push share)
  | .limitAdvertised maxFileSizeBytes => some { s with maxFileSizeBytes := maxFileSizeBytes }
  | .checkDue now => some (s.checkDue now)
  | .claim => s.claim
  | .readLimit index now => s.readLimit index now
  | .takeDue index => s.takeDue index
  | .loadPrivateKey index key now => s.loadPrivateKey index key now
  | .decodeNext index decoded now => s.decodeNext index decoded now
  | .requeue index => s.requeue index
  | .finishPass index => s.finishPass index
  | .processSharedFiles => some s.processSharedFiles

end ProfileQueue

end Fulgur
