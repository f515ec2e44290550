import Fulgur.Library.Fallible
import Fulgur.Library.WorkQueue
import Fulgur.Sync.ShareDelivery
import Fulgur.Sync.SseFraming

/-! # The initial synchronization

The server announces the shares that wait for this device. Up to eight workers
fetch them, each taking the next announced id from a shared counter; a share
that cannot be fetched is skipped. The ids of the shares that were fetched are
then registered as shares to acknowledge.
-/

namespace Fulgur

open LabelledRun WorkQueue

def MAX_FETCH_WORKERS : Nat := 8

def MAX_PENDING_SHARES_PER_RESPONSE : Nat := 1024

def MIN_SUPPORTED_FULGURANT_VERSION : Nat × Nat := (0, 8)

def MIN_SUPPORTED_FULGURANT_VERSION_DISPLAY : String := "0.8.0"

structure BeginV2Response where
  deviceName : String
  shareIds : List String
  maxFileSizeBytes : Option Nat
  minFulgurVersion : Option String
deriving DecidableEq

/-- The parsers that the client does not have itself. -/
structure BeginParsers where
  /-- The major and the minor number of a semantic version. -/
  semver : String → Option (Nat × Nat)
  json : String → Except String BeginV2Response

/-- An answer whose status is no error; its body may be too long to be read. -/
structure HttpResponse where
  versionHeader : Option String
  body : Except String String

inductive BeginFailure where
  | serverUrlMissing
  | missingEncryptionKey
  /-- No token, or no answer. -/
  | request (error : String)
  | serverTooOld (required : String)
  | other (error : String)
  | invalidResponse (error : String)
deriving DecidableEq

structure BeginResponseOutcome where
  response : BeginV2Response
  versionHeader : Option String
deriving DecidableEq

def parseFulgurantVersion (parsers : BeginParsers) (versionHeader : Option String) :
    Option (Nat × Nat) :=
  versionHeader.bind fun raw => parsers.semver (trimStartMatches (trim raw) "v")

def serverMeetsMinimumVersion (parsers : BeginParsers) (versionHeader : Option String) : Bool :=
  match parseFulgurantVersion parsers versionHeader with
  | some (major, minor) =>
      MIN_SUPPORTED_FULGURANT_VERSION.1 < major ||
        (major = MIN_SUPPORTED_FULGURANT_VERSION.1 && MIN_SUPPORTED_FULGURANT_VERSION.2 ≤ minor)
  | none => false

/-- `sent` is what the token and the request for it came to. -/
def performBegin (parsers : BeginParsers) (serverUrl publicKey : Option String)
    (sent : Except String HttpResponse) : Except BeginFailure BeginResponseOutcome :=
  if serverUrl.isNone then .error .serverUrlMissing
  else if publicKey.isNone then .error .missingEncryptionKey
  else do
    let response ← sent.mapError .request
    if serverMeetsMinimumVersion parsers response.versionHeader = false then
      .error (.serverTooOld MIN_SUPPORTED_FULGURANT_VERSION_DISPLAY)
    else do
      let body ← response.body.mapError .other
      let answer ← (parsers.json body).mapError .invalidResponse
      if MAX_PENDING_SHARES_PER_RESPONSE < answer.shareIds.length then
        .error (.invalidResponse ("Server returned too many pending share ids (" ++
          toString answer.shareIds.length ++ " > " ++
          toString MAX_PENDING_SHARES_PER_RESPONSE ++ ")"))
      else .ok ⟨answer, response.versionHeader⟩

/-- The workers of `fetch_shares_for_ids`; no ids need none. -/
def fetchWorkers (shareIds : List String) : WorkQueue String SharedFileResponse :=
  WorkQueue.start (min MAX_FETCH_WORKERS shareIds.length)

structure InitialSyncOutcome where
  deviceName : String
  shares : List SharedFileResponse
  maxFileSizeBytes : Option Nat
  minFulgurVersion : Option String
  fulgurantVersion : Option String
deriving DecidableEq

/-- `HashSet::insert`. -/
def insertId (ids : List String) (id : String) : List String :=
  if id ∈ ids then ids else id :: ids

/-- The end of `initial_synchronization`, once all workers have stopped. -/
def initialSynchronization (begun : BeginResponseOutcome) (pendingAckShareIds : List String)
    (fetched : WorkQueue String SharedFileResponse) : Option (InitialSyncOutcome × List String) :=
  if fetched.finished then
    some (⟨begun.response.deviceName, fetched.results, begun.response.maxFileSizeBytes,
        begun.response.minFulgurVersion, begun.versionHeader⟩,
      (fetched.results.map SharedFileResponse.id).foldl insertId pendingAckShareIds)
  else none

/-- An answer is only taken from a recent enough server, and with at most so many shares. -/
theorem performBegin_ok {parsers : BeginParsers} {serverUrl publicKey : Option String}
    {sent : Except String HttpResponse} {begun : BeginResponseOutcome}
    (h : performBegin parsers serverUrl publicKey sent = .ok begun) :
    serverMeetsMinimumVersion parsers begun.versionHeader = true ∧
      begun.response.shareIds.length ≤ MAX_PENDING_SHARES_PER_RESPONSE := by
  unfold performBegin at h
  split at h
  · cases h
  split at h
  · cases h
  obtain ⟨response, -, h⟩ := Fallible.bind_eq_ok.mp h
  split at h
  · cases h
  rename_i hversion
  obtain ⟨body, -, h⟩ := Fallible.bind_eq_ok.mp h
  obtain ⟨answer, -, h⟩ := Fallible.bind_eq_ok.mp h
  split at h
  · cases h
  rename_i hcount
  cases h
  exact ⟨by simpa using hversion, Nat.le_of_not_lt hcount⟩

theorem mem_insertId {ids : List String} {id other : String} :
    id ∈ insertId ids other ↔ id ∈ ids ∨ id = other := by
  unfold insertId
  split
  · rename_i hmem
    constructor
    · exact Or.inl
    · intro h
      cases h with
      | inl hid => exact hid
      | inr hid => exact hid ▸ hmem
  · rw [List.mem_cons, or_comm]

theorem mem_foldl_insertId (ids new : List String) (id : String) :
    id ∈ new.foldl insertId ids ↔ id ∈ ids ∨ id ∈ new := by
  induction new generalizing ids with
  | nil => simp
  | cons first new ih => rw [List.foldl_cons, ih, mem_insertId, List.mem_cons, or_assoc]

theorem filterMap_done {shareIds : List String} {done : List (String × Option SharedFileResponse)}
    (hdone : (done.map Prod.fst).Perm shareIds) {fetch : String → Option SharedFileResponse}
    (hfetch : ∀ answered ∈ done, answered.2 = fetch answered.1) :
    (done.filterMap Prod.snd).Perm (shareIds.filterMap fetch) := by
  refine List.Perm.trans ?_ (hdone.filterMap fetch)
  rw [List.filterMap_map]
  have hsame : done.filterMap Prod.snd = done.filterMap (fetch ∘ Prod.fst) :=
    List.filterMap_congr hfetch
  rw [hsame]

/--
However the workers interleave and whatever each fetch comes to: never more than
eight requests are under way, no worker waits for another, and all of them stop
after a bounded number of steps. Every announced share was then requested exactly
once; the shares that came back are what the requests brought, the same as if they
had been fetched one after the other, and exactly their ids are registered.
-/
theorem initial_synchronization_fetches {parsers : BeginParsers}
    {serverUrl publicKey : Option String} {sent : Except String HttpResponse}
    {begun : BeginResponseOutcome}
    (hbegin : performBegin parsers serverUrl publicKey sent = .ok begun)
    {moves : List (Nat × WorkerMove SharedFileResponse)} {s : WorkQueue String SharedFileResponse}
    (hrun : run (step begun.response.shareIds) (fetchWorkers begun.response.shareIds) moves =
      some s) :
    s.inHand.length ≤ MAX_FETCH_WORKERS ∧
    moves.length ≤ 3 * begun.response.shareIds.length + MAX_FETCH_WORKERS ∧
    (∀ worker phase, s.workers[worker]? = some phase → phase.isStopped = false →
      (∃ s', step begun.response.shareIds s (worker, .draw) = some s') ∨
      (∀ answer, ∃ s', step begun.response.shareIds s (worker, .finish answer) = some s') ∨
      ∃ s', step begun.response.shareIds s (worker, .push) = some s') ∧
    ∀ pendingAckShareIds outcome registered,
      initialSynchronization begun pendingAckShareIds s = some (outcome, registered) →
        (s.done.map Prod.fst).Perm begun.response.shareIds ∧
        outcome.shares.Perm (s.done.filterMap Prod.snd) ∧
        (∀ id, id ∈ registered ↔
          id ∈ pendingAckShareIds ∨ ∃ share ∈ outcome.shares, share.id = id) ∧
        ∀ fetch, (∀ answered ∈ s.done, answered.2 = fetch answered.1) →
          outcome.shares.Perm (begun.response.shareIds.filterMap fetch) := by
  have hcount := (performBegin_ok hbegin).2
  have hfit : begun.response.shareIds.length + min MAX_FETCH_WORKERS begun.response.shareIds.length
      < 2 ^ 64 := by
    simp only [MAX_PENDING_SHARES_PER_RESPONSE, MAX_FETCH_WORKERS] at hcount ⊢
    omega
  have hfair := Fair.run hfit hrun
  have hlength := length_le_of_run hfit hrun
  refine ⟨?_, by omega, fun worker phase hphase => exists_step hphase, ?_⟩
  · have := hfair.length_inHand_le
    omega
  intro pendingAckShareIds outcome registered hend
  unfold initialSynchronization at hend
  split at hend
  · rename_i hover
    cases hend
    have hpos : begun.response.shareIds ≠ [] →
        0 < min MAX_FETCH_WORKERS begun.response.shareIds.length := by
      intro hne
      have := List.length_pos_iff.mpr hne
      simp only [MAX_FETCH_WORKERS]
      omega
    obtain ⟨hdone, hresults⟩ := hfair.of_finished hover hpos
    refine ⟨hdone, hresults, fun id => ?_, fun fetch hfetch => ?_⟩
    · simp [mem_foldl_insertId]
    · exact hresults.trans (filterMap_done hdone hfetch)
  · cases hend

def sampleParsers : BeginParsers where
  semver := fun text => if text = "0.8.1" then some (0, 8) else none
  json := fun _ => .ok ⟨"laptop", ["a", "b", "c"], none, none⟩

def sampleBegun : BeginResponseOutcome := ⟨⟨"laptop", ["a", "b", "c"], none, none⟩, some "v0.8.1"⟩

/-- Three workers, of which the last one answers first and one finds nothing. -/
def sampleFetches : List (Nat × WorkerMove SharedFileResponse) := [
  (2, .draw), (0, .draw), (1, .draw), (1, .finish (some ⟨"c", "notes.txt", "Yw=="⟩)),
  (0, .finish none), (1, .push), (2, .finish (some ⟨"a", "todo.txt", "YQ=="⟩)), (0, .draw),
  (2, .push), (2, .draw), (1, .draw)]

theorem initial_synchronization_fetches_sample :
    ∃ s outcome registered,
      run (step sampleBegun.response.shareIds) (fetchWorkers sampleBegun.response.shareIds)
        sampleFetches = some s ∧
      initialSynchronization sampleBegun ["z"] s = some (outcome, registered) ∧
      outcome.shares.map SharedFileResponse.id = ["c", "a"] ∧
      (s.done.map Prod.fst).Perm ["a", "b", "c"] := by
  have hbegin : performBegin sampleParsers (some "https://fulgurant.test") (some "age1")
      (.ok ⟨some "v0.8.1", .ok "answer"⟩) = .ok sampleBegun := by decide
  obtain ⟨s, hrun, hend⟩ := exists_of_any
    (P := fun s : WorkQueue String SharedFileResponse =>
      s.finished = true ∧ s.results.map SharedFileResponse.id = ["c", "a"])
    (by decide : (run (step sampleBegun.response.shareIds)
      (fetchWorkers sampleBegun.response.shareIds) sampleFetches).any
        (fun s => decide (s.finished = true ∧ s.results.map SharedFileResponse.id = ["c", "a"])) =
          true)
  exact ⟨s, _, _, hrun, if_pos hend.1, hend.2,
    ((initial_synchronization_fetches hbegin hrun).2.2.2 ["z"] _ _ (if_pos hend.1)).1⟩

end Fulgur
