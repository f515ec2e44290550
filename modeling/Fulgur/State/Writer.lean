import Fulgur.Library.Run
import Fulgur.State.Db.Write

/-! # The snapshot writer

One background thread writes every session snapshot. Asynchronous snapshots are
handed over through a mailbox that keeps only the newest one, blocking requests
and wake-ups through a bounded channel. The state below holds the mailbox, the
channel, the calls that submitting threads are in the middle of, and where the
writer thread stands in its loop; a step is one atomic action of one thread.

The throttle only decides how long a timed wait lasts, so a wait on an empty
channel may end at any moment here. A history of submissions, writes and of what
became of each snapshot put into the mailbox is kept next to the state.
-/

namespace Fulgur

/-- Bounded channel capacity for writer messages. -/
def CHANNEL_CAPACITY : Nat := 16

/-- A snapshot with the moment at which it was submitted. -/
structure Submission where
  stamp : Nat
  state : WindowsState
deriving DecidableEq

/-- A message to the writer thread; a request knows when it entered the channel. -/
inductive WriterMessage where
  | blocking (request : Submission) (enqueued : Nat)
  | mailboxFilled
deriving DecidableEq

/-- Where a thread stands inside a call on the writer handle. -/
inductive Call where
  /-- `save_async` between its `put` and its `try_send`. -/
  | notify
  /-- `save_blocking` before its message is in the channel. -/
  | send (request : Submission)
  /-- `save_blocking` waiting for the reply to its request. -/
  | await (stamp : Nat)
deriving DecidableEq

/-- Where the writer thread stands in `run`, with `last` for the flush of `shut_down`. -/
inductive WriterPhase where
  | top
  | recv
  | recvTimeout
  | handleBlocking (request : Submission) (enqueued : Nat)
  | writeBlocking (request : Submission)
  | flushMailbox (last : Bool)
  | writeMailbox (request : Submission) (last : Bool)
  | exited
deriving DecidableEq

/-- What became of a snapshot that was put into the mailbox. -/
inductive Outcome where
  | replaced (stamp : Nat)
  | superseded (enqueued : Nat)
  | flushed (written : Bool)
  | dropped
deriving DecidableEq

structure WriterSystem where
  mailbox : Option Submission
  channel : List WriterMessage
  senderAlive : Bool
  calls : List Call
  phase : WriterPhase
  db : Option StateDb
  now : Nat
  submitted : List Submission
  puts : List Submission
  written : List Submission
  failures : Nat
  outcomes : List (Submission × Outcome)

/-- A writer whose thread has just been spawned. -/
def WriterSystem.start (db : Option StateDb) : WriterSystem where
  mailbox := none
  channel := []
  senderAlive := true
  calls := []
  phase := .top
  db := db
  now := 0
  submitted := []
  puts := []
  written := []
  failures := 0
  outcomes := []

inductive WriterAction where
  | saveAsync (state : WindowsState)
  | trySend
  | saveBlocking (state : WindowsState)
  | send (request : Submission)
  | abandon (stamp : Nat)
  | shutdown
  /-- The next step of the writer thread; a write reaches the disk when `io` says so. -/
  | writer (io : Bool)
deriving DecidableEq

namespace WriterSystem

/-- `WriterState::apply`. -/
def applySnapshot (io : Bool) (db : Option StateDb) (snapshot : WindowsState) :
    Except String (Option StateDb) :=
  match db with
  | none => .error "no state database is available"
  | some db =>
      if io then (db.apply snapshot).map fun result => some result.1
      else .error (failed "commit the state transaction" "disk I/O error")

/-- `WriterState::write`. -/
def write (s : WriterSystem) (io : Bool) (request : Submission) : WriterSystem × Bool :=
  match applySnapshot io s.db request.state with
  | .ok db => ({ s with db := db, written := s.written ++ [request] }, true)
  | .error _ => ({ s with failures := s.failures + 1 }, false)

/-- What the mailbox held, with what became of it. -/
def settled (s : WriterSystem) (outcome : Outcome) : List (Submission × Outcome) :=
  s.outcomes ++ s.mailbox.toList.map fun request => (request, outcome)

/-- `SnapshotMailbox::put`, the first half of `save_async`. -/
def put (s : WriterSystem) (state : WindowsState) : WriterSystem :=
  { s with
    mailbox := some ⟨s.now, state⟩
    outcomes := s.settled (.replaced s.now)
    puts := s.puts ++ [⟨s.now, state⟩]
    submitted := s.submitted ++ [⟨s.now, state⟩]
    calls := .notify :: s.calls
    now := s.now + 1 }

def trySend (s : WriterSystem) : WriterSystem :=
  let s' := { s with calls := s.calls.erase .notify }
  if s.phase = .exited then
    { s' with mailbox := none, outcomes := s.settled .dropped }
  else if s.channel.length < CHANNEL_CAPACITY then
    { s' with channel := s.channel ++ [.mailboxFilled] }
  else s'

/-- The start of `save_blocking`: its message is not in the channel yet. -/
def beginBlocking (s : WriterSystem) (state : WindowsState) : WriterSystem :=
  { s with
    submitted := s.submitted ++ [⟨s.now, state⟩]
    calls := .send ⟨s.now, state⟩ :: s.calls
    now := s.now + 1 }

/-- `send(Blocking)`: waits while the channel is full. -/
def send (s : WriterSystem) (request : Submission) : Option WriterSystem :=
  let calls := s.calls.erase (.send request)
  if s.phase = .exited then
    some { s with calls := calls }
  else if s.channel.length < CHANNEL_CAPACITY then
    some { s with
      channel := s.channel ++ [.blocking request s.now]
      calls := .await request.stamp :: calls
      now := s.now + 1 }
  else none

def receive (s : WriterSystem) (message : WriterMessage) (rest : List WriterMessage) :
    WriterSystem :=
  match message with
  | .blocking request enqueued =>
      { s with channel := rest, phase := .handleBlocking request enqueued }
  | .mailboxFilled => { s with channel := rest, phase := .top }

/-- After a flush the loop goes on, or the thread ends. -/
def afterFlush (last : Bool) : WriterPhase := if last then .exited else .top

def writerStep (s : WriterSystem) (io : Bool) : Option WriterSystem :=
  match s.phase with
  | .top => some { s with phase := if s.mailbox.isSome then .recvTimeout else .recv }
  | .recv =>
      match s.channel with
      | message :: rest => some (s.receive message rest)
      | [] => if s.senderAlive then none else some { s with phase := .flushMailbox true }
  | .recvTimeout =>
      match s.channel with
      | message :: rest => some (s.receive message rest)
      | [] => some { s with phase := .flushMailbox (!s.senderAlive) }
  | .handleBlocking request enqueued =>
      some { s with
        mailbox := none
        outcomes := s.settled (.superseded enqueued)
        phase := .writeBlocking request }
  | .writeBlocking request =>
      let (s', _) := s.write io request
      some { s' with phase := .top, calls := s.calls.erase (.await request.stamp) }
  | .flushMailbox last =>
      match s.mailbox with
      | none => some { s with phase := afterFlush last }
      | some request => some { s with mailbox := none, phase := .writeMailbox request last }
  | .writeMailbox request last =>
      let (s', written) := s.write io request
      some { s' with
        phase := afterFlush last
        outcomes := s.outcomes ++ [(request, .flushed written)] }
  | .exited => none

def step (s : WriterSystem) : WriterAction → Option WriterSystem
  | .saveAsync state => if s.senderAlive then some (s.put state) else none
  | .trySend => if .notify ∈ s.calls then some s.trySend else none
  | .saveBlocking state => if s.senderAlive then some (s.beginBlocking state) else none
  | .send request => if .send request ∈ s.calls then s.send request else none
  | .abandon stamp =>
      if s.phase = .exited ∧ .await stamp ∈ s.calls then
        some { s with calls := s.calls.erase (.await stamp) }
      else none
  | .shutdown => if s.calls = [] then some { s with senderAlive := false } else none
  | .writer io => s.writerStep io

/-! ## Writes -/

/-- A write is recorded when it succeeds and counted when it fails; it touches
nothing else but the database. -/
theorem write_cases (s : WriterSystem) (io : Bool) (request : Submission) :
    (∃ db, s.write io request = ({ s with db := db, written := s.written ++ [request] }, true)) ∨
      (∀ db, applySnapshot io s.db request.state ≠ .ok db) ∧
        s.write io request = ({ s with failures := s.failures + 1 }, false) := by
  unfold write
  cases applySnapshot io s.db request.state with
  | ok db => exact Or.inl ⟨db, rfl⟩
  | error message => exact Or.inr ⟨by simp, rfl⟩

theorem mem_settled {s : WriterSystem} {outcome : Outcome} {entry : Submission × Outcome} :
    entry ∈ s.settled outcome ↔
      entry ∈ s.outcomes ∨ s.mailbox = some entry.1 ∧ entry.2 = outcome := by
  cases entry with
  | mk request other =>
      cases hmailbox : s.mailbox with
      | none => simp [settled, hmailbox]
      | some held => simp [settled, hmailbox, eq_comm]

end WriterSystem

end Fulgur
