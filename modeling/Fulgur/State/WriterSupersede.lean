import Fulgur.State.WriterOrder

/-! # What a blocking save may discard

A blocking request empties the mailbox before it is written. With several
submitting threads the mailbox may by then hold a snapshot that was put after
the request had entered the channel. That cannot happen when no snapshot is put
while a request waits to be handled, unless the thread is just about to flush.
A flush empties the mailbox too, and what it took is gone when the write fails.
-/

namespace Fulgur

/-- An end that a snapshot may come to: written by a flush, or given up for
something submitted later. -/
def Outcome.Fair (request : Submission) : Outcome → Prop
  | .replaced stamp => request.stamp < stamp
  | .superseded enqueued => request.stamp < enqueued
  | .flushed written => written = true
  | .dropped => False

instance (request : Submission) (outcome : Outcome) : Decidable (outcome.Fair request) := by
  unfold Outcome.Fair
  split <;> infer_instance

namespace WriterSystem

/-- A blocking request is in the channel, or received with the mailbox not yet emptied. -/
def requestWaiting (s : WriterSystem) : Bool :=
  (s.channel.any fun message => (messageRequest message).isSome) ||
    match s.phase with
    | .handleBlocking _ _ => true
    | _ => false

/-- The next thing the thread does is to take what the mailbox holds and write it. -/
def aboutToFlush (s : WriterSystem) : Bool :=
  match s.phase with
  | .flushMailbox _ => true
  | _ => false

/-- A database is open, its transaction reaches the disk, and it has room for every value. -/
def Takes (io : Bool) (db : Option StateDb) (snapshot : WindowsState) : Prop :=
  match db with
  | none => False
  | some db => io = true ∧ (db.apply snapshot).isOk = true

instance (io : Bool) (db : Option StateDb) (snapshot : WindowsState) :
    Decidable (Takes io db snapshot) := by
  unfold Takes
  split <;> infer_instance

theorem Takes.applySnapshot {io : Bool} {db : Option StateDb} {snapshot : WindowsState}
    (h : Takes io db snapshot) : ∃ db', applySnapshot io db snapshot = .ok db' := by
  cases db with
  | none => exact h.elim
  | some db =>
      rcases h with ⟨hio, hok⟩
      simp only [WriterSystem.applySnapshot, if_pos hio]
      cases hresult : db.apply snapshot with
      | ok result => exact ⟨some result.1, rfl⟩
      | error message =>
          rw [hresult] at hok
          cases hok

theorem takes_of_storable {tables : Tables} {owned : Std.ExtTreeSet Int} {snapshot : WindowsState}
    (hreachable : Reachable tables) (hstorable : Storable snapshot)
    (hcollision : NoCollision tables snapshot) : Takes true (some ⟨tables, owned⟩) snapshot := by
  rcases apply_spec ⟨tables, owned⟩ hreachable.consistent hstorable hcollision with ⟨stats, hrun, -⟩
  refine ⟨rfl, ?_⟩
  rw [hrun]
  rfl

/-- Guard: no snapshot is put into the mailbox while a request waits, and what a
flush has taken out of it meets a database that takes it. -/
def Unhindered (s : WriterSystem) : WriterAction → Prop
  | .saveAsync _ => s.aboutToFlush = true ∨ s.requestWaiting = false
  | .writer io => ∀ request last, s.phase = .writeMailbox request last → Takes io s.db request.state
  | _ => True

instance (s : WriterSystem) (action : WriterAction) : Decidable (Unhindered s action) :=
  match action with
  | .saveAsync _ => inferInstanceAs (Decidable (_ ∨ _))
  | .writer io =>
      match hphase : s.phase with
      | .writeMailbox request _ =>
          decidable_of_iff (Takes io s.db request.state) (by simp [Unhindered, hphase])
      | .top | .recv | .recvTimeout | .handleBlocking _ _ | .writeBlocking _ | .flushMailbox _
      | .exited => isTrue (by simp [Unhindered, hphase])
  | .trySend | .saveBlocking _ | .send _ | .abandon _ | .shutdown => isTrue trivial

/-- Where a snapshot is that was put into the mailbox. -/
def Accounted (s : WriterSystem) (request : Submission) : Prop :=
  s.mailbox = some request ∨ (∃ last, s.phase = .writeMailbox request last) ∨
    ∃ outcome, (request, outcome) ∈ s.outcomes

structure NeverStale (s : WriterSystem) : Prop where
  lifecycle : Lifecycle s
  bound : ∀ held, s.mailbox = some held → held.stamp < s.now
  queued : s.aboutToFlush = false → ∀ held, s.mailbox = some held → ∀ request enqueued,
    WriterMessage.blocking request enqueued ∈ s.channel → held.stamp < enqueued
  handled : ∀ held, s.mailbox = some held → ∀ request enqueued,
    s.phase = .handleBlocking request enqueued → held.stamp < enqueued
  fair : ∀ entry ∈ s.outcomes, entry.2.Fair entry.1
  recorded : ∀ request, (request, Outcome.flushed true) ∈ s.outcomes → request ∈ s.written
  accounted : ∀ request ∈ s.puts, s.Accounted request

theorem neverStale_start (db : Option StateDb) : NeverStale (start db) := by
  refine ⟨lifecycle_start db, ?_, ?_, ?_, ?_, ?_, ?_⟩ <;> simp [start]

theorem requestWaiting_eq_false {s : WriterSystem} (h : s.requestWaiting = false) :
    (∀ request enqueued, WriterMessage.blocking request enqueued ∉ s.channel) ∧
      ∀ request enqueued, s.phase ≠ .handleBlocking request enqueued := by
  rw [requestWaiting, Bool.or_eq_false_iff, List.any_eq_false] at h
  refine ⟨fun request enqueued hmem => h.1 _ hmem rfl, fun request enqueued hphase => ?_⟩
  have hlater := h.2
  rw [hphase] at hlater
  cases hlater

/-- Settling the mailbox with a fair outcome accounts for what it held. -/
theorem NeverStale.settle {s : WriterSystem} (hs : NeverStale s) (outcome : Outcome)
    (hfair : ∀ held, s.mailbox = some held → outcome.Fair held)
    (hgiven : outcome ≠ .flushed true) :
    (∀ entry ∈ s.settled outcome, entry.2.Fair entry.1) ∧
      (∀ request, (request, Outcome.flushed true) ∈ s.settled outcome → request ∈ s.written) ∧
      ∀ request, s.Accounted request →
        (∃ last, s.phase = .writeMailbox request last) ∨
          ∃ outcome', (request, outcome') ∈ s.settled outcome := by
  refine ⟨?_, ?_, ?_⟩
  · intro entry hentry
    rcases mem_settled.mp hentry with hold | ⟨hheld, houtcome⟩
    · exact hs.fair entry hold
    · rw [houtcome]
      exact hfair _ hheld
  · intro request hentry
    rcases mem_settled.mp hentry with hold | ⟨-, houtcome⟩
    · exact hs.recorded request hold
    · exact absurd houtcome.symm hgiven
  · intro request haccounted
    rcases haccounted with hheld | hhand | ⟨outcome', hold⟩
    · exact Or.inr ⟨outcome, mem_settled.mpr (Or.inr ⟨hheld, rfl⟩)⟩
    · exact Or.inl hhand
    · exact Or.inr ⟨outcome', mem_settled.mpr (Or.inl hold)⟩

/-- A step of the thread that keeps the mailbox, the history and all waiting requests. -/
theorem NeverStale.phase {s : WriterSystem} (hs : NeverStale s) {phase : WriterPhase}
    {channel : List WriterMessage} (ht : Lifecycle { s with phase := phase, channel := channel })
    (hflush : s.aboutToFlush = true → s.mailbox = none) (hhand : inHand s.phase = [])
    (hchannel : ∀ message ∈ channel, message ∈ s.channel)
    (hhandle : ∀ request enqueued, phase = .handleBlocking request enqueued →
      WriterMessage.blocking request enqueued ∈ s.channel) :
    NeverStale { s with phase := phase, channel := channel } := by
  have hqueued : ∀ held, s.mailbox = some held → ∀ request enqueued,
      WriterMessage.blocking request enqueued ∈ s.channel → held.stamp < enqueued := by
    intro held hheld request enqueued hmem
    refine hs.queued ?_ held hheld request enqueued hmem
    rw [← Bool.not_eq_true]
    intro hflushing
    rw [hflush hflushing] at hheld
    cases hheld
  refine ⟨ht, hs.bound, ?_, ?_, hs.fair, hs.recorded, ?_⟩
  · intro _ held hheld request enqueued hmem
    exact hqueued held hheld request enqueued (hchannel _ hmem)
  · intro held hheld request enqueued hphase
    exact hqueued held hheld request enqueued (hhandle request enqueued hphase)
  · intro request hrequest
    rcases hs.accounted request hrequest with hheld | ⟨last, hphase⟩ | hsettled
    · exact Or.inl hheld
    · rw [hphase] at hhand
      cases hhand
    · exact Or.inr (Or.inr hsettled)

/-- The end of a write: what the thread had in its hand, if it came from the
mailbox, gets a fair outcome, and nothing else changes. -/
theorem NeverStale.finishWrite {s t : WriterSystem} (hs : NeverStale s) (ht : Lifecycle t)
    (extra : List (Submission × Outcome)) (hflush : s.aboutToFlush = false)
    (hmailbox : t.mailbox = s.mailbox) (hnow : t.now = s.now) (hchannel : t.channel = s.channel)
    (hputs : t.puts = s.puts) (houtcomes : t.outcomes = s.outcomes ++ extra)
    (hafter : ∀ request enqueued, t.phase ≠ .handleBlocking request enqueued)
    (hfair : ∀ entry ∈ extra, entry.2.Fair entry.1)
    (hkept : ∀ request ∈ s.written, request ∈ t.written)
    (hrecorded : ∀ request, (request, Outcome.flushed true) ∈ extra → request ∈ t.written)
    (hhand : ∀ request last, s.phase = .writeMailbox request last →
      ∃ outcome, (request, outcome) ∈ extra) : NeverStale t := by
  refine ⟨ht, ?_, ?_, ?_, ?_, ?_, ?_⟩
  · rw [hmailbox, hnow]
    exact hs.bound
  · intro _
    rw [hmailbox, hchannel]
    exact hs.queued hflush
  · intro held _ other enqueued hhandle
    exact absurd hhandle (hafter other enqueued)
  · intro entry hentry
    rw [houtcomes, List.mem_append] at hentry
    rcases hentry with hold | hnew
    · exact hs.fair entry hold
    · exact hfair entry hnew
  · intro other hentry
    rw [houtcomes, List.mem_append] at hentry
    rcases hentry with hold | hnew
    · exact hkept other (hs.recorded other hold)
    · exact hrecorded other hnew
  · intro other hother
    rw [hputs] at hother
    unfold Accounted
    rw [hmailbox, houtcomes]
    rcases hs.accounted other hother with hheld | ⟨last, hphase⟩ | ⟨outcome, hold⟩
    · exact Or.inl hheld
    · rcases hhand other last hphase with ⟨outcome, hnew⟩
      exact Or.inr (Or.inr ⟨outcome, List.mem_append_right _ hnew⟩)
    · exact Or.inr (Or.inr ⟨outcome, List.mem_append_left _ hold⟩)

/-- The end of a flush that wrote what it took. -/
theorem NeverStale.flushed {s t : WriterSystem} (hs : NeverStale s) (ht : Lifecycle t)
    {request : Submission} {last : Bool} (hphase : s.phase = .writeMailbox request last)
    (hmailbox : t.mailbox = s.mailbox) (hnow : t.now = s.now) (hchannel : t.channel = s.channel)
    (hputs : t.puts = s.puts) (hafter : t.phase = afterFlush last)
    (hwritten : t.written = s.written ++ [request])
    (houtcomes : t.outcomes = s.outcomes ++ [(request, .flushed true)]) : NeverStale t := by
  have hflush : s.aboutToFlush = false := by
    unfold aboutToFlush
    rw [hphase]
  refine hs.finishWrite ht _ hflush hmailbox hnow hchannel hputs houtcomes ?_ ?_ ?_ ?_ ?_
  · intro other enqueued hhandle
    rw [hafter] at hhandle
    cases last <;> cases hhandle
  · intro entry hentry
    rw [List.mem_singleton.mp hentry]
    rfl
  · intro other hother
    rw [hwritten]
    exact List.mem_append_left _ hother
  · intro other hentry
    cases List.mem_singleton.mp hentry
    rw [hwritten]
    exact List.mem_append_right _ List.mem_cons_self
  · intro other last' hhand
    rw [hphase] at hhand
    cases hhand
    exact ⟨_, List.mem_singleton.mpr rfl⟩

theorem NeverStale.put {s : WriterSystem} {state : WindowsState} (hs : NeverStale s)
    (hguard : Unhindered s (.saveAsync state)) (ht : Lifecycle (s.put state)) :
    NeverStale (s.put state) := by
  rcases hs.settle (.replaced s.now) hs.bound (by simp) with ⟨hfair, hrecorded, hsettled⟩
  have hmailbox : (s.put state).mailbox = some ⟨s.now, state⟩ := rfl
  refine ⟨ht, ?_, ?_, ?_, hfair, hrecorded, ?_⟩
  · intro held hheld
    cases hheld
    exact Nat.lt_succ_self s.now
  · intro hflush held hheld request enqueued hmem
    rcases hguard with hflushing | hnone
    · rw [show (s.put state).aboutToFlush = s.aboutToFlush from rfl, hflushing] at hflush
      cases hflush
    · exact absurd hmem ((requestWaiting_eq_false hnone).1 request enqueued)
  · intro held hheld request enqueued hphase
    rcases hguard with hflushing | hnone
    · unfold aboutToFlush at hflushing
      rw [show s.phase = .handleBlocking request enqueued from hphase] at hflushing
      cases hflushing
    · exact absurd hphase ((requestWaiting_eq_false hnone).2 request enqueued)
  · intro request hrequest
    rcases List.mem_append.mp hrequest with hold | hnew
    · exact Or.inr (hsettled request (hs.accounted request hold))
    · rw [List.mem_singleton.mp hnew]
      exact Or.inl hmailbox

/-- A request is numbered when it enters the channel, behind what the mailbox holds. -/
theorem NeverStale.sent {s : WriterSystem} {request : Submission} {calls : List Call}
    (hs : NeverStale s)
    (ht : Lifecycle { s with
      channel := s.channel ++ [.blocking request s.now], calls := calls, now := s.now + 1 }) :
    NeverStale { s with
      channel := s.channel ++ [.blocking request s.now], calls := calls, now := s.now + 1 } := by
  refine ⟨ht, ?_, ?_, hs.handled, hs.fair, hs.recorded, hs.accounted⟩
  · intro held hheld
    exact Nat.lt_succ_of_lt (hs.bound held hheld)
  · intro hflush held hheld other enqueued hmem
    rcases List.mem_append.mp hmem with hold | hnew
    · exact hs.queued hflush held hheld other enqueued hold
    · cases List.mem_singleton.mp hnew
      exact hs.bound held hheld

/-- The thread takes the mailbox for a request that was submitted after it. -/
theorem NeverStale.supersede {s : WriterSystem} {request : Submission} {enqueued : Nat}
    (hs : NeverStale s) (hphase : s.phase = .handleBlocking request enqueued)
    (ht : Lifecycle { s with
      mailbox := none, outcomes := s.settled (.superseded enqueued),
      phase := .writeBlocking request }) :
    NeverStale { s with
      mailbox := none, outcomes := s.settled (.superseded enqueued),
      phase := .writeBlocking request } := by
  rcases hs.settle (.superseded enqueued)
    (fun held hheld => hs.handled held hheld request enqueued hphase) (by simp)
    with ⟨hfair, hrecorded, hsettled⟩
  refine ⟨ht, by simp, by simp, by simp, hfair, hrecorded, ?_⟩
  intro other hother
  rcases hsettled other (hs.accounted other hother) with ⟨last, hhand⟩ | hdone
  · rw [hphase] at hhand
    cases hhand
  · exact Or.inr (Or.inr hdone)

/-- The thread takes the mailbox into its hand. -/
theorem NeverStale.take {s : WriterSystem} {request : Submission} {last : Bool}
    (hs : NeverStale s) (hphase : s.phase = .flushMailbox last)
    (hmailbox : s.mailbox = some request)
    (ht : Lifecycle { s with mailbox := none, phase := .writeMailbox request last }) :
    NeverStale { s with mailbox := none, phase := .writeMailbox request last } := by
  refine ⟨ht, by simp, by simp, by simp, hs.fair, hs.recorded, ?_⟩
  intro other hother
  rcases hs.accounted other hother with hheld | ⟨last', hhand⟩ | hdone
  · rw [hmailbox] at hheld
    cases hheld
    exact Or.inr (Or.inl ⟨last, rfl⟩)
  · rw [hphase] at hhand
    cases hhand
  · exact Or.inr (Or.inr hdone)

/-- Every guarded step keeps the mailbox behind every waiting request. -/
theorem NeverStale.step {s t : WriterSystem} {action : WriterAction} (hs : NeverStale s)
    (hguard : Unhindered s action) (h : Transition s action t) : NeverStale t := by
  have ht := hs.lifecycle.step h
  cases h with
  | put state halive => exact hs.put hguard ht
  | notified hcall hphase hroom =>
      refine ⟨ht, hs.bound, ?_, hs.handled, hs.fair, hs.recorded, hs.accounted⟩
      intro hflush held hheld request enqueued hmem
      rcases List.mem_append.mp hmem with hold | hnew
      · exact hs.queued hflush held hheld request enqueued hold
      · cases List.mem_singleton.mp hnew
  | notifyFull hcall hphase hfull =>
      exact ⟨ht, hs.bound, hs.queued, hs.handled, hs.fair, hs.recorded, hs.accounted⟩
  | notifyDisconnected hcall hphase => exact absurd hphase (hs.lifecycle.not_exited hcall)
  | beginBlocking state halive =>
      refine ⟨ht, ?_, hs.queued, hs.handled, hs.fair, hs.recorded, hs.accounted⟩
      intro held hheld
      exact Nat.lt_succ_of_lt (hs.bound held hheld)
  | sent request hcall hphase hroom => exact hs.sent ht
  | sendDisconnected request hcall hphase => exact absurd hphase (hs.lifecycle.not_exited hcall)
  | abandoned stamp hcall hphase => exact absurd hphase (hs.lifecycle.not_exited hcall)
  | shutdown hidle =>
      exact ⟨ht, hs.bound, hs.queued, hs.handled, hs.fair, hs.recorded, hs.accounted⟩
  | waitUntimed io hphase hmailbox =>
      exact hs.phase ht (fun _ => hmailbox) (by rw [hphase]; rfl) (fun _ h => h) (by simp)
  | waitTimed io hphase hmailbox =>
      refine hs.phase ht ?_ (by rw [hphase]; rfl) (fun _ h => h) (by simp)
      intro hflush
      simp [aboutToFlush, hphase] at hflush
  | wokeUp io rest hphase hchannel =>
      refine hs.phase ht ?_ (by rcases hphase with hp | hp <;> rw [hp] <;> rfl) ?_ (by simp)
      · intro hflush
        rcases hphase with hp | hp <;> simp [aboutToFlush, hp] at hflush
      · intro message hmem
        rw [hchannel]
        exact List.mem_cons_of_mem _ hmem
  | received io request enqueued rest hphase hchannel =>
      refine hs.phase ht ?_ (by rcases hphase with hp | hp <;> rw [hp] <;> rfl) ?_ ?_
      · intro hflush
        rcases hphase with hp | hp <;> simp [aboutToFlush, hp] at hflush
      · intro message hmem
        rw [hchannel]
        exact List.mem_cons_of_mem _ hmem
      · intro other stamp hhandle
        cases hhandle
        rw [hchannel]
        exact List.mem_cons_self
  | timedOut io hphase hchannel halive =>
      refine hs.phase ht ?_ (by rw [hphase]; rfl) (fun _ h => h) (by simp)
      intro hflush
      simp [aboutToFlush, hphase] at hflush
  | disconnected io hphase hchannel hdropped =>
      refine hs.phase ht ?_ (by rcases hphase with hp | hp <;> rw [hp] <;> rfl)
        (fun _ h => h) (by simp)
      intro hflush
      rcases hphase with hp | hp <;> simp [aboutToFlush, hp] at hflush
  | nothingToFlush io last hphase hmailbox =>
      refine hs.phase ht (fun _ => hmailbox) (by rw [hphase]; rfl) (fun _ h => h) ?_
      intro request enqueued hhandle
      cases last <;> cases hhandle
  | superseded io request enqueued hphase => exact hs.supersede hphase ht
  | wroteBlocking io request db hphase =>
      exact hs.finishWrite ht [] (by simp [aboutToFlush, hphase]) rfl rfl rfl rfl
        (List.append_nil _).symm (by simp) (by simp) (fun _ => List.mem_append_left _) (by simp)
        (by simp [hphase])
  | failedBlocking io request hphase =>
      exact hs.finishWrite ht [] (by simp [aboutToFlush, hphase]) rfl rfl rfl rfl
        (List.append_nil _).symm (by simp) (by simp) (fun _ h => h) (by simp) (by simp [hphase])
  | taken io last request hphase hmailbox => exact hs.take hphase hmailbox ht
  | wroteMailbox io last request db hphase =>
      exact hs.flushed ht hphase rfl rfl rfl rfl rfl rfl rfl
  | failedMailbox io last request hphase hfailed =>
      rcases (hguard request last hphase).applySnapshot with ⟨db, htaken⟩
      exact absurd htaken (hfailed db)

end WriterSystem

open LabelledRun WriterSystem

/-- For any number of submitting threads: in every run that puts no snapshot into
the mailbox while a request waits to be handled, and whose flushes meet a database
that takes what they write, every snapshot put there is still there, in the hand
of the thread, written by a flush, or given up for something submitted later; once
the thread has exited one of the last two holds. In particular a request only
discards what was put before it was enqueued. -/
theorem blocking_discards_only_older {db : Option StateDb} {actions : List WriterAction}
    {s : WriterSystem} (hguard : Guarded WriterSystem.step Unhindered (start db) actions)
    (hrun : run WriterSystem.step (start db) actions = some s) :
    (∀ entry ∈ s.outcomes, entry.2.Fair entry.1) ∧
      (∀ request, (request, Outcome.flushed true) ∈ s.outcomes → request ∈ s.written) ∧
      (∀ request ∈ s.puts, s.Accounted request) ∧
      (s.phase = .exited → ∀ request ∈ s.puts, ∃ outcome, (request, outcome) ∈ s.outcomes) := by
  have hinv : NeverStale s := by
    refine invariant_of_guarded NeverStale ?_ (neverStale_start db) hguard hrun
    intro s action t hs hguard hstep
    exact hs.step hguard (transition_of_step hstep)
  refine ⟨hinv.fair, hinv.recorded, hinv.accounted, ?_⟩
  intro hphase request hrequest
  rcases hinv.accounted request hrequest with hheld | ⟨last, hhand⟩ | hdone
  · rw [hinv.lifecycle.empty (by rw [hphase]; rfl)] at hheld
    cases hheld
  · rw [hphase] at hhand
    cases hhand
  · exact hdone

theorem blocking_discards_only_older_sample :
    ∃ s, run WriterSystem.step (start (some ⟨Tables.empty, ∅⟩)) sampleSaves = some s ∧
      (∀ entry ∈ s.outcomes, entry.2.Fair entry.1) ∧
      (∀ request, (request, Outcome.flushed true) ∈ s.outcomes → request ∈ s.written) ∧
      (∀ request ∈ s.puts, s.Accounted request) ∧
      (s.phase = .exited → ∀ request ∈ s.puts, ∃ outcome, (request, outcome) ∈ s.outcomes) := by
  have hsome : (run WriterSystem.step (start (some ⟨Tables.empty, ∅⟩)) sampleSaves).isSome := by
    decide
  rcases Option.isSome_iff_exists.mp hsome with ⟨s, hrun⟩
  exact ⟨s, hrun, blocking_discards_only_older (Guarded.of_guardedRun (by decide)) hrun⟩

/-- Two threads: the second puts a newer snapshot while the request of the first
is in the channel, and the request throws it away. -/
def overtakenSaves : List WriterAction := [
  .saveBlocking ⟨[]⟩, .send ⟨0, ⟨[]⟩⟩, .saveAsync sampleSnapshot, .trySend, .writer true,
  .writer true, .writer true, .writer true, .writer true, .writer true, .shutdown,
  .writer true, .writer true, .writer true]

/-- A snapshot that comes after a written request, and whose flush meets a full disk. -/
def failedFlush : List WriterAction := [
  .saveBlocking ⟨[]⟩, .send ⟨0, ⟨[]⟩⟩, .writer true, .writer true, .writer true, .writer true,
  .saveAsync sampleSnapshot, .trySend, .writer true, .writer true, .writer true, .writer true,
  .writer true, .writer false, .shutdown, .writer true, .writer true, .writer true]

theorem blocking_discards_newer :
    ((run WriterSystem.step (start (some ⟨Tables.empty, ∅⟩)) overtakenSaves).map
        (fun s => (s.phase, s.failures, s.outcomes, s.written)) =
      some (.exited, 0, [(⟨2, sampleSnapshot⟩, .superseded 1)], [⟨0, ⟨[]⟩⟩]) ∧
    ¬Outcome.Fair ⟨2, sampleSnapshot⟩ (.superseded 1)) ∧
    (run WriterSystem.step (start (some ⟨Tables.empty, ∅⟩)) failedFlush).map
        (fun s => (s.phase, s.failures, s.outcomes, s.written)) =
      some (.exited, 1, [(⟨2, sampleSnapshot⟩, .flushed false)], [⟨0, ⟨[]⟩⟩]) ∧
    ¬Outcome.Fair ⟨2, sampleSnapshot⟩ (.flushed false) := by
  refine ⟨⟨?_, ?_⟩, ?_, ?_⟩ <;> decide

end Fulgur
