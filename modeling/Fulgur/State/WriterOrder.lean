import Fulgur.Library.Run
import Fulgur.State.Db.Refinement
import Fulgur.State.WriterSteps

/-! # One submitting thread: snapshots are written in order

A snapshot on its way to the database is in the hand of the writer thread, in
the mailbox, or part of the one blocking request that can be outstanding. In
this order these form, behind what has been written, a subsequence of what was
submitted, and it ends with the last submission until a write fails.
-/

namespace Fulgur

namespace WriterSystem

/-! ## Life cycle of the handle and the thread -/

/-- The phases after the thread has seen that the handle is gone. -/
def closing : WriterPhase → Bool
  | .flushMailbox last => last
  | .writeMailbox _ last => last
  | .exited => true
  | _ => false

def drained : WriterPhase → Bool
  | .writeMailbox _ last => last
  | .exited => true
  | _ => false

structure Lifecycle (s : WriterSystem) : Prop where
  idle : s.senderAlive = false → s.calls = []
  gone : closing s.phase = true → s.senderAlive = false
  empty : drained s.phase = true → s.mailbox = none
  /-- A filled mailbox never meets an untimed wait without a wake-up on its way. -/
  wakeup : s.phase = .recv → s.mailbox ≠ none → s.channel ≠ [] ∨ Call.notify ∈ s.calls

theorem lifecycle_start (db : Option StateDb) : Lifecycle (start db) := by
  constructor <;> simp [start, closing, drained]

theorem closing_of_drained {phase : WriterPhase} (h : drained phase = true) :
    closing phase = true := by
  cases phase <;> simp_all [drained, closing]

theorem drained_afterFlush (last : Bool) : drained (afterFlush last) = last := by
  cases last <;> rfl

theorem closing_afterFlush (last : Bool) : closing (afterFlush last) = last := by
  cases last <;> rfl

theorem afterFlush_ne_recv (last : Bool) : afterFlush last ≠ .recv := by
  cases last <;> simp [afterFlush]

theorem Lifecycle.senderAlive_of_call {s : WriterSystem} (hs : Lifecycle s) {call : Call}
    (hcall : call ∈ s.calls) : s.senderAlive ≠ false := by
  intro hdropped
  rw [hs.idle hdropped] at hcall
  cases hcall

theorem Lifecycle.not_exited {s : WriterSystem} (hs : Lifecycle s) {call : Call}
    (hcall : call ∈ s.calls) : s.phase ≠ .exited := by
  intro hphase
  have hdropped := hs.gone (by rw [hphase]; rfl)
  exact hs.senderAlive_of_call hcall hdropped

/--
After the mailbox write the thread goes on as it meant to, whether the write went
through or not.
-/
theorem Lifecycle.flushed {s t : WriterSystem} (hs : Lifecycle s) {request : Submission}
    {last : Bool}
    (hphase : s.phase = .writeMailbox request last) (hafter : t.phase = afterFlush last)
    (halive : t.senderAlive = s.senderAlive) (hcalls : t.calls = s.calls)
    (hmailbox : t.mailbox = s.mailbox) : Lifecycle t := by
  refine ⟨?_, ?_, ?_, fun h => absurd (hafter ▸ h) (afterFlush_ne_recv last)⟩
  · rw [halive, hcalls]
    exact hs.idle
  · intro hclosing
    rw [hafter, closing_afterFlush] at hclosing
    rw [halive]
    exact hs.gone (by rw [hphase, hclosing]; rfl)
  · intro hdrained
    rw [hafter, drained_afterFlush] at hdrained
    rw [hmailbox]
    exact hs.empty (by rw [hphase, hdrained]; rfl)

theorem Lifecycle.step {s t : WriterSystem} {action : WriterAction} (hs : Lifecycle s)
    (h : Transition s action t) : Lifecycle t := by
  cases h with
  | put state halive =>
      refine ⟨?_, hs.gone, ?_, ?_⟩
      · intro hdropped
        rw [show (s.put state).senderAlive = s.senderAlive from rfl, halive] at hdropped
        cases hdropped
      · intro hdrained
        have hdropped := hs.gone (closing_of_drained hdrained)
        rw [halive] at hdropped
        cases hdropped
      · intro _ _
        exact Or.inr List.mem_cons_self
  | notified hcall hphase hroom =>
      refine ⟨?_, hs.gone, hs.empty, ?_⟩
      · exact fun hdropped => absurd hdropped (hs.senderAlive_of_call hcall)
      · intro _ _
        exact Or.inl (by simp)
  | notifyFull hcall hphase hfull =>
      refine ⟨?_, hs.gone, hs.empty, ?_⟩
      · exact fun hdropped => absurd hdropped (hs.senderAlive_of_call hcall)
      · intro _ _
        refine Or.inl fun hnil => ?_
        rw [show s.channel = [] from hnil] at hfull
        simp [CHANNEL_CAPACITY] at hfull
  | notifyDisconnected hcall hphase => exact absurd hphase (hs.not_exited hcall)
  | beginBlocking state halive =>
      refine ⟨?_, hs.gone, hs.empty, ?_⟩
      · intro hdropped
        rw [show (s.beginBlocking state).senderAlive = s.senderAlive from rfl, halive] at hdropped
        cases hdropped
      · intro hphase hmailbox
        rcases hs.wakeup hphase hmailbox with hchannel | hnotify
        · exact Or.inl hchannel
        · exact Or.inr (List.mem_cons_of_mem _ hnotify)
  | sent request hcall hphase hroom =>
      refine ⟨?_, hs.gone, hs.empty, ?_⟩
      · exact fun hdropped => absurd hdropped (hs.senderAlive_of_call hcall)
      · intro _ _
        exact Or.inl (by simp)
  | sendDisconnected request hcall hphase => exact absurd hphase (hs.not_exited hcall)
  | abandoned stamp hcall hphase => exact absurd hphase (hs.not_exited hcall)
  | shutdown hidle => exact ⟨fun _ => hidle, fun _ => rfl, hs.empty, hs.wakeup⟩
  | waitUntimed io hphase hmailbox =>
      refine ⟨hs.idle, by simp [closing], by simp [drained], ?_⟩
      intro _ hfilled
      exact absurd hmailbox hfilled
  | waitTimed io hphase hmailbox =>
      exact ⟨hs.idle, by simp [closing], by simp [drained], by simp⟩
  | wokeUp io rest hphase hchannel =>
      exact ⟨hs.idle, by simp [closing], by simp [drained], by simp⟩
  | received io request enqueued rest hphase hchannel =>
      exact ⟨hs.idle, by simp [closing], by simp [drained], by simp⟩
  | timedOut io hphase hchannel halive =>
      exact ⟨hs.idle, by simp [closing], by simp [drained], by simp⟩
  | disconnected io hphase hchannel hdropped =>
      exact ⟨hs.idle, fun _ => hdropped, by simp [drained], by simp⟩
  | superseded io request enqueued hphase =>
      exact ⟨hs.idle, by simp [closing], by simp [drained], by simp⟩
  | wroteBlocking io request db hphase =>
      refine ⟨?_, by simp [closing], by simp [drained], by simp⟩
      intro hdropped
      rw [show s.calls = [] from hs.idle hdropped]
      rfl
  | failedBlocking io request hphase =>
      refine ⟨?_, by simp [closing], by simp [drained], by simp⟩
      intro hdropped
      rw [show s.calls = [] from hs.idle hdropped]
      rfl
  | nothingToFlush io last hphase hmailbox =>
      refine ⟨hs.idle, ?_, fun _ => hmailbox, fun h => absurd h (afterFlush_ne_recv last)⟩
      intro hclosing
      rw [closing_afterFlush] at hclosing
      exact hs.gone (by rw [hphase, hclosing]; rfl)
  | taken io last request hphase hmailbox =>
      refine ⟨hs.idle, ?_, fun _ => rfl, by simp⟩
      intro hclosing
      exact hs.gone (by rw [hphase]; exact hclosing)
  | wroteMailbox io last request db hphase => exact hs.flushed hphase rfl rfl rfl rfl
  | failedMailbox io last request hphase => exact hs.flushed hphase rfl rfl rfl rfl

/-! ## Snapshots on their way -/

def phaseRequest : WriterPhase → List Submission
  | .handleBlocking request _ => [request]
  | .writeBlocking request => [request]
  | _ => []

def messageRequest : WriterMessage → Option Submission
  | .blocking request _ => some request
  | .mailboxFilled => none

def callRequest : Call → Option Submission
  | .send request => some request
  | _ => none

/-- The blocking requests that are neither written nor failed yet. -/
def outstanding (s : WriterSystem) : List Submission :=
  phaseRequest s.phase ++ s.channel.filterMap messageRequest ++ s.calls.filterMap callRequest

/-- What the writer thread took from the mailbox and has not written yet. -/
def inHand : WriterPhase → List Submission
  | .writeMailbox request _ => [request]
  | _ => []

/-- Written snapshots and, behind them, those still on their way. -/
def pipeline (s : WriterSystem) : List Submission :=
  s.written ++ inHand s.phase ++ s.mailbox.toList ++ s.outstanding

/-- The call of the only submitting thread and the request that belongs to it. -/
def CallMatches : List Call → List Submission → Prop
  | [], requests => requests = []
  | [.notify], requests => requests = []
  | [.send request], requests => requests = [request]
  | [.await stamp], requests => ∃ request, requests = [request] ∧ request.stamp = stamp
  | _, _ => False

theorem CallMatches.eq_singleton {calls : List Call} {requests : List Submission} {call : Call}
    (h : CallMatches calls requests) (hcall : call ∈ calls) : calls = [call] := by
  match calls, h with
  | [.notify], _ => rw [List.mem_singleton.mp hcall]
  | [.send request], _ => rw [List.mem_singleton.mp hcall]
  | [.await stamp], _ => rw [List.mem_singleton.mp hcall]

theorem CallMatches.length_le {calls : List Call} {requests : List Submission}
    (h : CallMatches calls requests) : requests.length ≤ 1 := by
  match calls, h with
  | [], h => simp [show requests = [] from h]
  | [.notify], h => simp [show requests = [] from h]
  | [.send request], h => simp [show requests = [request] from h]
  | [.await stamp], h =>
      rcases h with ⟨request, rfl, _⟩
      simp

/-- What holds at all times while one thread submits at a time. -/
structure InOrder (s : WriterSystem) : Prop where
  lifecycle : Lifecycle s
  calls : CallMatches s.calls s.outstanding
  sublist : s.pipeline.Sublist s.submitted
  last : s.failures = 0 → s.pipeline.getLast? = s.submitted.getLast?
  superseded : ∀ request, s.phase = .writeBlocking request → s.mailbox = none

theorem inOrder_start (db : Option StateDb) : InOrder (start db) where
  lifecycle := lifecycle_start db
  calls := rfl
  sublist := List.Sublist.refl []
  last := fun _ => rfl
  superseded := fun _ _ => rfl

/-- A request in the hand of the thread is the only outstanding one. -/
theorem InOrder.outstanding_eq {s : WriterSystem} (hs : InOrder s) {request : Submission}
    (hphase : phaseRequest s.phase = [request]) :
    s.outstanding = [request] ∧ s.channel.filterMap messageRequest = [] ∧
      s.calls.filterMap callRequest = [] := by
  have hlength := hs.calls.length_le
  unfold outstanding at hlength ⊢
  rw [hphase] at hlength ⊢
  simp only [List.length_append, List.length_singleton] at hlength
  have hchannel : s.channel.filterMap messageRequest = [] :=
    List.length_eq_zero_iff.mp (by omega)
  have hcalls : s.calls.filterMap callRequest = [] := List.length_eq_zero_iff.mp (by omega)
  rw [hchannel, hcalls]
  exact ⟨rfl, rfl, rfl⟩

/-- While the thread works on a request, its caller waits for the reply. -/
theorem InOrder.calls_eq_await {s : WriterSystem} (hs : InOrder s) {request : Submission}
    (hphase : phaseRequest s.phase = [request]) : s.calls = [.await request.stamp] := by
  rcases hs.outstanding_eq hphase with ⟨hout, -, hsends⟩
  have hmatch := hs.calls
  rw [hout] at hmatch
  match hcalls : s.calls, hmatch with
  | [.notify], h => cases h
  | [.send other], _ => simp [hcalls, callRequest] at hsends
  | [.await stamp], h =>
      rcases h with ⟨other, hother, rfl⟩
      cases hother
      rfl

theorem pipeline_of_phase (s : WriterSystem) {phase : WriterPhase}
    (hrequest : phaseRequest phase = phaseRequest s.phase) (hhand : inHand phase = inHand s.phase) :
    pipeline { s with phase := phase } = s.pipeline ∧
      outstanding { s with phase := phase } = s.outstanding := by
  unfold pipeline outstanding
  rw [hrequest, hhand]
  exact ⟨rfl, rfl⟩

/-- A step that leaves calls, submissions and everything on its way as they are. -/
theorem InOrder.of_pipeline_eq {s t : WriterSystem} (hs : InOrder s) (ht : Lifecycle t)
    (hcalls : CallMatches t.calls t.outstanding) (hpipeline : t.pipeline = s.pipeline)
    (hsubmitted : t.submitted = s.submitted) (hfailures : t.failures = s.failures)
    (hsuperseded : ∀ request, t.phase = .writeBlocking request → t.mailbox = none) : InOrder t where
  lifecycle := ht
  calls := hcalls
  sublist := by
    rw [hpipeline, hsubmitted]
    exact hs.sublist
  last := by
    intro hnone
    rw [hpipeline, hsubmitted]
    exact hs.last (hfailures ▸ hnone)
  superseded := hsuperseded

theorem InOrder.of_outstanding_eq {s t : WriterSystem} (hs : InOrder s) (ht : Lifecycle t)
    (hcalls : CallMatches t.calls s.outstanding) (hout : t.outstanding = s.outstanding)
    (hhand : inHand t.phase = inHand s.phase)
    (hkept : t.written = s.written ∧ t.mailbox = s.mailbox ∧ t.submitted = s.submitted ∧
      t.failures = s.failures)
    (hsuperseded : ∀ request, t.phase = .writeBlocking request → t.mailbox = none) : InOrder t := by
  obtain ⟨hwritten, hmailbox, hsubmitted, hfailures⟩ := hkept
  have hpipeline : t.pipeline = s.pipeline := by
    unfold pipeline
    rw [hwritten, hhand, hmailbox, hout]
  exact hs.of_pipeline_eq ht (hout ▸ hcalls) hpipeline hsubmitted hfailures hsuperseded

theorem sublist_append_singleton {xs ys : List Submission} (h : xs.Sublist ys) (x : Submission) :
    (xs ++ [x]).Sublist (ys ++ [x]) := h.append (List.Sublist.refl [x])

/-- Guard of a run with one submitting thread: a call starts when no other is in progress. -/
def OneThread (s : WriterSystem) : WriterAction → Prop
  | .saveAsync _ => s.calls = []
  | .saveBlocking _ => s.calls = []
  | _ => True

theorem InOrder.put {s : WriterSystem} {state : WindowsState} (hs : InOrder s)
    (hidle : s.calls = []) (ht : Lifecycle (s.put state)) : InOrder (s.put state) := by
  have hout : s.outstanding = [] := by
    have hmatch := hs.calls
    rw [hidle] at hmatch
    exact hmatch
  have hout' : (s.put state).outstanding = [] := by
    rw [← hout]
    rfl
  have hpipeline : (s.put state).pipeline = s.written ++ inHand s.phase ++ [⟨s.now, state⟩] := by
    unfold pipeline
    rw [hout', List.append_nil]
    rfl
  refine ⟨ht, ?_, ?_, ?_, ?_⟩
  · rw [hout', show (s.put state).calls = [.notify] by simp [WriterSystem.put, hidle]]
    rfl
  · rw [hpipeline]
    refine sublist_append_singleton (List.Sublist.trans ?_ hs.sublist) _
    unfold pipeline
    rw [List.append_assoc]
    exact List.sublist_append_left _ _
  · intro _
    rw [hpipeline, show (s.put state).submitted = s.submitted ++ [⟨s.now, state⟩] from rfl,
      List.getLast?_concat, List.getLast?_concat]
  · intro request hphase
    have hrequest : phaseRequest s.phase = [request] := by
      rw [show s.phase = .writeBlocking request from hphase]
      rfl
    rw [(hs.outstanding_eq hrequest).1] at hout
    cases hout

theorem InOrder.beginBlocking {s : WriterSystem} {state : WindowsState} (hs : InOrder s)
    (hidle : s.calls = [])
    (ht : Lifecycle (s.beginBlocking state)) : InOrder (s.beginBlocking state) := by
  have hout : s.outstanding = [] := by
    have hmatch := hs.calls
    rw [hidle] at hmatch
    exact hmatch
  have hout' : (s.beginBlocking state).outstanding = [⟨s.now, state⟩] := by
    have hparts := hout
    unfold outstanding at hparts
    rw [List.append_eq_nil_iff] at hparts
    unfold outstanding
    rw [show (s.beginBlocking state).phase = s.phase from rfl,
      show (s.beginBlocking state).channel = s.channel from rfl, hparts.1]
    simp [WriterSystem.beginBlocking, hidle, callRequest]
  have hpipeline : (s.beginBlocking state).pipeline = s.pipeline ++ [⟨s.now, state⟩] := by
    unfold pipeline
    rw [hout', hout, List.append_nil]
    rfl
  refine ⟨ht, ?_, ?_, ?_, ?_⟩
  · rw [hout', show (s.beginBlocking state).calls = [.send ⟨s.now, state⟩] by
      simp [WriterSystem.beginBlocking, hidle]]
    rfl
  · rw [hpipeline]
    exact sublist_append_singleton hs.sublist _
  · intro _
    rw [hpipeline, show (s.beginBlocking state).submitted = s.submitted ++ [⟨s.now, state⟩]
      from rfl, List.getLast?_concat, List.getLast?_concat]
  · intro request hphase
    exact hs.superseded request hphase

/-- A step that only moves the phase on, without touching what is on its way. -/
theorem InOrder.phase {s : WriterSystem} (hs : InOrder s) {phase : WriterPhase}
    (ht : Lifecycle { s with phase := phase })
    (hrequest : phaseRequest phase = phaseRequest s.phase)
    (hhand : inHand phase = inHand s.phase) (hnot : phaseRequest phase = []) :
    InOrder { s with phase := phase } := by
  have hsame := s.pipeline_of_phase hrequest hhand
  refine hs.of_pipeline_eq ht ?_ hsame.1 rfl rfl ?_
  · rw [hsame.2]
    exact hs.calls
  · intro request hphase
    rw [show phase = .writeBlocking request from hphase] at hnot
    cases hnot

theorem InOrder.finishBlocking {s t : WriterSystem} (hs : InOrder s) {request : Submission}
    (hphase : s.phase = .writeBlocking request) (hmailbox : t.mailbox = s.mailbox)
    (hchannel : t.channel = s.channel) (htop : t.phase = .top)
    (hcalls : t.calls = s.calls.erase (.await request.stamp)) :
    CallMatches t.calls t.outstanding ∧ s.pipeline = s.written ++ [request] ∧
      t.pipeline = t.written := by
  have hrequest : phaseRequest s.phase = [request] := by
    rw [hphase]
    rfl
  rcases hs.outstanding_eq hrequest with ⟨hout, hmessages, -⟩
  have hempty := hs.superseded request hphase
  have hidle : t.calls = [] := by
    rw [hcalls, hs.calls_eq_await hrequest]
    simp
  have hout' : t.outstanding = [] := by
    unfold outstanding
    rw [htop, hchannel, hmessages, hidle]
    rfl
  refine ⟨?_, ?_, ?_⟩
  · rw [hidle, hout']
    rfl
  · unfold pipeline
    rw [hout, hempty, hphase]
    simp [inHand]
  · unfold pipeline
    rw [hout', hmailbox, hempty, htop]
    simp [inHand]

/-- The notification of the mailbox was taken or not: no request is behind it. -/
theorem InOrder.notified {s t : WriterSystem} (hs : InOrder s) (ht : Lifecycle t)
    (hcall : Call.notify ∈ s.calls) (hcalls : t.calls = s.calls.erase .notify)
    (hmessages : t.channel.filterMap messageRequest = s.channel.filterMap messageRequest)
    (hphase : t.phase = s.phase)
    (hkept : t.written = s.written ∧ t.mailbox = s.mailbox ∧ t.submitted = s.submitted ∧
      t.failures = s.failures) : InOrder t := by
  have hsingle := hs.calls.eq_singleton hcall
  have hidle : t.calls = [] := by
    rw [hcalls, hsingle]
    rfl
  have hmatch := hs.calls
  rw [hsingle] at hmatch
  have hout : t.outstanding = s.outstanding := by
    unfold outstanding
    rw [hphase, hmessages, hidle, hsingle]
    rfl
  refine hs.of_outstanding_eq ht (by rwa [hidle]) hout (by rw [hphase]) hkept ?_
  rw [hphase, hkept.2.1]
  exact hs.superseded

/-- A request enters the channel, and its caller waits for the reply. -/
theorem InOrder.sent {s : WriterSystem} (hs : InOrder s) {request : Submission}
    (hcall : Call.send request ∈ s.calls)
    (ht : Lifecycle { s with
      channel := s.channel ++ [.blocking request s.now]
      calls := .await request.stamp :: s.calls.erase (.send request)
      now := s.now + 1 }) :
    InOrder { s with
      channel := s.channel ++ [.blocking request s.now]
      calls := .await request.stamp :: s.calls.erase (.send request)
      now := s.now + 1 } := by
  have hsingle := hs.calls.eq_singleton hcall
  have hmatch := hs.calls
  rw [hsingle] at hmatch
  refine hs.of_outstanding_eq ht ?_ ?_ rfl ⟨rfl, rfl, rfl, rfl⟩ hs.superseded
  · rw [hsingle, List.erase_cons_head]
    exact ⟨request, hmatch, rfl⟩
  · unfold outstanding
    rw [hsingle]
    simp [messageRequest, callRequest]

/-- The thread takes the first message of the channel into its hand, or drops it. -/
theorem InOrder.received {s : WriterSystem} (hs : InOrder s) {message : WriterMessage}
    {rest : List WriterMessage} {phase : WriterPhase}
    (hphase : s.phase = .recv ∨ s.phase = .recvTimeout)
    (hchannel : s.channel = message :: rest)
    (hrequest : phaseRequest phase = (messageRequest message).toList) (hhand : inHand phase = [])
    (hwriting : ∀ request, phase ≠ .writeBlocking request)
    (ht : Lifecycle { s with channel := rest, phase := phase }) :
    InOrder { s with channel := rest, phase := phase } := by
  have hidle : phaseRequest s.phase = [] ∧ inHand s.phase = [] := by
    rcases hphase with hphase | hphase <;> rw [hphase] <;> exact ⟨rfl, rfl⟩
  refine hs.of_outstanding_eq ht hs.calls ?_ (hhand.trans hidle.2.symm) ⟨rfl, rfl, rfl, rfl⟩ ?_
  · unfold outstanding
    rw [hchannel, hidle.1]
    simp only [hrequest]
    cases hmessage : messageRequest message with
    | none =>
        rw [List.filterMap_cons_none hmessage]
        rfl
    | some request =>
        rw [List.filterMap_cons_some hmessage]
        rfl
  · exact fun request hbusy => absurd hbusy (hwriting request)

/-- Before a blocking request is written, the mailbox is emptied: it was submitted earlier. -/
theorem InOrder.supersede {s : WriterSystem} (hs : InOrder s) {request : Submission}
    {enqueued : Nat} (hphase : s.phase = .handleBlocking request enqueued)
    (ht : Lifecycle { s with
      mailbox := none, outcomes := s.settled (.superseded enqueued),
      phase := .writeBlocking request }) :
    InOrder { s with
      mailbox := none, outcomes := s.settled (.superseded enqueued),
      phase := .writeBlocking request } := by
  have hrequest : phaseRequest s.phase = [request] := by
    rw [hphase]
    rfl
  have hout : outstanding { s with
      mailbox := none, outcomes := s.settled (.superseded enqueued),
      phase := .writeBlocking request } = s.outstanding := by
    unfold outstanding
    rw [hphase]
    rfl
  have hbefore : s.pipeline = s.written ++ s.mailbox.toList ++ [request] := by
    unfold pipeline
    rw [(hs.outstanding_eq hrequest).1, hphase]
    simp [inHand]
  have hafter : pipeline { s with
      mailbox := none, outcomes := s.settled (.superseded enqueued),
      phase := .writeBlocking request } = s.written ++ [request] := by
    unfold pipeline
    rw [hout, (hs.outstanding_eq hrequest).1]
    simp [inHand]
  refine ⟨ht, ?_, ?_, ?_, fun _ _ => rfl⟩
  · rw [hout]
    exact hs.calls
  · rw [hafter]
    refine List.Sublist.trans ?_ hs.sublist
    rw [hbefore]
    exact (List.sublist_append_left _ _).append (List.Sublist.refl _)
  · intro hnone
    rw [hafter, List.getLast?_concat, ← hs.last hnone, hbefore, List.getLast?_concat]

/-- The thread is done with the mailbox, whether the write went through or not. -/
theorem InOrder.flushed {s t : WriterSystem} (hs : InOrder s) {request : Submission} {last : Bool}
    (hphase : s.phase = .writeMailbox request last) (hafter : t.phase = afterFlush last)
    (hchannel : t.channel = s.channel) (hcalls : t.calls = s.calls) :
    CallMatches t.calls t.outstanding ∧ t.outstanding = s.outstanding ∧ inHand t.phase = [] ∧
      ∀ request, t.phase = .writeBlocking request → t.mailbox = none := by
  have hout : t.outstanding = s.outstanding := by
    unfold outstanding
    rw [hafter, hphase, hchannel, hcalls]
    cases last <;> rfl
  refine ⟨?_, hout, ?_, ?_⟩
  · rw [hcalls, hout]
    exact hs.calls
  · rw [hafter]
    cases last <;> rfl
  · rw [hafter]
    cases last <;> simp [afterFlush]

/-- Every step of a run with one submitting thread keeps the order. -/
theorem InOrder.step {s t : WriterSystem} {action : WriterAction} (hs : InOrder s)
    (hthread : OneThread s action) (h : Transition s action t) : InOrder t := by
  have ht := hs.lifecycle.step h
  cases h with
  | put state halive => exact hs.put hthread ht
  | beginBlocking state halive => exact hs.beginBlocking hthread ht
  | notified hcall hphase hroom =>
      exact hs.notified ht hcall rfl (by simp [messageRequest]) rfl ⟨rfl, rfl, rfl, rfl⟩
  | notifyFull hcall hphase hfull => exact hs.notified ht hcall rfl rfl rfl ⟨rfl, rfl, rfl, rfl⟩
  | notifyDisconnected hcall hphase => exact absurd hphase (hs.lifecycle.not_exited hcall)
  | sent request hcall hphase hroom => exact hs.sent hcall ht
  | sendDisconnected request hcall hphase => exact absurd hphase (hs.lifecycle.not_exited hcall)
  | abandoned stamp hcall hphase => exact absurd hphase (hs.lifecycle.not_exited hcall)
  | shutdown hidle => exact hs.of_pipeline_eq ht hs.calls rfl rfl rfl hs.superseded
  | waitUntimed io hphase hmailbox =>
      exact hs.phase ht (by rw [hphase]; rfl) (by rw [hphase]; rfl) rfl
  | waitTimed io hphase hmailbox =>
      exact hs.phase ht (by rw [hphase]; rfl) (by rw [hphase]; rfl) rfl
  | timedOut io hphase hchannel halive =>
      exact hs.phase ht (by rw [hphase]; rfl) (by rw [hphase]; rfl) rfl
  | disconnected io hphase hchannel hdropped =>
      rcases hphase with hphase | hphase
      · exact hs.phase ht (by rw [hphase]; rfl) (by rw [hphase]; rfl) rfl
      · exact hs.phase ht (by rw [hphase]; rfl) (by rw [hphase]; rfl) rfl
  | nothingToFlush io last hphase hmailbox =>
      cases last
      · exact hs.phase ht (by rw [hphase]; rfl) (by rw [hphase]; rfl) rfl
      · exact hs.phase ht (by rw [hphase]; rfl) (by rw [hphase]; rfl) rfl
  | wokeUp io rest hphase hchannel => exact hs.received hphase hchannel rfl rfl nofun ht
  | received io request enqueued rest hphase hchannel =>
      exact hs.received hphase hchannel rfl rfl nofun ht
  | superseded io request enqueued hphase => exact hs.supersede hphase ht
  | wroteBlocking io request db hphase =>
      rcases hs.finishBlocking (t := { s with
        db := db, written := s.written ++ [request], phase := .top
        calls := s.calls.erase (.await request.stamp) }) hphase rfl rfl rfl rfl
        with ⟨hcalls, hbefore, hafter⟩
      exact hs.of_pipeline_eq ht hcalls (hafter.trans hbefore.symm) rfl rfl (by simp)
  | failedBlocking io request hphase =>
      rcases hs.finishBlocking (t := { s with
        failures := s.failures + 1, phase := .top, calls := s.calls.erase (.await request.stamp) })
        hphase rfl rfl rfl rfl with ⟨hcalls, hbefore, hafter⟩
      refine ⟨ht, hcalls, ?_, fun hnone => by simp at hnone, by simp⟩
      rw [hafter]
      refine List.Sublist.trans ?_ hs.sublist
      rw [hbefore]
      exact List.sublist_append_left _ _
  | taken io last request hphase hmailbox =>
      refine hs.of_pipeline_eq ht ?_ ?_ rfl rfl (by simp)
      · have hmatch := hs.calls
        unfold outstanding at hmatch ⊢
        rw [hphase] at hmatch
        exact hmatch
      · unfold pipeline outstanding
        rw [hphase, hmailbox]
        simp [inHand, phaseRequest]
  | wroteMailbox io last request db hphase =>
      rcases hs.flushed (t := { s with
        db := db, written := s.written ++ [request], phase := afterFlush last
        outcomes := s.outcomes ++ [(request, .flushed true)] }) hphase rfl rfl rfl
        with ⟨hcalls, hout, hhand, hidle⟩
      refine hs.of_pipeline_eq ht hcalls ?_ rfl rfl hidle
      unfold pipeline
      rw [hout, hhand, hphase]
      simp [inHand]
  | failedMailbox io last request hphase =>
      rcases hs.flushed (t := { s with
        failures := s.failures + 1, phase := afterFlush last
        outcomes := s.outcomes ++ [(request, .flushed false)] }) hphase rfl rfl rfl
        with ⟨hcalls, hout, hhand, hidle⟩
      refine ⟨ht, hcalls, ?_, fun hnone => by simp at hnone, hidle⟩
      refine List.Sublist.trans ?_ hs.sublist
      unfold pipeline
      rw [hout, hhand, hphase]
      simp [inHand]

/-! ## Submission order -/

/-- Stamps grow with every submission. -/
structure Stamped (s : WriterSystem) : Prop where
  increasing : s.submitted.Pairwise fun a b => a.stamp < b.stamp
  bound : ∀ request ∈ s.submitted, request.stamp < s.now

theorem Stamped.submit {s t : WriterSystem} (hs : Stamped s) (state : WindowsState)
    (hsubmitted : t.submitted = s.submitted ++ [⟨s.now, state⟩]) (hnow : t.now = s.now + 1) :
    Stamped t := by
  constructor
  · rw [hsubmitted, List.pairwise_append]
    refine ⟨hs.increasing, List.pairwise_singleton _ _, ?_⟩
    intro a ha b hb
    rw [List.mem_singleton.mp hb]
    exact hs.bound a ha
  · intro request hrequest
    rw [hsubmitted, List.mem_append, List.mem_singleton] at hrequest
    rw [hnow]
    rcases hrequest with hold | rfl
    · exact Nat.lt_succ_of_lt (hs.bound request hold)
    · exact Nat.lt_succ_self s.now

theorem Stamped.step {s t : WriterSystem} {action : WriterAction} (hs : Stamped s)
    (h : Transition s action t) : Stamped t := by
  cases h with
  | put state halive => exact hs.submit state rfl rfl
  | beginBlocking state halive => exact hs.submit state rfl rfl
  | sent request hcall hphase hroom =>
      exact ⟨hs.increasing, fun other hother => Nat.lt_succ_of_lt (hs.bound other hother)⟩
  | _ => exact ⟨hs.increasing, hs.bound⟩

theorem InOrder.written_of_exited {s : WriterSystem} (hs : InOrder s) (hphase : s.phase = .exited) :
    s.pipeline = s.written := by
  have hidle := hs.lifecycle.idle (hs.lifecycle.gone (by rw [hphase]; rfl))
  have hmailbox := hs.lifecycle.empty (by rw [hphase]; rfl)
  have hmatch := hs.calls
  rw [hidle] at hmatch
  unfold pipeline
  rw [show s.outstanding = [] from hmatch, hmailbox, hphase]
  simp [inHand]

/-! ## The thread ends after a shutdown -/

def phaseRank : WriterPhase → Nat
  | .exited => 0
  | .writeMailbox _ true => 1
  | .flushMailbox true => 2
  | .recv => 3
  | .recvTimeout => 3
  | .top => 4
  | .writeBlocking _ => 5
  | .writeMailbox _ false => 5
  | .handleBlocking _ _ => 6
  | .flushMailbox false => 6

/-- Steps left for the writer thread once the handle is gone. -/
def stepsLeft (s : WriterSystem) : Nat := 5 * s.channel.length + phaseRank s.phase

/-- A message weighs more than what the thread does with it. -/
theorem stepsLeft_receive {s : WriterSystem} {message : WriterMessage} {rest : List WriterMessage}
    (hchannel : s.channel = message :: rest) (hphase : 3 ≤ phaseRank s.phase) :
    (s.receive message rest).stepsLeft < s.stepsLeft := by
  have hle : (s.receive message rest).stepsLeft ≤ 5 * rest.length + 6 := by
    cases message <;> simp [receive, stepsLeft, phaseRank]
  have hlength : s.stepsLeft = 5 * rest.length + 5 + phaseRank s.phase := by
    rw [stepsLeft, hchannel, List.length_cons]
    omega
  omega

/-- Once the handle is gone the thread never waits, and it comes nearer to its end. -/
theorem writerStep_of_dropped {s : WriterSystem} (hdropped : s.senderAlive = false)
    (hphase : s.phase ≠ .exited) (io : Bool) :
    ∃ t, s.writerStep io = some t ∧ t.senderAlive = false ∧ t.stepsLeft < s.stepsLeft := by
  unfold writerStep stepsLeft
  split
  · rename_i hp
    refine ⟨_, rfl, hdropped, ?_⟩
    rw [hp]
    by_cases hmailbox : s.mailbox.isSome = true <;> simp [hmailbox, phaseRank]
  · rename_i hp
    split
    · rename_i message rest hchannel
      refine ⟨_, rfl, by cases message <;> exact hdropped, ?_⟩
      exact stepsLeft_receive hchannel (by rw [hp]; exact Nat.le_refl 3)
    · have hgone : ¬s.senderAlive = true := by simp [hdropped]
      refine ⟨_, if_neg hgone, hdropped, ?_⟩
      rw [hp]
      simp [phaseRank]
  · rename_i hp
    split
    · rename_i message rest hchannel
      refine ⟨_, rfl, by cases message <;> exact hdropped, ?_⟩
      exact stepsLeft_receive hchannel (by rw [hp]; exact Nat.le_refl 3)
    · refine ⟨_, rfl, hdropped, ?_⟩
      rw [hp, hdropped]
      simp [phaseRank]
  · rename_i hp
    refine ⟨_, rfl, hdropped, ?_⟩
    rw [hp]
    simp [phaseRank]
  · rename_i request hp
    rcases s.write_cases io request with ⟨db, hwrite⟩ | ⟨-, hwrite⟩ <;> rw [hwrite, hp] <;>
      exact ⟨_, rfl, hdropped, by simp [phaseRank]⟩
  · rename_i last hp
    split
    · refine ⟨_, rfl, hdropped, ?_⟩
      rw [hp]
      cases last <;> simp [phaseRank, afterFlush]
    · refine ⟨_, rfl, hdropped, ?_⟩
      rw [hp]
      cases last <;> simp [phaseRank]
  · rename_i request last hp
    rcases s.write_cases io request with ⟨db, hwrite⟩ | ⟨-, hwrite⟩ <;> rw [hwrite, hp] <;>
      exact ⟨_, rfl, hdropped, by cases last <;> simp [phaseRank, afterFlush]⟩
  · rename_i hp
    exact absurd hp hphase

/-- A shut-down writer ends, whatever was left in its channel. -/
theorem exits_of_dropped {s : WriterSystem} (hdropped : s.senderAlive = false) :
    ∃ n t, LabelledRun.run step s (List.replicate n (.writer true)) = some t ∧
      t.phase = .exited := by
  induction hleft : s.stepsLeft using Nat.strongRecOn generalizing s with
  | ind left ih =>
      by_cases hphase : s.phase = .exited
      · exact ⟨0, s, rfl, hphase⟩
      · rcases writerStep_of_dropped hdropped hphase true with ⟨next, hstep, hnext, hlt⟩
        rcases ih next.stepsLeft (hleft ▸ hlt) hnext rfl with ⟨n, t, hrun, hend⟩
        refine ⟨n + 1, t, ?_, hend⟩
        have hfirst : step s (.writer true) = some next := hstep
        rw [List.replicate_succ, LabelledRun.run_cons, hfirst]
        exact hrun

end WriterSystem

open LabelledRun WriterSystem

/-- With one submitting thread, in every run: what has been written is a
subsequence of what was submitted, in submission order; a filled mailbox never
meets an untimed wait without a wake-up on its way; and once the thread has
exited with no write failed, the last snapshot written is the last submitted. A
thread whose handle is gone does exit. -/
theorem writer_single_thread {db : Option StateDb} {actions : List WriterAction} {s : WriterSystem}
    (hthread : Guarded WriterSystem.step OneThread (start db) actions)
    (hrun : run WriterSystem.step (start db) actions = some s) :
    s.written.Sublist s.submitted ∧ s.submitted.Pairwise (fun a b => a.stamp < b.stamp) ∧
      (s.phase = .recv → s.mailbox ≠ none → s.channel ≠ [] ∨ Call.notify ∈ s.calls) ∧
      (s.phase = .exited → s.failures = 0 → s.written.getLast? = s.submitted.getLast?) ∧
      (s.senderAlive = false → ∃ n t,
        run WriterSystem.step s (List.replicate n (.writer true)) = some t ∧
        t.phase = .exited) := by
  have hinv : InOrder s ∧ Stamped s := by
    refine invariant_of_guarded (fun s => InOrder s ∧ Stamped s) ?_
      ⟨inOrder_start db, ⟨List.Pairwise.nil, by simp [start]⟩⟩ hthread hrun
    intro s action t hs hguard hstep
    have htransition := transition_of_step hstep
    exact ⟨hs.1.step hguard htransition, hs.2.step htransition⟩
  refine ⟨?_, hinv.2.increasing, hinv.1.lifecycle.wakeup, ?_, exits_of_dropped⟩
  · refine List.Sublist.trans ?_ hinv.1.sublist
    unfold pipeline
    rw [List.append_assoc, List.append_assoc]
    exact List.sublist_append_left _ _
  · intro hphase hnone
    rw [← hinv.1.written_of_exited hphase]
    exact hinv.1.last hnone

instance (s : WriterSystem) (action : WriterAction) : Decidable (OneThread s action) := by
  unfold OneThread
  split <;> infer_instance

/-- An asynchronous save that a blocking one supersedes, one that the shutdown flushes. -/
def sampleSaves : List WriterAction := [
  .saveAsync ⟨[]⟩, .trySend, .saveBlocking sampleSnapshot, .writer true,
  .send ⟨1, sampleSnapshot⟩, .writer true, .writer true, .writer true, .writer true, .writer true,
  .writer true, .saveAsync ⟨[]⟩, .trySend, .shutdown, .writer true, .writer true, .writer true,
  .writer true, .writer true]

theorem writer_single_thread_sample :
    ∃ s, run WriterSystem.step (start (some ⟨Tables.empty, ∅⟩)) sampleSaves = some s ∧
      s.written.Sublist s.submitted ∧ s.submitted.Pairwise (fun a b => a.stamp < b.stamp) ∧
      (s.phase = .recv → s.mailbox ≠ none → s.channel ≠ [] ∨ Call.notify ∈ s.calls) ∧
      (s.phase = .exited → s.failures = 0 → s.written.getLast? = s.submitted.getLast?) ∧
      (s.senderAlive = false → ∃ n t,
        run WriterSystem.step s (List.replicate n (.writer true)) = some t ∧
        t.phase = .exited) := by
  have hsome : (run WriterSystem.step (start (some ⟨Tables.empty, ∅⟩)) sampleSaves).isSome := by
    decide
  rcases Option.isSome_iff_exists.mp hsome with ⟨s, hrun⟩
  exact ⟨s, hrun, writer_single_thread (Guarded.of_guardedRun (by decide)) hrun⟩

end Fulgur
