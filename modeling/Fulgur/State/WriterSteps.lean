import Fulgur.State.Writer

/-! # What each step of the writer does

The transitions of the writer system one by one. Every proof about runs looks
at the step function through this list only.
-/

namespace Fulgur

namespace WriterSystem

/-- Every transition of the system, with what enables it. -/
inductive Transition (s : WriterSystem) : WriterAction → WriterSystem → Prop where
  | put (state : WindowsState) (halive : s.senderAlive = true) :
      Transition s (.saveAsync state) (s.put state)
  | notified (hcall : Call.notify ∈ s.calls) (hphase : s.phase ≠ .exited)
      (hroom : s.channel.length < CHANNEL_CAPACITY) :
      Transition s .trySend { s with
        channel := s.channel ++ [.mailboxFilled], calls := s.calls.erase .notify }
  | notifyFull (hcall : Call.notify ∈ s.calls) (hphase : s.phase ≠ .exited)
      (hfull : CHANNEL_CAPACITY ≤ s.channel.length) :
      Transition s .trySend { s with calls := s.calls.erase .notify }
  | notifyDisconnected (hcall : Call.notify ∈ s.calls) (hphase : s.phase = .exited) :
      Transition s .trySend { s with
        mailbox := none, outcomes := s.settled .dropped, calls := s.calls.erase .notify }
  | beginBlocking (state : WindowsState) (halive : s.senderAlive = true) :
      Transition s (.saveBlocking state) (s.beginBlocking state)
  | sent (request : Submission) (hcall : Call.send request ∈ s.calls) (hphase : s.phase ≠ .exited)
      (hroom : s.channel.length < CHANNEL_CAPACITY) :
      Transition s (.send request) { s with
        channel := s.channel ++ [.blocking request s.now]
        calls := .await request.stamp :: s.calls.erase (.send request)
        now := s.now + 1 }
  | sendDisconnected (request : Submission) (hcall : Call.send request ∈ s.calls)
      (hphase : s.phase = .exited) :
      Transition s (.send request) { s with calls := s.calls.erase (.send request) }
  | abandoned (stamp : Nat) (hcall : Call.await stamp ∈ s.calls) (hphase : s.phase = .exited) :
      Transition s (.abandon stamp) { s with calls := s.calls.erase (.await stamp) }
  | shutdown (hidle : s.calls = []) : Transition s .shutdown { s with senderAlive := false }
  | waitUntimed (io : Bool) (hphase : s.phase = .top) (hmailbox : s.mailbox = none) :
      Transition s (.writer io) { s with phase := .recv }
  | waitTimed (io : Bool) (hphase : s.phase = .top) (hmailbox : s.mailbox ≠ none) :
      Transition s (.writer io) { s with phase := .recvTimeout }
  | wokeUp (io : Bool) (rest : List WriterMessage)
      (hphase : s.phase = .recv ∨ s.phase = .recvTimeout)
      (hchannel : s.channel = .mailboxFilled :: rest) :
      Transition s (.writer io) { s with channel := rest, phase := .top }
  | received (io : Bool) (request : Submission) (enqueued : Nat) (rest : List WriterMessage)
      (hphase : s.phase = .recv ∨ s.phase = .recvTimeout)
      (hchannel : s.channel = .blocking request enqueued :: rest) :
      Transition s (.writer io)
        { s with channel := rest, phase := .handleBlocking request enqueued }
  | timedOut (io : Bool) (hphase : s.phase = .recvTimeout) (hchannel : s.channel = [])
      (halive : s.senderAlive = true) :
      Transition s (.writer io) { s with phase := .flushMailbox false }
  | disconnected (io : Bool) (hphase : s.phase = .recv ∨ s.phase = .recvTimeout)
      (hchannel : s.channel = []) (hdropped : s.senderAlive = false) :
      Transition s (.writer io) { s with phase := .flushMailbox true }
  | superseded (io : Bool) (request : Submission) (enqueued : Nat)
      (hphase : s.phase = .handleBlocking request enqueued) :
      Transition s (.writer io) { s with
        mailbox := none, outcomes := s.settled (.superseded enqueued),
        phase := .writeBlocking request }
  | wroteBlocking (io : Bool) (request : Submission) (db : Option StateDb)
      (hphase : s.phase = .writeBlocking request) :
      Transition s (.writer io) { s with
        db := db, written := s.written ++ [request], phase := .top
        calls := s.calls.erase (.await request.stamp) }
  | failedBlocking (io : Bool) (request : Submission) (hphase : s.phase = .writeBlocking request) :
      Transition s (.writer io) { s with
        failures := s.failures + 1, phase := .top, calls := s.calls.erase (.await request.stamp) }
  | nothingToFlush (io last : Bool) (hphase : s.phase = .flushMailbox last)
      (hmailbox : s.mailbox = none) :
      Transition s (.writer io) { s with phase := afterFlush last }
  | taken (io last : Bool) (request : Submission) (hphase : s.phase = .flushMailbox last)
      (hmailbox : s.mailbox = some request) :
      Transition s (.writer io) { s with mailbox := none, phase := .writeMailbox request last }
  | wroteMailbox (io last : Bool) (request : Submission) (db : Option StateDb)
      (hphase : s.phase = .writeMailbox request last) :
      Transition s (.writer io) { s with
        db := db, written := s.written ++ [request], phase := afterFlush last
        outcomes := s.outcomes ++ [(request, .flushed true)] }
  | failedMailbox (io last : Bool) (request : Submission)
      (hphase : s.phase = .writeMailbox request last)
      (hfailed : ∀ db, applySnapshot io s.db request.state ≠ .ok db) :
      Transition s (.writer io) { s with
        failures := s.failures + 1, phase := afterFlush last
        outcomes := s.outcomes ++ [(request, .flushed false)] }

private theorem transition_of_receive {s : WriterSystem} (io : Bool) {message : WriterMessage}
    {rest : List WriterMessage} (hphase : s.phase = .recv ∨ s.phase = .recvTimeout)
    (hchannel : s.channel = message :: rest) :
    Transition s (.writer io) (s.receive message rest) := by
  cases message with
  | blocking request enqueued => exact .received io request enqueued rest hphase hchannel
  | mailboxFilled => exact .wokeUp io rest hphase hchannel

private theorem transition_of_writerStep {s t : WriterSystem} {io : Bool}
    (h : s.writerStep io = some t) : Transition s (.writer io) t := by
  unfold writerStep at h
  split at h
  · rename_i hphase
    cases h
    by_cases hmailbox : s.mailbox = none
    · rw [if_neg (by simp [hmailbox])]
      exact .waitUntimed io hphase hmailbox
    · rw [if_pos (Option.isSome_iff_ne_none.mpr hmailbox)]
      exact .waitTimed io hphase hmailbox
  · rename_i hphase
    split at h
    · rename_i message rest hchannel
      cases h
      exact transition_of_receive io (Or.inl hphase) hchannel
    · rename_i hchannel
      split at h
      · cases h
      · rename_i hdropped
        cases h
        exact .disconnected io (Or.inl hphase) hchannel (Bool.eq_false_iff.mpr hdropped)
  · rename_i hphase
    split at h
    · rename_i message rest hchannel
      cases h
      exact transition_of_receive io (Or.inr hphase) hchannel
    · rename_i hchannel
      cases h
      by_cases halive : s.senderAlive = true
      · have hlast : (!s.senderAlive) = false := by simp [halive]
        rw [hlast]
        exact .timedOut io hphase hchannel halive
      · have hlast : (!s.senderAlive) = true := by simp [halive]
        rw [hlast]
        exact .disconnected io (Or.inr hphase) hchannel (Bool.eq_false_iff.mpr halive)
  · rename_i request enqueued hphase
    cases h
    exact .superseded io request enqueued hphase
  · rename_i request hphase
    rcases s.write_cases io request with ⟨db, hwrite⟩ | ⟨-, hwrite⟩
    · rw [hwrite] at h
      cases h
      exact .wroteBlocking io request db hphase
    · rw [hwrite] at h
      cases h
      exact .failedBlocking io request hphase
  · rename_i last hphase
    split at h
    · rename_i hmailbox
      cases h
      exact .nothingToFlush io last hphase hmailbox
    · rename_i request hmailbox
      cases h
      exact .taken io last request hphase hmailbox
  · rename_i request last hphase
    rcases s.write_cases io request with ⟨db, hwrite⟩ | ⟨hfailed, hwrite⟩
    · rw [hwrite] at h
      cases h
      exact .wroteMailbox io last request db hphase
    · rw [hwrite] at h
      cases h
      exact .failedMailbox io last request hphase hfailed
  · cases h

theorem transition_of_step {s t : WriterSystem} {action : WriterAction}
    (h : s.step action = some t) : Transition s action t := by
  cases action with
  | saveAsync state =>
      simp only [step, Option.ite_none_right_eq_some, Option.some.injEq] at h
      rcases h with ⟨halive, rfl⟩
      exact .put state halive
  | trySend =>
      simp only [step, Option.ite_none_right_eq_some, Option.some.injEq] at h
      rcases h with ⟨hcall, rfl⟩
      unfold trySend
      by_cases hphase : s.phase = .exited
      · rw [if_pos hphase]
        exact .notifyDisconnected hcall hphase
      · rw [if_neg hphase]
        by_cases hroom : s.channel.length < CHANNEL_CAPACITY
        · rw [if_pos hroom]
          exact .notified hcall hphase hroom
        · rw [if_neg hroom]
          exact .notifyFull hcall hphase (Nat.le_of_not_lt hroom)
  | saveBlocking state =>
      simp only [step, Option.ite_none_right_eq_some, Option.some.injEq] at h
      rcases h with ⟨halive, rfl⟩
      exact .beginBlocking state halive
  | send request =>
      simp only [step, Option.ite_none_right_eq_some] at h
      rcases h with ⟨hcall, h⟩
      unfold send at h
      by_cases hphase : s.phase = .exited
      · rw [if_pos hphase, Option.some.injEq] at h
        subst h
        exact .sendDisconnected request hcall hphase
      · simp only [if_neg hphase, Option.ite_none_right_eq_some, Option.some.injEq] at h
        rcases h with ⟨hroom, rfl⟩
        exact .sent request hcall hphase hroom
  | abandon stamp =>
      simp only [step, Option.ite_none_right_eq_some, Option.some.injEq] at h
      rcases h with ⟨⟨hphase, hcall⟩, rfl⟩
      exact .abandoned stamp hcall hphase
  | shutdown =>
      simp only [step, Option.ite_none_right_eq_some, Option.some.injEq] at h
      rcases h with ⟨hidle, rfl⟩
      exact .shutdown hidle
  | writer io => exact transition_of_writerStep h

end WriterSystem

end Fulgur
