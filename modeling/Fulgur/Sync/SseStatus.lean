import Fulgur.Sync.SseWorkers

/-! # Who sets the connection status

One worker at most has not been told to stop, whatever happens. The status is
another matter: heartbeats that are still queued, jobs and device fetches that are
still under way, and workers between their look at the flag and their write all set
it without asking whether the connection was stopped or started anew in the
meantime. So a stop is safe when nothing of the kind is under way, and so is the
start of a worker when nothing of an earlier worker is.
-/

namespace Fulgur

/-- The thread is between its look at the flag and its write. -/
def SseThread.publishing : SseThread → Bool
  | .checked _ => true
  | .compared _ => true
  | _ => false

def RestartStep.setsStatus : RestartStep → Bool
  | .setStatus _ => true
  | .startSse => false

namespace SseRestartJob

def setsStatus (job : SseRestartJob) : Bool :=
  match job.stage with
  | .retiring => job.kind ≠ .plain && !job.cancelled
  | .synchronizing => job.kind ≠ .plain
  | .settling steps => steps.any RestartStep.setsStatus

/-- The job shows an indicator that can be cancelled. -/
def offersCancel (job : SseRestartJob) : Bool :=
  job.kind = .withProgress && !job.cancelled && !job.dismissed

end SseRestartJob

namespace SseConnection

def threads (s : SseConnection) : List SseThread := s.workers.map SseWorker.thread

/-- The connection is being stopped, or was stopped and not started again. -/
def Halted (s : SseConnection) : Prop :=
  s.stopped = true ∨ s.ui = some (.setStatus .notActivated)

/-- Nothing is under way that sets the status without asking whether the connection was stopped. -/
structure Still (s : SseConnection) : Prop where
  heartbeats : ∀ event ∈ s.events, event.2 ≠ .heartbeat
  threads : ∀ thread ∈ s.threads, thread.publishing = false
  jobs : ∀ job ∈ s.jobs, job.setsStatus = false ∧ job.offersCancel = false
  fetches : ∀ fetch ∈ s.fetches, fetch.stage = .over

/-- Nothing is under way that sets the status on behalf of a worker. -/
structure Calm (s : SseConnection) (worker : Nat) : Prop where
  heartbeats : (worker, .heartbeat) ∉ s.events
  thread : ∀ thread ∈ s.threads[worker]?, thread.publishing = false
  ui : s.ui ≠ some (.restore worker)

/-- The worker whose thread a job is about to spawn. -/
def starting (s : SseConnection) (job : Nat) : Option Nat :=
  match s.jobs[job]? with
  | some ⟨worker, _, _, _, .settling (.startSse :: _)⟩ => some worker
  | _ => none

instance (s : SseConnection) : Decidable s.Halted := inferInstanceAs (Decidable (_ ∨ _))

instance (s : SseConnection) : Decidable s.Still :=
  decidable_of_iff ((∀ event ∈ s.events, event.2 ≠ .heartbeat) ∧
      (∀ thread ∈ s.threads, thread.publishing = false) ∧
      (∀ job ∈ s.jobs, job.setsStatus = false ∧ job.offersCancel = false) ∧
      ∀ fetch ∈ s.fetches, fetch.stage = .over)
    ⟨fun h => ⟨h.1, h.2.1, h.2.2.1, h.2.2.2⟩, fun h => ⟨h.1, h.2, h.3, h.4⟩⟩

instance (s : SseConnection) (worker : Nat) : Decidable (s.Calm worker) :=
  decidable_of_iff ((worker, .heartbeat) ∉ s.events ∧
      (∀ thread ∈ s.threads[worker]?, thread.publishing = false) ∧ s.ui ≠ some (.restore worker))
    ⟨fun h => ⟨h.1, h.2.1, h.2.2⟩, fun h => ⟨h.1, h.2, h.3⟩⟩

end SseConnection

/--
A connection is stopped when nothing is under way that would set its status, and
until it is started again no heartbeat arrives and the share sheet is not opened;
a worker's thread is spawned when nothing of an earlier worker is under way, and
no heartbeat of one arrives after that.
-/
def SettledStep (s : SseConnection) : SseAction → Prop
  | .stop => s.Still
  | .fetchDevices => ¬s.Halted
  | .settle job true => ∀ worker ∈ s.starting job, ∀ earlier < worker, s.Calm earlier
  | .send worker .heartbeat => ¬s.Halted ∧ s.successorStarted worker = false
  | _ => True

instance (s : SseConnection) (action : SseAction) : Decidable (SettledStep s action) := by
  unfold SettledStep
  split <;> infer_instance

/--
One worker at most has a clear shutdown flag, no worker that was told to stop has
changed the status after a later one had started, and a stopped connection is not
activated.
-/
structure SseSettled (s : SseConnection) : Prop where
  oneLive : ∀ (i j : Nat) (v w : SseWorker), s.workers[i]? = some v → s.workers[j]? = some w →
    v.shutdownFlag = false → w.shutdownFlag = false → i = j
  retired : ∀ change ∈ s.changes, change.toldToStop = true → change.successorStarted = false
  stopped : s.stopped = true → s.connectionStatus = .notActivated

/-! ## Shutdown flags -/

/-- Only this worker may have a clear shutdown flag. -/
def LiveOnly (workers : List SseWorker) (current : Option Nat) : Prop :=
  ∀ i w, workers[i]? = some w → w.shutdownFlag = false → current = some i

theorem LiveOnly.setThread {workers : List SseWorker} {current : Option Nat}
    (h : LiveOnly workers current) (worker : Nat) (thread : SseThread) :
    LiveOnly (workers.modify worker fun w => { w with thread := thread }) current := by
  intro i w hw hflag
  rw [List.getElem?_modify] at hw
  obtain ⟨before, hbefore, rfl⟩ := Option.map_eq_some_iff.mp hw
  refine h i before hbefore ?_
  split at hflag
  · exact hflag
  · exact hflag

/-- Once the worker in the shared state is told, every flag is set. -/
theorem LiveOnly.signalled {s : SseConnection} (h : LiveOnly s.workers s.worker) {i : Nat}
    {w : SseWorker} (hw : s.signalWorker[i]? = some w) : w.shutdownFlag = true := by
  unfold SseConnection.signalWorker at hw
  by_contra hclear
  rw [Bool.not_eq_true] at hclear
  cases hworker : s.worker with
  | none =>
      rw [hworker] at hw
      have hcurrent := h i w hw hclear
      rw [hworker] at hcurrent
      cases hcurrent
  | some current =>
      rw [hworker] at hw
      simp only [List.getElem?_modify] at hw
      obtain ⟨before, hbefore, rfl⟩ := Option.map_eq_some_iff.mp hw
      split at hclear
      · cases hclear
      · rename_i hne
        have hcurrent := h i before hbefore hclear
        rw [hworker] at hcurrent
        exact hne (Option.some_inj.mp hcurrent)

theorem length_signalWorker (s : SseConnection) : s.signalWorker.length = s.workers.length := by
  unfold SseConnection.signalWorker
  split
  · rfl
  · exact List.length_modify _ _ _

theorem LiveOnly.rotate {s : SseConnection} (h : LiveOnly s.workers s.worker) (thread : SseThread) :
    LiveOnly (s.signalWorker ++ [⟨false, thread⟩]) (some s.workers.length) := by
  intro i w hw hflag
  by_cases hi : i < s.signalWorker.length
  · rw [List.getElem?_append_left hi] at hw
    rw [h.signalled hw] at hflag
    cases hflag
  · rw [List.getElem?_append_right (by omega)] at hw
    have hlast : i - s.signalWorker.length < 1 := (List.getElem?_eq_some_iff.mp hw).choose
    rw [length_signalWorker] at hi hlast
    exact congrArg some (by omega)

/-! ## Threads -/

namespace SseConnection

variable {s s' : SseConnection} {worker : Nat}

/-- A later worker has started when its thread is among the threads. -/
theorem successorStarted_iff : s.successorStarted worker = true ↔
    ∃ later thread, worker < later ∧ s.threads[later]? = some thread ∧ thread ≠ .notSpawned := by
  unfold successorStarted threads
  rw [List.any_eq_true]
  constructor
  · rintro ⟨w, hw, hstarted⟩
    obtain ⟨i, hi⟩ := List.mem_iff_getElem?.mp hw
    rw [List.getElem?_drop] at hi
    refine ⟨worker + 1 + i, w.thread, by omega, ?_, by simpa [SseWorker.hasStarted] using hstarted⟩
    rw [List.getElem?_map, hi]
    rfl
  · rintro ⟨later, thread, hlater, hthread, hstarted⟩
    rw [List.getElem?_map] at hthread
    obtain ⟨w, hw, rfl⟩ := Option.map_eq_some_iff.mp hthread
    refine ⟨w, List.mem_iff_getElem?.mpr ⟨later - (worker + 1), ?_⟩, ?_⟩
    · rw [List.getElem?_drop, Nat.add_sub_of_le hlater]
      exact hw
    · simpa [SseWorker.hasStarted] using hstarted

theorem threads_setThread (s : SseConnection) (worker : Nat) (thread : SseThread) :
    (s.setThread worker thread).threads = s.threads.set worker thread := by
  unfold threads setThread
  apply List.ext_getElem?
  intro i
  rw [List.getElem?_map, List.getElem?_modify, List.getElem?_set, List.getElem?_map]
  by_cases hi : worker = i
  · subst hi
    cases hw : s.workers[worker]? with
    | none => simpa using List.getElem?_eq_none_iff.mp hw
    | some w => simp [(List.getElem?_eq_some_iff.mp hw).choose]
  · simp [hi]

theorem map_thread_signalWorker (s : SseConnection) :
    s.signalWorker.map SseWorker.thread = s.threads := by
  unfold signalWorker threads
  split
  · rfl
  · apply List.ext_getElem?
    intro i
    rw [List.getElem?_map, List.getElem?_modify, List.getElem?_map]
    cases s.workers[i]? with
    | none => rfl
    | some w =>
        simp only [Option.map_eq_map, Option.map_some]
        split <;> rfl

end SseConnection

/-! ## The invariant -/

/-- What holds between any two steps that meet the condition. -/
structure SseKept (s : SseConnection) : Prop where
  flags : LiveOnly s.workers s.worker
  newest : ∀ worker, s.worker = some worker → worker + 1 = s.workers.length
  halted : s.Halted → s.worker = none ∧ s.Still
  busy : ∀ work, s.ui = some work → work ≠ .setStatus .notActivated → s.stopped = false
  stopped : s.stopped = true → s.connectionStatus = .notActivated
  /-- Nothing is under way for a worker once a later one has started. -/
  overtaken : ∀ worker, s.successorStarted worker = true → s.Calm worker
  changes : ∀ change ∈ s.changes, change.successorStarted = false

namespace SseKept

variable {s s' : SseConnection}

theorem init (status : SynchronizationStatus) : SseKept (.init status) where
  flags := nofun
  newest := nofun
  halted := nofun
  busy := nofun
  stopped := nofun
  overtaken := nofun
  changes := nofun

theorem settled (h : SseKept s) : SseSettled s where
  oneLive := by
    intro i j v w hv hw hvflag hwflag
    have hi := h.flags i v hv hvflag
    have hj := h.flags j w hw hwflag
    exact Option.some_inj.mp (hi.symm.trans hj)
  retired change hchange _ := h.changes change hchange
  stopped := h.stopped

theorem live (h : SseKept s) {worker : Nat} (hflag : s.toldToStop worker = false)
    (hworker : worker < s.workers.length) :
    ¬s.Halted ∧ s.successorStarted worker = false := by
  have hw : s.workers[worker]? = some s.workers[worker] := List.getElem?_eq_getElem hworker
  have hclear : s.workers[worker].shutdownFlag = false := by
    simpa [SseConnection.toldToStop, hw] using hflag
  have hcurrent := h.flags worker _ hw hclear
  constructor
  · intro hhalted
    rw [(h.halted hhalted).1] at hcurrent
    cases hcurrent
  · have hlast := h.newest worker hcurrent
    rw [SseConnection.successorStarted, hlast, List.drop_length]
    rfl

/-! ### What changes the status -/

theorem changes_setStatus (h : SseKept s) {worker : Option Nat} (status : SynchronizationStatus)
    (hworker : ∀ i ∈ worker, s.successorStarted i = false) :
    ∀ change ∈ (s.setStatus worker status).changes, change.successorStarted = false := by
  intro change hchange
  unfold SseConnection.setStatus at hchange
  split at hchange
  · exact h.changes change hchange
  · rcases List.mem_append.mp hchange with hchange | hchange
    · exact h.changes change hchange
    · rw [List.mem_singleton.mp hchange]
      cases worker with
      | none => rfl
      | some i => exact hworker i rfl

theorem changes_setStatus_none (h : SseKept s) (status : SynchronizationStatus) :
    ∀ change ∈ (s.setStatus none status).changes, change.successorStarted = false := by
  apply h.changes_setStatus
  intro i hi
  cases hi

theorem setStatus (h : SseKept s) {worker : Option Nat} (status : SynchronizationStatus)
    (hrunning : ¬s.Halted) (hworker : ∀ i ∈ worker, s.successorStarted i = false) :
    SseKept (s.setStatus worker status) where
  flags := h.flags
  newest := h.newest
  halted hhalted := absurd hhalted hrunning
  busy := h.busy
  stopped hstopped := absurd (Or.inl hstopped) hrunning
  overtaken i hi :=
    have hcalm := h.overtaken i hi
    ⟨hcalm.heartbeats, hcalm.thread, hcalm.ui⟩
  changes := h.changes_setStatus status hworker

theorem setStatus_none (h : SseKept s) (status : SynchronizationStatus) (hrunning : ¬s.Halted) :
    SseKept (s.setStatus none status) := by
  apply h.setStatus status hrunning
  intro i hi
  cases hi

/-! ### What leaves the status alone -/

/-- No heartbeat comes in. -/
theorem withEvents (h : SseKept s) {events : List (Nat × SseMessage)}
    (hevents : ∀ worker, (worker, .heartbeat) ∈ events → (worker, .heartbeat) ∈ s.events) :
    SseKept { s with events := events } where
  flags := h.flags
  newest := h.newest
  halted hhalted := by
    obtain ⟨hworker, hstill⟩ := h.halted hhalted
    refine ⟨hworker, ⟨fun event hevent hheartbeat => ?_, hstill.threads, hstill.jobs,
      hstill.fetches⟩⟩
    obtain ⟨worker, message⟩ := event
    cases hheartbeat
    exact hstill.heartbeats _ (hevents worker hevent) rfl
  busy := h.busy
  stopped := h.stopped
  overtaken i hi :=
    have hcalm := h.overtaken i hi
    ⟨fun hheartbeat => hcalm.heartbeats (hevents i hheartbeat), hcalm.thread, hcalm.ui⟩
  changes := h.changes

theorem notify (h : SseKept s) (worker : Nat) {message : SseMessage}
    (hmessage : message ≠ .heartbeat) :
    SseKept { s with events := s.events ++ [(worker, message)] } := by
  apply h.withEvents
  intro i hi
  rcases List.mem_append.mp hi with hold | hnew
  · exact hold
  · cases List.mem_singleton.mp hnew
    exact absurd rfl hmessage

/-- A job goes on, and a connection that is halted has none that would set the status. -/
theorem modifyJob (h : SseKept s) (job : Nat) {f : SseRestartJob → SseRestartJob}
    (hjob : s.Halted → ∀ j ∈ s.jobs[job]?, (f j).setsStatus = false ∧ (f j).offersCancel = false) :
    SseKept { s with jobs := s.jobs.modify job f } where
  flags := h.flags
  newest := h.newest
  halted hhalted := by
    obtain ⟨hworker, hstill⟩ := h.halted hhalted
    refine ⟨hworker, ⟨hstill.heartbeats, hstill.threads, fun j hj => ?_, hstill.fetches⟩⟩
    obtain ⟨i, hi⟩ := List.mem_iff_getElem?.mp hj
    rw [List.getElem?_modify] at hi
    obtain ⟨before, hbefore, rfl⟩ := Option.map_eq_some_iff.mp hi
    split
    · rename_i hindex
      subst hindex
      exact hjob hhalted before hbefore
    · exact hstill.jobs before (List.mem_of_getElem? hbefore)
  busy := h.busy
  stopped := h.stopped
  overtaken i hi :=
    have hcalm := h.overtaken i hi
    ⟨hcalm.heartbeats, hcalm.thread, hcalm.ui⟩
  changes := h.changes

/-- A fetch goes on, and a connection that is halted has none under way. -/
theorem setFetch (h : SseKept s) (fetch : Nat) {stage : DeviceFetchStage} (hrunning : ¬s.Halted) :
    SseKept (s.setFetch fetch stage) where
  flags := h.flags
  newest := h.newest
  halted hhalted := absurd hhalted hrunning
  busy := h.busy
  stopped := h.stopped
  overtaken i hi :=
    have hcalm := h.overtaken i hi
    ⟨hcalm.heartbeats, hcalm.thread, hcalm.ui⟩
  changes := h.changes

/--
A thread goes on, or is spawned when nothing of an earlier worker is under way; it
publishes only while its worker is the newest.
-/
theorem setThread (h : SseKept s) (worker : Nat) {thread : SseThread}
    (hspawn : (∃ old, s.threads[worker]? = some old ∧ old ≠ .notSpawned) ∨
      ∀ earlier < worker, s.Calm earlier)
    (hpublishing : thread.publishing = true →
      ¬s.Halted ∧ s.successorStarted worker = false) :
    SseKept (s.setThread worker thread) where
  flags := h.flags.setThread worker thread
  newest i hi := by
    rw [h.newest i hi]
    exact (List.length_modify _ _ _).symm
  halted hhalted := by
    obtain ⟨hworker, hstill⟩ := h.halted hhalted
    refine ⟨hworker, ⟨hstill.heartbeats, fun other hother => ?_, hstill.jobs, hstill.fetches⟩⟩
    rw [SseConnection.threads_setThread] at hother
    rcases List.mem_or_eq_of_mem_set hother with hold | rfl
    · exact hstill.threads other hold
    · by_contra hpublishes
      exact (hpublishing (Bool.not_eq_false _ ▸ hpublishes)).1 hhalted
  busy := h.busy
  stopped := h.stopped
  overtaken i hi := by
    obtain ⟨later, started, hlater, hstarted, hspawned⟩ := SseConnection.successorStarted_iff.mp hi
    rw [SseConnection.threads_setThread, List.getElem?_set] at hstarted
    have hcalm : s.Calm i := by
      by_cases hsame : worker = later
      · subst hsame
        rcases hspawn with ⟨old, hold, hrunning⟩ | hearlier
        · exact h.overtaken i (SseConnection.successorStarted_iff.mpr
            ⟨worker, old, hlater, hold, hrunning⟩)
        · exact hearlier i hlater
      · rw [if_neg hsame] at hstarted
        exact h.overtaken i (SseConnection.successorStarted_iff.mpr
          ⟨later, started, hlater, hstarted, hspawned⟩)
    refine ⟨hcalm.heartbeats, fun other hother => ?_, hcalm.ui⟩
    rw [SseConnection.threads_setThread, List.getElem?_set] at hother
    split at hother
    · rename_i hindex
      subst hindex
      split at hother
      · cases hother
        by_contra hpublishes
        have hnewest := (hpublishing (Bool.not_eq_false _ ▸ hpublishes)).2
        rw [if_neg (by omega)] at hstarted
        rw [SseConnection.successorStarted_iff.mpr ⟨later, started, hlater, hstarted, hspawned⟩]
          at hnewest
        cases hnewest
      · cases hother
    · exact hcalm.thread other hother
  changes := h.changes

end SseKept

end Fulgur
