import Fulgur.Sync.SseStatus

/-! # Every connection is settled

A connection that is stopped while nothing is under way stays not activated, and a
worker that was told to stop changes no status after a later one has started: what
each step keeps of it, and the runs.
-/

namespace Fulgur

namespace SseKept

variable {s s' : SseConnection}

/-! ## The steps -/

theorem rotate (h : SseKept s) (kind : RestartKind) {ui : Option UiWork}
    (hui : ui = none ∨ ui = some (.setStatus .connecting)) (syncInitialized : Bool) :
    SseKept { s.rotate kind with ui := ui, syncInitialized := syncInitialized } where
  flags := h.flags.rotate .notSpawned
  newest i hi := by
    cases hi
    rw [SseConnection.rotate, List.length_append, length_signalWorker]
    rfl
  halted hhalted := by
    exfalso
    rcases hhalted with hstopped | hpending
    · cases hstopped
    · rcases hui with rfl | rfl <;> cases hpending
  busy _ _ _ := rfl
  stopped := nofun
  overtaken i hi := by
    obtain ⟨later, thread, hlater, hthread, hstarted⟩ := SseConnection.successorStarted_iff.mp hi
    have hthreads : (s.rotate kind).threads = s.threads ++ [.notSpawned] := by
      rw [SseConnection.threads, SseConnection.rotate, List.map_append,
        SseConnection.map_thread_signalWorker]
      rfl
    have hold : s.threads[later]? = some thread := by
      change (s.rotate kind).threads[later]? = some thread at hthread
      rw [hthreads, List.getElem?_append] at hthread
      split at hthread
      · exact hthread
      · have hfresh := List.mem_of_getElem? hthread
        exact absurd (List.mem_singleton.mp hfresh) hstarted
    have hcalm := h.overtaken i
      (SseConnection.successorStarted_iff.mpr ⟨later, thread, hlater, hold, hstarted⟩)
    have hshort : i < s.threads.length :=
      Nat.lt_trans hlater (List.getElem?_eq_some_iff.mp hold).choose
    refine ⟨hcalm.heartbeats, fun other hother => ?_, ?_⟩
    · change other ∈ (s.rotate kind).threads[i]? at hother
      rw [hthreads, List.getElem?_append_left hshort] at hother
      exact hcalm.thread other hother
    · rcases hui with rfl | rfl <;> exact nofun
  changes := h.changes

/-- Telling the worker in the shared state to stop leaves none with a clear flag. -/
theorem signalled (h : SseKept s) {ui : Option UiWork}
    (hui : ui = none ∨ ui = some (.setStatus .notActivated))
    (hstill : s.stopped = true ∨ ui = some (.setStatus .notActivated) → s.Still) :
    SseKept { s with workers := s.signalWorker, worker := none, ui := ui } where
  flags i w hw hflag := by
    rw [h.flags.signalled hw] at hflag
    cases hflag
  newest := nofun
  halted hhalted := by
    have hbefore := hstill hhalted
    refine ⟨rfl, ⟨hbefore.heartbeats, ?_, hbefore.jobs, hbefore.fetches⟩⟩
    rw [SseConnection.threads, SseConnection.map_thread_signalWorker]
    exact hbefore.threads
  busy work hwork hne := by
    rcases hui with rfl | rfl
    · cases hwork
    · cases hwork
      exact absurd rfl hne
  stopped := h.stopped
  overtaken i hi := by
    rw [SseConnection.successorStarted_iff, SseConnection.threads,
      SseConnection.map_thread_signalWorker, ← SseConnection.successorStarted_iff] at hi
    have hcalm := h.overtaken i hi
    refine ⟨hcalm.heartbeats, ?_, ?_⟩
    · rw [SseConnection.threads, SseConnection.map_thread_signalWorker]
      exact hcalm.thread
    · rcases hui with rfl | rfl <;> exact nofun
  changes := h.changes

theorem bootstrap (h : SseKept s) (hs : s.bootstrap = some s') : SseKept s' := by
  unfold SseConnection.bootstrap at hs
  split at hs
  · rename_i hready
    cases hs
    exact h.rotate .bootstrap (Or.inl hready.1) true
  · cases hs

theorem restart (h : SseKept s) {progress : Bool} (hs : s.restart progress = some s') :
    SseKept s' := by
  unfold SseConnection.restart at hs
  split at hs
  · rename_i hready
    cases hs
    split
    · exact h.rotate .withProgress (Or.inr rfl) s.syncInitialized
    · exact h.rotate .plain (Or.inl hready) s.syncInitialized
  · cases hs

theorem stop (h : SseKept s) (hguard : SettledStep s .stop) (hs : s.stop = some s') :
    SseKept s' := by
  unfold SseConnection.stop at hs
  split at hs
  · cases hs
    exact h.signalled (Or.inr rfl) fun _ => hguard
  · cases hs

theorem shutdown (h : SseKept s) (hs : s.shutdown = some s') : SseKept s' := by
  unfold SseConnection.shutdown at hs
  split at hs
  · rename_i hready
    cases hs
    refine h.signalled (Or.inl hready) fun hhalted => (h.halted ?_).2
    rcases hhalted with hstopped | hpending
    · exact Or.inl hstopped
    · rw [hready] at hpending
      cases hpending
  · cases hs

theorem uiDone (h : SseKept s) (hrunning : ¬s.Halted) : SseKept { s with ui := none } where
  flags := h.flags
  newest := h.newest
  halted hhalted := by
    rcases hhalted with hstopped | hpending
    · exact absurd (Or.inl hstopped) hrunning
    · cases hpending
  busy := nofun
  stopped := h.stopped
  overtaken i hi :=
    have hcalm := h.overtaken i hi
    ⟨hcalm.heartbeats, hcalm.thread, nofun⟩
  changes := h.changes

theorem not_halted_of_busy (h : SseKept s) {work : UiWork} (hui : s.ui = some work)
    (hwork : work ≠ .setStatus .notActivated) : ¬s.Halted := by
  rintro (hstopped | hpending)
  · rw [h.busy work hui hwork] at hstopped
    cases hstopped
  · rw [hui] at hpending
    exact hwork (Option.some_inj.mp hpending)

theorem finishUi (h : SseKept s) (hs : s.finishUi = some s') : SseKept s' := by
  unfold SseConnection.finishUi at hs
  split at hs
  · cases hs
  · rename_i status hui
    cases hs
    by_cases hstatus : status = .notActivated
    · subst hstatus
      obtain ⟨hworker, hstill⟩ := h.halted (Or.inr hui)
      constructor
      · exact h.flags
      · exact h.newest
      · exact fun _ => ⟨hworker, ⟨hstill.heartbeats, hstill.threads, hstill.jobs, hstill.fetches⟩⟩
      · exact nofun
      · exact fun _ => rfl
      · intro i hi
        have hcalm := h.overtaken i hi
        exact ⟨hcalm.heartbeats, hcalm.thread, nofun⟩
      · exact h.changes_setStatus_none .notActivated
    · have hne : UiWork.setStatus status ≠ .setStatus .notActivated := by simpa using hstatus
      have hrunning := h.not_halted_of_busy hui hne
      have hnext := (h.setStatus_none status hrunning).uiDone hrunning
      have hsame : (s.stopped || decide (status = .notActivated)) = s.stopped := by simp [hstatus]
      rw [hsame]
      exact hnext
  · rename_i worker hui
    cases hs
    have hrunning := h.not_halted_of_busy hui nofun
    have hworker : ∀ i ∈ some worker, s.successorStarted i = false := by
      intro i hi
      cases hi
      by_contra hstarted
      exact (h.overtaken worker (Bool.not_eq_false _ ▸ hstarted)).ui hui
    exact (h.setStatus .connected hrunning hworker).uiDone hrunning
  · rename_i needsReconnect hui
    cases hs
    have hrunning := h.not_halted_of_busy hui nofun
    have hnext := (h.setStatus_none .connecting hrunning).uiDone hrunning
    have hstopped : s.stopped = false := by
      by_contra hstopped
      exact hrunning (Or.inl (Bool.not_eq_false _ ▸ hstopped))
    constructor
    · exact hnext.flags
    · exact hnext.newest
    · rintro (hhalted | hpending)
      · exact absurd (hhalted.symm.trans hstopped) nofun
      · cases hpending
    · exact nofun
    · exact hnext.stopped
    · intro i hi
      have hcalm := hnext.overtaken i hi
      exact ⟨hcalm.heartbeats, hcalm.thread, nofun⟩
    · exact hnext.changes

theorem drain (h : SseKept s) (hs : s.drain = some s') : SseKept s' := by
  unfold SseConnection.drain at hs
  split at hs
  · rename_i worker rest hui hevents
    cases hs
    have hqueued : (worker, .heartbeat) ∈ s.events := by
      rw [hevents]
      exact List.mem_cons_self
    have hrunning : ¬s.Halted := fun hhalted =>
      (h.halted hhalted).2.heartbeats _ hqueued rfl
    have hdrained : SseKept { s with events := rest } := by
      apply h.withEvents
      intro i hi
      rw [hevents]
      exact List.mem_cons_of_mem _ hi
    have hstopped : s.stopped = false := by
      by_contra hstopped
      exact hrunning (Or.inl (Bool.not_eq_false _ ▸ hstopped))
    constructor
    · exact hdrained.flags
    · exact hdrained.newest
    · rintro (hhalted | hpending)
      · exact absurd (hhalted.symm.trans hstopped) nofun
      · dsimp only at hpending
        split at hpending <;> cases hpending
    · exact fun _ _ _ => hstopped
    · exact hdrained.stopped
    · intro i hi
      have hcalm := hdrained.overtaken i hi
      refine ⟨hcalm.heartbeats, hcalm.thread, fun hrestore => ?_⟩
      dsimp only at hrestore
      split at hrestore
      · cases hrestore
      · cases hrestore
        exact (h.overtaken worker hi).heartbeats hqueued
    · exact hdrained.changes
  · rename_i event rest _ _ hevents
    cases hs
    apply h.withEvents
    intro i hi
    rw [hevents]
    exact List.mem_cons_of_mem _ hi
  · cases hs

theorem not_halted_of_job (h : SseKept s) {job : Nat} {j : SseRestartJob}
    (hj : s.jobs[job]? = some j)
    (hsets : j.setsStatus = true ∨ j.offersCancel = true) : ¬s.Halted := by
  intro hhalted
  obtain ⟨hquiet, hgone⟩ := (h.halted hhalted).2.jobs j (List.mem_of_getElem? hj)
  rcases hsets with hsets | hoffers
  · rw [hquiet] at hsets
    cases hsets
  · rw [hgone] at hoffers
    cases hoffers

theorem cancel (h : SseKept s) {job : Nat} (hs : s.cancel job = some s') : SseKept s' := by
  unfold SseConnection.cancel at hs
  split at hs
  · rename_i hui hjob
    cases hs
    have hrunning := h.not_halted_of_job hjob (Or.inr rfl)
    exact (h.setStatus_none .disconnected hrunning).modifyJob job
      fun hhalted => absurd hhalted hrunning
  · cases hs

theorem dismiss (h : SseKept s) {job : Nat} (hs : s.dismiss job = some s') : SseKept s' := by
  unfold SseConnection.dismiss at hs
  split at hs
  · rename_i hui hjob
    cases hs
    apply h.modifyJob
    intro _ j hj
    rw [Option.mem_def, hjob] at hj
    cases hj
    exact ⟨rfl, by simp [SseRestartJob.offersCancel]⟩
  · cases hs

theorem fetchDevices (h : SseKept s) (hguard : SettledStep s .fetchDevices)
    (hs : s.fetchDevices = some s') : SseKept s' := by
  unfold SseConnection.fetchDevices at hs
  split at hs
  · cases hs
    have hstopped : s.stopped = false := by
      by_contra hstopped
      exact hguard (Or.inl (Bool.not_eq_false _ ▸ hstopped))
    constructor
    · exact h.flags
    · exact h.newest
    · rintro (hhalted | hpending)
      · exact absurd (hhalted.symm.trans hstopped) nofun
      · cases hpending
    · exact fun _ _ _ => hstopped
    · exact h.stopped
    · intro i hi
      have hcalm := h.overtaken i hi
      exact ⟨hcalm.heartbeats, hcalm.thread, nofun⟩
    · exact h.changes
  · cases hs

theorem not_halted_of_fetch (h : SseKept s) {fetch : Nat} {f : DeviceFetch}
    (hf : s.fetches[fetch]? = some f) (hstage : f.stage ≠ .over) : ¬s.Halted :=
  fun hhalted => hstage ((h.halted hhalted).2.fetches f (List.mem_of_getElem? hf))

theorem checkSheet (h : SseKept s) {fetch : Nat} {active : Bool}
    (hs : s.checkSheet fetch active = some s') : SseKept s' := by
  unfold SseConnection.checkSheet at hs
  split at hs
  · rename_i needsReconnect hfetch
    cases hs
    exact h.setFetch fetch (h.not_halted_of_fetch hfetch nofun)
  · cases hs

theorem reconnected (h : SseKept s) {fetch : Nat} {result : SyncResult}
    (hs : s.reconnected fetch result = some s') : SseKept s' := by
  unfold SseConnection.reconnected at hs
  split at hs
  · rename_i needsReconnect hfetch
    cases hs
    have hrunning := h.not_halted_of_fetch hfetch nofun
    exact (h.setFetch fetch hrunning).setStatus_none .connected hrunning
  · rename_i needsReconnect error hfetch
    cases hs
    have hrunning := h.not_halted_of_fetch hfetch nofun
    exact (h.setFetch fetch hrunning).setStatus_none (.fromError error) hrunning
  · cases hs

theorem devicesFetched (h : SseKept s) {fetch : Nat} {succeeded : Bool}
    (hs : s.devicesFetched fetch succeeded = some s') : SseKept s' := by
  unfold SseConnection.devicesFetched at hs
  split at hs
  · rename_i needsReconnect hfetch
    cases hs
    have hrunning := h.not_halted_of_fetch hfetch nofun
    have hover : SseKept (s.setFetch fetch .over) := h.setFetch fetch hrunning
    split
    · exact hover.setStatus_none .connected hrunning
    · exact hover
  · cases hs

/-! ### Jobs -/

theorem release (h : SseKept s) {job : Nat} (hs : s.release job = some s') : SseKept s' := by
  unfold SseConnection.release at hs
  split at hs
  · rename_i worker kind cancelled dismissed hjob
    cases hs
    apply h.modifyJob
    intro hhalted j hj
    rw [Option.mem_def, hjob] at hj
    cases hj
    obtain ⟨hquiet, hgone⟩ := (h.halted hhalted).2.jobs _ (List.mem_of_getElem? hjob)
    refine ⟨?_, hgone⟩
    cases cancelled with
    | true => rfl
    | false => simpa [SseRestartJob.setsStatus] using hquiet
  · cases hs

theorem steps_plain {kind : RestartKind} (hkind : kind = .plain) (result : SyncResult) :
    (kind.steps result).any RestartStep.setsStatus = false := by
  subst hkind
  cases result <;> rfl

theorem synchronized (h : SseKept s) {job : Nat} {result : SyncResult}
    (hs : s.synchronized job result = some s') : SseKept s' := by
  unfold SseConnection.synchronized at hs
  split at hs
  · rename_i worker kind cancelled dismissed hjob
    cases hs
    apply h.modifyJob
    intro hhalted j hj
    rw [Option.mem_def, hjob] at hj
    cases hj
    obtain ⟨hquiet, hgone⟩ := (h.halted hhalted).2.jobs _ (List.mem_of_getElem? hjob)
    have hplain : kind = .plain := by simpa [SseRestartJob.setsStatus] using hquiet
    exact ⟨steps_plain hplain result, hgone⟩
  · cases hs

theorem settle (h : SseKept s) {job : Nat} {spawned : Bool}
    (hguard : SettledStep s (.settle job spawned)) (hs : s.settle job spawned = some s') :
    SseKept s' := by
  unfold SseConnection.settle at hs
  split at hs
  · rename_i worker kind cancelled dismissed status rest hjob
    cases hs
    have hrunning := h.not_halted_of_job hjob (Or.inl rfl)
    have hstage : SseKept (s.setStage job (.settling rest)) :=
      h.modifyJob job fun hhalted => absurd hhalted hrunning
    have hnext := hstage.setStatus_none status hrunning
    split
    · exact hnext.notify worker nofun
    · exact hnext
  · rename_i worker kind cancelled dismissed rest hjob
    cases hs
    have hstage : SseKept (s.setStage job (.settling rest)) := by
      apply h.modifyJob
      intro hhalted j hj
      rw [Option.mem_def, hjob] at hj
      cases hj
      have hbefore := (h.halted hhalted).2.jobs _ (List.mem_of_getElem? hjob)
      simpa [SseRestartJob.setsStatus, RestartStep.setsStatus, SseRestartJob.offersCancel]
        using hbefore
    cases spawned with
    | false => exact hstage
    | true =>
        have hstarting : worker ∈ s.starting job := by
          rw [SseConnection.starting, hjob]
          rfl
        apply hstage.setThread worker
        · right
          intro earlier hearlier
          have hcalm := hguard worker hstarting earlier hearlier
          exact ⟨hcalm.heartbeats, hcalm.thread, hcalm.ui⟩
        · exact nofun
  · cases hs

/-! ### Worker threads -/

theorem getElem?_threads {worker : Nat} {thread : SseThread} (h : s.thread worker = some thread) :
    s.threads[worker]? = some thread := by
  rw [SseConnection.threads, List.getElem?_map]
  exact h

theorem publish (h : SseKept s) {worker : Nat} {status : SynchronizationStatus}
    (hs : s.publish worker status = some s') : SseKept s' := by
  unfold SseConnection.publish at hs
  split at hs
  · rename_i hrunning
    cases hs
    split
    · exact h
    · rename_i hclear
      have hthread := getElem?_threads hrunning.1
      apply h.setThread worker (Or.inl ⟨.running, hthread, nofun⟩)
      intro _
      have hworker := (List.getElem?_eq_some_iff.mp hthread).choose
      rw [SseConnection.threads, List.length_map] at hworker
      exact h.live (Bool.not_eq_true _ ▸ hclear) hworker
  · cases hs

theorem newest_of_publishing (h : SseKept s) {worker : Nat} {thread : SseThread}
    (hthread : s.threads[worker]? = some thread) (hpublishing : thread.publishing = true) :
    ¬s.Halted ∧ s.successorStarted worker = false := by
  constructor
  · intro hhalted
    have hquiet := (h.halted hhalted).2.threads thread (List.mem_of_getElem? hthread)
    rw [hquiet] at hpublishing
    cases hpublishing
  · by_contra hstarted
    have hquiet := (h.overtaken worker (Bool.not_eq_false _ ▸ hstarted)).thread thread hthread
    rw [hquiet] at hpublishing
    cases hpublishing

theorem compare (h : SseKept s) {worker : Nat} (hs : s.compare worker = some s') :
    SseKept s' := by
  unfold SseConnection.compare at hs
  split at hs
  · rename_i status hchecked
    cases hs
    have hthread := getElem?_threads hchecked
    exact h.setThread worker (Or.inl ⟨_, hthread, nofun⟩)
      fun _ => h.newest_of_publishing hthread rfl
  · cases hs

theorem store (h : SseKept s) {worker : Nat} (hs : s.store worker = some s') : SseKept s' := by
  unfold SseConnection.store at hs
  split at hs
  · rename_i status hcompared
    cases hs
    have hthread := getElem?_threads hcompared
    obtain ⟨hrunning, hnewest⟩ := h.newest_of_publishing hthread rfl
    have hworker : ∀ i ∈ some worker, s.successorStarted i = false := by
      intro i hi
      cases hi
      exact hnewest
    have hstored := h.setStatus status hrunning hworker
    have hnext : SseKept ((s.setStatus (some worker) status).setThread worker .running) :=
      hstored.setThread worker (Or.inl ⟨_, hthread, nofun⟩) nofun
    exact hnext.notify worker nofun
  · cases hs

theorem send (h : SseKept s) {worker : Nat} {message : SseMessage}
    (hguard : SettledStep s (.send worker message)) (hs : s.send worker message = some s') :
    SseKept s' := by
  unfold SseConnection.send at hs
  split at hs
  · cases hs
    by_cases hmessage : message = .heartbeat
    · subst hmessage
      obtain ⟨hrunning, hnewest⟩ := hguard
      constructor
      · exact h.flags
      · exact h.newest
      · exact fun hhalted => absurd hhalted hrunning
      · exact h.busy
      · exact h.stopped
      · intro i hi
        have hcalm := h.overtaken i hi
        refine ⟨fun hheartbeat => ?_, hcalm.thread, hcalm.ui⟩
        rcases List.mem_append.mp hheartbeat with hold | hnew
        · exact hcalm.heartbeats hold
        · cases List.mem_singleton.mp hnew
          exact absurd (hi.symm.trans hnewest) nofun
      · exact h.changes
    · exact h.notify worker hmessage
  · cases hs

theorem exit (h : SseKept s) {worker : Nat} (hs : s.exit worker = some s') : SseKept s' := by
  unfold SseConnection.exit at hs
  split at hs
  · rename_i hrunning
    cases hs
    exact h.setThread worker (Or.inl ⟨.running, getElem?_threads hrunning.1, nofun⟩) nofun
  · cases hs

theorem step {action : SseAction} (h : SseKept s) (hguard : SettledStep s action)
    (hs : s.step action = some s') : SseKept s' := by
  cases action with
  | bootstrap => exact h.bootstrap hs
  | restart progress => exact h.restart hs
  | stop => exact h.stop hguard hs
  | shutdown => exact h.shutdown hs
  | finishUi => exact h.finishUi hs
  | drain => exact h.drain hs
  | cancel job => exact h.cancel hs
  | dismiss job => exact h.dismiss hs
  | fetchDevices => exact h.fetchDevices hguard hs
  | checkSheet fetch active => exact h.checkSheet hs
  | reconnected fetch result => exact h.reconnected hs
  | devicesFetched fetch succeeded => exact h.devicesFetched hs
  | release job => exact h.release hs
  | synchronized job result => exact h.synchronized hs
  | settle job spawned => exact h.settle hguard hs
  | publish worker status => exact h.publish hs
  | compare worker => exact h.compare hs
  | store worker => exact h.store hs
  | send worker message => exact h.send hguard hs
  | exit worker => exact h.exit hs

end SseKept

/--
For any number of profiles and any interleaving of their requests, workers, jobs,
device fetches and events: if each step meets the condition, every profile is settled.
-/
theorem sse_workers_settled (initial : String → SynchronizationStatus)
    {actions : List (String × SseAction)} {s : String → SseConnection}
    (hrun : LabelledRun.run (LabelledRun.stepAt SseConnection.step)
      (fun profile => .init (initial profile)) actions = some s)
    (hguard : LabelledRun.Guarded (LabelledRun.stepAt SseConnection.step)
      (fun s action => SettledStep (s action.1) action.2)
      (fun profile => .init (initial profile)) actions)
    (profile : String) : SseSettled (s profile) :=
  (LabelledRun.invariant_of_guarded_members SseKept (fun _ _ _ h hstep hs => h.step hstep hs)
    (fun profile => SseKept.init (initial profile)) hguard hrun profile).settled

/-! ## A heartbeat that is still queued when the connection is stopped -/

def sampleConnected : List (String × SseAction) :=
  [.bootstrap, .release 0, .synchronized 0 .succeeded, .settle 0 true, .settle 0 true].map ("p", ·)

/--
The connection is lost, restored by a heartbeat and restarted; the share sheet
fetches the devices, and the connection is stopped.
-/
def sampleRestarted : List (String × SseAction) :=
  sampleConnected ++ [.publish 0 .disconnected, .compare 0, .store 0, .send 0 .heartbeat, .drain,
    .drain, .finishUi, .restart true, .finishUi, .publish 0 .disconnected, .exit 0, .release 1,
    .synchronized 1 .succeeded, .settle 1 true, .settle 1 true, .drain, .dismiss 1, .fetchDevices,
    .finishUi, .checkSheet 0 true, .send 1 .heartbeat, .devicesFetched 0 true, .drain, .stop,
    .finishUi].map ("p", ·)

theorem sse_workers_settled_sample :
    ∃ s, LabelledRun.run (LabelledRun.stepAt SseConnection.step)
        (fun _ => .init .connecting) sampleRestarted = some s ∧
      SseSettled (s "p") ∧ (s "p").stopped = true := by
  obtain ⟨s, hrun, hstopped⟩ :
      ∃ s, LabelledRun.run (LabelledRun.stepAt SseConnection.step)
        (fun _ => .init .connecting) sampleRestarted = some s ∧
        (s "p").stopped = true :=
    LabelledRun.exists_of_any (by decide)
  have hguard : LabelledRun.Guarded (LabelledRun.stepAt SseConnection.step)
      (fun s action => SettledStep (s action.1) action.2) (fun _ => .init .connecting)
      sampleRestarted :=
    LabelledRun.Guarded.of_guardedRun (by decide)
  exact ⟨s, hrun, sse_workers_settled (fun _ => .connecting) hrun hguard "p", hstopped⟩

/-- The heartbeat takes the stopped connection for one that was lost. -/
theorem queued_heartbeat_reconnects :
    ∃ s, LabelledRun.run (LabelledRun.stepAt SseConnection.step) (fun _ => .init .connecting)
        (sampleConnected ++ [("p", .send 0 .heartbeat), ("p", .stop), ("p", .finishUi),
          ("p", .drain), ("p", .finishUi)]) = some s ∧
      (s "p").stopped = true ∧ (s "p").connectionStatus = .connected ∧ ¬ SseSettled (s "p") := by
  obtain ⟨s, hrun, hstopped, hconnected⟩ :
      ∃ s, LabelledRun.run (LabelledRun.stepAt SseConnection.step) (fun _ => .init .connecting)
        (sampleConnected ++ [("p", .send 0 .heartbeat), ("p", .stop), ("p", .finishUi),
          ("p", .drain), ("p", .finishUi)]) = some s ∧
        (s "p").stopped = true ∧ (s "p").connectionStatus = .connected :=
    LabelledRun.exists_of_any (by decide)
  refine ⟨s, hrun, hstopped, hconnected, fun h => ?_⟩
  have hstatus := h.stopped hstopped
  rw [hconnected] at hstatus
  cases hstatus

/-- So does a fetch of the share sheet that was under way. -/
example : (LabelledRun.run SseConnection.step (.init .notActivated)
    [.fetchDevices, .finishUi, .stop, .finishUi, .checkSheet 0 true, .reconnected 0 .succeeded]).any
      (fun s => s.stopped && s.connectionStatus = .connected) = true := by
  decide

end Fulgur
