import Fulgur.State.Db.RoundTrip
import Fulgur.State.WriterOrder

/-! # What launch after launch restores

A process opens the session database, loads and claims what is stored, and hands it
to the snapshot writer. It may come by a database in memory only, or by none, and it
may stop between any two steps. The file then holds what the last save that was
written asked for, and the next launch restores exactly that.
-/

namespace Fulgur

open LabelledRun WriterSystem

/-- How `load_with_db` came by its database. -/
inductive SessionStore where
  | file
  /-- `open_in_memory`, after the file could not be opened. -/
  | memory
  /-- It returned an error, and the writer has no database. -/
  | nowhere
deriving DecidableEq

structure SessionProcess where
  store : SessionStore
  restored : WindowsState
  writer : WriterSystem

structure Sessions where
  file : Tables
  process : Option SessionProcess
  /-- What the processes that have stopped wrote into the file. -/
  past : List WindowsState

inductive SessionEvent where
  | launch (store : SessionStore)
  | act (action : WriterAction)
  | stop

namespace SessionProcess

/-- `load_with_db` on an open database, and the writer that gets the handle. -/
def launch (store : SessionStore) (db : StateDb) : SessionProcess :=
  match db.load with
  | .ok session => ⟨store, session, .start (some db.claimPersistedWindows)⟩
  | .error _ => ⟨.nowhere, ⟨[]⟩, .start none⟩

def saves (process : SessionProcess) : List WindowsState :=
  if process.store = .file then process.writer.written.map Submission.state else []

end SessionProcess

namespace Sessions

def start (tables : Tables) : Sessions where
  file := tables
  process := none
  past := []

/-- Every save that reached the file. -/
def saves (s : Sessions) : List WindowsState :=
  s.past ++ (s.process.map SessionProcess.saves).getD []

def launch (s : Sessions) : SessionStore → Sessions
  | .file => { s with process := some (.launch .file ⟨s.file, ∅⟩) }
  | .memory => { s with process := some (.launch .memory ⟨.empty, ∅⟩) }
  | .nowhere => { s with process := some ⟨.nowhere, ⟨[]⟩, .start none⟩ }

/-- A step of the running process; only a handle on the file changes the file. -/
def act (s : Sessions) (process : SessionProcess) (action : WriterAction) : Option Sessions :=
  (process.writer.step action).map fun writer =>
    { s with
      process := some { process with writer := writer }
      file :=
        if process.store = .file then (writer.db.map StateDb.tables).getD s.file else s.file }

def step (s : Sessions) : SessionEvent → Option Sessions
  | .launch store => if s.process.isNone then some (s.launch store) else none
  | .act action => s.process.bind fun process => s.act process action
  | .stop => s.process.map fun _ => { s with process := none, past := s.saves }

end Sessions

def lastSession (first : WindowsState) (saves : List WindowsState) : WindowsState :=
  saves.getLast?.elim first fun snapshot => ⟨snapshot.windows.map .normalise⟩

@[simp] theorem lastSession_nil (first : WindowsState) : lastSession first [] = first := rfl

@[simp] theorem lastSession_concat (first snapshot : WindowsState) (saves : List WindowsState) :
    lastSession first (saves ++ [snapshot]) = ⟨snapshot.windows.map .normalise⟩ := by
  simp [lastSession]

/-! ## Saves of a handle that owns everything stored -/

/-- The handle has claimed or written every window that is stored. -/
def OwnsStored (db : StateDb) : Prop := ∀ id ∈ db.tables.windows, id ∈ db.ownedWindows

theorem ownsStored_claimPersistedWindows (db : StateDb) : OwnsStored db.claimPersistedWindows := by
  intro id hid
  rw [StateDb.claimPersistedWindows, Std.ExtTreeSet.mem_ofList, List.contains_iff_mem]
  exact Std.ExtTreeMap.mem_keys.mpr hid

/-- After a save through such a handle the stored session is the snapshot. -/
theorem loadedWindows_rewrite {db : StateDb} {snapshot : WindowsState}
    (howns : OwnsStored db) (hstorable : Storable snapshot) :
    loadedWindows (db.rewriteFromScratch snapshot) = snapshot.windows.map .normalise := by
  have hall : ∀ window ∈ loadedWindows (db.rewriteFromScratch snapshot),
      window.windowId ∈ snapshot.ids := by
    intro window hwindow
    by_contra hid
    obtain ⟨row, hrow, -⟩ := mem_loadedWindows.mp hwindow
    rw [getElem?_rewrite_other_window hid] at hrow
    split at hrow
    · cases hrow
    · rename_i hfree
      have hmem : window.windowId ∈ db.tables.windows :=
        Std.ExtTreeMap.mem_iff_isSome_getElem?.mpr (by simp [hrow])
      exact hfree (howns _ hmem)
  calc loadedWindows (db.rewriteFromScratch snapshot)
      = (loadedWindows (db.rewriteFromScratch snapshot)).filter
          (fun window => decide (window.windowId ∈ snapshot.ids)) := by
        refine (List.filter_eq_self.mpr ?_).symm
        intro window hwindow
        exact decide_eq_true (hall window hwindow)
    _ = (windowListing snapshot.windows).map (loadedWindow (db.rewriteFromScratch snapshot)) := by
        have hselect := filter_loadedWindows (db.rewriteFromScratch snapshot)
          fun id => decide (id ∈ snapshot.ids)
        rw [hselect, orderBy_rewrite hstorable.windowIds]
    _ = snapshot.windows.map .normalise := map_loadedWindow_windowListing hstorable

theorem ownsStored_rewrite {db : StateDb} {snapshot : WindowsState} (howns : OwnsStored db) :
    OwnsStored ⟨db.rewriteFromScratch snapshot, Std.ExtTreeSet.ofList snapshot.ids⟩ := by
  intro id hid
  rw [Std.ExtTreeSet.mem_ofList, List.contains_iff_mem]
  by_contra hout
  have hrow := Std.ExtTreeMap.mem_iff_isSome_getElem?.mp hid
  rw [getElem?_rewrite_other_window hout] at hrow
  split at hrow
  · simp at hrow
  · rename_i hfree
    exact hfree (howns _ (Std.ExtTreeMap.mem_iff_isSome_getElem?.mpr hrow))

/-! ## What a step of the writer does to its database -/

namespace WriterSystem

/-- The snapshot that the writer thread is about to write. -/
def writing : WriterPhase → Option Submission
  | .writeBlocking request => some request
  | .writeMailbox request _ => some request
  | _ => none

/-- One step of the writer wrote this snapshot through its handle. -/
def Applied (s t : WriterSystem) (request : Submission) : Prop :=
  ∃ db next stats, s.db = some db ∧ db.apply request.state = .ok (next, stats) ∧
    t.db = some next ∧ t.written = s.written ++ [request]

theorem write_applied (s : WriterSystem) (io : Bool) (request : Submission) :
    ((s.write io request).1.db = s.db ∧ (s.write io request).1.written = s.written) ∨
      Applied s (s.write io request).1 request := by
  unfold write
  cases happly : applySnapshot io s.db request.state with
  | error message => exact Or.inl ⟨rfl, rfl⟩
  | ok result =>
      unfold applySnapshot at happly
      cases hdb : s.db with
      | none =>
          rw [hdb] at happly
          cases happly
      | some db =>
          rw [hdb] at happly
          cases io with
          | false => cases happly
          | true =>
              cases happlied : db.apply request.state with
              | error message => simp [happlied, Except.map] at happly
              | ok pair =>
                  simp only [happlied, if_true, Except.map, Except.ok.injEq] at happly
                  exact Or.inr ⟨db, pair.1, pair.2, hdb, happlied, happly.symm, rfl⟩

theorem writerStep_applied {s t : WriterSystem} {io : Bool} (h : s.writerStep io = some t) :
    (t.db = s.db ∧ t.written = s.written) ∨
      ∃ request, writing s.phase = some request ∧ Applied s t request := by
  unfold writerStep at h
  split at h
  · cases h
    exact Or.inl ⟨rfl, rfl⟩
  · split at h
    · rename_i message rest hchannel
      cases h
      cases message <;> exact Or.inl ⟨rfl, rfl⟩
    · split at h
      · cases h
      · cases h
        exact Or.inl ⟨rfl, rfl⟩
  · split at h
    · rename_i message rest hchannel
      cases h
      cases message <;> exact Or.inl ⟨rfl, rfl⟩
    · cases h
      exact Or.inl ⟨rfl, rfl⟩
  · cases h
    exact Or.inl ⟨rfl, rfl⟩
  · rename_i request hphase
    cases h
    exact (s.write_applied io request).imp id fun h => ⟨request, by rw [hphase]; rfl, h⟩
  · split at h <;> cases h <;> exact Or.inl ⟨rfl, rfl⟩
  · rename_i request last hphase
    cases h
    exact (s.write_applied io request).imp id fun h => ⟨request, by rw [hphase]; rfl, h⟩
  · cases h

theorem step_applied {s t : WriterSystem} {action : WriterAction} (h : s.step action = some t) :
    (t.db = s.db ∧ t.written = s.written) ∨ ∃ io request, action = .writer io ∧
      writing s.phase = some request ∧ Applied s t request := by
  cases action with
  | writer io =>
      refine (writerStep_applied h).imp id ?_
      intro ⟨request, hwriting, happlied⟩
      exact ⟨io, request, rfl, hwriting, happlied⟩
  | _ => cases transition_of_step h <;> exact Or.inl ⟨rfl, rfl⟩

/-! ## What a process keeps while its saves are storable -/

/-- The snapshots on their way are storable, and the mailbox's were put into it. -/
structure Saving (s : WriterSystem) : Prop where
  order : InOrder s
  stamped : Stamped s
  storable : ∀ request ∈ s.submitted, Storable request.state
  mailbox : ∀ request, s.mailbox = some request → request ∈ s.puts
  hand : ∀ request ∈ inHand s.phase, request ∈ s.puts

theorem saving_start (db : Option StateDb) : Saving (start db) where
  order := inOrder_start db
  stamped := ⟨List.Pairwise.nil, by simp [start]⟩
  storable := by simp [start]
  mailbox := by simp [start]
  hand := by simp [start, inHand]

/-- One thread submits, and what it submits can be stored. -/
def Submits (s : WriterSystem) (action : WriterAction) : Prop :=
  OneThread s action ∧ match action with
    | .saveAsync state | .saveBlocking state => Storable state
    | _ => True

theorem hand_afterFlush (last : Bool) : inHand (afterFlush last) = [] := by
  cases last <;> rfl

theorem Saving.step {s t : WriterSystem} {action : WriterAction} (hs : Saving s)
    (hguard : Submits s action) (h : s.step action = some t) : Saving t := by
  have htransition := transition_of_step h
  refine ⟨hs.order.step hguard.1 htransition, hs.stamped.step htransition, ?_, ?_, ?_⟩
  · intro request hrequest
    cases htransition with
    | put state halive =>
        refine (List.mem_append.mp hrequest).elim (hs.storable request) ?_
        intro hnew
        rw [List.mem_singleton.mp hnew]
        exact hguard.2
    | beginBlocking state halive =>
        refine (List.mem_append.mp hrequest).elim (hs.storable request) ?_
        intro hnew
        rw [List.mem_singleton.mp hnew]
        exact hguard.2
    | _ => exact hs.storable request hrequest
  · intro request hheld
    cases htransition with
    | put state halive =>
        cases hheld
        exact List.mem_append_right _ (List.mem_singleton_self _)
    | _ => first | exact hs.mailbox request hheld | cases hheld
  · intro request hheld
    cases htransition with
    | put state halive => exact List.mem_append_left _ (hs.hand request hheld)
    | taken io last held hphase hmailbox =>
        rw [List.mem_singleton.mp hheld]
        exact hs.mailbox held hmailbox
    | nothingToFlush io last hphase hmailbox => rw [hand_afterFlush] at hheld; cases hheld
    | wroteMailbox io last held db hphase => rw [hand_afterFlush] at hheld; cases hheld
    | failedMailbox io last held hphase => rw [hand_afterFlush] at hheld; cases hheld
    | _ => first | exact hs.hand request hheld | cases hheld

theorem InOrder.submitted_of_writing {s : WriterSystem} (hs : InOrder s) {request : Submission}
    (hwriting : writing s.phase = some request) : request ∈ s.submitted := by
  refine hs.sublist.subset ?_
  unfold pipeline outstanding
  cases hphase : s.phase <;> rw [hphase] at hwriting <;> cases hwriting <;>
    simp [inHand, phaseRequest]

/-- Once a blocking save has returned and no write has failed, it is what was last written. -/
theorem Saving.written_of_blocking {s : WriterSystem} (hs : Saving s) (hidle : s.calls = [])
    (hnone : s.failures = 0) {request : Submission} (hlast : s.submitted.getLast? = some request)
    (hblocking : request ∉ s.puts) : s.written.getLast? = some request := by
  have hout : s.outstanding = [] := by
    have hmatch := hs.order.calls
    rwa [hidle] at hmatch
  have hpipeline := hs.order.last hnone
  rw [hlast, pipeline, hout, List.append_nil] at hpipeline
  cases hmailbox : s.mailbox with
  | some held =>
      rw [hmailbox, Option.toList_some, List.getLast?_concat] at hpipeline
      cases hpipeline
      exact absurd (hs.mailbox _ hmailbox) hblocking
  | none =>
      rw [hmailbox, Option.toList_none, List.append_nil] at hpipeline
      cases hhand : inHand s.phase with
      | nil => rwa [hhand, List.append_nil] at hpipeline
      | cons held rest =>
          have hmem : request ∈ inHand s.phase := by
            rw [List.getLast?_append_of_ne_nil _ (by simp [hhand])] at hpipeline
            exact List.mem_of_getLast? hpipeline
          exact absurd (hs.hand _ hmem) hblocking

end WriterSystem

namespace Sessions

variable {s s' : Sessions} {first : WindowsState}

/-- Guard: one thread saves what can be stored, and no stored text is mistaken for another. -/
def SaveAllowed (s : Sessions) : SessionEvent → Prop
  | .act action => ∀ process, s.process = some process → Submits process.writer action ∧
      ∀ request, writing process.writer.phase = some request → NoCollision s.file request.state
  | _ => True

/-- What the running process holds of the file. -/
structure OnFile (first : WindowsState) (s : Sessions) (process : SessionProcess) : Prop where
  handle : ∃ db, process.writer.db = some db ∧ db.tables = s.file ∧ OwnsStored db
  restored : process.restored = lastSession first s.past

structure Sound (first : WindowsState) (s : Sessions) : Prop where
  consistent : Consistent s.file
  stored : ⟨loadedWindows s.file⟩ = lastSession first s.saves
  saving : ∀ process, s.process = some process → Saving process.writer
  onFile : ∀ process, s.process = some process → process.store = .file → OnFile first s process

theorem sound_start {tables : Tables} (hc : Consistent tables) :
    Sound ⟨loadedWindows tables⟩ (start tables) where
  consistent := hc
  stored := rfl
  saving := by simp [start]
  onFile := by simp [start]

theorem Sound.launched (hs : Sound first s) (hidle : s.process = none) {process : SessionProcess}
    (hsaves : process.saves = []) (hsaving : Saving process.writer)
    (honFile : process.store = .file → OnFile first s process) :
    Sound first { s with process := some process } where
  consistent := hs.consistent
  stored := by
    have hstored := hs.stored
    rw [saves, hidle] at hstored
    simpa [saves, hsaves] using hstored
  saving := by
    intro other hother
    rwa [← Option.some.inj hother]
  onFile := by
    intro other hother hstore
    obtain rfl := Option.some.inj hother
    exact ⟨(honFile hstore).handle, (honFile hstore).restored⟩

theorem launch_eq {db : StateDb} (hc : Consistent db.tables) (store : SessionStore) :
    SessionProcess.launch store db =
      ⟨store, ⟨loadedWindows db.tables⟩, .start (some db.claimPersistedWindows)⟩ := by
  rw [SessionProcess.launch, load_eq hc]

theorem Sound.launch (hs : Sound first s) (hidle : s.process = none) (store : SessionStore) :
    Sound first (s.launch store) := by
  cases store with
  | file =>
      rw [Sessions.launch, launch_eq hs.consistent]
      refine hs.launched hidle (by simp [SessionProcess.saves, WriterSystem.start])
        (saving_start _) fun _ => ?_
      refine ⟨⟨_, rfl, rfl, ownsStored_claimPersistedWindows _⟩, ?_⟩
      have hstored := hs.stored
      rw [saves, hidle, Option.map_none, Option.getD_none, List.append_nil] at hstored
      exact hstored
  | memory =>
      rw [Sessions.launch, launch_eq consistent_empty]
      exact hs.launched hidle (by simp [SessionProcess.saves]) (saving_start _) (by simp)
  | nowhere => exact hs.launched hidle (by simp [SessionProcess.saves]) (saving_start _) (by simp)

/-- A process that is not on the file changes only its own writer. -/
theorem Sound.act_elsewhere (hs : Sound first s) {process : SessionProcess} {writer : WriterSystem}
    (hprocess : s.process = some process) (hstore : process.store ≠ .file)
    (hsaving : Saving writer) :
    Sound first { s with process := some { process with writer := writer } } where
  consistent := hs.consistent
  stored := by
    have hstored := hs.stored
    rw [saves, hprocess] at hstored
    simpa [saves, SessionProcess.saves, hstore] using hstored
  saving := by
    intro other hother
    rwa [← Option.some.inj hother]
  onFile := by
    intro other hother honFile
    obtain rfl := Option.some.inj hother
    exact absurd honFile hstore

/-- A step on the file that writes nothing. -/
theorem Sound.act_unwritten (hs : Sound first s) {process : SessionProcess} {writer : WriterSystem}
    (hprocess : s.process = some process) (hstore : process.store = .file) (hsaving : Saving writer)
    (hdb : writer.db = process.writer.db) (hwritten : writer.written = process.writer.written) :
    Sound first { s with
      process := some { process with writer := writer }
      file := (writer.db.map StateDb.tables).getD s.file } := by
  obtain ⟨⟨db, hhandle, htables, howns⟩, hrestored⟩ := hs.onFile process hprocess hstore
  have hfile : (writer.db.map StateDb.tables).getD s.file = s.file := by
    rw [hdb, hhandle, Option.map_some, Option.getD_some, htables]
  rw [hfile]
  refine ⟨hs.consistent, ?_, ?_, ?_⟩
  · have hstored := hs.stored
    rw [saves, hprocess] at hstored
    simpa [saves, SessionProcess.saves, hstore, hwritten] using hstored
  · intro other hother
    rwa [← Option.some.inj hother]
  · intro other hother _
    obtain rfl := Option.some.inj hother
    exact ⟨⟨db, hdb.trans hhandle, htables, howns⟩, hrestored⟩

/-- A step on the file that writes a snapshot. -/
theorem Sound.act_applied (hs : Sound first s) {process : SessionProcess} {writer : WriterSystem}
    {request : Submission} (hprocess : s.process = some process) (hstore : process.store = .file)
    (hsaving : Saving writer) (hstorable : Storable request.state)
    (hcollision : NoCollision s.file request.state)
    (happlied : Applied process.writer writer request) :
    Sound first { s with
      process := some { process with writer := writer }
      file := (writer.db.map StateDb.tables).getD s.file } := by
  obtain ⟨⟨db, hhandle, htables, howns⟩, hrestored⟩ := hs.onFile process hprocess hstore
  obtain ⟨db', next, stats, hdb, happly, hnext, hwritten⟩ := happlied
  obtain rfl := Option.some.inj (hdb.symm.trans hhandle)
  have hc : Consistent db'.tables := htables ▸ hs.consistent
  obtain ⟨stats', hrun, -⟩ := apply_spec db' hc hstorable (htables ▸ hcollision)
  rw [hrun] at happly
  cases happly
  rw [hnext, Option.map_some, Option.getD_some]
  refine ⟨Consistent.apply hc hrun, ?_, ?_, ?_⟩
  · have hsaves : saves { s with
        process := some { process with writer := writer }
        file := db'.rewriteFromScratch request.state } = s.saves ++ [request.state] := by
      simp [saves, SessionProcess.saves, hprocess, hstore, hwritten]
    rw [hsaves, lastSession_concat]
    exact congrArg WindowsState.mk (loadedWindows_rewrite howns hstorable)
  · intro other hother
    rwa [← Option.some.inj hother]
  · intro other hother _
    obtain rfl := Option.some.inj hother
    exact ⟨⟨_, hnext, rfl, ownsStored_rewrite howns⟩, hrestored⟩

theorem Sound.act (hs : Sound first s) {process : SessionProcess} {action : WriterAction}
    (hprocess : s.process = some process) (hguard : SaveAllowed s (.act action))
    (hstep : s.act process action = some s') : Sound first s' := by
  obtain ⟨hsubmits, hcollision⟩ := hguard process hprocess
  obtain ⟨writer, hwriter, rfl⟩ := Option.map_eq_some_iff.mp hstep
  have hbefore := hs.saving process hprocess
  have hsaving := hbefore.step hsubmits hwriter
  by_cases hstore : process.store = .file
  · rw [if_pos hstore]
    cases step_applied hwriter with
    | inl hsame => exact hs.act_unwritten hprocess hstore hsaving hsame.1 hsame.2
    | inr hwrote =>
        obtain ⟨io, request, -, hwriting, happlied⟩ := hwrote
        have hstorable := hbefore.storable request (hbefore.order.submitted_of_writing hwriting)
        exact hs.act_applied hprocess hstore hsaving hstorable (hcollision request hwriting)
          happlied
  · rw [if_neg hstore]
    exact hs.act_elsewhere hprocess hstore hsaving

theorem Sound.stop (hs : Sound first s) :
    Sound first { s with process := none, past := s.saves } where
  consistent := hs.consistent
  stored := by simpa [saves] using hs.stored
  saving := by simp
  onFile := by simp

theorem Sound.step (hs : Sound first s) {action : SessionEvent} (hguard : SaveAllowed s action)
    (hstep : s.step action = some s') : Sound first s' := by
  cases action with
  | launch store =>
      simp only [Sessions.step, Option.ite_none_right_eq_some, Option.some.injEq] at hstep
      obtain ⟨hidle, rfl⟩ := hstep
      exact hs.launch (Option.isNone_iff_eq_none.mp hidle) store
  | act action =>
      obtain ⟨process, hprocess, hact⟩ := Option.bind_eq_some_iff.mp hstep
      exact hs.act hprocess hguard hact
  | stop =>
      obtain ⟨process, hprocess, rfl⟩ := Option.map_eq_some_iff.mp hstep
      exact hs.stop

/--
After a blocking save, or once the writer has ended, the last save submitted was written
last.
-/
theorem Sound.last_save (hs : Sound first s) {process : SessionProcess}
    (hprocess : s.process = some process) (hstore : process.store = .file)
    (hnone : process.writer.failures = 0) {request : Submission}
    (hlast : process.writer.submitted.getLast? = some request)
    (hdone : process.writer.calls = [] ∧ request ∉ process.writer.puts ∨
      process.writer.phase = .exited) :
    ∃ earlier, s.saves = earlier ++ [request.state] := by
  have hsaving := hs.saving process hprocess
  have hwritten : process.writer.written.getLast? = some request := by
    cases hdone with
    | inl hblocking => exact hsaving.written_of_blocking hblocking.1 hnone hlast hblocking.2
    | inr hexited =>
        rw [← hsaving.order.written_of_exited hexited, hsaving.order.last hnone, hlast]
  obtain ⟨earlier, hearlier⟩ := List.getLast?_eq_some_iff.mp hwritten
  refine ⟨s.past ++ earlier.map Submission.state, ?_⟩
  rw [saves, hprocess, Option.map_some, Option.getD_some, SessionProcess.saves, if_pos hstore,
    hearlier, List.map_append, List.map_singleton, List.append_assoc]

theorem Sound.relaunch (hs : Sound first s) (hrunning : s.process ≠ none) :
    ∃ t next, run Sessions.step s [.stop, .launch .file] = some t ∧ t.process = some next ∧
      next.store = .file ∧ next.restored = lastSession first s.saves := by
  obtain ⟨process, hprocess⟩ := Option.ne_none_iff_exists'.mp hrunning
  refine ⟨Sessions.launch { s with process := none, past := s.saves } .file,
    SessionProcess.launch .file ⟨s.file, ∅⟩, ?_, rfl, ?_, ?_⟩
  · rw [run_cons, Sessions.step, hprocess, Option.map_some, Option.bind_some]
    rfl
  · rw [launch_eq hs.consistent]
  · rw [launch_eq hs.consistent]
    exact hs.stored

theorem sound_of_run {tables : Tables} {actions : List SessionEvent} (hreachable : Reachable tables)
    (hguard : Guarded Sessions.step SaveAllowed (start tables) actions)
    (hrun : run Sessions.step (start tables) actions = some s) :
    Sound ⟨loadedWindows tables⟩ s :=
  invariant_of_guarded (Sound ⟨loadedWindows tables⟩)
    (fun _ _ _ hs hallowed hstep => hs.step hallowed hstep) (sound_start hreachable.consistent)
    hguard hrun

end Sessions

/-- Over any number of launches that may each stop anywhere: what the next launch loads
is the last save that was written (its texts as strings, an active index only where it
names a tab), and each launch on the file restored just that; after a blocking save, or
once the writer has ended, that is the last save submitted, if no write failed. -/
theorem sessions_restored {tables : Tables} {actions : List SessionEvent} {s : Sessions}
    (hreachable : Reachable tables)
    (hguard : Guarded Sessions.step Sessions.SaveAllowed (.start tables) actions)
    (hrun : run Sessions.step (.start tables) actions = some s) :
    ∃ first, StateDb.load ⟨tables, ∅⟩ = .ok first ∧
      StateDb.load ⟨s.file, ∅⟩ = .ok (lastSession first s.saves) ∧
      ∀ process, s.process = some process → process.store = .file →
        process.restored = lastSession first s.past ∧
        ∀ request, process.writer.submitted.getLast? = some request →
          process.writer.failures = 0 →
          (process.writer.calls = [] ∧ request ∉ process.writer.puts ∨
            process.writer.phase = .exited) →
          StateDb.load ⟨s.file, ∅⟩ = .ok ⟨request.state.windows.map .normalise⟩ := by
  have hs := Sessions.sound_of_run hreachable hguard hrun
  have hload : StateDb.load ⟨s.file, ∅⟩ = .ok (lastSession ⟨loadedWindows tables⟩ s.saves) := by
    rw [load_eq hs.consistent, hs.stored]
  refine ⟨_, load_eq hreachable.consistent, hload, ?_⟩
  intro process hprocess hstore
  refine ⟨(hs.onFile process hprocess hstore).restored, ?_⟩
  intro request hlast hnone hdone
  obtain ⟨earlier, hsaves⟩ := hs.last_save hprocess hstore hnone hlast hdone
  rw [hload, hsaves, lastSession_concat]

instance (s : WriterSystem) : (action : WriterAction) → Decidable (Submits s action)
  | .saveAsync state =>
      inferInstanceAs (Decidable (OneThread s (.saveAsync state) ∧ Storable state))
  | .saveBlocking state =>
      inferInstanceAs (Decidable (OneThread s (.saveBlocking state) ∧ Storable state))
  | .trySend => inferInstanceAs (Decidable (OneThread s .trySend ∧ True))
  | .send request => inferInstanceAs (Decidable (OneThread s (.send request) ∧ True))
  | .abandon stamp => inferInstanceAs (Decidable (OneThread s (.abandon stamp) ∧ True))
  | .shutdown => inferInstanceAs (Decidable (OneThread s .shutdown ∧ True))
  | .writer io => inferInstanceAs (Decidable (OneThread s (.writer io) ∧ True))

instance (s : Sessions) (action : SessionEvent) : Decidable (s.SaveAllowed action) :=
  match action with
  | .act action =>
      inferInstanceAs (Decidable (∀ process ∈ s.process, Submits process.writer action ∧
        ∀ request ∈ writing process.writer.phase, NoCollision s.file request.state))
  | .launch _ | .stop => isTrue trivial

def sampleSessions (snapshot : WindowsState) : List SessionEvent := [
  .launch .file, .act (.saveBlocking snapshot), .act (.writer true), .act (.send ⟨0, snapshot⟩),
  .act (.writer true), .act (.writer true), .act (.writer true)]

/-- The first process stops before its second save is taken; the second process changes a window. -/
def sampleLaunches : List SessionEvent :=
  sampleSessions sampleSnapshot ++ [.act (.saveAsync ⟨[]⟩), .stop] ++ sampleSessions sampleChanged

theorem sessions_restored_sample :
    ∃ s process first, run Sessions.step (.start .empty) sampleLaunches = some s ∧
      s.process = some process ∧ StateDb.load ⟨.empty, ∅⟩ = .ok first ∧
      StateDb.load ⟨s.file, ∅⟩ = .ok (lastSession first s.saves) ∧
      s.past = [sampleSnapshot] ∧ process.restored = lastSession first s.past ∧
      StateDb.load ⟨s.file, ∅⟩ = .ok ⟨sampleChanged.windows.map .normalise⟩ := by
  have hsome : (run Sessions.step (.start .empty) sampleLaunches).any (fun s =>
      s.process.any fun process => decide (s.past = [sampleSnapshot] ∧ process.store = .file ∧
        process.writer.failures = 0 ∧ process.writer.calls = [] ∧ process.writer.puts = [] ∧
        process.writer.submitted.getLast? = some ⟨0, sampleChanged⟩)) = true := by
    decide +kernel
  obtain ⟨s, hrun, hs⟩ := (Option.any_eq_true _ _).mp hsome
  obtain ⟨process, hprocess, hs⟩ := (Option.any_eq_true _ _).mp hs
  obtain ⟨hpast, hstore, hnone, hidle, hputs, hlast⟩ := of_decide_eq_true hs
  obtain ⟨first, hfirst, hload, hrest⟩ := sessions_restored Reachable.empty
    (Guarded.of_guardedRun (by decide +kernel)) hrun
  obtain ⟨hrestored, hsaved⟩ := hrest process hprocess hstore
  refine ⟨s, process, first, hrun, hprocess, hfirst, hload, hpast, hrestored, ?_⟩
  exact hsaved ⟨0, sampleChanged⟩ hlast hnone
    (Or.inl ⟨hidle, by rw [hputs]; exact List.not_mem_nil⟩)

end Fulgur
