import Fulgur.Library.Run
import Fulgur.State.Db.Read
import Fulgur.State.Db.Reconcile

/-! # Who deletes a window row

Processes share one database. A process that starts up loads the session and
then claims, by a second query, the windows it finds stored. An apply holds the
write lock from its first statement to its commit, deletes the windows that its
process owns and the snapshot does not name, and makes the process the owner of
those it names; when it fails it is rolled back. What the processes see is a
ledger in which each committed apply is one step and no failed one shows. A
process deletes no window that it neither restored nor wrote, as long as its
claim finds no window that its load did not return.
-/

namespace Fulgur

open LabelledRun
open Fallible

/-! ## Applies as single steps -/

inductive StartUp where
  | opened
  | loaded
  | claimed
  /-- The process has exited, or its start-up failed. -/
  | ended
deriving DecidableEq

/-- A process with its handle on the database. -/
structure StateProcess where
  startUp : StartUp
  ownedWindows : Std.ExtTreeSet Int
  /-- The windows that its load returned. -/
  restored : List Int
  /-- The windows of the snapshots it has committed. -/
  written : List Int

def StateProcess.opened : StateProcess where
  startUp := .opened
  ownedWindows := ∅
  restored := []
  written := []

/-- The stored rows and the processes that work on them. -/
structure Ledger where
  tables : Tables
  processes : Nat → StateProcess

inductive LedgerAction where
  | load (process : Nat)
  | claimPersistedWindows (process : Nat)
  | apply (process : Nat) (snapshot : WindowsState)
  | exit (process : Nat)

namespace Ledger

def setProcess (l : Ledger) (process : Nat) (next : StateProcess) : Ledger :=
  { l with processes := Function.update l.processes process next }

def handle (l : Ledger) (process : Nat) : StateDb :=
  ⟨l.tables, (l.processes process).ownedWindows⟩

/-- The first query of a start-up; rows that cannot be decoded end it. -/
def load (l : Ledger) (process : Nat) : Option Ledger :=
  if (l.processes process).startUp = .opened then
    match (l.handle process).load with
    | .ok state => some (l.setProcess process
        { l.processes process with startUp := .loaded, restored := state.ids })
    | .error _ => some (l.setProcess process { l.processes process with startUp := .ended })
  else none

/-- The second query of a start-up. -/
def claimPersistedWindows (l : Ledger) (process : Nat) : Option Ledger :=
  if (l.processes process).startUp = .loaded then
    some (l.setProcess process
      { l.processes process with
        startUp := .claimed
        ownedWindows := (l.handle process).claimPersistedWindows.ownedWindows })
  else none

def committed (l : Ledger) (process : Nat) (snapshot : WindowsState) (db : StateDb) : Ledger where
  tables := db.tables
  processes := Function.update l.processes process
    { l.processes process with
      ownedWindows := db.ownedWindows
      written := (l.processes process).written ++ snapshot.ids }

def apply (l : Ledger) (process : Nat) (snapshot : WindowsState) : Option Ledger :=
  if (l.processes process).startUp = .claimed then
    match (l.handle process).apply snapshot with
    | .ok (db, _) => some (l.committed process snapshot db)
    | .error _ => none
  else none

def exit (l : Ledger) (process : Nat) : Ledger :=
  l.setProcess process { l.processes process with startUp := .ended }

def step (l : Ledger) : LedgerAction → Option Ledger
  | .load process => l.load process
  | .claimPersistedWindows process => l.claimPersistedWindows process
  | .apply process snapshot => l.apply process snapshot
  | .exit process => some (l.exit process)

end Ledger

/-! ## Applies as transactions -/

/-- The write transaction of an apply. -/
structure ApplyTx where
  process : Nat
  snapshot : WindowsState
  /-- How many windows of the snapshot are done. -/
  position : Nat
  tables : Tables
  stats : ApplyStats

/-- One round of the window loop. -/
def ApplyTx.applyNext (tx : ApplyTx) (window : WindowState) : Except String ApplyTx := do
  let row ← i64TryFrom "Window position" tx.position
  let (tables, stats) ← applyWindow tx.tables window row tx.stats
  let (tables, stats) ← applyTabs tables window stats
  return { tx with position := tx.position + 1, tables := tables, stats := stats }

/-- The database file with the transaction that holds the write lock. -/
structure SharedDb where
  ledger : Ledger
  writer : Option ApplyTx
  /-- What has taken effect so far. -/
  history : List LedgerAction

inductive DbAction where
  | load (process : Nat)
  | claimPersistedWindows (process : Nat)
  | begin (process : Nat) (snapshot : WindowsState)
  | applyNext
  | fail
  | commit
  | exit (process : Nat)
deriving DecidableEq

namespace SharedDb

/-- Any stored rows, before the first process has started up. -/
def opened (tables : Tables) : SharedDb where
  ledger := ⟨tables, fun _ => .opened⟩
  writer := none
  history := []

/-- What the transaction deletes at its end, and the ownership that its commit leaves. -/
def finished (s : SharedDb) (tx : ApplyTx) : StateDb :=
  ⟨(deleteClosedWindows ((s.ledger.handle tx.process).closedWindows tx.snapshot) tx.tables
      tx.stats).1, Std.ExtTreeSet.ofList tx.snapshot.ids⟩

def step (s : SharedDb) : DbAction → Option SharedDb
  | .load process =>
      (s.ledger.load process).map fun ledger =>
        { s with ledger := ledger, history := s.history ++ [.load process] }
  | .claimPersistedWindows process =>
      (s.ledger.claimPersistedWindows process).map fun ledger =>
        { s with ledger := ledger, history := s.history ++ [.claimPersistedWindows process] }
  | .begin process snapshot =>
      if (s.ledger.processes process).startUp = .claimed then
        match s.writer with
        | none => some { s with writer := some ⟨process, snapshot, 0, s.ledger.tables, {}⟩ }
        -- the write lock is taken, and the apply fails before its first statement
        | some _ => some s
      else none
  | .applyNext =>
      s.writer.bind fun tx =>
        tx.snapshot.windows[tx.position]?.map fun window =>
          match tx.applyNext window with
          | .ok tx => { s with writer := some tx }
          | .error _ => { s with writer := none }
  -- a statement or the commit itself fails, and the transaction is dropped
  | .fail => s.writer.map fun _ => { s with writer := none }
  | .commit =>
      s.writer.bind fun tx =>
        if tx.position = tx.snapshot.windows.length then
          some
            { ledger := s.ledger.committed tx.process tx.snapshot (s.finished tx)
              writer := none
              history := s.history ++ [.apply tx.process tx.snapshot] }
        else none
  | .exit process =>
      some
        { ledger := s.ledger.exit process
          writer := s.writer.filter fun tx => tx.process ≠ process
          history := s.history ++ [.exit process] }

/-! ## What a run keeps -/

/-- A window row goes only in a commit of a process that restored or wrote that window. -/
def DeletesOwn (s : SharedDb) (action : DbAction) : Prop :=
  ∀ s' ∈ s.step action, ∀ id ∈ s.ledger.tables.windows, id ∉ s'.ledger.tables.windows →
    ∃ tx ∈ s.writer, action = .commit ∧
      (id ∈ (s.ledger.processes tx.process).restored ∨
        id ∈ (s.ledger.processes tx.process).written)

/-- A transaction that ends otherwise than by its commit changes no row and no owned set. -/
def FailsCleanly (s : SharedDb) (action : DbAction) : Prop :=
  ∀ s' ∈ s.step action, s.writer.isSome → s'.writer = none → action ≠ .commit →
    s'.ledger.tables = s.ledger.tables ∧
      ∀ process, (s'.ledger.processes process).ownedWindows =
        (s.ledger.processes process).ownedWindows

/-- A claim finds no window that the load of its process did not return. -/
def ClaimsRestored (s : SharedDb) (action : DbAction) : Prop :=
  match action with
  | .claimPersistedWindows process =>
      ∀ id ∈ s.ledger.tables.windows.keys, id ∈ (s.ledger.processes process).restored
  | _ => True

instance (s : SharedDb) (action : DbAction) : Decidable (s.ClaimsRestored action) :=
  match action with
  | .claimPersistedWindows process => inferInstanceAs
      (Decidable (∀ id ∈ s.ledger.tables.windows.keys, id ∈ (s.ledger.processes process).restored))
  | .load _ => isTrue trivial
  | .begin _ _ => isTrue trivial
  | .applyNext => isTrue trivial
  | .fail => isTrue trivial
  | .commit => isTrue trivial
  | .exit _ => isTrue trivial

end SharedDb

/-! ## Window rows during an apply -/

theorem windows_insertTab {tables tables' : Tables} {windowId : Int} {tab : TabState}
    {desired : StoredTab} {fingerprint : Option ContentFingerprint}
    (h : insertTab tables windowId tab desired fingerprint = .ok tables') :
    tables'.windows = tables.windows := by
  rcases bind_eq_ok.mp h with ⟨id, _, h⟩
  rcases bind_eq_ok.mp h with ⟨columns, _, h⟩
  have hupsert := mapError_eq_ok.mp h
  unfold Tables.upsertTab at hupsert
  split at hupsert
  · cases hupsert
    rfl
  · cases hupsert

theorem windows_updateTab {tables tables' : Tables} {windowId : Int} {tab : TabState}
    {desired : StoredTab} {fingerprint : Option ContentFingerprint}
    (h : updateTab tables windowId tab desired fingerprint = .ok tables') :
    tables'.windows = tables.windows := by
  rcases bind_eq_ok.mp h with ⟨id, _, h⟩
  rcases bind_eq_ok.mp h with ⟨columns, _, h⟩
  cases h
  rfl

theorem windows_updateTabMetadata {tables tables' : Tables} {windowId : Int} {tabId : Nat}
    {desired : StoredTab} (h : updateTabMetadata tables windowId tabId desired = .ok tables') :
    tables'.windows = tables.windows := by
  rcases bind_eq_ok.mp h with ⟨id, _, h⟩
  cases h
  rfl

theorem windows_applyTab {windowId : Int} {tab : TabState} {position : Nat} {pass pass' : TabPass}
    (h : applyTab windowId tab position pass = .ok pass') :
    pass'.tables.windows = pass.tables.windows := by
  simp only [applyTab, bind_eq_ok] at h
  rcases h with ⟨row, _, h⟩
  split at h
  · rcases bind_eq_ok.mp h with ⟨written, hwrite, h⟩
    cases h
    exact windows_insertTab hwrite
  · split at h
    · rcases bind_eq_ok.mp h with ⟨written, hwrite, h⟩
      cases h
      exact windows_updateTab hwrite
    · split at h
      · rcases bind_eq_ok.mp h with ⟨written, hwrite, h⟩
        cases h
        exact windows_updateTabMetadata hwrite
      · cases h
        rfl

theorem windows_applyTabList {windowId : Int} {tabs : List TabState} {position : Nat}
    {pass pass' : TabPass} (h : applyTabList windowId tabs position pass = .ok pass') :
    pass'.tables.windows = pass.tables.windows := by
  induction tabs generalizing position pass with
  | nil =>
      cases h
      rfl
  | cons tab tabs ih =>
      rcases bind_eq_ok.mp h with ⟨next, hnext, h⟩
      exact (ih h).trans (windows_applyTab hnext)

theorem windows_deleteClosedTabs {windowId : Int} {closed : List Nat} {tables tables' : Tables}
    {stats stats' : ApplyStats}
    (h : deleteClosedTabs windowId closed tables stats = .ok (tables', stats')) :
    tables'.windows = tables.windows := by
  induction closed generalizing tables stats with
  | nil =>
      cases h
      rfl
  | cons tabId closed ih =>
      rcases bind_eq_ok.mp h with ⟨id, _, h⟩
      have hdeleted : (tables.deleteTab ⟨windowId, id⟩).1.windows = tables.windows := rfl
      exact (ih h).trans hdeleted

theorem windows_applyTabs {tables tables' : Tables} {window : WindowState}
    {stats stats' : ApplyStats} (h : applyTabs tables window stats = .ok (tables', stats')) :
    tables'.windows = tables.windows := by
  rcases bind_eq_ok.mp h with ⟨pass, hpass, h⟩
  exact (windows_deleteClosedTabs h).trans (windows_applyTabList hpass)

theorem mem_windows_applyWindow {tables tables' : Tables} {window : WindowState} {position : Int}
    {stats stats' : ApplyStats}
    (h : applyWindow tables window position stats = .ok (tables', stats')) {id : Int}
    (hid : id ∈ tables.windows) : id ∈ tables'.windows := by
  rcases bind_eq_ok.mp h with ⟨activeTabId, _, h⟩
  simp only at h
  split at h
  · cases h
    exact hid
  · rcases bind_eq_ok.mp h with ⟨written, hwrite, h⟩
    cases h
    have hupsert := mapError_eq_ok.mp hwrite
    unfold Tables.upsertWindow at hupsert
    split at hupsert
    · cases hupsert
    · cases hupsert
      exact Std.ExtTreeMap.mem_insert.mpr (Or.inr hid)

/-- The window loop drops no row. -/
theorem mem_windows_applyWindowList {windows : List WindowState} {position : Nat}
    {tables tables' : Tables} {stats stats' : ApplyStats}
    (h : applyWindowList windows position tables stats = .ok (tables', stats')) {id : Int}
    (hid : id ∈ tables.windows) : id ∈ tables'.windows := by
  induction windows generalizing position tables stats with
  | nil =>
      cases h
      exact hid
  | cons window windows ih =>
      rcases bind_eq_ok.mp h with ⟨row, _, h⟩
      rcases bind_eq_ok.mp h with ⟨⟨written, _⟩, hwindow, h⟩
      rcases bind_eq_ok.mp h with ⟨⟨reconciled, _⟩, htabs, h⟩
      apply ih h
      rw [windows_applyTabs htabs]
      exact mem_windows_applyWindow hwindow hid

/-- The loop over closed windows drops their rows only. -/
theorem mem_windows_deleteClosedWindows {closed : List Int} {tables : Tables} {stats : ApplyStats}
    {id : Int} (hid : id ∈ tables.windows) (hopen : id ∉ closed) :
    id ∈ (deleteClosedWindows closed tables stats).1.windows := by
  induction closed generalizing tables stats with
  | nil => exact hid
  | cons other closed ih =>
      obtain ⟨hne, hrest⟩ := List.ne_and_not_mem_of_not_mem_cons hopen
      have hkept : id ∈ (tables.deleteWindow other).1.windows := by
        rw [Std.ExtTreeMap.mem_iff_isSome_getElem?] at hid ⊢
        rw [Tables.getElem?_deleteWindow_windows, if_neg hne]
        exact hid
      exact ih hkept hrest

/-- The window loop can be cut anywhere. -/
theorem applyWindowList_append (windows rest : List WindowState) (position : Nat) (tables : Tables)
    (stats : ApplyStats) : applyWindowList (windows ++ rest) position tables stats =
      (applyWindowList windows position tables stats >>= fun done =>
        applyWindowList rest (position + windows.length) done.1 done.2) := by
  induction windows generalizing position tables stats with
  | nil => rfl
  | cons window windows ih =>
      have hlength : position + (window :: windows).length = position + 1 + windows.length := by
        rw [List.length_cons]
        omega
      rw [hlength, List.cons_append]
      simp only [applyWindowList, bind_assoc, ih]

namespace SharedDb

/-! ## What holds in every run -/

/-- The transaction has done a prefix of its snapshot to the tables as they are stored. -/
structure Writing (l : Ledger) (tx : ApplyTx) : Prop where
  startUp : (l.processes tx.process).startUp = .claimed
  position : tx.position ≤ tx.snapshot.windows.length
  prefixDone : applyWindowList (tx.snapshot.windows.take tx.position) 0 l.tables {} =
    .ok (tx.tables, tx.stats)

/-- The writer is under way, and the ledger is what the history makes of the first one. -/
structure Recorded (tables : Tables) (s : SharedDb) : Prop where
  writing : ∀ tx ∈ s.writer, Writing s.ledger tx
  history : run Ledger.step (opened tables).ledger s.history = some s.ledger

variable {tables : Tables} {s s' : SharedDb}

theorem recorded_opened (tables : Tables) : Recorded tables (opened tables) where
  writing := by simp [opened]
  history := rfl

theorem Recorded.record (h : Recorded tables s) {action : LedgerAction} {l : Ledger}
    (hstep : s.ledger.step action = some l) :
    run Ledger.step (opened tables).ledger (s.history ++ [action]) = some l := by
  rw [run_append, h.history, Option.bind_some, run_cons, hstep]
  rfl

theorem Writing.setProcess {l : Ledger} {tx : ApplyTx} (h : Writing l tx) {process : Nat}
    (hne : tx.process ≠ process) (next : StateProcess) :
    Writing (l.setProcess process next) tx where
  startUp := by
    show (Function.update l.processes process next tx.process).startUp = .claimed
    rw [Function.update_of_ne hne]
    exact h.startUp
  position := h.position
  prefixDone := h.prefixDone

theorem Writing.applyNext {l : Ledger} {tx tx' : ApplyTx} (h : Writing l tx) {window : WindowState}
    (hwindow : tx.snapshot.windows[tx.position]? = some window)
    (hnext : tx.applyNext window = .ok tx') : Writing l tx' := by
  have hbound := (List.getElem?_eq_some_iff.mp hwindow).1
  rcases bind_eq_ok.mp hnext with ⟨row, hrow, hrest⟩
  rcases bind_eq_ok.mp hrest with ⟨⟨written, stats⟩, happly, hrest⟩
  rcases bind_eq_ok.mp hrest with ⟨⟨reconciled, stats'⟩, htabs, hrest⟩
  cases hrest
  constructor
  case startUp => exact h.startUp
  case position => exact hbound
  case prefixDone =>
      show applyWindowList (tx.snapshot.windows.take (tx.position + 1)) 0 l.tables {} =
        .ok (reconciled, stats')
      have hlength : (tx.snapshot.windows.take tx.position).length = tx.position := by
        rw [List.length_take]
        omega
      rw [List.take_add_one, hwindow, applyWindowList_append, h.prefixDone, ok_bind, hlength,
        Nat.zero_add]
      simp only [Option.toList_some, applyWindowList, hrow, happly, htabs, ok_bind]

theorem Writing.apply_eq {tx : ApplyTx} (h : Writing s.ledger tx)
    (hdone : tx.position = tx.snapshot.windows.length) :
    ∃ stats, (s.ledger.handle tx.process).apply tx.snapshot = .ok (s.finished tx, stats) := by
  have hall := h.prefixDone
  rw [hdone, List.take_length] at hall
  refine ⟨(deleteClosedWindows ((s.ledger.handle tx.process).closedWindows tx.snapshot) tx.tables
    tx.stats).2, ?_⟩
  show (applyWindowList tx.snapshot.windows 0 s.ledger.tables {} >>= _) = _
  rw [hall]
  rfl

theorem load_eq_some {l l' : Ledger} {process : Nat} (h : l.load process = some l') :
    (l.processes process).startUp = .opened ∧ ∃ startUp restored, l' = l.setProcess process
      { l.processes process with startUp := startUp, restored := restored } := by
  unfold Ledger.load at h
  split at h
  · rename_i hopened
    refine ⟨hopened, ?_⟩
    split at h
    · cases h
      exact ⟨_, _, rfl⟩
    · cases h
      exact ⟨_, _, rfl⟩
  · cases h

theorem claim_eq_some {l l' : Ledger} {process : Nat}
    (h : l.claimPersistedWindows process = some l') :
    (l.processes process).startUp = .loaded ∧ l' = l.setProcess process
      { l.processes process with
        startUp := .claimed
        ownedWindows := (l.handle process).claimPersistedWindows.ownedWindows } := by
  unfold Ledger.claimPersistedWindows at h
  split at h
  · exact ⟨‹_›, (Option.some.inj h).symm⟩
  · cases h

theorem Recorded.step (h : Recorded tables s) {action : DbAction}
    (hstep : s.step action = some s') : Recorded tables s' := by
  cases action with
  | load process =>
      rcases Option.map_eq_some_iff.mp hstep with ⟨l, hload, rfl⟩
      refine ⟨fun tx htx => ?_, h.record hload⟩
      rcases load_eq_some hload with ⟨hopened, startUp, restored, rfl⟩
      refine (h.writing tx htx).setProcess ?_ _
      rintro rfl
      rw [(h.writing tx htx).startUp] at hopened
      cases hopened
  | claimPersistedWindows process =>
      rcases Option.map_eq_some_iff.mp hstep with ⟨l, hclaim, rfl⟩
      refine ⟨fun tx htx => ?_, h.record hclaim⟩
      rcases claim_eq_some hclaim with ⟨hloaded, rfl⟩
      refine (h.writing tx htx).setProcess ?_ _
      rintro rfl
      rw [(h.writing tx htx).startUp] at hloaded
      cases hloaded
  | begin process snapshot =>
      rcases Option.ite_none_right_eq_some.mp hstep with ⟨hclaimed, hbegin⟩
      split at hbegin
      · cases hbegin
        refine ⟨fun tx htx => ?_, h.history⟩
        cases htx
        exact ⟨hclaimed, Nat.zero_le _, rfl⟩
      · cases hbegin
        exact h
  | applyNext =>
      rcases Option.bind_eq_some_iff.mp hstep with ⟨tx, htx, hnext⟩
      rcases Option.map_eq_some_iff.mp hnext with ⟨window, hwindow, rfl⟩
      split
      · rename_i next happly
        refine ⟨fun other hother => ?_, h.history⟩
        cases hother
        exact (h.writing tx htx).applyNext hwindow happly
      · exact ⟨by simp, h.history⟩
  | fail =>
      rcases Option.map_eq_some_iff.mp hstep with ⟨tx, htx, rfl⟩
      exact ⟨by simp, h.history⟩
  | commit =>
      rcases Option.bind_eq_some_iff.mp hstep with ⟨tx, htx, hcommit⟩
      rcases Option.ite_none_right_eq_some.mp hcommit with ⟨hdone, hcommitted⟩
      cases hcommitted
      refine ⟨by simp, h.record ?_⟩
      rcases (h.writing tx htx).apply_eq hdone with ⟨stats, happly⟩
      show s.ledger.apply tx.process tx.snapshot = _
      unfold Ledger.apply
      rw [if_pos (h.writing tx htx).startUp, happly]
  | exit process =>
      cases hstep
      refine ⟨fun tx htx => ?_, h.record rfl⟩
      rcases Option.mem_filter_iff.mp htx with ⟨hwriter, hother⟩
      exact (h.writing tx hwriter).setProcess (by simpa using hother) _

/-- A process owns only windows that it restored or wrote, and none before its load. -/
structure OwnsKnown (s : SharedDb) : Prop where
  unclaimed : ∀ process, (s.ledger.processes process).startUp = .opened →
    ∀ id, id ∉ (s.ledger.processes process).ownedWindows
  known : ∀ process, ∀ id ∈ (s.ledger.processes process).ownedWindows,
    id ∈ (s.ledger.processes process).restored ∨ id ∈ (s.ledger.processes process).written

theorem ownsKnown_opened (tables : Tables) : OwnsKnown (opened tables) where
  unclaimed := fun _ _ _ => Std.ExtTreeSet.not_mem_empty
  known := fun _ _ hid => absurd hid Std.ExtTreeSet.not_mem_empty

/-- Only one process changes, and it owns what it restored or wrote. -/
theorem OwnsKnown.update (h : OwnsKnown s) {process : Nat} {next : StateProcess}
    (hprocesses : s'.ledger.processes = Function.update s.ledger.processes process next)
    (hunclaimed : next.startUp = .opened → ∀ id, id ∉ next.ownedWindows)
    (hnext : ∀ id ∈ next.ownedWindows, id ∈ next.restored ∨ id ∈ next.written) : OwnsKnown s' := by
  constructor
  · intro other
    rw [hprocesses]
    by_cases hsame : other = process
    · subst hsame
      rw [Function.update_self]
      exact hunclaimed
    · rw [Function.update_of_ne hsame]
      exact h.unclaimed other
  · intro other
    rw [hprocesses]
    by_cases hsame : other = process
    · subst hsame
      rw [Function.update_self]
      exact hnext
    · rw [Function.update_of_ne hsame]
      exact h.known other

theorem mem_ofList_iff {ids : List Int} {id : Int} :
    id ∈ Std.ExtTreeSet.ofList ids ↔ id ∈ ids := by
  rw [Std.ExtTreeSet.mem_ofList, List.contains_iff_mem]

theorem OwnsKnown.step (h : OwnsKnown s) (hrecorded : Recorded tables s) {action : DbAction}
    (hguard : s.ClaimsRestored action) (hstep : s.step action = some s') : OwnsKnown s' := by
  cases action with
  | load process =>
      rcases Option.map_eq_some_iff.mp hstep with ⟨l, hload, rfl⟩
      rcases load_eq_some hload with ⟨hopened, startUp, restored, rfl⟩
      have hnone := h.unclaimed process hopened
      exact h.update rfl (fun _ => hnone) fun id hid => absurd hid (hnone id)
  | claimPersistedWindows process =>
      rcases Option.map_eq_some_iff.mp hstep with ⟨l, hclaim, rfl⟩
      rcases claim_eq_some hclaim with ⟨_, rfl⟩
      refine h.update rfl (fun hopened => by cases hopened) fun id hid => Or.inl (hguard id ?_)
      exact mem_ofList_iff.mp hid
  | begin process snapshot =>
      rcases Option.ite_none_right_eq_some.mp hstep with ⟨_, hbegin⟩
      split at hbegin <;> cases hbegin <;> exact ⟨h.unclaimed, h.known⟩
  | applyNext =>
      rcases Option.bind_eq_some_iff.mp hstep with ⟨tx, _, hnext⟩
      rcases Option.map_eq_some_iff.mp hnext with ⟨window, _, rfl⟩
      split <;> exact ⟨h.unclaimed, h.known⟩
  | fail =>
      rcases Option.map_eq_some_iff.mp hstep with ⟨tx, _, rfl⟩
      exact ⟨h.unclaimed, h.known⟩
  | commit =>
      rcases Option.bind_eq_some_iff.mp hstep with ⟨tx, htx, hcommit⟩
      rcases Option.ite_none_right_eq_some.mp hcommit with ⟨_, hcommitted⟩
      cases hcommitted
      refine h.update rfl ?_ ?_
      · intro hopened
        have hclaimed := (hrecorded.writing tx htx).startUp
        rw [hopened] at hclaimed
        cases hclaimed
      · intro id hid
        exact Or.inr (List.mem_append_right _ (mem_ofList_iff.mp hid))
  | exit process =>
      cases hstep
      exact h.update rfl (fun hopened => by cases hopened) (h.known process)

/-! ## Deletions and failures -/

/-- Every step but a commit leaves the rows alone. -/
theorem tables_of_step {action : DbAction} (hcommit : action ≠ .commit)
    (hstep : s.step action = some s') : s'.ledger.tables = s.ledger.tables := by
  cases action with
  | load process =>
      rcases Option.map_eq_some_iff.mp hstep with ⟨l, hload, rfl⟩
      rcases load_eq_some hload with ⟨_, _, _, rfl⟩
      rfl
  | claimPersistedWindows process =>
      rcases Option.map_eq_some_iff.mp hstep with ⟨l, hclaim, rfl⟩
      rcases claim_eq_some hclaim with ⟨_, rfl⟩
      rfl
  | begin process snapshot =>
      rcases Option.ite_none_right_eq_some.mp hstep with ⟨_, hbegin⟩
      split at hbegin <;> cases hbegin <;> rfl
  | applyNext =>
      rcases Option.bind_eq_some_iff.mp hstep with ⟨tx, _, hnext⟩
      rcases Option.map_eq_some_iff.mp hnext with ⟨window, _, rfl⟩
      split <;> rfl
  | fail =>
      rcases Option.map_eq_some_iff.mp hstep with ⟨tx, _, rfl⟩
      rfl
  | commit => exact absurd rfl hcommit
  | exit process =>
      cases hstep
      rfl

theorem Writing.deletes_owned {tx : ApplyTx} (h : Writing s.ledger tx) {id : Int}
    (hstored : id ∈ s.ledger.tables.windows) (hgone : id ∉ (s.finished tx).tables.windows) :
    id ∈ (s.ledger.processes tx.process).ownedWindows := by
  have hworking := mem_windows_applyWindowList h.prefixDone hstored
  by_contra hforeign
  refine hgone (mem_windows_deleteClosedWindows hworking fun hclosed => hforeign ?_)
  exact (mem_closedWindows.mp hclosed).1

theorem Recorded.deletesOwn (h : Recorded tables s) (howns : OwnsKnown s) (action : DbAction) :
    s.DeletesOwn action := by
  intro s' hstep id hstored hgone
  by_cases hcommit : action = .commit
  · subst hcommit
    rcases Option.bind_eq_some_iff.mp hstep with ⟨tx, htx, hcommitted⟩
    rcases Option.ite_none_right_eq_some.mp hcommitted with ⟨_, hfinished⟩
    cases hfinished
    exact ⟨tx, htx, rfl, howns.known tx.process id ((h.writing tx htx).deletes_owned hstored hgone)⟩
  · rw [tables_of_step hcommit hstep] at hgone
    exact absurd hstored hgone

theorem failsCleanly (s : SharedDb) (action : DbAction) : s.FailsCleanly action := by
  intro s' hstep hwriting hended hcommit
  refine ⟨tables_of_step hcommit hstep, fun other => ?_⟩
  cases action with
  | load process =>
      rcases Option.map_eq_some_iff.mp hstep with ⟨l, _, rfl⟩
      rw [show s.writer = none from hended] at hwriting
      cases hwriting
  | claimPersistedWindows process =>
      rcases Option.map_eq_some_iff.mp hstep with ⟨l, _, rfl⟩
      rw [show s.writer = none from hended] at hwriting
      cases hwriting
  | begin process snapshot =>
      rcases Option.ite_none_right_eq_some.mp hstep with ⟨_, hbegin⟩
      split at hbegin <;> cases hbegin <;> rfl
  | applyNext =>
      rcases Option.bind_eq_some_iff.mp hstep with ⟨tx, _, hnext⟩
      rcases Option.map_eq_some_iff.mp hnext with ⟨window, _, rfl⟩
      split <;> rfl
  | fail =>
      rcases Option.map_eq_some_iff.mp hstep with ⟨tx, _, rfl⟩
      rfl
  | commit => exact absurd rfl hcommit
  | exit process =>
      cases hstep
      show (Function.update s.ledger.processes process _ other).ownedWindows = _
      by_cases hsame : other = process
      · subst hsame
        rw [Function.update_self]
      · rw [Function.update_of_ne hsame]

/--
In every run in which no claim finds a window that its load did not return, each
row that goes is of a window that the committing process restored or wrote, and
an apply that fails changes nothing; and every run does to the rows and the owned
sets what its committed applies do, one after the other, without the failed ones.
-/
theorem applies_delete_own {tables : Tables} {actions : List DbAction}
    (hguard : Guarded step ClaimsRestored (opened tables) actions) :
    Guarded step (fun s action => s.DeletesOwn action ∧ s.FailsCleanly action) (opened tables)
        actions ∧
      ∀ s, run step (opened tables) actions = some s →
        run Ledger.step (opened tables).ledger s.history = some s.ledger := by
  constructor
  · refine hguard.of_invariant (fun s => Recorded tables s ∧ OwnsKnown s) ?_ ?_
      ⟨recorded_opened tables, ownsKnown_opened tables⟩
    · rintro s action s' ⟨hrecorded, howns⟩ hclaims hstep
      exact ⟨hrecorded.step hstep, howns.step hrecorded hclaims hstep⟩
    · rintro s action ⟨hrecorded, howns⟩ _
      exact ⟨hrecorded.deletesOwn howns action, failsCleanly s action⟩
  · intro s hrun
    have hrecorded := invariant_of_run (Recorded tables)
      (fun s action s' hrecorded hstep => hrecorded.step hstep) (recorded_opened tables) hrun
    exact hrecorded.history

/-- A window that is just opened. -/
def sampleStored (windowId : Int) : WindowState where
  windowId := windowId
  tabs := []
  activeTabIndex := none
  windowBounds := .default

/-- A process starts up, and then writes its windows, once in vain. -/
def sampleSession (process : Nat) : List DbAction :=
  [.load process, .claimPersistedWindows process, .begin process ⟨[sampleStored 7]⟩, .applyNext,
    .fail, .begin process ⟨[sampleStored 7]⟩, .applyNext, .commit]

/-- A second process restores the window of the first and closes it. -/
theorem applies_delete_own_sample :
    Guarded step (fun s action => s.DeletesOwn action ∧ s.FailsCleanly action)
        (opened .empty) (sampleSession 0 ++
          [.load 1, .claimPersistedWindows 1, .begin 1 ⟨[]⟩, .commit]) ∧
      ∀ s, run step (opened .empty) (sampleSession 0 ++
          [.load 1, .claimPersistedWindows 1, .begin 1 ⟨[]⟩, .commit]) = some s →
        run Ledger.step (opened .empty).ledger s.history = some s.ledger :=
  applies_delete_own (Guarded.of_guardedRun (by decide))

/--
Process `1` loads the empty database, process `0` writes its window, and process
`1` claims it: its next apply deletes a window it neither restored nor wrote.
-/
theorem claim_takes_foreign_window :
    ∃ s, run step (opened .empty) (.load 1 :: sampleSession 0 ++
        [.claimPersistedWindows 1, .begin 1 ⟨[]⟩]) = some s ∧ ¬s.DeletesOwn .commit := by
  have hfacts : (run step (opened .empty) (.load 1 :: sampleSession 0 ++
      [.claimPersistedWindows 1, .begin 1 ⟨[]⟩])).any (fun s =>
        decide ((7 : Int) ∈ s.ledger.tables.windows) &&
          (s.writer.all fun tx => (s.ledger.processes tx.process).restored = [] ∧
            (s.ledger.processes tx.process).written = []) &&
          (s.step .commit).any fun s' => decide ((7 : Int) ∉ s'.ledger.tables.windows)) = true := by
    decide
  rcases (Option.any_eq_true _ _).mp hfacts with ⟨s, hrun, hs⟩
  simp only [Bool.and_eq_true, decide_eq_true_eq] at hs
  rcases hs with ⟨⟨hstored, hidle⟩, hcommit⟩
  rcases (Option.any_eq_true _ _).mp hcommit with ⟨s', hstep, hgone⟩
  refine ⟨s, hrun, fun hown => ?_⟩
  rcases hown s' hstep 7 hstored (of_decide_eq_true hgone) with ⟨tx, htx, _, hknown⟩
  rw [Option.mem_def] at htx
  simp [htx] at hidle
  simp [hidle] at hknown

end SharedDb

end Fulgur
