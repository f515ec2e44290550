import Mathlib.Algebra.Ring.Nat
import Fulgur.Library.Custody
import Fulgur.Library.Run
import Fulgur.State.Persistence

/-! # Halves of renames

Some systems report a rename by two notifications, one for the old path and one
for the new. The watcher keeps the first half in a slot until the second half
comes; a half that has waited for too long is reported as deleted. The slot is
shared with the task that consumes the events, which flushes it while the
callback of a notification may be under way. Time passes between any two steps.
-/

namespace Fulgur

/-- How long a From half may wait, in milliseconds. -/
def PENDING_RENAME_TIMEOUT : Nat := 500

inductive RenameMode where
  | any
  | toHalf
  | fromHalf
  | both
  | other
deriving DecidableEq

inductive ModifyKind where
  | any
  | data
  | metadata
  | name (renameMode : RenameMode)
  | other
deriving DecidableEq

inductive EventKind where
  | any
  | access
  | create
  | modify (kind : ModifyKind)
  | remove
  | other
deriving DecidableEq

/-- A notification of the operating system. -/
structure NotifyEvent where
  kind : EventKind
  paths : List PathBuf
  /-- The rename that it tells of, if any; the watcher does not read it. -/
  rename : Nat
deriving DecidableEq

def NotifyEvent.isHalf (event : NotifyEvent) (renameMode : RenameMode) : Bool :=
  event.kind = .modify (.name renameMode) && event.paths.length = 1

namespace FileWatcher

/-- What the watcher reports. -/
inductive FileWatchEvent where
  | modified (path : PathBuf)
  | deleted (path : PathBuf)
  | renamed (fromPath toPath : PathBuf)
  | error (msg : String)
deriving DecidableEq

end FileWatcher

/-- A From half that has arrived. -/
structure FromHalf where
  path : PathBuf
  rename : Nat
  storedAt : Nat
deriving DecidableEq

/-- The slot of a From half, with the number of the half in the order of arrival. -/
structure PendingRename where
  half : FromHalf
  number : Nat
deriving DecidableEq

/-- An event on the channel, with the halves that led to it. -/
structure SentEvent where
  event : FileWatcher.FileWatchEvent
  /-- The number of a From half. -/
  fromHalf : Option Nat
  /-- The rename of a To half. -/
  toHalf : Option Nat
deriving DecidableEq

structure FileWatcher where
  pendingRenameFrom : Option PendingRename
  /-- The notification whose callback has started. -/
  handling : Option NotifyEvent
  clock : Nat
  sent : List SentEvent
  fromHalves : List FromHalf
  /-- When the slot was last flushed. -/
  lastFlush : Option Nat
  /-- The notifications whose callbacks are over. -/
  handled : List NotifyEvent
deriving DecidableEq

inductive WatcherAction where
  | wait (elapsed : Nat)
  /-- The callback of a notification starts and looks for a stale half. -/
  | notify (event : NotifyEvent)
  /-- The callback goes on. -/
  | handle
  | notifyError (msg : String)
  | flush
deriving DecidableEq

namespace FileWatcher

def new : FileWatcher := ⟨none, none, 0, [], [], none, []⟩

def sendEvent (watcher : FileWatcher) (event : FileWatchEvent) : FileWatcher :=
  { watcher with sent := watcher.sent ++ [⟨event, none, none⟩] }

/-- Take a half out of the slot and send the event that it leads to. -/
def sendPending (watcher : FileWatcher) (pending : PendingRename) (event : FileWatchEvent)
    (toHalf : Option Nat) : FileWatcher :=
  { watcher with
    pendingRenameFrom := none
    sent := watcher.sent ++ [⟨event, some pending.number, toHalf⟩] }

def expirePendingRenameFrom (watcher : FileWatcher) : FileWatcher :=
  match watcher.pendingRenameFrom with
  | none => watcher
  | some pending =>
      if PENDING_RENAME_TIMEOUT ≤ watcher.clock - pending.half.storedAt then
        watcher.sendPending pending (.deleted pending.half.path) none
      else watcher

def flushExpiredPendingRename (watcher : FileWatcher) : FileWatcher :=
  { watcher.expirePendingRenameFrom with lastFlush := some watcher.clock }

/-- A From half goes into the slot, whatever is there. -/
def storeFrom (watcher : FileWatcher) (path : PathBuf) (rename : Nat) : FileWatcher :=
  let half : FromHalf := ⟨path, rename, watcher.clock⟩
  { watcher with
    pendingRenameFrom := some ⟨half, watcher.fromHalves.length⟩
    fromHalves := watcher.fromHalves ++ [half] }

/-- Whatever is in the slot goes with the To half. -/
def joinTo (watcher : FileWatcher) (path : PathBuf) (rename : Nat) : FileWatcher :=
  match watcher.pendingRenameFrom with
  | some pending => watcher.sendPending pending (.renamed pending.half.path path) (some rename)
  | none => watcher.sendEvent (.modified path)

def flushOrphaned (watcher : FileWatcher) : FileWatcher :=
  match watcher.pendingRenameFrom with
  | some pending => watcher.sendPending pending (.deleted pending.half.path) none
  | none => watcher

def handleSinglePath (watcher : FileWatcher) (renameMode : RenameMode) (path : PathBuf)
    (rename : Nat) : FileWatcher :=
  match renameMode with
  | .fromHalf => watcher.storeFrom path rename
  | .toHalf => watcher.joinTo path rename
  | .any => watcher.flushOrphaned.sendEvent (.deleted path)
  | .both => watcher.flushOrphaned
  | .other => watcher.flushOrphaned

/-- `handle_notify_event` after the stale half is out of the slot. -/
def handleNotifyEvent (watcher : FileWatcher) (event : NotifyEvent) : FileWatcher :=
  match event.kind with
  | .modify (.name renameMode) =>
      match event.paths with
      | [fromPath, toPath] => watcher.sendEvent (.renamed fromPath toPath)
      | [path] => watcher.handleSinglePath renameMode path event.rename
      | _ => watcher
  | .modify _ => event.paths.foldl (fun watcher path => watcher.sendEvent (.modified path)) watcher
  | .create => event.paths.foldl (fun watcher path => watcher.sendEvent (.modified path)) watcher
  | .remove => event.paths.foldl (fun watcher path => watcher.sendEvent (.deleted path)) watcher
  | _ => watcher

def step (watcher : FileWatcher) : WatcherAction → Option FileWatcher
  | .wait elapsed => some { watcher with clock := watcher.clock + elapsed }
  | .notify event =>
      match watcher.handling with
      | none => some { watcher.expirePendingRenameFrom with handling := some event }
      | some _ => none
  | .handle =>
      watcher.handling.map fun event =>
        { watcher.handleNotifyEvent event with
          handling := none
          handled := watcher.handled ++ [event] }
  | .notifyError msg =>
      match watcher.handling with
      | none => some (watcher.sendEvent (.error msg))
      | some _ => none
  | .flush => some watcher.flushExpiredPendingRename

end FileWatcher

/-! ## Where a half goes -/

/-- An event tells that there is no file at a path any more. -/
def SentEvent.leaves (sent : SentEvent) (path : PathBuf) : Bool :=
  match sent.event with
  | .deleted gone => gone = path
  | .renamed fromPath _ => fromPath = path
  | _ => false

/-- Whether an event tells of the path of a From half. -/
def SentEvent.isAbout (sent : SentEvent) (half : FromHalf) : Bool := sent.leaves half.path

/-- How often a notification tells by itself that there is no file at a path any more. -/
def NotifyEvent.reports (event : NotifyEvent) (path : PathBuf) : Nat :=
  match event.kind, event.paths with
  | .modify (.name _), [fromPath, _] => if fromPath = path then 1 else 0
  | .modify (.name .any), [gone] => if gone = path then 1 else 0
  | .remove, paths => paths.count path
  | _, _ => 0

/-- The events about a path that no half has led to. -/
def FileWatcher.ownEvents (watcher : FileWatcher) (path : PathBuf) : Nat :=
  watcher.sent.countP fun sent => sent.fromHalf.isNone && sent.leaves path

/-- These come of the notifications that were handled. -/
def FileWatcher.OwnReported (watcher : FileWatcher) : Prop :=
  ∀ path, watcher.ownEvents path = (watcher.handled.map fun event => event.reports path).sum

/--
A From half is followed by one event that tells of its path, once its time has
passed and the slot was flushed after that, and it is joined with the To half of
its own rename. Any other event of this kind comes of a notification of its own.
-/
structure HalvesConserved (watcher : FileWatcher) : Prop where
  once : ∀ (number : Nat) (half : FromHalf), watcher.fromHalves[number]? = some half →
    ∀ flush ∈ watcher.lastFlush, half.storedAt + PENDING_RENAME_TIMEOUT ≤ flush →
      watcher.sent.countP (fun sent => sent.fromHalf = some number && sent.isAbout half) = 1
  joined : ∀ sent ∈ watcher.sent, ∀ number ∈ sent.fromHalf, ∀ rename ∈ sent.toHalf,
    ∃ half, watcher.fromHalves[number]? = some half ∧ half.rename = rename
  apart : watcher.OwnReported

/--
A From half arrives when the slot is empty, and a To half when it is empty or
holds the From half of the same rename.
-/
def PairingStep (watcher : FileWatcher) : WatcherAction → Prop
  | .handle => ∀ event ∈ watcher.handling,
      (event.isHalf .fromHalf = true → watcher.pendingRenameFrom = none) ∧
      (event.isHalf .toHalf = true → ∀ pending ∈ watcher.pendingRenameFrom,
        pending.half.rename = event.rename)
  | _ => True

instance (watcher : FileWatcher) (action : WatcherAction) :
    Decidable (PairingStep watcher action) := by
  unfold PairingStep
  split <;> infer_instance

/-! ## Events that no half has led to -/

namespace FileWatcher

variable {watcher watcher' : FileWatcher} {path : PathBuf}

theorem ownEvents_sendEvent (event : FileWatcher.FileWatchEvent) :
    (watcher.sendEvent event).ownEvents path =
      watcher.ownEvents path + if SentEvent.leaves ⟨event, none, none⟩ path then 1 else 0 := by
  unfold FileWatcher.sendEvent FileWatcher.ownEvents
  rw [List.countP_append, List.countP_singleton]
  rfl

theorem ownEvents_sendPending (pending : PendingRename) (event : FileWatcher.FileWatchEvent)
    (toHalf : Option Nat) :
    (watcher.sendPending pending event toHalf).ownEvents path = watcher.ownEvents path := by
  unfold FileWatcher.sendPending FileWatcher.ownEvents
  rw [List.countP_append, List.countP_singleton]
  rfl

theorem ownEvents_expirePendingRenameFrom :
    watcher.expirePendingRenameFrom.ownEvents path = watcher.ownEvents path := by
  unfold FileWatcher.expirePendingRenameFrom
  split
  · rfl
  · split
    · exact ownEvents_sendPending _ _ _
    · rfl

theorem handled_expirePendingRenameFrom :
    watcher.expirePendingRenameFrom.handled = watcher.handled := by
  unfold FileWatcher.expirePendingRenameFrom
  split
  · rfl
  · split <;> rfl

theorem OwnReported.expirePendingRenameFrom (h : watcher.OwnReported) :
    watcher.expirePendingRenameFrom.OwnReported := by
  intro path
  rw [ownEvents_expirePendingRenameFrom, handled_expirePendingRenameFrom]
  exact h path

theorem ownEvents_flushOrphaned :
    watcher.flushOrphaned.ownEvents path = watcher.ownEvents path := by
  unfold FileWatcher.flushOrphaned
  split
  · exact ownEvents_sendPending _ _ _
  · rfl

theorem ownEvents_joinTo (toPath : PathBuf) (rename : Nat) :
    (watcher.joinTo toPath rename).ownEvents path = watcher.ownEvents path := by
  unfold FileWatcher.joinTo
  split
  · exact ownEvents_sendPending _ _ _
  · exact ownEvents_sendEvent _

theorem ownEvents_modified (paths : List PathBuf) :
    (paths.foldl (fun watcher changed => watcher.sendEvent (.modified changed)) watcher).ownEvents
      path = watcher.ownEvents path := by
  induction paths generalizing watcher with
  | nil => rfl
  | cons changed paths ih => exact ih.trans (ownEvents_sendEvent _)

theorem ownEvents_deleted (paths : List PathBuf) :
    (paths.foldl (fun watcher gone => watcher.sendEvent (.deleted gone)) watcher).ownEvents path =
      watcher.ownEvents path + paths.count path := by
  induction paths generalizing watcher with
  | nil => rfl
  | cons gone paths ih =>
      rw [List.foldl_cons, ih, ownEvents_sendEvent, List.count_cons]
      simp only [SentEvent.leaves, decide_eq_true_eq, beq_iff_eq]
      omega

/-- A notification adds what it tells of by itself. -/
theorem ownEvents_handleNotifyEvent (event : NotifyEvent) :
    (watcher.handleNotifyEvent event).ownEvents path =
      watcher.ownEvents path + event.reports path := by
  obtain ⟨kind, paths, rename⟩ := event
  cases kind with
  | modify kind =>
      cases kind with
      | name renameMode =>
          match paths with
          | [] => rfl
          | [gone] =>
              cases renameMode with
              | any =>
                  refine (ownEvents_sendEvent _).trans ?_
                  rw [ownEvents_flushOrphaned]
                  simp [SentEvent.leaves, NotifyEvent.reports]
              | toHalf => exact ownEvents_joinTo gone rename
              | fromHalf => rfl
              | both | other => exact ownEvents_flushOrphaned
          | [fromPath, toPath] =>
              refine (ownEvents_sendEvent _).trans ?_
              simp [SentEvent.leaves, NotifyEvent.reports]
          | _ :: _ :: _ :: _ => rfl
      | any | data | metadata | other => exact ownEvents_modified paths
  | create => exact ownEvents_modified paths
  | remove => exact ownEvents_deleted paths
  | any | access | other => rfl

theorem OwnReported.step {action : WatcherAction} (h : watcher.OwnReported)
    (hs : watcher.step action = some watcher') : watcher'.OwnReported := by
  intro path
  cases action with
  | wait elapsed =>
      cases hs
      exact h path
  | notify event =>
      simp only [FileWatcher.step] at hs
      split at hs
      · cases hs
        exact h.expirePendingRenameFrom path
      · cases hs
  | handle =>
      obtain ⟨event, -, rfl⟩ := Option.map_eq_some_iff.mp hs
      refine (ownEvents_handleNotifyEvent event).trans ?_
      rw [h path, List.map_append, List.sum_append, List.map_singleton, List.sum_singleton]
  | notifyError msg =>
      simp only [FileWatcher.step] at hs
      split at hs
      · cases hs
        exact (ownEvents_sendEvent _).trans (h path)
      · cases hs
  | flush =>
      cases hs
      exact h.expirePendingRenameFrom path

end FileWatcher

/-- What holds between any two steps that meet the condition. -/
structure HalvesKept (watcher : FileWatcher) : Prop where
  /-- A half is in the slot or has led to an event. -/
  balanced : Custody.Balanced id watcher.fromHalves.length
    (watcher.pendingRenameFrom.toList.map PendingRename.number)
    (watcher.sent.filterMap SentEvent.fromHalf)
  pending : ∀ pending ∈ watcher.pendingRenameFrom,
    watcher.fromHalves[pending.number]? = some pending.half
  flushed : ∀ flush ∈ watcher.lastFlush, flush ≤ watcher.clock ∧
    ∀ pending ∈ watcher.pendingRenameFrom, flush < pending.half.storedAt + PENDING_RENAME_TIMEOUT
  /-- The event is about the path of the half and joins it with its own rename. -/
  about : ∀ sent ∈ watcher.sent, ∀ number ∈ sent.fromHalf,
    ∃ half, watcher.fromHalves[number]? = some half ∧ sent.isAbout half = true ∧
      ∀ rename ∈ sent.toHalf, half.rename = rename

namespace HalvesKept

variable {watcher watcher' : FileWatcher}

theorem new : HalvesKept .new where
  balanced := Custody.balanced_nil
  pending := nofun
  flushed := nofun
  about := nofun

theorem sendEvent (h : HalvesKept watcher) (event : FileWatcher.FileWatchEvent) :
    HalvesKept (watcher.sendEvent event) where
  balanced := by
    unfold FileWatcher.sendEvent
    rw [List.filterMap_append, List.filterMap_cons_none rfl, List.filterMap_nil, List.append_nil]
    exact h.balanced
  pending := h.pending
  flushed := h.flushed
  about := by
    intro sent hsent number hnumber
    rcases List.mem_append.mp hsent with hsent | hsent
    · exact h.about sent hsent number hnumber
    · rw [List.mem_singleton.mp hsent] at hnumber
      cases hnumber

/-- A half leaves the slot by an event about its path. -/
theorem sendPending (h : HalvesKept watcher) {pending : PendingRename}
    (hpending : watcher.pendingRenameFrom = some pending) {event : FileWatcher.FileWatchEvent}
    {toHalf : Option Nat}
    (habout : SentEvent.isAbout ⟨event, some pending.number, toHalf⟩ pending.half = true)
    (hrename : ∀ rename ∈ toHalf, pending.half.rename = rename) :
    HalvesKept (watcher.sendPending pending event toHalf) where
  balanced := by
    have hheld := h.balanced
    rw [hpending, Option.toList_some, List.map_singleton] at hheld
    unfold FileWatcher.sendPending
    rw [List.filterMap_append]
    exact hheld.leave rfl
  pending := nofun
  flushed flush hflush := ⟨(h.flushed flush hflush).1, nofun⟩
  about := by
    intro sent hsent number hnumber
    rcases List.mem_append.mp hsent with hsent | hsent
    · exact h.about sent hsent number hnumber
    · rw [List.mem_singleton.mp hsent] at hnumber ⊢
      cases hnumber
      exact ⟨pending.half, h.pending pending hpending, habout, hrename⟩

/-- A From half goes into an empty slot. -/
theorem storeFrom (h : HalvesKept watcher) (hempty : watcher.pendingRenameFrom = none)
    (path : PathBuf) (rename : Nat) : HalvesKept (watcher.storeFrom path rename) where
  balanced := by
    have hheld := h.balanced
    rw [hempty, Option.toList_none, List.map_nil] at hheld
    unfold FileWatcher.storeFrom
    rw [List.length_append, Option.toList_some, List.map_singleton]
    exact hheld.enter rfl
  pending := by
    intro pending hpending
    cases hpending
    exact List.getElem?_concat_length
  flushed := by
    intro flush hflush
    obtain ⟨hclock, -⟩ := h.flushed flush hflush
    refine ⟨hclock, fun pending hpending => ?_⟩
    cases hpending
    exact Nat.lt_of_le_of_lt hclock (Nat.lt_add_of_pos_right (by decide))
  about := by
    intro sent hsent number hnumber
    obtain ⟨half, hhalf, habout⟩ := h.about sent hsent number hnumber
    have hbound := (List.getElem?_eq_some_iff.mp hhalf).1
    exact ⟨half, (List.getElem?_append_left hbound).trans hhalf, habout⟩

theorem expirePendingRenameFrom (h : HalvesKept watcher) :
    HalvesKept watcher.expirePendingRenameFrom := by
  unfold FileWatcher.expirePendingRenameFrom
  split
  · exact h
  · rename_i pending hpending
    split
    · exact h.sendPending hpending (by simp [SentEvent.isAbout, SentEvent.leaves]) nofun
    · exact h

theorem flushOrphaned (h : HalvesKept watcher) : HalvesKept watcher.flushOrphaned := by
  unfold FileWatcher.flushOrphaned
  split
  · rename_i pending hpending
    exact h.sendPending hpending (by simp [SentEvent.isAbout, SentEvent.leaves]) nofun
  · exact h

/-- What is still in the slot after it was flushed had not waited for too long. -/
theorem flush (h : HalvesKept watcher) : HalvesKept watcher.flushExpiredPendingRename := by
  have hnext := h.expirePendingRenameFrom
  have hclock : watcher.expirePendingRenameFrom.clock = watcher.clock := by
    unfold FileWatcher.expirePendingRenameFrom
    split
    · rfl
    · split <;> rfl
  refine { hnext with flushed := ?_ }
  intro flush hflush
  cases hflush
  refine ⟨Nat.le_of_eq hclock.symm, fun pending hpending => ?_⟩
  change pending ∈ watcher.expirePendingRenameFrom.pendingRenameFrom at hpending
  unfold FileWatcher.expirePendingRenameFrom at hpending
  split at hpending
  · rename_i hnone
    rw [hnone] at hpending
    cases hpending
  · rename_i waiting hwaiting
    split at hpending
    · cases hpending
    · rename_i hrecent
      rw [hwaiting] at hpending
      cases hpending
      omega

theorem joinTo (h : HalvesKept watcher) (path : PathBuf) {rename : Nat}
    (hsame : ∀ pending ∈ watcher.pendingRenameFrom, pending.half.rename = rename) :
    HalvesKept (watcher.joinTo path rename) := by
  unfold FileWatcher.joinTo
  split
  · rename_i pending hpending
    refine h.sendPending hpending (by simp [SentEvent.isAbout, SentEvent.leaves])
      fun other hother => ?_
    cases hother
    exact hsame pending hpending
  · exact h.sendEvent _

theorem sendEvents (h : HalvesKept watcher) (event : PathBuf → FileWatcher.FileWatchEvent)
    (paths : List PathBuf) :
    HalvesKept (paths.foldl (fun watcher path => watcher.sendEvent (event path)) watcher) := by
  induction paths generalizing watcher with
  | nil => exact h
  | cons path paths ih => exact ih (h.sendEvent (event path))

theorem handleSinglePath (h : HalvesKept watcher) {renameMode : RenameMode} (path : PathBuf)
    {rename : Nat} (hempty : renameMode = .fromHalf → watcher.pendingRenameFrom = none)
    (hsame : renameMode = .toHalf →
      ∀ pending ∈ watcher.pendingRenameFrom, pending.half.rename = rename) :
    HalvesKept (watcher.handleSinglePath renameMode path rename) := by
  cases renameMode with
  | any => exact h.flushOrphaned.sendEvent _
  | toHalf => exact h.joinTo path (hsame rfl)
  | fromHalf => exact h.storeFrom (hempty rfl) path rename
  | both => exact h.flushOrphaned
  | other => exact h.flushOrphaned

theorem handleNotifyEvent (h : HalvesKept watcher) {event : NotifyEvent}
    (hempty : event.isHalf .fromHalf = true → watcher.pendingRenameFrom = none)
    (hsame : event.isHalf .toHalf = true →
      ∀ pending ∈ watcher.pendingRenameFrom, pending.half.rename = event.rename) :
    HalvesKept (watcher.handleNotifyEvent event) := by
  unfold FileWatcher.handleNotifyEvent
  split
  · rename_i renameMode hkind
    split
    · exact h.sendEvent _
    · rename_i path hpaths
      have hhalf : event.isHalf renameMode = true := by simp [NotifyEvent.isHalf, hkind, hpaths]
      refine h.handleSinglePath path ?_ ?_
      · rintro rfl
        exact hempty hhalf
      · rintro rfl
        exact hsame hhalf
    · exact h
  · exact h.sendEvents _ _
  · exact h.sendEvents _ _
  · exact h.sendEvents _ _
  · exact h

theorem step {action : WatcherAction} (h : HalvesKept watcher) (hguard : PairingStep watcher action)
    (hs : watcher.step action = some watcher') : HalvesKept watcher' := by
  cases action with
  | wait elapsed =>
      cases hs
      exact { h with flushed := fun flush hflush =>
        ⟨Nat.le_add_right_of_le (h.flushed flush hflush).1, (h.flushed flush hflush).2⟩ }
  | notify event =>
      simp only [FileWatcher.step] at hs
      split at hs
      · cases hs
        exact { h.expirePendingRenameFrom with }
      · cases hs
  | handle =>
      obtain ⟨event, hevent, rfl⟩ := Option.map_eq_some_iff.mp hs
      obtain ⟨hempty, hsame⟩ := hguard event hevent
      exact { h.handleNotifyEvent hempty hsame with }
  | notifyError msg =>
      simp only [FileWatcher.step] at hs
      split at hs
      · cases hs
        exact h.sendEvent _
      · cases hs
  | flush =>
      cases hs
      exact h.flush

/-- A half whose time had passed when the slot was flushed has left it. -/
theorem conserved (h : HalvesKept watcher) (hown : watcher.OwnReported) :
    HalvesConserved watcher where
  once := by
    intro number half hhalf flush hflush htime
    have hbound := (List.getElem?_eq_some_iff.mp hhalf).1
    have hcount := h.balanced.count hbound
    have hleft : number ∉ watcher.pendingRenameFrom.toList.map PendingRename.number := by
      intro hmem
      obtain ⟨pending, hpending, rfl⟩ := List.mem_map.mp hmem
      have hslot : pending ∈ watcher.pendingRenameFrom := Option.mem_toList.mp hpending
      have hsame := h.pending pending hslot
      rw [hhalf] at hsame
      cases hsame
      have hlater := (h.flushed flush hflush).2 pending hslot
      omega
    rw [List.map_id, List.map_id, List.count_eq_zero_of_not_mem hleft, Nat.zero_add,
      List.count, List.countP_filterMap] at hcount
    rw [← hcount]
    refine List.countP_congr fun sent hsent => ?_
    cases hnumber : sent.fromHalf with
    | none => simp
    | some other =>
        by_cases hsame : other = number
        · subst hsame
          obtain ⟨about, habout, hpath, -⟩ := h.about sent hsent other hnumber
          rw [hhalf] at habout
          cases habout
          simp [hpath]
        · simp [hsame]
  joined := by
    intro sent hsent number hnumber rename hrename
    obtain ⟨half, hhalf, -, hsame⟩ := h.about sent hsent number hnumber
    exact ⟨half, hhalf, hsame rename hrename⟩
  apart := hown

end HalvesKept

/-- Every half is conserved in every run whose steps meet the condition. -/
theorem rename_halves_conserved {actions : List WatcherAction} {watcher : FileWatcher}
    (hrun : LabelledRun.run FileWatcher.step .new actions = some watcher)
    (hguard : LabelledRun.Guarded FileWatcher.step PairingStep .new actions) :
    HalvesConserved watcher :=
  (LabelledRun.invariant_of_guarded HalvesKept (fun _ _ _ h hstep hs => h.step hstep hs)
    HalvesKept.new hguard hrun).conserved
    (LabelledRun.invariant_of_run FileWatcher.OwnReported (fun _ _ _ h hs => h.step hs)
      (fun _ => rfl) hrun)

/-! ## Halves that meet in the slot -/

def sampleRenamed (name : UInt8) : PathBuf := ⟨[0x2F, name]⟩

/-- The callback of a notification about one path runs from start to end. -/
def sampleHalf (renameMode : RenameMode) (name : UInt8) (rename : Nat) : List WatcherAction :=
  [.notify ⟨.modify (.name renameMode), [sampleRenamed name], rename⟩, .handle]

/-- A rename, a half without the other one, a rename of two paths and a removal. -/
def sampleRenames : List WatcherAction :=
  sampleHalf .fromHalf 1 0 ++ [.wait 2] ++ sampleHalf .toHalf 2 0 ++ sampleHalf .fromHalf 3 1 ++
    [.wait 500, .flush, .notify ⟨.modify (.name .both), [sampleRenamed 4, sampleRenamed 5], 2⟩,
      .handle, .notify ⟨.remove, [sampleRenamed 5], 0⟩, .handle]

theorem rename_halves_conserved_sample :
    ∃ watcher, LabelledRun.run FileWatcher.step .new sampleRenames = some watcher ∧
      HalvesConserved watcher ∧ watcher.sent.map SentEvent.event =
        [.renamed (sampleRenamed 1) (sampleRenamed 2), .deleted (sampleRenamed 3),
          .renamed (sampleRenamed 4) (sampleRenamed 5), .deleted (sampleRenamed 5)] := by
  obtain ⟨watcher, hrun, hsent⟩ :
      ∃ watcher, LabelledRun.run FileWatcher.step .new sampleRenames = some watcher ∧
        watcher.sent.map SentEvent.event =
          [.renamed (sampleRenamed 1) (sampleRenamed 2), .deleted (sampleRenamed 3),
            .renamed (sampleRenamed 4) (sampleRenamed 5), .deleted (sampleRenamed 5)] :=
    LabelledRun.exists_of_any (by decide)
  have hguard : LabelledRun.Guarded FileWatcher.step PairingStep .new sampleRenames :=
    LabelledRun.Guarded.of_guardedRun (by decide)
  exact ⟨watcher, hrun, rename_halves_conserved hrun hguard, hsent⟩

/-- Two renames in flight; a file that leaves the watched place while another one comes in. -/
def sampleOverlapping : List WatcherAction :=
  sampleHalf .fromHalf 1 0 ++ sampleHalf .fromHalf 2 1 ++ [.wait 500, .flush]

def sampleCrossed : List WatcherAction := sampleHalf .fromHalf 1 0 ++ sampleHalf .toHalf 3 1

/-- The first of two halves is lost, and a half is joined with that of another rename. -/
theorem overlapping_halves_lost :
    (∃ watcher, LabelledRun.run FileWatcher.step .new sampleOverlapping = some watcher ∧
      watcher.sent.map SentEvent.event = [.deleted (sampleRenamed 2)] ∧
      ¬ HalvesConserved watcher) ∧
    ∃ watcher, LabelledRun.run FileWatcher.step .new sampleCrossed = some watcher ∧
      watcher.sent.map SentEvent.event = [.renamed (sampleRenamed 1) (sampleRenamed 3)] ∧
      ¬ HalvesConserved watcher := by
  constructor
  · obtain ⟨watcher, hrun, hsent, hfirst, hflush, hcount⟩ :
        ∃ watcher, LabelledRun.run FileWatcher.step .new sampleOverlapping = some watcher ∧
          watcher.sent.map SentEvent.event = [.deleted (sampleRenamed 2)] ∧
          watcher.fromHalves[0]? = some ⟨sampleRenamed 1, 0, 0⟩ ∧ watcher.lastFlush = some 500 ∧
          watcher.sent.countP (fun sent =>
            sent.fromHalf = some 0 && sent.isAbout ⟨sampleRenamed 1, 0, 0⟩) = 0 :=
      LabelledRun.exists_of_any (by decide)
    refine ⟨watcher, hrun, hsent, fun h => ?_⟩
    have honce := h.once 0 _ hfirst 500 hflush (by decide)
    omega
  · obtain ⟨watcher, hrun, hsent, hjoined, hfirst⟩ :
        ∃ watcher, LabelledRun.run FileWatcher.step .new sampleCrossed = some watcher ∧
          watcher.sent.map SentEvent.event = [.renamed (sampleRenamed 1) (sampleRenamed 3)] ∧
          ⟨.renamed (sampleRenamed 1) (sampleRenamed 3), some 0, some 1⟩ ∈ watcher.sent ∧
          watcher.fromHalves[0]? = some ⟨sampleRenamed 1, 0, 0⟩ :=
      LabelledRun.exists_of_any (by decide)
    refine ⟨watcher, hrun, hsent, fun h => ?_⟩
    obtain ⟨half, hhalf, hrename⟩ := h.joined _ hjoined 0 rfl 1 rfl
    rw [hfirst] at hhalf
    cases hhalf
    cases hrename

end Fulgur
