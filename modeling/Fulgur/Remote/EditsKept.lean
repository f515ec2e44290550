import Fulgur.Library.Run
import Fulgur.Remote.Loads

/-! # Loads and edits of a remote tab

A restored tab is loaded when it is activated unmodified, and the file replaces
its buffer when the transfer reports back, whatever happened to the buffer in
between. A trace notes when each request was numbered and when each tab was last
edited; in a run that edits no tab whose latest load may still report, no load
replaces an edit made after it was requested.
-/

namespace Fulgur

open LabelledRun
open RemoteWindow

/-- A window with the times of its requests, by number, and of the edits of its tabs. -/
structure LoadTrace where
  window : RemoteWindow
  now : Nat
  requestedAt : Nat → Option Nat
  editedAt : Nat → Option Nat

namespace LoadTrace

/-- The tab whose buffer an outcome replaces. -/
def appliesTo (w : RemoteWindow) (outcome : PendingRemoteOpenOutcome) : Option Nat :=
  match outcome.targetTabId, outcome.result with
  | some tabId, .ok (.file _) =>
      if outcome.targetRequestId.isSome ∧
          w.latestRemoteOpenRequestByTab tabId ≠ outcome.targetRequestId then none
      else if w.tabs.any fun tab => tab.id = tabId then some tabId
      else none
  | _, _ => none

/-- The outcomes that replace a buffer when the queue is drained, with their tabs. -/
def appliedLoads : RemoteWindow → List PendingRemoteOpenOutcome → List (Nat × Option Nat)
  | _, [] => []
  | w, outcome :: rest =>
      ((appliesTo w outcome).toList.map fun tabId => (tabId, outcome.targetRequestId)) ++
        appliedLoads (w.processOutcome outcome) rest

def launched (w : RemoteWindow) : LoadTrace where
  window := w
  now := 0
  requestedAt := fun _ => none
  editedAt := fun _ => none

/-- Note when a number was given away. -/
def noteRequest (r : LoadTrace) (w : RemoteWindow) : Nat → Option Nat :=
  if w.nextRemoteRequestId = r.window.nextRemoteRequestId then r.requestedAt
  else Function.update r.requestedAt r.window.nextRemoteRequestId (some r.now)

def noteEdit (r : LoadTrace) : RemoteAction → Nat → Option Nat
  | .edit tabId _ => Function.update r.editedAt tabId (some r.now)
  | .replace tabId _ => Function.update r.editedAt tabId (some r.now)
  | _ => r.editedAt

def step (encodings : Encodings) (r : LoadTrace) (action : RemoteAction) : Option LoadTrace :=
  (r.window.step encodings action).map fun w =>
    { window := w
      now := r.now + 1
      requestedAt := r.noteRequest w
      editedAt := r.noteEdit action }

/-- A load that replaces a buffer replaces no edit made since it was requested. -/
def KeepsEdits (r : LoadTrace) : RemoteAction → Prop
  | .processPendingRemoteFiles =>
      ∀ applied ∈ appliedLoads { r.window with pendingRemoteOpen := [] } r.window.pendingRemoteOpen,
        ∃ id ∈ applied.2, ∃ requested ∈ r.requestedAt id,
          ∀ edit ∈ r.editedAt applied.1, edit < requested
  | _ => True

instance (r : LoadTrace) (action : RemoteAction) : Decidable (r.KeepsEdits action) :=
  match action with
  | .processPendingRemoteFiles => inferInstanceAs (Decidable (∀ applied ∈
      appliedLoads { r.window with pendingRemoteOpen := [] } r.window.pendingRemoteOpen,
        ∃ id ∈ applied.2, ∃ requested ∈ r.requestedAt id,
          ∀ edit ∈ r.editedAt applied.1, edit < requested))
  | .openRemote _ _ => isTrue trivial
  | .setActiveTab _ _ => isTrue trivial
  | .answerOpenPassword _ _ => isTrue trivial
  | .openWorks _ _ => isTrue trivial
  | .advanceOpen _ => isTrue trivial
  | .monitorOpen _ _ => isTrue trivial
  | .cancelOpen _ => isTrue trivial
  | .edit _ _ => isTrue trivial
  | .replace _ _ => isTrue trivial
  | .save _ _ => isTrue trivial
  | .answerSavePassword _ _ => isTrue trivial
  | .upload _ _ => isTrue trivial
  | .saveWorks _ _ => isTrue trivial
  | .advanceSave _ => isTrue trivial
  | .monitorSave _ _ => isTrue trivial
  | .cancelSave _ => isTrue trivial
  | .closeTab _ => isTrue trivial

/-- A load of the tab may still report, and it is the latest. -/
def AwaitsLoad (w : RemoteWindow) (tabId : Nat) : Prop :=
  ∃ request ∈ w.openRequests, request.targetTabId = some tabId ∧
    request.targetRequestId = w.latestRemoteOpenRequestByTab tabId ∧ w.Awaited request

instance (w : RemoteWindow) (tabId : Nat) : Decidable (AwaitsLoad w tabId) :=
  inferInstanceAs (Decidable (∃ request ∈ w.openRequests, _))

/--
What a run must keep to: no tab is edited while a load of it may still report,
and the numbers of requests do not run out.
-/
def UndisturbedStep (r : LoadTrace) (action : RemoteAction) : Prop :=
  r.window.nextRemoteRequestId + 1 < 2 ^ 64 ∧
    match action with
    | .edit tabId _ => ¬AwaitsLoad r.window tabId
    | .replace tabId _ => ¬AwaitsLoad r.window tabId
    | _ => True

instance (r : LoadTrace) (action : RemoteAction) : Decidable (r.UndisturbedStep action) :=
  match action with
  | .edit tabId _ => inferInstanceAs (Decidable (_ ∧ ¬AwaitsLoad r.window tabId))
  | .replace tabId _ => inferInstanceAs (Decidable (_ ∧ ¬AwaitsLoad r.window tabId))
  | .openRemote _ _ => inferInstanceAs (Decidable (_ ∧ True))
  | .setActiveTab _ _ => inferInstanceAs (Decidable (_ ∧ True))
  | .answerOpenPassword _ _ => inferInstanceAs (Decidable (_ ∧ True))
  | .openWorks _ _ => inferInstanceAs (Decidable (_ ∧ True))
  | .advanceOpen _ => inferInstanceAs (Decidable (_ ∧ True))
  | .monitorOpen _ _ => inferInstanceAs (Decidable (_ ∧ True))
  | .cancelOpen _ => inferInstanceAs (Decidable (_ ∧ True))
  | .processPendingRemoteFiles => inferInstanceAs (Decidable (_ ∧ True))
  | .save _ _ => inferInstanceAs (Decidable (_ ∧ True))
  | .answerSavePassword _ _ => inferInstanceAs (Decidable (_ ∧ True))
  | .upload _ _ => inferInstanceAs (Decidable (_ ∧ True))
  | .saveWorks _ _ => inferInstanceAs (Decidable (_ ∧ True))
  | .advanceSave _ => inferInstanceAs (Decidable (_ ∧ True))
  | .monitorSave _ _ => inferInstanceAs (Decidable (_ ∧ True))
  | .cancelSave _ => inferInstanceAs (Decidable (_ ∧ True))
  | .closeTab _ => inferInstanceAs (Decidable (_ ∧ True))

/-! ## Edits are older than the loads on their way -/

/-- The request was made after the last edit of the tab. -/
def MadeSince (requestedAt editedAt : Nat → Option Nat) (tabId : Nat) (id : Option Nat) : Prop :=
  ∃ number ∈ id, ∃ requested ∈ requestedAt number, ∀ edit ∈ editedAt tabId, edit < requested

/-- Every load that may still replace a buffer was requested after the last edit of its tab. -/
structure Timely (requestedAt editedAt : Nat → Option Nat) (w : RemoteWindow) : Prop where
  latest : ∀ tabId id, w.latestRemoteOpenRequestByTab tabId = some id → id < w.nextRemoteRequestId
  numbered : ∀ request ∈ w.openRequests,
    request.targetRequestId.isSome = request.targetTabId.isSome ∧
      ∀ id ∈ request.targetRequestId, id < w.nextRemoteRequestId
  queued : ∀ outcome ∈ w.pendingRemoteOpen, ∃ request ∈ w.openRequests,
    request.targetTabId = outcome.targetTabId ∧
      request.targetRequestId = outcome.targetRequestId
  timely : ∀ request ∈ w.openRequests, ∀ tabId, request.targetTabId = some tabId →
    request.targetRequestId = w.latestRemoteOpenRequestByTab tabId → w.Awaited request →
      MadeSince requestedAt editedAt tabId request.targetRequestId

variable {encodings : Encodings} {requestedAt requestedAt' editedAt : Nat → Option Nat}
  {w w' : RemoteWindow} {now : Nat}

/-- The numbers in use keep their times, and a new one is given the present one. -/
structure Noted (requestedAt requestedAt' : Nat → Option Nat) (now : Nat)
    (w w' : RemoteWindow) : Prop where
  old : ∀ id < w.nextRemoteRequestId, requestedAt' id = requestedAt id
  new : w'.nextRemoteRequestId ≠ w.nextRemoteRequestId →
    requestedAt' w.nextRemoteRequestId = some now

theorem MadeSince.noted {tabId : Nat} {id : Option Nat}
    (h : MadeSince requestedAt editedAt tabId id) (hnoted : Noted requestedAt requestedAt' now w w')
    (hid : ∀ number ∈ id, number < w.nextRemoteRequestId) :
    MadeSince requestedAt' editedAt tabId id := by
  rcases h with ⟨number, hnumber, requested, hrequested, hedits⟩
  refine ⟨number, hnumber, requested, ?_, hedits⟩
  rw [hnoted.old number (hid number hnumber)]
  exact hrequested

/-- The numbers of the requests stay below a counter that only grows. -/
theorem Timely.below (h : Timely requestedAt editedAt w) {counter : Nat}
    (hcounter : w.nextRemoteRequestId ≤ counter) :
    ∀ request ∈ w.openRequests, request.targetRequestId.isSome = request.targetTabId.isSome ∧
      ∀ id ∈ request.targetRequestId, id < counter := by
  intro request hrequest
  rcases h.numbered request hrequest with ⟨hpaired, hbelow⟩
  exact ⟨hpaired, fun id hid => Nat.lt_of_lt_of_le (hbelow id hid) hcounter⟩

/-- A request that is still the latest of its tab was made after the last edit. -/
theorem Timely.since (h : Timely requestedAt editedAt w)
    (hnoted : Noted requestedAt requestedAt' now w w')
    (hlatest : ∀ tabId id, w'.latestRemoteOpenRequestByTab tabId = some id →
      w.latestRemoteOpenRequestByTab tabId = some id)
    {request : OpenRequest} (hrequest : request ∈ w.openRequests) {tabId : Nat}
    (htab : request.targetTabId = some tabId)
    (hid : request.targetRequestId = w'.latestRemoteOpenRequestByTab tabId)
    (hawaited : w.Awaited request) :
    MadeSince requestedAt' editedAt tabId request.targetRequestId := by
  rcases h.numbered request hrequest with ⟨hpaired, hbelow⟩
  have hsome : request.targetRequestId.isSome := by
    rw [hpaired, htab]
    rfl
  rcases Option.isSome_iff_exists.mp hsome with ⟨number, hnumber⟩
  have hsame : request.targetRequestId = w.latestRemoteOpenRequestByTab tabId := by
    rw [hnumber] at hid ⊢
    exact (hlatest tabId number hid.symm).symm
  exact (h.timely request hrequest tabId htab hsame hawaited).noted hnoted hbelow

/-- Fewer outcomes to come and fewer latest requests ask for less. -/
theorem Timely.shrink (h : Timely requestedAt editedAt w)
    (hnoted : Noted requestedAt requestedAt' now w w')
    (hrequests : w'.openRequests = w.openRequests)
    (hqueue : ∀ outcome ∈ w'.pendingRemoteOpen, outcome ∈ w.pendingRemoteOpen)
    (hlatest : ∀ tabId id, w'.latestRemoteOpenRequestByTab tabId = some id →
      w.latestRemoteOpenRequestByTab tabId = some id)
    (hcounter : w.nextRemoteRequestId ≤ w'.nextRemoteRequestId) :
    Timely requestedAt' editedAt w' where
  latest := fun tabId id hid =>
    Nat.lt_of_lt_of_le (h.latest tabId id (hlatest tabId id hid)) hcounter
  numbered := hrequests ▸ h.below hcounter
  queued := by
    intro outcome houtcome
    rw [hrequests]
    exact h.queued outcome (hqueue outcome houtcome)
  timely := by
    intro request hrequest tabId htab hid hawaited
    rw [hrequests] at hrequest
    have hbefore : w.Awaited request := by
      rcases hawaited with hprompting | htask | ⟨outcome, houtcome, hplace⟩
      · exact Or.inl hprompting
      · exact Or.inr (Or.inl htask)
      · exact Or.inr (Or.inr ⟨outcome, hqueue outcome houtcome, hplace⟩)
    exact h.since hnoted hlatest hrequest htab hid hbefore

/-- A request that is made for a tab is the latest, and later than every edit. -/
theorem Timely.requested (h : Timely requestedAt editedAt w) (spec : RemoteSpec)
    (target : Option Nat) (hcounter : w.nextRemoteRequestId + 1 < 2 ^ 64 ∨
      (w.requestOpen spec target).1.nextRemoteRequestId = w.nextRemoteRequestId)
    (hpast : ∀ tabId, ∀ edit ∈ editedAt tabId, edit < now)
    (hnoted : Noted requestedAt requestedAt' now w (w.requestOpen spec target).1) :
    Timely requestedAt' editedAt (w.requestOpen spec target).1 := by
  cases target with
  | none =>
      constructor
      case latest => exact h.latest
      case numbered =>
          intro request hrequest
          rcases List.mem_append.mp hrequest with hold | hnew
          · exact h.numbered request hold
          · rw [List.mem_singleton.mp hnew]
            exact ⟨rfl, fun id hid => by cases hid⟩
      case queued =>
          intro outcome houtcome
          rcases h.queued outcome houtcome with ⟨request, hrequest, hplace⟩
          exact ⟨request, List.mem_append_left _ hrequest, hplace⟩
      case timely =>
          intro request hrequest tabId htab hid hawaited
          rcases List.mem_append.mp hrequest with hold | hnew
          · exact (h.timely request hold tabId htab hid hawaited).noted hnoted
              (h.numbered request hold).2
          · rw [List.mem_singleton.mp hnew] at htab
            cases htab
  | some target =>
      have hnext : (w.requestOpen spec (some target)).1.nextRemoteRequestId =
          w.nextRemoteRequestId + 1 := nextRequestId_eq hcounter
      have hlatest : ∀ tabId, (w.requestOpen spec (some target)).1.latestRemoteOpenRequestByTab
          tabId = if tabId = target then some w.nextRemoteRequestId
            else w.latestRemoteOpenRequestByTab tabId :=
        fun tabId => Function.update_apply _ _ _ _
      constructor
      case latest =>
          intro tabId id hid
          rw [hlatest] at hid
          rw [hnext]
          split at hid
          · cases hid
            omega
          · have hbelow := h.latest tabId id hid
            omega
      case numbered =>
          intro request hrequest
          rw [hnext]
          rcases List.mem_append.mp hrequest with hold | hnew
          · exact h.below (Nat.le_succ _) request hold
          · rw [List.mem_singleton.mp hnew]
            refine ⟨rfl, fun id hid => ?_⟩
            cases hid
            omega
      case queued =>
          intro outcome houtcome
          rcases h.queued outcome houtcome with ⟨request, hrequest, hplace⟩
          exact ⟨request, List.mem_append_left _ hrequest, hplace⟩
      case timely =>
          intro request hrequest tabId htab hid hawaited
          rw [hlatest] at hid
          rcases List.mem_append.mp hrequest with hold | hnew
          · rcases h.numbered request hold with ⟨_, hbelow⟩
            split at hid
            · have hself := hbelow w.nextRemoteRequestId hid
              omega
            · exact (h.timely request hold tabId htab hid hawaited).noted hnoted hbelow
          · rw [List.mem_singleton.mp hnew]
            refine ⟨w.nextRemoteRequestId, rfl, now, ?_, hpast tabId⟩
            exact hnoted.new (by rw [hnext]; omega)

/-- A request that moves on asks for nothing new, and what it publishes was to come before. -/
theorem Timely.replaced (h : Timely requestedAt editedAt w)
    (hnoted : Noted requestedAt requestedAt' now w w') {index : Nat} {request : OpenRequest}
    (hrequest : w.openRequests[index]? = some request) (spec : RemoteSpec)
    (stage : RequestStage (SshTask RemoteOpenResult))
    (hrequests : w'.openRequests =
      w.openRequests.set index { request with spec := spec, stage := stage })
    (hqueue : ∀ outcome ∈ w'.pendingRemoteOpen, outcome ∈ w.pendingRemoteOpen ∨
      (outcome.targetTabId = request.targetTabId ∧
        outcome.targetRequestId = request.targetRequestId ∧ w.Awaited request))
    (hlatest : ∀ tabId id, w'.latestRemoteOpenRequestByTab tabId = some id →
      w.latestRemoteOpenRequestByTab tabId = some id)
    (hcounter : w'.nextRemoteRequestId = w.nextRemoteRequestId)
    (hawaited : stage = .prompting ∨ (∃ task ∈ stage.task, task.CanReport) → w.Awaited request) :
    Timely requestedAt' editedAt w' := by
  have hmem := List.mem_of_getElem? hrequest
  constructor
  case latest =>
      intro tabId id hlast
      rw [hcounter]
      exact h.latest tabId id (hlatest tabId id hlast)
  case numbered =>
      intro other hother
      rw [hrequests] at hother
      rw [hcounter]
      rcases List.mem_or_eq_of_mem_set hother with hother | rfl
      · exact h.numbered other hother
      · exact h.numbered request hmem
  case queued =>
      intro outcome houtcome
      have hfound : ∃ old ∈ w.openRequests, old.targetTabId = outcome.targetTabId ∧
          old.targetRequestId = outcome.targetRequestId := by
        rcases hqueue outcome houtcome with hbefore | ⟨hplace, hnumber, _⟩
        · exact h.queued outcome hbefore
        · exact ⟨request, hmem, hplace.symm, hnumber.symm⟩
      rcases hfound with ⟨old, holdMem, hplace, hnumber⟩
      rw [hrequests]
      rcases List.getElem?_of_mem holdMem with ⟨place, hat⟩
      by_cases hsame : place = index
      · rw [hsame, hrequest] at hat
        cases hat
        have hbound := (List.getElem?_eq_some_iff.mp hrequest).1
        exact ⟨_, List.mem_set hbound _, hplace, hnumber⟩
      · refine ⟨old, ?_, hplace, hnumber⟩
        apply List.mem_of_getElem? (i := place)
        rw [List.getElem?_set_ne (fun hindex => hsame hindex.symm)]
        exact hat
  case timely =>
      intro other hother tabId htab hsame hpending
      rw [hrequests] at hother
      rcases List.mem_or_eq_of_mem_set hother with hother | rfl
      · rcases hpending with hprompting | htask | ⟨outcome, houtcome, hplace, hnumber⟩
        · exact h.since hnoted hlatest hother htab hsame (Or.inl hprompting)
        · exact h.since hnoted hlatest hother htab hsame (Or.inr (Or.inl htask))
        · rcases hqueue outcome houtcome with hbefore | ⟨hplace', hnumber', hbefore⟩
          · exact h.since hnoted hlatest hother htab hsame
              (Or.inr (Or.inr ⟨outcome, hbefore, hplace, hnumber⟩))
          · -- the outcome just published is that of the request
            have hnumbers : other.targetRequestId = request.targetRequestId :=
              hnumber.symm.trans hnumber'
            rw [hnumbers] at hsame ⊢
            exact h.since hnoted hlatest hmem (hplace'.symm.trans (hplace.trans htab)) hsame hbefore
      · refine h.since hnoted hlatest hmem htab hsame ?_
        rcases hpending with hprompting | htask | ⟨outcome, houtcome, hplace, hnumber⟩
        · exact hawaited (Or.inl ((isPrompting_iff _).mp hprompting))
        · exact hawaited (Or.inr htask)
        · rcases hqueue outcome houtcome with hbefore | ⟨_, _, hbefore⟩
          · exact Or.inr (Or.inr ⟨outcome, hbefore, hplace, hnumber⟩)
          · exact hbefore

theorem canReport_of_cancel {task task' : SshTask RemoteOpenResult}
    (h : task.cancel = some task') (hreport : task'.CanReport) : task.CanReport := by
  unfold SshTask.cancel at h
  split at h
  · cases h
  · cases h
    unfold SshTask.CanReport at hreport ⊢
    cases hworker : task.worker with
    | storing outcome => trivial
    | publishing outcome => simpa [hworker] using hreport
    | _ => simp [hworker] at hreport

/-- Every move keeps the loads timely. -/
theorem Timely.move (h : Timely requestedAt editedAt w) (hmove : LoadMove False w w')
    (hcounter : w.nextRemoteRequestId + 1 < 2 ^ 64 ∨
      w'.nextRemoteRequestId = w.nextRemoteRequestId)
    (hpast : ∀ tabId, ∀ edit ∈ editedAt tabId, edit < now)
    (hnoted : Noted requestedAt requestedAt' now w w') : Timely requestedAt' editedAt w' := by
  cases hmove with
  | kept hkept =>
      apply h.shrink hnoted hkept.requests _ hkept.latest
      · rcases hcounter with hbound | hsame
        · rcases hkept.counter with hsame | hnext
          · exact Nat.le_of_eq hsame.symm
          · rw [hnext, nextRequestId_eq (.inl hbound)]
            omega
        · exact Nat.le_of_eq hsame.symm
      · intro outcome houtcome
        exact hkept.queue ▸ houtcome
  | requested spec target hidle => exact h.requested spec target hcounter hpast hnoted
  | spawned index request user hrequest hstage hlatest =>
      refine h.replaced hnoted hrequest _ _ rfl (fun _ ho => Or.inl ho) (fun _ _ hid => hid) rfl ?_
      exact fun _ => Or.inl ((isPrompting_iff request).mpr hstage)
  | dismissed index request hrequest hstage =>
      refine h.replaced hnoted hrequest _ _ rfl (fun _ ho => Or.inl ho) (fun _ _ hid => hid) rfl ?_
      exact fun _ => Or.inl ((isPrompting_iff request).mpr hstage)
  | ran index request task task' published hrequest hstage htask =>
      have hbefore : task.CanReport → w.Awaited request := fun hreport =>
        Or.inr (Or.inl ⟨task, by simp [RequestStage.task, hstage], hreport⟩)
      refine h.replaced hnoted hrequest _ _ rfl (fun outcome houtcome => ?_)
        (fun _ _ hid => hid) rfl ?_
      · cases published with
        | none => exact Or.inl houtcome
        | some result =>
            rcases List.mem_append.mp houtcome with hold | hnew
            · exact Or.inl hold
            · rw [List.mem_singleton.mp hnew]
              exact Or.inr ⟨rfl, rfl, hbefore (htask.reported (Or.inr rfl))⟩
      · rintro (hprompting | ⟨other, hother, hreport⟩)
        · cases hprompting
        · cases hother
          exact hbefore (htask.reported (Or.inl hreport))
  | cancelled index request task task' hrequest hstage hcancel =>
      have hawaited : RequestStage.running task' = .prompting ∨
          (∃ other ∈ (RequestStage.running task').task, other.CanReport) → w.Awaited request := by
        rintro (hprompting | ⟨other, hother, hreport⟩)
        · cases hprompting
        · cases hother
          exact Or.inr (Or.inl ⟨task, by simp [RequestStage.task, hstage],
            canReport_of_cancel hcancel hreport⟩)
      rcases afterCancelOpen_requests (w := w) index request task' with
        ⟨hrequests, hqueue, hsame⟩
      refine h.replaced hnoted hrequest _ _ hrequests (fun _ ho => Or.inl (hqueue ▸ ho))
        (fun tabId id hid => ?_) hsame hawaited
      rw [(afterCancelOpen_tab index request task' tabId).1] at hid
      split at hid
      · cases hid
      · exact hid
  | processed =>
      rcases loadsKept_drain w.pendingRemoteOpen { w with pendingRemoteOpen := [] } with
        ⟨hkept, hsame⟩
      apply h.shrink hnoted hkept.requests _ hkept.latest (Nat.le_of_eq hsame.symm)
      intro outcome houtcome
      have hqueue : w.processPendingRemoteFiles.pendingRemoteOpen = [] := hkept.queue
      rw [hqueue] at houtcome
      cases houtcome

theorem Timely.edit (h : Timely requestedAt editedAt w) {tabId : Nat} (at_ : Nat)
    (hidle : ¬AwaitsLoad w tabId) :
    Timely requestedAt (Function.update editedAt tabId (some at_)) w where
  latest := h.latest
  numbered := h.numbered
  queued := h.queued
  timely := by
    intro request hrequest other htab hid hawaited
    have hne : other ≠ tabId := by
      rintro rfl
      exact hidle ⟨request, hrequest, htab, hid, hawaited⟩
    rcases h.timely request hrequest other htab hid hawaited with
      ⟨number, hnumber, requested, hrequested, hedits⟩
    refine ⟨number, hnumber, requested, hrequested, ?_⟩
    rw [Function.update_of_ne hne]
    exact hedits

/-- What holds of a trace in which no edit disturbs a load. -/
structure InTime (r : LoadTrace) : Prop where
  timely : Timely r.requestedAt r.editedAt r.window
  past : ∀ tabId, ∀ edit ∈ r.editedAt tabId, edit < r.now

theorem inTime_launched (w : RemoteWindow) (hrequests : w.openRequests = [])
    (hqueue : w.pendingRemoteOpen = [])
    (hlatest : ∀ tabId, w.latestRemoteOpenRequestByTab tabId = none) :
    InTime (launched w) where
  timely :=
    { latest := fun tabId id hid => by
        rw [show (launched w).window = w from rfl, hlatest] at hid
        cases hid
      numbered := by simp [launched, hrequests]
      queued := by simp [launched, hqueue]
      timely := by simp [launched, hrequests] }
  past := by simp [launched]

variable {r r' : LoadTrace}

/-- An edit is noted at the moment of its step. -/
theorem InTime.edited (h : InTime r) {tabId : Nat} {requestedAt : Nat → Option Nat}
    (htimely : Timely requestedAt r.editedAt w) (hidle : ¬AwaitsLoad w tabId) :
    InTime { window := w, now := r.now + 1, requestedAt := requestedAt
             editedAt := Function.update r.editedAt tabId (some r.now) } := by
  refine ⟨htimely.edit r.now hidle, fun other edit hedit => ?_⟩
  have hnoted : Function.update r.editedAt tabId (some r.now) other = some edit := hedit
  show edit < r.now + 1
  by_cases hsame : other = tabId
  · rw [hsame, Function.update_self] at hnoted
    cases hnoted
    omega
  · rw [Function.update_of_ne hsame] at hnoted
    exact Nat.lt_succ_of_lt (h.past other edit hnoted)

/-- Every step that disturbs no load keeps the trace in time. -/
theorem InTime.step (h : InTime r) {action : RemoteAction} (hsafe : r.UndisturbedStep action)
    (hstep : r.step encodings action = some r') : InTime r' := by
  rcases Option.map_eq_some_iff.mp hstep with ⟨w, hwindow, rfl⟩
  rcases loadMoves_of_step False (fun hstrict => hstrict.elim) hwindow with
    ⟨middle, hfirst, hsecond, hcounter⟩
  -- the times noted for the whole step are right for both moves
  have hnotedFirst : Noted r.requestedAt (r.noteRequest w) r.now r.window middle := by
    constructor
    · intro id hid
      unfold noteRequest
      split
      · rfl
      · exact Function.update_of_ne (by omega) _ _
    · intro hnew
      have hchanged : w.nextRemoteRequestId ≠ r.window.nextRemoteRequestId := by
        rcases hcounter with hsame | hsame
        · exact absurd hsame hnew
        · rwa [hsame]
      unfold noteRequest
      rw [if_neg hchanged, Function.update_self]
  have hnotedSecond : Noted (r.noteRequest w) (r.noteRequest w) r.now middle w := by
    refine ⟨fun _ _ => rfl, fun hnew => ?_⟩
    have hsame := hcounter.resolve_right hnew
    unfold noteRequest
    rw [if_neg (hsame ▸ hnew), hsame, Function.update_self]
  have hmiddle := h.timely.move hfirst (Or.inl hsafe.1) h.past hnotedFirst
  have hbound : middle.nextRemoteRequestId + 1 < 2 ^ 64 ∨
      w.nextRemoteRequestId = middle.nextRemoteRequestId := by
    rcases hcounter with hsame | hsame
    · exact Or.inl (hsame ▸ hsafe.1)
    · exact Or.inr hsame
  have htimely : Timely (r.noteRequest w) r.editedAt w :=
    hmiddle.move hsecond hbound h.past hnotedSecond
  cases action with
  | edit tabId content =>
      cases hwindow
      exact h.edited htimely hsafe.2
  | replace tabId content =>
      cases hwindow
      exact h.edited htimely hsafe.2
  | _ => exact ⟨htimely, fun other edit hedit => Nat.lt_succ_of_lt (h.past other edit hedit)⟩

/-! ## The loads that are applied -/

theorem appliesTo_eq_some {outcome : PendingRemoteOpenOutcome} {tabId : Nat}
    (h : appliesTo w outcome = some tabId) :
    outcome.targetTabId = some tabId ∧ (outcome.targetRequestId.isSome →
      w.latestRemoteOpenRequestByTab tabId = outcome.targetRequestId) := by
  unfold appliesTo at h
  split at h
  · rename_i target _ htarget _
    split at h
    · cases h
    · rename_i hcurrent
      split at h
      · cases h
        refine ⟨htarget, fun hsome => ?_⟩
        by_contra hstale
        exact hcurrent ⟨hsome, hstale⟩
      · cases h
  · cases h

/-- An applied outcome was in the queue, and its request the latest of its tab from the start. -/
theorem mem_appliedLoads {outcomes : List PendingRemoteOpenOutcome} {applied : Nat × Option Nat}
    (h : applied ∈ appliedLoads w outcomes) :
    ∃ outcome ∈ outcomes, outcome.targetTabId = some applied.1 ∧
      outcome.targetRequestId = applied.2 ∧
      ∀ id ∈ applied.2, w.latestRemoteOpenRequestByTab applied.1 = some id := by
  induction outcomes generalizing w with
  | nil => cases h
  | cons outcome outcomes ih =>
      rcases List.mem_append.mp h with hfirst | hrest
      · rcases List.mem_map.mp hfirst with ⟨tabId, htab, rfl⟩
        rcases appliesTo_eq_some (Option.mem_toList.mp htab) with ⟨htarget, hlatest⟩
        refine ⟨outcome, List.mem_cons_self, htarget, rfl, fun id hid => ?_⟩
        have hid' : outcome.targetRequestId = some id := hid
        have hsome : outcome.targetRequestId.isSome := Option.isSome_of_eq_some hid'
        exact (hlatest hsome).trans hid'
      · rcases ih hrest with ⟨found, hfound, htarget, hnumber, hlatest⟩
        refine ⟨found, List.mem_cons_of_mem _ hfound, htarget, hnumber, fun id hid => ?_⟩
        exact (loadsKept_processOutcome w outcome).1.latest applied.1 id (hlatest id hid)

theorem InTime.keepsEdits (h : InTime r) (action : RemoteAction) : r.KeepsEdits action := by
  cases action with
  | processPendingRemoteFiles =>
      intro applied happlied
      rcases mem_appliedLoads happlied with ⟨outcome, houtcome, htarget, hnumber, hlatest⟩
      rcases h.timely.queued outcome houtcome with ⟨request, hrequest, hplace, hid⟩
      have hpaired := (h.timely.numbered request hrequest).1
      rw [hplace, htarget] at hpaired
      rcases Option.isSome_iff_exists.mp hpaired with ⟨number, hsome⟩
      have happliedId : applied.2 = some number := by rw [← hnumber, ← hid, hsome]
      have hcurrent : request.targetRequestId =
          r.window.latestRemoteOpenRequestByTab applied.1 := by
        rw [hsome]
        exact (hlatest number happliedId).symm
      have hawaited : r.window.Awaited request :=
        Or.inr (Or.inr ⟨outcome, houtcome, hplace.symm, hid.symm⟩)
      have hsince := h.timely.timely request hrequest applied.1 (hplace.trans htarget) hcurrent
        hawaited
      rwa [hsome, ← happliedId] at hsince
  | _ => trivial

end LoadTrace

open LoadTrace

/--
In every run that edits no tab while its latest load may still report, and does
not run out of request numbers, no load replaces an edit made after it was
requested.
-/
theorem remote_loads_keep_edits {encodings : Encodings} {parse : String → Option Int} {disk : Disk}
    {states : List TabState} {server : RemoteSpec → Option (List UInt8)}
    {actions : List RemoteAction}
    (hguard : Guarded (LoadTrace.step encodings) UndisturbedStep
      (LoadTrace.launched (RemoteWindow.launched encodings parse disk states server)) actions) :
    Guarded (LoadTrace.step encodings) KeepsEdits
      (LoadTrace.launched (RemoteWindow.launched encodings parse disk states server)) actions := by
  have hstart : InTime (LoadTrace.launched
      (RemoteWindow.launched encodings parse disk states server)) :=
    inTime_launched _ rfl rfl fun _ => rfl
  exact hguard.of_invariant InTime (fun r action r' h hsafe hstep => h.step hsafe hstep)
    (fun r action h _ => h.keepsEdits action) hstart

/-- The saved remote tab `0` of the file `/n`, unmodified and to be loaded yet. -/
def sampleRemoteState : TabState where
  tabId := 0
  title := "n"
  filePath := none
  content := none
  lastSaved := none
  remote := some { host := "h", port := 22, user := "u", path := "/n" }
  logView := false
  colorTag := none

def sampleRemoteWindow : RemoteWindow :=
  RemoteWindow.launched sampleEncodings sampleParse sampleDisk [sampleRemoteState] fun _ => none

def sampleRemoteFile : EditorTab.RemoteFileResult where
  spec := { host := "h", port := 22, user := some "u", path := "/n", passwordInUrl := none }
  content := "a"
  encoding := UTF_8
  lossy := false

/-- The load is read, published and applied. -/
def sampleLoadReports : List RemoteAction :=
  [.openWorks 0 (.ok (.file sampleRemoteFile)), .advanceOpen 0, .advanceOpen 0, .advanceOpen 0,
    .processPendingRemoteFiles]

/-- The loaded buffer is edited and replaced in, and its tab activated again. -/
theorem remote_loads_keep_edits_sample :
    Guarded (LoadTrace.step sampleEncodings) KeepsEdits (LoadTrace.launched sampleRemoteWindow)
      (.setActiveTab 0 true :: sampleLoadReports ++ [.edit 0 (.ofText "b"),
        .replace 0 (.ofText "c"), .setActiveTab 0 true, .processPendingRemoteFiles]) :=
  remote_loads_keep_edits (Guarded.of_guardedRun (by decide))

/-- An edit made during the transfer is replaced, and the tab shown as clean. -/
theorem remote_load_overwrites_edit :
    (run (LoadTrace.step sampleEncodings) (LoadTrace.launched sampleRemoteWindow)
      (.setActiveTab 0 true :: .edit 0 (.ofText "b") :: sampleLoadReports.dropLast)).any
        (fun r => decide (¬r.KeepsEdits .processPendingRemoteFiles)) = true ∧
      (run (LoadTrace.step sampleEncodings) (LoadTrace.launched sampleRemoteWindow)
        (.setActiveTab 0 true :: .edit 0 (.ofText "b") :: sampleLoadReports)).any
          (fun r => r.window.tabs.all fun tab =>
            tab.content.toText = "a" ∧ tab.modified = false) = true := by
  constructor <;> decide

end Fulgur
