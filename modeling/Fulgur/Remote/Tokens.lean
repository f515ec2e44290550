import Fulgur.Library.Run
import Fulgur.Remote.Loads

/-! # Request numbers

Each request publishes one outcome at most, and an outcome is applied only while
its request is the latest of its tab. Two things go wrong when requests of a tab
overlap: cancelling a load forgets the latest request without looking whose it
is, and a load that is spawned late counts its tab as loading although its
outcome will be turned away. In a run that avoids both, a newer request is never
discarded for an older one, and a tab counts as loading only while a load of it
is still to report.
-/

namespace Fulgur.RemoteWindow

open LabelledRun

/-! ## What a run keeps -/

/-- No request has published more than one outcome. -/
def PublishesOnce (w : RemoteWindow) : Prop :=
  (∀ request ∈ w.openRequests, ∀ task ∈ request.stage.task, task.published ≤ 1) ∧
    ∀ request ∈ w.saveRequests, ∀ task ∈ request.stage.task, task.published ≤ 1

/-- A tab counts as loading only while a load of it is still to report. -/
def InflightReports (w : RemoteWindow) : Prop :=
  ∀ tabId, w.inflightRemoteRestore tabId = true →
    ∃ request ∈ w.openRequests, request.targetTabId = some tabId ∧ w.StillToReport request

/-- A restored tab that is unmodified, and has no load to report, is loaded when it is activated. -/
def LoadsWhenActivated (w : RemoteWindow) : Prop :=
  ∀ tab spec cached, w.tabs.find? (fun other => other.id = tab.id) = some tab →
    tab.location = .remote spec → tab.modified = false → w.pendingRemoteRestore tab.id = true →
      (∀ request ∈ w.openRequests, request.targetTabId = some tab.id →
        ¬w.StillToReport request) →
        (w.setActiveTab tab.id cached).openRequests.length = w.openRequests.length + 1

/-- A result changes a window on behalf of a tab only as the latest request of that tab. -/
def AppliesLatest (w : RemoteWindow) : RemoteAction → Prop
  | .processPendingRemoteFiles =>
      ∀ before outcome after, w.pendingRemoteOpen = before ++ outcome :: after →
        ∀ tabId, outcome.targetTabId = some tabId →
          (before.foldl processOutcome { w with pendingRemoteOpen := [] }).processOutcome outcome ≠
            before.foldl processOutcome { w with pendingRemoteOpen := [] } →
          ∃ id, outcome.targetRequestId = some id ∧
            (before.foldl processOutcome { w with pendingRemoteOpen := [] }
              ).latestRemoteOpenRequestByTab tabId = some id
  | .monitorSave index pastDeadline =>
      ∀ request ∈ w.saveRequests[index]?, ∀ w' ∈ w.monitorSave index pastDeadline,
        w'.tabs ≠ w.tabs → ∃ id, request.requestId = some id ∧
          w.latestRemoteSaveRequestByTab request.tabId = some id
  | _ => True

/-- Cancelling or failing a request leaves the latest request of its tab, when that is another. -/
def KeepsNewer (w : RemoteWindow) : RemoteAction → Prop
  | .cancelOpen index =>
      ∀ w' ∈ w.cancelOpen index, ∀ other ≠ index, ∀ newer ∈ w.openRequests[other]?, ∀ tabId,
        newer.targetTabId = some tabId →
          w.latestRemoteOpenRequestByTab tabId = newer.targetRequestId → w.Awaited newer →
            w'.latestRemoteOpenRequestByTab tabId = newer.targetRequestId
  | .processPendingRemoteFiles =>
      ∀ newer ∈ w.openRequests, ∀ tabId, newer.targetTabId = some tabId →
        w.latestRemoteOpenRequestByTab tabId = newer.targetRequestId → ¬w.Queued newer →
          w.processPendingRemoteFiles.latestRemoteOpenRequestByTab tabId = newer.targetRequestId
  | .cancelSave index =>
      ∀ w' ∈ w.cancelSave index, ∀ other ≠ index, ∀ newer ∈ w.saveRequests[other]?,
        ∀ id, newer.requestId = some id → w.latestRemoteSaveRequestByTab newer.tabId = some id →
          w'.latestRemoteSaveRequestByTab newer.tabId = some id
  | .monitorSave index pastDeadline =>
      ∀ w' ∈ w.monitorSave index pastDeadline, ∀ other ≠ index, ∀ newer ∈ w.saveRequests[other]?,
        ∀ id, newer.requestId = some id → w.latestRemoteSaveRequestByTab newer.tabId = some id →
          w'.latestRemoteSaveRequestByTab newer.tabId = some id
  | _ => True

/--
What a run must keep to: a load is spawned only while its request is the latest
of its tab, no load is cancelled while another request of its tab is the latest
and may still report, and the numbers of requests do not run out.
-/
def TokenStep (w : RemoteWindow) (action : RemoteAction) : Prop :=
  w.nextRemoteRequestId + 1 < 2 ^ 64 ∧
    match action with
    | .answerOpenPassword index (some _) =>
        ∀ request ∈ w.openRequests[index]?, ∀ tabId ∈ request.targetTabId,
          w.latestRemoteOpenRequestByTab tabId = request.targetRequestId
    | .cancelOpen index =>
        ∀ request ∈ w.openRequests[index]?, ∀ tabId ∈ request.targetTabId,
          ∀ newer ∈ w.openRequests, newer.targetTabId = some tabId →
            w.latestRemoteOpenRequestByTab tabId = newer.targetRequestId →
              newer.targetRequestId ≠ request.targetRequestId → ¬w.Awaited newer
    | _ => True

instance (w : RemoteWindow) (action : RemoteAction) : Decidable (w.TokenStep action) :=
  match action with
  | .answerOpenPassword _ (some _) => inferInstanceAs (Decidable (_ ∧ ∀ request ∈ _, _))
  | .cancelOpen index => inferInstanceAs (Decidable (_ ∧ ∀ request ∈ w.openRequests[index]?,
      ∀ tabId ∈ request.targetTabId, ∀ newer ∈ w.openRequests, newer.targetTabId = some tabId →
        w.latestRemoteOpenRequestByTab tabId = newer.targetRequestId →
          newer.targetRequestId ≠ request.targetRequestId → ¬w.Awaited newer))
  | .answerOpenPassword _ none => inferInstanceAs (Decidable (_ ∧ True))
  | .openRemote _ _ => inferInstanceAs (Decidable (_ ∧ True))
  | .setActiveTab _ _ => inferInstanceAs (Decidable (_ ∧ True))
  | .openWorks _ _ => inferInstanceAs (Decidable (_ ∧ True))
  | .advanceOpen _ => inferInstanceAs (Decidable (_ ∧ True))
  | .monitorOpen _ _ => inferInstanceAs (Decidable (_ ∧ True))
  | .processPendingRemoteFiles => inferInstanceAs (Decidable (_ ∧ True))
  | .edit _ _ => inferInstanceAs (Decidable (_ ∧ True))
  | .replace _ _ => inferInstanceAs (Decidable (_ ∧ True))
  | .save _ _ => inferInstanceAs (Decidable (_ ∧ True))
  | .answerSavePassword _ _ => inferInstanceAs (Decidable (_ ∧ True))
  | .upload _ _ => inferInstanceAs (Decidable (_ ∧ True))
  | .saveWorks _ _ => inferInstanceAs (Decidable (_ ∧ True))
  | .advanceSave _ => inferInstanceAs (Decidable (_ ∧ True))
  | .monitorSave _ _ => inferInstanceAs (Decidable (_ ∧ True))
  | .cancelSave _ => inferInstanceAs (Decidable (_ ∧ True))
  | .closeTab _ => inferInstanceAs (Decidable (_ ∧ True))

/-! ## Saves keep their numbers apart -/

structure SaveTokens (w : RemoteWindow) : Prop where
  numbered : ∀ request ∈ w.saveRequests, ∀ id ∈ request.requestId, id < w.nextRemoteRequestId
  distinct : Tickets.Distinct SaveRequest.requestId w.saveRequests
  running : ∀ request ∈ w.saveRequests, request.stage.task.isSome → request.requestId.isSome
  once : ∀ request ∈ w.saveRequests, ∀ task ∈ request.stage.task, task.PublishesOnce

/-- What a step does to the saves: nothing, one more, one spawned, or one moved on. -/
inductive SaveMove (w w' : RemoteWindow) : Prop where
  | kept (hrequests : w'.saveRequests = w.saveRequests)
  | prompted (request : SaveRequest) (hid : request.requestId = none)
      (hstage : request.stage.task = none)
      (hrequests : w'.saveRequests = w.saveRequests ++ [request])
  | spawned (index : Nat) (request : SaveRequest)
      (hid : request.requestId = some w.nextRemoteRequestId)
      (hstage : request.stage = .running .spawned)
      (hrequests : w'.saveRequests = w.saveRequests.set index request)
      (hcounter : w'.nextRemoteRequestId = w.nextRequestId)
  | ran (index : Nat) (request request' : SaveRequest)
      (hrequest : w.saveRequests[index]? = some request)
      (hid : request'.requestId = request.requestId)
      (hrunning : request'.stage.task.isSome → request.stage.task.isSome)
      (honce : (∀ task ∈ request.stage.task, task.PublishesOnce) →
        ∀ task ∈ request'.stage.task, task.PublishesOnce)
      (hrequests : w'.saveRequests = w.saveRequests.set index request')

variable {w w' : RemoteWindow} {encodings : Encodings}

/-- The saves keep their numbers apart when each is an old one or sound in itself. -/
theorem SaveTokens.of_requests (h : SaveTokens w)
    (hcounter : w.nextRemoteRequestId ≤ w'.nextRemoteRequestId)
    (hdistinct : Tickets.Distinct SaveRequest.requestId w'.saveRequests)
    (hnew : ∀ request ∈ w'.saveRequests, request ∈ w.saveRequests ∨
      (∀ id ∈ request.requestId, id < w'.nextRemoteRequestId) ∧
        (request.stage.task.isSome → request.requestId.isSome) ∧
        ∀ task ∈ request.stage.task, task.PublishesOnce) : SaveTokens w' := by
  constructor
  case numbered =>
      intro request hrequest id hid
      rcases hnew request hrequest with hold | ⟨hbelow, _, _⟩
      · exact Nat.lt_of_lt_of_le (h.numbered request hold id hid) hcounter
      · exact hbelow id hid
  case distinct => exact hdistinct
  case running =>
      intro request hrequest
      rcases hnew request hrequest with hold | ⟨_, hrunning, _⟩
      · exact h.running request hold
      · exact hrunning
  case once =>
      intro request hrequest
      rcases hnew request hrequest with hold | ⟨_, _, honce⟩
      · exact h.once request hold
      · exact honce

theorem SaveTokens.move (h : SaveTokens w) (hmove : SaveMove w w')
    (hcounter : w.nextRemoteRequestId ≤ w'.nextRemoteRequestId)
    (hbound : w.nextRemoteRequestId + 1 < 2 ^ 64) : SaveTokens w' := by
  cases hmove with
  | kept hrequests =>
      exact h.of_requests hcounter (hrequests ▸ h.distinct) fun _ hrequest =>
        Or.inl (hrequests ▸ hrequest)
  | prompted request hid hstage hrequests =>
      refine h.of_requests hcounter ?_ ?_
      · rw [hrequests]
        apply h.distinct.append
        intro k hk
        rw [hid] at hk
        cases hk
      · intro other hother
        rw [hrequests] at hother
        rcases List.mem_append.mp hother with hold | hnew
        · exact Or.inl hold
        · rw [List.mem_singleton.mp hnew, hid, hstage]
          exact Or.inr ⟨by simp, by simp, by simp⟩
  | spawned index request hid hstage hrequests hnext =>
      have hfresh : Tickets.Fresh SaveRequest.requestId w.saveRequests w.nextRemoteRequestId := by
        intro other hother hsame
        have hbelow := h.numbered other hother _ hsame
        omega
      refine h.of_requests hcounter ?_ ?_
      · rw [hrequests]
        apply h.distinct.set_fresh
        intro k hk
        rw [hid] at hk
        cases hk
        exact hfresh
      · intro other hother
        rw [hrequests] at hother
        rcases List.mem_or_eq_of_mem_set hother with hold | rfl
        · exact Or.inl hold
        · refine Or.inr ⟨fun id hother' => ?_, fun _ => hid ▸ rfl, fun task htask => ?_⟩
          · rw [hid] at hother'
            cases hother'
            rw [hnext, nextRequestId_eq (.inl hbound)]
            omega
          · rw [hstage] at htask
            cases htask
            exact SshTask.publishesOnce_spawned
  | ran index request request' hrequest hid hrunning honce hrequests =>
      have hmem := List.mem_of_getElem? hrequest
      refine h.of_requests hcounter ?_ ?_
      · rw [hrequests]
        exact h.distinct.set_same hrequest hid
      · intro other hother
        rw [hrequests] at hother
        rcases List.mem_or_eq_of_mem_set hother with hold | rfl
        · exact Or.inl hold
        · refine Or.inr ⟨fun id hother' => ?_, fun hother' => ?_, honce (h.once request hmem)⟩
          · exact Nat.lt_of_lt_of_le (h.numbered request hmem id (hid ▸ hother')) hcounter
          · rw [hid]
            exact h.running request hmem (hrunning hother')

/-- A step is one move of the saves, or two when no password is asked for. -/
def SaveMoves (w w' : RemoteWindow) : Prop :=
  ∃ middle, SaveMove w middle ∧ SaveMove middle w' ∧
    middle.nextRemoteRequestId = w.nextRemoteRequestId

theorem SaveMoves.of_move (h : SaveMove w w') : SaveMoves w w' := ⟨w, .kept rfl, h, rfl⟩

theorem saveMoves_saveFile {tabId : Nat} {cached : Bool}
    (h : w.saveFile encodings tabId cached = some w') : SaveMoves w w' := by
  unfold saveFile at h
  split at h
  · cases h
  · rename_i tab _
    split at h
    · rename_i spec _
      split at h
      · cases h
        exact .of_move (.kept rfl)
      · split at h
        · cases h
          exact .of_move (.kept rfl)
        · rename_i bytes _
          cases h
          refine ⟨{ w with saveRequests := w.saveRequests ++
            [savePrompt tabId spec tab.content.toText bytes] }, .prompted _ rfl rfl rfl, ?_, rfl⟩
          unfold saveRemoteFile
          simp only
          split
          · exact .spawned w.saveRequests.length _ rfl rfl rfl rfl
          · exact .kept rfl
    · cases h

theorem saveMove_answerSavePassword {index : Nat} {answer : Option String}
    (h : w.answerSavePassword index answer = some w') : SaveMove w w' := by
  unfold answerSavePassword at h
  split at h
  · rename_i request hrequest
    split at h
    · rename_i hstage
      cases h
      refine .ran index request { request with stage := .dismissed } hrequest rfl
        (fun hrunning => ?_) (fun _ task htask => ?_) rfl
      · cases hrunning
      · cases htask
    · simp only at h
      split at h
      · cases h
        exact .kept rfl
      · cases h
        exact .spawned index _ rfl rfl rfl rfl
    · cases h
  · cases h

theorem saveMove_of_task {index : Nat} {request : SaveRequest} {task task' : SshTask Unit}
    (request' : SaveRequest) (hsave : w.saveTask index = some (request, task))
    (hid : request'.requestId = request.requestId)
    (hstage : request'.stage = .running task') (honce : task.PublishesOnce → task'.PublishesOnce)
    (hrequests : w'.saveRequests = w.saveRequests.set index request') : SaveMove w w' := by
  rcases saveTask_eq_some hsave with ⟨hrequest, hrunning⟩
  refine .ran index request request' hrequest hid (fun _ => by simp [RequestStage.task, hrunning])
    (fun hbefore other hother => ?_) hrequests
  rw [hstage] at hother
  cases hother
  exact honce (hbefore task (by simp [RequestStage.task, hrunning]))

theorem pollMonitor_save {request : SaveRequest} {task : SshTask Unit}
    (hstage : request.stage = .running task) (pastDeadline : Bool) :
    ∃ task', (request.pollMonitor task pastDeadline).1.stage = .running task' ∧
      (request.pollMonitor task pastDeadline).1.requestId = request.requestId ∧
      (task.PublishesOnce → task'.PublishesOnce) := by
  unfold SaveRequest.pollMonitor
  split
  · exact ⟨_, rfl, rfl, fun honce => honce⟩
  · split
    · exact ⟨_, rfl, rfl, fun honce => honce⟩
    · split
      · exact ⟨_, rfl, rfl, fun honce => honce.timeOut _⟩
      · exact ⟨task, hstage, rfl, fun honce => honce⟩

theorem handleRemoteSaveResult_requests (w : RemoteWindow) (tabId : Nat) (requestId : Option Nat)
    (savedContent : String) (result : Except String Unit) :
    (w.handleRemoteSaveResult tabId requestId savedContent result).saveRequests =
      w.saveRequests := by
  unfold handleRemoteSaveResult
  split
  · rfl
  · cases result with
    | error msg => rfl
    | ok done =>
        simp only
        split <;> rfl

theorem deliverSave_requests (w : RemoteWindow) (request : SaveRequest)
    (delivered : Option (Except String Unit)) :
    (w.deliverSave request delivered).saveRequests = w.saveRequests := by
  unfold deliverSave
  split
  · rfl
  · exact w.handleRemoteSaveResult_requests _ _ _ _

theorem saveMove_monitorSave {index : Nat} {pastDeadline : Bool}
    (h : w.monitorSave index pastDeadline = some w') : SaveMove w w' := by
  rcases Option.bind_eq_some_iff.mp h with ⟨⟨request, task⟩, hsave, hpoll⟩
  rcases Option.ite_none_left_eq_some.mp hpoll with ⟨_, hpolled⟩
  rcases pollMonitor_save (saveTask_eq_some hsave).2 pastDeadline with ⟨task', hstage, hid, honce⟩
  cases hpolled
  refine saveMove_of_task _ hsave hid hstage honce ?_
  rw [deliverSave_requests]
  rfl

theorem saveMove_saveWorks {index : Nat} {outcome : Except String Unit}
    (h : w.saveWorks index outcome = some w') : SaveMove w w' := by
  rcases Option.bind_eq_some_iff.mp h with ⟨⟨request, task⟩, hsave, hworks⟩
  rcases Option.ite_none_left_eq_some.mp hworks with ⟨_, hmap⟩
  rcases Option.map_eq_some_iff.mp hmap with ⟨task', htask, rfl⟩
  exact saveMove_of_task { request with stage := .running task' } hsave rfl rfl
    (fun honce => honce.works htask) rfl

theorem saveMove_advanceSave {index : Nat} (h : w.advanceSave index = some w') :
    SaveMove w w' := by
  rcases Option.bind_eq_some_iff.mp h with ⟨⟨request, task⟩, hsave, hmap⟩
  rcases Option.map_eq_some_iff.mp hmap with ⟨⟨task', stored⟩, htask, rfl⟩
  exact saveMove_of_task
    { request with
      stage := .running task'
      pendingSaveResult := stored.or request.pendingSaveResult }
    hsave rfl rfl (fun honce => honce.advance htask) rfl

theorem saveMove_cancelSave {index : Nat} (h : w.cancelSave index = some w') : SaveMove w w' := by
  rcases Option.bind_eq_some_iff.mp h with ⟨⟨request, task⟩, hsave, hmap⟩
  rcases Option.map_eq_some_iff.mp hmap with ⟨task', htask, rfl⟩
  refine saveMove_of_task { request with stage := .running task' } hsave rfl rfl
    (fun honce => honce.cancel htask) ?_
  simp only
  split <;> rfl

theorem saveMove_upload {index count : Nat} (h : w.upload index count = some w') :
    SaveMove w w' := by
  rcases Option.bind_eq_some_iff.mp h with ⟨⟨request, task⟩, hsave, hupload⟩
  simp only at hupload
  split at hupload
  · cases hupload
    have hstage := (saveTask_eq_some hsave).2
    exact saveMove_of_task { request with written := some count } hsave rfl hstage
      (fun honce => honce) rfl
  · cases hupload

/-! ### Loads leave the saves alone -/

theorem openRemoteFileWithTarget_saves (w : RemoteWindow) (spec : RemoteSpec)
    (target : Option Nat) (cached : Bool) :
    (w.openRemoteFileWithTarget spec target cached).saveRequests = w.saveRequests := by
  show (if hasPassword spec cached then _ else _ : RemoteWindow).saveRequests = w.saveRequests
  cases target with
  | none => split <;> rfl
  | some tabId => split <;> rfl

theorem setActiveTab_saves (w : RemoteWindow) (tabId : Nat) (cached : Bool) :
    (w.setActiveTab tabId cached).saveRequests = w.saveRequests := by
  unfold setActiveTab
  split
  · rfl
  · split
    · split
      · exact w.openRemoteFileWithTarget_saves _ _ cached
      · rfl
    · rfl

theorem answerOpenPassword_saves {index : Nat} {answer : Option String}
    (h : w.answerOpenPassword index answer = some w') : w'.saveRequests = w.saveRequests := by
  unfold answerOpenPassword at h
  split at h
  · split at h
    · cases h
      rfl
    · simp only at h
      split at h
      · cases h
        rfl
      · cases h
        rfl
    · cases h
  · cases h

theorem openTask_saves {index : Nat}
    {f : OpenRequest × SshTask RemoteOpenResult → Option RemoteWindow}
    (h : (w.openTask index).bind f = some w')
    (hf : ∀ request task, f (request, task) = some w' → w'.saveRequests = w.saveRequests) :
    w'.saveRequests = w.saveRequests := by
  rcases Option.bind_eq_some_iff.mp h with ⟨⟨request, task⟩, _, hmap⟩
  exact hf request task hmap

theorem processOutcome_saves (w : RemoteWindow) (outcome : PendingRemoteOpenOutcome) :
    (w.processOutcome outcome).saveRequests = w.saveRequests := by
  unfold processOutcome
  split
  · rcases applyToNewTab_loads (w := w) outcome.result with ⟨tabs, next, heq⟩
    rw [heq]
  · rename_i tabId _
    split
    · rfl
    · simp only
      generalize (if outcome.targetRequestId.isSome then
        Function.update w.latestRemoteOpenRequestByTab tabId none
        else w.latestRemoteOpenRequestByTab) = latest
      rcases applyToTab_loads (w := { w with
        latestRemoteOpenRequestByTab := latest
        inflightRemoteRestore := Function.update w.inflightRemoteRestore tabId false }) tabId
          outcome.result with ⟨tabs, pending, heq⟩
      rw [heq]

theorem drain_saves (outcomes : List PendingRemoteOpenOutcome) (w : RemoteWindow) :
    (outcomes.foldl processOutcome w).saveRequests = w.saveRequests := by
  induction outcomes generalizing w with
  | nil => rfl
  | cons outcome outcomes ih => exact (ih _).trans (w.processOutcome_saves outcome)

theorem removeTabById_saves (w : RemoteWindow) (tabId : Nat) :
    (w.removeTabById tabId).saveRequests = w.saveRequests := by
  unfold removeTabById
  split <;> rfl

theorem saveMoves_of_step {action : RemoteAction} (h : w.step encodings action = some w') :
    SaveMoves w w' := by
  have hkept : w'.saveRequests = w.saveRequests → SaveMoves w w' := fun h => .of_move (.kept h)
  cases action with
  | openRemote spec cached =>
      cases h
      refine hkept ?_
      show (w.doOpenRemoteFile spec cached).saveRequests = w.saveRequests
      unfold doOpenRemoteFile
      split
      · rfl
      · exact w.openRemoteFileWithTarget_saves _ _ cached
  | setActiveTab tabId cached =>
      cases h
      exact hkept (w.setActiveTab_saves tabId cached)
  | answerOpenPassword index answer => exact hkept (answerOpenPassword_saves h)
  | openWorks index outcome =>
      refine hkept (openTask_saves h fun request task hmap => ?_)
      rcases Option.map_eq_some_iff.mp hmap with ⟨_, _, rfl⟩
      rfl
  | advanceOpen index =>
      refine hkept (openTask_saves h fun request task hmap => ?_)
      rcases Option.map_eq_some_iff.mp hmap with ⟨_, _, rfl⟩
      rfl
  | monitorOpen index pastDeadline =>
      refine hkept (openTask_saves h fun request task hpoll => ?_)
      rcases Option.ite_none_left_eq_some.mp hpoll with ⟨_, hpolled⟩
      cases hpolled
      rfl
  | cancelOpen index =>
      refine hkept (openTask_saves h fun request task hmap => ?_)
      rcases Option.map_eq_some_iff.mp hmap with ⟨task', _, rfl⟩
      simp only
      split <;> rfl
  | processPendingRemoteFiles =>
      cases h
      exact hkept (drain_saves _ _)
  | edit tabId content =>
      cases h
      exact hkept rfl
  | replace tabId content =>
      cases h
      exact hkept rfl
  | save tabId cached => exact saveMoves_saveFile h
  | answerSavePassword index answer => exact .of_move (saveMove_answerSavePassword h)
  | upload index count => exact .of_move (saveMove_upload h)
  | saveWorks index outcome => exact .of_move (saveMove_saveWorks h)
  | advanceSave index => exact .of_move (saveMove_advanceSave h)
  | monitorSave index pastDeadline => exact .of_move (saveMove_monitorSave h)
  | cancelSave index => exact .of_move (saveMove_cancelSave h)
  | closeTab tabId =>
      cases h
      exact hkept (w.removeTabById_saves tabId)

/-! ## Loads keep their numbers apart, and tabs in flight have one to report -/

/-- A tab that counts as loading has a latest load, which is still to report. -/
def LatestReports (w : RemoteWindow) : Prop :=
  ∀ tabId, w.inflightRemoteRestore tabId = true →
    ∃ request ∈ w.openRequests, request.targetTabId = some tabId ∧
      request.targetRequestId = w.latestRemoteOpenRequestByTab tabId ∧ w.StillToReport request

structure LoadTokens (w : RemoteWindow) : Prop where
  numbered : ∀ request ∈ w.openRequests,
    request.targetRequestId.isSome = request.targetTabId.isSome ∧
      ∀ id ∈ request.targetRequestId, id < w.nextRemoteRequestId
  distinct : Tickets.Distinct OpenRequest.targetRequestId w.openRequests
  queued : ∀ outcome ∈ w.pendingRemoteOpen,
    outcome.targetRequestId.isSome = outcome.targetTabId.isSome
  once : ∀ request ∈ w.openRequests, ∀ task ∈ request.stage.task, task.PublishesOnce
  reports : LatestReports w

/-- The loads keep their numbers apart when each is an old one or sound in itself. -/
theorem LoadTokens.of_requests (h : LoadTokens w)
    (hcounter : w.nextRemoteRequestId ≤ w'.nextRemoteRequestId)
    (hdistinct : Tickets.Distinct OpenRequest.targetRequestId w'.openRequests)
    (hnew : ∀ request ∈ w'.openRequests, request ∈ w.openRequests ∨
      request.targetRequestId.isSome = request.targetTabId.isSome ∧
        (∀ id ∈ request.targetRequestId, id < w'.nextRemoteRequestId) ∧
        ∀ task ∈ request.stage.task, task.PublishesOnce)
    (hqueued : ∀ outcome ∈ w'.pendingRemoteOpen, outcome ∈ w.pendingRemoteOpen ∨
      outcome.targetRequestId.isSome = outcome.targetTabId.isSome)
    (hreports : LatestReports w') : LoadTokens w' := by
  constructor
  case numbered =>
      intro request hrequest
      rcases hnew request hrequest with hold | ⟨hpaired, hbelow, _⟩
      · rcases h.numbered request hold with ⟨hpaired, hbelow⟩
        exact ⟨hpaired, fun id hid => Nat.lt_of_lt_of_le (hbelow id hid) hcounter⟩
      · exact ⟨hpaired, hbelow⟩
  case distinct => exact hdistinct
  case queued =>
      intro outcome houtcome
      rcases hqueued outcome houtcome with hold | hpaired
      · exact h.queued outcome hold
      · exact hpaired
  case once =>
      intro request hrequest
      rcases hnew request hrequest with hold | ⟨_, _, honce⟩
      · exact h.once request hold
      · exact honce
  case reports => exact hreports

/-- A step that leaves the requests alone may only take outcomes from the queue. -/
theorem LoadTokens.sameRequests (h : LoadTokens w)
    (hcounter : w.nextRemoteRequestId ≤ w'.nextRemoteRequestId)
    (hrequests : w'.openRequests = w.openRequests)
    (hqueue : ∀ outcome ∈ w'.pendingRemoteOpen, outcome ∈ w.pendingRemoteOpen)
    (hreports : LatestReports w') : LoadTokens w' :=
  h.of_requests hcounter (hrequests ▸ h.distinct)
    (fun _ hrequest => Or.inl (hrequests ▸ hrequest))
    (fun outcome houtcome => Or.inl (hqueue outcome houtcome)) hreports

/-- A request that moves on keeps its number, and its outcome stays to come or is queued. -/
theorem LoadTokens.replaced (h : LoadTokens w) {index : Nat} {request : OpenRequest}
    (hrequest : w.openRequests[index]? = some request) (spec : RemoteSpec)
    (stage : RequestStage (SshTask RemoteOpenResult))
    (hrequests : w'.openRequests =
      w.openRequests.set index { request with spec := spec, stage := stage })
    (hcounter : w'.nextRemoteRequestId = w.nextRemoteRequestId)
    (hqueue : ∀ outcome ∈ w'.pendingRemoteOpen, outcome ∈ w.pendingRemoteOpen ∨
      (outcome.targetTabId = request.targetTabId ∧
        outcome.targetRequestId = request.targetRequestId))
    (honce : (∀ task ∈ request.stage.task, task.PublishesOnce) →
      ∀ task ∈ stage.task, task.PublishesOnce)
    (hreports : LatestReports w') : LoadTokens w' := by
  have hmem := List.mem_of_getElem? hrequest
  rcases h.numbered request hmem with ⟨hpaired, hbelow⟩
  refine h.of_requests hcounter.ge ?_ ?_ ?_ hreports
  · rw [hrequests]
    exact h.distinct.set_same hrequest rfl
  · intro other hother
    rw [hrequests] at hother
    rcases List.mem_or_eq_of_mem_set hother with hold | rfl
    · exact Or.inl hold
    · exact Or.inr ⟨hpaired, fun id hid => hcounter ▸ hbelow id hid, honce (h.once request hmem)⟩
  · intro outcome houtcome
    rcases hqueue outcome houtcome with hold | ⟨htarget, hid⟩
    · exact Or.inl hold
    · exact Or.inr (by rw [htarget, hid]; exact hpaired)

theorem StillToReport.mono {request : OpenRequest} (h : w.StillToReport request)
    (hqueue : ∀ outcome ∈ w.pendingRemoteOpen, outcome ∈ w'.pendingRemoteOpen) :
    w'.StillToReport request := by
  rcases h with htask | ⟨outcome, houtcome, hplace⟩
  · exact Or.inl htask
  · exact Or.inr ⟨outcome, hqueue outcome houtcome, hplace⟩

/-- Tabs in flight keep their loads when one request moves on. -/
theorem LatestReports.replaced (h : LatestReports w) {index : Nat} {request : OpenRequest}
    (hrequest : w.openRequests[index]? = some request) (spec : RemoteSpec)
    (stage : RequestStage (SshTask RemoteOpenResult))
    (hrequests : w'.openRequests =
      w.openRequests.set index { request with spec := spec, stage := stage })
    (hqueue : ∀ outcome ∈ w.pendingRemoteOpen, outcome ∈ w'.pendingRemoteOpen)
    (hinflight : ∀ tabId, w'.inflightRemoteRestore tabId = true →
      (request.targetTabId = some tabId ∧
        w'.latestRemoteOpenRequestByTab tabId = request.targetRequestId ∧
        w'.StillToReport { request with spec := spec, stage := stage }) ∨
      (w.inflightRemoteRestore tabId = true ∧
        w'.latestRemoteOpenRequestByTab tabId = w.latestRemoteOpenRequestByTab tabId ∧
        (request.targetTabId = some tabId → w.StillToReport request →
          w'.StillToReport { request with spec := spec, stage := stage }))) :
    LatestReports w' := by
  intro tabId hloading
  have hbound := (List.getElem?_eq_some_iff.mp hrequest).1
  have hmem : { request with spec := spec, stage := stage } ∈ w'.openRequests := by
    rw [hrequests]
    exact List.mem_set hbound _
  rcases hinflight tabId hloading with ⟨htab, hlatest, hreport⟩ | ⟨hbefore, hlatest, hstays⟩
  · exact ⟨_, hmem, htab, hlatest.symm, hreport⟩
  · rcases h tabId hbefore with ⟨old, hold, htab, hcurrent, hreport⟩
    rw [hlatest]
    rcases List.getElem?_of_mem hold with ⟨place, hplace⟩
    by_cases hsame : place = index
    · rw [hsame, hrequest] at hplace
      cases hplace
      exact ⟨_, hmem, htab, hcurrent, hstays htab hreport⟩
    · refine ⟨old, ?_, htab, hcurrent, hreport.mono hqueue⟩
      rw [hrequests]
      refine List.mem_of_getElem? (i := place) ?_
      rw [List.getElem?_set_ne (fun hindex => hsame hindex.symm)]
      exact hplace

/-- The outcome that is processed takes its own tab out of the loads in flight. -/
theorem processOutcome_inflight {outcome : PendingRemoteOpenOutcome} {tabId : Nat}
    (htab : outcome.targetTabId = some tabId)
    (hlatest : outcome.targetRequestId = w.latestRemoteOpenRequestByTab tabId) :
    (w.processOutcome outcome).inflightRemoteRestore tabId = false := by
  unfold processOutcome
  rw [htab]
  simp only
  rw [if_neg (by simp [hlatest])]
  generalize (if outcome.targetRequestId.isSome then
    Function.update w.latestRemoteOpenRequestByTab tabId none
    else w.latestRemoteOpenRequestByTab) = latest
  rcases applyToTab_loads (w := { w with
    latestRemoteOpenRequestByTab := latest
    inflightRemoteRestore := Function.update w.inflightRemoteRestore tabId false }) tabId
      outcome.result with ⟨tabs, pending, heq⟩
  rw [heq]
  exact Function.update_self _ _ _

/-- Outcomes still in the queue count as they are drained one by one. -/
theorem LatestReports.drain (outcomes : List PendingRemoteOpenOutcome) (w : RemoteWindow)
    (h : LatestReports { w with pendingRemoteOpen := outcomes }) :
    LatestReports { outcomes.foldl processOutcome w with pendingRemoteOpen := [] } := by
  induction outcomes generalizing w with
  | nil => exact h
  | cons outcome outcomes ih =>
      apply ih
      rcases loadsKept_processOutcome w outcome with ⟨hkept, _⟩
      intro tabId hloading
      rcases hkept.inflight tabId hloading with ⟨hbefore, hlatest⟩
      rcases h tabId hbefore with ⟨request, hrequest, htab, hcurrent, hreport⟩
      refine ⟨request, hkept.requests ▸ hrequest, htab, hcurrent.trans hlatest.symm, ?_⟩
      rcases hreport with htask | ⟨queued, hqueued, hplace, hnumber⟩
      · exact Or.inl htask
      · rcases List.mem_cons.mp hqueued with rfl | hrest
        · have hdone : (w.processOutcome queued).inflightRemoteRestore tabId = false :=
            processOutcome_inflight (hplace.trans htab) (hnumber.trans hcurrent)
          have hloading' : (w.processOutcome queued).inflightRemoteRestore tabId = true := hloading
          rw [hdone] at hloading'
          cases hloading'
        · exact Or.inr ⟨queued, hrest, hplace, hnumber⟩

/-- A request is added that has no task yet, and a number from the counter on or none. -/
theorem LoadTokens.appended (h : LoadTokens w) {request : OpenRequest}
    (hrequests : w'.openRequests = w.openRequests ++ [request])
    (hqueue : w'.pendingRemoteOpen = w.pendingRemoteOpen)
    (hcounter : w.nextRemoteRequestId ≤ w'.nextRemoteRequestId)
    (hidle : request.stage.task = none)
    (hpaired : request.targetRequestId.isSome = request.targetTabId.isSome)
    (hnumber : ∀ id ∈ request.targetRequestId,
      w.nextRemoteRequestId ≤ id ∧ id < w'.nextRemoteRequestId)
    (hreports : LatestReports w') : LoadTokens w' := by
  refine h.of_requests hcounter ?_ ?_ (fun _ houtcome => Or.inl (hqueue ▸ houtcome)) hreports
  · rw [hrequests]
    apply h.distinct.append
    intro k hk other hother hsame
    have hbelow := (h.numbered other hother).2 k hsame
    have habove := (hnumber k hk).1
    omega
  · intro other hother
    rw [hrequests] at hother
    rcases List.mem_append.mp hother with hold | hnew
    · exact Or.inl hold
    · rw [List.mem_singleton.mp hnew, hidle]
      exact Or.inr ⟨hpaired, fun id hid => (hnumber id hid).2, by simp⟩

/-- A request that is made takes a fresh number, and its tab is not in flight yet. -/
theorem LoadTokens.requested (h : LoadTokens w) (spec : RemoteSpec) (target : Option Nat)
    (hidle : ∀ tabId ∈ target, w.inflightRemoteRestore tabId = false)
    (hcounter : w.nextRemoteRequestId ≤ (w.requestOpen spec target).1.nextRemoteRequestId)
    (hbound : w.nextRemoteRequestId + 1 < 2 ^ 64 ∨
      (w.requestOpen spec target).1.nextRemoteRequestId = w.nextRemoteRequestId) :
    LoadTokens (w.requestOpen spec target).1 := by
  cases target with
  | none =>
      refine h.appended rfl rfl hcounter rfl rfl (fun id hid => by cases hid) ?_
      intro tabId hloading
      rcases h.reports tabId hloading with ⟨request, hrequest, hplace⟩
      exact ⟨request, List.mem_append_left _ hrequest, hplace⟩
  | some target =>
      have hnext : (w.requestOpen spec (some target)).1.nextRemoteRequestId =
          w.nextRemoteRequestId + 1 := nextRequestId_eq hbound
      refine h.appended rfl rfl hcounter rfl rfl (fun id hid => ?_) ?_
      · cases hid
        omega
      · intro tabId hloading
        rcases h.reports tabId hloading with ⟨request, hrequest, htab, hcurrent, hreport⟩
        refine ⟨request, List.mem_append_left _ hrequest, htab, ?_, hreport⟩
        have hne : tabId ≠ target := by
          rintro rfl
          have hnot := hidle tabId rfl
          have hloading' : w.inflightRemoteRestore tabId = true := hloading
          rw [hnot] at hloading'
          cases hloading'
        rw [hcurrent]
        exact (Function.update_of_ne hne _ _).symm

theorem LoadTokens.spawned (h : LoadTokens w) {index : Nat} {request : OpenRequest}
    (user : Option String) (hrequest : w.openRequests[index]? = some request)
    (hlatest : ∀ tabId ∈ request.targetTabId,
      w.latestRemoteOpenRequestByTab tabId = request.targetRequestId) :
    LoadTokens (w.spawnSshOpenTask index request user) := by
  refine h.replaced hrequest _ _ rfl rfl (fun _ ho => Or.inl ho) (fun _ task htask => ?_) ?_
  · cases htask
    exact SshTask.publishesOnce_spawned
  · refine h.reports.replaced hrequest _ _ rfl (fun _ ho => ho) fun tabId hloading => ?_
    have hreport : SshTask.CanReport (.spawned : SshTask RemoteOpenResult) := ⟨rfl, rfl⟩
    cases htab : request.targetTabId with
    | none =>
        simp only [spawnSshOpenTask, htab] at hloading
        exact Or.inr ⟨hloading, rfl, fun hother => by cases hother⟩
    | some target =>
        simp only [spawnSshOpenTask, htab] at hloading
        by_cases hsame : tabId = target
        · subst hsame
          exact Or.inl ⟨rfl, hlatest tabId htab, Or.inl ⟨_, rfl, hreport⟩⟩
        · rw [Function.update_of_ne hsame] at hloading
          exact Or.inr ⟨hloading, rfl, fun hother => absurd (Option.some.inj hother).symm hsame⟩

/-- A task that goes on publishes its outcome once. -/
theorem LoadTokens.ran (h : LoadTokens w) {index : Nat} {request : OpenRequest}
    {task task' : SshTask RemoteOpenResult} {published : Option (Except String RemoteOpenResult)}
    (hrequest : w.openRequests[index]? = some request) (hstage : request.stage = .running task)
    (htask : TaskMove task task' published) :
    LoadTokens (w.updateOpenTask index { request with stage := .running task' } published) := by
  have hrunning : task ∈ request.stage.task := by simp [RequestStage.task, hstage]
  refine h.replaced hrequest _ _ rfl rfl (fun outcome houtcome => ?_)
    (fun honce other hother => ?_) ?_
  · cases published with
    | none => exact Or.inl houtcome
    | some result =>
        rcases List.mem_append.mp houtcome with hold | hnew
        · exact Or.inl hold
        · rw [List.mem_singleton.mp hnew]
          exact Or.inr ⟨rfl, rfl⟩
  · cases hother
    exact htask.once (honce task hrunning)
  · refine h.reports.replaced hrequest _ _ rfl (fun outcome houtcome => ?_)
      fun tabId hloading => Or.inr ⟨hloading, rfl, fun _ hreport => ?_⟩
    · cases published with
      | none => exact houtcome
      | some result => exact List.mem_append_left _ houtcome
    · rcases hreport with ⟨running, hmem, hcan⟩ | ⟨outcome, houtcome, hplace⟩
      · rw [hstage] at hmem
        cases hmem
        cases published with
        | none => exact Or.inl ⟨task', rfl, htask.report hcan rfl⟩
        | some result =>
            exact Or.inr ⟨_, List.mem_append_right _ (List.mem_singleton.mpr rfl), rfl, rfl⟩
      · refine Or.inr ⟨outcome, ?_, hplace⟩
        cases published with
        | none => exact houtcome
        | some result => exact List.mem_append_left _ houtcome

theorem LoadTokens.cancelled (h : LoadTokens w) {index : Nat} {request : OpenRequest}
    {task task' : SshTask RemoteOpenResult} (hrequest : w.openRequests[index]? = some request)
    (hstage : request.stage = .running task) (hcancel : task.cancel = some task') :
    LoadTokens (w.afterCancelOpen index request task') := by
  rcases afterCancelOpen_requests (w := w) index request task' with
    ⟨hrequests, hqueue, hsame⟩
  refine h.replaced hrequest _ _ hrequests hsame (fun _ ho => Or.inl (hqueue ▸ ho))
    (fun honce other hother => ?_) ?_
  · cases hother
    exact (honce task (by simp [RequestStage.task, hstage])).cancel hcancel
  · refine h.reports.replaced hrequest _ _ hrequests (fun _ ho => hqueue ▸ ho)
      fun tabId hloading => ?_
    rcases afterCancelOpen_tab (w := w) index request task' tabId with ⟨hlatest, hinflight⟩
    rw [hinflight] at hloading
    by_cases htab : request.targetTabId = some tabId
    · rw [if_pos htab] at hloading
      cases hloading
    · rw [if_neg htab] at hloading hlatest
      exact Or.inr ⟨hloading, hlatest, fun hother => absurd hother htab⟩

/-- Every move keeps the numbers apart, when only the latest load of a tab is spawned. -/
theorem LoadTokens.move (h : LoadTokens w) (hmove : LoadMove True w w')
    (hcounter : w.nextRemoteRequestId ≤ w'.nextRemoteRequestId)
    (hbound : w.nextRemoteRequestId + 1 < 2 ^ 64 ∨
      w'.nextRemoteRequestId = w.nextRemoteRequestId) : LoadTokens w' := by
  cases hmove with
  | kept hkept =>
      refine h.sameRequests hcounter hkept.requests (fun _ ho => hkept.queue ▸ ho) ?_
      intro tabId hloading
      rcases hkept.inflight tabId hloading with ⟨hbefore, hlatest⟩
      rcases h.reports tabId hbefore with ⟨request, hrequest, htab, hcurrent, hreport⟩
      refine ⟨request, hkept.requests ▸ hrequest, htab, hcurrent.trans hlatest.symm, ?_⟩
      exact hreport.mono fun outcome houtcome => hkept.queue ▸ houtcome
  | requested spec target hidle => exact h.requested spec target hidle hcounter hbound
  | spawned index request user hrequest hstage hlatest =>
      exact h.spawned user hrequest (hlatest trivial)
  | dismissed index request hrequest hstage =>
      refine h.replaced hrequest _ _ rfl rfl (fun _ ho => Or.inl ho) (fun _ task htask => ?_) ?_
      · cases htask
      · refine h.reports.replaced hrequest _ _ rfl (fun _ ho => ho) fun tabId hloading => ?_
        refine Or.inr ⟨hloading, rfl, fun _ hreport => ?_⟩
        rcases hreport with ⟨task, htask, _⟩ | hqueued
        · rw [hstage] at htask
          cases htask
        · exact Or.inr hqueued
  | ran index request task task' published hrequest hstage htask =>
      exact h.ran hrequest hstage htask
  | cancelled index request task task' hrequest hstage hcancel =>
      exact h.cancelled hrequest hstage hcancel
  | processed =>
      rcases loadsKept_drain w.pendingRemoteOpen { w with pendingRemoteOpen := [] } with
        ⟨hkept, hsame⟩
      have hrequests : w.processPendingRemoteFiles.openRequests = w.openRequests := hkept.requests
      have hqueue : w.processPendingRemoteFiles.pendingRemoteOpen = [] := hkept.queue
      refine h.sameRequests hcounter hrequests ?_ ?_
      · rw [hqueue]
        intro outcome houtcome
        cases houtcome
      · have hdrained := LatestReports.drain w.pendingRemoteOpen
          { w with pendingRemoteOpen := [] } h.reports
        intro tabId hloading
        rcases hdrained tabId hloading with ⟨request, hrequest, htab, hcurrent, hreport⟩
        refine ⟨request, hrequest, htab, hcurrent, ?_⟩
        exact hreport.mono fun outcome houtcome => by cases houtcome

/-! ## Steps and runs -/

theorem LoadMove.counter {strict : Prop} (h : LoadMove strict w w') :
    w'.nextRemoteRequestId = w.nextRemoteRequestId ∨
      w'.nextRemoteRequestId = w.nextRequestId := by
  cases h with
  | kept hkept => exact hkept.counter
  | requested spec target hidle =>
      cases target with
      | none => exact Or.inl rfl
      | some tabId => exact Or.inr rfl
  | spawned index request user hrequest hstage hlatest => exact Or.inl rfl
  | dismissed index request hrequest hstage => exact Or.inl rfl
  | ran index request task task' published hrequest hstage hmove => exact Or.inl rfl
  | cancelled index request task task' hrequest hstage hcancel =>
      exact Or.inl (afterCancelOpen_requests index request task').2.2
  | processed => exact Or.inl (loadsKept_drain _ _).2

theorem LoadMove.counter_le {strict : Prop} (h : LoadMove strict w w')
    (hbound : w.nextRemoteRequestId + 1 < 2 ^ 64 ∨
      w'.nextRemoteRequestId = w.nextRemoteRequestId) :
    w.nextRemoteRequestId ≤ w'.nextRemoteRequestId := by
  rcases hbound with hbound | hsame
  · rcases h.counter with hsame | hnext
    · omega
    · rw [hnext, nextRequestId_eq (.inl hbound)]
      omega
  · omega

/-- What holds of a window in which only the latest load of a tab is spawned. -/
structure Tokens (w : RemoteWindow) : Prop where
  loads : LoadTokens w
  saves : SaveTokens w

theorem Tokens.step (h : Tokens w) {action : RemoteAction} (hsafe : w.TokenStep action)
    (hstep : w.step encodings action = some w') : Tokens w' := by
  have hlatest : True → ∀ index entered, action = .answerOpenPassword index (some entered) →
      ∀ request ∈ w.openRequests[index]?, ∀ tabId ∈ request.targetTabId,
        w.latestRemoteOpenRequestByTab tabId = request.targetRequestId := by
    rintro - index entered rfl
    exact hsafe.2
  rcases loadMoves_of_step True hlatest hstep with ⟨middle, hfirst, hsecond, hcounter⟩
  have hle := hfirst.counter_le (Or.inl hsafe.1)
  have hmiddle := h.loads.move hfirst hle (Or.inl hsafe.1)
  have hbound : middle.nextRemoteRequestId + 1 < 2 ^ 64 ∨
      w'.nextRemoteRequestId = middle.nextRemoteRequestId := by
    rcases hcounter with hsame | hsame
    · exact Or.inl (hsame ▸ hsafe.1)
    · exact Or.inr hsame
  have hle' := hsecond.counter_le hbound
  refine ⟨hmiddle.move hsecond hle' hbound, ?_⟩
  rcases saveMoves_of_step hstep with ⟨between, hfirst, hsecond, hsame⟩
  have hbetween := h.saves.move hfirst (Nat.le_of_eq hsame.symm) hsafe.1
  refine hbetween.move hsecond ?_ (hsame ▸ hsafe.1)
  omega

theorem Tokens.publishesOnce (h : Tokens w) : PublishesOnce w :=
  ⟨fun request hrequest task htask => (h.loads.once request hrequest task htask).published_le,
    fun request hrequest task htask => (h.saves.once request hrequest task htask).published_le⟩

theorem Tokens.inflightReports (h : Tokens w) : InflightReports w := by
  intro tabId hloading
  rcases h.loads.reports tabId hloading with ⟨request, hrequest, htab, _, hreport⟩
  exact ⟨request, hrequest, htab, hreport⟩

theorem openRemoteFileWithTarget_length (w : RemoteWindow) (spec : RemoteSpec)
    (target : Option Nat) (cached : Bool) :
    (w.openRemoteFileWithTarget spec target cached).openRequests.length =
      w.openRequests.length + 1 := by
  show (if hasPassword spec cached then _ else _ : RemoteWindow).openRequests.length = _
  cases target with
  | none => split <;> simp [spawnSshOpenTask]
  | some tabId => split <;> simp [spawnSshOpenTask]

/-- A tab that no load is to report for is not in flight, and so is loaded when activated. -/
theorem loadsWhenActivated_of_inflightReports (h : InflightReports w) : LoadsWhenActivated w := by
  intro tab spec cached hfind hloc hclean hpending hidle
  have hnot : w.inflightRemoteRestore tab.id = false := by
    cases hloading : w.inflightRemoteRestore tab.id with
    | false => rfl
    | true =>
        rcases h tab.id hloading with ⟨request, hrequest, htab, hreport⟩
        exact absurd hreport (hidle request hrequest htab)
  unfold setActiveTab
  simp only [hfind, hloc, hpending, hnot, hclean]
  exact openRemoteFileWithTarget_length w spec (some tab.id) cached

/-! ### Results and newer requests -/

theorem processOutcome_stale {outcome : PendingRemoteOpenOutcome} {tabId id : Nat}
    (htab : outcome.targetTabId = some tabId) (hid : outcome.targetRequestId = some id)
    (hstale : w.latestRemoteOpenRequestByTab tabId ≠ some id) : w.processOutcome outcome = w := by
  unfold processOutcome
  rw [htab]
  simp only
  exact if_pos ⟨by rw [hid]; rfl, by rw [hid]; exact hstale⟩

theorem handleRemoteSaveResult_stale {tabId : Nat} {requestId : Option Nat}
    {savedContent : String} {result : Except String Unit}
    (hstale : w.latestRemoteSaveRequestByTab tabId ≠ requestId) :
    w.handleRemoteSaveResult tabId requestId savedContent result = w := if_pos hstale

theorem Tokens.appliesLatest (h : Tokens w) (action : RemoteAction) : w.AppliesLatest action := by
  cases action with
  | processPendingRemoteFiles =>
      intro before outcome after hqueue tabId htab hchanged
      have hpaired := h.loads.queued outcome (by rw [hqueue]; simp)
      rw [htab] at hpaired
      rcases Option.isSome_iff_exists.mp hpaired with ⟨id, hid⟩
      refine ⟨id, hid, ?_⟩
      by_contra hstale
      exact hchanged (processOutcome_stale htab hid hstale)
  | monitorSave index pastDeadline =>
      intro request hrequest w' hw' hchanged
      rcases Option.bind_eq_some_iff.mp hw' with ⟨⟨found, task⟩, hsave, hpoll⟩
      rcases saveTask_eq_some hsave with ⟨hfound, hstage⟩
      rcases Option.ite_none_left_eq_some.mp hpoll with ⟨_, hpolled⟩
      rw [Option.mem_def, hfound] at hrequest
      cases hrequest
      have hsome := h.saves.running request (List.mem_of_getElem? hfound)
        (by simp [RequestStage.task, hstage])
      rcases Option.isSome_iff_exists.mp hsome with ⟨id, hid⟩
      refine ⟨id, hid, ?_⟩
      by_contra hstale
      apply hchanged
      cases hpolled
      unfold deliverSave
      split
      · rfl
      · rw [handleRemoteSaveResult_stale (by rw [hid]; exact hstale)]
        rfl
  | _ => trivial

theorem processOutcome_latest {outcome : PendingRemoteOpenOutcome} {tabId id : Nat}
    (hlatest : w.latestRemoteOpenRequestByTab tabId = some id)
    (hother : ¬(outcome.targetTabId = some tabId ∧ outcome.targetRequestId = some id)) :
    (w.processOutcome outcome).latestRemoteOpenRequestByTab tabId = some id := by
  cases htab : outcome.targetTabId with
  | none =>
      unfold processOutcome
      rw [htab]
      rcases applyToNewTab_loads (w := w) outcome.result with ⟨tabs, next, heq⟩
      simp only [heq]
      exact hlatest
  | some target =>
      unfold processOutcome
      rw [htab]
      simp only
      split
      · exact hlatest
      · rename_i hcurrent
        have hkeep : (if outcome.targetRequestId.isSome then
            Function.update w.latestRemoteOpenRequestByTab target none
            else w.latestRemoteOpenRequestByTab) tabId = some id := by
          split
          · rename_i hsome
            have hne : tabId ≠ target := by
              rintro rfl
              apply hother
              refine ⟨htab, ?_⟩
              by_contra hnot
              exact hcurrent ⟨hsome, fun heq => hnot (heq ▸ hlatest)⟩
            rw [Function.update_of_ne hne]
            exact hlatest
          · exact hlatest
        generalize (if outcome.targetRequestId.isSome then
          Function.update w.latestRemoteOpenRequestByTab target none
          else w.latestRemoteOpenRequestByTab) = latest at hkeep
        rcases applyToTab_loads (w := { w with
          latestRemoteOpenRequestByTab := latest
          inflightRemoteRestore := Function.update w.inflightRemoteRestore target false }) target
            outcome.result with ⟨tabs, pending, heq⟩
        rw [heq]
        exact hkeep

theorem drain_latest {tabId id : Nat} (outcomes : List PendingRemoteOpenOutcome)
    (w : RemoteWindow) (hlatest : w.latestRemoteOpenRequestByTab tabId = some id)
    (hother : ∀ outcome ∈ outcomes,
      ¬(outcome.targetTabId = some tabId ∧ outcome.targetRequestId = some id)) :
    (outcomes.foldl processOutcome w).latestRemoteOpenRequestByTab tabId = some id := by
  induction outcomes generalizing w with
  | nil => exact hlatest
  | cons outcome outcomes ih =>
      apply ih
      · exact processOutcome_latest hlatest (hother outcome List.mem_cons_self)
      · exact fun other hmem => hother other (List.mem_cons_of_mem _ hmem)

/-- Handling a save forgets no request but its own. -/
theorem handleRemoteSaveResult_latest {tabId other id : Nat} {requestId : Option Nat}
    (savedContent : String) (result : Except String Unit)
    (hlatest : w.latestRemoteSaveRequestByTab other = some id) (hother : requestId ≠ some id) :
    (w.handleRemoteSaveResult tabId requestId savedContent result).latestRemoteSaveRequestByTab
      other = some id := by
  by_cases hstale : w.latestRemoteSaveRequestByTab tabId ≠ requestId
  · rw [handleRemoteSaveResult_stale hstale]
    exact hlatest
  · have hcurrent : w.latestRemoteSaveRequestByTab tabId = requestId := not_not.mp hstale
    have hne : other ≠ tabId := by
      rintro rfl
      exact hother (hcurrent.symm.trans hlatest)
    have hkeep : Function.update w.latestRemoteSaveRequestByTab tabId none other = some id := by
      rw [Function.update_of_ne hne]
      exact hlatest
    unfold handleRemoteSaveResult
    rw [if_neg hstale]
    cases result with
    | error msg => exact hkeep
    | ok done =>
        simp only
        split
        · exact hkeep
        · exact hkeep

theorem Tokens.keepsNewer (h : Tokens w) {action : RemoteAction} (hsafe : w.TokenStep action) :
    w.KeepsNewer action := by
  cases action with
  | cancelOpen index =>
      intro w' hw' other hother newer hnewer tabId htab hlatest hawaited
      rcases Option.bind_eq_some_iff.mp hw' with ⟨⟨request, task⟩, hopen, hmap⟩
      rcases Option.map_eq_some_iff.mp hmap with ⟨task', _, rfl⟩
      rcases openTask_eq_some hopen with ⟨hrequest, _⟩
      have hmem := List.mem_of_getElem? hnewer
      show (w.afterCancelOpen index request task').latestRemoteOpenRequestByTab tabId = _
      rw [(afterCancelOpen_tab index request task' tabId).1]
      split
      · rename_i hsame
        have hpaired := (h.loads.numbered newer hmem).1
        rw [htab] at hpaired
        rcases Option.isSome_iff_exists.mp hpaired with ⟨id, hid⟩
        have hdistinct : newer.targetRequestId ≠ request.targetRequestId := by
          intro hequal
          exact hother (h.loads.distinct other index newer request id hnewer hrequest hid
            (hequal ▸ hid))
        exact absurd hawaited
          (hsafe.2 request hrequest tabId hsame newer hmem htab hlatest hdistinct)
      · exact hlatest
  | processPendingRemoteFiles =>
      intro newer hnewer tabId htab hlatest hqueued
      have hpaired := (h.loads.numbered newer hnewer).1
      rw [htab] at hpaired
      rcases Option.isSome_iff_exists.mp hpaired with ⟨id, hid⟩
      rw [hid] at hlatest ⊢
      refine drain_latest _ _ hlatest fun outcome houtcome hplace => hqueued ?_
      exact ⟨outcome, houtcome, hplace.1.trans htab.symm, hplace.2.trans hid.symm⟩
  | cancelSave index =>
      intro w' hw' other hother newer hnewer id hid hlatest
      rcases Option.bind_eq_some_iff.mp hw' with ⟨⟨request, task⟩, hsave, hmap⟩
      rcases Option.map_eq_some_iff.mp hmap with ⟨task', _, rfl⟩
      rcases saveTask_eq_some hsave with ⟨hrequest, _⟩
      simp only
      split
      · rename_i hown
        have hne : newer.tabId ≠ request.tabId := by
          intro hequal
          refine hother (h.saves.distinct other index newer request id hnewer hrequest hid ?_)
          rw [← hown, ← hequal]
          exact hlatest
        exact (Function.update_of_ne hne _ _).trans hlatest
      · exact hlatest
  | monitorSave index pastDeadline =>
      intro w' hw' other hother newer hnewer id hid hlatest
      rcases Option.bind_eq_some_iff.mp hw' with ⟨⟨request, task⟩, hsave, hpoll⟩
      rcases saveTask_eq_some hsave with ⟨hrequest, _⟩
      rcases Option.ite_none_left_eq_some.mp hpoll with ⟨_, hpolled⟩
      cases hpolled
      unfold deliverSave
      split
      · exact hlatest
      · refine handleRemoteSaveResult_latest _ _ hlatest fun hequal => hother ?_
        exact h.saves.distinct other index newer request id hnewer hrequest hid hequal
  | _ => trivial

theorem tokens_launched (encodings : Encodings) (parse : String → Option Int) (disk : Disk)
    (states : List TabState) (server : RemoteSpec → Option (List UInt8)) :
    Tokens (launched encodings parse disk states server) where
  loads :=
    { numbered := by simp [launched]
      distinct := Tickets.distinct_nil
      queued := by simp [launched]
      once := by simp [launched]
      reports := by simp [LatestReports, launched] }
  saves :=
    { numbered := by simp [launched]
      distinct := Tickets.distinct_nil
      running := by simp [launched]
      once := by simp [launched] }

/--
In every run that spawns a load only while its request is the latest of its tab,
cancels no load while another request of its tab is the latest and may still
report, and does not run out of numbers: results are applied for the latest
request only, no newer request is discarded for an older one, each request
publishes one outcome at most, and a tab counts as loading only while a load of
it is still to report, so that activating it loads it whenever none is.
-/
theorem requests_keep_tokens {encodings : Encodings} {parse : String → Option Int} {disk : Disk}
    {states : List TabState} {server : RemoteSpec → Option (List UInt8)}
    {actions : List RemoteAction}
    (hguard : Guarded (step encodings) TokenStep (launched encodings parse disk states server)
      actions) :
    Guarded (step encodings) (fun w action => w.AppliesLatest action ∧ w.KeepsNewer action)
        (launched encodings parse disk states server) actions ∧
      ∀ w, run (step encodings) (launched encodings parse disk states server) actions = some w →
        w.PublishesOnce ∧ w.InflightReports ∧ w.LoadsWhenActivated := by
  have hstart := tokens_launched encodings parse disk states server
  have hstep : ∀ w action w', Tokens w → w.TokenStep action →
      w.step encodings action = some w' → Tokens w' := fun w action w' h hsafe hrun =>
    h.step hsafe hrun
  constructor
  · exact hguard.of_invariant Tokens hstep
      (fun w action h hsafe => ⟨h.appliesLatest action, h.keepsNewer hsafe⟩) hstart
  · intro w hrun
    have htokens := invariant_of_guarded Tokens hstep hstart hguard hrun
    exact ⟨htokens.publishesOnce, htokens.inflightReports,
      loadsWhenActivated_of_inflightReports htokens.inflightReports⟩

/-- The saved remote tab `0`, unmodified and to be loaded yet. -/
def sampleSavedTab : TabState where
  tabId := 0
  title := "n"
  filePath := none
  content := none
  lastSaved := none
  remote := some { host := "h", port := 22, user := "u", path := "/n" }
  logView := false
  colorTag := none

/-- A load that is asked for its password fails, and the tab is activated again. -/
def sampleRetry : List RemoteAction :=
  [.setActiveTab 0 false, .answerOpenPassword 0 (some "u"), .openWorks 0 (.error "no route"),
    .advanceOpen 0, .advanceOpen 0, .advanceOpen 0, .processPendingRemoteFiles,
    .setActiveTab 0 true]

theorem requests_keep_tokens_sample :
    Guarded (step sampleEncodings) (fun w action => w.AppliesLatest action ∧ w.KeepsNewer action)
        (launched sampleEncodings sampleParse sampleDisk [sampleSavedTab] fun _ => none)
        sampleRetry ∧
      ∀ w, run (step sampleEncodings)
        (launched sampleEncodings sampleParse sampleDisk [sampleSavedTab] fun _ => none)
        sampleRetry = some w → w.PublishesOnce ∧ w.InflightReports ∧ w.LoadsWhenActivated :=
  requests_keep_tokens (Guarded.of_guardedRun (by decide))

/-- Of two password prompts the newer is dismissed and the older answered; its load then fails. -/
def sampleLateLoad : List RemoteAction :=
  [.setActiveTab 0 false, .setActiveTab 0 false, .answerOpenPassword 1 none,
    .answerOpenPassword 0 (some "u"), .openWorks 0 (.error "no route"), .advanceOpen 0,
    .advanceOpen 0, .advanceOpen 0, .processPendingRemoteFiles]

/--
The late load leaves its tab in flight for good, and cancelling a load that has
failed before discards the load that was started after it.
-/
theorem overlapping_requests_interfere :
    (run (step sampleEncodings)
      (launched sampleEncodings sampleParse sampleDisk [sampleSavedTab] fun _ => none)
      sampleLateLoad).any (fun w => w.inflightRemoteRestore 0 && decide
        (∀ request ∈ w.openRequests, request.targetTabId = some 0 → ¬w.StillToReport request)) =
          true ∧
      (run (step sampleEncodings)
        (launched sampleEncodings sampleParse sampleDisk [sampleSavedTab] fun _ => none)
        (sampleRetry ++ [.cancelOpen 0])).any (fun w => decide
          (∃ newer ∈ w.openRequests[1]?, w.Awaited newer ∧
            w.latestRemoteOpenRequestByTab 0 ≠ newer.targetRequestId)) = true := by
  constructor <;> decide

end Fulgur.RemoteWindow
