import Fulgur.Library.Tickets
import Fulgur.Remote.Window

/-! # What a step does to the loads of a window

Every step either leaves the loads alone, or makes a request, spawns or
dismisses one, moves the task of one, cancels one, or drains the queue of
outcomes. What is kept about loads is proved along these few moves.
-/

namespace Fulgur.RemoteWindow

/-- The outcome of the request is queued. -/
def Queued (w : RemoteWindow) (request : OpenRequest) : Prop :=
  ∃ outcome ∈ w.pendingRemoteOpen, outcome.targetTabId = request.targetTabId ∧
    outcome.targetRequestId = request.targetRequestId

instance (w : RemoteWindow) (request : OpenRequest) : Decidable (w.Queued request) :=
  inferInstanceAs (Decidable (∃ outcome ∈ w.pendingRemoteOpen, _))

/-- The request has a task that can still publish, or an outcome that waits in the queue. -/
def StillToReport (w : RemoteWindow) (request : OpenRequest) : Prop :=
  (∃ task ∈ request.stage.task, task.CanReport) ∨ w.Queued request

instance (w : RemoteWindow) (request : OpenRequest) : Decidable (w.StillToReport request) :=
  inferInstanceAs (Decidable (_ ∨ _))

/-- The request asks for its password. -/
def OpenRequest.IsPrompting (request : OpenRequest) : Prop :=
  match request.stage with
  | .prompting => True
  | _ => False

instance (request : OpenRequest) : Decidable (OpenRequest.IsPrompting request) :=
  match h : request.stage with
  | .prompting => isTrue (by simp [OpenRequest.IsPrompting, h])
  | .dismissed => isFalse (by simp [OpenRequest.IsPrompting, h])
  | .running _ => isFalse (by simp [OpenRequest.IsPrompting, h])

theorem isPrompting_iff (request : OpenRequest) :
    OpenRequest.IsPrompting request ↔ request.stage = .prompting := by
  unfold OpenRequest.IsPrompting
  cases request.stage <;> simp

/-- The outcome of the request may still come. -/
def Awaited (w : RemoteWindow) (request : OpenRequest) : Prop :=
  OpenRequest.IsPrompting request ∨ w.StillToReport request

instance (w : RemoteWindow) (request : OpenRequest) : Decidable (w.Awaited request) :=
  inferInstanceAs (Decidable (_ ∨ _))

/-! ## The moves of the loads -/

/-- The loads are as they were; requests may have been forgotten and numbers given away. -/
structure LoadsKept (w w' : RemoteWindow) : Prop where
  requests : w'.openRequests = w.openRequests
  queue : w'.pendingRemoteOpen = w.pendingRemoteOpen
  latest : ∀ tabId id, w'.latestRemoteOpenRequestByTab tabId = some id →
    w.latestRemoteOpenRequestByTab tabId = some id
  inflight : ∀ tabId, w'.inflightRemoteRestore tabId = true →
    w.inflightRemoteRestore tabId = true ∧
      w'.latestRemoteOpenRequestByTab tabId = w.latestRemoteOpenRequestByTab tabId
  counter : w'.nextRemoteRequestId = w.nextRemoteRequestId ∨
    w'.nextRemoteRequestId = w.nextRequestId

variable {w w' : RemoteWindow} {encodings : Encodings}

theorem LoadsKept.of_eq (hrequests : w'.openRequests = w.openRequests)
    (hqueue : w'.pendingRemoteOpen = w.pendingRemoteOpen)
    (hlatest : w'.latestRemoteOpenRequestByTab = w.latestRemoteOpenRequestByTab)
    (hinflight : w'.inflightRemoteRestore = w.inflightRemoteRestore)
    (hcounter : w'.nextRemoteRequestId = w.nextRemoteRequestId ∨
      w'.nextRemoteRequestId = w.nextRequestId) : LoadsKept w w' where
  requests := hrequests
  queue := hqueue
  latest := fun _ _ h => hlatest ▸ h
  inflight := fun tabId h => ⟨hinflight ▸ h, congrFun hlatest tabId⟩
  counter := hcounter

/-- What a step makes of a load: its task moves on, and may publish an outcome. -/
structure TaskMove (task task' : SshTask RemoteOpenResult)
    (published : Option (Except String RemoteOpenResult)) : Prop where
  report : task.CanReport → published = none → task'.CanReport
  reported : task'.CanReport ∨ published.isSome → task.CanReport
  once : task.PublishesOnce → task'.PublishesOnce

def afterCancelOpen (w : RemoteWindow) (index : Nat) (request : OpenRequest)
    (task : SshTask RemoteOpenResult) : RemoteWindow :=
  let cancelled := w.updateOpenTask index { request with stage := .running task } none
  match request.targetTabId with
  | none => cancelled
  | some tabId => { cancelled with
      latestRemoteOpenRequestByTab := Function.update w.latestRemoteOpenRequestByTab tabId none
      inflightRemoteRestore := Function.update w.inflightRemoteRestore tabId false }

theorem afterCancelOpen_requests (index : Nat) (request : OpenRequest)
    (task : SshTask RemoteOpenResult) :
    (w.afterCancelOpen index request task).openRequests =
        w.openRequests.set index { request with stage := .running task } ∧
      (w.afterCancelOpen index request task).pendingRemoteOpen = w.pendingRemoteOpen ∧
      (w.afterCancelOpen index request task).nextRemoteRequestId = w.nextRemoteRequestId := by
  unfold afterCancelOpen
  cases request.targetTabId with
  | none => exact ⟨rfl, rfl, rfl⟩
  | some tabId => exact ⟨rfl, rfl, rfl⟩

/-- Cancelling a load takes its own tab out of the loads, and no other. -/
theorem afterCancelOpen_tab (index : Nat) (request : OpenRequest)
    (task : SshTask RemoteOpenResult) (tabId : Nat) :
    ((w.afterCancelOpen index request task).latestRemoteOpenRequestByTab tabId =
        if request.targetTabId = some tabId then none
        else w.latestRemoteOpenRequestByTab tabId) ∧
      (w.afterCancelOpen index request task).inflightRemoteRestore tabId =
        if request.targetTabId = some tabId then false else w.inflightRemoteRestore tabId := by
  unfold afterCancelOpen
  cases request.targetTabId with
  | none => exact ⟨rfl, rfl⟩
  | some target =>
      by_cases hsame : tabId = target
      · simp [hsame]
      · have hother : ¬target = tabId := fun h => hsame h.symm
        simp [hsame, hother]

/--
The moves of the loads. In a run that only spawns the latest request of a tab, the
moves are `strict`.
-/
inductive LoadMove (strict : Prop) (w : RemoteWindow) : RemoteWindow → Prop where
  | kept {w' : RemoteWindow} (hkept : LoadsKept w w') : LoadMove strict w w'
  | requested (spec : RemoteSpec) (target : Option Nat)
      (hidle : ∀ tabId ∈ target, w.inflightRemoteRestore tabId = false) :
      LoadMove strict w (w.requestOpen spec target).1
  | spawned (index : Nat) (request : OpenRequest) (user : Option String)
      (hrequest : w.openRequests[index]? = some request) (hstage : request.stage = .prompting)
      (hlatest : strict → ∀ tabId ∈ request.targetTabId,
        w.latestRemoteOpenRequestByTab tabId = request.targetRequestId) :
      LoadMove strict w (w.spawnSshOpenTask index request user)
  | dismissed (index : Nat) (request : OpenRequest)
      (hrequest : w.openRequests[index]? = some request) (hstage : request.stage = .prompting) :
      LoadMove strict w
        { w with openRequests := w.openRequests.set index { request with stage := .dismissed } }
  | ran (index : Nat) (request : OpenRequest) (task task' : SshTask RemoteOpenResult)
      (published : Option (Except String RemoteOpenResult))
      (hrequest : w.openRequests[index]? = some request)
      (hstage : request.stage = .running task) (hmove : TaskMove task task' published) :
      LoadMove strict w
        (w.updateOpenTask index { request with stage := .running task' } published)
  | cancelled (index : Nat) (request : OpenRequest) (task task' : SshTask RemoteOpenResult)
      (hrequest : w.openRequests[index]? = some request)
      (hstage : request.stage = .running task) (hcancel : task.cancel = some task') :
      LoadMove strict w (w.afterCancelOpen index request task')
  | processed : LoadMove strict w w.processPendingRemoteFiles

theorem openTask_eq_some {index : Nat} {request : OpenRequest} {task : SshTask RemoteOpenResult}
    (h : w.openTask index = some (request, task)) :
    w.openRequests[index]? = some request ∧ request.stage = .running task := by
  unfold openTask at h
  rcases Option.bind_eq_some_iff.mp h with ⟨found, hfound, hmap⟩
  rcases Option.map_eq_some_iff.mp hmap with ⟨running, hrunning, hpair⟩
  cases hpair
  exact ⟨hfound, RequestStage.eq_running hrunning⟩

/-! ### Tasks -/

theorem taskMove_works {task task' : SshTask RemoteOpenResult}
    {outcome : Except String RemoteOpenResult} (h : task.works outcome = some task') :
    TaskMove task task' none := by
  have hsame : task'.CanReport ↔ task.CanReport := by
    unfold SshTask.works at h
    split at h
    · rename_i hworker
      cases h
      simp [SshTask.CanReport, hworker]
    · cases h
  exact ⟨fun hreport _ => hsame.mpr hreport, fun hreport => hsame.mp (by simpa using hreport),
    fun honce => honce.works h⟩

theorem taskMove_advance {task task' : SshTask RemoteOpenResult}
    {stored : Option (Except String RemoteOpenResult)} (h : task.advance = some (task', stored)) :
    TaskMove task task' stored := by
  have honce : task.PublishesOnce → task'.PublishesOnce := fun honce => honce.advance h
  unfold SshTask.advance at h
  split at h
  · rename_i outcome hworker
    cases hcancel : task.cancelFlag with
    | true =>
        simp only [hcancel] at h
        cases h
        refine ⟨?_, ?_, honce⟩ <;> simp [SshTask.CanReport, hworker, hcancel]
    | false =>
        simp only [hcancel] at h
        cases h
        refine ⟨?_, ?_, honce⟩ <;> simp [SshTask.CanReport, hworker, hcancel]
  · rename_i outcome hworker
    cases hfinished : task.finished with
    | true =>
        simp only [hfinished] at h
        cases h
        refine ⟨?_, ?_, honce⟩ <;> simp [SshTask.CanReport, hworker, hfinished]
    | false =>
        simp only [hfinished] at h
        cases h
        refine ⟨?_, ?_, honce⟩ <;> simp [SshTask.CanReport, hworker, hfinished]
  · rename_i outcome hworker
    cases h
    refine ⟨?_, ?_, honce⟩ <;> simp [SshTask.CanReport, hworker]
  · cases h

theorem taskMove_monitorDone (task : SshTask RemoteOpenResult) :
    TaskMove task { task with monitorDone := true } none :=
  ⟨fun hreport _ => hreport, fun hreport => hreport.elim id (by simp), fun honce => honce⟩

/-- The timeout is published only while no one cancelled. -/
theorem taskMove_timeOut {task : SshTask RemoteOpenResult} (hcancel : task.cancelFlag = false)
    (hfinished : task.finished = false) (label : String) :
    TaskMove task { (task.timeOut label).1 with monitorDone := true } (task.timeOut label).2 := by
  refine ⟨fun _ hnone => ?_, fun _ => ?_, fun honce => honce.timeOut label⟩
  · simp [SshTask.timeOut, hfinished] at hnone
  · unfold SshTask.CanReport
    split
    · trivial
    · exact hfinished
    · exact ⟨hfinished, hcancel⟩

/-! ### Steps -/

/-- A step is one move or two, and numbers one request at most. -/
def LoadMoves (strict : Prop) (w w' : RemoteWindow) : Prop :=
  ∃ middle, LoadMove strict w middle ∧ LoadMove strict middle w' ∧
    (middle.nextRemoteRequestId = w.nextRemoteRequestId ∨
      w'.nextRemoteRequestId = middle.nextRemoteRequestId)

theorem LoadMoves.of_move {strict : Prop} (h : LoadMove strict w w') : LoadMoves strict w w' :=
  ⟨w, .kept (.of_eq rfl rfl rfl rfl (Or.inl rfl)), h, Or.inl rfl⟩

/-- Asking for a file is one move, or two when no password is asked for. -/
theorem loadMoves_openRemoteFileWithTarget (strict : Prop) (spec : RemoteSpec)
    (target : Option Nat) (cached : Bool)
    (hidle : ∀ tabId ∈ target, w.inflightRemoteRestore tabId = false) :
    LoadMoves strict w (w.openRemoteFileWithTarget spec target cached) := by
  refine ⟨_, .requested { spec with passwordInUrl := none } target hidle, ?_⟩
  have hkept : LoadMove strict (w.requestOpen { spec with passwordInUrl := none } target).1
      (w.requestOpen { spec with passwordInUrl := none } target).1 :=
    .kept (.of_eq rfl rfl rfl rfl (Or.inl rfl))
  have hspawn : LoadMove strict (w.requestOpen { spec with passwordInUrl := none } target).1
      ((w.requestOpen { spec with passwordInUrl := none } target).1.spawnSshOpenTask
        w.openRequests.length (w.requestOpen { spec with passwordInUrl := none } target).2
        spec.user) := by
    cases target with
    | none =>
        refine .spawned _ _ _ ?_ rfl (fun _ tabId htab => ?_)
        · simp [requestOpen]
        · cases htab
    | some tabId =>
        refine .spawned _ _ _ ?_ rfl (fun _ other htab => ?_)
        · simp [requestOpen]
        · cases htab
          simp [requestOpen]
  show LoadMove strict _ (if hasPassword spec cached then _ else _) ∧
    (_ ∨ (if hasPassword spec cached then _ else _ : RemoteWindow).nextRemoteRequestId = _)
  split
  · exact ⟨hspawn, Or.inr rfl⟩
  · exact ⟨hkept, Or.inr rfl⟩

theorem loadMoves_setActiveTab (strict : Prop) (tabId : Nat) (cached : Bool) :
    LoadMoves strict w (w.setActiveTab tabId cached) := by
  have hsame : LoadMoves strict w w := .of_move (.kept (.of_eq rfl rfl rfl rfl (Or.inl rfl)))
  unfold setActiveTab
  split
  · exact hsame
  · split
    · split
      · rename_i hload
        refine loadMoves_openRemoteFileWithTarget strict _ _ cached fun other hother => ?_
        cases hother
        simp only [Bool.and_eq_true, Bool.not_eq_true'] at hload
        exact hload.1.2
      · exact hsame
    · exact hsame

theorem loadMove_answerOpenPassword {strict : Prop} {index : Nat} {answer : Option String}
    (hlatest : strict → ∀ entered ∈ answer, ∀ request ∈ w.openRequests[index]?,
      ∀ tabId ∈ request.targetTabId,
        w.latestRemoteOpenRequestByTab tabId = request.targetRequestId)
    (h : w.answerOpenPassword index answer = some w') : LoadMove strict w w' := by
  unfold answerOpenPassword at h
  split at h
  · rename_i request hrequest
    split at h
    · rename_i hstage
      cases h
      exact .dismissed index request hrequest hstage
    · rename_i entered hstage
      simp only at h
      split at h
      · cases h
        exact .kept (.of_eq rfl rfl rfl rfl (Or.inl rfl))
      · cases h
        exact .spawned index request _ hrequest hstage fun hstrict =>
          hlatest hstrict entered rfl request hrequest
    · cases h
  · cases h

theorem loadMove_openWorks {strict : Prop} {index : Nat} {outcome : Except String RemoteOpenResult}
    (h : w.openWorks index outcome = some w') : LoadMove strict w w' := by
  rcases Option.bind_eq_some_iff.mp h with ⟨⟨request, task⟩, hopen, hmap⟩
  rcases Option.map_eq_some_iff.mp hmap with ⟨task', hworks, rfl⟩
  rcases openTask_eq_some hopen with ⟨hrequest, hstage⟩
  exact .ran index request task task' none hrequest hstage (taskMove_works hworks)

theorem loadMove_advanceOpen {strict : Prop} {index : Nat}
    (h : w.advanceOpen index = some w') : LoadMove strict w w' := by
  rcases Option.bind_eq_some_iff.mp h with ⟨⟨request, task⟩, hopen, hmap⟩
  rcases Option.map_eq_some_iff.mp hmap with ⟨⟨task', stored⟩, hadvance, rfl⟩
  rcases openTask_eq_some hopen with ⟨hrequest, hstage⟩
  exact .ran index request task task' stored hrequest hstage (taskMove_advance hadvance)

theorem pollMonitor_open {request : OpenRequest} {task : SshTask RemoteOpenResult}
    (hstage : request.stage = .running task) (pastDeadline : Bool) :
    ∃ task' published, request.pollMonitor task pastDeadline =
      ({ request with stage := .running task' }, published) ∧ TaskMove task task' published := by
  unfold OpenRequest.pollMonitor
  split
  · exact ⟨_, _, rfl, taskMove_monitorDone task⟩
  · rename_i hwaiting
    have hopen : task.finished = false ∧ task.cancelFlag = false := by simpa using hwaiting
    split
    · exact ⟨_, _, rfl, taskMove_timeOut hopen.2 hopen.1 _⟩
    · refine ⟨task, none, ?_, fun hreport _ => hreport, fun hreport => by simpa using hreport,
        fun honce => honce⟩
      rw [← hstage]

theorem loadMove_monitorOpen {strict : Prop} {index : Nat} {pastDeadline : Bool}
    (h : w.monitorOpen index pastDeadline = some w') : LoadMove strict w w' := by
  rcases Option.bind_eq_some_iff.mp h with ⟨⟨request, task⟩, hopen, hpoll⟩
  rcases openTask_eq_some hopen with ⟨hrequest, hstage⟩
  rcases Option.ite_none_left_eq_some.mp hpoll with ⟨_, hpolled⟩
  rcases pollMonitor_open hstage pastDeadline with ⟨task', published, heq, hmove⟩
  rw [heq] at hpolled
  cases hpolled
  exact .ran index request task task' published hrequest hstage hmove

theorem loadMove_cancelOpen {strict : Prop} {index : Nat}
    (h : w.cancelOpen index = some w') : LoadMove strict w w' := by
  rcases Option.bind_eq_some_iff.mp h with ⟨⟨request, task⟩, hopen, hmap⟩
  rcases Option.map_eq_some_iff.mp hmap with ⟨task', hcancel, rfl⟩
  rcases openTask_eq_some hopen with ⟨hrequest, hstage⟩
  exact .cancelled index request task task' hrequest hstage hcancel

/-! ### Steps of saves -/

theorem loadsKept_saveFile {tabId : Nat} {cached : Bool}
    (h : w.saveFile encodings tabId cached = some w') : LoadsKept w w' := by
  have hsame : LoadsKept w w := .of_eq rfl rfl rfl rfl (Or.inl rfl)
  unfold saveFile at h
  split at h
  · cases h
  · split at h
    · split at h
      · cases h
        exact hsame
      · split at h
        · cases h
          exact hsame
        · cases h
          unfold saveRemoteFile
          simp only
          split
          · exact .of_eq rfl rfl rfl rfl (Or.inr rfl)
          · exact .of_eq rfl rfl rfl rfl (Or.inl rfl)
    · cases h

theorem loadsKept_answerSavePassword {index : Nat} {answer : Option String}
    (h : w.answerSavePassword index answer = some w') : LoadsKept w w' := by
  unfold answerSavePassword at h
  split at h
  · split at h
    · cases h
      exact .of_eq rfl rfl rfl rfl (Or.inl rfl)
    · simp only at h
      split at h
      · cases h
        exact .of_eq rfl rfl rfl rfl (Or.inl rfl)
      · cases h
        exact .of_eq rfl rfl rfl rfl (Or.inr rfl)
    · cases h
  · cases h

theorem saveTask_eq_some {index : Nat} {request : SaveRequest} {task : SshTask Unit}
    (h : w.saveTask index = some (request, task)) :
    w.saveRequests[index]? = some request ∧ request.stage = .running task := by
  unfold saveTask at h
  rcases Option.bind_eq_some_iff.mp h with ⟨found, hfound, hmap⟩
  rcases Option.map_eq_some_iff.mp hmap with ⟨running, hrunning, hpair⟩
  cases hpair
  exact ⟨hfound, RequestStage.eq_running hrunning⟩

theorem loadsKept_handleRemoteSaveResult (w : RemoteWindow) (tabId : Nat) (requestId : Option Nat)
    (savedContent : String) (result : Except String Unit) :
    LoadsKept w (w.handleRemoteSaveResult tabId requestId savedContent result) := by
  unfold handleRemoteSaveResult
  split
  · exact .of_eq rfl rfl rfl rfl (Or.inl rfl)
  · cases result with
    | error msg => exact .of_eq rfl rfl rfl rfl (Or.inl rfl)
    | ok done =>
        simp only
        split
        · refine ⟨rfl, rfl, fun _ _ h => h, fun other hother => ⟨?_, rfl⟩, Or.inl rfl⟩
          by_cases hsame : other = tabId
          · subst hsame
            simp at hother
          · simpa [hsame] using hother
        · exact .of_eq rfl rfl rfl rfl (Or.inl rfl)

theorem loadsKept_monitorSave {index : Nat} {pastDeadline : Bool}
    (h : w.monitorSave index pastDeadline = some w') : LoadsKept w w' := by
  rcases Option.bind_eq_some_iff.mp h with ⟨⟨request, task⟩, _, hpoll⟩
  rcases Option.ite_none_left_eq_some.mp hpoll with ⟨_, hpolled⟩
  cases hpolled
  unfold deliverSave
  split
  · exact .of_eq rfl rfl rfl rfl (Or.inl rfl)
  · rename_i result _
    have hresult := (w.updateSaveTask index
      (request.pollMonitor task pastDeadline).1).loadsKept_handleRemoteSaveResult request.tabId
        request.requestId request.savedContent result
    exact ⟨hresult.requests, hresult.queue, hresult.latest, hresult.inflight, hresult.counter⟩

theorem loadsKept_cancelSave {index : Nat} (h : w.cancelSave index = some w') :
    LoadsKept w w' := by
  rcases Option.bind_eq_some_iff.mp h with ⟨⟨request, task⟩, _, hmap⟩
  rcases Option.map_eq_some_iff.mp hmap with ⟨task', _, rfl⟩
  simp only
  split
  · exact .of_eq rfl rfl rfl rfl (Or.inl rfl)
  · exact .of_eq rfl rfl rfl rfl (Or.inl rfl)

theorem loadsKept_saveWorks {index : Nat} {outcome : Except String Unit}
    (h : w.saveWorks index outcome = some w') : LoadsKept w w' := by
  rcases Option.bind_eq_some_iff.mp h with ⟨⟨request, task⟩, _, hworks⟩
  rcases Option.ite_none_left_eq_some.mp hworks with ⟨_, hmap⟩
  rcases Option.map_eq_some_iff.mp hmap with ⟨task', _, rfl⟩
  exact .of_eq rfl rfl rfl rfl (Or.inl rfl)

theorem loadsKept_upload {index count : Nat} (h : w.upload index count = some w') :
    LoadsKept w w' := by
  rcases Option.bind_eq_some_iff.mp h with ⟨⟨request, task⟩, _, hupload⟩
  simp only at hupload
  split at hupload
  · cases hupload
    exact .of_eq rfl rfl rfl rfl (Or.inl rfl)
  · cases hupload

theorem loadsKept_advanceSave {index : Nat} (h : w.advanceSave index = some w') :
    LoadsKept w w' := by
  rcases Option.bind_eq_some_iff.mp h with ⟨⟨request, task⟩, _, hmap⟩
  rcases Option.map_eq_some_iff.mp hmap with ⟨⟨task', stored⟩, _, rfl⟩
  exact .of_eq rfl rfl rfl rfl (Or.inl rfl)

/-- Closing a tab forgets its requests, and takes it out of the loads in flight. -/
theorem loadsKept_removeTabById (tabId : Nat) : LoadsKept w (w.removeTabById tabId) := by
  unfold removeTabById
  split
  · refine ⟨rfl, rfl, fun other id hother => ?_, fun other hother => ?_, Or.inl rfl⟩
    · by_cases hsame : other = tabId
      · subst hsame
        simp at hother
      · simpa [hsame] using hother
    · by_cases hsame : other = tabId
      · subst hsame
        simp at hother
      · simpa [hsame] using hother
  · exact .of_eq rfl rfl rfl rfl (Or.inl rfl)

/-! ### Draining the queue -/

theorem applyToTab_loads (tabId : Nat) (result : Except String RemoteOpenResult) :
    ∃ tabs pending, w.applyToTab tabId result =
      { w with tabs := tabs, pendingRemoteRestore := pending } := by
  unfold applyToTab
  split
  · exact ⟨_, _, rfl⟩
  · exact ⟨_, _, rfl⟩

theorem applyToNewTab_loads (result : Except String RemoteOpenResult) :
    ∃ tabs next, w.applyToNewTab result = { w with tabs := tabs, nextTabId := next } := by
  unfold applyToNewTab
  split
  · exact ⟨_, _, rfl⟩
  · exact ⟨_, _, rfl⟩

/-- An outcome takes its tab out of the loads in flight, and its request out of the latest. -/
theorem loadsKept_processOutcome (w : RemoteWindow) (outcome : PendingRemoteOpenOutcome) :
    LoadsKept w (w.processOutcome outcome) ∧
      (w.processOutcome outcome).nextRemoteRequestId = w.nextRemoteRequestId := by
  unfold processOutcome
  split
  · rcases applyToNewTab_loads (w := w) outcome.result with ⟨tabs, next, heq⟩
    rw [heq]
    exact ⟨.of_eq rfl rfl rfl rfl (Or.inl rfl), rfl⟩
  · rename_i tabId htab
    split
    · exact ⟨.of_eq rfl rfl rfl rfl (Or.inl rfl), rfl⟩
    · simp only
      generalize hlatest : (if outcome.targetRequestId.isSome then
        Function.update w.latestRemoteOpenRequestByTab tabId none
        else w.latestRemoteOpenRequestByTab) = latest
      have hshrink : ∀ other, latest other = w.latestRemoteOpenRequestByTab other ∨
          (other = tabId ∧ latest other = none) := by
        intro other
        subst hlatest
        split
        · by_cases hsame : other = tabId
          · exact Or.inr ⟨hsame, by simp [hsame]⟩
          · exact Or.inl (Function.update_of_ne hsame _ _)
        · exact Or.inl rfl
      rcases applyToTab_loads (w := { w with
        latestRemoteOpenRequestByTab := latest
        inflightRemoteRestore := Function.update w.inflightRemoteRestore tabId false }) tabId
          outcome.result with ⟨tabs, pending, heq⟩
      rw [heq]
      refine ⟨⟨rfl, rfl, fun other id hid => ?_, fun other hother => ?_, Or.inl rfl⟩, rfl⟩
      · rcases hshrink other with hsame | ⟨_, hnone⟩
        · exact hsame ▸ hid
        · have hid' : latest other = some id := hid
          rw [hnone] at hid'
          cases hid'
      · have hother' : Function.update w.inflightRemoteRestore tabId false other = true := hother
        have hne : other ≠ tabId := by
          rintro rfl
          simp at hother'
        rw [Function.update_of_ne hne] at hother'
        exact ⟨hother', (hshrink other).resolve_right fun h => hne h.1⟩

theorem LoadsKept.trans {w'' : RemoteWindow} (h : LoadsKept w w') (h' : LoadsKept w' w'')
    (hcounter : w''.nextRemoteRequestId = w'.nextRemoteRequestId) : LoadsKept w w'' where
  requests := h'.requests.trans h.requests
  queue := h'.queue.trans h.queue
  latest := fun tabId id hid => h.latest tabId id (h'.latest tabId id hid)
  inflight := fun tabId hinflight => by
    rcases h'.inflight tabId hinflight with ⟨hmiddle, hsame⟩
    rcases h.inflight tabId hmiddle with ⟨hold, hsame'⟩
    exact ⟨hold, hsame.trans hsame'⟩
  counter := by
    rw [hcounter]
    exact h.counter

theorem loadsKept_drain (outcomes : List PendingRemoteOpenOutcome) (w : RemoteWindow) :
    LoadsKept w (outcomes.foldl processOutcome w) ∧
      (outcomes.foldl processOutcome w).nextRemoteRequestId = w.nextRemoteRequestId := by
  induction outcomes generalizing w with
  | nil => exact ⟨.of_eq rfl rfl rfl rfl (Or.inl rfl), rfl⟩
  | cons outcome outcomes ih =>
      rcases loadsKept_processOutcome w outcome with ⟨hfirst, hcounter⟩
      rcases ih (w.processOutcome outcome) with ⟨hrest, hcounter'⟩
      exact ⟨hfirst.trans hrest hcounter', hcounter'.trans hcounter⟩

/-- Every step is one or two moves of the loads. -/
theorem loadMoves_of_step (strict : Prop) {action : RemoteAction}
    (hlatest : strict → ∀ index entered, action = .answerOpenPassword index (some entered) →
      ∀ request ∈ w.openRequests[index]?, ∀ tabId ∈ request.targetTabId,
        w.latestRemoteOpenRequestByTab tabId = request.targetRequestId)
    (h : w.step encodings action = some w') :
    LoadMoves strict w w' := by
  have hmove : LoadMove strict w w' → LoadMoves strict w w' := LoadMoves.of_move
  have hkept : LoadsKept w w' → LoadMoves strict w w' := fun hkept => .of_move (.kept hkept)
  cases action with
  | openRemote spec cached =>
      cases h
      show LoadMoves strict w (w.doOpenRemoteFile spec cached)
      unfold doOpenRemoteFile
      split
      · exact .of_move (.kept (.of_eq rfl rfl rfl rfl (Or.inl rfl)))
      · exact loadMoves_openRemoteFileWithTarget strict spec none cached fun _ h => by cases h
  | setActiveTab tabId cached =>
      cases h
      exact loadMoves_setActiveTab strict tabId cached
  | answerOpenPassword index answer =>
      refine hmove (loadMove_answerOpenPassword (fun hstrict entered hentered => ?_) h)
      rw [Option.mem_def] at hentered
      exact hlatest hstrict index entered (by rw [hentered])
  | openWorks index outcome => exact hmove (loadMove_openWorks h)
  | advanceOpen index => exact hmove (loadMove_advanceOpen h)
  | monitorOpen index pastDeadline => exact hmove (loadMove_monitorOpen h)
  | cancelOpen index => exact hmove (loadMove_cancelOpen h)
  | processPendingRemoteFiles =>
      cases h
      exact hmove .processed
  | edit tabId content =>
      cases h
      exact hkept (.of_eq rfl rfl rfl rfl (Or.inl rfl))
  | replace tabId content =>
      cases h
      exact hkept (.of_eq rfl rfl rfl rfl (Or.inl rfl))
  | save tabId cached => exact hkept (loadsKept_saveFile h)
  | answerSavePassword index answer => exact hkept (loadsKept_answerSavePassword h)
  | upload index count => exact hkept (loadsKept_upload h)
  | saveWorks index outcome => exact hkept (loadsKept_saveWorks h)
  | advanceSave index => exact hkept (loadsKept_advanceSave h)
  | monitorSave index pastDeadline => exact hkept (loadsKept_monitorSave h)
  | cancelSave index => exact hkept (loadsKept_cancelSave h)
  | closeTab tabId =>
      cases h
      exact hkept (loadsKept_removeTabById tabId)

end Fulgur.RemoteWindow
