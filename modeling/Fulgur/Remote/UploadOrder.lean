import Fulgur.Files.CleanTabs
import Fulgur.Remote.Tokens

/-! # Uploads of a remote tab

A save reaches the remote file at some moment of its upload, and its text becomes
the baseline of the tab when it reports success. In between the save can be
superseded, cancelled, timed out or fail, and then the file holds a text that the
tab knows nothing of; and an upload that is superseded can still reach the file
after a newer one. A replacement of the search bar changes the buffer and leaves
the tab clean. In a run that avoids this, a clean tab with no upload outstanding
shows what its remote file holds.
-/

namespace Fulgur

open LabelledRun
open Session (IsBaseline)

def SshTask.isOver {Work : Type} (task : SshTask Work) : Bool :=
  match task.worker with
  | .done => task.monitorDone
  | _ => false

/-- A remote file holds a text: as the tab's encoding writes it. -/
def RemoteHolds (encodings : Encodings) (file : Option (List UInt8)) (encoding text : String) :
    Prop :=
  ∃ bytes ∈ file, encodeForSave encodings text encoding = .encoded bytes

instance (encodings : Encodings) (file : Option (List UInt8)) (encoding text : String) :
    Decidable (RemoteHolds encodings file encoding text) :=
  inferInstanceAs (Decidable (∃ bytes ∈ file, _))

/-- What a run is made of that edits and saves and nothing else. -/
def RemoteAction.OfSaves : RemoteAction → Prop
  | .edit _ _ => True
  | .replace _ _ => True
  | .save _ _ => True
  | .answerSavePassword _ _ => True
  | .upload _ _ => True
  | .saveWorks _ _ => True
  | .advanceSave _ => True
  | .monitorSave _ _ => True
  | .cancelSave _ => True
  | _ => False

instance (action : RemoteAction) : Decidable action.OfSaves :=
  match action with
  | .edit _ _ => isTrue trivial
  | .replace _ _ => isTrue trivial
  | .save _ _ => isTrue trivial
  | .answerSavePassword _ _ => isTrue trivial
  | .upload _ _ => isTrue trivial
  | .saveWorks _ _ => isTrue trivial
  | .advanceSave _ => isTrue trivial
  | .monitorSave _ _ => isTrue trivial
  | .cancelSave _ => isTrue trivial
  | .openRemote _ _ => isFalse id
  | .setActiveTab _ _ => isFalse id
  | .answerOpenPassword _ _ => isFalse id
  | .openWorks _ _ => isFalse id
  | .advanceOpen _ => isFalse id
  | .monitorOpen _ _ => isFalse id
  | .cancelOpen _ => isFalse id
  | .processPendingRemoteFiles => isFalse id
  | .closeTab _ => isFalse id

/-- The upload reached the server, and its outcome is still waited for. -/
def SaveRequest.Landing (request : SaveRequest) : Prop :=
  request.written.isSome ∧ ∃ task ∈ request.stage.task, task.monitorDone = false

instance (request : SaveRequest) : Decidable request.Landing :=
  inferInstanceAs (Decidable (_ ∧ ∃ task ∈ request.stage.task, _))

namespace RemoteWindow

def opened (encodings : Encodings) (tabId : Nat) (spec : RemoteSpec) (bytes : List UInt8)
    (server : RemoteSpec → Option (List UInt8)) : RemoteWindow where
  tabs := [EditorTab.fromRemoteLoaded tabId (readRemoteFile encodings spec bytes)]
  nextTabId := tabId + 1
  nextRemoteRequestId := 1
  latestRemoteOpenRequestByTab := fun _ => none
  latestRemoteSaveRequestByTab := fun _ => none
  pendingRemoteRestore := fun _ => false
  inflightRemoteRestore := fun _ => false
  pendingRemoteOpen := []
  openRequests := []
  saveRequests := []
  server := Function.update server spec (some bytes)

/-- With no upload outstanding, the file of a clean tab holds its buffer. -/
def NewestOnServer (encodings : Encodings) (w : RemoteWindow) : Prop :=
  (∀ request ∈ w.saveRequests, ∀ task ∈ request.stage.task, task.isOver = true) →
    ∀ tab ∈ w.tabs, tab.modified = false → ∀ spec, tab.location = .remote spec →
      RemoteHolds encodings (w.server spec) tab.encoding tab.content.toText

/-- No upload that reached the server is still to be reported. -/
def NoneLanding (w : RemoteWindow) : Prop := ∀ request ∈ w.saveRequests, ¬request.Landing

instance (w : RemoteWindow) : Decidable w.NoneLanding :=
  inferInstanceAs (Decidable (∀ request ∈ w.saveRequests, ¬request.Landing))

/--
What a run must keep to. Its buffers are of `Texts`, and no replacement changes an
unmodified one. An upload reaches the server only as the latest save of its tab
and while its outcome is waited for; from then on until it is reported no save is
spawned, and it is not cancelled, does not fail and does not run past its deadline.
A success of a large tab is not delivered to a buffer of the saved length with
another text.
-/
def UploadStep (Texts : String → Prop) (w : RemoteWindow) (action : RemoteAction) : Prop :=
  w.nextRemoteRequestId + 1 < 2 ^ 64 ∧
    match action with
    | .edit _ content => Texts content.toText
    | .replace tabId content => Texts content.toText ∧ ∀ tab ∈ w.tabs, tab.id = tabId →
        tab.modified = true ∨ content.toText = tab.content.toText
    | .save _ cached => cached = true → w.NoneLanding
    | .answerSavePassword _ (some _) => w.NoneLanding
    | .upload index _ =>
        ∀ request ∈ w.saveRequests[index]?, ∀ task ∈ request.stage.task,
          task.CanReport ∧ task.monitorDone = false ∧
            w.latestRemoteSaveRequestByTab request.tabId = request.requestId
    | .saveWorks index (.error _) => ∀ request ∈ w.saveRequests[index]?, ¬request.Landing
    | .cancelSave index => ∀ request ∈ w.saveRequests[index]?, ¬request.Landing
    | .monitorSave index pastDeadline =>
        ∀ request ∈ w.saveRequests[index]?,
          (pastDeadline = true → request.Landing → request.pendingSaveResult.isSome) ∧
            (request.pendingSaveResult.any Except.isOk → ∀ tab ∈ w.tabs,
              tab.id = request.tabId → tab.largeFile = true →
                tab.content.len = request.savedContent.utf8ByteSize →
                  tab.content.toText = request.savedContent)
    | _ => True

instance (Texts : String → Prop) [DecidablePred Texts] (w : RemoteWindow) (action : RemoteAction) :
    Decidable (w.UploadStep Texts action) :=
  match action with
  | .edit _ content => inferInstanceAs (Decidable (_ ∧ Texts content.toText))
  | .replace _ _ => inferInstanceAs (Decidable (_ ∧ _ ∧ ∀ tab ∈ w.tabs, _ → _))
  | .save _ cached => inferInstanceAs (Decidable (_ ∧ (cached = true → w.NoneLanding)))
  | .answerSavePassword _ (some _) => inferInstanceAs (Decidable (_ ∧ w.NoneLanding))
  | .upload index _ => inferInstanceAs (Decidable (_ ∧ ∀ request ∈ w.saveRequests[index]?,
      ∀ task ∈ request.stage.task, task.CanReport ∧ task.monitorDone = false ∧ _))
  | .saveWorks index (.error _) => inferInstanceAs (Decidable (_ ∧
      ∀ request ∈ w.saveRequests[index]?, ¬request.Landing))
  | .cancelSave index => inferInstanceAs (Decidable (_ ∧
      ∀ request ∈ w.saveRequests[index]?, ¬request.Landing))
  | .monitorSave index pastDeadline => inferInstanceAs (Decidable (_ ∧
      ∀ request ∈ w.saveRequests[index]?,
        (pastDeadline = true → request.Landing → request.pendingSaveResult.isSome) ∧
          (request.pendingSaveResult.any Except.isOk → ∀ tab ∈ w.tabs, _ → _ → _ → _)))
  | .answerSavePassword _ none => inferInstanceAs (Decidable (_ ∧ True))
  | .saveWorks _ (.ok _) => inferInstanceAs (Decidable (_ ∧ True))
  | .advanceSave _ => inferInstanceAs (Decidable (_ ∧ True))
  | .openRemote _ _ => inferInstanceAs (Decidable (_ ∧ True))
  | .setActiveTab _ _ => inferInstanceAs (Decidable (_ ∧ True))
  | .answerOpenPassword _ _ => inferInstanceAs (Decidable (_ ∧ True))
  | .openWorks _ _ => inferInstanceAs (Decidable (_ ∧ True))
  | .advanceOpen _ => inferInstanceAs (Decidable (_ ∧ True))
  | .monitorOpen _ _ => inferInstanceAs (Decidable (_ ∧ True))
  | .cancelOpen _ => inferInstanceAs (Decidable (_ ∧ True))
  | .processPendingRemoteFiles => inferInstanceAs (Decidable (_ ∧ True))
  | .closeTab _ => inferInstanceAs (Decidable (_ ∧ True))

end RemoteWindow

/-! ## How a save stands -/

/-- What a save of the tab sends, and under which text. -/
structure SaveRequest.Saves (encodings : Encodings) (Texts : String → Prop) (tab : EditorTab)
    (spec : RemoteSpec) (request : SaveRequest) : Prop where
  owner : request.tabId = tab.id
  spec : request.spec = spec
  text : Texts request.savedContent
  bytes : encodeForSave encodings request.savedContent tab.encoding = .encoded request.savedBytes

/-- A save that has written nothing has no success to report. -/
def SaveRequest.Fruitless (request : SaveRequest) (task : SshTask Unit) : Prop :=
  match task.worker with
  | .working => request.pendingSaveResult = none
  | .worked outcome | .publishing outcome | .storing outcome =>
      request.pendingSaveResult = none ∧ outcome.isOk = false
  | .done => request.pendingSaveResult.any Except.isOk = false

/-- A save whose upload has written `count` bytes is on its way to report success. -/
def SaveRequest.OnCourse (request : SaveRequest) (task : SshTask Unit) (count : Nat) : Prop :=
  task.cancelFlag = false ∧
    match task.worker with
    | .working => task.finished = false ∧ request.pendingSaveResult = none
    | .worked outcome | .publishing outcome =>
        (task.finished = false ∧ request.pendingSaveResult = none) ∧
          outcome.isOk ∧ request.savedBytes.length ≤ count
    | .storing outcome =>
        request.pendingSaveResult = none ∧ outcome.isOk ∧ request.savedBytes.length ≤ count
    | .done =>
        request.pendingSaveResult.any Except.isOk ∧ request.savedBytes.length ≤ count

namespace RemoteWindow

/-- How the requests of a window stand to the server while nothing gets out of order. -/
structure InOrder (w : RemoteWindow) (request : SaveRequest) : Prop where
  waiting : request.stage.task = none → request.written = none ∧ request.pendingSaveResult = none
  fruitless : ∀ task ∈ request.stage.task, request.written = none → request.Fruitless task
  landing : ∀ task ∈ request.stage.task, ∀ count ∈ request.written, task.monitorDone = false →
    request.OnCourse task count ∧
      w.latestRemoteSaveRequestByTab request.tabId = request.requestId ∧
      w.server request.spec = some (request.savedBytes.take count)

end RemoteWindow

/-- The remote file holds the text behind the baseline, or that of a large clean buffer. -/
def Synced (encodings : Encodings) (Texts : String → Prop) (file : Option (List UInt8))
    (tab : EditorTab) : Prop :=
  ∃ text, Texts text ∧ RemoteHolds encodings file tab.encoding text ∧
    if tab.largeFile then tab.modified = false → tab.content.toText = text
    else IsBaseline tab text

/-- What holds in a window whose one tab is saved in order. -/
structure Uploads (encodings : Encodings) (Texts : String → Prop) (spec : RemoteSpec)
    (tab : EditorTab) (w : RemoteWindow) : Prop where
  tabs : w.tabs = [tab]
  place : tab.location = .remote spec
  user : spec.user.isSome
  password : spec.passwordInUrl = none
  text : Texts tab.content.toText
  flag : tab.largeFile = false → tab.modified = false → IsBaseline tab tab.content.toText
  saves : ∀ request ∈ w.saveRequests, request.Saves encodings Texts tab spec
  order : ∀ request ∈ w.saveRequests, w.InOrder request
  synced : w.NoneLanding → Synced encodings Texts (w.server spec) tab

open RemoteWindow (Tokens saveTask_eq_some)

section

variable {encodings : Encodings} {Texts : String → Prop} {spec : RemoteSpec} {tab : EditorTab}
  {w w' : RemoteWindow}

/-! ### Edits and results on the tab -/

theorem Synced.edit {file : Option (List UInt8)} (h : Synced encodings Texts file tab)
    (content : Rope) : Synced encodings Texts file (tab.edit content) := by
  rcases h with ⟨text, htext, hholds, hbaseline⟩
  cases hlarge : tab.largeFile with
  | true =>
      have hedit : tab.edit content = { tab with content := content, modified := true } := by
        simp [EditorTab.edit, EditorTab.onContentChange, hlarge]
      rw [hedit]
      refine ⟨text, htext, hholds, ?_⟩
      simp [hlarge]
  | false =>
      rcases tab.edit_eq content with ⟨modified, hedit⟩
      rw [hedit]
      have hsame : IsBaseline tab text := by simpa [hlarge] using hbaseline
      refine ⟨text, htext, hholds, ?_⟩
      rw [if_neg (by simp [hlarge])]
      exact hsame

/-- What holds of the saves and the file holds when the buffer and the flag change. -/
theorem Uploads.changed (h : Uploads encodings Texts spec tab w) (content : Rope) (modified : Bool)
    {tabs : List EditorTab} (htabs : tabs = [{ tab with content := content, modified := modified }])
    (htext : Texts content.toText)
    (hflag : tab.largeFile = false → modified = false → IsBaseline tab content.toText)
    (hsynced : w.NoneLanding → Synced encodings Texts (w.server spec)
      { tab with content := content, modified := modified }) :
    Uploads encodings Texts spec { tab with content := content, modified := modified }
      { w with tabs := tabs } where
  tabs := htabs
  place := h.place
  user := h.user
  password := h.password
  text := htext
  flag := hflag
  saves := fun request hrequest => ⟨(h.saves request hrequest).owner,
    (h.saves request hrequest).spec, (h.saves request hrequest).text,
    (h.saves request hrequest).bytes⟩
  order := fun request hrequest => ⟨(h.order request hrequest).waiting,
    (h.order request hrequest).fruitless, (h.order request hrequest).landing⟩
  synced := hsynced

theorem Uploads.edit (h : Uploads encodings Texts spec tab w) {content : Rope}
    (htext : Texts content.toText) (tabId : Nat) :
    ∃ tab', Uploads encodings Texts spec tab'
      { w with tabs := updateEditorTab w.tabs tabId fun tab => tab.edit content } := by
  by_cases hid : tab.id = tabId
  · refine ⟨tab.edit content, ?_⟩
    have hflag : tab.largeFile = false → (tab.edit content).modified = false →
        IsBaseline tab content.toText := by
      intro hlarge
      have hedit : tab.edit content = { tab with content := content }.checkModified := by
        simp [EditorTab.edit, EditorTab.onContentChange, hlarge]
      rw [hedit]
      exact isBaseline_of_checkModified { tab with content := content } hlarge
    have hsynced := fun hnone => (h.synced hnone).edit content
    rcases tab.edit_eq content with ⟨modified, hedit⟩
    rw [hedit] at hflag hsynced ⊢
    exact h.changed content modified (by simp [updateEditorTab, h.tabs, hid, hedit]) htext hflag
      hsynced
  · refine ⟨tab, ?_⟩
    have htabs : updateEditorTab w.tabs tabId (fun tab => tab.edit content) = w.tabs := by
      simp [updateEditorTab, h.tabs, hid]
    rw [htabs]
    exact h

/-- A replacement leaves the flag: it may change the text of a modified tab only. -/
theorem Synced.setValue {file : Option (List UInt8)} (h : Synced encodings Texts file tab)
    {content : Rope} (hkept : tab.modified = true ∨ content.toText = tab.content.toText) :
    Synced encodings Texts file (tab.setValue content) := by
  rcases h with ⟨text, htext, hholds, hbaseline⟩
  refine ⟨text, htext, hholds, ?_⟩
  show if tab.largeFile then tab.modified = false → content.toText = text
    else IsBaseline tab text
  cases hlarge : tab.largeFile with
  | true =>
      rw [hlarge] at hbaseline
      intro hclean
      rcases hkept with hmodified | hsame
      · rw [hmodified] at hclean
        cases hclean
      · exact hsame.trans (hbaseline hclean)
  | false => simpa [hlarge] using hbaseline

theorem Uploads.replace (h : Uploads encodings Texts spec tab w) {content : Rope} {tabId : Nat}
    (htext : Texts content.toText) (hkept : ∀ tab ∈ w.tabs, tab.id = tabId →
      tab.modified = true ∨ content.toText = tab.content.toText) :
    ∃ tab', Uploads encodings Texts spec tab'
      { w with tabs := updateEditorTab w.tabs tabId fun tab => tab.setValue content } := by
  by_cases hid : tab.id = tabId
  · have hkeeps := hkept tab (by simp [h.tabs]) hid
    refine ⟨tab.setValue content, ?_⟩
    refine h.changed content tab.modified ?_ htext ?_ ?_
    · simp [updateEditorTab, h.tabs, hid, EditorTab.setValue]
    · intro hlarge hclean
      rcases hkeeps with hmodified | hsame
      · rw [hmodified] at hclean
        cases hclean
      · rw [hsame]
        exact h.flag hlarge hclean
    · exact fun hnone => (h.synced hnone).setValue hkeeps
  · refine ⟨tab, ?_⟩
    have htabs : updateEditorTab w.tabs tabId (fun tab => tab.setValue content) = w.tabs := by
      simp [updateEditorTab, h.tabs, hid]
    rw [htabs]
    exact h

/-- The tab after the success of a save that the file now holds. -/
theorem synced_takeRemoteSave {file : Option (List UInt8)} {savedContent : String}
    (htext : Texts savedContent) (hholds : RemoteHolds encodings file tab.encoding savedContent)
    (hlarge : tab.largeFile = true → tab.content.len = savedContent.utf8ByteSize →
      tab.content.toText = savedContent) :
    Synced encodings Texts file (tab.takeRemoteSave savedContent) := by
  refine ⟨savedContent, htext, hholds, ?_⟩
  cases hmode : tab.largeFile with
  | true =>
      have hmode' : (tab.takeRemoteSave savedContent).largeFile = true := hmode
      rw [hmode']
      intro hclean
      refine hlarge hmode ?_
      by_contra hlen
      have hdiffers : (tab.takeRemoteSave savedContent).modified = true := by
        simp [EditorTab.takeRemoteSave, EditorTab.setOriginalContentFromStr,
          EditorTab.checkModified, EditorTab.contentDiffersFromOriginal, hmode, hlen]
      rw [hdiffers] at hclean
      cases hclean
  | false =>
      have hmode' : (tab.takeRemoteSave savedContent).largeFile = false := hmode
      rw [hmode']
      simp [IsBaseline, EditorTab.takeRemoteSave, EditorTab.setOriginalContentFromStr,
        EditorTab.checkModified, hmode]

theorem flag_takeRemoteSave (savedContent : String) (hlarge : tab.largeFile = false)
    (hclean : (tab.takeRemoteSave savedContent).modified = false) :
    IsBaseline (tab.takeRemoteSave savedContent) tab.content.toText :=
  isBaseline_of_checkModified
    { tab.setOriginalContentFromStr savedContent with modified := false } hlarge hclean

/-! ### One request changes -/

variable {request request' : SaveRequest} {task task' : SshTask Unit} {index : Nat}

theorem landing_iff (hstage : request.stage = .running task) :
    request.Landing ↔ request.written.isSome ∧ task.monitorDone = false := by
  simp [SaveRequest.Landing, hstage, RequestStage.task]

/-- A request whose upload is not under way is in order whatever the window says. -/
theorem inOrder_of_not_landing (h : w.InOrder request) (hidle : ¬request.Landing) :
    w'.InOrder request where
  waiting := h.waiting
  fruitless := h.fruitless
  landing := by
    intro task htask count hcount hmonitor
    exact absurd ⟨by rw [hcount]; rfl, task, htask, hmonitor⟩ hidle

theorem inOrder_of_kept (h : w.InOrder request) (hserver : w'.server = w.server)
    (hlatest : request.stage.task.isSome →
      w.latestRemoteSaveRequestByTab request.tabId = request.requestId →
        w'.latestRemoteSaveRequestByTab request.tabId = request.requestId) :
    w'.InOrder request where
  waiting := h.waiting
  fruitless := h.fruitless
  landing := by
    intro task htask count hcount hmonitor
    rcases h.landing task htask count hcount hmonitor with ⟨hcourse, hown, hfile⟩
    exact ⟨hcourse, hlatest (by rw [htask]; rfl) hown, hserver ▸ hfile⟩

/-- One request is replaced, and the tab and the remote file are left alone. -/
theorem Uploads.set (h : Uploads encodings Texts spec tab w) (htabs : w'.tabs = w.tabs)
    (hserver : w'.server = w.server)
    (hrequests : w'.saveRequests = w.saveRequests.set index request')
    (hrequest : w.saveRequests[index]? = some request)
    (hsaves : request'.Saves encodings Texts tab spec) (horder : w'.InOrder request')
    (hothers : ∀ (j : Nat) (other : SaveRequest), j ≠ index → w.saveRequests[j]? = some other →
      w'.InOrder other)
    (hlanding : request.Landing → request'.Landing) : Uploads encodings Texts spec tab w' where
  tabs := htabs.trans h.tabs
  place := h.place
  user := h.user
  password := h.password
  text := h.text
  flag := h.flag
  saves := by
    intro other hother
    rw [hrequests] at hother
    rcases List.mem_or_eq_of_mem_set hother with hold | rfl
    · exact h.saves other hold
    · exact hsaves
  order := by
    intro other hother
    rcases List.getElem?_of_mem hother with ⟨j, hj⟩
    rw [hrequests] at hj
    rcases Tickets.getElem?_set_cases hj with ⟨hne, hold⟩ | ⟨_, rfl⟩
    · exact hothers j other hne hold
    · exact horder
  synced := by
    intro hnone
    rw [hserver]
    apply h.synced
    intro other hother hland
    rcases List.getElem?_of_mem hother with ⟨j, hj⟩
    by_cases hne : index = j
    · subst hne
      rw [hrequest] at hj
      cases hj
      refine hnone request' ?_ (hlanding hland)
      rw [hrequests]
      exact List.mem_set (List.getElem?_eq_some_iff.mp hrequest).1 request'
    · refine hnone other (List.mem_of_getElem? (i := j) ?_) hland
      rw [hrequests, List.getElem?_set_ne hne]
      exact hj

theorem Uploads.idle_others (h : Uploads encodings Texts spec tab w) (htokens : Tokens w)
    (hrequest : w.saveRequests[index]? = some request) (hrunning : request.stage.task.isSome)
    (hlatest : w.latestRemoteSaveRequestByTab request.tabId = request.requestId) :
    ∀ (j : Nat) (other : SaveRequest), j ≠ index → w.saveRequests[j]? = some other →
      ¬other.Landing := by
  rintro j other hne hother ⟨hwritten, task, htask, hmonitor⟩
  rcases Option.isSome_iff_exists.mp hwritten with ⟨count, hcount⟩
  have hmem := List.mem_of_getElem? hrequest
  have hlatest' := ((h.order other (List.mem_of_getElem? hother)).landing task htask count hcount
    hmonitor).2.1
  rcases Option.isSome_iff_exists.mp (htokens.saves.running request hmem hrunning) with ⟨id, hid⟩
  apply hne
  apply htokens.saves.distinct j index other request id hother hrequest _ hid
  rw [← hlatest', (h.saves other (List.mem_of_getElem? hother)).owner,
    ← (h.saves request hmem).owner, hlatest, hid]

/-! ### Steps of a running save -/

theorem SaveRequest.Saves.of_eq (h : request.Saves encodings Texts tab spec)
    (howner : request'.tabId = request.tabId) (hspec : request'.spec = request.spec)
    (htext : request'.savedContent = request.savedContent)
    (hbytes : request'.savedBytes = request.savedBytes) :
    request'.Saves encodings Texts tab spec where
  owner := howner.trans h.owner
  spec := hspec.trans h.spec
  text := htext ▸ h.text
  bytes := by rw [htext, hbytes, h.bytes]

/--
A running save moves on, and the tab and the remote file are left alone. What has
written nothing stays without a success, and what is landing stays on course.
-/
theorem Uploads.ran (h : Uploads encodings Texts spec tab w) (htokens : Tokens w)
    {pending : Option (Except String Unit)} (htabs : w'.tabs = w.tabs)
    (hserver : w'.server = w.server)
    (hrequests : w'.saveRequests = w.saveRequests.set index
      { request with stage := .running task', pendingSaveResult := pending })
    (hrequest : w.saveRequests[index]? = some request) (hstage : request.stage = .running task)
    (hlatest : ∀ other ≠ index, ∀ newer ∈ w.saveRequests[other]?, ∀ id, newer.requestId = some id →
      w.latestRemoteSaveRequestByTab newer.tabId = some id →
        w'.latestRemoteSaveRequestByTab newer.tabId = some id)
    (hfruitless : request.written = none → request.Fruitless task →
      ({ request with
        stage := .running task', pendingSaveResult := pending } : SaveRequest).Fruitless task')
    (hdone : task'.monitorDone = false → task.monitorDone = false)
    (hlanding : request.Landing → task'.monitorDone = false ∧
      w'.latestRemoteSaveRequestByTab request.tabId = w.latestRemoteSaveRequestByTab request.tabId ∧
      ∀ count ∈ request.written, request.OnCourse task count → ({ request with
        stage := .running task'
        pendingSaveResult := pending } : SaveRequest).OnCourse task' count) :
    Uploads encodings Texts spec tab w' := by
  have hmem := List.mem_of_getElem? hrequest
  have hrunning : task ∈ request.stage.task := by simp [RequestStage.task, hstage]
  apply h.set htabs hserver hrequests hrequest
  case hsaves => exact (h.saves request hmem).of_eq rfl rfl rfl rfl
  case horder =>
      constructor
      · intro hidle
        cases hidle
      · intro other hother hwritten
        cases hother
        exact hfruitless hwritten ((h.order request hmem).fruitless task hrunning hwritten)
      · intro other hother count hcount hmonitor
        cases hother
        have hland := (landing_iff hstage).mpr ⟨by rw [hcount]; rfl, hdone hmonitor⟩
        rcases hlanding hland with ⟨_, hsame, hcourse⟩
        rcases (h.order request hmem).landing task hrunning count hcount (hdone hmonitor) with
          ⟨hbefore, hown, hfile⟩
        exact ⟨hcourse count hcount hbefore, hsame.trans hown, hserver ▸ hfile⟩
  case hothers =>
      intro j other hne hother
      apply inOrder_of_kept (h.order other (List.mem_of_getElem? hother)) hserver
      intro hrunning hown
      have hnumber := htokens.saves.running other (List.mem_of_getElem? hother) hrunning
      rcases Option.isSome_iff_exists.mp hnumber with ⟨id, hid⟩
      rw [hid] at hown ⊢
      exact hlatest j hne other hother id hid hown
  case hlanding =>
      intro hland
      exact (landing_iff rfl).mpr ⟨hland.1, (hlanding hland).1⟩

/-- The operation ends: in success only with everything written, in failure only with nothing. -/
theorem Uploads.saveWorks (h : Uploads encodings Texts spec tab w) (htokens : Tokens w)
    {outcome : Except String Unit}
    (hguard : outcome.isOk = false → ∀ request ∈ w.saveRequests[index]?, ¬request.Landing)
    (hstep : w.saveWorks index outcome = some w') : Uploads encodings Texts spec tab w' := by
  rcases Option.bind_eq_some_iff.mp hstep with ⟨⟨request, task⟩, hsave, hworks⟩
  rcases Option.ite_none_left_eq_some.mp hworks with ⟨hwhole, hmap⟩
  rcases Option.map_eq_some_iff.mp hmap with ⟨task', htask, rfl⟩
  rcases saveTask_eq_some hsave with ⟨hrequest, hstage⟩
  have hworker : task.worker = .working ∧ task' = { task with worker := .worked outcome } := by
    unfold SshTask.works at htask
    split at htask
    · rename_i hworking
      exact ⟨hworking, (Option.some.inj htask).symm⟩
    · cases htask
  rcases hworker with ⟨hworking, rfl⟩
  refine h.ran htokens rfl rfl rfl hrequest hstage (fun _ _ _ _ _ _ hlatest => hlatest)
    ?hfruitless id ?hlanding
  case hfruitless =>
      intro hwritten hbefore
      rw [SaveRequest.Fruitless, hworking] at hbefore
      refine ⟨hbefore, ?_⟩
      by_contra hok
      rw [Bool.not_eq_false] at hok
      rw [hwritten, hok] at hwhole
      exact hwhole rfl
  case hlanding =>
      intro hland
      refine ⟨((landing_iff hstage).mp hland).2, rfl, ?_⟩
      rintro count hcount ⟨hcancel, hcourse⟩
      rw [hworking] at hcourse
      have hok : outcome.isOk = true := by
        by_contra hfailed
        exact hguard (Bool.not_eq_true _ ▸ hfailed) request hrequest hland
      rw [hcount, hok] at hwhole
      exact ⟨hcancel, hcourse, hok, by simpa using hwhole⟩

/-- The worker goes on after the operation; what it stores is what the operation ended with. -/
theorem Uploads.advanceSave (h : Uploads encodings Texts spec tab w) (htokens : Tokens w)
    (hstep : w.advanceSave index = some w') : Uploads encodings Texts spec tab w' := by
  rcases Option.bind_eq_some_iff.mp hstep with ⟨⟨request, task⟩, hsave, hmap⟩
  rcases Option.map_eq_some_iff.mp hmap with ⟨⟨task', stored⟩, htask, rfl⟩
  rcases saveTask_eq_some hsave with ⟨hrequest, hstage⟩
  have hmonitor : task'.monitorDone = task.monitorDone := by
    unfold SshTask.advance at htask
    split at htask
    · split at htask <;> cases htask <;> rfl
    · split at htask <;> cases htask <;> rfl
    · cases htask
      rfl
    · cases htask
  refine h.ran htokens rfl rfl rfl hrequest hstage (fun _ _ _ _ _ _ hlatest => hlatest)
    ?hfruitless (fun hdone => hmonitor ▸ hdone) ?hlanding
  case hfruitless =>
      intro _ hbefore
      unfold SaveRequest.Fruitless at hbefore
      unfold SshTask.advance at htask
      split at htask
      · rename_i outcome hworked
        rw [hworked] at hbefore
        split at htask <;> cases htask
        · show request.pendingSaveResult.any Except.isOk = false
          rw [hbefore.1]
          rfl
        · exact hbefore
      · rename_i outcome hpublishing
        rw [hpublishing] at hbefore
        split at htask <;> cases htask
        · show request.pendingSaveResult.any Except.isOk = false
          rw [hbefore.1]
          rfl
        · exact hbefore
      · rename_i outcome hstoring
        rw [hstoring] at hbefore
        cases htask
        exact hbefore.2
      · cases htask
  case hlanding =>
      intro hland
      refine ⟨hmonitor.trans ((landing_iff hstage).mp hland).2, rfl, ?_⟩
      rintro count _ ⟨hcancel, hcourse⟩
      unfold SshTask.advance at htask
      split at htask
      · rename_i outcome hworked
        rw [hworked] at hcourse
        rw [if_neg (by simp [hcancel])] at htask
        cases htask
        exact ⟨hcancel, hcourse⟩
      · rename_i outcome hpublishing
        rw [hpublishing] at hcourse
        rw [if_neg (by simp [hcourse.1.1])] at htask
        cases htask
        exact ⟨hcancel, hcourse.1.2, hcourse.2⟩
      · rename_i outcome hstoring
        rw [hstoring] at hcourse
        cases htask
        exact ⟨hcancel, hcourse.2⟩
      · cases htask

/-- A save that has not reached the server is cancelled. -/
theorem Uploads.cancelSave (h : Uploads encodings Texts spec tab w) (htokens : Tokens w)
    (hbound : w.nextRemoteRequestId + 1 < 2 ^ 64)
    (hguard : ∀ request ∈ w.saveRequests[index]?, ¬request.Landing)
    (hstep : w.cancelSave index = some w') : Uploads encodings Texts spec tab w' := by
  have hkeeps : w.KeepsNewer (.cancelSave index) := htokens.keepsNewer ⟨hbound, trivial⟩
  have hnewer := hkeeps w' hstep
  rcases Option.bind_eq_some_iff.mp hstep with ⟨⟨request, task⟩, hsave, hmap⟩
  rcases Option.map_eq_some_iff.mp hmap with ⟨task', htask, hwindow⟩
  rcases saveTask_eq_some hsave with ⟨hrequest, hstage⟩
  have hidle := hguard request hrequest
  have hcancelled : task' = { task with cancelFlag := true } := by
    unfold SshTask.cancel at htask
    split at htask
    · cases htask
    · exact (Option.some.inj htask).symm
  subst hcancelled
  have hkept : w'.tabs = w.tabs ∧ w'.server = w.server ∧ w'.saveRequests =
      w.saveRequests.set index
        { request with stage := .running { task with cancelFlag := true } } := by
    rw [← hwindow]
    simp only
    split <;> exact ⟨rfl, rfl, rfl⟩
  refine h.ran htokens hkept.1 hkept.2.1 hkept.2.2 hrequest hstage hnewer
    (fun _ hfruitless => hfruitless) id (fun hland => absurd hland hidle)

/-- A failure, or nothing, changes neither the tabs nor the server. -/
theorem deliverSave_kept (w : RemoteWindow) (request : SaveRequest)
    {delivered : Option (Except String Unit)} (hfailed : delivered.any Except.isOk = false) :
    (w.deliverSave request delivered).tabs = w.tabs ∧
      (w.deliverSave request delivered).server = w.server := by
  unfold RemoteWindow.deliverSave
  split
  · exact ⟨rfl, rfl⟩
  · rename_i result
    cases result with
    | ok done => cases hfailed
    | error message =>
        unfold RemoteWindow.handleRemoteSaveResult
        split <;> exact ⟨rfl, rfl⟩

/-- The monitor stops without a success for a save that is not landing. -/
theorem Uploads.monitorFailed (h : Uploads encodings Texts spec tab w) (htokens : Tokens w)
    (hbound : w.nextRemoteRequestId + 1 < 2 ^ 64) {pastDeadline : Bool}
    (hrequest : w.saveRequests[index]? = some request) (hstage : request.stage = .running task)
    (hidle : ¬request.Landing) {delivered : Option (Except String Unit)}
    (hpolled : request.pollMonitor task pastDeadline =
      ({ request with stage := .running task', pendingSaveResult := none }, delivered))
    (hfailed : delivered.any Except.isOk = false) (hworker : task'.worker = task.worker)
    (hmonitor : task'.monitorDone = true)
    (hstep : w.monitorSave index pastDeadline = some w') :
    Uploads encodings Texts spec tab w' := by
  have hkeeps : w.KeepsNewer (.monitorSave index pastDeadline) :=
    htokens.keepsNewer ⟨hbound, trivial⟩
  have hnewer := hkeeps w' hstep
  rcases Option.bind_eq_some_iff.mp hstep with ⟨⟨found, running⟩, hsave, hpoll⟩
  rcases saveTask_eq_some hsave with ⟨hfound, hrunning⟩
  rcases Option.ite_none_left_eq_some.mp hpoll with ⟨_, hwindow⟩
  cases hrequest.symm.trans hfound
  cases hstage.symm.trans hrunning
  rw [Option.some.injEq, hpolled] at hwindow
  have hkept := deliverSave_kept (w.updateSaveTask index { request with
    stage := .running task', pendingSaveResult := none }) request hfailed
  have hrequests : w'.saveRequests = w.saveRequests.set index { request with
      stage := .running task', pendingSaveResult := none } := by
    rw [← hwindow, RemoteWindow.deliverSave_requests]
    rfl
  rw [hwindow] at hkept
  refine h.ran htokens hkept.1 hkept.2 hrequests hrequest hstage hnewer ?_ ?_
    (fun hland => absurd hland hidle)
  · intro _ hbefore
    unfold SaveRequest.Fruitless at hbefore ⊢
    rw [hworker]
    cases hstate : task.worker <;> simp_all
  · intro hdone
    rw [hmonitor] at hdone
    cases hdone

theorem handleRemoteSaveResult_ok {tabId : Nat} {requestId : Option Nat} (savedContent : String)
    (htabs : w.tabs = [tab]) (hid : tabId = tab.id)
    (hlatest : w.latestRemoteSaveRequestByTab tabId = requestId) :
    (w.handleRemoteSaveResult tabId requestId savedContent (.ok ())).tabs =
        [tab.takeRemoteSave savedContent] ∧
      (w.handleRemoteSaveResult tabId requestId savedContent (.ok ())).server = w.server := by
  unfold RemoteWindow.handleRemoteSaveResult
  rw [if_neg (by simp [hlatest])]
  simp [htabs, hid, updateEditorTab]

/-- The monitor delivers the success of a save that is landing. -/
theorem Uploads.monitorSucceeded (h : Uploads encodings Texts spec tab w) (htokens : Tokens w)
    (hrequest : w.saveRequests[index]? = some request) (hstage : request.stage = .running task)
    (hland : request.Landing) (hsuccess : request.pendingSaveResult = some (.ok ()))
    (hlarge : tab.largeFile = true → tab.content.len = request.savedContent.utf8ByteSize →
      tab.content.toText = request.savedContent) :
    Uploads encodings Texts spec (tab.takeRemoteSave request.savedContent)
      ((w.updateSaveTask index { request with
        pendingSaveResult := none
        stage := .running { task with monitorDone := true } }).handleRemoteSaveResult
          request.tabId request.requestId request.savedContent (.ok ())) := by
  have hmem := List.mem_of_getElem? hrequest
  have hrunning : task ∈ request.stage.task := by simp [RequestStage.task, hstage]
  have hsaves := h.saves request hmem
  rcases (landing_iff hstage).mp hland with ⟨hwritten, hmonitor⟩
  rcases Option.isSome_iff_exists.mp hwritten with ⟨count, hcount⟩
  rcases (h.order request hmem).landing task hrunning count hcount hmonitor with
    ⟨⟨_, hcourse⟩, hlatest, hfile⟩
  have hwhole : request.savedBytes.length ≤ count := by
    cases hworker : task.worker <;> simp only [hworker, hsuccess] at hcourse
    case working => cases hcourse.2
    case worked => exact hcourse.2.2
    case publishing => exact hcourse.2.2
    case storing => cases hcourse.1
    case done => exact hcourse.2
  rw [List.take_of_length_le hwhole, hsaves.spec] at hfile
  have htabs : (w.updateSaveTask index { request with
      pendingSaveResult := none
      stage := .running { task with monitorDone := true } }).tabs = [tab] := h.tabs
  have hafter := handleRemoteSaveResult_ok request.savedContent htabs hsaves.owner hlatest
  have hrequests := (w.updateSaveTask index { request with
    pendingSaveResult := none
    stage := .running { task with monitorDone := true } }).handleRemoteSaveResult_requests
      request.tabId request.requestId request.savedContent (.ok ())
  have hidle := h.idle_others htokens hrequest (by rw [hrunning]; rfl) hlatest
  constructor
  case tabs => exact hafter.1
  case place => exact h.place
  case user => exact h.user
  case password => exact h.password
  case text => exact h.text
  case flag => exact flag_takeRemoteSave request.savedContent
  case saves =>
      intro other hother
      rw [hrequests] at hother
      rcases List.mem_or_eq_of_mem_set hother with hold | rfl
      · exact ⟨(h.saves other hold).owner, (h.saves other hold).spec, (h.saves other hold).text,
          (h.saves other hold).bytes⟩
      · exact ⟨hsaves.owner, hsaves.spec, hsaves.text, hsaves.bytes⟩
  case order =>
      intro other hother
      rcases List.getElem?_of_mem hother with ⟨j, hj⟩
      rw [hrequests] at hj
      rcases Tickets.getElem?_set_cases hj with ⟨hne, hold⟩ | ⟨_, rfl⟩
      · exact inOrder_of_not_landing (h.order other (List.mem_of_getElem? hold))
          (hidle j other hne hold)
      · constructor
        · intro hwaiting
          cases hwaiting
        · intro running _ hnone
          rw [hcount] at hnone
          cases hnone
        · intro running hrunning _ _ hdone
          cases hrunning
          cases hdone
  case synced =>
      intro _
      rw [hafter.2]
      refine synced_takeRemoteSave hsaves.text ?_ hlarge
      exact ⟨request.savedBytes, hfile, hsaves.bytes⟩

theorem Uploads.onCourse (h : Uploads encodings Texts spec tab w) (hmem : request ∈ w.saveRequests)
    (hstage : request.stage = .running task) (hland : request.Landing) :
    ∃ count, request.OnCourse task count := by
  rcases (landing_iff hstage).mp hland with ⟨hwritten, hmonitor⟩
  rcases Option.isSome_iff_exists.mp hwritten with ⟨count, hcount⟩
  have hrunning : task ∈ request.stage.task := by simp [RequestStage.task, hstage]
  exact ⟨count, ((h.order request hmem).landing task hrunning count hcount hmonitor).1⟩

theorem SaveRequest.OnCourse.isOk {count : Nat} (h : request.OnCourse task count)
    {result : Except String Unit} (hresult : request.pendingSaveResult = some result) :
    result.isOk := by
  rcases h with ⟨_, hcourse⟩
  cases hworker : task.worker <;> simp only [hworker, hresult] at hcourse
  case working => cases hcourse.2
  case worked => cases hcourse.1.2
  case publishing => cases hcourse.1.2
  case storing => cases hcourse.1
  case done => exact hcourse.1

/-- The monitor finds no result: it goes on, or gives up a save that is not landing. -/
theorem Uploads.monitorWaited (h : Uploads encodings Texts spec tab w) (htokens : Tokens w)
    (hbound : w.nextRemoteRequestId + 1 < 2 ^ 64) {pastDeadline : Bool}
    (hrequest : w.saveRequests[index]? = some request) (hstage : request.stage = .running task)
    (hresult : request.pendingSaveResult = none)
    (hdeadline : pastDeadline = true → ¬request.Landing)
    (hstep : w.monitorSave index pastDeadline = some w') :
    Uploads encodings Texts spec tab w' := by
  have hmem := List.mem_of_getElem? hrequest
  have hsave : w.saveTask index = some (request, task) := by
    simp [RemoteWindow.saveTask, hrequest, hstage, RequestStage.task]
  by_cases hcancel : task.cancelFlag = true
  · have hidle : ¬request.Landing := by
      intro hland
      rcases h.onCourse hmem hstage hland with ⟨_, hcourse, _⟩
      rw [hcourse] at hcancel
      cases hcancel
    have hpolled : request.pollMonitor task pastDeadline =
        ({ request with
          stage := .running { task with monitorDone := true }, pendingSaveResult := none },
          none) := by
      simp [SaveRequest.pollMonitor, hresult, hcancel]
    exact h.monitorFailed htokens hbound hrequest hstage hidle hpolled rfl rfl rfl hstep
  · cases pastDeadline with
    | true =>
        have hpolled : request.pollMonitor task true =
            ({ request with
              stage := .running { (task.timeOut SSH_SAVE_TIMEOUT_LABEL).1 with monitorDone := true }
              pendingSaveResult := none },
              (task.timeOut SSH_SAVE_TIMEOUT_LABEL).2) := by
          simp [SaveRequest.pollMonitor, hresult, hcancel]
        refine h.monitorFailed htokens hbound hrequest hstage (hdeadline rfl) hpolled
          ?_ ?_ rfl hstep
        · unfold SshTask.timeOut
          split <;> rfl
        · show (task.timeOut SSH_SAVE_TIMEOUT_LABEL).1.worker = task.worker
          unfold SshTask.timeOut
          split <;> rfl
    | false =>
        have hsame : { request with
            stage := .running task, pendingSaveResult := none } = request := by
          rw [← hstage, ← hresult]
        have hpolled : request.pollMonitor task false = (request, none) := by
          simp [SaveRequest.pollMonitor, hresult, hcancel]
        rw [RemoteWindow.monitorSave, hsave] at hstep
        rcases Option.ite_none_left_eq_some.mp hstep with ⟨_, hwindow⟩
        simp only [hpolled, Option.some.injEq] at hwindow
        have hrequests : w'.saveRequests = w.saveRequests.set index
            { request with stage := .running task, pendingSaveResult := none } := by
          rw [← hwindow, hsame]
          rfl
        refine h.ran htokens (by rw [← hwindow]; rfl) (by rw [← hwindow]; rfl) hrequests hrequest
          hstage ?_ ?_ id ?_
        · intro _ _ _ _ _ _ hlatest
          rw [← hwindow]
          exact hlatest
        · intro _ hfruitless
          rw [hsame]
          exact hfruitless
        · intro hland
          refine ⟨((landing_iff hstage).mp hland).2, by rw [← hwindow]; rfl, ?_⟩
          intro count _ hcourse
          rw [hsame]
          exact hcourse

/-- A poll of the monitor: nothing happens, or it stops with a failure or a success. -/
theorem Uploads.monitorSave (h : Uploads encodings Texts spec tab w) (htokens : Tokens w)
    (hbound : w.nextRemoteRequestId + 1 < 2 ^ 64) {pastDeadline : Bool}
    (hguard : ∀ request ∈ w.saveRequests[index]?,
      (pastDeadline = true → request.Landing → request.pendingSaveResult.isSome) ∧
        (request.pendingSaveResult.any Except.isOk → ∀ tab ∈ w.tabs,
          tab.id = request.tabId → tab.largeFile = true →
            tab.content.len = request.savedContent.utf8ByteSize →
              tab.content.toText = request.savedContent))
    (hstep : w.monitorSave index pastDeadline = some w') :
    ∃ tab', Uploads encodings Texts spec tab' w' := by
  rcases Option.bind_eq_some_iff.mp hstep with ⟨⟨request, task⟩, hsave, hpoll⟩
  rcases saveTask_eq_some hsave with ⟨hrequest, hstage⟩
  rcases Option.ite_none_left_eq_some.mp hpoll with ⟨hmonitor, hwindow⟩
  have hmem := List.mem_of_getElem? hrequest
  rcases hguard request hrequest with ⟨hdeadline, hlarge⟩
  cases hresult : request.pendingSaveResult with
  | none =>
      refine ⟨tab, h.monitorWaited htokens hbound hrequest hstage hresult ?_ hstep⟩
      intro hpast hland
      have hsome := hdeadline hpast hland
      rw [hresult] at hsome
      cases hsome
  | some result =>
      have hpolled : request.pollMonitor task pastDeadline =
          ({ request with
            stage := .running { task with monitorDone := true }, pendingSaveResult := none },
            some result) := by
        simp [SaveRequest.pollMonitor, hresult]
      cases result with
      | error message =>
          have hidle : ¬request.Landing := by
            intro hland
            rcases h.onCourse hmem hstage hland with ⟨_, hcourse⟩
            have hok := hcourse.isOk hresult
            cases hok
          exact ⟨tab, h.monitorFailed htokens hbound hrequest hstage hidle hpolled rfl rfl rfl
            hstep⟩
      | ok done =>
          have hland : request.Landing := by
            refine (landing_iff hstage).mpr ⟨?_, by simpa using hmonitor⟩
            rw [Option.isSome_iff_ne_none]
            intro hnone
            have hfruitless := (h.order request hmem).fruitless task
              (by simp [RequestStage.task, hstage]) hnone
            cases hworker : task.worker <;>
              simp [SaveRequest.Fruitless, hworker, hresult, Except.isOk, Except.toBool]
                at hfruitless
          refine ⟨tab.takeRemoteSave request.savedContent, ?_⟩
          rw [Option.some.injEq, hpolled] at hwindow
          rw [← hwindow]
          refine h.monitorSucceeded htokens hrequest hstage hland hresult ?_
          exact hlarge (by rw [hresult]; rfl) tab (by simp [h.tabs])
            (h.saves request hmem).owner.symm

/-- An upload reaches the server as the latest save of its tab, which is landing from then on. -/
theorem Uploads.upload (h : Uploads encodings Texts spec tab w) (htokens : Tokens w) {count : Nat}
    (hguard : ∀ request ∈ w.saveRequests[index]?, ∀ task ∈ request.stage.task,
      task.CanReport ∧ task.monitorDone = false ∧
        w.latestRemoteSaveRequestByTab request.tabId = request.requestId)
    (hstep : w.upload index count = some w') : Uploads encodings Texts spec tab w' := by
  rcases Option.bind_eq_some_iff.mp hstep with ⟨⟨request, task⟩, hsave, hupload⟩
  rcases saveTask_eq_some hsave with ⟨hrequest, hstage⟩
  have hmem := List.mem_of_getElem? hrequest
  have hrunning : task ∈ request.stage.task := by simp [RequestStage.task, hstage]
  rcases hguard request hrequest task hrunning with ⟨hreport, hmonitor, hlatest⟩
  have hidle := h.idle_others htokens hrequest (by rw [hrunning]; rfl) hlatest
  simp only at hupload
  split at hupload
  · rename_i hworking
    cases hupload
    rw [SshTask.CanReport, hworking] at hreport
    have hpending : request.pendingSaveResult = none := by
      cases hwritten : request.written with
      | none =>
          have hfruitless := (h.order request hmem).fruitless task hrunning hwritten
          rw [SaveRequest.Fruitless, hworking] at hfruitless
          exact hfruitless
      | some before =>
          rcases (h.order request hmem).landing task hrunning before hwritten hmonitor with
            ⟨⟨_, hcourse⟩, _⟩
          rw [hworking] at hcourse
          exact hcourse.2
    constructor
    case tabs => exact h.tabs
    case place => exact h.place
    case user => exact h.user
    case password => exact h.password
    case text => exact h.text
    case flag => exact h.flag
    case saves =>
        intro other hother
        rcases List.mem_or_eq_of_mem_set hother with hold | rfl
        · exact h.saves other hold
        · exact (h.saves request hmem).of_eq rfl rfl rfl rfl
    case order =>
        intro other hother
        rcases List.getElem?_of_mem hother with ⟨j, hj⟩
        rcases Tickets.getElem?_set_cases hj with ⟨hne, hold⟩ | ⟨_, rfl⟩
        · exact inOrder_of_not_landing (h.order other (List.mem_of_getElem? hold))
            (hidle j other hne hold)
        · constructor
          · intro hwaiting
            rw [hrunning] at hwaiting
            cases hwaiting
          · intro _ _ hnone
            cases hnone
          · intro other hother before hbefore _
            cases hother.symm.trans hrunning
            cases hbefore
            refine ⟨⟨hreport.2, ?_⟩, hlatest, Function.update_self ..⟩
            rw [hworking]
            exact ⟨hreport.1, hpending⟩
    case synced =>
        intro hnone
        refine absurd ⟨rfl, task, hrunning, hmonitor⟩
          (hnone { request with written := some count } ?_)
        exact List.mem_set (List.getElem?_eq_some_iff.mp hrequest).1 _
  · cases hupload

/-! ### New saves -/

/-- A save is asked for; it waits for its password. -/
theorem Uploads.prompt (h : Uploads encodings Texts spec tab w) {bytes : List UInt8}
    (hbytes : encodeForSave encodings tab.content.toText tab.encoding = .encoded bytes) :
    Uploads encodings Texts spec tab { w with saveRequests := w.saveRequests ++
      [RemoteWindow.savePrompt tab.id spec tab.content.toText bytes] } where
  tabs := h.tabs
  place := h.place
  user := h.user
  password := h.password
  text := h.text
  flag := h.flag
  saves := by
    intro other hother
    rcases List.mem_append.mp hother with hold | hnew
    · exact h.saves other hold
    · rw [List.mem_singleton.mp hnew]
      refine ⟨rfl, ?_, h.text, hbytes⟩
      show { spec with passwordInUrl := none } = spec
      rw [← h.password]
  order := by
    intro other hother
    rcases List.mem_append.mp hother with hold | hnew
    · exact inOrder_of_kept (h.order other hold) rfl fun _ hlatest => hlatest
    · rw [List.mem_singleton.mp hnew]
      constructor
      · exact fun _ => ⟨rfl, rfl⟩
      · intro task htask
        cases htask
      · intro task htask
        cases htask
  synced := fun hnone => h.synced fun other hother => hnone other (List.mem_append_left _ hother)

/-- A save is spawned while no upload is landing. -/
theorem Uploads.spawn (h : Uploads encodings Texts spec tab w) (hnone : w.NoneLanding)
    (hrequest : w.saveRequests[index]? = some request) (hwaiting : request.stage.task = none) :
    Uploads encodings Texts spec tab (w.spawnSshSaveTask index request spec.user) := by
  have hmem := List.mem_of_getElem? hrequest
  rcases (h.order request hmem).waiting hwaiting with ⟨hwritten, hpending⟩
  have hspec := (h.saves request hmem).spec
  have hspawned : (w.spawnSshSaveTask index request spec.user).saveRequests =
      w.saveRequests.set index { request with
        spec := { request.spec with user := spec.user }
        requestId := some w.nextRemoteRequestId
        stage := .running .spawned } := rfl
  refine h.set rfl rfl hspawned hrequest ?_ ?_ ?_ ?_
  · refine (h.saves request hmem).of_eq rfl ?_ rfl rfl
    show { request.spec with user := spec.user } = request.spec
    rw [hspec]
  · constructor
    · intro hidle
      cases hidle
    · intro task htask _
      cases htask
      exact hpending
    · intro task htask count hcount
      rw [hwritten] at hcount
      cases hcount
  · intro j other hne hother
    have hold := List.mem_of_getElem? hother
    exact inOrder_of_not_landing (h.order other hold) (hnone other hold)
  · exact fun hland => absurd hland (hnone request hmem)

/-- A save of the tab: its text is refused, or asked for, or sent at once. -/
theorem Uploads.saveFile (h : Uploads encodings Texts spec tab w) {tabId : Nat} {cached : Bool}
    (hguard : cached = true → w.NoneLanding)
    (hstep : w.saveFile encodings tabId cached = some w') :
    Uploads encodings Texts spec tab w' := by
  unfold RemoteWindow.saveFile at hstep
  split at hstep
  · cases hstep
  · rename_i found hfound
    have hsame : found = tab := by
      have hmem := List.mem_of_find?_eq_some hfound
      rw [h.tabs] at hmem
      exact List.mem_singleton.mp hmem
    have hid : tab.id = tabId := by simpa [hsame] using List.find?_some hfound
    subst hsame
    rw [h.place] at hstep
    simp only at hstep
    split at hstep
    · cases hstep
      exact h
    · split at hstep
      · cases hstep
        exact h
      · rename_i bytes hbytes
        cases hstep
        have hprompt := h.prompt hbytes
        rw [← hid]
        unfold RemoteWindow.saveRemoteFile
        simp only
        split
        · rename_i hpassword
          have hcached : cached = true := by
            simpa [RemoteWindow.hasPassword, h.user, h.password] using hpassword
          refine hprompt.spawn ?_ (by simp) rfl
          intro other hother
          rcases List.mem_append.mp hother with hold | hnew
          · exact hguard hcached other hold
          · rw [List.mem_singleton.mp hnew]
            rintro ⟨hwritten, _⟩
            cases hwritten
        · exact hprompt

theorem Uploads.setRemoteUser (h : Uploads encodings Texts spec tab w) {user : String}
    (huser : spec.user = some user) : tab.setRemoteUser user = tab := by
  unfold EditorTab.setRemoteUser
  rw [h.place]
  simp only [← huser]
  rw [← h.place]

/-- The password dialog of a save is dismissed, left open, or answered. -/
theorem Uploads.answerSavePassword (h : Uploads encodings Texts spec tab w)
    {answer : Option String} (hguard : answer.isSome → w.NoneLanding)
    (hstep : w.answerSavePassword index answer = some w') :
    Uploads encodings Texts spec tab w' := by
  unfold RemoteWindow.answerSavePassword at hstep
  split at hstep
  · rename_i request hrequest
    have hmem := List.mem_of_getElem? hrequest
    split at hstep
    · rename_i hstage
      cases hstep
      have hwaiting := (h.order request hmem).waiting (by rw [hstage]; rfl)
      have hdismissed : (w.updateSaveTask index { request with stage := .dismissed }).saveRequests =
          w.saveRequests.set index { request with stage := .dismissed } := rfl
      refine h.set rfl rfl hdismissed hrequest
        ((h.saves request hmem).of_eq rfl rfl rfl rfl) ?_ ?_ ?_
      · constructor
        · exact fun _ => hwaiting
        · intro task htask
          cases htask
        · intro task htask
          cases htask
      · intro j other _ hother
        exact inOrder_of_kept (h.order other (List.mem_of_getElem? hother)) rfl
          fun _ hlatest => hlatest
      · rintro ⟨hwritten, _⟩
        rw [hwaiting.1] at hwritten
        cases hwritten
    · rename_i entered hstage
      simp only at hstep
      split at hstep
      · cases hstep
        exact h
      · cases hstep
        rcases Option.isSome_iff_exists.mp h.user with ⟨user, huser⟩
        have hentered : request.spec.user.getD entered = user := by
          rw [(h.saves request hmem).spec, huser]
          rfl
        have htabs : updateEditorTab w.tabs request.tabId (fun tab => tab.setRemoteUser user) =
            w.tabs := by
          simp [updateEditorTab, h.tabs, h.setRemoteUser huser]
        rw [hentered, htabs, ← huser]
        exact h.spawn (hguard rfl) hrequest (by rw [hstage]; rfl)
    · cases hstep
  · cases hstep

/-! ### Runs -/

/-- The file holds what its own text is written as: it has no byte order mark and no lossy byte. -/
def WrittenAsRead (encodings : Encodings) (bytes : List UInt8) : Prop :=
  encodeForSave encodings (detectEncodingAndDecode encodings bytes).content
    (detectEncodingAndDecode encodings bytes).encoding = .encoded bytes

instance (encodings : Encodings) (bytes : List UInt8) :
    Decidable (WrittenAsRead encodings bytes) :=
  inferInstanceAs (Decidable (_ = _))

/-- The one tab of a window that was just opened shows its file. -/
theorem uploads_opened {tabId : Nat} {spec : RemoteSpec} {bytes : List UInt8}
    (server : RemoteSpec → Option (List UInt8)) (huser : spec.user.isSome)
    (hpassword : spec.passwordInUrl = none)
    (htext : Texts (detectEncodingAndDecode encodings bytes).content)
    (hwritten : WrittenAsRead encodings bytes) :
    Uploads encodings Texts spec
      (EditorTab.fromRemoteLoaded tabId (readRemoteFile encodings spec bytes))
      (RemoteWindow.opened encodings tabId spec bytes server) where
  tabs := rfl
  place := rfl
  user := huser
  password := hpassword
  text := by simpa [EditorTab.fromRemoteLoaded, readRemoteFile] using htext
  flag := by simp [IsBaseline, EditorTab.fromRemoteLoaded]
  saves := by simp [RemoteWindow.opened]
  order := by simp [RemoteWindow.opened]
  synced := by
    intro _
    refine ⟨_, htext, ⟨bytes, Function.update_self .., hwritten⟩, ?_⟩
    split
    · intro _
      simp [EditorTab.fromRemoteLoaded, readRemoteFile]
    · rfl

theorem tokens_opened (tabId : Nat) (spec : RemoteSpec) (bytes : List UInt8)
    (server : RemoteSpec → Option (List UInt8)) :
    Tokens (RemoteWindow.opened encodings tabId spec bytes server) where
  loads :=
    { numbered := by simp [RemoteWindow.opened]
      distinct := Tickets.distinct_nil
      queued := by simp [RemoteWindow.opened]
      once := by simp [RemoteWindow.opened]
      reports := by simp [RemoteWindow.LatestReports, RemoteWindow.opened] }
  saves :=
    { numbered := by simp [RemoteWindow.opened]
      distinct := Tickets.distinct_nil
      running := by simp [RemoteWindow.opened]
      once := by simp [RemoteWindow.opened] }

theorem Uploads.step (h : Uploads encodings Texts spec tab w) (htokens : Tokens w)
    {action : RemoteAction} (hsaves : action.OfSaves) (hguard : w.UploadStep Texts action)
    (hstep : w.step encodings action = some w') : ∃ tab', Uploads encodings Texts spec tab' w' := by
  rcases hguard with ⟨hbound, hguard⟩
  cases action with
  | edit tabId content =>
      cases hstep
      exact h.edit hguard tabId
  | replace tabId content =>
      cases hstep
      exact h.replace hguard.1 hguard.2
  | save tabId cached => exact ⟨tab, h.saveFile hguard hstep⟩
  | answerSavePassword index answer =>
      refine ⟨tab, h.answerSavePassword (fun hsome => ?_) hstep⟩
      cases answer with
      | none => cases hsome
      | some entered => exact hguard
  | upload index count => exact ⟨tab, h.upload htokens hguard hstep⟩
  | saveWorks index outcome =>
      refine ⟨tab, h.saveWorks htokens (fun hfailed => ?_) hstep⟩
      cases outcome with
      | ok done => cases hfailed
      | error message => exact hguard
  | advanceSave index => exact ⟨tab, h.advanceSave htokens hstep⟩
  | monitorSave index pastDeadline => exact h.monitorSave htokens hbound hguard hstep
  | cancelSave index => exact ⟨tab, h.cancelSave htokens hbound hguard hstep⟩
  | _ => exact hsaves.elim

theorem tokens_step_of_saves (htokens : Tokens w) {action : RemoteAction} (hsaves : action.OfSaves)
    (hbound : w.nextRemoteRequestId + 1 < 2 ^ 64) (hstep : w.step encodings action = some w') :
    Tokens w' := by
  refine htokens.step ⟨hbound, ?_⟩ hstep
  cases action <;> first | exact trivial | exact hsaves.elim

/-- With no upload outstanding, a clean buffer is the text that the remote file holds. -/
theorem Uploads.newestOnServer (h : Uploads encodings Texts spec tab w)
    (hinj : ∀ a b, Texts a → Texts b →
      contentFingerprintFromStr a = contentFingerprintFromStr b → a = b) :
    w.NewestOnServer encodings := by
  intro hover other hother hclean otherSpec hplace
  rw [h.tabs] at hother
  have hsame := List.mem_singleton.mp hother
  subst hsame
  cases hplace.symm.trans h.place
  have hnone : w.NoneLanding := by
    rintro request hrequest ⟨_, task, htask, hmonitor⟩
    have hdone := hover request hrequest task htask
    unfold SshTask.isOver at hdone
    split at hdone
    · rw [hmonitor] at hdone
      cases hdone
    · cases hdone
  rcases h.synced hnone with ⟨text, htext, hholds, hbaseline⟩
  have hequal : other.content.toText = text := by
    cases hlarge : other.largeFile with
    | true =>
        rw [hlarge] at hbaseline
        exact hbaseline hclean
    | false =>
        rw [hlarge] at hbaseline
        exact hinj _ _ h.text htext ((h.flag hlarge hclean).trans hbaseline.symm)
  rw [hequal]
  exact hholds

end

def loadedSpec (spec : RemoteSpec) (user : String) : RemoteSpec :=
  { spec with user := some user, passwordInUrl := none }

def sampleSpec : RemoteSpec :=
  loadedSpec { host := "h", port := 22, user := none, path := "/n", passwordInUrl := none } "u"

/-- The remote file holds the text `a` and is open in tab `0`. -/
def sampleOpened : RemoteWindow :=
  RemoteWindow.opened sampleEncodings 0 sampleSpec [97] fun _ => none

/-- The upload of a save reaches the server and is reported. -/
def sampleUpload (index : Nat) : List RemoteAction :=
  [.upload index 1, .saveWorks index (.ok ()), .advanceSave index, .advanceSave index,
    .advanceSave index, .monitorSave index false]

def sampleSaved : List RemoteAction :=
  .edit 0 (.ofText "c") :: .replace 0 (.ofText "b") :: .save 0 true :: sampleUpload 0

/-- Of two saves the newer is uploaded and reported first, and the older lands on top of it. -/
def sampleOvertaken : List RemoteAction :=
  [.edit 0 (.ofText "b"), .save 0 true, .edit 0 (.ofText "c"), .save 0 true] ++
    sampleUpload 1 ++ sampleUpload 0

end Fulgur
