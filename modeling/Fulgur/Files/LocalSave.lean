import Mathlib.Logic.Function.Basic
import Fulgur.State.Restore

/-! # Saving a local file in the background

A save marks its tab saved at once, writes the file on a background thread and
reports back to the UI thread, which takes the mark back when the write failed.
A snapshot of the session can be taken at any moment in between, and quitting
takes the last one.
-/

namespace Fulgur

/-- Snapshot of a tab's saved-content baseline, captured before an optimistic save. -/
structure SavedBaseline where
  hash : UInt64
  len : Nat
  modified : Bool
deriving DecidableEq

/-- Dispatch-time context of a background save. -/
structure SaveCompletion where
  tabId : Nat
  path : PathBuf
  byteLen : Nat
  previousBaseline : Option SavedBaseline
deriving DecidableEq

structure BackgroundSave where
  completion : SaveCompletion
  bytes : List UInt8
  /-- Whether the write succeeded, once it has run. -/
  writeResult : Option Bool
deriving DecidableEq

def EditorTab.savedBaseline (tab : EditorTab) : SavedBaseline where
  hash := tab.originalContentHash
  len := tab.originalContentLen
  modified := tab.modified

def captureSavedBaseline (tabs : List EditorTab) (tabId : Nat) : Option SavedBaseline :=
  (tabs.find? fun tab => tab.id = tabId).map EditorTab.savedBaseline

def updateEditorTab (tabs : List EditorTab) (tabId : Nat) (f : EditorTab → EditorTab) :
    List EditorTab :=
  tabs.map fun tab => if tab.id = tabId then f tab else tab

def handleFailedSave (completion : SaveCompletion) (tab : EditorTab) : EditorTab :=
  match completion.previousBaseline with
  | none => tab
  | some baseline =>
      let rolledBack :=
        { tab with originalContentHash := baseline.hash, originalContentLen := baseline.len }
      if tab.largeFile then { rolledBack with modified := baseline.modified || tab.modified }
      else rolledBack.checkModified

inductive SessionPhase where
  | running
  /-- The last snapshot is written and the process is about to exit. -/
  | quitting
  | exited
deriving DecidableEq

/-- The open tabs of a session, the disk under them and what was persisted of them. -/
structure Session where
  tabs : List EditorTab
  disk : Disk
  inflightSaves : Nat → Option BackgroundSave
  /-- The snapshot in the mailbox of the snapshot writer. -/
  mailbox : Option (List TabState)
  persisted : List TabState
  phase : SessionPhase

namespace Session

/-- A session that has opened nothing yet. -/
def launched (disk : Disk) (persisted : List TabState) : Session where
  tabs := []
  disk := disk
  inflightSaves := fun _ => none
  mailbox := none
  persisted := persisted
  phase := .running

def openedTab (encodings : Encodings) (tabId : Nat) (path : PathBuf) (bytes : List UInt8) :
    EditorTab :=
  let decoded := detectEncodingAndDecode encodings bytes
  { EditorTab.fromFile
      { id := tabId, path := path, contents := decoded.content, encoding := decoded.encoding,
        isModified := false } with
    lossyDecode := decoded.lossy }

/-- Open a file in a new tab; a file that cannot be read or looks binary opens none. -/
def openFileFromPath (encodings : Encodings) (s : Session) (tabId : Nat) (path : PathBuf) :
    Option Session :=
  match (s.disk path).contents with
  | none => none
  | some bytes =>
      if looksBinary bytes then none
      else some { s with tabs := s.tabs ++ [openedTab encodings tabId path bytes] }

def dispatchedSave (s : Session) (tabId : Nat) (path : PathBuf) (bytes : List UInt8) :
    BackgroundSave where
  completion :=
    { tabId := tabId, path := path, byteLen := bytes.length,
      previousBaseline := captureSavedBaseline s.tabs tabId }
  bytes := bytes
  writeResult := none

/-- Dispatch the write of a tab's content; a save already in flight makes it a no-op. -/
def spawnLocalSave (s : Session) (tabId : Nat) (path : PathBuf) (bytes : List UInt8) : Session :=
  if (s.inflightSaves tabId).isSome then s
  else { s with
    inflightSaves :=
      Function.update s.inflightSaves tabId (some (s.dispatchedSave tabId path bytes))
    tabs := updateEditorTab s.tabs tabId EditorTab.markAsSaved }

/-- Save a local tab; a text its encoding cannot represent asks the user instead. -/
def saveFile (encodings : Encodings) (s : Session) (tabId : Nat) : Option Session :=
  match s.tabs.find? fun tab => tab.id = tabId with
  | none => none
  | some tab =>
      match tab.location with
      | .localPath path =>
          if tab.lossyDecode then some s
          else match encodeForSave encodings tab.content.toText tab.encoding with
            | .lossy => some s
            | .encoded bytes => some (s.spawnLocalSave tabId path bytes)
      | _ => none

def runWrite (s : Session) (tabId : Nat) (succeeds : Bool) (modified : Option String) :
    Option Session :=
  match s.inflightSaves tabId with
  | none => none
  | some save =>
      if save.writeResult.isSome then none
      else some { s with
        inflightSaves :=
          Function.update s.inflightSaves tabId (some { save with writeResult := some succeeds })
        disk :=
          if succeeds then s.disk.write save.completion.path save.bytes modified else s.disk }

/-- The outcome of a save reaches the UI thread. -/
def finishLocalSave (s : Session) (tabId : Nat) : Option Session :=
  match s.inflightSaves tabId with
  | none => none
  | some save =>
      match save.writeResult with
      | none => none
      | some true => some { s with inflightSaves := Function.update s.inflightSaves tabId none }
      | some false => some { s with
          inflightSaves := Function.update s.inflightSaves tabId none
          tabs := updateEditorTab s.tabs tabId (handleFailedSave save.completion) }

/-- The snapshot of the open tabs, with unsaved buffers kept. -/
def buildState (s : Session) : List TabState := buildTabStates true s.disk s.tabs

end Session

inductive SessionAction where
  | openFile (tabId : Nat) (path : PathBuf)
  | restoreTab (state : TabState)
  | edit (tabId : Nat) (content : Rope)
  /-- The search bar replaces matches in the buffer. -/
  | replace (tabId : Nat) (content : Rope)
  | save (tabId : Nat)
  | write (tabId : Nat) (succeeds : Bool) (modified : Option String)
  | complete (tabId : Nat)
  | saveStateAsync
  | flush (succeeds : Bool)
  | quit (succeeds : Bool)
  | exit

namespace Session

/-- What the UI thread can do while the session runs. -/
def uiStep (encodings : Encodings) (parse : String → Option Int) (s : Session) :
    SessionAction → Option Session
  | .openFile tabId path =>
      if s.tabs.all fun tab => tab.id ≠ tabId then s.openFileFromPath encodings tabId path else none
  | .restoreTab state =>
      if s.tabs.all fun tab => tab.id ≠ state.tabId then
        (restoreTabFromState encodings parse s.disk state state.tabId).map fun tab =>
          { s with tabs := s.tabs ++ [tab] }
      else none
  | .edit tabId content =>
      some { s with tabs := updateEditorTab s.tabs tabId fun tab => tab.edit content }
  | .replace tabId content =>
      some { s with tabs := updateEditorTab s.tabs tabId fun tab => tab.setValue content }
  | .save tabId => s.saveFile encodings tabId
  | .complete tabId => s.finishLocalSave tabId
  | .saveStateAsync => some { s with mailbox := some s.buildState }
  | .quit succeeds =>
      -- the blocking save supersedes the mailbox; when it fails the session goes on
      some { s with
        mailbox := none
        persisted := if succeeds then s.buildState else s.persisted
        phase := if succeeds then .quitting else .running }
  | _ => none

/-- One step of the session; background threads go on until the process exits. -/
def step (encodings : Encodings) (parse : String → Option Int) (s : Session)
    (action : SessionAction) : Option Session :=
  match action with
  | .write tabId succeeds modified =>
      if s.phase = .exited then none else s.runWrite tabId succeeds modified
  | .flush succeeds =>
      if s.phase = .exited then none
      else s.mailbox.map fun state =>
        { s with mailbox := none, persisted := if succeeds then state else s.persisted }
  | .exit => if s.phase = .quitting then some { s with phase := .exited } else none
  | action => if s.phase = .running then s.uiStep encodings parse action else none

end Session

/-! ## What each step does -/

theorem mem_updateEditorTab {tabs : List EditorTab} {tabId : Nat} {f : EditorTab → EditorTab}
    {tab : EditorTab} (h : tab ∈ updateEditorTab tabs tabId f) :
    ∃ old ∈ tabs, (old.id = tabId ∧ tab = f old) ∨ (old.id ≠ tabId ∧ tab = old) := by
  rcases List.mem_map.mp h with ⟨old, hold, htab⟩
  refine ⟨old, hold, ?_⟩
  by_cases hid : old.id = tabId
  · left
    rw [if_pos hid] at htab
    exact ⟨hid, htab.symm⟩
  · right
    rw [if_neg hid] at htab
    exact ⟨hid, htab.symm⟩

@[simp] theorem updateEditorTab_self (tabs : List EditorTab) (tabId : Nat) :
    updateEditorTab tabs tabId (fun tab => tab) = tabs := by
  simp [updateEditorTab]

/-- A change of a tab that leaves its identity, its place and its mode alone. -/
structure KeepsPlace (f : EditorTab → EditorTab) : Prop where
  id : ∀ tab, (f tab).id = tab.id
  location : ∀ tab, (f tab).location = tab.location
  largeFile : ∀ tab, (f tab).largeFile = tab.largeFile

theorem keepsPlace_self : KeepsPlace fun tab => tab := ⟨fun _ => rfl, fun _ => rfl, fun _ => rfl⟩

theorem keepsPlace_edit (content : Rope) : KeepsPlace fun tab => tab.edit content := by
  constructor <;> intro tab <;> rcases tab.edit_eq content with ⟨modified, hedit⟩ <;> rw [hedit]

theorem keepsPlace_setValue (content : Rope) : KeepsPlace fun tab => tab.setValue content :=
  ⟨fun _ => rfl, fun _ => rfl, fun _ => rfl⟩

theorem edit_content (tab : EditorTab) (content : Rope) : (tab.edit content).content = content := by
  rcases tab.edit_eq content with ⟨modified, hedit⟩
  rw [hedit]

theorem keepsPlace_markAsSaved : KeepsPlace EditorTab.markAsSaved :=
  ⟨fun _ => rfl, fun _ => rfl, fun _ => rfl⟩

theorem handleFailedSave_eq (completion : SaveCompletion) (tab : EditorTab) :
    ∃ hash len modified, handleFailedSave completion tab = { tab with
      originalContentHash := hash, originalContentLen := len, modified := modified } := by
  unfold handleFailedSave EditorTab.checkModified
  cases completion.previousBaseline with
  | none => exact ⟨_, _, _, rfl⟩
  | some baseline =>
      cases tab.largeFile with
      | true => exact ⟨_, _, _, rfl⟩
      | false => exact ⟨_, _, _, rfl⟩

theorem keepsPlace_handleFailedSave (completion : SaveCompletion) :
    KeepsPlace (handleFailedSave completion) := by
  constructor <;> intro tab <;>
    rcases handleFailedSave_eq completion tab with ⟨hash, len, modified, hfailed⟩ <;> rw [hfailed]

theorem handleFailedSave_content (completion : SaveCompletion) (tab : EditorTab) :
    (handleFailedSave completion tab).content = tab.content := by
  rcases handleFailedSave_eq completion tab with ⟨hash, len, modified, hfailed⟩
  rw [hfailed]

namespace Session

variable {encodings : Encodings} {parse : String → Option Int}

/-- Every transition of the session, with what enables it. -/
inductive Transition (encodings : Encodings) (parse : String → Option Int) (s : Session) :
    SessionAction → Session → Prop where
  | opened (tabId : Nat) (path : PathBuf) (bytes : List UInt8) (hphase : s.phase = .running)
      (hfresh : ∀ tab ∈ s.tabs, tab.id ≠ tabId) (hread : (s.disk path).contents = some bytes) :
      Transition encodings parse s (.openFile tabId path)
        { s with tabs := s.tabs ++ [openedTab encodings tabId path bytes] }
  | restored (state : TabState) (tab : EditorTab) (hphase : s.phase = .running)
      (hfresh : ∀ tab ∈ s.tabs, tab.id ≠ state.tabId)
      (hrestore : restoreTabFromState encodings parse s.disk state state.tabId = some tab) :
      Transition encodings parse s (.restoreTab state) { s with tabs := s.tabs ++ [tab] }
  | edited (tabId : Nat) (content : Rope) (hphase : s.phase = .running) :
      Transition encodings parse s (.edit tabId content)
        { s with tabs := updateEditorTab s.tabs tabId fun tab => tab.edit content }
  | replaced (tabId : Nat) (content : Rope) (hphase : s.phase = .running) :
      Transition encodings parse s (.replace tabId content)
        { s with tabs := updateEditorTab s.tabs tabId fun tab => tab.setValue content }
  | notSaved (tabId : Nat) : Transition encodings parse s (.save tabId) s
  | saved (tab : EditorTab) (path : PathBuf) (bytes : List UInt8) (hphase : s.phase = .running)
      (htab : s.tabs.find? (fun other => other.id = tab.id) = some tab)
      (hloc : tab.location = .localPath path)
      (hencode : encodeForSave encodings tab.content.toText tab.encoding = .encoded bytes)
      (hidle : s.inflightSaves tab.id = none) :
      Transition encodings parse s (.save tab.id) { s with
        inflightSaves :=
          Function.update s.inflightSaves tab.id (some (s.dispatchedSave tab.id path bytes))
        tabs := updateEditorTab s.tabs tab.id EditorTab.markAsSaved }
  | landed (tabId : Nat) (modified : Option String) (save : BackgroundSave)
      (hphase : s.phase ≠ .exited) (hsave : s.inflightSaves tabId = some save)
      (hpending : save.writeResult = none) :
      Transition encodings parse s (.write tabId true modified) { s with
        inflightSaves :=
          Function.update s.inflightSaves tabId (some { save with writeResult := some true })
        disk := s.disk.write save.completion.path save.bytes modified }
  | writeFailed (tabId : Nat) (modified : Option String) (save : BackgroundSave)
      (hphase : s.phase ≠ .exited) (hsave : s.inflightSaves tabId = some save)
      (hpending : save.writeResult = none) :
      Transition encodings parse s (.write tabId false modified) { s with
        inflightSaves :=
          Function.update s.inflightSaves tabId (some { save with writeResult := some false }) }
  | completed (tabId : Nat) (save : BackgroundSave) (hphase : s.phase = .running)
      (hsave : s.inflightSaves tabId = some save) (hresult : save.writeResult = some true) :
      Transition encodings parse s (.complete tabId)
        { s with inflightSaves := Function.update s.inflightSaves tabId none }
  | rolledBack (tabId : Nat) (save : BackgroundSave) (hphase : s.phase = .running)
      (hsave : s.inflightSaves tabId = some save) (hresult : save.writeResult = some false) :
      Transition encodings parse s (.complete tabId) { s with
        inflightSaves := Function.update s.inflightSaves tabId none
        tabs := updateEditorTab s.tabs tabId (handleFailedSave save.completion) }
  | snapshot (hphase : s.phase = .running) :
      Transition encodings parse s .saveStateAsync { s with mailbox := some s.buildState }
  | flushed (succeeds : Bool) (state : List TabState) (hphase : s.phase ≠ .exited)
      (hmailbox : s.mailbox = some state) :
      Transition encodings parse s (.flush succeeds)
        { s with mailbox := none, persisted := if succeeds then state else s.persisted }
  | quitFailed (hphase : s.phase = .running) :
      Transition encodings parse s (.quit false) { s with mailbox := none }
  | quit (hphase : s.phase = .running) :
      Transition encodings parse s (.quit true)
        { s with mailbox := none, persisted := s.buildState, phase := .quitting }
  | exited (hphase : s.phase = .quitting) :
      Transition encodings parse s .exit { s with phase := .exited }

private theorem transition_of_save {s t : Session} {tabId : Nat} (hphase : s.phase = .running)
    (h : s.saveFile encodings tabId = some t) : Transition encodings parse s (.save tabId) t := by
  unfold saveFile at h
  split at h
  · cases h
  · rename_i tab htab
    split at h
    · rename_i path hloc
      split at h
      · cases h
        exact .notSaved tabId
      · split at h
        · cases h
          exact .notSaved tabId
        · rename_i bytes hencode
          have hid : tab.id = tabId := by simpa using List.find?_some htab
          subst hid
          unfold spawnLocalSave at h
          split at h
          · cases h
            exact .notSaved tab.id
          · rename_i hidle
            cases h
            exact .saved tab path bytes hphase htab hloc hencode (by simpa using hidle)
    · cases h

private theorem transition_of_write {s t : Session} {tabId : Nat} {succeeds : Bool}
    {modified : Option String} (hphase : s.phase ≠ .exited)
    (h : s.runWrite tabId succeeds modified = some t) :
    Transition encodings parse s (.write tabId succeeds modified) t := by
  unfold runWrite at h
  split at h
  · cases h
  · rename_i save hsave
    split at h
    · cases h
    · rename_i hpending
      have hnone : save.writeResult = none := by simpa using hpending
      cases h
      cases succeeds with
      | true => exact .landed tabId modified save hphase hsave hnone
      | false => exact .writeFailed tabId modified save hphase hsave hnone

private theorem transition_of_complete {s t : Session} {tabId : Nat} (hphase : s.phase = .running)
    (h : s.finishLocalSave tabId = some t) :
    Transition encodings parse s (.complete tabId) t := by
  unfold finishLocalSave at h
  split at h
  · cases h
  · rename_i save hsave
    split at h
    · cases h
    · rename_i hresult
      cases h
      exact .completed tabId save hphase hsave hresult
    · rename_i hresult
      cases h
      exact .rolledBack tabId save hphase hsave hresult

private theorem transition_of_uiStep {s t : Session} {action : SessionAction}
    (hphase : s.phase = .running) (h : s.uiStep encodings parse action = some t) :
    Transition encodings parse s action t := by
  cases action with
  | openFile tabId path =>
      simp only [uiStep, Option.ite_none_right_eq_some] at h
      rcases h with ⟨hfresh, h⟩
      unfold openFileFromPath at h
      split at h
      · cases h
      · rename_i bytes hread
        split at h
        · cases h
        · cases h
          exact .opened tabId path bytes hphase (by simpa using hfresh) hread
  | restoreTab state =>
      simp only [uiStep, Option.ite_none_right_eq_some] at h
      rcases h with ⟨hfresh, h⟩
      rcases Option.map_eq_some_iff.mp h with ⟨tab, hrestore, rfl⟩
      exact .restored state tab hphase (by simpa using hfresh) hrestore
  | edit tabId content =>
      cases h
      exact .edited tabId content hphase
  | replace tabId content =>
      cases h
      exact .replaced tabId content hphase
  | save tabId => exact transition_of_save hphase h
  | complete tabId => exact transition_of_complete hphase h
  | saveStateAsync =>
      cases h
      exact .snapshot hphase
  | quit succeeds =>
      cases h
      cases succeeds with
      | true => exact .quit hphase
      | false =>
          have hquit := @Transition.quitFailed encodings parse s hphase
          simpa [← hphase] using hquit
  | write tabId succeeds modified => cases h
  | flush succeeds => cases h
  | exit => cases h

theorem transition_of_step {s t : Session} {action : SessionAction}
    (h : s.step encodings parse action = some t) : Transition encodings parse s action t := by
  unfold step at h
  split at h
  · rename_i tabId succeeds modified
    rcases Option.ite_none_left_eq_some.mp h with ⟨hphase, h⟩
    exact transition_of_write hphase h
  · rename_i succeeds
    rcases Option.ite_none_left_eq_some.mp h with ⟨hphase, h⟩
    rcases Option.map_eq_some_iff.mp h with ⟨state, hmailbox, rfl⟩
    exact .flushed succeeds state hphase hmailbox
  · rcases Option.ite_none_right_eq_some.mp h with ⟨hphase, h⟩
    cases h
    exact .exited hphase
  · rcases Option.ite_none_right_eq_some.mp h with ⟨hphase, h⟩
    exact transition_of_uiStep hphase h

end Session

end Fulgur
