import Fulgur.Library.Run
import Fulgur.Library.Tickets
import Fulgur.Files.SaveWrites

/-! # Saves of a tab come one after the other

A background save is only dispatched when none of its tab is in flight; the save
of a close warning does not ask. A write that is overtaken by one of the same
tab, or by one of another tab to the same file, leaves the older text on disk.
In every run in which no save is requested over a write that has not returned,
the file of a tab holds what was saved last.
-/

namespace Fulgur

open LabelledRun

namespace SavingWindow

/-! ## What a run keeps -/

/-- Every save of this tab, and every save to this file, has completed. -/
def Quiet (links : Links) (s : SavingWindow) (tabId : Nat) (path : PathBuf) : Prop :=
  ∀ save ∈ s.saves, save.tabId = tabId ∨ save.file links = links.canonicalize path →
    save.completed = true

def lastSaved (links : Links) (s : SavingWindow) (tabId : Nat) (path : PathBuf) :
    Option RequestedSave :=
  (s.saves.filter fun save => save.stage = .over true &&
    (save.tabId = tabId || save.file links = links.canonicalize path)).getLast?

/--
The map of saves in flight knows the background saves, of which a tab has one at
most; one write of a tab runs at a time; and once the saves of a tab and of its
file are over, the file holds what was saved last.
-/
structure Serialised (links : Links) (s : SavingWindow) : Prop where
  inflight : ∀ tabId, (s.inflightSaves tabId).isSome = true ↔
    ∃ save ∈ s.saves, save.outstandingFor = some tabId
  single : Tickets.Distinct RequestedSave.outstandingFor s.saves
  writing : Tickets.Distinct RequestedSave.writingFor s.saves
  newest : ∀ tab ∈ s.tabs, ∀ path, tab.location = .localPath path → s.Quiet links tab.id path →
    ∀ save ∈ s.lastSaved links tab.id path,
      (s.disk (links.canonicalize path)).contents = some save.bytes

/-! ## The condition -/

/-- Every write to the file has returned. -/
def FileIdle (links : Links) (s : SavingWindow) (path : PathBuf) : Prop :=
  ∀ save ∈ s.saves, save.file links = links.canonicalize path → save.returned = true

/-- What is still to complete for the tab has been written to the file, or has failed. -/
def TabSettled (links : Links) (s : SavingWindow) (tabId : Nat) (path : PathBuf) : Prop :=
  ∀ save ∈ s.saves, save.tabId = tabId → save.completed = false →
    save.stage = .over false ∨
      (save.stage = .over true ∧ save.file links = links.canonicalize path)

/--
What a run must keep to: no save is requested while a write to its file has not
returned, none of a close warning while one of its tab is still to be written or
to take the tab elsewhere, and no write fails once it has renamed its contents
into place.
-/
def SerialStep (encodings : Encodings) (links : Links) (s : SavingWindow) : SavingAction → Prop
  | .save tabId => ∀ text ∈ s.encodedTab encodings tabId, s.inflightSaves tabId = none →
      s.FileIdle links text.1
  | .confirmLossySave tabId activeTabId =>
      ∀ text ∈ (s.toUtf8 tabId).encodedTab encodings activeTabId,
      s.inflightSaves activeTabId = none → s.FileIdle links text.1
  | .finalizeSaveAs tabId path _ _ => s.inflightSaves tabId = none → s.FileIdle links path
  | .saveOnWarning tabId => ∀ text ∈ s.encodedTab encodings tabId,
      s.FileIdle links text.1 ∧ s.TabSettled links tabId text.1
  | .returnWrite _ synced => synced = true
  | _ => True

instance (links : Links) (s : SavingWindow) (path : PathBuf) : Decidable (s.FileIdle links path) :=
  inferInstanceAs (Decidable (∀ save ∈ s.saves, _ → _))

instance (links : Links) (s : SavingWindow) (tabId : Nat) (path : PathBuf) :
    Decidable (s.TabSettled links tabId path) :=
  inferInstanceAs (Decidable (∀ save ∈ s.saves, _ → _ → _ ∨ _))

instance (encodings : Encodings) (links : Links) (s : SavingWindow) (action : SavingAction) :
    Decidable (s.SerialStep encodings links action) :=
  match action with
  | .save tabId => inferInstanceAs (Decidable (∀ text ∈ s.encodedTab encodings tabId, _ → _))
  | .confirmLossySave tabId activeTabId => inferInstanceAs
      (Decidable (∀ text ∈ (s.toUtf8 tabId).encodedTab encodings activeTabId, _ → _))
  | .finalizeSaveAs _ _ _ _ => inferInstanceAs (Decidable (_ → _))
  | .saveOnWarning tabId =>
      inferInstanceAs (Decidable (∀ text ∈ s.encodedTab encodings tabId, _ ∧ _))
  | .returnWrite _ synced => inferInstanceAs (Decidable (synced = true))
  | .openFile _ => isTrue trivial
  | .newTab _ => isTrue trivial
  | .edit _ _ => isTrue trivial
  | .closeTab _ => isTrue trivial
  | .warnClose _ => isTrue trivial
  | .dismissWarning _ => isTrue trivial
  | .startWrite _ => isTrue trivial
  | .renameOver _ _ => isTrue trivial
  | .failWrite _ => isTrue trivial
  | .complete _ _ => isTrue trivial

/-! ## What each step does -/

/-- How the stage of a write goes on. -/
inductive Advances : WriteStage → WriteStage → Prop where
  | started : Advances .queued .running
  | renamed : Advances .running .renamed
  | failed : Advances .running (.over false)
  | returned (synced : Bool) : Advances .renamed (.over synced)

theorem Advances.unreturned {save : RequestedSave} {stage : WriteStage}
    (h : Advances save.stage stage) : save.returned = false := by
  unfold RequestedSave.returned
  generalize save.stage = before at h
  cases h <;> rfl

/-- Where a tab is once a save has completed: a "Save as" that succeeds takes it along. -/
def MovedBy (save : RequestedSave) (succeeded : Bool) (written : PathBuf) (old tab : EditorTab) :
    Prop :=
  tab.location =
    if old.id = save.tabId ∧ save.isSaveAs = true ∧ succeeded = true then .localPath written
    else old.location

/--
Every step, by what it does to the saves, their files and the places of the tabs;
`serial` tells whether it keeps to the condition.
-/
inductive SavingMove (serial : Prop) (links : Links) (s s' : SavingWindow) : Prop where
  | kept (hsaves : s'.saves = s.saves) (hinflight : s'.inflightSaves = s.inflightSaves)
      (hdisk : s'.disk = s.disk) (hnext : s'.nextTabId = s.nextTabId)
      (htabs : ∀ tab ∈ s'.tabs, ∃ old ∈ s.tabs, old.id = tab.id ∧ tab.location = old.location)
  | opened (tab : Nat → EditorTab) (hid : ∀ id, (tab id).id = id) (hstep : s' = s.addTab tab)
  | dispatched (kind : SaveKind) (tabId : Nat) (path : PathBuf) (bytes : List UInt8)
      (hfree : s.isBlocked = false) (hidle : s.inflightSaves tabId = none)
      (hkind : kind ≠ .blocking)
      (hknown : tabId < s.nextTabId ∨ ∃ tab ∈ s.tabs, tab.id = tabId)
      (hplace : kind = .save → ∃ tab ∈ s.tabs, tab.id = tabId ∧ tab.location = .localPath path)
      (hclear : serial → s.FileIdle links path) (hstep : s' = s.dispatch kind tabId path bytes)
  | blocked (tab : EditorTab) (path : PathBuf) (save : RequestedSave) (hfree : s.isBlocked = false)
      (htab : tab ∈ s.tabs) (hloc : tab.location = .localPath path)
      (hclear : serial → s.FileIdle links path ∧ s.TabSettled links tab.id path)
      (hsave : save.kind = .blocking ∧ save.tabId = tab.id ∧ save.completion.path = path ∧
        save.stage = .queued ∧ save.completed = false)
      (hsaves : s'.saves = s.saves ++ [save]) (hinflight : s'.inflightSaves = s.inflightSaves)
      (hdisk : s'.disk = s.disk) (hnext : s'.nextTabId = s.nextTabId) (htabs : s'.tabs = s.tabs)
  | staged (index : Nat) (save : RequestedSave) (stage : WriteStage) (modified : Option String)
      (hsave : s.saves[index]? = some save) (hadvance : Advances save.stage stage)
      (hsynced : serial → save.stage = .renamed → stage = .over true)
      (hsaves : s'.saves = s.saves.set index { save with stage := stage })
      (hinflight : s'.inflightSaves = s.inflightSaves)
      (hdisk : s'.disk = if stage = .renamed then s.disk.write (save.file links) save.bytes modified
        else s.disk)
      (hnext : s'.nextTabId = s.nextTabId) (htabs : s'.tabs = s.tabs)
  | completed (index : Nat) (save : RequestedSave) (succeeded : Bool) (written : PathBuf)
      (hwritten : links.canonicalize written = save.file links)
      (hsave : s.saves[index]? = some save) (hstage : save.stage = .over succeeded)
      (hopen : save.completed = false) (hfree : s.isBlocked = false ∨ save.kind = .blocking)
      (hsaves : s'.saves = s.saves.set index { save with completed := true })
      (hinflight : s'.inflightSaves = if save.kind = .blocking then s.inflightSaves
        else Function.update s.inflightSaves save.tabId none)
      (hdisk : s'.disk = s.disk) (hnext : s'.nextTabId = s.nextTabId)
      (htabs : ∀ tab ∈ s'.tabs, ∃ old ∈ s.tabs, old.id = tab.id ∧
        MovedBy save succeeded written old tab)

/-- A step, which may change a tab before it saves one. -/
def SavingMoves (serial : Prop) (links : Links) (s s' : SavingWindow) : Prop :=
  ∃ between, SavingMove serial links s between ∧ SavingMove serial links between s'

variable {serial : Prop} {encodings : Encodings} {links : Links} {s s' : SavingWindow}

theorem findTab_mem {tabId : Nat} {tab : EditorTab} (h : s.findTab tabId = some tab) :
    tab ∈ s.tabs ∧ tab.id = tabId :=
  ⟨List.mem_of_find?_eq_some h, by simpa using List.find?_some h⟩

theorem encodedTab_spec {tabId : Nat} {path : PathBuf} {bytes : List UInt8}
    (h : s.encodedTab encodings tabId = some (path, bytes)) :
    ∃ tab ∈ s.tabs, tab.id = tabId ∧ tab.location = .localPath path := by
  rcases Option.bind_eq_some_iff.mp h with ⟨tab, hfind, htext⟩
  rcases findTab_mem hfind with ⟨hmem, hid⟩
  refine ⟨tab, hmem, hid, ?_⟩
  split at htext
  · rename_i hloc
    split at htext
    · cases htext
    · split at htext
      · cases htext
      · cases htext
        exact hloc
  · cases htext

theorem SavingMove.same (links : Links) (s : SavingWindow) : SavingMove serial links s s :=
  .kept rfl rfl rfl rfl fun tab htab => ⟨tab, htab, rfl, rfl⟩

theorem SavingMove.update {f : EditorTab → EditorTab} (hf : KeepsPlace f) (tabId : Nat)
    (links : Links) (s : SavingWindow) :
    SavingMove serial links s { s with tabs := updateEditorTab s.tabs tabId f } := by
  refine .kept rfl rfl rfl rfl fun tab htab => ?_
  rcases mem_updateEditorTab htab with ⟨old, hold, ⟨_, rfl⟩ | ⟨_, rfl⟩⟩
  · exact ⟨old, hold, (hf.id old).symm, hf.location old⟩
  · exact ⟨tab, hold, rfl, rfl⟩

private theorem saveFile_move (hfree : s.isBlocked = false) (tabId : Nat)
    (hguard : serial → s.SerialStep encodings links (.save tabId)) :
    SavingMove serial links s (s.saveFile encodings tabId) := by
  unfold saveFile
  cases htext : s.encodedTab encodings tabId with
  | none => exact .same links s
  | some text =>
      rcases text with ⟨path, bytes⟩
      rcases encodedTab_spec htext with ⟨tab, hmem, hid, hloc⟩
      simp only [spawnLocalSave]
      split
      · exact .same links s
      · rename_i hidle
        have hnone : s.inflightSaves tabId = none := by simpa using hidle
        exact .dispatched .save tabId path bytes hfree hnone (by simp) (.inr ⟨tab, hmem, hid⟩)
          (fun _ => ⟨tab, hmem, hid, hloc⟩) (fun hserial => hguard hserial _ htext hnone) rfl

private theorem finalizeSaveAs_move (hfree : s.isBlocked = false) {tabId : Nat}
    (hknown : tabId < s.nextTabId) (path : PathBuf) (bytes : List UInt8) (encoding : String)
    (hguard : serial → s.inflightSaves tabId = none → s.FileIdle links path) :
    SavingMove serial links s (s.finalizeSaveAs tabId path bytes encoding) := by
  unfold finalizeSaveAs
  split
  · exact .same links s
  · rename_i hidle
    have hnone : s.inflightSaves tabId = none := by simpa using hidle
    exact .dispatched (.saveAs encoding) tabId path bytes hfree hnone (by simp) (.inl hknown)
      (by simp)
      (fun hserial => hguard hserial hnone) rfl

private theorem saveOnWarning_move (hfree : s.isBlocked = false) (tabId : Nat)
    (hguard : serial → s.SerialStep encodings links (.saveOnWarning tabId)) :
    SavingMove serial links s ((s.closeWarning tabId).saveLocalTabBlocking encodings tabId) := by
  unfold saveLocalTabBlocking
  have hsame : (s.closeWarning tabId).encodedTab encodings tabId =
      s.encodedTab encodings tabId := rfl
  rw [hsame]
  cases htext : s.encodedTab encodings tabId with
  | none => exact .kept rfl rfl rfl rfl fun tab htab => ⟨tab, htab, rfl, rfl⟩
  | some text =>
      rcases text with ⟨path, bytes⟩
      rcases encodedTab_spec htext with ⟨tab, hmem, rfl, hloc⟩
      exact .blocked tab path _ hfree hmem hloc (fun hserial => hguard hserial _ htext)
        ⟨rfl, rfl, rfl, rfl, rfl⟩ rfl rfl rfl rfl rfl

theorem SavingMove.alone (h : SavingMove serial links s s') : SavingMoves serial links s s' :=
  ⟨s, .same links s, h⟩

private theorem uiStep_move {action : SavingAction} (hfree : s.isBlocked = false)
    (h : s.uiStep encodings links action = some s') :
    SavingMoves (s.SerialStep encodings links action) links s s' := by
  cases action with
  | confirmLossySave tabId activeTabId =>
      cases h
      have hplace : KeepsPlace fun tab => { tab with encoding := UTF_8, lossyDecode := false } :=
        ⟨fun _ => rfl, fun _ => rfl, fun _ => rfl⟩
      refine ⟨s.toUtf8 tabId, .update hplace tabId links s, ?_⟩
      exact saveFile_move (s := s.toUtf8 tabId) hfree activeTabId id
  | openFile path =>
      have hopen : s.openFile encodings links path = some s' := h
      unfold openFile at hopen
      split at hopen
      · cases hopen
      · rename_i bytes _
        rcases Option.ite_none_left_eq_some.mp hopen with ⟨_, hstep⟩
        cases hstep
        refine SavingMove.alone ?_
        exact .opened (fun id => Session.openedTab encodings id path bytes) (fun _ => rfl) rfl
  | newTab title =>
      cases h
      refine SavingMove.alone ?_
      exact .opened (fun id => EditorTab.new id title) (fun _ => rfl) rfl
  | edit tabId content =>
      cases h
      exact (SavingMove.update (keepsPlace_edit content) tabId links s).alone
  | closeTab tabId =>
      cases h
      refine SavingMove.alone ?_
      exact .kept rfl rfl rfl rfl fun tab htab => ⟨tab, List.mem_of_mem_filter htab, rfl, rfl⟩
  | save tabId =>
      cases h
      exact (saveFile_move hfree tabId id).alone
  | finalizeSaveAs tabId path bytes encoding =>
      rcases Option.ite_none_right_eq_some.mp h with ⟨hknown, hstep⟩
      cases hstep
      exact (finalizeSaveAs_move hfree hknown path bytes encoding id).alone
  | warnClose tabId =>
      rcases Option.ite_none_right_eq_some.mp h with ⟨_, hstep⟩
      cases hstep
      refine SavingMove.alone ?_
      exact .kept rfl rfl rfl rfl fun tab htab => ⟨tab, htab, rfl, rfl⟩
  | dismissWarning tabId =>
      cases h
      refine SavingMove.alone ?_
      exact .kept rfl rfl rfl rfl fun tab htab => ⟨tab, htab, rfl, rfl⟩
  | saveOnWarning tabId =>
      rcases Option.ite_none_right_eq_some.mp h with ⟨_, hstep⟩
      cases hstep
      exact (saveOnWarning_move hfree tabId id).alone
  | startWrite index => cases h
  | renameOver index modified => cases h
  | failWrite index => cases h
  | returnWrite index synced => cases h
  | complete index canonical => cases h

theorem MovedBy.of_location {save : RequestedSave} {succeeded : Bool} {written : PathBuf}
    {old tab : EditorTab} (hstays : save.isSaveAs = true → succeeded = false)
    (hloc : tab.location = old.location) : MovedBy save succeeded written old tab := by
  unfold MovedBy
  rw [if_neg]
  · exact hloc
  · rintro ⟨_, hkind, hsucceeded⟩
    rw [hstays hkind] at hsucceeded
    cases hsucceeded

private theorem moved_update {save : RequestedSave} {succeeded : Bool}
    (hstays : save.isSaveAs = true → succeeded = false) (written : PathBuf)
    {f : EditorTab → EditorTab} (hf : KeepsPlace f) : ∀ tab ∈ updateEditorTab s.tabs save.tabId f,
      ∃ old ∈ s.tabs, old.id = tab.id ∧ MovedBy save succeeded written old tab := by
  intro tab htab
  rcases mem_updateEditorTab htab with ⟨old, hold, ⟨_, rfl⟩ | ⟨_, rfl⟩⟩
  · exact ⟨old, hold, (hf.id old).symm, .of_location hstays (hf.location old)⟩
  · exact ⟨tab, hold, rfl, .of_location hstays rfl⟩

private theorem moved_relocate {save : RequestedSave} (hkind : save.isSaveAs = true)
    (encoding : String) (written : PathBuf) :
    ∀ tab ∈ updateEditorTab s.tabs save.tabId (relocate written encoding),
      ∃ old ∈ s.tabs, old.id = tab.id ∧ MovedBy save true written old tab := by
  intro tab htab
  rcases mem_updateEditorTab htab with ⟨old, hold, ⟨hid, rfl⟩ | ⟨hid, rfl⟩⟩
  · exact ⟨old, hold, rfl, (if_pos ⟨hid, hkind, rfl⟩).symm⟩
  · exact ⟨tab, hold, rfl, (if_neg fun h => hid h.1).symm⟩

private theorem complete_move {index : Nat} {canonical : Bool}
    (hfree : s.isBlocked = false ∨ s.endsBlocking index = true)
    (h : s.complete links index canonical = some s') : SavingMove serial links s s' := by
  rcases Option.bind_eq_some_iff.mp h with ⟨save, hsave, hdone⟩
  have hfree' : s.isBlocked = false ∨ save.kind = .blocking := by
    refine hfree.imp_right fun hends => ?_
    simpa [endsBlocking, hsave] using hends
  have hpath : links.canonicalize save.completion.path = save.file links := rfl
  split at hdone
  · rename_i succeeded hstage hopen
    split at hdone
    · rename_i hkind
      have hnot : save.isSaveAs = true → succeeded = false := by
        simp [RequestedSave.isSaveAs, hkind]
      have hblocking : save.kind ≠ .blocking := by simp [hkind]
      cases succeeded with
      | true =>
          cases hdone
          exact .completed index save true _ hpath hsave hstage hopen hfree' rfl
            (if_neg hblocking).symm rfl rfl fun tab htab => ⟨tab, htab, rfl, .of_location hnot rfl⟩
      | false =>
          cases hdone
          exact .completed index save false _ hpath hsave hstage hopen hfree' rfl
            (if_neg hblocking).symm rfl rfl
            (moved_update hnot _ (keepsPlace_handleFailedSave save.completion))
    · rename_i encoding hkind
      have hmoves : save.isSaveAs = true := by simp [RequestedSave.isSaveAs, hkind]
      have hblocking : save.kind ≠ .blocking := by simp [hkind]
      have hwritten : links.canonicalize
          (if canonical then save.file links else save.completion.path) = save.file links := by
        cases canonical with
        | true => exact links.canonicalize_idem _
        | false => rfl
      cases succeeded with
      | true =>
          cases hdone
          exact .completed index save true _ hwritten hsave hstage hopen hfree' rfl
            (if_neg hblocking).symm rfl rfl (moved_relocate hmoves encoding _)
      | false =>
          cases hdone
          exact .completed index save false _ hpath hsave hstage hopen hfree' rfl
            (if_neg hblocking).symm rfl rfl
            (moved_update (fun _ => rfl) _ (keepsPlace_handleFailedSave save.completion))
    · rename_i hkind
      have hnot : save.isSaveAs = true → succeeded = false := by
        simp [RequestedSave.isSaveAs, hkind]
      cases succeeded with
      | true =>
          cases hdone
          exact .completed index save true _ hpath hsave hstage hopen hfree' rfl
            (if_pos hkind).symm rfl rfl (moved_update hnot _ keepsPlace_markAsSaved)
      | false =>
          cases hdone
          exact .completed index save false _ hpath hsave hstage hopen hfree' rfl
            (if_pos hkind).symm rfl rfl fun tab htab => ⟨tab, htab, rfl, .of_location hnot rfl⟩
  · cases hdone

theorem move_of_step {action : SavingAction} (h : s.step encodings links action = some s') :
    SavingMoves (s.SerialStep encodings links action) links s s' := by
  unfold step at h
  split at h
  · rename_i index
    rcases Option.bind_eq_some_iff.mp h with ⟨save, hsave, hstart⟩
    rcases Option.ite_none_right_eq_some.mp hstart with ⟨hstage, hstep⟩
    cases hstep
    refine SavingMove.alone ?_
    exact .staged index save .running none hsave (hstage ▸ .started) (by simp [hstage])
      rfl rfl rfl rfl rfl
  · rename_i index modified
    rcases Option.bind_eq_some_iff.mp h with ⟨save, hsave, hrename⟩
    rcases Option.ite_none_right_eq_some.mp hrename with ⟨hstage, hstep⟩
    cases hstep
    refine SavingMove.alone ?_
    exact .staged index save .renamed modified hsave (hstage ▸ .renamed) (by simp [hstage])
      rfl rfl rfl rfl rfl
  · rename_i index
    rcases Option.bind_eq_some_iff.mp h with ⟨save, hsave, hfail⟩
    rcases Option.ite_none_right_eq_some.mp hfail with ⟨hstage, hstep⟩
    cases hstep
    refine SavingMove.alone ?_
    exact .staged index save (.over false) none hsave (hstage ▸ .failed) (by simp [hstage])
      rfl rfl rfl rfl rfl
  · rename_i index synced
    rcases Option.bind_eq_some_iff.mp h with ⟨save, hsave, hreturn⟩
    rcases Option.ite_none_right_eq_some.mp hreturn with ⟨hstage, hstep⟩
    cases hstep
    refine SavingMove.alone
      (.staged index save (.over synced) none hsave (hstage ▸ .returned synced) ?_
      rfl rfl rfl rfl rfl)
    intro hsynced _
    exact congrArg _ (hsynced : synced = true)
  · rename_i index canonical
    rcases Option.ite_none_left_eq_some.mp h with ⟨hwait, hcomplete⟩
    refine (complete_move ?_ hcomplete).alone
    cases hblocked : s.isBlocked with
    | false => exact Or.inl rfl
    | true => exact Or.inr (by simpa [hblocked] using hwait)
  · rcases Option.ite_none_left_eq_some.mp h with ⟨hfree, hui⟩
    exact uiStep_move (by simpa using hfree) hui

/-! ## The map of saves in flight -/

/-- What holds in every run, whatever the order of the saves. -/
structure Tracked (s : SavingWindow) : Prop where
  places : ∀ a ∈ s.tabs, ∀ b ∈ s.tabs, a.id = b.id → a.location = b.location
  known : ∀ tab ∈ s.tabs, tab.id < s.nextTabId
  owned : ∀ save ∈ s.saves, save.tabId < s.nextTabId
  done : ∀ save ∈ s.saves, save.completed = true → save.returned = true
  inflight : ∀ tabId, (s.inflightSaves tabId).isSome = true ↔
    ∃ save ∈ s.saves, save.outstandingFor = some tabId
  single : Tickets.Distinct RequestedSave.outstandingFor s.saves

theorem tracked_launched (disk : Disk) : Tracked (launched disk) where
  places := by simp [launched]
  known := by simp [launched]
  owned := by simp [launched]
  done := by simp [launched]
  inflight := by simp [launched]
  single := Tickets.distinct_nil

theorem Tracked.idle (h : Tracked s) {tabId : Nat} (hidle : s.inflightSaves tabId = none) :
    Tickets.Fresh RequestedSave.outstandingFor s.saves tabId := by
  intro save hsave hout
  have hsome := (h.inflight tabId).mpr ⟨save, hsave, hout⟩
  rw [hidle] at hsome
  cases hsome

theorem mem_dispatch_tabs {kind : SaveKind} {tabId : Nat} {path : PathBuf} {bytes : List UInt8}
    {tab : EditorTab} (h : tab ∈ (s.dispatch kind tabId path bytes).tabs) :
    ∃ old ∈ s.tabs, old.id = tab.id ∧ tab.location = old.location := by
  rcases mem_updateEditorTab h with ⟨old, hold, ⟨_, rfl⟩ | ⟨_, rfl⟩⟩
  · exact ⟨old, hold, rfl, rfl⟩
  · exact ⟨tab, hold, rfl, rfl⟩

theorem Tracked.places_of (h : Tracked s)
    (htabs : ∀ tab ∈ s'.tabs, ∃ old ∈ s.tabs, old.id = tab.id ∧ tab.location = old.location) :
    ∀ a ∈ s'.tabs, ∀ b ∈ s'.tabs, a.id = b.id → a.location = b.location := by
  intro a ha b hb hab
  rcases htabs a ha with ⟨a', ha', hida, hloca⟩
  rcases htabs b hb with ⟨b', hb', hidb, hlocb⟩
  rw [hloca, hlocb]
  exact h.places a' ha' b' hb' (hida.trans (hab.trans hidb.symm))

theorem Tracked.dispatched (h : Tracked s) {kind : SaveKind} {tabId : Nat} (path : PathBuf)
    (bytes : List UInt8) (hkind : kind ≠ .blocking) (hidle : s.inflightSaves tabId = none)
    (hknown : tabId < s.nextTabId ∨ ∃ tab ∈ s.tabs, tab.id = tabId) :
    Tracked (s.dispatch kind tabId path bytes) := by
  have hbelow : tabId < s.nextTabId := by
    rcases hknown with hlt | ⟨tab, htab, rfl⟩
    · exact hlt
    · exact h.known tab htab
  constructor
  case places => exact h.places_of fun tab => mem_dispatch_tabs
  case known =>
      intro tab htab
      rcases mem_dispatch_tabs htab with ⟨old, hold, hid, _⟩
      exact hid ▸ h.known old hold
  case owned =>
      intro save hsave
      rcases List.mem_append.mp hsave with hold | hnew
      · exact h.owned save hold
      · rw [List.mem_singleton.mp hnew]
        exact hbelow
  case done =>
      intro save hsave hdone
      rcases List.mem_append.mp hsave with hold | hnew
      · exact h.done save hold hdone
      · rw [List.mem_singleton.mp hnew] at hdone
        cases hdone
  case inflight =>
      intro other
      by_cases hsame : other = tabId
      · subst hsame
        simp [dispatch, RequestedSave.outstandingFor, RequestedSave.tabId, hkind]
      · have hbefore := h.inflight other
        simp [dispatch, RequestedSave.outstandingFor, RequestedSave.tabId, hkind,
          Function.update_of_ne hsame, hbefore, Ne.symm hsame]
  case single =>
      refine h.single.append fun k hk => ?_
      have hk' : k = tabId := by
        simpa [RequestedSave.outstandingFor, RequestedSave.tabId, hkind, eq_comm] using hk
      exact hk' ▸ h.idle hidle

theorem Tracked.blocked (h : Tracked s) {tab : EditorTab} {save : RequestedSave}
    (htab : tab ∈ s.tabs)
    (hkind : save.kind = .blocking) (hid : save.tabId = tab.id) (hopen : save.completed = false)
    (hsaves : s'.saves = s.saves ++ [save]) (hinflight : s'.inflightSaves = s.inflightSaves)
    (hnext : s'.nextTabId = s.nextTabId) (htabs : s'.tabs = s.tabs) : Tracked s' := by
  have hnone : save.outstandingFor = none := by simp [RequestedSave.outstandingFor, hkind]
  constructor
  case places => exact htabs ▸ h.places
  case known => exact htabs ▸ hnext ▸ h.known
  case owned =>
      intro other hother
      rw [hsaves] at hother
      rw [hnext]
      rcases List.mem_append.mp hother with hold | hnew
      · exact h.owned other hold
      · rw [List.mem_singleton.mp hnew, hid]
        exact h.known tab htab
  case done =>
      intro other hother hdone
      rw [hsaves] at hother
      rcases List.mem_append.mp hother with hold | hnew
      · exact h.done other hold hdone
      · rw [List.mem_singleton.mp hnew, hopen] at hdone
        cases hdone
  case inflight =>
      intro tabId
      rw [hinflight, hsaves, h.inflight tabId]
      simp [hnone]
  case single =>
      rw [hsaves]
      refine h.single.append fun k hk => ?_
      rw [hnone] at hk
      cases hk

theorem Tracked.staged (h : Tracked s) {index : Nat} {save : RequestedSave} {stage : WriteStage}
    (hsave : s.saves[index]? = some save) (hadvance : Advances save.stage stage)
    (hsaves : s'.saves = s.saves.set index { save with stage := stage })
    (hinflight : s'.inflightSaves = s.inflightSaves) (hnext : s'.nextTabId = s.nextTabId)
    (htabs : s'.tabs = s.tabs) : Tracked s' := by
  have hmem := List.mem_of_getElem? hsave
  constructor
  case places => exact htabs ▸ h.places
  case known => exact htabs ▸ hnext ▸ h.known
  case owned =>
      intro other hother
      rw [hsaves] at hother
      rw [hnext]
      rcases List.mem_or_eq_of_mem_set hother with hold | rfl
      · exact h.owned other hold
      · exact h.owned save hmem
  case done =>
      intro other hother hdone
      rw [hsaves] at hother
      rcases List.mem_or_eq_of_mem_set hother with hold | rfl
      · exact h.done other hold hdone
      · -- a write that goes on has not returned yet
        have hover := h.done save hmem hdone
        rw [hadvance.unreturned] at hover
        cases hover
  case inflight =>
      intro tabId
      rw [hinflight, hsaves, h.inflight tabId, Tickets.exists_mem_set_iff hsave (by rfl)]
  case single => exact hsaves ▸ h.single.set_same hsave rfl

theorem Tracked.completed (h : Tracked s) {index : Nat} {save : RequestedSave} {succeeded : Bool}
    (hsave : s.saves[index]? = some save) (hstage : save.stage = .over succeeded)
    (hopen : save.completed = false)
    (hsaves : s'.saves = s.saves.set index { save with completed := true })
    (hinflight : s'.inflightSaves = if save.kind = .blocking then s.inflightSaves
      else Function.update s.inflightSaves save.tabId none)
    (hnext : s'.nextTabId = s.nextTabId)
    {written : PathBuf} (htabs : ∀ tab ∈ s'.tabs, ∃ old ∈ s.tabs, old.id = tab.id ∧
      MovedBy save succeeded written old tab) : Tracked s' := by
  have hmem := List.mem_of_getElem? hsave
  have hclosed : ({ save with completed := true } : RequestedSave).outstandingFor = none := by
    simp [RequestedSave.outstandingFor]
  constructor
  case places =>
      intro a ha b hb hab
      rcases htabs a ha with ⟨a', ha', hida, hloca⟩
      rcases htabs b hb with ⟨b', hb', hidb, hlocb⟩
      have hsame : a'.id = b'.id := hida.trans (hab.trans hidb.symm)
      rw [hloca, hlocb, hsame, h.places a' ha' b' hb' hsame]
  case known =>
      intro tab htab
      rcases htabs tab htab with ⟨old, hold, hid, _⟩
      rw [hnext, ← hid]
      exact h.known old hold
  case owned =>
      intro other hother
      rw [hsaves] at hother
      rw [hnext]
      rcases List.mem_or_eq_of_mem_set hother with hold | rfl
      · exact h.owned other hold
      · exact h.owned save hmem
  case done =>
      intro other hother hdone
      rw [hsaves] at hother
      rcases List.mem_or_eq_of_mem_set hother with hold | rfl
      · exact h.done other hold hdone
      · simp [RequestedSave.returned, hstage]
  case inflight =>
      intro tabId
      rw [hinflight, hsaves]
      split
      · rename_i hkind
        have hnone : save.outstandingFor = none := by simp [RequestedSave.outstandingFor, hkind]
        rw [h.inflight tabId, Tickets.exists_mem_set_iff hsave (by rw [hclosed, hnone])]
      · rename_i hkind
        have hout : save.outstandingFor = some save.tabId := if_pos ⟨hkind, hopen⟩
        by_cases hsame : tabId = save.tabId
        · subst hsame
          simp only [Function.update_self, Option.isSome_none, Bool.false_eq_true, false_iff]
          rintro ⟨other, hother, hother'⟩
          rcases List.getElem?_of_mem hother with ⟨j, hj⟩
          rcases Tickets.getElem?_set_cases hj with ⟨hne, hold⟩ | ⟨_, rfl⟩
          · exact hne (h.single j index other save _ hold hsave hother' hout)
          · rw [hclosed] at hother'
            cases hother'
        · rw [Function.update_of_ne hsame, h.inflight tabId]
          refine (Tickets.exists_mem_set_iff hsave ?_).symm
          rw [hclosed, hout]
          simp [Ne.symm hsame]
  case single =>
      rw [hsaves]
      refine h.single.set fun k hk => ?_
      rw [hclosed] at hk
      cases hk

theorem Tracked.opened (h : Tracked s) {tab : Nat → EditorTab} (hid : ∀ id, (tab id).id = id) :
    Tracked (s.addTab tab) := by
  constructor
  case places =>
      intro a ha b hb hab
      rcases List.mem_append.mp ha with ha | ha <;> rcases List.mem_append.mp hb with hb | hb
      · exact h.places a ha b hb hab
      · have hlt := h.known a ha
        rw [hab, List.mem_singleton.mp hb, hid] at hlt
        exact absurd hlt (Nat.lt_irrefl _)
      · have hlt := h.known b hb
        rw [← hab, List.mem_singleton.mp ha, hid] at hlt
        exact absurd hlt (Nat.lt_irrefl _)
      · rw [List.mem_singleton.mp ha, List.mem_singleton.mp hb]
  case known =>
      intro other hother
      rcases List.mem_append.mp hother with hold | hnew
      · exact Nat.lt_succ_of_lt (h.known other hold)
      · rw [List.mem_singleton.mp hnew, hid]
        exact Nat.lt_succ_self _
  case owned => exact fun save hsave => Nat.lt_succ_of_lt (h.owned save hsave)
  case done => exact h.done
  case inflight => exact h.inflight
  case single => exact h.single

theorem Tracked.move (h : Tracked s) (hmove : SavingMove serial links s s') : Tracked s' := by
  cases hmove with
  | kept hsaves hinflight hdisk hnext htabs =>
      refine ⟨h.places_of htabs, ?_, ?_, hsaves ▸ h.done, ?_, hsaves ▸ h.single⟩
      · intro tab htab
        rcases htabs tab htab with ⟨old, hold, hid, _⟩
        rw [hnext, ← hid]
        exact h.known old hold
      · rw [hsaves, hnext]
        exact h.owned
      · rw [hsaves, hinflight]
        exact h.inflight
  | opened tab hid hstep => exact hstep ▸ h.opened hid
  | dispatched kind tabId path bytes hfree hidle hkind hknown hplace hclear hstep =>
      exact hstep ▸ h.dispatched path bytes hkind hidle hknown
  | blocked tab path save hfree htab hloc hclear hsave hsaves hinflight hdisk hnext htabs =>
      rcases hsave with ⟨hkind, hid, _, _, hopen⟩
      exact h.blocked htab hkind hid hopen hsaves hinflight hnext htabs
  | staged index save stage modified hsave hadvance hsynced hsaves hinflight hdisk hnext htabs =>
      exact h.staged hsave hadvance hsaves hinflight hnext htabs
  | completed index save succeeded written hwritten hsave hstage hopen hfree hsaves hinflight hdisk
      hnext htabs =>
      exact h.completed hsave hstage hopen hsaves hinflight hnext htabs

/-! ## The order of the writes -/

end SavingWindow

namespace RequestedSave

def unreturnedFor (save : RequestedSave) : Option Nat :=
  if save.returned then none else some save.tabId

/-- The written contents are in place. -/
def landed (save : RequestedSave) : Bool :=
  save.stage = .renamed || save.stage = .over true

end RequestedSave

namespace SavingWindow

/-- What holds in every run that keeps to the condition. -/
structure Ordered (links : Links) (s : SavingWindow) : Prop where
  tracked : Tracked s
  writing : Tickets.Distinct RequestedSave.unreturnedFor s.saves
  /-- No save is requested over a write that has not returned. -/
  front : ∀ (i : Nat) (a : RequestedSave) (j : Nat) (b : RequestedSave),
    s.saves[i]? = some a → a.returned = false →
      s.saves[j]? = some b → b.file links = a.file links → j ≤ i
  contents : ∀ (i : Nat) (a : RequestedSave), s.saves[i]? = some a → a.landed = true →
    (∀ (j : Nat) (b : RequestedSave), i < j → s.saves[j]? = some b →
      b.file links = a.file links → b.landed = false) →
        (s.disk (a.file links)).contents = some a.bytes
  /-- What a tab requests before a save of it completes goes to the file of that save. -/
  later : ∀ (i : Nat) (a : RequestedSave) (j : Nat) (b : RequestedSave), i < j →
    s.saves[i]? = some a → a.completed = false → s.saves[j]? = some b → b.tabId = a.tabId →
      a.stage = .over false ∨ (a.stage = .over true ∧ b.file links = a.file links)
  here : ∀ tab ∈ s.tabs, ∀ path, tab.location = .localPath path → ∀ save ∈ s.saves,
    save.tabId = tab.id → save.completed = false → save.isSaveAs = false →
      save.file links = links.canonicalize path
  /-- A tab is at the file of its last save, or at one that was saved after it. -/
  place : ∀ tab ∈ s.tabs, ∀ path, tab.location = .localPath path →
    ∀ (i : Nat) (a : RequestedSave), s.saves[i]? = some a → a.tabId = tab.id →
      a.stage = .over true → a.completed = true →
        a.file links = links.canonicalize path ∨ ∃ (j : Nat) (b : RequestedSave), i < j ∧
          s.saves[j]? = some b ∧ b.stage = .over true ∧ b.file links = links.canonicalize path

theorem ordered_launched (links : Links) (disk : Disk) : Ordered links (launched disk) where
  tracked := tracked_launched disk
  writing := Tickets.distinct_nil
  front := by simp [launched]
  contents := by simp [launched]
  later := by simp [launched]
  here := by simp [launched]
  place := by simp [launched]

/-- A save is added behind writes that have returned. -/
theorem Ordered.appended (h : Ordered links s) (htracked : Tracked s') {save : RequestedSave}
    (hstage : save.stage = .queued) (hsaves : s'.saves = s.saves ++ [save])
    (hdisk : s'.disk = s.disk)
    (htabs : ∀ tab ∈ s'.tabs, ∃ old ∈ s.tabs, old.id = tab.id ∧ tab.location = old.location)
    (hclear : ∀ other ∈ s.saves, other.file links = save.file links → other.returned = true)
    (hsettled : ∀ other ∈ s.saves, other.tabId = save.tabId → other.completed = false →
      other.stage = .over false ∨ (other.stage = .over true ∧ save.file links = other.file links))
    (hplace : save.isSaveAs = false → ∀ tab ∈ s.tabs, tab.id = save.tabId → ∀ path,
      tab.location = .localPath path → save.file links = links.canonicalize path) :
    Ordered links s' := by
  have hfind : ∀ {i : Nat} {a : RequestedSave}, s'.saves[i]? = some a →
      s.saves[i]? = some a ∨ (i = s.saves.length ∧ a = save) := by
    intro i a hi
    rw [hsaves] at hi
    exact Tickets.getElem?_append_singleton hi
  have hnot : save.landed = false := by simp [RequestedSave.landed, hstage]
  constructor
  case tracked => exact htracked
  case writing =>
      rw [hsaves]
      refine h.writing.append fun k hk other hother hsame => ?_
      have hk' : save.tabId = k := by
        simpa [RequestedSave.unreturnedFor, RequestedSave.returned, hstage] using hk
      have hwaits : other.returned = false ∧ other.tabId = k := by
        simpa [RequestedSave.unreturnedFor] using hsame
      have hopen : other.completed = false := by
        by_contra hdone
        rw [h.tracked.done other hother (by simpa using hdone)] at hwaits
        cases hwaits.1
      have hover := hsettled other hother (hwaits.2.trans hk'.symm) hopen
      have hreturned : other.returned = true := by
        rcases hover with hover | ⟨hover, _⟩ <;> simp [RequestedSave.returned, hover]
      rw [hreturned] at hwaits
      cases hwaits.1
  case front =>
      intro i a j b hi hwaits hj hfile
      rcases hfind hi with hi | ⟨rfl, rfl⟩ <;> rcases hfind hj with hj | ⟨rfl, rfl⟩
      · exact h.front i a j b hi hwaits hj hfile
      · rw [hclear a (List.mem_of_getElem? hi) hfile.symm] at hwaits
        cases hwaits
      · exact (List.getElem?_eq_some_iff.mp hj).1.le
      · exact Nat.le_refl _
  case contents =>
      intro i a hi hlanded hlast
      rcases hfind hi with hi | ⟨rfl, rfl⟩
      · rw [hdisk]
        refine h.contents i a hi hlanded fun j b hij hj => hlast j b hij ?_
        rw [hsaves]
        exact List.getElem?_append_left (List.getElem?_eq_some_iff.mp hj).1 ▸ hj
      · rw [hnot] at hlanded
        cases hlanded
  case later =>
      intro i a j b hij hi hopen hj htab
      rcases hfind hi with hi | ⟨rfl, rfl⟩ <;> rcases hfind hj with hj | ⟨rfl, rfl⟩
      · exact h.later i a j b hij hi hopen hj htab
      · exact hsettled a (List.mem_of_getElem? hi) htab.symm hopen
      · exact absurd (List.getElem?_eq_some_iff.mp hj).1 (by omega)
      · exact absurd hij (Nat.lt_irrefl _)
  case here =>
      intro tab htab path hloc other hother hid hopen hkind
      rcases htabs tab htab with ⟨old, hold, hsame, hlocs⟩
      rw [hlocs] at hloc
      rw [hsaves] at hother
      rcases List.mem_append.mp hother with hother | hnew
      · exact h.here old hold path hloc other hother (hid.trans hsame.symm) hopen hkind
      · rw [List.mem_singleton.mp hnew] at hid hkind ⊢
        exact hplace hkind old hold (hsame.trans hid.symm) path hloc
  case place =>
      intro tab htab path hloc i a hi hid hover hdone
      rcases htabs tab htab with ⟨old, hold, hsame, hlocs⟩
      rw [hlocs] at hloc
      rcases hfind hi with hi | ⟨rfl, rfl⟩
      · rcases h.place old hold path hloc i a hi (hid.trans hsame.symm) hover hdone with
          hfile | ⟨j, b, hij, hj, hb⟩
        · exact Or.inl hfile
        · refine Or.inr ⟨j, b, hij, ?_, hb⟩
          rw [hsaves]
          exact List.getElem?_append_left (List.getElem?_eq_some_iff.mp hj).1 ▸ hj
      · rw [hstage] at hover
        cases hover

/-- A save that changes only in how far it got leaves what the files hold. -/
theorem Ordered.contents_set {s' : SavingWindow} (h : Ordered links s) {index : Nat}
    {save save' : RequestedSave}
    (hsave : s.saves[index]? = some save) (hsaves : s'.saves = s.saves.set index save')
    (hlanded : save'.landed = save.landed) (hfile : save'.file links = save.file links)
    (hbytes : save'.bytes = save.bytes) {i : Nat} {a : RequestedSave} (hi : s'.saves[i]? = some a)
    (ha : a.landed = true) (hlast : ∀ (j : Nat) (b : RequestedSave), i < j →
      s'.saves[j]? = some b → b.file links = a.file links → b.landed = false) :
    (s.disk (a.file links)).contents = some a.bytes := by
  rw [hsaves] at hi hlast
  have hbefore : ∃ a', s.saves[i]? = some a' ∧ a'.landed = true ∧ a'.file links = a.file links ∧
      a'.bytes = a.bytes := by
    rcases Tickets.getElem?_set_cases hi with ⟨_, hi⟩ | ⟨rfl, rfl⟩
    · exact ⟨a, hi, ha, rfl, rfl⟩
    · exact ⟨save, hsave, hlanded ▸ ha, hfile.symm, hbytes.symm⟩
  obtain ⟨a', hi', ha', hfile', hbytes'⟩ := hbefore
  rw [← hfile', ← hbytes']
  refine h.contents i a' hi' ha' fun j b hij hj hsame => ?_
  by_cases hindex : j = index
  · subst hindex
    rw [hsave] at hj
    cases hj
    have hself : (s.saves.set j save')[j]? = some save' :=
      List.getElem?_set_self (List.getElem?_eq_some_iff.mp hsave).1
    exact hlanded ▸ hlast j save' hij hself (hfile.trans (hsame.trans hfile'))
  · refine hlast j b hij ?_ (hsame.trans hfile')
    rw [List.getElem?_set_ne (Ne.symm hindex)]
    exact hj

/-- A write that is renamed into place is the newest of its file. -/
theorem Ordered.contents_staged {s' : SavingWindow} (h : Ordered links s) {index : Nat}
    {save : RequestedSave} {stage : WriteStage} {modified : Option String}
    (hsave : s.saves[index]? = some save)
    (hadvance : Advances save.stage stage) (hsynced : save.stage = .renamed → stage = .over true)
    (hsaves : s'.saves = s.saves.set index { save with stage := stage })
    (hdisk : s'.disk = if stage = .renamed then s.disk.write (save.file links) save.bytes modified
      else s.disk) {i : Nat} {a : RequestedSave} (hi : s'.saves[i]? = some a)
    (hlanded : a.landed = true) (hlast : ∀ (j : Nat) (b : RequestedSave), i < j →
      s'.saves[j]? = some b → b.file links = a.file links → b.landed = false) :
    (s'.disk (a.file links)).contents = some a.bytes := by
  have hfind : (i ≠ index ∧ s.saves[i]? = some a) ∨
      (i = index ∧ a = { save with stage := stage }) := by
    rw [hsaves] at hi
    exact Tickets.getElem?_set_cases hi
  rw [hdisk]
  split
  · rename_i hrenamed
    by_cases hfile : a.file links = save.file links
    · rcases hfind with ⟨hne, hi⟩ | ⟨rfl, rfl⟩
      · -- no save comes behind one whose write is under way
        have hle := h.front index save i a hsave hadvance.unreturned hi hfile
        have hself : s'.saves[index]? = some { save with stage := stage } := by
          rw [hsaves, List.getElem?_set_self (List.getElem?_eq_some_iff.mp hsave).1]
        have hover := hlast index _ (by omega) hself hfile.symm
        simp [RequestedSave.landed, hrenamed] at hover
      · exact s.disk.contents_write_self _ _ _
    · rw [s.disk.write_of_ne _ _ hfile]
      rcases hfind with ⟨hne, hi⟩ | ⟨rfl, rfl⟩
      · refine h.contents i a hi hlanded fun j b hij hj hsame => hlast j b hij ?_ hsame
        rw [hsaves, List.getElem?_set_ne ?_]
        · exact hj
        · rintro rfl
          rw [hsave] at hj
          cases hj
          exact hfile hsame.symm
      · exact absurd rfl hfile
  · rename_i hnot
    have hsame : ({ save with stage := stage } : RequestedSave).landed = save.landed := by
      simp only [RequestedSave.landed]
      generalize hbefore : save.stage = before at hadvance hsynced
      cases hadvance with
      | started => rfl
      | renamed => exact absurd rfl hnot
      | failed => rfl
      | returned synced =>
          rw [hsynced rfl]
          rfl
    exact h.contents_set hsave hsaves hsame rfl rfl hi hlanded hlast

/-- A write that goes on: what it renames into place is the newest of its file. -/
theorem Ordered.staged (h : Ordered links s) (htracked : Tracked s') {index : Nat}
    {save : RequestedSave} {stage : WriteStage} {modified : Option String}
    (hsave : s.saves[index]? = some save) (hadvance : Advances save.stage stage)
    (hsynced : save.stage = .renamed → stage = .over true)
    (hsaves : s'.saves = s.saves.set index { save with stage := stage })
    (hdisk : s'.disk = if stage = .renamed then s.disk.write (save.file links) save.bytes modified
      else s.disk) (htabs : s'.tabs = s.tabs) : Ordered links s' := by
  have hwaits := hadvance.unreturned
  have hmem := List.mem_of_getElem? hsave
  have hfind : ∀ {i : Nat} {a : RequestedSave}, s'.saves[i]? = some a →
      (i ≠ index ∧ s.saves[i]? = some a) ∨ (i = index ∧ a = { save with stage := stage }) := by
    intro i a hi
    rw [hsaves] at hi
    exact Tickets.getElem?_set_cases hi
  have hkept : ∀ {i : Nat} {a : RequestedSave}, i ≠ index → s.saves[i]? = some a →
      s'.saves[i]? = some a := by
    intro i a hne hi
    rw [hsaves, List.getElem?_set_ne (Ne.symm hne)]
    exact hi
  constructor
  case tracked => exact htracked
  case writing =>
      rw [hsaves]
      refine h.writing.set fun k hk j c hj hc hkc => hj (h.writing j index c save k hc hsave hkc ?_)
      have htab : save.tabId = k := by
        unfold RequestedSave.unreturnedFor at hk
        split at hk
        · cases hk
        · exact Option.some.inj hk
      simp [RequestedSave.unreturnedFor, hwaits, htab]
  case front =>
      intro i a j b hi ha hj hfile
      rcases hfind hi with ⟨_, hi⟩ | ⟨rfl, rfl⟩ <;> rcases hfind hj with ⟨_, hj⟩ | ⟨rfl, rfl⟩
      · exact h.front i a j b hi ha hj hfile
      · exact h.front i a j save hi ha hsave hfile
      · exact h.front i save j b hsave hwaits hj hfile
      · exact Nat.le_refl _
  case contents =>
      intro i a hi hlanded hlast
      exact h.contents_staged hsave hadvance hsynced hsaves hdisk hi hlanded hlast
  case later =>
      intro i a j b hij hi hopen hj htab
      rcases hfind hi with ⟨_, hi⟩ | ⟨rfl, rfl⟩ <;> rcases hfind hj with ⟨_, hj⟩ | ⟨rfl, rfl⟩
      · exact h.later i a j b hij hi hopen hj htab
      · exact h.later i a j save hij hi hopen hsave htab
      · -- a save that is not written yet has none behind it
        have hover := h.later i save j b hij hsave hopen hj htab
        rcases hover with hover | ⟨hover, _⟩ <;> simp [RequestedSave.returned, hover] at hwaits
      · exact absurd hij (Nat.lt_irrefl _)
  case here =>
      intro tab htab path hloc other hother hid hopen hkind
      rw [htabs] at htab
      rw [hsaves] at hother
      rcases List.mem_or_eq_of_mem_set hother with hold | rfl
      · exact h.here tab htab path hloc other hold hid hopen hkind
      · exact h.here tab htab path hloc save hmem hid hopen hkind
  case place =>
      intro tab htab path hloc i a hi hid hover hdone
      rw [htabs] at htab
      rcases hfind hi with ⟨_, hi⟩ | ⟨rfl, rfl⟩
      · rcases h.place tab htab path hloc i a hi hid hover hdone with hfile | ⟨j, b, hij, hj, hb⟩
        · exact Or.inl hfile
        · refine Or.inr ⟨j, b, hij, hkept ?_ hj, hb⟩
          rintro rfl
          rw [hsave] at hj
          cases hj
          simp [RequestedSave.returned, hb.1] at hwaits
      · rw [h.tracked.done save hmem hdone] at hwaits
        cases hwaits

/-- A "Save as" that completes is the only save of its tab that is to complete. -/
theorem Ordered.eq_of_completing (h : Ordered links s) {index j : Nat} {save other : RequestedSave}
    (hsave : s.saves[index]? = some save) (hopen : save.completed = false)
    (hmoves : save.isSaveAs = true) (hfree : s.isBlocked = false ∨ save.kind = .blocking)
    (hj : s.saves[j]? = some other) (hid : other.tabId = save.tabId)
    (hwaits : other.completed = false) : j = index := by
  have hback : save.kind ≠ .blocking := by
    intro hblocking
    simp [RequestedSave.isSaveAs, hblocking] at hmoves
  have hside : other.kind ≠ .blocking := by
    intro hblocking
    have hany := List.any_eq_false.mp (hfree.resolve_right hback) other (List.mem_of_getElem? hj)
    simp [hblocking, hwaits] at hany
  have hout : save.outstandingFor = some save.tabId := if_pos ⟨hback, hopen⟩
  have hout' : other.outstandingFor = some save.tabId := by
    rw [← hid]
    exact if_pos ⟨hside, hwaits⟩
  exact h.tracked.single j index other save _ hj hsave hout' hout

theorem Ordered.completed (h : Ordered links s) (htracked : Tracked s') {index : Nat}
    {save : RequestedSave} {succeeded : Bool} {written : PathBuf}
    (hwritten : links.canonicalize written = save.file links)
    (hsave : s.saves[index]? = some save) (hstage : save.stage = .over succeeded)
    (hopen : save.completed = false) (hfree : s.isBlocked = false ∨ save.kind = .blocking)
    (hsaves : s'.saves = s.saves.set index { save with completed := true })
    (hdisk : s'.disk = s.disk) (htabs : ∀ tab ∈ s'.tabs, ∃ old ∈ s.tabs, old.id = tab.id ∧
      MovedBy save succeeded written old tab) : Ordered links s' := by
  have hmem := List.mem_of_getElem? hsave
  have hfind : ∀ {i : Nat} {a : RequestedSave}, s'.saves[i]? = some a →
      (i ≠ index ∧ s.saves[i]? = some a) ∨ (i = index ∧ a = { save with completed := true }) := by
    intro i a hi
    rw [hsaves] at hi
    exact Tickets.getElem?_set_cases hi
  have hself : s'.saves[index]? = some { save with completed := true } := by
    rw [hsaves, List.getElem?_set_self (List.getElem?_eq_some_iff.mp hsave).1]
  have hkept : ∀ {i : Nat} {a : RequestedSave}, i ≠ index → s.saves[i]? = some a →
      s'.saves[i]? = some a := by
    intro i a hne hi
    rw [hsaves, List.getElem?_set_ne (Ne.symm hne)]
    exact hi
  constructor
  case tracked => exact htracked
  case writing =>
      rw [hsaves]
      exact h.writing.set_same hsave rfl
  case front =>
      intro i a j b hi ha hj hfile
      rcases hfind hi with ⟨_, hi⟩ | ⟨rfl, rfl⟩
      · rcases hfind hj with ⟨_, hj⟩ | ⟨rfl, rfl⟩
        · exact h.front i a j b hi ha hj hfile
        · exact h.front i a j save hi ha hsave hfile
      · simp [RequestedSave.returned, hstage] at ha
  case contents =>
      intro i a hi hlanded hlast
      rw [hdisk]
      exact h.contents_set hsave hsaves rfl rfl rfl hi hlanded hlast
  case later =>
      intro i a j b hij hi hwaits hj htab
      rcases hfind hi with ⟨_, hi⟩ | ⟨rfl, rfl⟩
      · rcases hfind hj with ⟨_, hj⟩ | ⟨rfl, rfl⟩
        · exact h.later i a j b hij hi hwaits hj htab
        · exact h.later i a j save hij hi hwaits hsave htab
      · cases hwaits
  case here =>
      intro tab htab path hloc other hother hid hwaits hkind
      rcases htabs tab htab with ⟨old, hold, hsame, hmoved⟩
      have hother' : ∃ j, j ≠ index ∧ s.saves[j]? = some other := by
        rcases List.getElem?_of_mem hother with ⟨j, hj⟩
        rcases hfind hj with ⟨hne, hj⟩ | ⟨rfl, rfl⟩
        · exact ⟨j, hne, hj⟩
        · cases hwaits
      rcases hother' with ⟨j, hne, hj⟩
      unfold MovedBy at hmoved
      split at hmoved
      · rename_i hmoves
        have htabId : other.tabId = save.tabId := (hid.trans hsame.symm).trans hmoves.1
        exact absurd (h.eq_of_completing hsave hopen hmoves.2.1 hfree hj htabId hwaits) hne
      · rw [hmoved] at hloc
        exact h.here old hold path hloc other (List.mem_of_getElem? hj)
          (hid.trans hsame.symm) hwaits hkind
  case place =>
      intro tab htab path hloc i a hi hid hover hdone
      rcases htabs tab htab with ⟨old, hold, hsame, hmoved⟩
      unfold MovedBy at hmoved
      split at hmoved
      · rename_i hmoves
        rw [hmoved] at hloc
        cases hloc
        rw [hwritten]
        have htabId : save.tabId = tab.id := hmoves.1.symm.trans hsame
        rcases hfind hi with ⟨hne, hi⟩ | ⟨rfl, rfl⟩
        · rcases Nat.lt_or_gt_of_ne hne with hbefore | hafter
          · exact Or.inr ⟨index, _, hbefore, hself, hstage.trans (congrArg _ hmoves.2.2), rfl⟩
          · rcases h.later index save i a hafter hsave hopen hi (hid.trans htabId.symm) with
              hfailed | ⟨_, hfile⟩
            · rw [hstage, hmoves.2.2] at hfailed
              cases hfailed
            · exact Or.inl hfile
        · exact Or.inl rfl
      · rename_i hstays
        rw [hmoved] at hloc
        rcases hfind hi with ⟨hne, hi⟩ | ⟨rfl, rfl⟩
        · rcases h.place old hold path hloc i a hi (hid.trans hsame.symm) hover hdone with
            hfile | ⟨j, b, hij, hj, hb⟩
          · exact Or.inl hfile
          · by_cases hindex : j = index
            · subst hindex
              rw [hsave] at hj
              cases hj
              exact Or.inr ⟨j, _, hij, hself, hb⟩
            · exact Or.inr ⟨j, b, hij, hkept hindex hj, hb⟩
        · have hkind : save.isSaveAs = false := by
            by_contra hmoves
            refine hstays ⟨hsame.trans hid.symm, by simpa using hmoves, ?_⟩
            exact WriteStage.over.inj (hstage.symm.trans hover)
          exact Or.inl (h.here old hold path hloc save hmem (hid.trans hsame.symm) hopen hkind)

/-- Tabs that come from tabs with their ids and places leave the order of the saves as it is. -/
theorem Ordered.kept (h : Ordered links s) (htracked : Tracked s') (hsaves : s'.saves = s.saves)
    (hdisk : s'.disk = s.disk)
    (htabs : ∀ tab ∈ s'.tabs, ∃ old ∈ s.tabs, old.id = tab.id ∧ tab.location = old.location) :
    Ordered links s' := by
  constructor
  case tracked => exact htracked
  case writing => exact hsaves ▸ h.writing
  case front => exact hsaves ▸ h.front
  case contents => exact hsaves ▸ hdisk ▸ h.contents
  case later => exact hsaves ▸ h.later
  case here =>
      intro tab htab path hloc save hsave hid
      rcases htabs tab htab with ⟨old, hold, hsame, hlocs⟩
      exact h.here old hold path (hlocs ▸ hloc) save (hsaves ▸ hsave) (hid.trans hsame.symm)
  case place =>
      intro tab htab path hloc i a hi hid
      rcases htabs tab htab with ⟨old, hold, hsame, hlocs⟩
      rw [hsaves] at hi ⊢
      exact h.place old hold path (hlocs ▸ hloc) i a hi (hid.trans hsame.symm)

/-- No save is about a tab that was just opened. -/
theorem Ordered.opened (h : Ordered links s) {tab : Nat → EditorTab}
    (hid : ∀ id, (tab id).id = id) : Ordered links (s.addTab tab) := by
  have hnew : ∀ {save : RequestedSave}, save ∈ s.saves → save.tabId ≠ (tab s.nextTabId).id := by
    intro save hsave hsame
    have hlt := h.tracked.owned save hsave
    rw [hsame, hid] at hlt
    exact absurd hlt (Nat.lt_irrefl _)
  constructor
  case tracked => exact h.tracked.opened hid
  case writing => exact h.writing
  case front => exact h.front
  case contents => exact h.contents
  case later => exact h.later
  case here =>
      intro other hother path hloc save hsave hsame
      rcases List.mem_append.mp hother with hold | hother
      · exact h.here other hold path hloc save hsave hsame
      · exact absurd (hsame.trans (congrArg _ (List.mem_singleton.mp hother))) (hnew hsave)
  case place =>
      intro other hother path hloc i a hi hsame
      rcases List.mem_append.mp hother with hold | hother
      · exact h.place other hold path hloc i a hi hsame
      · exact absurd (hsame.trans (congrArg _ (List.mem_singleton.mp hother)))
          (hnew (List.mem_of_getElem? hi))

theorem Ordered.dispatched (h : Ordered links s) {kind : SaveKind} {tabId : Nat} {path : PathBuf}
    {bytes : List UInt8} (hfree : s.isBlocked = false) (hidle : s.inflightSaves tabId = none)
    (hkind : kind ≠ .blocking)
    (hknown : tabId < s.nextTabId ∨ ∃ tab ∈ s.tabs, tab.id = tabId)
    (hplace : kind = .save → ∃ tab ∈ s.tabs, tab.id = tabId ∧ tab.location = .localPath path)
    (hclear : s.FileIdle links path) : Ordered links (s.dispatch kind tabId path bytes) := by
  refine h.appended (h.tracked.dispatched path bytes hkind hidle hknown) rfl rfl rfl
    (fun tab => mem_dispatch_tabs) hclear ?_ ?_
  · -- a tab without a note has nothing to complete
    intro other hother hsame hopen
    have hside : other.kind ≠ .blocking := by
      intro hblocking
      have hany := List.any_eq_false.mp hfree other hother
      simp [hblocking, hopen] at hany
    have hout : other.outstandingFor = some tabId :=
      (if_pos ⟨hside, hopen⟩).trans (congrArg some hsame)
    exact absurd hout (h.tracked.idle hidle other hother)
  · intro hsave tab htab hsame other hloc
    have hkind' : kind = .save := by
      cases kind with
      | save => rfl
      | saveAs encoding => cases hsave
      | blocking => exact absurd rfl hkind
    rcases hplace hkind' with ⟨old, hold, hid, holdloc⟩
    have hboth := h.tracked.places tab htab old hold (hsame.trans hid.symm)
    rw [hloc, holdloc] at hboth
    cases hboth
    rfl

theorem Ordered.blocked (h : Ordered links s) {tab : EditorTab} {path : PathBuf}
    {save : RequestedSave} (htab : tab ∈ s.tabs) (hloc : tab.location = .localPath path)
    (hclear : s.FileIdle links path ∧ s.TabSettled links tab.id path)
    (hsave : save.kind = .blocking ∧ save.tabId = tab.id ∧ save.completion.path = path ∧
      save.stage = .queued ∧ save.completed = false)
    (hsaves : s'.saves = s.saves ++ [save]) (hinflight : s'.inflightSaves = s.inflightSaves)
    (hdisk : s'.disk = s.disk) (hnext : s'.nextTabId = s.nextTabId) (htabs : s'.tabs = s.tabs) :
    Ordered links s' := by
  rcases hsave with ⟨hkind, hid, rfl, hstage, hopen⟩
  refine h.appended (h.tracked.blocked htab hkind hid hopen hsaves hinflight hnext htabs) hstage
    hsaves hdisk (fun old hold => ⟨old, htabs ▸ hold, rfl, rfl⟩) hclear.1 ?_ ?_
  · intro other hother hsame hwaits
    rcases hclear.2 other hother (hsame.trans hid) hwaits with hfailed | ⟨hover, hfile⟩
    · exact Or.inl hfailed
    · exact Or.inr ⟨hover, hfile.symm⟩
  · intro _ other hother hsame path hother'
    have hboth := h.tracked.places other hother tab htab (hsame.trans hid)
    rw [hother', hloc] at hboth
    cases hboth
    rfl

theorem Ordered.move (h : Ordered links s) (hserial : serial)
    (hmove : SavingMove serial links s s') :
    Ordered links s' := by
  have htracked := h.tracked.move hmove
  cases hmove with
  | kept hsaves hinflight hdisk hnext htabs => exact h.kept htracked hsaves hdisk htabs
  | opened tab hid hstep => exact hstep ▸ h.opened hid
  | dispatched kind tabId path bytes hfree hidle hkind hknown hplace hclear hstep =>
      exact hstep ▸ h.dispatched hfree hidle hkind hknown hplace (hclear hserial)
  | blocked tab path save hfree htab hloc hclear hsave hsaves hinflight hdisk hnext htabs =>
      exact h.blocked htab hloc (hclear hserial) hsave hsaves hinflight hdisk hnext htabs
  | staged index save stage modified hsave hadvance hsynced hsaves hinflight hdisk hnext htabs =>
      exact h.staged htracked hsave hadvance (hsynced hserial) hsaves hdisk htabs
  | completed index save succeeded written hwritten hsave hstage hopen hfree hsaves hinflight hdisk
      hnext htabs =>
      exact h.completed htracked hwritten hsave hstage hopen hfree hsaves hdisk htabs

/-! ## What a run leaves on disk -/

theorem unreturnedFor_of_writingFor {save : RequestedSave} {tabId : Nat}
    (h : save.writingFor = some tabId) : save.unreturnedFor = some tabId := by
  unfold RequestedSave.writingFor at h
  split at h
  · rename_i hstage
    rw [← h]
    rcases hstage with hstage | hstage <;>
      simp [RequestedSave.unreturnedFor, RequestedSave.returned, hstage]
  · cases h

theorem Ordered.moves (h : Ordered links s) (hserial : serial)
    (hmoves : SavingMoves serial links s s') : Ordered links s' := by
  obtain ⟨between, hfirst, hsecond⟩ := hmoves
  exact (h.move hserial hfirst).move hserial hsecond

theorem Ordered.newest (h : Ordered links s) {tab : EditorTab} (htab : tab ∈ s.tabs)
    {path : PathBuf} (hloc : tab.location = .localPath path) (hquiet : s.Quiet links tab.id path)
    {save : RequestedSave} (hsave : s.lastSaved links tab.id path = some save) :
    (s.disk (links.canonicalize path)).contents = some save.bytes := by
  rcases Tickets.getLast?_filter hsave with ⟨hnewest, i, hi, hlast⟩
  have hmem := List.mem_of_getElem? hi
  simp only [Bool.and_eq_true, Bool.or_eq_true, decide_eq_true_eq] at hnewest
  have hfile : save.file links = links.canonicalize path := by
    rcases hnewest.2 with hid | hfile
    · rcases h.place tab htab path hloc i save hi hid hnewest.1 (hquiet save hmem (Or.inl hid)) with
        hfile | ⟨j, b, hij, hj, hover, hfile⟩
      · exact hfile
      · have hbehind := hlast j b hij hj
        simp [hover, hfile] at hbehind
    · exact hfile
  rw [← hfile]
  refine h.contents i save hi (by simp [RequestedSave.landed, hnewest.1]) fun j b hij hj hsame => ?_
  have hbfile := hsame.trans hfile
  have hdone := hquiet b (List.mem_of_getElem? hj) (Or.inr hbfile)
  have hreturned := h.tracked.done b (List.mem_of_getElem? hj) hdone
  have hbehind := hlast j b hij hj
  simp only [hbfile, decide_true, Bool.or_true, Bool.and_true, decide_eq_false_iff_not] at hbehind
  unfold RequestedSave.returned at hreturned
  split at hreturned
  · rename_i stage hstage
    simp [RequestedSave.landed, hstage] at hbehind ⊢
    exact hbehind
  · cases hreturned

theorem Ordered.serialised (h : Ordered links s) : Serialised links s where
  inflight := h.tracked.inflight
  single := h.tracked.single
  writing := fun i j a b k hi hj ha hb => h.writing i j a b k hi hj
    (unreturnedFor_of_writingFor ha) (unreturnedFor_of_writingFor hb)
  newest := fun _ htab _ hloc hquiet _ hsave => h.newest htab hloc hquiet hsave

end SavingWindow

/--
In every run in which no save is requested over a write that has not returned,
the saves of a tab are serialised.
-/
theorem saves_serialised {encodings : Encodings} {links : Links} {disk : Disk}
    {actions : List SavingAction} {s : SavingWindow}
    (hserial : Guarded (SavingWindow.step encodings links) (SavingWindow.SerialStep encodings links)
      (SavingWindow.launched disk) actions)
    (hrun : run (SavingWindow.step encodings links) (SavingWindow.launched disk) actions = some s) :
    s.Serialised links :=
  (invariant_of_guarded (SavingWindow.Ordered links) (fun _ _ _ hordered hok hstep =>
    hordered.moves hok (SavingWindow.move_of_step hstep))
    (SavingWindow.ordered_launched links disk) hserial hrun).serialised

open SavingWindow

def sampleLinks : Links where
  canonicalize := id
  canonicalize_idem := fun _ => rfl

def samplePath (name : String) : PathBuf := ⟨asBytes name⟩

/-- The write of a background save runs to its end and is reported. -/
def sampleWrite (index : Nat) : List SavingAction :=
  [.startWrite index, .renameOver index none, .returnWrite index true, .complete index true]

/-- A tab is saved, edited, saved under another name and saved there. -/
def sampleSaving : List SavingAction :=
  [.openFile (samplePath "n"), .edit 0 (.ofText "b"), .save 0] ++ sampleWrite 0 ++
    [.finalizeSaveAs 0 (samplePath "m") (asBytes "c") UTF_8] ++ sampleWrite 1 ++
      [.edit 0 (.ofText "d"), .save 0] ++ sampleWrite 2

theorem saves_serialised_sample :
    (run (SavingWindow.step sampleEncodings sampleLinks) (.launched sampleDisk) sampleSaving).any
        (fun s => decide ((s.disk (samplePath "m")).contents = some (asBytes "d"))) = true ∧
      ∀ s, run (SavingWindow.step sampleEncodings sampleLinks) (.launched sampleDisk)
        sampleSaving = some s → s.Serialised sampleLinks :=
  ⟨by decide, fun _ hrun => saves_serialised (Guarded.of_guardedRun (by decide)) hrun⟩

def sampleFileTab (buffer : Rope) (modified : Bool) : EditorTab :=
  { EditorTab.fromFile
    { id := 0, path := samplePath "n", contents := "a", encoding := UTF_8,
      isModified := false } with
    content := buffer, modified := modified }

def sampleOpenFile (tab : EditorTab) : SavingWindow :=
  { launched sampleDisk with tabs := [tab], nextTabId := 1 }

/-- The tab is saved, and changed again before the write of the save has begun. -/
def sampleOutdated (older : Rope) (tab : EditorTab) (previousBaseline : Option SavedBaseline) :
    SavingWindow where
  tabs := [tab]
  nextTabId := 1
  disk := sampleDisk
  inflightSaves := Function.update (fun _ => none) 0 (some (samplePath "n"))
  closeWarnings := []
  saves := [
    { kind := .save
      completion :=
        { tabId := 0, path := samplePath "n", byteLen := (asBytes older.toText).length
          previousBaseline := previousBaseline }
      bytes := asBytes older.toText, stage := .queued, completed := false }]

theorem step_openFile_sample : step sampleEncodings sampleLinks (.launched sampleDisk)
    (.openFile (samplePath "n")) = some (sampleOpenFile (sampleFileTab (.ofText "a") false)) := by
  have hcontents : (sampleDisk (samplePath "n")).contents = some (asBytes "a") := rfl
  have hbinary : looksBinary (asBytes "a") = false := by decide
  have htab : Session.openedTab sampleEncodings 0 (samplePath "n") (asBytes "a") =
      sampleFileTab (.ofText "a") false := by
    simp only [Session.openedTab, detectEncodingAndDecode_asBytes]
    rfl
  simp [step, isBlocked, launched, uiStep, openFile, sampleLinks, hcontents, hbinary, addTab, htab,
    sampleOpenFile]

theorem step_save_sample (older : Rope) (modified : Bool) : ∃ previousBaseline,
    step sampleEncodings sampleLinks (sampleOpenFile (sampleFileTab older modified)) (.save 0) =
      some (sampleOutdated older (sampleFileTab older modified).markAsSaved previousBaseline) := by
  have htext : (sampleOpenFile (sampleFileTab older modified)).encodedTab sampleEncodings 0 =
      some (samplePath "n", asBytes older.toText) := by
    simp [encodedTab, findTab, sampleOpenFile, sampleFileTab, EditorTab.fromFile]
  refine ⟨captureSavedBaseline [sampleFileTab older modified] 0, congrArg some ?_⟩
  unfold saveFile
  rw [htext]
  rfl

theorem outdated_run (older newer : Rope) : ∃ modified previousBaseline,
    run (step sampleEncodings sampleLinks) (.launched sampleDisk)
      [.openFile (samplePath "n"), .edit 0 older, .save 0, .edit 0 newer] =
        some (sampleOutdated older
          { (sampleFileTab older false).markAsSaved with content := newer, modified := modified }
          previousBaseline) := by
  rcases (sampleFileTab (.ofText "a") false).edit_eq older with ⟨first, hfirst⟩
  rcases (sampleFileTab older first).markAsSaved.edit_eq newer with ⟨second, hsecond⟩
  rcases step_save_sample older first with ⟨baseline, hsave⟩
  have hedit : step sampleEncodings sampleLinks (sampleOpenFile (sampleFileTab (.ofText "a") false))
      (.edit 0 older) = some (sampleOpenFile (sampleFileTab older first)) :=
    congrArg (fun tab => some (sampleOpenFile tab)) hfirst
  have hagain : step sampleEncodings sampleLinks
      (sampleOutdated older (sampleFileTab older first).markAsSaved baseline) (.edit 0 newer) =
        some (sampleOutdated older
          { (sampleFileTab older false).markAsSaved with content := newer, modified := second }
          baseline) :=
    congrArg (fun tab => some (sampleOutdated older tab baseline)) hsecond
  refine ⟨second, baseline, ?_⟩
  rw [run_cons, step_openFile_sample, Option.bind_some, run_cons, hedit, Option.bind_some,
    run_cons, hsave, Option.bind_some, run_cons, hagain]
  rfl

theorem overtaken_run (older newer : Rope) {tab : EditorTab} {baseline : Option SavedBaseline}
    (hid : tab.id = 0) (hloc : tab.location = .localPath (samplePath "n"))
    (hlarge : tab.isLargeModifiedLocal = true)
    (htext : (sampleOutdated older tab baseline).encodedTab sampleEncodings 0 =
      some (samplePath "n", asBytes newer.toText)) :
    ∃ s, run (step sampleEncodings sampleLinks) (sampleOutdated older tab baseline)
      ([.warnClose 0, .saveOnWarning 0] ++ sampleWrite 1 ++ sampleWrite 0) = some s ∧
        (s.disk (samplePath "n")).contents = some (asBytes older.toText) ∧
        s.Quiet sampleLinks 0 (samplePath "n") ∧
        (s.lastSaved sampleLinks 0 (samplePath "n")).map RequestedSave.bytes =
          some (asBytes newer.toText) ∧
        ∃ tab ∈ s.tabs, tab.id = 0 ∧ tab.location = .localPath (samplePath "n") := by
  have hwarn : step sampleEncodings sampleLinks (sampleOutdated older tab baseline) (.warnClose 0) =
      some { sampleOutdated older tab baseline with closeWarnings := [0] } := by
    simp [step, isBlocked, sampleOutdated, uiStep, warnClose, findTab, hid, hlarge]
  have hsave : step sampleEncodings sampleLinks
      { sampleOutdated older tab baseline with closeWarnings := [0] } (.saveOnWarning 0) =
        some { sampleOutdated older tab baseline with
          saves := (sampleOutdated older tab baseline).saves ++
            [{ kind := .blocking
               completion :=
                { tabId := 0, path := samplePath "n", byteLen := (asBytes newer.toText).length
                  previousBaseline := none }
               bytes := asBytes newer.toText, stage := .queued, completed := false }] } := by
    refine congrArg some ?_
    change (sampleOutdated older tab baseline).saveLocalTabBlocking sampleEncodings 0 = _
    unfold saveLocalTabBlocking
    rw [htext]
  rw [List.append_assoc, List.cons_append, run_cons, hwarn, Option.bind_some, List.cons_append,
    run_cons, hsave, Option.bind_some]
  let written (kind : SaveKind) (text : Rope) (baseline : Option SavedBaseline) : RequestedSave :=
    { kind := kind
      completion :=
        { tabId := 0, path := samplePath "n", byteLen := (asBytes text.toText).length
          previousBaseline := baseline }
      bytes := asBytes text.toText, stage := .over true, completed := true }
  refine ⟨
    { tabs := updateEditorTab [tab] 0 EditorTab.markAsSaved
      nextTabId := 1
      disk := (sampleDisk.write (samplePath "n") (asBytes newer.toText) none).write (samplePath "n")
        (asBytes older.toText) none
      inflightSaves := Function.update (sampleOutdated older tab baseline).inflightSaves 0 none
      closeWarnings := []
      saves := [written .save older baseline, written .blocking newer none] },
    rfl, rfl, ?_, rfl, tab.markAsSaved, ?_, hid, hloc⟩
  · intro save hsave _
    rcases List.mem_pair.mp hsave with rfl | rfl <;> rfl
  · simp [updateEditorTab, hid]

/--
A large tab is saved, changed and closed before the save is written, and saved on the
warning.
-/
def sampleOvertakenSave (older newer : Rope) : List SavingAction :=
  [.openFile (samplePath "n"), .edit 0 older, .save 0, .edit 0 newer] ++
    ([.warnClose 0, .saveOnWarning 0] ++ sampleWrite 1 ++ sampleWrite 0)

theorem large_save_overtaken {older newer : Rope} (hlarge : isLargeFile newer.len = true)
    (hlen : newer.len ≠ older.len) :
    ∃ s, run (step sampleEncodings sampleLinks) (.launched sampleDisk)
      (sampleOvertakenSave older newer) = some s ∧
        (s.disk (samplePath "n")).contents = some (asBytes older.toText) ∧
        ¬s.Serialised sampleLinks := by
  rcases outdated_run older newer with ⟨modified, baseline, hstart⟩
  have hchanged : ({ (sampleFileTab older false).markAsSaved with
      content := newer, modified := modified } : EditorTab).isLargeModifiedLocal = true := by
    have hlen' : (sampleFileTab older false).markAsSaved.originalContentLen = older.len := by
      simp only [EditorTab.markAsSaved, apply_ite Prod.snd, contentFingerprintFromRope_eq]
      exact ite_self _
    simp only [EditorTab.isLargeModifiedLocal, EditorTab.contentTooLargeToPersist, hlarge,
      EditorTab.contentDiffersFromOriginal, hlen', if_pos hlen, Bool.or_true, Bool.and_true]
    rfl
  have htext : (sampleOutdated older { (sampleFileTab older false).markAsSaved with
      content := newer, modified := modified } baseline).encodedTab sampleEncodings 0 =
        some (samplePath "n", asBytes newer.toText) := by
    simp [encodedTab, findTab, sampleOutdated, sampleFileTab, EditorTab.fromFile,
      EditorTab.markAsSaved]
  rcases overtaken_run older newer rfl rfl hchanged htext with
    ⟨s, hrun, hdisk, hquiet, hnewest, tab, htab, hid, hloc⟩
  refine ⟨s, ?_, hdisk, fun hserialised => ?_⟩
  · rw [sampleOvertakenSave, run_append, hstart]
    exact hrun
  · rcases Option.map_eq_some_iff.mp hnewest with ⟨save, hsave, hbytes⟩
    have hcontents := hserialised.newest tab htab _ hloc (hid ▸ hquiet) save (hid ▸ hsave)
    rw [hbytes] at hcontents
    have hsame := congrArg fromUtf8 (Option.some.inj (hcontents.symm.trans hdisk))
    rw [fromUtf8_asBytes, fromUtf8_asBytes] at hsame
    exact hlen (congrArg String.utf8ByteSize (Option.some.inj hsame))

/-- A buffer of many chunks of one letter. -/
def sampleLargeBuffer (size : Nat) : Rope := ⟨List.replicate size "a"⟩

theorem sampleLargeBuffer_len (size : Nat) : (sampleLargeBuffer size).len = size := by
  induction size with
  | zero => rfl
  | succ size ih =>
      have htext :
        (sampleLargeBuffer (size + 1)).toText = "a" ++ (sampleLargeBuffer size).toText := rfl
      have hone : "a".utf8ByteSize = 1 := rfl
      unfold Rope.len at ih ⊢
      rw [htext, String.utf8ByteSize_append, ih, hone, Nat.add_comm]

/-- The text of the first save is written over that of the second, and stays. -/
theorem blocking_save_overtakes : ∃ s, run (step sampleEncodings sampleLinks) (.launched sampleDisk)
    (sampleOvertakenSave (sampleLargeBuffer 52428801) (sampleLargeBuffer 52428802)) = some s ∧
      (s.disk (samplePath "n")).contents = some (asBytes (sampleLargeBuffer 52428801).toText) ∧
      ¬s.Serialised sampleLinks := by
  apply large_save_overtaken
  · rw [sampleLargeBuffer_len]
    decide
  · rw [sampleLargeBuffer_len, sampleLargeBuffer_len]
    decide

end Fulgur
