import Fulgur.Files.CleanTabs

/-! # What a reload overwrites

A reload is dispatched when the watcher finds a clean tab, reads in the
background and is applied when the read reports back. Nothing looks at the tab
again in between, and nothing orders two reads of one path. A trace notes when
each reload was dispatched, when the buffer of a path was last edited, and which
of the reads applied so far ran last; a run in which nobody edits a tab that is
waiting for a reload, and in which reads report back in their order, overwrites
no edit and ends with the latest read.
-/

namespace Fulgur

open LabelledRun
open Session (Apart)
open WatchedSession (filePath_eq_some findTabByPath_some sessionIo_restoreTab)

structure ReloadTrace where
  watched : WatchedSession
  now : Nat
  /-- When each reload was dispatched, in the order of the reloads. -/
  dispatchedAt : List Nat
  /-- When a buffer was edited last, unless it was replaced since. -/
  editedAt : PathBuf → Option Nat
  /-- Of the reads that were applied to a path, the one that ran last. -/
  newestRead : PathBuf → Option (Nat × List UInt8)

namespace ReloadTrace

def launched (disk : Disk) (persisted : List TabState) : ReloadTrace where
  watched := WatchedSession.launched disk persisted
  now := 0
  dispatchedAt := []
  editedAt := fun _ => none
  newestRead := fun _ => none

/-- The path and the read of a reload that replaces a buffer when it finishes. -/
def appliedReload (w : WatchedSession) (index : Nat) : Option (PathBuf × Nat × List UInt8) :=
  match w.reloads[index]? with
  | some ⟨path, some io⟩ => (findTabByPath w.session.tabs path).map fun _ => (path, io)
  | _ => none

/-- A buffer that is new, as far as the trace goes. -/
def forget (r : ReloadTrace) (path : PathBuf) : ReloadTrace :=
  { r with
    editedAt := Function.update r.editedAt path none
    newestRead := Function.update r.newestRead path none }

def noteEdit (r : ReloadTrace) (tabId : Nat) : ReloadTrace :=
  { r with editedAt := fun path =>
      if r.watched.session.tabs.any fun tab => tab.id = tabId ∧ tab.filePath = some path then
        some r.now
      else r.editedAt path }

/-- The buffer of a renamed file takes what is noted of it to the new path. -/
def noteMove (r : ReloadTrace) (source target : PathBuf) : ReloadTrace :=
  { r with
    editedAt := Function.update r.editedAt target (r.editedAt source)
    newestRead := Function.update r.newestRead target (r.newestRead source) }

def noteReload (r : ReloadTrace) (path : PathBuf) (io : Nat × List UInt8) : ReloadTrace :=
  { r with
    editedAt := Function.update r.editedAt path none
    newestRead := Function.update r.newestRead path
      (some (WatchedSession.newerIo (r.newestRead path) io)) }

/-- What a step does to the buffers. -/
def noteStep (r : ReloadTrace) : WatchAction → ReloadTrace
  | .session (.edit tabId _) => r.noteEdit tabId
  | .session (.replace tabId _) => r.noteEdit tabId
  | .session (.openFile _ path) => r.forget path
  | .session (.restoreTab state) =>
      match state.filePath with
      | none => r
      | some path => r.forget path
  | .finishReload index =>
      match appliedReload r.watched index with
      | none => r
      | some (path, io) => r.noteReload path io
  | .event (.renamed source target) recent =>
      if r.watched.shouldSuppressFileWatchEvent source recent then r
      else
        match findTabByPath r.watched.session.tabs source with
        | none => r
        | some _ => r.noteMove source target
  | _ => r

def dispatchTimes (r : ReloadTrace) (action : WatchAction) (w : WatchedSession) : List Nat :=
  match action with
  | .finishReload index => r.dispatchedAt.eraseIdx index
  | .readReload index =>
      if w.reloads.length < r.watched.reloads.length then r.dispatchedAt.eraseIdx index
      else r.dispatchedAt
  | _ =>
      if r.watched.reloads.length < w.reloads.length then r.dispatchedAt ++ [r.now]
      else r.dispatchedAt

def step (encodings : Encodings) (parse : String → Option Int) (r : ReloadTrace)
    (action : WatchAction) : Option ReloadTrace :=
  (r.watched.step encodings parse action).map fun w =>
    { r.noteStep action with
      watched := w
      now := r.now + 1
      dispatchedAt := r.dispatchTimes action w }

/-! ## What a run keeps, and under which steps -/

/-- A reload that replaces a buffer replaces no edit made after it was dispatched. -/
def KeepsEdits (r : ReloadTrace) : WatchAction → Prop
  | .finishReload index =>
      ∀ applied ∈ appliedReload r.watched index,
        ∃ dispatch ∈ r.dispatchedAt[index]?, ∀ edit ∈ r.editedAt applied.1, edit < dispatch
  | _ => True

instance (r : ReloadTrace) (action : WatchAction) : Decidable (r.KeepsEdits action) :=
  match action with
  | .finishReload index => inferInstanceAs (Decidable (∀ applied ∈ appliedReload r.watched index,
      ∃ dispatch ∈ r.dispatchedAt[index]?, ∀ edit ∈ r.editedAt applied.1, edit < dispatch))
  | .session _ => isTrue trivial
  | .external _ _ => isTrue trivial
  | .event _ _ => isTrue trivial
  | .setActiveTab _ => isTrue trivial
  | .answerConflict _ _ => isTrue trivial
  | .reloadReopened _ _ => isTrue trivial
  | .readReload _ => isTrue trivial

/-- A buffer that was reloaded and not edited since shows the latest of the reads applied. -/
def ShowsLatestRead (encodings : Encodings) (r : ReloadTrace) : Prop :=
  ∀ tab ∈ r.watched.session.tabs, ∀ path ∈ tab.filePath, r.editedAt path = none →
    ∀ io ∈ r.newestRead path,
      tab.content.toText = (detectEncodingAndDecode encodings io.2).content

instance (encodings : Encodings) (r : ReloadTrace) : Decidable (r.ShowsLatestRead encodings) :=
  inferInstanceAs (Decidable (∀ tab ∈ r.watched.session.tabs, ∀ path ∈ tab.filePath,
    r.editedAt path = none → ∀ io ∈ r.newestRead path, _))

/--
What a run must keep to: each path is open in one tab, no tab is edited while a
reload of its path is on its way, no tab moves to a path that is open or waits for
a reload, and no reload is applied after one whose read ran later.
-/
def OrderedStep (r : ReloadTrace) : WatchAction → Prop
  | .session (.openFile _ path) =>
      ∀ tab ∈ r.watched.session.tabs, tab.location ≠ .localPath path
  | .session (.restoreTab state) =>
      ∀ path ∈ state.filePath, ∀ tab ∈ r.watched.session.tabs, tab.location ≠ .localPath path
  | .session (.edit tabId _) =>
      ∀ tab ∈ r.watched.session.tabs, tab.id = tabId → ∀ path ∈ tab.filePath,
        ∀ reload ∈ r.watched.reloads, reload.path ≠ path
  | .session (.replace tabId _) =>
      ∀ tab ∈ r.watched.session.tabs, tab.id = tabId → ∀ path ∈ tab.filePath,
        ∀ reload ∈ r.watched.reloads, reload.path ≠ path
  | .event (.renamed source target) recent =>
      r.watched.shouldSuppressFileWatchEvent source recent = true ∨
        ∀ tab ∈ r.watched.session.tabs, tab.filePath = some source →
          (∀ reload ∈ r.watched.reloads, reload.path ≠ target) ∧
            ∀ other ∈ r.watched.session.tabs, other.location ≠ .localPath target
  | .finishReload index =>
      ∀ applied ∈ appliedReload r.watched index, ∀ newest ∈ r.newestRead applied.1,
        newest.1 ≤ applied.2.1
  | _ => True

instance (r : ReloadTrace) (action : WatchAction) : Decidable (r.OrderedStep action) :=
  match action with
  | .session (.openFile _ _) => inferInstanceAs (Decidable (∀ tab ∈ r.watched.session.tabs, _))
  | .session (.restoreTab state) =>
      inferInstanceAs (Decidable (∀ path ∈ state.filePath, ∀ tab ∈ r.watched.session.tabs, _))
  | .session (.edit tabId _) =>
      inferInstanceAs (Decidable (∀ tab ∈ r.watched.session.tabs, tab.id = tabId →
        ∀ path ∈ tab.filePath, ∀ reload ∈ r.watched.reloads, _))
  | .session (.replace tabId _) =>
      inferInstanceAs (Decidable (∀ tab ∈ r.watched.session.tabs, tab.id = tabId →
        ∀ path ∈ tab.filePath, ∀ reload ∈ r.watched.reloads, _))
  | .event (.renamed source _) _ =>
      inferInstanceAs (Decidable (_ ∨ ∀ tab ∈ r.watched.session.tabs, tab.filePath = some source →
        (∀ reload ∈ r.watched.reloads, _) ∧ ∀ other ∈ r.watched.session.tabs, _))
  | .finishReload index => inferInstanceAs (Decidable (∀ applied ∈ appliedReload r.watched index,
      ∀ newest ∈ r.newestRead applied.1, _))
  | .session (.save _) => isTrue trivial
  | .session (.write _ _ _) => isTrue trivial
  | .session (.complete _) => isTrue trivial
  | .session .saveStateAsync => isTrue trivial
  | .session (.flush _) => isTrue trivial
  | .session (.quit _) => isTrue trivial
  | .session .exit => isTrue trivial
  | .external _ _ => isTrue trivial
  | .event (.modified _) _ => isTrue trivial
  | .event (.deleted _) _ => isTrue trivial
  | .event (.error _) _ => isTrue trivial
  | .setActiveTab _ => isTrue trivial
  | .answerConflict _ _ => isTrue trivial
  | .reloadReopened _ _ => isTrue trivial
  | .readReload _ => isTrue trivial

/-! ## The invariant of a trace -/

/-- Edits are older than the reloads on their way, and reloaded buffers show the latest read. -/
structure Ordered (encodings : Encodings) (r : ReloadTrace) : Prop where
  apart : Apart r.watched.session.tabs
  aligned : r.dispatchedAt.length = r.watched.reloads.length
  past : ∀ path, ∀ edit ∈ r.editedAt path, edit < r.now
  edits : ∀ (index : Nat) (reload : Reload) (dispatch : Nat),
    r.watched.reloads[index]? = some reload → r.dispatchedAt[index]? = some dispatch →
      ∀ edit ∈ r.editedAt reload.path, edit < dispatch
  shown : r.ShowsLatestRead encodings

variable {encodings : Encodings} {parse : String → Option Int} {r : ReloadTrace}

theorem ordered_launched (disk : Disk) (persisted : List TabState) :
    Ordered encodings (launched disk persisted) where
  apart := ⟨by simp [launched, WatchedSession.launched, Session.launched],
    by simp [launched, WatchedSession.launched, Session.launched]⟩
  aligned := rfl
  past := by simp [launched]
  edits := by simp [launched]
  shown := by simp [ShowsLatestRead, launched]

/-! ## Which reloads a step leaves behind -/

/-- After the step every reload is an old one with its dispatch time, or was dispatched just now. -/
structure Follows (r : ReloadTrace) (reloads : List Reload) (times : List Nat) : Prop where
  aligned : times.length = reloads.length
  origin : ∀ (index : Nat) (reload : Reload) (dispatch : Nat),
    reloads[index]? = some reload → times[index]? = some dispatch → dispatch = r.now ∨
      ∃ (before : Nat) (old : Reload), r.watched.reloads[before]? = some old ∧
        old.path = reload.path ∧ r.dispatchedAt[before]? = some dispatch

theorem Ordered.followsSame (h : Ordered encodings r) :
    Follows r r.watched.reloads r.dispatchedAt where
  aligned := h.aligned
  origin := fun index reload _ hreload hdispatch => Or.inr ⟨index, reload, hreload, rfl, hdispatch⟩

theorem Ordered.followsAppend (h : Ordered encodings r) (path : PathBuf) :
    Follows r (r.watched.reloads ++ [⟨path, none⟩]) (r.dispatchedAt ++ [r.now]) where
  aligned := by simp [h.aligned]
  origin := by
    intro index reload dispatch hreload hdispatch
    by_cases hold : index < r.watched.reloads.length
    · rw [List.getElem?_append_left hold] at hreload
      rw [List.getElem?_append_left (h.aligned ▸ hold)] at hdispatch
      exact Or.inr ⟨index, reload, hreload, rfl, hdispatch⟩
    · left
      have hpast : r.dispatchedAt.length ≤ index := by
        have hlength := h.aligned
        omega
      rw [List.getElem?_append_right hpast] at hdispatch
      have hlast := List.mem_of_getElem? hdispatch
      exact List.mem_singleton.mp hlast

theorem Ordered.followsErase (h : Ordered encodings r) (index : Nat) :
    Follows r (r.watched.reloads.eraseIdx index) (r.dispatchedAt.eraseIdx index) where
  aligned := by
    have hlength := h.aligned
    simp only [List.length_eraseIdx, hlength]
  origin := by
    intro place reload dispatch hreload hdispatch
    right
    rw [List.getElem?_eraseIdx] at hreload hdispatch
    by_cases hbefore : place < index
    · rw [if_pos hbefore] at hreload hdispatch
      exact ⟨place, reload, hreload, rfl, hdispatch⟩
    · rw [if_neg hbefore] at hreload hdispatch
      exact ⟨place + 1, reload, hreload, rfl, hdispatch⟩

theorem Ordered.followsSet (h : Ordered encodings r) {index : Nat} {path : PathBuf}
    {readBefore : Option (Nat × List UInt8)} (read : Option (Nat × List UInt8))
    (hindex : r.watched.reloads[index]? = some ⟨path, readBefore⟩) :
    Follows r (r.watched.reloads.set index ⟨path, read⟩) r.dispatchedAt where
  aligned := by simp [h.aligned]
  origin := by
    intro place reload dispatch hreload hdispatch
    right
    by_cases hplace : index = place
    · subst hplace
      rw [List.getElem?_set_self (List.getElem?_eq_some_iff.mp hindex).1] at hreload
      cases hreload
      exact ⟨index, _, hindex, rfl, hdispatch⟩
    · rw [List.getElem?_set_ne hplace] at hreload
      exact ⟨place, reload, hreload, rfl, hdispatch⟩

/-- What a step must provide to keep the invariant. -/
theorem Ordered.next (h : Ordered encodings r) {r' : ReloadTrace}
    (happart : Apart r'.watched.session.tabs) (hnow : r'.now = r.now + 1)
    (hfollows : Follows r r'.watched.reloads r'.dispatchedAt)
    (hedits : ∀ path, ∀ edit ∈ r'.editedAt path, edit ∈ r.editedAt path ∨
      (edit ≤ r.now ∧ ∀ reload ∈ r'.watched.reloads, reload.path ≠ path))
    (hshown : r'.ShowsLatestRead encodings) : Ordered encodings r' where
  apart := happart
  aligned := hfollows.aligned
  past := by
    intro path edit hedit
    rcases hedits path edit hedit with hold | ⟨hjust, _⟩
    · have hpast := h.past path edit hold
      omega
    · omega
  edits := by
    intro index reload dispatch hreload hdispatch edit hedit
    rcases hedits reload.path edit hedit with hold | ⟨_, hfree⟩
    · rcases hfollows.origin index reload dispatch hreload hdispatch with hjust |
        ⟨before, old, hbefore, hpath, htime⟩
      · have hpast := h.past reload.path edit hold
        omega
      · exact h.edits before old dispatch hbefore htime edit (hpath ▸ hold)
    · exact absurd rfl (hfree reload (List.mem_of_getElem? hreload))
  shown := hshown

/-! ## What a step does to the tabs and to the reloads -/

/-- The tabs are the same, or one of them changed and kept its place and its text. -/
def KeepsTexts (tabs tabs' : List EditorTab) : Prop :=
  ∃ (tabId : Nat) (f : EditorTab → EditorTab), KeepsPlace f ∧
    (∀ tab, (f tab).content = tab.content) ∧ tabs' = updateEditorTab tabs tabId f

theorem keepsTexts_of_eq {tabs tabs' : List EditorTab} (h : tabs' = tabs) :
    KeepsTexts tabs tabs' :=
  ⟨0, fun tab => tab, keepsPlace_self, fun _ => rfl, by rw [updateEditorTab_self, h]⟩

theorem KeepsTexts.mem {tabs tabs' : List EditorTab} (h : KeepsTexts tabs tabs') {tab : EditorTab}
    (htab : tab ∈ tabs') :
    ∃ old ∈ tabs, tab.filePath = old.filePath ∧ tab.content = old.content := by
  rcases h with ⟨tabId, f, hf, hcontent, rfl⟩
  rcases mem_updateEditorTab htab with ⟨old, hold, ⟨_, rfl⟩ | ⟨_, rfl⟩⟩
  · refine ⟨old, hold, ?_, hcontent old⟩
    simp only [EditorTab.filePath, hf.location]
  · exact ⟨tab, hold, rfl, rfl⟩

/-- A step that reads nothing and applies nothing dispatches one reload at most. -/
def Dispatches (w w' : WatchedSession) : Prop :=
  w'.reloads = w.reloads ∨ ∃ path, w'.reloads = w.reloads ++ [⟨path, none⟩]

theorem dispatches_showFileConflictDialog (w : WatchedSession) (path : PathBuf) (tabId : Nat) :
    (w.showFileConflictDialog path tabId).reloads = w.reloads := by
  unfold WatchedSession.showFileConflictDialog
  split
  · rfl
  · rfl

theorem dispatches_applyExternalModification (w : WatchedSession) (path : PathBuf) :
    Dispatches w (w.applyExternalModification path) := by
  unfold WatchedSession.applyExternalModification
  split
  · exact Or.inl rfl
  · rename_i tab _
    split
    · split
      · exact Or.inl (dispatches_showFileConflictDialog w path tab.id)
      · exact Or.inl rfl
    · exact Or.inr ⟨path, rfl⟩

theorem dispatches_reloadWatchedTabById (w : WatchedSession) (tabId : Nat) (path : PathBuf) :
    Dispatches w (w.reloadWatchedTabById tabId path) := by
  unfold WatchedSession.reloadWatchedTabById
  split
  · exact Or.inr ⟨path, rfl⟩
  · exact Or.inl rfl

theorem markTabDeletedExternally_reloads (w : WatchedSession) (path : PathBuf) :
    (w.markTabDeletedExternally path).reloads = w.reloads := by
  unfold WatchedSession.markTabDeletedExternally
  split
  · rfl
  · rfl

theorem moveRenamedTab_reloads (w : WatchedSession) (source target : PathBuf) :
    (w.moveRenamedTab source target).reloads = w.reloads := by
  unfold WatchedSession.moveRenamedTab
  split
  · rfl
  · rfl

theorem dispatches_handleFileWatchEvent (w : WatchedSession) (event : FileWatchEvent)
    (recent : Bool) : Dispatches w (w.handleFileWatchEvent event recent) := by
  cases event with
  | modified path =>
      show Dispatches w (if w.shouldSuppressFileWatchEvent path recent then _ else _)
      split
      · exact Or.inl rfl
      · exact dispatches_applyExternalModification w path
  | deleted path =>
      show Dispatches w (if w.shouldSuppressFileWatchEvent path recent then _ else _)
      split
      · exact Or.inl rfl
      · split
        · exact dispatches_applyExternalModification (w.forgetPendingConflict path) path
        · exact Or.inl (markTabDeletedExternally_reloads w path)
  | renamed source target =>
      show Dispatches w (if w.shouldSuppressFileWatchEvent source recent then _ else _)
      split
      · exact Or.inl rfl
      · exact Or.inl (moveRenamedTab_reloads w source target)
  | error msg => exact Or.inl rfl

theorem dispatches_setActiveTab (w : WatchedSession) (tabId : Nat) :
    (w.setActiveTab tabId).reloads = w.reloads := by
  unfold WatchedSession.setActiveTab WatchedSession.showPendingConflict
  split
  · rfl
  · split
    · exact dispatches_showFileConflictDialog _ _ tabId
    · rfl

theorem dispatches_answerConflict {w w' : WatchedSession} {path : PathBuf} {load : Bool}
    (h : w.answerConflict path load = some w') : Dispatches w w' := by
  unfold WatchedSession.answerConflict at h
  split at h
  · cases h
  · rename_i dialog hdialog
    cases h
    cases load with
    | true => exact dispatches_reloadWatchedTabById _ dialog.2 path
    | false => exact Or.inl rfl

theorem afterSession_reloads {w : WatchedSession} (action : SessionAction) (s : Session) :
    (w.afterSession parse action s).reloads = w.reloads := by
  rcases w.renewWatch_eq action with ⟨pending, hrenew⟩
  unfold WatchedSession.afterSession
  rw [hrenew]
  cases sessionIo parse w.session action <;> rfl

/-- A report that a file is gone marks its tab and leaves the text alone. -/
theorem keepsTexts_handleFileWatchEvent (w : WatchedSession) {event : FileWatchEvent}
    (recent : Bool) (hstays : ∀ source target, event ≠ .renamed source target) :
    KeepsTexts w.session.tabs (w.handleFileWatchEvent event recent).session.tabs := by
  cases event with
  | modified path =>
      show KeepsTexts w.session.tabs
        (if w.shouldSuppressFileWatchEvent path recent then _ else _ : WatchedSession).session.tabs
      split
      · exact keepsTexts_of_eq rfl
      · exact keepsTexts_of_eq (w.agrees_applyExternalModification path).tabs
  | deleted path =>
      show KeepsTexts w.session.tabs
        (if w.shouldSuppressFileWatchEvent path recent then _ else _ : WatchedSession).session.tabs
      split
      · exact keepsTexts_of_eq rfl
      · split
        · exact keepsTexts_of_eq
            (WatchedSession.agrees_applyExternalModification
              (w.forgetPendingConflict path) path).tabs
        · unfold WatchedSession.markTabDeletedExternally
          split
          · exact keepsTexts_of_eq rfl
          · rename_i tab _
            exact ⟨tab.id, _, keepsPlace_marked, fun _ => rfl, rfl⟩
  | renamed source target => exact absurd rfl (hstays source target)
  | error msg => exact keepsTexts_of_eq rfl

/-! ## Steps -/

/-- The trace after a step, once it is known what the step did to the buffers. -/
def after (r noted : ReloadTrace) (action : WatchAction) (w : WatchedSession) : ReloadTrace :=
  { noted with watched := w, now := r.now + 1, dispatchedAt := r.dispatchTimes action w }

/-- The dispatch times after a step that neither reads nor applies. -/
def dispatched (r : ReloadTrace) (w : WatchedSession) : List Nat :=
  if r.watched.reloads.length < w.reloads.length then r.dispatchedAt ++ [r.now]
  else r.dispatchedAt

theorem Ordered.followsDispatches (h : Ordered encodings r) {w : WatchedSession}
    (hreloads : Dispatches r.watched w) : Follows r w.reloads (r.dispatched w) := by
  rcases hreloads with hsame | ⟨path, happend⟩
  · have htimes : r.dispatched w = r.dispatchedAt := by simp [dispatched, hsame]
    rw [hsame, htimes]
    exact h.followsSame
  · have htimes : r.dispatched w = r.dispatchedAt ++ [r.now] := by simp [dispatched, happend]
    rw [happend, htimes]
    exact h.followsAppend path

theorem KeepsTexts.apart {tabs tabs' : List EditorTab} (h : KeepsTexts tabs tabs')
    (happart : Apart tabs) : Apart tabs' := by
  rcases h with ⟨tabId, f, hf, _, rfl⟩
  exact happart.update tabId hf

theorem KeepsTexts.showsLatestRead {tabs' : List EditorTab}
    (h : KeepsTexts r.watched.session.tabs tabs') (hshown : r.ShowsLatestRead encodings)
    {r' : ReloadTrace} (htabs : r'.watched.session.tabs = tabs') (hedits : r'.editedAt = r.editedAt)
    (hread : r'.newestRead = r.newestRead) : r'.ShowsLatestRead encodings := by
  intro tab htab path hpath hunedited io hio
  rw [htabs] at htab
  rw [hedits] at hunedited
  rw [hread] at hio
  rcases h.mem htab with ⟨old, hold, hplace, hcontent⟩
  rw [hcontent]
  exact hshown old hold path (hplace ▸ hpath) hunedited io hio

theorem Ordered.quiet (h : Ordered encodings r) {action : WatchAction} {w : WatchedSession}
    (htimes : r.dispatchTimes action w = r.dispatched w)
    (htexts : KeepsTexts r.watched.session.tabs w.session.tabs)
    (hreloads : Dispatches r.watched w) : Ordered encodings (r.after r action w) := by
  refine h.next ?_ rfl ?_ (fun _ _ hedit => Or.inl hedit) ?_
  · exact htexts.apart h.apart
  · show Follows r w.reloads (r.dispatchTimes action w)
    rw [htimes]
    exact h.followsDispatches hreloads
  · exact htexts.showsLatestRead h.shown rfl rfl rfl

theorem noteEdit_of_open {tabId : Nat} {path : PathBuf}
    (h : ∃ tab ∈ r.watched.session.tabs, tab.id = tabId ∧ tab.filePath = some path) :
    (r.noteEdit tabId).editedAt path = some r.now := by
  rcases h with ⟨tab, htab, hplace⟩
  exact if_pos (List.any_eq_true.mpr ⟨tab, htab, decide_eq_true hplace⟩)

theorem noteEdit_of_closed {tabId : Nat} {path : PathBuf}
    (h : ¬∃ tab ∈ r.watched.session.tabs, tab.id = tabId ∧ tab.filePath = some path) :
    (r.noteEdit tabId).editedAt path = r.editedAt path := by
  refine if_neg fun hopen => h ?_
  rcases List.any_eq_true.mp hopen with ⟨tab, htab, hplace⟩
  exact ⟨tab, htab, of_decide_eq_true hplace⟩

/-- An edit of a tab that waits for no reload. -/
theorem Ordered.edited (h : Ordered encodings r) {action : SessionAction} {tabId : Nat}
    {f : EditorTab → EditorTab} (hf : KeepsPlace f) {w : WatchedSession}
    (hsafe : ∀ tab ∈ r.watched.session.tabs, tab.id = tabId → ∀ path ∈ tab.filePath,
      ∀ reload ∈ r.watched.reloads, reload.path ≠ path)
    (htabs : w.session.tabs = updateEditorTab r.watched.session.tabs tabId f)
    (hreloads : w.reloads = r.watched.reloads) :
    Ordered encodings (r.after (r.noteEdit tabId) (.session action) w) := by
  refine h.next ?_ rfl (h.followsDispatches (Or.inl hreloads)) ?_ ?_
  · show Apart w.session.tabs
    rw [htabs]
    exact h.apart.update tabId hf
  · intro path edit hedit
    have hnoted : (r.noteEdit tabId).editedAt path = some edit := hedit
    by_cases hopen : ∃ tab ∈ r.watched.session.tabs, tab.id = tabId ∧ tab.filePath = some path
    · right
      rw [noteEdit_of_open hopen] at hnoted
      rcases hopen with ⟨tab, htab, hid, hpath⟩
      refine ⟨(Option.some.inj hnoted).ge, fun reload hreload => ?_⟩
      exact hsafe tab htab hid path hpath reload (hreloads ▸ hreload)
    · left
      rw [noteEdit_of_closed hopen] at hnoted
      exact hnoted
  · intro tab htab path hpath hunedited io hio
    have hnoted : (r.noteEdit tabId).editedAt path = none := hunedited
    have hmem : tab ∈ updateEditorTab r.watched.session.tabs tabId f := htabs ▸ htab
    rcases mem_updateEditorTab hmem with ⟨old, hold, ⟨hid, rfl⟩ | ⟨hid, rfl⟩⟩
    · -- the edited tab was edited just now
      have hplace : old.filePath = some path := by
        rw [filePath_eq_some, ← hf.location old]
        exact filePath_eq_some.mp hpath
      rw [noteEdit_of_open ⟨old, hold, hid, hplace⟩] at hnoted
      cases hnoted
    · have hclosed : ¬∃ other ∈ r.watched.session.tabs, other.id = tabId ∧
          other.filePath = some path := by
        rintro ⟨other, hother, hsame, hplace⟩
        have hequal := h.apart.paths other hother tab hold path (filePath_eq_some.mp hplace)
          (filePath_eq_some.mp hpath)
        exact hid (hequal ▸ hsame)
      rw [noteEdit_of_closed hclosed] at hnoted
      exact h.shown tab hold path hpath hnoted io hio

/-- A tab moves to a path that no tab has and no reload is on its way to. -/
theorem Ordered.moved (h : Ordered encodings r) {source target : PathBuf} {tab : EditorTab}
    {action : WatchAction} {w : WatchedSession}
    (htimes : r.dispatchTimes action w = r.dispatched w) (htab : tab ∈ r.watched.session.tabs)
    (hloc : tab.location = .localPath source)
    (htabs : w.session.tabs =
      updateEditorTab r.watched.session.tabs tab.id fun tab => tab.moveTo target)
    (hreloads : w.reloads = r.watched.reloads)
    (hidle : ∀ reload ∈ r.watched.reloads, reload.path ≠ target)
    (hfree : ∀ other ∈ r.watched.session.tabs, other.location ≠ .localPath target) :
    Ordered encodings (r.after (r.noteMove source target) action w) := by
  refine h.next ?_ rfl ?_ ?_ ?_
  · show Apart w.session.tabs
    rw [htabs]
    exact WatchedSession.Apart.moveTo h.apart tab.id hfree
  · show Follows r w.reloads (r.dispatchTimes action w)
    rw [htimes]
    exact h.followsDispatches (Or.inl hreloads)
  · intro path edit hedit
    have hnoted : Function.update r.editedAt target (r.editedAt source) path = some edit := hedit
    by_cases hpath : path = target
    · right
      rw [hpath, Function.update_self] at hnoted
      refine ⟨Nat.le_of_lt (h.past source edit hnoted), fun reload hreload => ?_⟩
      rw [hpath]
      exact hidle reload (hreloads ▸ hreload)
    · left
      rwa [Function.update_of_ne hpath] at hnoted
  · intro other hother path hpath hunedited io hio
    have hnoted : Function.update r.editedAt target (r.editedAt source) path = none := hunedited
    have hread : Function.update r.newestRead target (r.newestRead source) path = some io := hio
    have hmem := htabs ▸ hother
    rcases mem_updateEditorTab hmem with ⟨old, hold, ⟨hid, rfl⟩ | ⟨hid, rfl⟩⟩
    · have hequal : old = tab := h.apart.ids old hold tab htab hid
      cases filePath_eq_some.mp hpath
      rw [Function.update_self] at hnoted hread
      rw [hequal]
      exact h.shown tab htab source (filePath_eq_some.mpr hloc) hnoted io hread
    · have hne : path ≠ target := by
        rintro rfl
        exact hfree other hold (filePath_eq_some.mp hpath)
      rw [Function.update_of_ne hne] at hnoted hread
      exact h.shown other hold path hpath hnoted io hread

/-- A tab joins on a path that no other tab has, and about which nothing is noted. -/
theorem Ordered.joined (h : Ordered encodings r) {noted : ReloadTrace} {action : WatchAction}
    {w : WatchedSession} {tab : EditorTab} (htimes : r.dispatchTimes action w = r.dispatched w)
    (htabs : w.session.tabs = r.watched.session.tabs ++ [tab])
    (hreloads : w.reloads = r.watched.reloads)
    (hid : ∀ old ∈ r.watched.session.tabs, old.id ≠ tab.id)
    (hplace : ∀ path ∈ tab.filePath, noted.newestRead path = none ∧
      ∀ old ∈ r.watched.session.tabs, old.location ≠ .localPath path)
    (hedits : ∀ path, ∀ edit ∈ noted.editedAt path, edit ∈ r.editedAt path)
    (hkept : ∀ old ∈ r.watched.session.tabs, ∀ path ∈ old.filePath,
      noted.editedAt path = r.editedAt path ∧ noted.newestRead path = r.newestRead path) :
    Ordered encodings (r.after noted action w) := by
  refine h.next ?_ rfl ?_ (fun path edit hedit => Or.inl (hedits path edit hedit)) ?_
  · show Apart w.session.tabs
    rw [htabs]
    exact h.apart.append hid fun path hloc => (hplace path (filePath_eq_some.mpr hloc)).2
  · show Follows r w.reloads (r.dispatchTimes action w)
    rw [htimes]
    exact h.followsDispatches (Or.inl hreloads)
  · intro other hother path hpath hunedited io hio
    have hunedited' : noted.editedAt path = none := hunedited
    have hio' : noted.newestRead path = some io := hio
    have hmem : other ∈ r.watched.session.tabs ++ [tab] := htabs ▸ hother
    rcases List.mem_append.mp hmem with hold | hnew
    · rcases hkept other hold path hpath with ⟨hsameEdit, hsameRead⟩
      rw [hsameEdit] at hunedited'
      rw [hsameRead] at hio'
      exact h.shown other hold path hpath hunedited' io hio'
    · rw [List.mem_singleton.mp hnew] at hpath
      rw [(hplace path hpath).1] at hio'
      cases hio'

theorem forget_of_open {path other : PathBuf}
    (hfree : ∀ old ∈ r.watched.session.tabs, old.location ≠ .localPath path)
    {old : EditorTab} (hold : old ∈ r.watched.session.tabs) (hpath : old.filePath = some other) :
    (r.forget path).editedAt other = r.editedAt other ∧
      (r.forget path).newestRead other = r.newestRead other := by
  have hne : other ≠ path := by
    rintro rfl
    exact hfree old hold (filePath_eq_some.mp hpath)
  exact ⟨Function.update_of_ne hne _ _, Function.update_of_ne hne _ _⟩

theorem forget_editedAt {path other : PathBuf} {edit : Nat}
    (h : edit ∈ (r.forget path).editedAt other) : edit ∈ r.editedAt other := by
  have hnoted : Function.update r.editedAt path none other = some edit := h
  by_cases hsame : other = path
  · rw [hsame, Function.update_self] at hnoted
    cases hnoted
  · rw [Function.update_of_ne hsame] at hnoted
    exact hnoted

theorem forget_newestRead (path : PathBuf) : (r.forget path).newestRead path = none :=
  Function.update_self _ _ _

/-- Every step of the session that keeps to the order keeps the trace ordered. -/
theorem Ordered.sessionStep (h : Ordered encodings r) {action : SessionAction} {s : Session}
    (hsafe : r.OrderedStep (.session action))
    (hstep : Session.Transition encodings parse r.watched.session action s) :
    Ordered encodings (r.after (r.noteStep (.session action)) (.session action)
      (r.watched.afterSession parse action s)) := by
  have hreloads : (r.watched.afterSession parse action s).reloads = r.watched.reloads :=
    afterSession_reloads action s
  have htabs : (r.watched.afterSession parse action s).session.tabs = s.tabs := by
    rw [WatchedSession.afterSession_session]
  have hquiet : KeepsTexts r.watched.session.tabs
      (r.watched.afterSession parse action s).session.tabs →
        r.dispatchTimes (.session action) (r.watched.afterSession parse action s) =
          r.dispatched (r.watched.afterSession parse action s) →
        Ordered encodings (r.after r (.session action) (r.watched.afterSession parse action s)) :=
    fun htexts htimes => h.quiet htimes htexts (Or.inl hreloads)
  cases hstep with
  | opened tabId path bytes hphase hfresh hread =>
      apply h.joined rfl htabs hreloads
      · exact fun old hold => hfresh old hold
      · intro other hother
        cases hother
        exact ⟨forget_newestRead path, hsafe⟩
      · exact fun other edit hedit => forget_editedAt hedit
      · exact fun old hold other hpath => forget_of_open hsafe hold hpath
  | restored state tab hphase hfresh hrestore =>
      have hid : ∀ old ∈ r.watched.session.tabs, old.id ≠ tab.id :=
        restore_id hrestore ▸ hfresh
      have hlocal : ∀ path, tab.filePath = some path → state.filePath = some path := by
        intro path hpath
        rw [filePath_eq_some] at hpath
        rcases sessionIo_restoreTab hrestore with ⟨place, _, _, hsaved, hloc, _⟩ | ⟨_, hkept⟩
        · rw [hloc] at hpath
          cases hpath
          exact hsaved
        · exact (hkept path hpath).1
      cases hsaved : state.filePath with
      | none =>
          have hnote : r.noteStep (.session (.restoreTab state)) = r := by simp [noteStep, hsaved]
          rw [hnote]
          apply h.joined rfl htabs hreloads hid
          · intro path hpath
            rw [hlocal path hpath] at hsaved
            cases hsaved
          · exact fun _ _ hedit => hedit
          · exact fun _ _ _ _ => ⟨rfl, rfl⟩
      | some path =>
          have hnote : r.noteStep (.session (.restoreTab state)) = r.forget path := by
            simp [noteStep, hsaved]
          have hfree := hsafe path hsaved
          rw [hnote]
          apply h.joined rfl htabs hreloads hid
          · intro other hother
            have hsame : other = path := by
              have hplace := hlocal other hother
              rw [hsaved] at hplace
              exact (Option.some.inj hplace).symm
            rw [hsame]
            exact ⟨forget_newestRead path, hfree⟩
          · exact fun other edit hedit => forget_editedAt hedit
          · exact fun old hold other hpath => forget_of_open hfree hold hpath
  | edited tabId content hphase => exact h.edited (keepsPlace_edit content) hsafe htabs hreloads
  | replaced tabId content hphase =>
      exact h.edited (keepsPlace_setValue content) hsafe htabs hreloads
  | saved tab path bytes hphase htab hloc hencode hidle =>
      exact hquiet ⟨tab.id, _, keepsPlace_markAsSaved, fun _ => rfl, htabs⟩ rfl
  | rolledBack tabId save hphase hsave hresult =>
      exact hquiet ⟨tabId, _, keepsPlace_handleFailedSave save.completion,
        handleFailedSave_content save.completion, htabs⟩ rfl
  | notSaved tabId => exact hquiet (keepsTexts_of_eq htabs) rfl
  | landed tabId modified save hphase hsave hpending => exact hquiet (keepsTexts_of_eq htabs) rfl
  | writeFailed tabId modified save hphase hsave hpending =>
      exact hquiet (keepsTexts_of_eq htabs) rfl
  | completed tabId save hphase hsave hresult => exact hquiet (keepsTexts_of_eq htabs) rfl
  | snapshot hphase => exact hquiet (keepsTexts_of_eq htabs) rfl
  | flushed succeeds state hphase hmailbox => exact hquiet (keepsTexts_of_eq htabs) rfl
  | quitFailed hphase => exact hquiet (keepsTexts_of_eq htabs) rfl
  | quit hphase => exact hquiet (keepsTexts_of_eq htabs) rfl
  | exited hphase => exact hquiet (keepsTexts_of_eq htabs) rfl

/-- A watch event starts a reload, asks the user, marks a tab or moves one. -/
theorem Ordered.event (h : Ordered encodings r) {event : FileWatchEvent} {recent : Bool}
    (hsafe : r.OrderedStep (.event event recent)) :
    Ordered encodings (r.after (r.noteStep (.event event recent)) (.event event recent)
      (r.watched.handleFileWatchEvent event recent)) := by
  have hdispatches := dispatches_handleFileWatchEvent r.watched event recent
  cases event with
  | modified path =>
      exact h.quiet rfl (keepsTexts_handleFileWatchEvent r.watched recent (by simp)) hdispatches
  | deleted path =>
      exact h.quiet rfl (keepsTexts_handleFileWatchEvent r.watched recent (by simp)) hdispatches
  | error msg =>
      exact h.quiet rfl (keepsTexts_handleFileWatchEvent r.watched recent (by simp)) hdispatches
  | renamed source target =>
      cases hsuppressed : r.watched.shouldSuppressFileWatchEvent source recent with
      | true =>
          have hnote : r.noteStep (.event (.renamed source target) recent) = r := by
            simp [noteStep, hsuppressed]
          have hsame : r.watched.handleFileWatchEvent (.renamed source target) recent =
              r.watched := by
            simp [WatchedSession.handleFileWatchEvent, hsuppressed]
          rw [hnote, hsame]
          exact h.quiet rfl (keepsTexts_of_eq rfl) (Or.inl rfl)
      | false =>
          have hmove : r.watched.handleFileWatchEvent (.renamed source target) recent =
              r.watched.moveRenamedTab source target := by
            simp [WatchedSession.handleFileWatchEvent, hsuppressed]
          have hreloads := moveRenamedTab_reloads r.watched source target
          rw [hmove]
          cases hfind : findTabByPath r.watched.session.tabs source with
          | none =>
              have hnote : r.noteStep (.event (.renamed source target) recent) = r := by
                simp [noteStep, hsuppressed, hfind]
              rw [hnote]
              refine h.quiet rfl (keepsTexts_of_eq ?_) (Or.inl hreloads)
              simp [WatchedSession.moveRenamedTab, hfind]
          | some tab =>
              have hnote : r.noteStep (.event (.renamed source target) recent) =
                  r.noteMove source target := by
                simp [noteStep, hsuppressed, hfind]
              rcases findTabByPath_some hfind with ⟨htab, hloc⟩
              rcases hsafe with hrecent | hmoves
              · rw [hsuppressed] at hrecent
                cases hrecent
              · rcases hmoves tab htab (filePath_eq_some.mpr hloc) with ⟨hidle, hfree⟩
                rw [hnote]
                refine h.moved rfl htab hloc ?_ hreloads hidle hfree
                simp [WatchedSession.moveRenamedTab, hfind]

/-- The background read of a reload changes no buffer. -/
theorem Ordered.read (h : Ordered encodings r) {index : Nat} {w : WatchedSession}
    (hread : r.watched.runRead index = some w) :
    Ordered encodings (r.after r (.readReload index) w) := by
  have htexts : KeepsTexts r.watched.session.tabs w.session.tabs :=
    keepsTexts_of_eq (WatchedSession.agrees_runRead hread).tabs
  refine h.next (htexts.apart h.apart) rfl ?_ (fun _ _ hedit => Or.inl hedit)
    (htexts.showsLatestRead h.shown rfl rfl rfl)
  show Follows r w.reloads (r.dispatchTimes (.readReload index) w)
  unfold WatchedSession.runRead at hread
  split at hread
  · rename_i path hindex
    split at hread
    · cases hread
      have hshorter : (r.watched.reloads.eraseIdx index).length < r.watched.reloads.length := by
        rcases List.getElem?_eq_some_iff.mp hindex with ⟨hlt, _⟩
        rw [List.length_eraseIdx_of_lt hlt]
        omega
      have htimes : r.dispatchTimes (.readReload index)
          { r.watched with reloads := r.watched.reloads.eraseIdx index } =
            r.dispatchedAt.eraseIdx index := if_pos hshorter
      rw [htimes]
      exact h.followsErase index
    · cases hread
      rename_i bytes _
      have hsame : ¬(r.watched.reloads.set index
          ⟨path, some (r.watched.clock, bytes)⟩).length < r.watched.reloads.length := by
        rw [List.length_set]
        omega
      have htimes : r.dispatchTimes (.readReload index) { r.watched with
          reloads := r.watched.reloads.set index ⟨path, some (r.watched.clock, bytes)⟩
          clock := r.watched.clock + 1 } = r.dispatchedAt := if_neg hsame
      rw [htimes]
      exact h.followsSet _ hindex
  · cases hread

theorem noteReload_editedAt (io : Nat × List UInt8) {path other : PathBuf} {edit : Nat}
    (h : edit ∈ (r.noteReload path io).editedAt other) : edit ∈ r.editedAt other :=
  forget_editedAt h

theorem noteReload_newestRead {path : PathBuf} {io : Nat × List UInt8}
    (h : ∀ newest ∈ r.newestRead path, newest.1 ≤ io.1) :
    (r.noteReload path io).newestRead path = some io := by
  show Function.update r.newestRead path _ path = some io
  rw [Function.update_self]
  cases hnewest : r.newestRead path with
  | none => rfl
  | some newest =>
      have hle := h newest hnewest
      have hnot : ¬io.1 < newest.1 := by omega
      simp [WatchedSession.newerIo, hnot]

/-- A reload puts the text it read into the tab of its path. -/
theorem Ordered.reloaded (h : Ordered encodings r) {index : Nat} {path : PathBuf}
    {io : Nat × List UInt8} {tab : EditorTab} {w : WatchedSession}
    (htab : tab ∈ r.watched.session.tabs) (hloc : tab.location = .localPath path)
    (hreloads : w.reloads = r.watched.reloads.eraseIdx index)
    (htabs : w.session.tabs = updateEditorTab r.watched.session.tabs tab.id fun tab =>
      tab.applyReload (detectEncodingAndDecode encodings io.2))
    (hnewest : ∀ newest ∈ r.newestRead path, newest.1 ≤ io.1) :
    Ordered encodings (r.after (r.noteReload path io) (.finishReload index) w) := by
  have hplace := keepsPlace_applyReload (detectEncodingAndDecode encodings io.2)
  refine h.next ?_ rfl ?_ (fun _ _ hedit => Or.inl (noteReload_editedAt io hedit)) ?_
  · show Apart w.session.tabs
    rw [htabs]
    exact h.apart.update tab.id hplace
  · show Follows r w.reloads (r.dispatchedAt.eraseIdx index)
    rw [hreloads]
    exact h.followsErase index
  · intro shown hshown other hpath hunedited last hlast
    have hmem := htabs ▸ hshown
    rcases mem_updateEditorTab hmem with ⟨old, hold, ⟨hid, rfl⟩ | ⟨hid, rfl⟩⟩
    · have hequal : old = tab := h.apart.ids old hold tab htab hid
      have hsame : other = path := by
        have hold' := filePath_eq_some.mp hpath
        rw [hplace.location, hequal, hloc] at hold'
        cases hold'
        rfl
      have hread : (r.noteReload path io).newestRead other = some last := hlast
      rw [hsame, noteReload_newestRead hnewest] at hread
      cases hread
      simp [EditorTab.applyReload, EditorTab.setOriginalContentFromStr]
    · have hne : other ≠ path := by
        rintro rfl
        exact hid (congrArg EditorTab.id
          (h.apart.paths shown hold tab htab other (filePath_eq_some.mp hpath) hloc))
      have hunedited' : Function.update r.editedAt path none other = none := hunedited
      have hlast' : Function.update r.newestRead path _ other = some last := hlast
      rw [Function.update_of_ne hne] at hunedited' hlast'
      exact h.shown shown hold other hpath hunedited' last hlast'

theorem Ordered.finish (h : Ordered encodings r) {index : Nat} {w : WatchedSession}
    (hsafe : r.OrderedStep (.finishReload index))
    (hfinish : r.watched.finishReload encodings index = some w) :
    Ordered encodings (r.after (r.noteStep (.finishReload index)) (.finishReload index) w) := by
  unfold WatchedSession.finishReload at hfinish
  split at hfinish
  · rename_i path io hindex
    cases hfinish
    unfold WatchedSession.applyReloadedContents
    cases hfind : findTabByPath r.watched.session.tabs path with
    | none =>
        have happlied : appliedReload r.watched index = none := by
          simp [appliedReload, hindex, hfind]
        have hnote : r.noteStep (.finishReload index) = r := by simp [noteStep, happlied]
        rw [hnote]
        exact h.next h.apart rfl (h.followsErase index) (fun _ _ hedit => Or.inl hedit) h.shown
    | some tab =>
        have happlied : appliedReload r.watched index = some (path, io) := by
          simp [appliedReload, hindex, hfind]
        have hnote : r.noteStep (.finishReload index) = r.noteReload path io := by
          simp [noteStep, happlied]
        rcases findTabByPath_some hfind with ⟨htab, hloc⟩
        rw [hnote]
        exact h.reloaded htab hloc rfl rfl (hsafe _ happlied)
  · cases hfinish

/-- Every step that keeps to the order keeps the trace ordered. -/
theorem Ordered.step (h : Ordered encodings r) {action : WatchAction} {r' : ReloadTrace}
    (hsafe : r.OrderedStep action) (hstep : r.step encodings parse action = some r') :
    Ordered encodings r' := by
  rcases Option.map_eq_some_iff.mp hstep with ⟨w, hwatched, rfl⟩
  cases action with
  | session action =>
      rcases Option.map_eq_some_iff.mp hwatched with ⟨s, hsession, rfl⟩
      exact h.sessionStep hsafe (Session.transition_of_step hsession)
  | external path file =>
      cases hwatched
      exact h.quiet rfl (keepsTexts_of_eq rfl) (Or.inl rfl)
  | readReload index =>
      rcases Option.ite_none_left_eq_some.mp hwatched with ⟨_, hread⟩
      exact h.read hread
  | event event recent =>
      rcases Option.ite_none_right_eq_some.mp hwatched with ⟨_, hevent⟩
      cases hevent
      exact h.event hsafe
  | setActiveTab tabId =>
      rcases Option.ite_none_right_eq_some.mp hwatched with ⟨_, hactive⟩
      cases hactive
      exact h.quiet rfl (keepsTexts_of_eq (r.watched.agrees_setActiveTab tabId).tabs)
        (Or.inl (dispatches_setActiveTab r.watched tabId))
  | answerConflict path load =>
      rcases Option.ite_none_right_eq_some.mp hwatched with ⟨_, hanswer⟩
      exact h.quiet rfl (keepsTexts_of_eq (WatchedSession.agrees_answerConflict hanswer).tabs)
        (dispatches_answerConflict hanswer)
  | reloadReopened tabId path =>
      rcases Option.ite_none_right_eq_some.mp hwatched with ⟨_, hreload⟩
      cases hreload
      exact h.quiet rfl
        (keepsTexts_of_eq (r.watched.agrees_reloadWatchedTabById tabId path).tabs)
        (dispatches_reloadWatchedTabById r.watched tabId path)
  | finishReload index =>
      rcases Option.ite_none_right_eq_some.mp hwatched with ⟨_, hfinish⟩
      exact h.finish hsafe hfinish

theorem run_watched (actions : List WatchAction) (r : ReloadTrace) :
    (run (step encodings parse) r actions).map watched =
      run (WatchedSession.step encodings parse) r.watched actions := by
  induction actions generalizing r with
  | nil => rfl
  | cons action actions ih =>
      rw [run_cons, run_cons]
      unfold step
      cases r.watched.step encodings parse action with
      | none => rfl
      | some w => exact ih _

/-- In an ordered trace a reload replaces no edit made after it was dispatched. -/
theorem Ordered.keepsEdits (h : Ordered encodings r) (action : WatchAction) :
    r.KeepsEdits action := by
  cases action with
  | finishReload index =>
      intro applied happlied
      unfold appliedReload at happlied
      split at happlied
      · rename_i path io hindex
        rcases Option.map_eq_some_iff.mp happlied with ⟨tab, _, rfl⟩
        have hlt : index < r.dispatchedAt.length := by
          rw [h.aligned]
          exact (List.getElem?_eq_some_iff.mp hindex).1
        have hdispatch : r.dispatchedAt[index]? = some r.dispatchedAt[index] :=
          List.getElem?_eq_getElem hlt
        exact ⟨_, hdispatch, h.edits index _ _ hindex hdispatch⟩
      · cases happlied
  | _ => trivial

end ReloadTrace

open ReloadTrace

/--
In every run that edits no tab while a reload of its path is on its way, moves no
tab to a path that is open or waits for one, and applies no reload after one whose
read ran later, each reload keeps the edits made after it was dispatched, and a
reloaded buffer shows the latest read.
-/
theorem ordered_reloads_keep_edits {encodings : Encodings} {parse : String → Option Int}
    {disk : Disk} {persisted : List TabState} {actions : List WatchAction}
    (hguard : Guarded (ReloadTrace.step encodings parse) OrderedStep
      (ReloadTrace.launched disk persisted) actions) :
    Guarded (ReloadTrace.step encodings parse) KeepsEdits
        (ReloadTrace.launched disk persisted) actions ∧
      ∀ r, run (ReloadTrace.step encodings parse) (ReloadTrace.launched disk persisted) actions =
        some r → r.ShowsLatestRead encodings := by
  have hstart : Ordered encodings (ReloadTrace.launched disk persisted) :=
    ordered_launched disk persisted
  have hstep : ∀ r action r', Ordered encodings r → r.OrderedStep action →
      r.step encodings parse action = some r' → Ordered encodings r' :=
    fun r action r' h hsafe hrun => h.step hsafe hrun
  constructor
  · exact hguard.of_invariant (Ordered encodings) hstep
      (fun r action h _ => h.keepsEdits action) hstart
  · intro r hrun
    exact (invariant_of_guarded (Ordered encodings) hstep hstart hguard hrun).shown

/-- The file `/n` is opened and changed by another program; the reload is then dispatched. -/
def sampleReload : List WatchAction :=
  [.session (.openFile 0 ⟨asBytes "/n"⟩),
    .external ⟨asBytes "/n"⟩ ⟨true, none, true, some (asBytes "ab")⟩,
    .event (.modified ⟨asBytes "/n"⟩) false]

/-- After the reload the buffer is edited and replaced in, and its file renamed and changed. -/
def sampleReloads : List WatchAction :=
  sampleReload ++ [.readReload 0, .finishReload 0, .session (.edit 0 (.ofText "b")),
    .session (.replace 0 (.ofText "ab")), .session (.save 0), .session (.write 0 true none),
    .session (.complete 0), .event (.renamed ⟨asBytes "/n"⟩ ⟨asBytes "/m"⟩) false,
    .external ⟨asBytes "/m"⟩ ⟨true, none, true, some (asBytes "a")⟩,
    .event (.modified ⟨asBytes "/m"⟩) false, .readReload 0, .finishReload 0]

theorem ordered_reloads_keep_edits_sample :
    Guarded (ReloadTrace.step sampleEncodings sampleParse) KeepsEdits
        (ReloadTrace.launched sampleDisk []) sampleReloads ∧
      ∀ r, run (ReloadTrace.step sampleEncodings sampleParse) (ReloadTrace.launched sampleDisk [])
        sampleReloads = some r → r.ShowsLatestRead sampleEncodings :=
  ordered_reloads_keep_edits (Guarded.of_guardedRun (by decide))

/-- An edit made while the reload reads is overwritten, and the tab shown as clean. -/
theorem reload_overwrites_edit :
    ¬Guarded (ReloadTrace.step sampleEncodings sampleParse) KeepsEdits
        (ReloadTrace.launched sampleDisk [])
        (sampleReload ++ [.session (.edit 0 (.ofText "b")), .readReload 0, .finishReload 0]) ∧
      (run (ReloadTrace.step sampleEncodings sampleParse) (ReloadTrace.launched sampleDisk [])
        (sampleReload ++ [.session (.edit 0 (.ofText "b")), .readReload 0, .finishReload 0])).any
          (fun r => r.watched.session.tabs.all fun tab =>
            tab.content.toText = "ab" ∧ tab.modified = false) = true := by
  constructor
  · intro hguard
    have hkept := hguard.guardedRun
    revert hkept
    decide
  · decide

/-- Of two reads that report back in the other order, the older one is shown. -/
example :
    (run (ReloadTrace.step sampleEncodings sampleParse) (ReloadTrace.launched sampleDisk [])
      (sampleReload ++ [.event (.modified ⟨asBytes "/n"⟩) false, .readReload 0,
        .external ⟨asBytes "/n"⟩ ⟨true, none, true, some (asBytes "a")⟩, .readReload 1,
        .finishReload 1, .finishReload 0])).any
          (fun r => decide (¬r.ShowsLatestRead sampleEncodings)) = true := by
  decide

end Fulgur
