import Mathlib.Data.List.Nodup
import Mathlib.Data.List.TakeWhile
import Fulgur.Library.Run
import Fulgur.Window.Close

/-! # What closing keeps

A dialog on the way to closing covers each modified large file of its window:
its warning was answered, or it is still to come. When the last dialog is
answered nothing is left to come, so the window goes with all of them answered,
and the session rows saved on the way out hold the other unsaved buffers.
-/

namespace Fulgur

open LabelledRun

namespace CloseDialog

def pending : CloseDialog → List Nat
  | .largeFile tabId rest _ _ => tabId :: rest
  | .confirmExit _ => []

def resolved : CloseDialog → List Nat
  | .largeFile _ _ _ resolved => resolved
  | .confirmExit resolved => resolved

end CloseDialog

/-- An empty untitled buffer under a default title; the session never keeps one. -/
def EditorTab.isEmptyUntitled (tab : EditorTab) : Bool :=
  tab.location = .untitled && tab.content.toText = "" && UNTITLED.toList.isPrefixOf tab.title.toList

/-- The session rows hold the buffer of a tab of this window. -/
def SavedIn (rows : List WindowState) (window : EditorWindow) (tab : EditorTab) : Prop :=
  ∃ row ∈ rows, row.windowId = window.persistentWindowId ∧
    ∃ state ∈ row.tabs, state.tabId = tab.id ∧
      state.content.map TabContent.toText = some tab.content.toText

instance (rows : List WindowState) (window : EditorWindow) (tab : EditorTab) :
    Decidable (SavedIn rows window tab) :=
  inferInstanceAs (Decidable (∃ row ∈ rows, _))

/-- What a window leaves behind when it goes. -/
structure Departure.Kept (departure : Departure) : Prop where
  /-- A save that succeeded with unsaved buffers on holds each buffer within the limit. -/
  saved : departure.saved = true → departure.window.persistUnsaved = true →
    ∀ tab ∈ departure.window.tabs, tab.contentDiffersFromOriginal = true →
      tab.contentTooLargeToPersist = false → tab.isEmptyUntitled = false →
      SavedIn departure.rows departure.window tab
  /-- Where the close was requested, each large modified file was warned about. -/
  warned : departure.requested = true → ∀ tab ∈ departure.window.tabs,
    tab.isLargeModifiedLocal = true → tab.id ∈ departure.resolved

/-! ## Warnings that cover a window -/

/-- Each large modified file of the window was answered for or is pending. -/
def Covers (window : EditorWindow) (pending resolved : List Nat) : Prop :=
  ∀ tab ∈ window.tabs, tab.isLargeModifiedLocal = true → tab.id ∈ resolved ∨ tab.id ∈ pending

structure Covered (window : EditorWindow) : Prop where
  ids : (window.tabs.map (·.id)).Nodup
  covers : ∀ dialog ∈ window.dialogs, Covers window dialog.pending dialog.resolved

variable {window : EditorWindow} {tab : EditorTab}

theorem isLargeModifiedLocal_iff :
    tab.isLargeModifiedLocal = true ↔ (∃ path, tab.location = .localPath path) ∧
      tab.contentTooLargeToPersist = true ∧ tab.contentDiffersFromOriginal = true := by
  have hpath : tab.filePath.isSome = true ↔ ∃ path, tab.location = .localPath path := by
    unfold EditorTab.filePath
    cases tab.location <;> simp
  unfold EditorTab.isLargeModifiedLocal
  rw [Bool.and_eq_true, Bool.and_eq_true, hpath, and_assoc]

theorem covers_largeModifiedLocalTabs (window : EditorWindow) :
    Covers window window.largeModifiedLocalTabs [] := by
  intro tab htab hlarge
  right
  exact List.mem_map_of_mem (List.mem_filter.mpr ⟨htab, hlarge⟩)

theorem Covers.done {resolved : List Nat} (h : Covers window [] resolved) :
    ∀ tab ∈ window.tabs, tab.isLargeModifiedLocal = true → tab.id ∈ resolved := by
  intro tab htab hlarge
  rcases h tab htab hlarge with hdone | hpending
  · exact hdone
  · cases hpending

theorem Covers.answer {tabId : Nat} {rest resolved : List Nat}
    (h : Covers window (tabId :: rest) resolved) : Covers window rest (tabId :: resolved) := by
  intro tab htab hlarge
  rcases h tab htab hlarge with hdone | hpending
  · exact Or.inl (List.mem_cons_of_mem tabId hdone)
  · rcases List.mem_cons.mp hpending with hsame | hrest
    · exact Or.inl (hsame ▸ List.mem_cons_self)
    · exact Or.inr hrest

theorem Covered.stillNeeds (h : Covered window) (htab : tab ∈ window.tabs)
    (hlarge : tab.isLargeModifiedLocal = true) :
    window.tabStillNeedsCloseWarning tab.id = true := by
  have hfind : window.tabs.find? (fun other => other.id = tab.id) = some tab := by
    cases hfound : window.tabs.find? (fun other => other.id = tab.id) with
    | none =>
        have hnone := List.find?_eq_none.mp hfound tab htab
        simp at hnone
    | some other =>
        have hid : other.id = tab.id := by simpa using List.find?_some hfound
        rw [List.inj_on_of_nodup_map h.ids (List.mem_of_find?_eq_some hfound) htab hid]
  unfold EditorWindow.tabStillNeedsCloseWarning
  rw [hfind]
  exact hlarge

/-- Skipping the warnings that are no longer needed loses none that is. -/
theorem Covered.covers_dropWhile (h : Covered window) {remaining resolved : List Nat}
    (hcovers : Covers window remaining resolved) :
    Covers window (remaining.dropWhile fun tabId => !window.tabStillNeedsCloseWarning tabId)
      resolved := by
  intro tab htab hlarge
  rcases hcovers tab htab hlarge with hdone | hpending
  · exact Or.inl hdone
  · right
    rw [← List.takeWhile_append_dropWhile
      (p := fun tabId => !window.tabStillNeedsCloseWarning tabId) (l := remaining)] at hpending
    rcases List.mem_append.mp hpending with htaken | hkept
    · have hskipped := List.mem_takeWhile_imp htaken
      rw [h.stillNeeds htab hlarge] at hskipped
      cases hskipped
    · exact hkept

theorem Covered.openDialog (h : Covered window) {dialog : CloseDialog}
    (hcovers : Covers window dialog.pending dialog.resolved) :
    Covered (window.openDialog dialog) where
  ids := h.ids
  covers := by
    intro other hother
    rcases List.mem_cons.mp hother with rfl | hold
    · exact hcovers
    · exact h.covers other hold

theorem Covered.closeDialog (h : Covered window) : Covered window.closeDialog where
  ids := h.ids
  covers := fun dialog hdialog => h.covers dialog (List.mem_of_mem_tail hdialog)

/-- A tab that is no large modified file can join a covered window. -/
theorem Covered.addTab (h : Covered window) (hfresh : ∀ old ∈ window.tabs, old.id ≠ tab.id)
    (hsmall : tab.isLargeModifiedLocal = false) :
    Covered { window with tabs := window.tabs ++ [tab] } where
  ids := by
    rw [List.map_append, List.nodup_append]
    refine ⟨h.ids, List.nodup_singleton _, ?_⟩
    intro a ha b hb
    rcases List.mem_map.mp ha with ⟨old, hold, rfl⟩
    rw [List.map_singleton, List.mem_singleton] at hb
    rw [hb]
    exact hfresh old hold
  covers := by
    intro dialog hdialog other hother hlarge
    rcases List.mem_append.mp hother with hold | hnew
    · exact h.covers dialog hdialog other hold hlarge
    · rw [List.mem_singleton.mp hnew, hsmall] at hlarge
      cases hlarge

theorem Covered.removeTabs (h : Covered window) (keep : EditorTab → Bool) :
    Covered { window with tabs := window.tabs.filter keep } where
  ids := h.ids.sublist (List.filter_sublist.map _)
  covers := fun dialog hdialog tab htab => h.covers dialog hdialog tab (List.mem_filter.mp htab).1

theorem map_id_updateEditorTab (tabs : List EditorTab) (tabId : Nat) {f : EditorTab → EditorTab}
    (hf : KeepsPlace f) : (updateEditorTab tabs tabId f).map (·.id) = tabs.map (·.id) := by
  unfold updateEditorTab
  rw [List.map_map]
  apply List.map_congr_left
  intro tab _
  show (if tab.id = tabId then f tab else tab).id = tab.id
  split
  · exact hf.id tab
  · rfl

theorem Covered.edit (h : Covered window) (hdialogs : window.dialogs = []) (tabId : Nat)
    (content : Rope) :
    Covered
      { window with tabs := updateEditorTab window.tabs tabId fun tab => tab.edit content } where
  ids := by
    rw [map_id_updateEditorTab _ _ (keepsPlace_edit content)]
    exact h.ids
  covers := by
    intro dialog hdialog
    rw [show window.dialogs = [] from hdialogs] at hdialog
    cases hdialog

theorem Covers.markAsSaved {pending resolved : List Nat} (h : Covers window pending resolved)
    (tabId : Nat) : Covers (window.markTabSaved tabId) pending resolved := by
  intro tab htab hlarge
  rcases mem_updateEditorTab htab with ⟨old, hold, ⟨_, rfl⟩ | ⟨_, rfl⟩⟩
  · rw [isLargeModifiedLocal_iff, EditorTab.contentDiffers_markAsSaved] at hlarge
    cases hlarge.2.2
  · exact h tab hold hlarge

theorem Covered.markAsSaved (h : Covered window) (tabId : Nat) :
    Covered (window.markTabSaved tabId) where
  ids := by
    unfold EditorWindow.markTabSaved
    rw [map_id_updateEditorTab _ _ keepsPlace_markAsSaved]
    exact h.ids
  covers := fun dialog hdialog => (h.covers dialog hdialog).markAsSaved tabId

/-! ## What the rows of a save hold -/

/-- The rows of a window's save hold each of its unsaved buffers within the limit. -/
theorem savedIn_buildWindowsState {app : Application} (hwindow : window ∈ app.windows)
    (hpersist : window.persistUnsaved = true) (htab : tab ∈ window.tabs)
    (hdiffers : tab.contentDiffersFromOriginal = true)
    (hlimit : tab.contentTooLargeToPersist = false) (hkept : tab.isEmptyUntitled = false) :
    SavedIn app.buildWindowsState window tab := by
  have hsaves : savesContent true tab = true := by simp [savesContent, hdiffers, hlimit]
  have hstate : ∃ state, buildTabState true app.disk tab = some state ∧ state.tabId = tab.id ∧
      state.content.map TabContent.toText = some tab.content.toText := by
    cases hloc : tab.location with
    | localPath path =>
        exact ⟨_, buildTabState_local_saved app.disk hloc hsaves, rfl, rfl⟩
    | remote spec =>
        unfold buildTabState
        rw [hloc, if_pos hsaves]
        exact ⟨_, rfl, rfl, rfl⟩
    | untitled =>
        rw [buildTabState_untitled hloc, if_neg]
        · exact ⟨_, rfl, rfl, rfl⟩
        · intro hdropped
          rcases hdropped with hlarge | ⟨hempty, hprefix⟩
          · rw [hlimit] at hlarge
            cases hlarge
          · simp [EditorTab.isEmptyUntitled, hloc, hempty, hprefix] at hkept
  rcases hstate with ⟨state, hbuild, hid, htext⟩
  refine ⟨_, List.mem_map_of_mem hwindow, rfl, state, ?_, hid, htext⟩
  show state ∈ buildTabStates window.persistUnsaved app.disk window.tabs
  rw [hpersist]
  exact List.mem_filterMap.mpr ⟨tab, htab, hbuild⟩

/-! ## The invariant of the application -/

namespace Application

structure Sound (app : Application) : Prop where
  windowIds : (app.windows.map (·.windowId)).Nodup
  covered : ∀ window ∈ app.windows, Covered window
  kept : ∀ departure ∈ app.departed, departure.Kept
  /-- The rows saved by the last window to go are the rows that stay. -/
  last : ∀ departure ∈ app.departed, departure.remaining = 0 →
    app.windows = [] ∧ (departure.saved = true → app.rows = departure.rows)

variable {app : Application} {encodings : Encodings}

theorem mem_of_findWindow {windowId : Nat} (h : app.findWindow windowId = some window) :
    window ∈ app.windows ∧ window.windowId = windowId :=
  ⟨List.mem_of_find?_eq_some h, by simpa using List.find?_some h⟩

theorem Sound.eq_of_id (h : app.Sound) {a b : EditorWindow} (ha : a ∈ app.windows)
    (hb : b ∈ app.windows) (hid : a.windowId = b.windowId) : a = b :=
  List.inj_on_of_nodup_map h.windowIds ha hb hid

theorem Sound.not_last (h : app.Sound) (hwindow : window ∈ app.windows) {departure : Departure}
    (hdeparture : departure ∈ app.departed) : departure.remaining ≠ 0 := by
  intro hzero
  rw [(h.last departure hdeparture hzero).1] at hwindow
  cases hwindow

/-- Changing one window in place. -/
theorem Sound.updateWindow (h : app.Sound) (hwindow : window ∈ app.windows)
    {f : EditorWindow → EditorWindow} (hid : (f window).windowId = window.windowId)
    (hcovered : Covered (f window)) : (app.updateWindow window.windowId f).Sound where
  windowIds := by
    have hsame : (app.updateWindow window.windowId f).windows.map (·.windowId) =
        app.windows.map (·.windowId) := by
      unfold Application.updateWindow
      rw [List.map_map]
      apply List.map_congr_left
      intro w hw
      show (if w.windowId = window.windowId then f w else w).windowId = w.windowId
      split
      · rename_i heq
        rw [h.eq_of_id hw hwindow heq, hid]
      · rfl
    rw [hsame]
    exact h.windowIds
  covered := by
    intro w hw
    rcases List.mem_map.mp hw with ⟨old, hold, rfl⟩
    split
    · rename_i heq
      rw [h.eq_of_id hold hwindow heq]
      exact hcovered
    · exact h.covered old hold
  kept := h.kept
  last := fun departure hdeparture hzero =>
    absurd hzero (h.not_last hwindow hdeparture)

theorem mem_updateWindow (hwindow : window ∈ app.windows) (f : EditorWindow → EditorWindow) :
    f window ∈ (app.updateWindow window.windowId f).windows :=
  List.mem_map.mpr ⟨window, hwindow, if_pos rfl⟩

/-- A window that goes with nothing pending. -/
theorem Sound.unregister (h : app.Sound) (hwindow : window ∈ app.windows) (saved : Bool)
    {resolved : List Nat} (hcovers : Covers window [] resolved) :
    (app.unregister window saved resolved).Sound where
  windowIds := h.windowIds.sublist (List.filter_sublist.map _)
  covered := fun w hw => h.covered w (List.mem_filter.mp hw).1
  kept := by
    intro departure hdeparture
    rcases List.mem_cons.mp hdeparture with rfl | hold
    · constructor
      · intro hsaved hpersist tab htab hdiffers hlimit hkept
        change saved = true at hsaved
        subst hsaved
        exact savedIn_buildWindowsState hwindow hpersist htab hdiffers hlimit hkept
      · intro _
        exact hcovers.done
    · exact h.kept departure hold
  last := by
    intro departure hdeparture hzero
    rcases List.mem_cons.mp hdeparture with rfl | hold
    · exact ⟨List.length_eq_zero_iff.mp hzero, fun _ => rfl⟩
    · exact absurd hzero (h.not_last hwindow hold)

/-- The process ends with nothing pending in the window that asked for it. -/
theorem Sound.exitProcess (h : app.Sound) (hwindow : window ∈ app.windows) {resolved : List Nat}
    (hcovers : Covers window [] resolved) : (app.exitProcess window resolved).Sound where
  windowIds := List.nodup_nil
  covered := by simp [Application.exitProcess]
  kept := by
    intro departure hdeparture
    rcases List.mem_append.mp hdeparture with hnew | hold
    · rcases List.mem_map.mp hnew with ⟨w, hw, rfl⟩
      constructor
      · intro _ hpersist tab htab hdiffers hlimit hkept
        exact savedIn_buildWindowsState hw hpersist htab hdiffers hlimit hkept
      · intro hrequested
        have hid : w.windowId = window.windowId := by simpa using hrequested
        have hsame : w = window := h.eq_of_id hw hwindow hid
        subst hsame
        simpa using hcovers.done
    · exact h.kept departure hold
  last := by
    intro departure hdeparture hzero
    rcases List.mem_append.mp hdeparture with hnew | hold
    · rcases List.mem_map.mp hnew with ⟨w, hw, rfl⟩
      exact ⟨rfl, fun _ => rfl⟩
    · exact absurd hzero (h.not_last hwindow hold)

theorem Sound.openDialog (h : app.Sound) (hwindow : window ∈ app.windows) {dialog : CloseDialog}
    (hcovers : Covers window dialog.pending dialog.resolved) :
    (app.updateWindow window.windowId fun w => w.openDialog dialog).Sound :=
  h.updateWindow hwindow rfl ((h.covered window hwindow).openDialog hcovers)

theorem Sound.quitInner (h : app.Sound) (hwindow : window ∈ app.windows) {resolved : List Nat}
    (hcovers : Covers window [] resolved) (saveOk : Bool) :
    (app.quitInner window resolved saveOk).Sound := by
  unfold Application.quitInner
  split
  · exact h.openDialog hwindow hcovers
  · split
    · exact h.exitProcess hwindow hcovers
    · exact h

theorem Sound.runCloseContinuation (h : app.Sound) (hwindow : window ∈ app.windows)
    (continuation : CloseContinuation) {resolved : List Nat} (hcovers : Covers window [] resolved)
    (saveOk : Bool) : (app.runCloseContinuation window continuation resolved saveOk).Sound := by
  cases continuation with
  | quit => exact h.quitInner hwindow hcovers saveOk
  | closeWindow =>
      show (app.finishWindowClose window resolved saveOk).Sound
      unfold finishWindowClose
      split
      · exact h.unregister hwindow true hcovers
      · exact h

theorem Sound.driveLargeFileCloseWarnings (h : app.Sound) (hwindow : window ∈ app.windows)
    {remaining : List Nat} (continuation : CloseContinuation) {resolved : List Nat}
    (hcovers : Covers window remaining resolved) (saveOk : Bool) :
    (app.driveLargeFileCloseWarnings window remaining continuation resolved saveOk).Sound := by
  have hstill := (h.covered window hwindow).covers_dropWhile hcovers
  unfold Application.driveLargeFileCloseWarnings
  split
  · rename_i hnone
    rw [hnone] at hstill
    exact h.runCloseContinuation hwindow continuation hstill saveOk
  · rename_i tabId rest hsome
    rw [hsome] at hstill
    exact h.openDialog hwindow hstill

theorem Sound.quit (h : app.Sound) (hwindow : window ∈ app.windows) (saveOk : Bool) :
    (app.quit window saveOk).Sound := by
  have hcovers := covers_largeModifiedLocalTabs window
  unfold Application.quit
  split
  · rename_i hnone
    rw [hnone] at hcovers
    exact h.quitInner hwindow hcovers saveOk
  · exact h.driveLargeFileCloseWarnings hwindow .quit hcovers saveOk

theorem Sound.saveAndClose (h : app.Sound) (hwindow : window ∈ app.windows)
    (hcovers : Covers window [] []) (saveOk : Bool) : (app.saveAndClose window saveOk).Sound := by
  have hwin := h.covered window hwindow
  unfold Application.saveAndClose
  split
  · exact h.unregister hwindow true hcovers
  · split
    · exact h.unregister hwindow false hcovers
    · exact h.updateWindow hwindow rfl ⟨hwin.ids, hwin.covers⟩

theorem Sound.onWindowCloseRequested (h : app.Sound) (hwindow : window ∈ app.windows)
    (saveOk : Bool) : (app.onWindowCloseRequested window saveOk).Sound := by
  have hcovers := covers_largeModifiedLocalTabs window
  unfold Application.onWindowCloseRequested
  split
  · exact h.driveLargeFileCloseWarnings hwindow _ hcovers saveOk
  · rename_i hnone
    rw [not_not.mp hnone] at hcovers
    split
    · exact h.quit hwindow saveOk
    · exact h.saveAndClose hwindow hcovers saveOk

theorem Sound.continueWarnings (h : app.Sound) (hwindow : window ∈ app.windows) {rest : List Nat}
    (continuation : CloseContinuation) {resolved : List Nat} (hcovers : Covers window rest resolved)
    (saveOk : Bool) :
    (app.continueWarnings window.windowId rest continuation resolved saveOk).Sound := by
  unfold Application.continueWarnings
  split
  · exact h
  · rename_i found hfound
    rcases mem_of_findWindow hfound with ⟨hmem, hid⟩
    rw [h.eq_of_id hmem hwindow hid]
    exact h.driveLargeFileCloseWarnings hwindow continuation hcovers saveOk

/-- A save on the way to closing writes the file and marks the tab, and nothing else. -/
theorem saveLocalTabBlocking_eq {tabId : Nat} {writeOk : Bool} {modified : Option String}
    {written : Application}
    (h : app.saveLocalTabBlocking encodings window tabId writeOk modified = some written) :
    ∃ disk, written = { app with disk := disk }.updateWindow window.windowId
      (EditorWindow.markTabSaved tabId) := by
  unfold saveLocalTabBlocking at h
  split at h
  · cases h
  · split at h
    · split at h
      · cases h
      · split at h
        · cases h
        · split at h
          · cases h
            exact ⟨_, rfl⟩
          · cases h
    · cases h

theorem Sound.withDisk (h : app.Sound) (disk : Disk) : { app with disk := disk }.Sound :=
  ⟨h.windowIds, h.covered, h.kept, h.last⟩

theorem Sound.resolveLargeFileCloseWarning (h : app.Sound) (hwindow : window ∈ app.windows)
    {choice : LargeFileCloseChoice} {writeOk saveOk : Bool} {modified : Option String}
    {next : Application}
    (hnext : app.resolveLargeFileCloseWarning encodings window choice writeOk modified saveOk =
      some next) : next.Sound := by
  unfold Application.resolveLargeFileCloseWarning at hnext
  split at hnext
  · rename_i tabId rest continuation resolved outer hdialogs
    have hwin := h.covered window hwindow
    have hclosed : (app.updateWindow window.windowId EditorWindow.closeDialog).Sound :=
      h.updateWindow hwindow rfl hwin.closeDialog
    have hmem := mem_updateWindow hwindow EditorWindow.closeDialog
    have hanswered : Covers window.closeDialog rest (tabId :: resolved) :=
      (hwin.covers _ (hdialogs ▸ List.mem_cons_self)).answer
    cases choice with
    | cancel =>
        cases hnext
        exact hclosed
    | discard =>
        cases hnext
        exact hclosed.continueWarnings hmem continuation hanswered saveOk
    | save =>
        simp only at hnext
        split at hnext
        · cases hnext
          exact hclosed
        · rename_i written hwritten
          cases hnext
          rcases saveLocalTabBlocking_eq hwritten with ⟨disk, rfl⟩
          have hdisk := hclosed.withDisk disk
          have hsaved := hdisk.updateWindow hmem (f := EditorWindow.markTabSaved tabId) rfl
            ((hclosed.covered _ hmem).markAsSaved tabId)
          exact hsaved.continueWarnings (mem_updateWindow hmem _) continuation
            (hanswered.markAsSaved tabId) saveOk
  · cases hnext

theorem Sound.answerConfirmExit (h : app.Sound) (hwindow : window ∈ app.windows)
    {confirmed saveOk : Bool} {next : Application}
    (hnext : app.answerConfirmExit window confirmed saveOk = some next) : next.Sound := by
  have hwin := h.covered window hwindow
  unfold Application.answerConfirmExit at hnext
  split at hnext
  · rename_i resolved outer hdialogs
    have hcovers : Covers window [] resolved :=
      hwin.covers (.confirmExit resolved) (hdialogs ▸ List.mem_cons_self)
    split at hnext
    · split at hnext
      · cases hnext
        exact h.exitProcess hwindow hcovers
      · cases hnext
        exact h
    · cases hnext
      exact h.updateWindow hwindow rfl hwin.closeDialog
  · cases hnext

theorem Sound.addTab (h : app.Sound) (hwindow : window ∈ app.windows)
    (hsmall : tab.isLargeModifiedLocal = false) {next : Application}
    (hnext : app.addTab window tab = some next) : next.Sound := by
  unfold Application.addTab at hnext
  rcases Option.ite_none_right_eq_some.mp hnext with ⟨hfresh, hnext⟩
  cases hnext
  apply h.updateWindow hwindow rfl
  exact (h.covered window hwindow).addTab (by simpa using hfresh) hsmall

theorem isLargeModifiedLocal_new (tabId : Nat) (title : String) :
    (EditorTab.new tabId title).isLargeModifiedLocal = false := rfl

theorem isLargeModifiedLocal_openedTab (encodings : Encodings) (tabId : Nat) (path : PathBuf)
    (bytes : List UInt8) :
    (Session.openedTab encodings tabId path bytes).isLargeModifiedLocal = false := by
  have hsame :
    (Session.openedTab encodings tabId path bytes).contentDiffersFromOriginal = false := by
    show (EditorTab.fromFile _).contentDiffersFromOriginal = false
    rw [EditorTab.contentDiffers_fromFile, Bool.and_false]
  unfold EditorTab.isLargeModifiedLocal
  rw [hsame, Bool.and_false]

theorem Sound.openFileFromPath (h : app.Sound) (hwindow : window ∈ app.windows) {tabId : Nat}
    {path : PathBuf} {next : Application}
    (hnext : app.openFileFromPath encodings window tabId path = some next) : next.Sound := by
  unfold Application.openFileFromPath at hnext
  split at hnext
  · cases hnext
  · split at hnext
    · cases hnext
    · exact h.addTab hwindow (isLargeModifiedLocal_openedTab _ _ _ _) hnext

theorem Sound.openNewWindow (h : app.Sound) (hopen : app.windows ≠ []) {next : Application}
    (hnext : app.openNewWindow window = some next) : next.Sound := by
  unfold Application.openNewWindow at hnext
  rcases Option.ite_none_right_eq_some.mp hnext with ⟨hfresh, hnext⟩
  cases hnext
  constructor
  · rw [List.map_append, List.nodup_append]
    refine ⟨h.windowIds, List.nodup_singleton _, ?_⟩
    intro a ha b hb
    rcases List.mem_map.mp ha with ⟨old, hold, rfl⟩
    rw [List.map_singleton, List.mem_singleton] at hb
    rw [hb]
    simpa using List.all_eq_true.mp hfresh old hold
  · intro w hw
    rcases List.mem_append.mp hw with hold | hnew
    · exact h.covered w hold
    · rw [List.mem_singleton.mp hnew]
      exact ⟨List.nodup_singleton _, by simp⟩
  · exact h.kept
  · intro departure hdeparture hzero
    exact absurd (h.last departure hdeparture hzero).1 hopen

/-- Every step keeps the application sound. -/
theorem Sound.step (h : app.Sound) {action : CloseAction} {next : Application}
    (hstep : app.step encodings action = some next) : next.Sound := by
  cases action with
  | edit windowId tabId content =>
      rcases Option.bind_eq_some_iff.mp hstep with ⟨window, hfound, hnext⟩
      rcases mem_of_findWindow hfound with ⟨hmem, rfl⟩
      rcases Option.ite_none_right_eq_some.mp hnext with ⟨hdialogs, hnext⟩
      cases hnext
      apply h.updateWindow hmem rfl
      exact (h.covered window hmem).edit (List.isEmpty_iff.mp hdialogs) tabId content
  | openFile windowId tabId path =>
      rcases Option.bind_eq_some_iff.mp hstep with ⟨window, hfound, hnext⟩
      exact h.openFileFromPath (mem_of_findWindow hfound).1 hnext
  | newTab windowId tabId title =>
      rcases Option.bind_eq_some_iff.mp hstep with ⟨window, hfound, hnext⟩
      exact h.addTab (mem_of_findWindow hfound).1 (isLargeModifiedLocal_new tabId title) hnext
  | closeTab windowId tabId =>
      rcases Option.bind_eq_some_iff.mp hstep with ⟨window, hfound, hnext⟩
      rcases mem_of_findWindow hfound with ⟨hmem, rfl⟩
      cases hnext
      exact h.updateWindow hmem rfl ((h.covered window hmem).removeTabs _)
  | openNewWindow fromWindow window =>
      rcases Option.bind_eq_some_iff.mp hstep with ⟨opener, hfound, hnext⟩
      exact h.openNewWindow (List.ne_nil_of_mem (mem_of_findWindow hfound).1) hnext
  | requestClose windowId saveOk =>
      rcases Option.map_eq_some_iff.mp hstep with ⟨window, hfound, rfl⟩
      exact h.onWindowCloseRequested (mem_of_findWindow hfound).1 saveOk
  | quit windowId saveOk =>
      rcases Option.map_eq_some_iff.mp hstep with ⟨window, hfound, rfl⟩
      exact h.quit (mem_of_findWindow hfound).1 saveOk
  | resolveWarning windowId choice writeOk modified saveOk =>
      rcases Option.bind_eq_some_iff.mp hstep with ⟨window, hfound, hnext⟩
      exact h.resolveLargeFileCloseWarning (mem_of_findWindow hfound).1 hnext
  | answerConfirmExit windowId confirmed saveOk =>
      rcases Option.bind_eq_some_iff.mp hstep with ⟨window, hfound, hnext⟩
      exact h.answerConfirmExit (mem_of_findWindow hfound).1 hnext

/-- A session before any window closed: ids apart, no dialog open. -/
structure Opened (app : Application) : Prop where
  windowIds : (app.windows.map (·.windowId)).Nodup
  tabIds : ∀ window ∈ app.windows, (window.tabs.map (·.id)).Nodup
  noDialogs : ∀ window ∈ app.windows, window.dialogs = []
  departed : app.departed = []

theorem Opened.sound (h : app.Opened) : app.Sound where
  windowIds := h.windowIds
  covered := fun window hwindow => ⟨h.tabIds window hwindow, by simp [h.noDialogs window hwindow]⟩
  kept := by simp [h.departed]
  last := by simp [h.departed]

end Application

/-- One window with the file `/n` of `a` open in it. -/
def sampleApplication (persistUnsaved : Bool) : Application where
  windows := [{
    windowId := 1
    persistentWindowId := 7
    tabs := [Session.openedTab sampleEncodings 0 ⟨asBytes "/n"⟩ (asBytes "a")]
    activeTabId := some 0
    bounds := .default
    persistUnsaved := persistUnsaved
    confirmExit := false
    saveFailedOnce := false
    dialogs := [] }]
  disk := sampleDisk
  rows := []
  departed := []

def sampleClose : List CloseAction := [.edit 1 0 (.ofText "ab"), .requestClose 1 true]

/-- A modified buffer went without a word, and is not in the rows. -/
def Application.DropsBuffer (app : Application) : Prop :=
  ∃ departure ∈ app.departed, departure.resolved = [] ∧ ∃ tab ∈ departure.window.tabs,
    tab.contentDiffersFromOriginal = true ∧ ¬SavedIn app.rows departure.window tab

instance (app : Application) : Decidable app.DropsBuffer :=
  inferInstanceAs (Decidable (∃ departure ∈ app.departed, departure.resolved = [] ∧
    ∃ tab ∈ departure.window.tabs, _ ∧ _))

def sampleTwoWindows : Application :=
  { sampleApplication true with
    windows :=
      (sampleApplication true).windows ++ (sampleApplication true).windows.map fun window =>
      { window with windowId := 2, persistentWindowId := 8, tabs := [.new 0 UNTITLED] } }

end Fulgur
