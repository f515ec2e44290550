import Fulgur.Library.Keyed
import Fulgur.Library.Run
import Fulgur.Tabs.StripMoves

/-! # Opening local files

A request to open a file looks whether a tab has it, and focuses that tab; else
it starts a load, which finds the path anew, reads the file in the background
and puts its tab into the strip. Nothing is asked a second time when the tab is
put there, and the loads that are under way are in no tab yet.
-/

namespace Fulgur

open LabelledRun

/-- Result of reading and classifying a file in the background. -/
inductive FileReadOutcome where
  | decoded (contents : DecodedContents)
  | binary
  | failed

/-- A load from its request to its outcome. -/
structure FileLoad where
  /-- The path that was looked for among the tabs. -/
  path : PathBuf
  /-- The path that the load found when it started. -/
  canonicalPath : Option PathBuf
deriving DecidableEq

/-- The path that the tab of a load will have, as far as it is known. -/
def FileLoad.file (load : FileLoad) : PathBuf := load.canonicalPath.getD load.path

/-- A window with the loads it has started, over a file system whose links may change. -/
structure OpeningWindow where
  window : TabManager
  /-- The canonical path, or the path itself where there is none. -/
  canonicalize : PathBuf → PathBuf
  loads : List FileLoad

/-- The tab that an operation may move, with the path it then has. -/
def TabAction.changedPath : TabAction → Option (Nat × PathBuf)
  | .changeEditor tabId changed _ => changed.filePath.map fun path => (tabId, path)
  | _ => none

namespace TabManager

def findTabByPath (s : TabManager) (path : PathBuf) : Option Nat :=
  s.tabs.findIdx? fun tab => tab.localPath = some path

end TabManager

namespace OpeningWindow

/-- A window whose tabs are as they are, and that loads nothing yet. -/
def idle (window : TabManager) (canonicalize : PathBuf → PathBuf) : OpeningWindow where
  window := window
  canonicalize := canonicalize
  loads := []

def focusExistingLocalTabForOpen (s : OpeningWindow) (index : Nat) : OpeningWindow :=
  { s with window := s.window.focusExisting index }

def spawnLoad (s : OpeningWindow) (path : PathBuf) : OpeningWindow :=
  { s with loads := s.loads ++ [⟨path, none⟩] }

/-- The path that was chosen in the dialog of the menu. -/
def openFile (s : OpeningWindow) (raw : PathBuf) : OpeningWindow :=
  let path := s.canonicalize raw
  match s.window.findTabByPath path with
  | some index => s.focusExistingLocalTabForOpen index
  | none => s.spawnLoad path

/-- Open a file, unless a tab of this window or of another one has it. -/
def doOpenFile (elsewhere : PathBuf → Bool) (s : OpeningWindow) (raw : PathBuf) : OpeningWindow :=
  let path := s.canonicalize raw
  match s.window.findTabByPath path with
  | some index => s.focusExistingLocalTabForOpen index
  | none => if elsewhere path then s else s.spawnLoad path

/-- Whether a recent entry is the address of a remote file. -/
def isRemoteEntry (raw : PathBuf) : Bool :=
  (asBytes "ssh://").isPrefixOf raw.bytes || (asBytes "sftp://").isPrefixOf raw.bytes

/-- Open a recent entry; a remote one goes another way than over the disk. -/
def doOpenRecentFile (elsewhere : PathBuf → Bool) (s : OpeningWindow) (raw : PathBuf) :
    OpeningWindow :=
  if isRemoteEntry raw then s else s.doOpenFile elsewhere raw

def droppedFiles (isFile : PathBuf → Bool) (paths : List PathBuf) : List PathBuf :=
  (paths.filter isFile).eraseDups

def handleExternalPathsDrop (isFile elsewhere : PathBuf → Bool) (s : OpeningWindow)
    (paths : List PathBuf) : OpeningWindow :=
  (droppedFiles isFile paths).foldl (doOpenFile elsewhere) s

def startLoad (s : OpeningWindow) (index : Nat) : Option OpeningWindow :=
  s.loads[index]?.bind fun load =>
    if load.canonicalPath.isSome then none
    else some { s with
      loads := s.loads.set index { load with canonicalPath := some (s.canonicalize load.path) } }

/-- The outcome of a load reaches the UI thread. -/
def finishLoad (s : OpeningWindow) (index : Nat) (outcome : FileReadOutcome) (markdown : Bool) :
    Option OpeningWindow :=
  s.loads[index]?.bind fun load => load.canonicalPath.map fun path =>
    let done := { s with loads := s.loads.eraseIdx index }
    match outcome with
    | .decoded contents => { done with window := done.window.openFile path contents markdown }
    | .binary => done
    | .failed => done

end OpeningWindow

inductive OpenAction where
  | openFile (raw : PathBuf)
  /-- The open-path dialog, the command line, "Open with". -/
  | doOpenFile (elsewhere : PathBuf → Bool) (raw : PathBuf)
  | doOpenRecentFile (elsewhere : PathBuf → Bool) (raw : PathBuf)
  | drop (isFile elsewhere : PathBuf → Bool) (paths : List PathBuf)
  | startLoad (index : Nat)
  | finishLoad (index : Nat) (outcome : FileReadOutcome) (markdown : Bool)
  /-- Links of the file system change. -/
  | relink (canonicalize : PathBuf → PathBuf)
  /-- Any other operation of the window. -/
  | tab (action : TabAction)

namespace OpeningWindow

/-- Another operation of the window; a file comes into the strip only through its load. -/
def tabStep (s : OpeningWindow) : TabAction → Option OpeningWindow
  | .openFile _ _ _ => none
  | action => (s.window.step action).map fun window => { s with window := window }

def step (s : OpeningWindow) : OpenAction → Option OpeningWindow
  | .openFile raw => some (s.openFile raw)
  | .doOpenFile elsewhere raw => some (s.doOpenFile elsewhere raw)
  | .doOpenRecentFile elsewhere raw => some (s.doOpenRecentFile elsewhere raw)
  | .drop isFile elsewhere paths => some (s.handleExternalPathsDrop isFile elsewhere paths)
  | .startLoad index => s.startLoad index
  | .finishLoad index outcome markdown => s.finishLoad index outcome markdown
  | .relink canonicalize => some { s with canonicalize := canonicalize }
  | .tab action => s.tabStep action

def openPaths (s : OpeningWindow) : List PathBuf := s.window.tabs.filterMap Tab.localPath

def claimed (s : OpeningWindow) : List PathBuf := s.openPaths ++ s.loads.map FileLoad.file

/-- A request that starts a load is for a file that no load is under way for. -/
def Unloaded (elsewhere : PathBuf → Bool) (s : OpeningWindow) (raw : PathBuf) : Prop :=
  s.window.findTabByPath (s.canonicalize raw) = none → elsewhere (s.canonicalize raw) = false →
    s.canonicalize raw ∉ s.loads.map FileLoad.file

/-- So is each request of a drop. -/
def DropUnloaded (elsewhere : PathBuf → Bool) : OpeningWindow → List PathBuf → Prop
  | _, [] => True
  | s, raw :: rest =>
      s.Unloaded elsewhere raw ∧ DropUnloaded elsewhere (s.doOpenFile elsewhere raw) rest

/-- A tab that changes its place, or comes in from another window, takes a path that nobody has. -/
def TakesUnclaimed (s : OpeningWindow) (action : TabAction) : Prop :=
  (∀ path ∈ action.broughtPath, path ∉ s.claimed) ∧
    ∀ change ∈ action.changedPath,
      (s.window.findTab change.1).bind Tab.localPath = some change.2 ∨ change.2 ∉ s.claimed

/--
What a step must be like for the local paths to stay apart: a load is only
started for a file that no load is under way for, and finds the path that was
looked for or one that nobody has; a tab only takes a path that nobody has.
-/
def OneLoadPerFile (s : OpeningWindow) : OpenAction → Prop
  | .openFile raw => s.Unloaded (fun _ => false) raw
  | .doOpenFile elsewhere raw => s.Unloaded elsewhere raw
  | .doOpenRecentFile elsewhere raw => isRemoteEntry raw = true ∨ s.Unloaded elsewhere raw
  | .drop isFile elsewhere paths => DropUnloaded elsewhere s (droppedFiles isFile paths)
  | .startLoad index => ∀ load ∈ s.loads[index]?,
      s.canonicalize load.path = load.path ∨ s.canonicalize load.path ∉ s.claimed
  | .finishLoad _ _ _ => True
  | .relink _ => True
  | .tab action => s.TakesUnclaimed action

instance (elsewhere : PathBuf → Bool) (s : OpeningWindow) (raw : PathBuf) :
    Decidable (s.Unloaded elsewhere raw) :=
  inferInstanceAs (Decidable (_ = none → _ = false → _ ∉ _))

def decideDropUnloaded (elsewhere : PathBuf → Bool) :
    (s : OpeningWindow) → (files : List PathBuf) → Decidable (DropUnloaded elsewhere s files)
  | _, [] => isTrue trivial
  | s, raw :: rest =>
      have := decideDropUnloaded elsewhere (s.doOpenFile elsewhere raw) rest
      inferInstanceAs (Decidable (s.Unloaded elsewhere raw ∧ _))

instance (elsewhere : PathBuf → Bool) (s : OpeningWindow) (files : List PathBuf) :
    Decidable (DropUnloaded elsewhere s files) := decideDropUnloaded elsewhere s files

instance (s : OpeningWindow) (action : TabAction) : Decidable (s.TakesUnclaimed action) :=
  inferInstanceAs (Decidable ((∀ path ∈ action.broughtPath, _) ∧ ∀ change ∈ action.changedPath, _))

instance (s : OpeningWindow) : (action : OpenAction) → Decidable (s.OneLoadPerFile action)
  | .openFile raw => inferInstanceAs (Decidable (s.Unloaded (fun _ => false) raw))
  | .doOpenFile elsewhere raw => inferInstanceAs (Decidable (s.Unloaded elsewhere raw))
  | .doOpenRecentFile elsewhere raw => inferInstanceAs (Decidable (_ ∨ s.Unloaded elsewhere raw))
  | .drop isFile elsewhere paths =>
      inferInstanceAs (Decidable (DropUnloaded elsewhere s (droppedFiles isFile paths)))
  | .startLoad index => inferInstanceAs (Decidable (∀ load ∈ s.loads[index]?, _ ∨ _))
  | .finishLoad _ _ _ => isTrue trivial
  | .relink _ => isTrue trivial
  | .tab action => inferInstanceAs (Decidable (s.TakesUnclaimed action))

/-- The claimed paths are apart, and so are the tabs. -/
structure Apart (s : OpeningWindow) : Prop where
  linked : s.window.Linked
  claimed : s.claimed.Nodup

variable {s s' : OpeningWindow}

theorem mem_openPaths {path : PathBuf} :
    path ∈ s.openPaths ↔ ∃ tab ∈ s.window.tabs, tab.localPath = some path := List.mem_filterMap

theorem findTabByPath_eq_none {path : PathBuf} :
    s.window.findTabByPath path = none ↔ path ∉ s.openPaths := by
  rw [mem_openPaths, TabManager.findTabByPath, List.findIdx?_eq_none_iff]
  simp

/-! ## Requests -/

theorem Apart.focusExisting (h : Apart s) (index : Nat) :
    Apart (s.focusExistingLocalTabForOpen index) :=
  ⟨h.linked.of_eq rfl rfl, h.claimed⟩

theorem Apart.spawnLoad (h : Apart s) {path : PathBuf} (hfree : path ∉ s.claimed) :
    Apart (s.spawnLoad path) := by
  refine ⟨h.linked, ?_⟩
  have hclaimed : (s.spawnLoad path).claimed = s.claimed ++ [path] := by
    simp [OpeningWindow.claimed, openPaths, OpeningWindow.spawnLoad, FileLoad.file]
  rw [hclaimed, List.nodup_append]
  exact ⟨h.claimed, List.nodup_singleton path, fun _ hold other hnew hsame =>
    hfree (List.mem_singleton.mp hnew ▸ hsame ▸ hold)⟩

theorem openFile_eq (s : OpeningWindow) (raw : PathBuf) :
    s.openFile raw = s.doOpenFile (fun _ => false) raw := rfl

theorem Apart.doOpenFile (h : Apart s) {elsewhere : PathBuf → Bool} {raw : PathBuf}
    (hfree : s.Unloaded elsewhere raw) : Apart (s.doOpenFile elsewhere raw) := by
  unfold OpeningWindow.doOpenFile
  dsimp only
  cases hfind : s.window.findTabByPath (s.canonicalize raw) with
  | some index => exact h.focusExisting index
  | none =>
      dsimp only
      split
      · exact h
      · rename_i helsewhere
        refine h.spawnLoad fun hmem => ?_
        rcases List.mem_append.mp hmem with hopen | hload
        · exact findTabByPath_eq_none.mp hfind hopen
        · exact hfree hfind (by simpa using helsewhere) hload

theorem Apart.drop (h : Apart s) {elsewhere : PathBuf → Bool} (files : List PathBuf)
    (hfree : DropUnloaded elsewhere s files) :
    Apart (files.foldl (OpeningWindow.doOpenFile elsewhere) s) := by
  induction files generalizing s with
  | nil => exact h
  | cons raw rest ih => exact ih (h.doOpenFile hfree.1) hfree.2

/-! ## Loads -/

theorem claimed_perm {index : Nat} {load : FileLoad} (hload : s.loads[index]? = some load) :
    s.claimed.Perm (load.file :: (s.openPaths ++ (s.loads.eraseIdx index).map FileLoad.file)) := by
  obtain ⟨hlt, rfl⟩ := List.getElem?_eq_some_iff.mp hload
  have hloads : (s.loads.map FileLoad.file).Perm
      (s.loads[index].file :: (s.loads.eraseIdx index).map FileLoad.file) :=
    ((List.getElem_cons_eraseIdx_perm hlt).map FileLoad.file).symm
  exact (hloads.append_left s.openPaths).trans List.perm_middle

theorem Apart.startLoad (h : Apart s) {index : Nat}
    (hsame : ∀ load ∈ s.loads[index]?,
      s.canonicalize load.path = load.path ∨ s.canonicalize load.path ∉ s.claimed)
    (hstart : s.startLoad index = some s') : Apart s' := by
  obtain ⟨load, hload, hstart⟩ := Option.bind_eq_some_iff.mp hstart
  obtain ⟨hnew, hstart⟩ := Option.ite_none_left_eq_some.mp hstart
  cases hstart
  refine ⟨h.linked, ?_⟩
  have hperm := claimed_perm hload
  have hset :
    (s.loads.set index { load with canonicalPath := some (s.canonicalize load.path) }).Perm
      ({ load with canonicalPath := some (s.canonicalize load.path) } :: s.loads.eraseIdx index) :=
    List.set_perm_cons_eraseIdx (List.getElem?_eq_some_iff.mp hload).1 _
  have hnodup := hperm.nodup_iff.mp h.claimed
  refine (((hset.map FileLoad.file).append_left s.openPaths).trans
    List.perm_middle).nodup_iff.mpr (List.nodup_cons.mpr ⟨?_, (List.nodup_cons.mp hnodup).2⟩)
  show s.canonicalize load.path ∉ _
  rcases hsame load hload with hfile | hfree
  · have hnone : load.canonicalPath = none := by simpa using hnew
    have hpath : load.file = load.path := by rw [FileLoad.file, hnone, Option.getD_none]
    rw [hfile, ← hpath]
    exact (List.nodup_cons.mp hnodup).1
  · exact fun hmem => hfree (hperm.mem_iff.mpr (List.mem_cons_of_mem _ hmem))

theorem nodup_moves {window window' : TabManager} {new : List Tab} {files : List PathBuf}
    (hmoves : TabManager.Moves window new window')
    (h : (new.filterMap Tab.localPath ++
      (window.tabs.filterMap Tab.localPath ++ files)).Nodup) :
    (window'.tabs.filterMap Tab.localPath ++ files).Nodup := by
  obtain ⟨kept, hsub, hperm⟩ := hmoves.tabs
  have hpaths := hperm.filterMap Tab.localPath
  rw [List.filterMap_append] at hpaths
  rw [(hpaths.append_right files).nodup_iff, List.append_assoc]
  exact h.sublist ((List.Sublist.refl _).append ((hsub.filterMap _).append (List.Sublist.refl _)))

theorem Apart.finishLoad (h : Apart s) {index : Nat} {outcome : FileReadOutcome} {markdown : Bool}
    (hfinish : s.finishLoad index outcome markdown = some s') : Apart s' := by
  obtain ⟨load, hload, hfinish⟩ := Option.bind_eq_some_iff.mp hfinish
  obtain ⟨path, hpath, rfl⟩ := Option.map_eq_some_iff.mp hfinish
  have hnodup := (claimed_perm hload).nodup_iff.mp h.claimed
  have hdone : Apart { s with loads := s.loads.eraseIdx index } :=
    ⟨h.linked, (List.nodup_cons.mp hnodup).2⟩
  cases outcome with
  | binary => exact hdone
  | failed => exact hdone
  | decoded contents =>
      have hstep : s.window.step (.openFile path contents markdown) =
        some (s.window.openFile path contents markdown) := rfl
      refine ⟨h.linked.step hstep, ?_⟩
      rcases TabManager.moves_step hstep with ⟨new, hmoves, hnew⟩ | ⟨_, _, _, hother, _⟩
      · refine nodup_moves hmoves ?_
        rw [hnew]
        rw [FileLoad.file, hpath] at hnodup
        exact hnodup
      · cases hother

/-! ## The other operations -/

theorem localPath_change (tab : Tab) (tabId : Nat) (changed : EditorTab) (markdown : Bool) :
    (tab.change tabId changed markdown).localPath = tab.localPath ∨
      (tab.change tabId changed markdown).localPath = changed.filePath := by
  cases tab with
  | editor tab language =>
      by_cases hid : tab.id = tabId
      · right
        rw [Tab.change, if_pos hid]
        rfl
      · left
        rw [Tab.change, if_neg hid]
  | settings tab => exact Or.inl rfl
  | markdownPreview tab => exact Or.inl rfl

theorem change_of_ne {tab : Tab} {tabId : Nat} (hid : tab.id ≠ tabId) (changed : EditorTab)
    (markdown : Bool) : tab.change tabId changed markdown = tab := by
  cases tab with
  | editor tab language => exact if_neg hid
  | settings tab => rfl
  | markdownPreview tab => rfl

theorem map_change_of_ne {tabs : List Tab} {tabId : Nat} (hids : ∀ tab ∈ tabs, tab.id ≠ tabId)
    (changed : EditorTab) (markdown : Bool) :
    tabs.map (fun tab => tab.change tabId changed markdown) = tabs := by
  calc tabs.map (fun tab => tab.change tabId changed markdown)
      = tabs.map id := List.map_congr_left fun tab htab => change_of_ne (hids tab htab) _ _
    _ = tabs := List.map_id _

theorem Apart.changeEditor (h : Apart s) {tabId : Nat} {changed : EditorTab} {markdown : Bool}
    (hfree : s.TakesUnclaimed (.changeEditor tabId changed markdown)) :
    Apart { s with window := s.window.changeEditor tabId changed markdown } := by
  refine ⟨h.linked.changeEditor tabId changed markdown, ?_⟩
  show ((s.window.tabs.map fun tab => tab.change tabId changed markdown).filterMap Tab.localPath ++
    s.loads.map FileLoad.file).Nodup
  by_cases hopen : ∃ tab ∈ s.window.tabs, tab.id = tabId
  · obtain ⟨tab, htab, rfl⟩ := hopen
    have hkeys := h.linked.numbered.distinct
    obtain ⟨rest, hperm, hrest⟩ := Keyed.exists_rest hkeys htab
    have hfind : s.window.findTab tab.id = some tab := Keyed.find_of_mem hkeys htab
    have hchanged := Keyed.filterMap_perm Tab.localPath
      (hperm.map fun other => other.change tab.id changed markdown)
    rw [map_change_of_ne hrest] at hchanged
    have hclaimed : s.claimed.Perm (tab.localPath.toList ++
        (rest.filterMap Tab.localPath ++ s.loads.map FileLoad.file)) := by
      rw [← List.append_assoc]
      exact (Keyed.filterMap_perm Tab.localPath hperm).append_right _
    have hold := hclaimed.nodup_iff.mp h.claimed
    rw [(hchanged.append_right _).nodup_iff, List.append_assoc]
    rcases localPath_change tab tab.id changed markdown with hsame | hplace
    · rw [hsame]
      exact hold
    · rw [hplace]
      cases hpath : changed.filePath with
      | none => exact (List.nodup_append.mp hold).2.1
      | some path =>
          have hmoved : (tab.id, path) ∈
              TabAction.changedPath (.changeEditor tab.id changed markdown) := by
            simp [TabAction.changedPath, hpath]
          rcases hfree.2 _ hmoved with hkept | hunclaimed
          · rw [hfind] at hkept
            rw [show tab.localPath = some path from hkept] at hold
            exact hold
          · refine List.nodup_cons.mpr ⟨fun hmem => hunclaimed ?_, (List.nodup_append.mp hold).2.1⟩
            exact hclaimed.mem_iff.mpr (List.mem_append_right _ hmem)
  · rw [map_change_of_ne fun tab htab hid => hopen ⟨tab, htab, hid⟩]
    exact h.claimed

theorem Apart.tabStep (h : Apart s) {action : TabAction} (hfree : s.TakesUnclaimed action)
    (hstep : s.tabStep action = some s') : Apart s' := by
  have hwindow : ∃ window, s.window.step action = some window ∧
      { s with window := window } = s' := by
    unfold OpeningWindow.tabStep at hstep
    split at hstep
    · cases hstep
    · exact Option.map_eq_some_iff.mp hstep
  obtain ⟨window, hwindow, rfl⟩ := hwindow
  rcases TabManager.moves_step hwindow with ⟨new, hmoves, hnew⟩ |
    ⟨tabId, changed, markdown, rfl, rfl⟩
  · refine ⟨h.linked.step hwindow, nodup_moves hmoves ?_⟩
    rw [hnew]
    cases hpath : action.broughtPath with
    | none => exact h.claimed
    | some path =>
        exact List.nodup_cons.mpr ⟨hfree.1 path hpath, h.claimed⟩
  · exact h.changeEditor hfree

/-! ## Runs -/

/-- One step leaves the claimed paths apart. -/
theorem Apart.step (h : Apart s) {action : OpenAction} (hsafe : s.OneLoadPerFile action)
    (hstep : s.step action = some s') : Apart s' := by
  cases action with
  | openFile raw =>
      cases hstep
      rw [openFile_eq]
      exact h.doOpenFile hsafe
  | doOpenFile elsewhere raw =>
      cases hstep
      exact h.doOpenFile hsafe
  | doOpenRecentFile elsewhere raw =>
      cases hstep
      unfold OpeningWindow.doOpenRecentFile
      split
      · exact h
      · rename_i hlocal
        exact h.doOpenFile (hsafe.resolve_left hlocal)
  | drop isFile elsewhere paths =>
      cases hstep
      exact h.drop _ hsafe
  | startLoad index => exact h.startLoad hsafe hstep
  | finishLoad index outcome markdown => exact h.finishLoad hstep
  | relink canonicalize =>
      cases hstep
      exact ⟨h.linked, h.claimed⟩
  | tab action => exact h.tabStep hsafe hstep

/--
In every run of requests, loads, closings and other operations in which no two
loads are under way for one file, and no tab takes a path that another tab or a
load has, the tabs of the window have local paths of their own.
-/
theorem one_tab_per_file {window : TabManager} {canonicalize : PathBuf → PathBuf}
    (hlinked : window.Linked) (hdistinct : (window.tabs.filterMap Tab.localPath).Nodup)
    {actions : List OpenAction} {s : OpeningWindow}
    (hguard : Guarded step OneLoadPerFile (idle window canonicalize) actions)
    (hrun : run step (idle window canonicalize) actions = some s) : s.openPaths.Nodup := by
  have hidle : Apart (idle window canonicalize) := by
    refine ⟨hlinked, ?_⟩
    show (window.tabs.filterMap Tab.localPath ++ []).Nodup
    rwa [List.append_nil]
  have hapart : Apart s :=
    invariant_of_guarded Apart (fun _ _ _ h hsafe hstep => h.step hsafe hstep) hidle hguard hrun
  exact (List.nodup_append.mp hapart.claimed).1

/-- A window without tabs over a file system without links. -/
def sampleOpening : OpeningWindow := idle (.empty false false) id

def sampleRead (text : String) : FileReadOutcome :=
  .decoded { encoding := UTF_8, content := text, lossy := false, byteLen := text.utf8ByteSize }

def noFile : PathBuf → Bool := fun _ => false

/-- Two files whose loads overlap; one is requested again when it is open, closed, and reopened. -/
def sampleOpenings : List OpenAction :=
  [.drop (fun _ => true) noFile [⟨asBytes "/a"⟩, ⟨asBytes "/b"⟩, ⟨asBytes "/a"⟩],
    .startLoad 0, .startLoad 1, .finishLoad 1 (sampleRead "b") false,
    .finishLoad 0 (sampleRead "a") false, .openFile ⟨asBytes "/a"⟩, .tab (.closeTab 1),
    .doOpenRecentFile noFile ⟨asBytes "/a"⟩, .doOpenFile noFile ⟨asBytes "/b"⟩, .startLoad 0,
    .finishLoad 0 (sampleRead "a") false]

theorem one_tab_per_file_sample :
    ∃ s, run step sampleOpening sampleOpenings = some s ∧
      s.openPaths = [⟨asBytes "/b"⟩, ⟨asBytes "/a"⟩] ∧ s.openPaths.Nodup := by
  obtain ⟨s, hrun, hpaths⟩ := exists_of_any (show (run step sampleOpening sampleOpenings).any
    (fun s => decide (s.openPaths = [⟨asBytes "/b"⟩, ⟨asBytes "/a"⟩])) = true by decide +kernel)
  exact ⟨s, hrun, hpaths, one_tab_per_file (TabManager.linked_empty false false) (by decide)
    (Guarded.of_guardedRun (by decide +kernel)) hrun⟩

/-- Two requests for one file, the second before the load of the first is over, open it twice. -/
theorem overlapping_loads_open_twice :
    ∃ s, run step sampleOpening
      [.doOpenFile noFile ⟨asBytes "/a"⟩, .startLoad 0, .doOpenFile noFile ⟨asBytes "/a"⟩,
        .startLoad 1, .finishLoad 0 (sampleRead "a") false,
        .finishLoad 0 (sampleRead "a") false] = some s ∧
      s.openPaths = [⟨asBytes "/a"⟩, ⟨asBytes "/a"⟩] ∧ ¬s.openPaths.Nodup := by
  obtain ⟨s, hrun, hpaths⟩ := exists_of_any (show (run step sampleOpening
      [.doOpenFile noFile ⟨asBytes "/a"⟩, .startLoad 0, .doOpenFile noFile ⟨asBytes "/a"⟩,
        .startLoad 1, .finishLoad 0 (sampleRead "a") false,
        .finishLoad 0 (sampleRead "a") false]).any
    (fun s => decide (s.openPaths = [⟨asBytes "/a"⟩, ⟨asBytes "/a"⟩])) = true by decide +kernel)
  exact ⟨s, hrun, hpaths, hpaths ▸ by decide⟩

-- a drop takes each path once, but two links to one file are two paths
example : (run step { sampleOpening with canonicalize := fun _ => ⟨asBytes "/a"⟩ }
    [.drop (fun _ => true) noFile [⟨asBytes "/a"⟩, ⟨asBytes "/link"⟩], .startLoad 0, .startLoad 1,
      .finishLoad 0 (sampleRead "a") false, .finishLoad 0 (sampleRead "a") false]).map openPaths =
    some [⟨asBytes "/a"⟩, ⟨asBytes "/a"⟩] := by
  decide +kernel

end OpeningWindow

end Fulgur
