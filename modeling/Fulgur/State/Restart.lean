import Fulgur.Library.Run
import Fulgur.State.Restore

/-! # Unsaved work across restarts

A restart restores a saved tab and, without an edit in between, saves it again.
A buffer that comes back as an untitled tab is saved again at every restart. A
buffer that comes back on its path, local or remote, has become its own baseline
and is not saved again.
-/

namespace Fulgur

/-- What the disk shows when a tab is restored and when it is saved again. -/
structure RestartCycle where
  atRestore : Disk
  atSave : Disk

def restart (encodings : Encodings) (parse : String → Option Int) (state : TabState)
    (cycle : RestartCycle) : Option TabState :=
  (restoreTabFromState encodings parse cycle.atRestore state state.tabId).bind
    (buildTabState true cycle.atSave)

/-- The file of a saved tab did not become newer than its save. -/
def NotNewer (parse : String → Option Int) (state : TabState) (cycle : RestartCycle) : Prop :=
  ∀ path ∈ state.filePath, ∀ savedTime ∈ state.lastSaved,
    ∀ fileTime ∈ getFileModifiedTime cycle.atRestore path,
    isFileNewer parse fileTime savedTime = false

section

variable {encodings : Encodings} {parse : String → Option Int} {state state' : TabState}
  {cycle : RestartCycle} {content : TabContent}

/-! ## Buffers that stay lost -/

/-- A restored tab that has a location and equals its baseline loses its saved buffer. -/
private theorem content_none_of_restored {tab : EditorTab} {persist : Bool} {disk : Disk}
    (hloc : tab.location ≠ .untitled)
    (hsame : isLargeFile tab.content.len = false → tab.contentDiffersFromOriginal = false)
    (h : buildTabState persist disk tab = some state) : state.content = none := by
  cases hc : state.content with
  | none => rfl
  | some content =>
      obtain ⟨_, hlimit⟩ := buildTabState_content h hc
      have hsmall : isLargeFile tab.content.len = false := by
        unfold EditorTab.contentTooLargeToPersist at hlimit
        exact (Bool.or_eq_false_iff.mp hlimit).2
      rw [buildTabState_content_none hloc (hsame hsmall) h] at hc
      cases hc

/-- Unless a restored buffer becomes an untitled tab, its content is not saved again. -/
private theorem restart_content_none (h : restart encodings parse state cycle = some state')
    (hlocated : state.content = none ∨ state.remote ≠ none ∨
      ∃ path ∈ state.filePath, (cycle.atRestore path).isPresent = true) :
    state'.content = none := by
  rcases Option.bind_eq_some_iff.mp h with ⟨tab, hrestore, hbuild⟩
  cases restoredFrom_of_restore hrestore with
  | remote remote hremote hloc htext hsame =>
      exact content_none_of_restored (by simp [hloc]) hsame hbuild
  | file path hpath hcase hloc hread hsame =>
      exact content_none_of_restored (by simp [hloc]) (fun _ => hsame) hbuild
  | saved path content hdecision hpath hpresent hcontent hloc htext hsame =>
      apply content_none_of_restored (by simp [hloc]) _ hbuild
      simpa [Rope.len, htext] using hsame
  | untitled content hcontent hremote hpath hloc =>
      exfalso
      rcases hlocated with hnone | hsome | ⟨path, hmem, hpresent⟩
      · simp [hnone] at hcontent
      · exact hsome hremote
      · simp [hpath path hmem] at hpresent

/-- Content that a save left out never comes back. -/
private theorem run_content_none {cycles : List RestartCycle}
    (hnone : state.content = none)
    (h : LabelledRun.run (restart encodings parse) state cycles = some state') :
    state'.content = none :=
  LabelledRun.invariant_of_run (fun s => s.content = none)
    (fun _ _ _ hs hstep => restart_content_none hstep (Or.inl hs)) hnone h

/-! ## Buffers that stay saved -/

/-- A saved buffer that belongs to no place and is worth keeping. -/
structure Pathless (text title : String) (state : TabState) : Prop where
  noPath : state.filePath = none
  noRemote : state.remote = none
  hasTitle : state.title = title
  saved : state.content.map TabContent.toText = some text

variable (encodings parse cycle) in
/-- A buffer restored without a file is saved again, unless it is an empty untitled one. -/
private theorem restart_of_missing (hremote : state.remote = none)
    (hcontent : state.content = some content)
    (hmissing : ∀ path, state.filePath = some path → (cycle.atRestore path).isPresent = false)
    (hlimit : isLargeFile content.toText.utf8ByteSize = false) :
    (content.toText = "" ∧ UNTITLED.toList.isPrefixOf state.title.toList = true ∧
        restart encodings parse state cycle = none) ∨
      (¬ (content.toText = "" ∧ UNTITLED.toList.isPrefixOf state.title.toList = true) ∧
        ∃ next, restart encodings parse state cycle = some next ∧
          Pathless content.toText state.title next) := by
  unfold restart
  rw [restore_of_missing hremote hcontent hmissing, Option.bind_some, buildTabState_untitled rfl,
    finishRestore_tooLarge, restoredUntitled_tooLarge, hlimit]
  have htext : (finishRestore state
      (restoredUntitled state.tabId state.title content.toText)).content.toText =
        content.toText := by
    simp [restoredUntitled]
  have htitle : (finishRestore state
      (restoredUntitled state.tabId state.title content.toText)).title = state.title := rfl
  rw [htext, htitle]
  by_cases hdropped : content.toText = "" ∧ UNTITLED.toList.isPrefixOf state.title.toList = true
  · left
    exact ⟨hdropped.1, hdropped.2, if_pos (Or.inr hdropped)⟩
  · right
    refine ⟨hdropped, _, if_neg (by simpa using hdropped), rfl, rfl, htitle, ?_⟩
    rw [Option.map_some]
    exact congrArg some htext

variable (encodings parse) in
private theorem run_pathless {text title : String} (cycles : List RestartCycle)
    (hlimit : isLargeFile text.utf8ByteSize = false)
    (hkept : ¬ (text = "" ∧ UNTITLED.toList.isPrefixOf title.toList = true))
    (hstate : Pathless text title state) :
    ∃ last, LabelledRun.run (restart encodings parse) state cycles = some last ∧
      Pathless text title last := by
  induction cycles generalizing state with
  | nil => exact ⟨state, rfl, hstate⟩
  | cons cycle cycles ih =>
      rcases Option.map_eq_some_iff.mp hstate.saved with ⟨content, hcontent, rfl⟩
      have hstep := restart_of_missing encodings parse cycle
        hstate.noRemote hcontent (by simp [hstate.noPath]) hlimit
      rw [hstate.hasTitle] at hstep
      rcases hstep with ⟨hempty, hprefix, _⟩ | ⟨_, next, hnext, hpathless⟩
      · exact absurd ⟨hempty, hprefix⟩ hkept
      · rcases ih hpathless with ⟨last, hlast, hresult⟩
        exact ⟨last, by rw [LabelledRun.run_cons, hnext]; exact hlast, hresult⟩

/-! ## The saved buffer after any number of restarts -/

/--
The buffer of a local or remote tab is still saved after a nonempty sequence of
restarts exactly when the tab is local, its file is missing at the first
restart, and it is not an empty buffer under an untitled name.
-/
theorem content_survives_iff {disk : Disk} (tab : EditorTab) (first : RestartCycle)
    (rest : List RestartCycle) (hlocated : tab.location ≠ .untitled)
    (hsaved : buildTabState true disk tab = some state) (hcontent : state.content = some content) :
    ((LabelledRun.run (restart encodings parse) state (first :: rest)).bind
        fun last => last.content.map TabContent.toText) = some content.toText ↔
      (∃ path, tab.location = .localPath path ∧ (first.atRestore path).isPresent = false) ∧
        ¬ (tab.content.toText = "" ∧ UNTITLED.toList.isPrefixOf tab.title.toList = true) := by
  have htitle : state.title = tab.title := (buildTabState_tabId hsaved).2
  rcases buildTabState_content hsaved hcontent with ⟨rfl, hsize⟩
  have hlimit : isLargeFile (TabContent.rope tab.content).toText.utf8ByteSize = false := by
    unfold EditorTab.contentTooLargeToPersist at hsize
    exact (Bool.or_eq_false_iff.mp hsize).2
  by_cases hmissing :
    ∃ path, tab.location = .localPath path ∧ (first.atRestore path).isPresent = false
  · rcases hmissing with ⟨path, hloc, habsent⟩
    rcases buildTabState_local hloc hsaved with ⟨hpath, hremote⟩
    have hstep := restart_of_missing encodings parse first
      hremote hcontent (by simpa [hpath] using habsent) hlimit
    rw [htitle] at hstep
    rcases hstep with ⟨hempty, hprefix, hnone⟩ | ⟨hkept, next, hnext, hpathless⟩
    · have hdropped : tab.content.toText = "" ∧
          UNTITLED.toList.isPrefixOf tab.title.toList = true := ⟨hempty, hprefix⟩
      simp [LabelledRun.run_cons, hnone, hdropped]
    · rcases run_pathless encodings parse rest hlimit hkept hpathless with ⟨last, hlast, hresult⟩
      rw [LabelledRun.run_cons, hnext, Option.bind_some, hlast, Option.bind_some, hresult.saved]
      exact ⟨fun _ => ⟨⟨path, hloc, habsent⟩, hkept⟩, fun _ => rfl⟩
  · -- the tab comes back on its place: the first save leaves the buffer out
    have hplaced : state.content = none ∨ state.remote ≠ none ∨
        ∃ path ∈ state.filePath, (first.atRestore path).isPresent = true := by
      cases hloc : tab.location with
      | untitled => exact absurd hloc hlocated
      | remote spec =>
          right
          left
          simp [(buildTabState_remote hloc hsaved).2]
      | localPath path =>
          right
          right
          refine ⟨path, (buildTabState_local hloc hsaved).1, ?_⟩
          cases hpresent : (first.atRestore path).isPresent with
          | true => rfl
          | false => exact absurd ⟨path, hloc, hpresent⟩ hmissing
    constructor
    · intro h
      exfalso
      rcases Option.bind_eq_some_iff.mp h with ⟨last, hrun, htext⟩
      obtain ⟨next, hnext, hrest⟩ := LabelledRun.run_cons_eq_some hrun
      have hnone := run_content_none (restart_content_none hnext hplaced) hrest
      simp [hnone] at htext
    · intro h
      exact absurd h.1 hmissing

end

/-! ## One tab on a file that is still there -/

/-- The file `/n` holds `a` and its tab was edited to `ab`. -/
def sampleTab : EditorTab :=
  { EditorTab.fromFile
      { id := 3, path := ⟨asBytes "/n"⟩, contents := "a", encoding := UTF_8, isModified := false }
    with content := .ofText "ab", modified := true }

/-- One restart over an unchanged file loses the buffer that was saved. -/
theorem restart_loses_saved_content :
    (buildTabState true sampleDisk sampleTab).bind (·.content) = some (.rope (.ofText "ab")) ∧
    (∀ state ∈ buildTabState true sampleDisk sampleTab,
      NotNewer sampleParse state ⟨sampleDisk, sampleDisk⟩ ∧
      (restart sampleEncodings sampleParse state ⟨sampleDisk, sampleDisk⟩).map (·.content) =
        some none) := by
  refine ⟨by decide, fun state hstate => ?_⟩
  cases hstate
  refine ⟨?_, by decide⟩
  intro path hpath savedTime hsaved fileTime hfile
  cases hsaved
  cases hfile
  decide

/-- With its file gone, the same buffer is still saved two restarts later. -/
theorem content_survives_iff_sample :
    ∃ state ∈ buildTabState true sampleDisk sampleTab,
      ((LabelledRun.run (restart sampleEncodings sampleParse) state
          [⟨fun _ => .missing, fun _ => .missing⟩, ⟨sampleDisk, sampleDisk⟩]).bind
        fun last => last.content.map TabContent.toText) = some "ab" :=
  ⟨_, rfl, (content_survives_iff sampleTab _ _ (by decide) rfl rfl).mpr
    ⟨⟨⟨asBytes "/n"⟩, rfl, rfl⟩, by decide⟩⟩

end Fulgur
