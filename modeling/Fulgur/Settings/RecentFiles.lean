import Fulgur.Library.Recency
import Fulgur.Settings.InterruptedSaves

/-! # The recent files

A file that is opened goes to the end of the recent files, and the first one
goes when there are too many. One at a time is dropped, so a list that is too
long or has a path twice when it is loaded stays so.
-/

namespace Fulgur

open LabelledRun Recency

namespace RecentFiles

def addFile (recent : RecentFiles) (file : PathBuf) : RecentFiles :=
  let files := recent.files ++ [file]
  { recent with files := if recent.maxFiles < files.length then files.eraseIdx 0 else files }

def removeFile (recent : RecentFiles) (file : PathBuf) : RecentFiles :=
  { recent with files := recent.files.filter (· ≠ file) }

def clear (recent : RecentFiles) : RecentFiles := { recent with files := [] }

end RecentFiles

/-- `Settings::add_file`; whether the save afterwards succeeds changes nothing in memory. -/
def Settings.addFile (settings : Settings) (file : PathBuf) : Settings :=
  let recent :=
    if file ∈ settings.recentFiles.files then settings.recentFiles.removeFile file
    else settings.recentFiles
  { settings with recentFiles := recent.addFile file }

/-- What happens to the recent files of settings that are loaded. -/
inductive RecentAction where
  | addFile (file : PathBuf)
  /-- `RecentFiles::add_file` itself, which does not look for the file. -/
  | push (file : PathBuf)
  | removeFile (file : PathBuf)
  | clear
  | validate

namespace RecentAction

def used : RecentAction → Option PathBuf
  | .addFile file => some file
  | .push file => some file
  | _ => none

/-- A file that is in the list is not pushed once more. -/
def Permitted (settings : Settings) : RecentAction → Prop
  | .push file => file ∉ settings.recentFiles.files
  | _ => True

end RecentAction

def Settings.recentStep (parsesUrl : String → Bool) (settings : Settings) :
    RecentAction → Option Settings
  | .addFile file => some (settings.addFile file)
  | .push file => some { settings with recentFiles := settings.recentFiles.addFile file }
  | .removeFile file => some { settings with recentFiles := settings.recentFiles.removeFile file }
  | .clear => some { settings with recentFiles := settings.recentFiles.clear }
  | .validate => some (settings.validate parsesUrl)

/-- The paths in the order of their last use, without repetition and not too many. -/
def RecentFiles.Keeps (recent : RecentFiles) (log : List PathBuf) : Prop :=
  Kept recent.maxFiles log recent.files

/-- The recent files have no path twice and are not too many. -/
def RecentFiles.WellFormed (recent : RecentFiles) : Prop :=
  recent.files.Nodup ∧ recent.files.length ≤ recent.maxFiles

section

variable {parsesUrl : String → Bool} {settings after : Settings} {log : List PathBuf}

theorem RecentFiles.addFile_eq_touch (recent : RecentFiles) (file : PathBuf)
    (h : file ∉ recent.files) :
    recent.addFile file = { recent with files := touch recent.maxFiles file recent.files } := by
  have hkept : recent.files.filter (· ≠ file) = recent.files := by
    refine List.filter_eq_self.mpr fun other hother => ?_
    exact decide_eq_true fun hsame => h (hsame ▸ hother)
  rw [addFile, touch, hkept, List.eraseIdx_zero]

theorem Settings.addFile_eq_touch (settings : Settings) (file : PathBuf) :
    settings.addFile file = { settings with recentFiles :=
      { settings.recentFiles with
        files := touch settings.recentFiles.maxFiles file settings.recentFiles.files } } := by
  unfold Settings.addFile
  dsimp only
  split
  · have hgone : file ∉ (settings.recentFiles.removeFile file).files := by
      simp [RecentFiles.removeFile]
    rw [RecentFiles.addFile_eq_touch _ _ hgone]
    simp [RecentFiles.removeFile, touch, List.filter_filter]
  · rename_i hmissing
    rw [RecentFiles.addFile_eq_touch _ _ hmissing]

/-- One action, with what it adds to the log. -/
theorem keeps_step {action : RecentAction}
    (hmax : settings.recentFiles.maxFiles ≤ MAX_RECENT_FILES_MAX)
    (h : settings.recentFiles.Keeps log) (hpermitted : action.Permitted settings)
    (hstep : settings.recentStep parsesUrl action = some after) :
    after.recentFiles.maxFiles = settings.recentFiles.maxFiles ∧
      after.recentFiles.Keeps (log ++ action.used.toList) ∧
      ∀ file, action.used = some file → 0 < settings.recentFiles.maxFiles →
        after.recentFiles.files.getLast? = some file := by
  cases action with
  | addFile file =>
      cases hstep
      rw [Settings.addFile_eq_touch]
      refine ⟨rfl, Kept.touch h file, ?_⟩
      rintro _ ⟨⟩ hroom
      exact getLast?_touch hroom file _
  | push file =>
      cases hstep
      rw [RecentFiles.addFile_eq_touch _ _ hpermitted]
      refine ⟨rfl, Kept.touch h file, ?_⟩
      rintro _ ⟨⟩ hroom
      exact getLast?_touch hroom file _
  | removeFile file =>
      cases hstep
      refine ⟨rfl, ?_, nofun⟩
      change RecentFiles.Keeps _ (log ++ [])
      rw [List.append_nil]
      exact Kept.of_sublist h List.filter_sublist
  | clear =>
      cases hstep
      refine ⟨rfl, ?_, nofun⟩
      change RecentFiles.Keeps _ (log ++ [])
      rw [List.append_nil]
      exact Kept.of_sublist h (List.nil_sublist _)
  | validate =>
      cases hstep
      have hsame : (settings.validate parsesUrl).recentFiles.maxFiles =
          settings.recentFiles.maxFiles := Nat.min_eq_left hmax
      refine ⟨hsame, ?_, nofun⟩
      change RecentFiles.Keeps _ (log ++ [])
      rw [List.append_nil, RecentFiles.Keeps, hsame]
      exact h

theorem keeps_run {actions : List RecentAction}
    (hmax : settings.recentFiles.maxFiles ≤ MAX_RECENT_FILES_MAX)
    (h : settings.recentFiles.Keeps log)
    (hguard : Guarded (Settings.recentStep parsesUrl) (fun s action => action.Permitted s)
      settings actions)
    (hrun : run (Settings.recentStep parsesUrl) settings actions = some after) :
    after.recentFiles.maxFiles = settings.recentFiles.maxFiles ∧
      after.recentFiles.Keeps (log ++ actions.filterMap RecentAction.used) ∧
      ∀ file, actions.getLast?.bind RecentAction.used = some file →
        0 < settings.recentFiles.maxFiles → after.recentFiles.files.getLast? = some file := by
  induction actions generalizing settings log with
  | nil =>
      cases hrun
      exact ⟨rfl, by rwa [List.filterMap_nil, List.append_nil], nofun⟩
  | cons action actions ih =>
      obtain ⟨mid, hstep, hrest⟩ := run_cons_eq_some hrun
      obtain ⟨hsame, hkeeps, hlast⟩ := keeps_step hmax h hguard.1 hstep
      obtain ⟨hsame', hkeeps', hlast'⟩ := ih (hsame ▸ hmax) hkeeps (hguard.2 mid hstep) hrest
      refine ⟨hsame'.trans hsame, ?_, fun file hfile hroom => ?_⟩
      · rw [List.append_assoc] at hkeeps'
        cases hused : action.used with
        | none => rwa [hused, Option.toList_none, List.nil_append,
            ← List.filterMap_cons_none hused] at hkeeps'
        | some file => rwa [hused, Option.toList_some, List.singleton_append,
            ← List.filterMap_cons_some hused] at hkeeps'
      · cases actions with
        | nil =>
            cases hrest
            exact hlast file hfile hroom
        | cons next actions =>
            rw [List.getLast?_cons_cons] at hfile
            exact hlast' file hfile (hsame ▸ hroom)

/--
After a load, the recent files stay without repetition, within their bound and in
the order of the last use, whatever is done with them, just when they are loaded
without repetition and within the bound.
-/
theorem recent_files_kept_iff (format : SettingsFormat) (files : SettingsFiles)
    (loaded : Settings) (hload : Settings.loadFromPath format files = some loaded) :
    (∀ actions after,
      Guarded (Settings.recentStep format.parsesUrl) (fun s action => action.Permitted s)
        loaded actions →
      run (Settings.recentStep format.parsesUrl) loaded actions = some after →
      after.recentFiles.Keeps (loaded.recentFiles.files ++ actions.filterMap RecentAction.used) ∧
        ∀ file, actions.getLast?.bind RecentAction.used = some file →
          0 < after.recentFiles.maxFiles → after.recentFiles.files.getLast? = some file) ↔
      loaded.recentFiles.WellFormed := by
  have hmax := (Settings.inRange_of_loadFromPath hload).maxFiles
  constructor
  · intro hall
    obtain ⟨hkeeps, -⟩ := hall [] loaded trivial rfl
    exact ⟨hkeeps.nodup, hkeeps.length⟩
  · intro hwell actions after hguard hrun
    obtain ⟨hsame, hkeeps, hlast⟩ := keeps_run hmax (kept_self hwell.1 hwell.2) hguard hrun
    exact ⟨hkeeps, fun file hfile hroom => hlast file hfile (hsame ▸ hroom)⟩

end

/-! ## Two settings files -/

def recentSettings (recent : RecentFiles) : Settings := { Settings.new with recentFiles := recent }

def recentSettingsJson (recentFiles : String) : String :=
  (sampleSettingsJson "14.0").replace "\"files\": [],\n    \"max_files\": 10" recentFiles

def sampleRecent : RecentFiles := ⟨[⟨asBytes "/a"⟩, ⟨asBytes "/b"⟩], 2⟩

/-- The user has lowered the bound. -/
def sampleFull : RecentFiles := ⟨[⟨asBytes "/a"⟩, ⟨asBytes "/b"⟩], 1⟩

def sampleRecentJson : String :=
  recentSettingsJson "\"files\": [\"/a\", \"/b\"],\n    \"max_files\": 2"

def sampleFullJson : String :=
  recentSettingsJson "\"files\": [\"/a\", \"/b\"],\n    \"max_files\": 1"

/-- What is read from a document, of the one that is given. -/
def recentFormat (json : String) (settings : Settings) : SettingsFormat where
  toStringPretty s := if s = settings then some json else none
  fromStr text := if text = json then some settings else none
  parsesUrl _ := true

theorem load_recentFormat (json : String) (recent : RecentFiles) :
    Settings.loadFromPath (recentFormat json (recentSettings recent)) ⟨some (asBytes json), none⟩ =
      some ((recentSettings recent).validate fun _ => true) :=
  loadFromPath_of_primary (readToString_asBytes json) (if_pos rfl)

theorem recent_files_kept_sample :
    ∃ after, run (Settings.recentStep fun _ => true) (recentSettings sampleRecent)
        [.addFile ⟨asBytes "/a"⟩] = some after ∧
      after.recentFiles.Keeps [⟨asBytes "/a"⟩, ⟨asBytes "/b"⟩, ⟨asBytes "/a"⟩] := by
  have hload : Settings.loadFromPath
      (recentFormat sampleRecentJson (recentSettings sampleRecent))
      ⟨some (asBytes sampleRecentJson), none⟩ = some (recentSettings sampleRecent) := by
    rw [load_recentFormat]
    exact congrArg some (by decide)
  have hwell : (recentSettings sampleRecent).recentFiles.WellFormed := ⟨by decide, by decide⟩
  have hkept := (recent_files_kept_iff _ _ _ hload).mpr hwell [.addFile ⟨asBytes "/a"⟩] _
    ⟨trivial, fun _ _ => trivial⟩ rfl
  exact ⟨_, rfl, hkept.1⟩

/-- Two files are loaded where there is room for one, and they stay two. -/
theorem recent_files_exceed :
    ¬∀ (format : SettingsFormat) (files : SettingsFiles) (loaded : Settings)
      (actions : List RecentAction) (after : Settings),
      Settings.loadFromPath format files = some loaded →
      run (Settings.recentStep format.parsesUrl) loaded actions = some after →
      after.recentFiles.files.length ≤ after.recentFiles.maxFiles := by
  intro hall
  have hlong :=
    hall _ _ _ [.addFile ⟨asBytes "/c"⟩] _ (load_recentFormat sampleFullJson sampleFull) rfl
  exact absurd hlong (by decide)

end Fulgur
