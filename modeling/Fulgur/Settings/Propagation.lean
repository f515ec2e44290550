import Fulgur.Library.Run
import Fulgur.Settings.SettingsFields

/-! # Settings in several windows

Each window has its own copy of the settings and changes that. The change is
saved to disk and then published: the copy replaces the shared settings, and
every window takes those over. A change that could not be saved is not
published, and the next change that another window publishes undoes it.
-/

namespace Fulgur

open LabelledRun

structure SettingsWindows where
  shared : Settings
  windows : List Settings
  /-- Whether the logger is in debug mode. -/
  debugMode : Bool
  notifications : List String
  /-- The value that each field was last given in any window. -/
  lastChanged : (field : SettingsField) → field.Value

inductive SettingsAction where
  /-- A window gives some fields other values; the error is that of the save, if it fails. -/
  | change (window : Nat) (assignments : List (Σ field, SettingsField.Value field))
      (saveError : Option String)
  | openWindow
  | closeWindow (window : Nat)
  /-- Another change of the shared state: the themes were loaded anew. -/
  | publishThemes

namespace SettingsWindows

def launched (settings : Settings) : SettingsWindows where
  shared := settings
  windows := []
  debugMode := settings.appSettings.debugMode
  notifications := []
  lastChanged := settingsFields.get settings

/-- Every window observes the shared state and takes over settings that differ from its own. -/
def runObservers (s : SettingsWindows) : SettingsWindows :=
  { s with
    windows := s.windows.map fun settings => if settings ≠ s.shared then s.shared else settings }

def saveFailed (error : String) : String := "Failed to save settings: " ++ error

/-- Save the settings of a window and publish them; a failure to save ends it. -/
def updateAndPropagateSettings (s : SettingsWindows) (settings : Settings)
    (saveError : Option String) : Except String Unit × SettingsWindows :=
  let s := { s with debugMode := settings.appSettings.debugMode }
  match saveError with
  | some error => (.error error, { s with notifications := s.notifications ++ [saveFailed error] })
  | none => (.ok (), { s with shared := settings })

def changeSettings (s : SettingsWindows) (window : Nat)
    (assignments : List (Σ field, SettingsField.Value field)) (saveError : Option String) :
    Option SettingsWindows :=
  s.windows[window]?.map fun settings =>
    let changed := settingsFields.assign settings assignments
    let s := { s with
      windows := s.windows.set window changed
      lastChanged := Fields.lastAssigned s.lastChanged assignments }
    match s.updateAndPropagateSettings changed saveError with
    -- the observers run when the update that published is over
    | (.ok (), s) => s.runObservers
    | (.error _, s) => s

def step (s : SettingsWindows) : SettingsAction → Option SettingsWindows
  | .change window assignments saveError => s.changeSettings window assignments saveError
  | .openWindow => some { s with windows := s.windows ++ [s.shared] }
  | .closeWindow window => some { s with windows := s.windows.eraseIdx window }
  | .publishThemes => some s.runObservers

structure ShowsLast (s : SettingsWindows) : Prop where
  shared : ∀ field, settingsFields.get s.shared field = s.lastChanged field
  windows : ∀ settings ∈ s.windows, settings = s.shared

/-- What is asked of a step: the last settings are shown, and a failure to save is reported. -/
def Propagated (action : SettingsAction) (s : SettingsWindows) : Prop :=
  s.ShowsLast ∧ ∀ window assignments error, action = .change window assignments (some error) →
    s.notifications.getLast? = some (saveFailed error)

/-- The change is saved, or gives each field the value that it has. -/
def SavedOrSame (s : SettingsWindows) : SettingsAction → Prop
  | .change window assignments saveError => saveError = none ∨
      ∀ settings ∈ s.windows[window]?, settingsFields.assign settings assignments = settings
  | _ => True

/-! ## Steps -/

variable {s s' : SettingsWindows}

theorem showsLast_launched (settings : Settings) : ShowsLast (launched settings) :=
  ⟨fun _ => rfl, fun _ hmem => absurd hmem List.not_mem_nil⟩

theorem windows_runObservers (s : SettingsWindows) :
    ∀ settings ∈ s.runObservers.windows, settings = s.shared := by
  intro settings hmem
  obtain ⟨old, -, rfl⟩ := List.mem_map.mp hmem
  split
  · rfl
  · rename_i hsame
    exact not_not.mp hsame

theorem ShowsLast.runObservers (h : ShowsLast s) : ShowsLast s.runObservers :=
  ⟨h.shared, s.windows_runObservers⟩

theorem ShowsLast.assigned (h : ShowsLast s) {window : Nat} {settings : Settings}
    (hwindow : s.windows[window]? = some settings)
    (assignments : List (Σ field, SettingsField.Value field)) :
    settingsFields.get (settingsFields.assign settings assignments) =
      Fields.lastAssigned s.lastChanged assignments := by
  have hsettings : settings = s.shared := h.windows settings (List.mem_of_getElem? hwindow)
  have hlast : settingsFields.get settings = s.lastChanged := by
    rw [hsettings]
    exact funext h.shared
  rw [Fields.get_assign, hlast]

theorem ShowsLast.saved (h : ShowsLast s) {window : Nat}
    {assignments : List (Σ field, SettingsField.Value field)}
    (hstep : s.changeSettings window assignments none = some s') : ShowsLast s' := by
  obtain ⟨settings, hwindow, rfl⟩ := Option.map_eq_some_iff.mp hstep
  refine ⟨fun field => ?_, windows_runObservers _⟩
  exact congrFun (h.assigned hwindow assignments) field

theorem changeSettings_failed {window : Nat} {settings : Settings}
    (hwindow : s.windows[window]? = some settings)
    (assignments : List (Σ field, SettingsField.Value field)) (error : String) :
    s.changeSettings window assignments (some error) = some { s with
      windows := s.windows.set window (settingsFields.assign settings assignments)
      debugMode := (settingsFields.assign settings assignments).appSettings.debugMode
      notifications := s.notifications ++ [saveFailed error]
      lastChanged := Fields.lastAssigned s.lastChanged assignments } := by
  rw [changeSettings, hwindow]
  rfl

/-- Such a change is shown everywhere exactly when it changes nothing. -/
theorem ShowsLast.failed_iff (h : ShowsLast s) {window : Nat} {settings : Settings}
    (hwindow : s.windows[window]? = some settings)
    {assignments : List (Σ field, SettingsField.Value field)} {error : String}
    (hstep : s.changeSettings window assignments (some error) = some s') :
    ShowsLast s' ↔ settingsFields.assign settings assignments = settings := by
  have hshared : settings = s.shared := h.windows settings (List.mem_of_getElem? hwindow)
  have hassigned := h.assigned hwindow assignments
  obtain ⟨hlt, hat⟩ := List.getElem?_eq_some_iff.mp hwindow
  rw [changeSettings_failed hwindow] at hstep
  cases hstep
  constructor
  · intro hshows
    rw [hshared]
    exact hshared ▸ hshows.windows _ (List.mem_set hlt _)
  · intro hsame
    rw [hsame] at hassigned ⊢
    refine ⟨fun field => ?_, fun other hother => h.windows other ?_⟩
    · rw [← hshared]
      exact congrFun hassigned field
    · have hset : s.windows.set window settings = s.windows := by
        rw [← hat, List.set_getElem_self]
      exact hset ▸ hother

/-- The guard of an action says exactly when its step ends as asked. -/
theorem ShowsLast.savedOrSame_iff (h : ShowsLast s) (action : SettingsAction) :
    s.SavedOrSame action ↔ ∀ s', s.step action = some s' → Propagated action s' := by
  cases action with
  | change window assignments saveError =>
      cases saveError with
      | none =>
          refine ⟨fun _ s' hstep => ⟨h.saved hstep, ?_⟩, fun _ => Or.inl rfl⟩
          intro _ _ _ hfailed
          cases hfailed
      | some error =>
          cases hwindow : s.windows[window]? with
          | none =>
              constructor
              · intro _ s' hstep
                rw [step, changeSettings, hwindow] at hstep
                cases hstep
              · intro _
                right
                simp [hwindow]
          | some settings =>
              have hfailed := changeSettings_failed hwindow assignments error
              have hguard : s.SavedOrSame (.change window assignments (some error)) ↔
                  settingsFields.assign settings assignments = settings := by
                simp [SavedOrSame, hwindow]
              rw [hguard, ← h.failed_iff hwindow hfailed]
              constructor
              · intro hshows s' hstep
                cases hfailed.symm.trans hstep
                refine ⟨hshows, fun _ _ _ hsame => ?_⟩
                cases hsame
                exact List.getLast?_concat
              · exact fun hall => (hall _ hfailed).1
  | openWindow =>
      refine ⟨fun _ s' hstep => ?_, fun _ => trivial⟩
      cases hstep
      refine ⟨⟨h.shared, fun settings hmem => ?_⟩, nofun⟩
      rcases List.mem_append.mp hmem with hold | hnew
      · exact h.windows settings hold
      · exact List.mem_singleton.mp hnew
  | closeWindow window =>
      refine ⟨fun _ s' hstep => ?_, fun _ => trivial⟩
      cases hstep
      exact ⟨⟨h.shared, fun settings hmem => h.windows settings (List.mem_of_mem_eraseIdx hmem)⟩,
        nofun⟩
  | publishThemes =>
      refine ⟨fun _ s' hstep => ?_, fun _ => trivial⟩
      cases hstep
      exact ⟨h.runObservers, nofun⟩

/--
In every run of setting changes in any windows, whose saves may fail, and of
windows that open and close: after each step the shared settings and all windows
have every field as it was last changed, and a failed save is reported, exactly
when each change is saved or gives the fields the values that they have.
-/
theorem last_settings_shown_iff (settings : Settings) (actions : List SettingsAction) :
    After step Propagated (launched settings) actions ↔
      Guarded step SavedOrSame (launched settings) actions := by
  refine after_iff_guarded ShowsLast ?_ ?_ (showsLast_launched settings) actions
  · intro s action s' _ _ hpropagated
    exact hpropagated.1
  · intro s action h
    exact h.savedOrSame_iff action

/--
The tab size is changed in one window and cannot be saved; another window then changes
soft wrap.
-/
def sampleChanges : List SettingsAction :=
  [.openWindow, .openWindow, .change 0 [⟨.tabSize, (8 : Nat)⟩] (some "disk full"),
    .change 1 [⟨.softWrap, true⟩] none]

/-- The setting that was not saved never reaches the other window, and is undone in its own. -/
theorem unsaved_setting_undone :
    (∃ s, run step (launched .new) sampleChanges = some s ∧ s.lastChanged .tabSize = (8 : Nat) ∧
      s.windows.map (fun settings => settings.editorSettings.tabSize) = [4, 4]) ∧
    ¬After step Propagated (launched .new) sampleChanges := by
  refine ⟨⟨_, rfl, rfl, rfl⟩, fun h => ?_⟩
  have hshows : ShowsLast _ := ((h _ rfl).2 _ rfl).2 _ rfl |>.1.1
  have htabSize := hshows.shared .tabSize
  exact absurd (show (4 : Nat) = 8 from htabSize) (by decide)

end SettingsWindows

end Fulgur
