import Mathlib.Algebra.Order.Ring.Rat
import Fulgur.Files.Encoding
import Fulgur.Settings.Types
import Fulgur.Tabs.Transfer

/-! # Saving and loading the settings

A load brings every value into its range and clears the server addresses and
emails that are malformed; what it returns is left as it is by another load. A
save copies the settings file over its backup, and then replaces it.
-/

namespace Fulgur

def FONT_SIZE_MIN : ℚ := 6
def FONT_SIZE_MAX : ℚ := 72
def TAB_SIZE_MIN : Nat := 1
def TAB_SIZE_MAX : Nat := 16
def MAX_RECENT_FILES_MAX : Nat := 100

/-! ## Validation -/

namespace FontSize

def inRange : FontSize → Bool
  | .finite value => decide (FONT_SIZE_MIN ≤ value ∧ value ≤ FONT_SIZE_MAX)
  | _ => false

/-- `f32::clamp`, which leaves NaN as it is. -/
def clamp : FontSize → FontSize
  | .finite value => .finite (max FONT_SIZE_MIN (min value FONT_SIZE_MAX))
  | .infinite negative => .finite (if negative then FONT_SIZE_MIN else FONT_SIZE_MAX)
  | .nan => .nan

def validate (size : FontSize) : FontSize :=
  if size.inRange then size
  else if size.clamp.isFinite then size.clamp
  else .finite 14

end FontSize

def isValidEmail (email : String) : Bool :=
  if email.toList.any isWhiteSpace then false
  else
    let localPart := email.toList.takeWhile (· ≠ '@')
    match email.toList.dropWhile (· ≠ '@') with
    | [] => false
    | _ :: domain =>
        if localPart.isEmpty || domain.contains '@' then false
        else
          let labels := domain.splitOn '.'
          decide (2 ≤ labels.length) && labels.all fun label => !label.isEmpty

/-- Clear a malformed server address and a malformed email. -/
def ServerProfile.validate (parsesUrl : String → Bool) (profile : ServerProfile) : ServerProfile :=
  { profile with
    serverUrl := profile.serverUrl.filter parsesUrl
    email := profile.email.filter fun email => isValidEmail (trim email) }

namespace Settings

/-- Clamp numeric fields into safe ranges and discard malformed optional strings. -/
def validate (parsesUrl : String → Bool) (settings : Settings) : Settings where
  editorSettings := { settings.editorSettings with
    fontSize := settings.editorSettings.fontSize.validate
    tabSize := max TAB_SIZE_MIN (min settings.editorSettings.tabSize TAB_SIZE_MAX) }
  appSettings := { settings.appSettings with
    synchronizationSettings := { settings.appSettings.synchronizationSettings with
      profiles := (settings.appSettings.synchronizationSettings.profiles.take MAX_PROFILES).map
        (ServerProfile.validate parsesUrl) } }
  recentFiles := { settings.recentFiles with
    maxFiles := min settings.recentFiles.maxFiles MAX_RECENT_FILES_MAX }

/-- Every value is one that a load leaves as it is. -/
structure InRange (parsesUrl : String → Bool) (settings : Settings) : Prop where
  fontSize : settings.editorSettings.fontSize.inRange = true
  tabSize : TAB_SIZE_MIN ≤ settings.editorSettings.tabSize ∧
    settings.editorSettings.tabSize ≤ TAB_SIZE_MAX
  maxFiles : settings.recentFiles.maxFiles ≤ MAX_RECENT_FILES_MAX
  profiles : settings.appSettings.synchronizationSettings.profiles.length ≤ MAX_PROFILES
  serverUrl : ∀ profile ∈ settings.appSettings.synchronizationSettings.profiles,
    ∀ url ∈ profile.serverUrl, parsesUrl url = true
  email : ∀ profile ∈ settings.appSettings.synchronizationSettings.profiles,
    ∀ email ∈ profile.email, isValidEmail (trim email) = true

end Settings

example : isValidEmail "first.last@sub.example.co.uk" = true := by decide
example : isValidEmail "user@host@example.com" = false := by decide

namespace FontSize

theorem inRange_validate (size : FontSize) : size.validate.inRange = true := by
  have hbounds : FONT_SIZE_MIN ≤ FONT_SIZE_MAX := by decide
  unfold validate
  split
  · assumption
  · cases size with
    | finite value => simp [clamp, isFinite, inRange, hbounds]
    | infinite negative => cases negative <;> simp [clamp, isFinite, inRange, hbounds]
    | nan => decide

theorem validate_of_inRange {size : FontSize} (h : size.inRange = true) : size.validate = size :=
  if_pos h

theorem isFinite_of_inRange {size : FontSize} (h : size.inRange = true) : size.isFinite = true := by
  cases size with
  | finite value => rfl
  | infinite negative => exact h
  | nan => exact h

end FontSize

theorem ServerProfile.validate_of {parsesUrl : String → Bool} {profile : ServerProfile}
    (hurl : ∀ url ∈ profile.serverUrl, parsesUrl url = true)
    (hemail : ∀ email ∈ profile.email, isValidEmail (trim email) = true) :
    profile.validate parsesUrl = profile := by
  have hkept : ∀ {keeps : String → Bool} {value : Option String},
      (∀ text ∈ value, keeps text = true) → value.filter keeps = value := by
    intro keeps value h
    cases value with
    | none => rfl
    | some text => simp [h text rfl]
  unfold validate
  rw [hkept hurl, hkept hemail]

namespace Settings

variable {parsesUrl : String → Bool} {settings : Settings}

theorem inRange_validate (parsesUrl : String → Bool) (settings : Settings) :
    (settings.validate parsesUrl).InRange parsesUrl where
  fontSize := FontSize.inRange_validate _
  tabSize := by
    simp only [validate]
    have h : TAB_SIZE_MIN ≤ TAB_SIZE_MAX := by decide
    omega
  maxFiles := Nat.min_le_right _ _
  profiles := by simp [validate]
  serverUrl := by
    intro profile hprofile url hurl
    simp only [validate, List.mem_map] at hprofile
    obtain ⟨before, -, rfl⟩ := hprofile
    simp only [ServerProfile.validate, Option.mem_def, Option.filter_eq_some_iff] at hurl
    exact hurl.2
  email := by
    intro profile hprofile email hemail
    simp only [validate, List.mem_map] at hprofile
    obtain ⟨before, -, rfl⟩ := hprofile
    simp only [ServerProfile.validate, Option.mem_def, Option.filter_eq_some_iff] at hemail
    exact hemail.2

/-- Settings whose values are in range are loaded as they are. -/
theorem validate_of_inRange (h : settings.InRange parsesUrl) :
    settings.validate parsesUrl = settings := by
  obtain ⟨editor, app, recent⟩ := settings
  have hfont := FontSize.validate_of_inRange h.fontSize
  have htab : max TAB_SIZE_MIN (min editor.tabSize TAB_SIZE_MAX) = editor.tabSize := by
    have := h.tabSize
    dsimp only at this
    omega
  have hfiles : min recent.maxFiles MAX_RECENT_FILES_MAX = recent.maxFiles :=
    Nat.min_eq_left h.maxFiles
  have hprofiles : (app.synchronizationSettings.profiles.take MAX_PROFILES).map
      (ServerProfile.validate parsesUrl) = app.synchronizationSettings.profiles := by
    rw [List.take_of_length_le h.profiles]
    conv_rhs => rw [← List.map_id app.synchronizationSettings.profiles]
    refine List.map_congr_left fun profile hprofile => ?_
    exact ServerProfile.validate_of (h.serverUrl profile hprofile) (h.email profile hprofile)
  simp only at hfont
  simp only [validate, hfont, htab, hfiles, hprofiles]

theorem validate_eq_self_iff :
    settings.validate parsesUrl = settings ↔ settings.InRange parsesUrl :=
  ⟨fun h => h ▸ inRange_validate parsesUrl settings, validate_of_inRange⟩

@[simp] theorem validate_validate (parsesUrl : String → Bool) (settings : Settings) :
    (settings.validate parsesUrl).validate parsesUrl = settings.validate parsesUrl :=
  validate_of_inRange (inRange_validate parsesUrl settings)

theorem inRange_new (parsesUrl : String → Bool) : Settings.new.InRange parsesUrl where
  fontSize := by decide
  tabSize := by decide
  maxFiles := by decide
  profiles := by decide
  serverUrl := nofun
  email := nofun

end Settings

/-! ## The two files -/

/-- How the settings are written as JSON and read from it. -/
structure SettingsFormat where
  /-- `serde_json::to_string_pretty`. -/
  toStringPretty : Settings → Option String
  /-- `serde_json::from_str`. -/
  fromStr : String → Option Settings
  /-- Whether `url::Url::parse` succeeds. -/
  parsesUrl : String → Bool

/-- The settings file and its backup, each absent or with its bytes. -/
structure SettingsFiles where
  primary : Option (List UInt8)
  backup : Option (List UInt8)
deriving DecidableEq

/-- How far a save gets before it fails or the process stops. -/
structure SaveStop where
  /-- The bytes of the backup copy that are written, when the backup is opened at all. -/
  copied : Option Nat
  /-- The new settings file is renamed over the old one. -/
  replaced : Bool
deriving DecidableEq

namespace Settings

/--
`save_to_path`. The backup is truncated and copied into, and a copy that fails
is only logged; the settings file is renamed into place.
-/
def saveToPath (format : SettingsFormat) (settings : Settings) (files : SettingsFiles)
    (stop : SaveStop) : SettingsFiles :=
  match format.toStringPretty settings with
  | none => files
  | some json =>
      { primary := if stop.replaced then some (asBytes json) else files.primary
        backup := match files.primary, stop.copied with
          | some bytes, some copied => some (bytes.take copied)
          | _, _ => files.backup }

def loadFromPath (format : SettingsFormat) (files : SettingsFiles) : Option Settings :=
  match readToString files.primary with
  | none => none
  | some json =>
      match format.fromStr json with
      | some settings => some (settings.validate format.parsesUrl)
      | none =>
          (readToString files.backup).bind fun bakJson =>
            (format.fromStr bakJson).map (validate format.parsesUrl)

theorem inRange_of_loadFromPath {format : SettingsFormat} {files : SettingsFiles}
    {settings : Settings} (h : loadFromPath format files = some settings) :
    settings.InRange format.parsesUrl := by
  unfold loadFromPath at h
  cases hprimary : readToString files.primary with
  | none => simp [hprimary] at h
  | some json =>
      simp only [hprimary] at h
      cases hparsed : format.fromStr json with
      | some parsed =>
          simp only [hparsed, Option.some.injEq] at h
          exact h ▸ inRange_validate _ _
      | none =>
          simp only [hparsed, Option.bind_eq_some_iff, Option.map_eq_some_iff] at h
          obtain ⟨bakJson, -, recovered, -, rfl⟩ := h
          exact inRange_validate _ _

end Settings

end Fulgur
