import Fulgur.Library.Run
import Fulgur.Settings.Persistence

/-! # Saves that are interrupted

A save may fail or be stopped at any point, also in the middle of the copy of
the settings file over its backup. A settings file that parses is its own good
copy until it is replaced, so nothing is lost. One that does not parse is copied
all the same, over the backup that the settings are recovered from.
-/

namespace Fulgur

open LabelledRun

structure SettingsFormat.Documented (format : SettingsFormat) : Prop where
  roundTrip : ∀ settings json, format.toStringPretty settings = some json →
    settings.editorSettings.fontSize.isFinite = true → format.fromStr json = some settings
  /-- A font size that is not finite is written as `null`, which is no `f32`. -/
  nonFinite : ∀ settings json, format.toStringPretty settings = some json →
    settings.editorSettings.fontSize.isFinite = false → format.fromStr json = none
  empty : format.fromStr "" = none

def SettingsFiles.primaryParses (format : SettingsFormat) (files : SettingsFiles) : Prop :=
  ((readToString files.primary).bind format.fromStr).isSome = true

/--
A save of `settings` that no interruption can turn into a loss: nothing is
written at all, or the settings file parses and so will the new one.
-/
def SettingsFiles.SaveSafe (format : SettingsFormat) (files : SettingsFiles)
    (settings : Settings) : Prop :=
  format.toStringPretty settings = none ∨
    (files.primaryParses format ∧ settings.editorSettings.fontSize.isFinite = true)

instance (format : SettingsFormat) (files : SettingsFiles) :
    Decidable (files.primaryParses format) :=
  inferInstanceAs (Decidable (_ = true))

instance (format : SettingsFormat) (files : SettingsFiles) (settings : Settings) :
    Decidable (files.SaveSafe format settings) :=
  inferInstanceAs (Decidable (_ ∨ _ ∧ _))

def SettingsFiles.interruptedSave (format : SettingsFormat) (files : SettingsFiles)
    (save : Settings × SaveStop) : Option SettingsFiles :=
  some (save.1.saveToPath format files save.2)

section

variable {format : SettingsFormat} {files : SettingsFiles} {settings loaded : Settings}

/-! ## One save -/

theorem saveToPath_of_unserializable (h : format.toStringPretty settings = none) (stop : SaveStop) :
    settings.saveToPath format files stop = files := by
  simp [Settings.saveToPath, h]

/-- A settings file that parses is what is loaded, whatever the backup holds. -/
theorem loadFromPath_of_primary {json : String} {parsed : Settings}
    (hread : readToString files.primary = some json) (hparsed : format.fromStr json = some parsed) :
    Settings.loadFromPath format files = some (parsed.validate format.parsesUrl) := by
  simp [Settings.loadFromPath, hread, hparsed]

theorem loadFromPath_of_backup {json bakJson : String} {recovered : Settings}
    (hread : readToString files.primary = some json) (hjson : format.fromStr json = none)
    (hbackup : readToString files.backup = some bakJson)
    (hrecovered : format.fromStr bakJson = some recovered) :
    Settings.loadFromPath format files = some (recovered.validate format.parsesUrl) := by
  simp [Settings.loadFromPath, hread, hjson, hbackup, hrecovered]

theorem loadFromPath_of_torn {json bakJson : String}
    (hread : readToString files.primary = some json)
    (hbackup : readToString files.backup = some bakJson) (hjson : format.fromStr json = none)
    (hbakJson : format.fromStr bakJson = none) : Settings.loadFromPath format files = none := by
  simp [Settings.loadFromPath, hread, hbackup, hjson, hbakJson]

theorem loadFromPath_replaced (hdoc : format.Documented) {json : String}
    (hjson : format.toStringPretty settings = some json)
    (hfinite : settings.editorSettings.fontSize.isFinite = true) (copied : Option Nat) :
    Settings.loadFromPath format (settings.saveToPath format files ⟨copied, true⟩) =
      some (settings.validate format.parsesUrl) := by
  have hread :
    readToString (settings.saveToPath format files ⟨copied, true⟩).primary = some json := by
    simp [Settings.saveToPath, hjson, readToString]
  exact loadFromPath_of_primary hread (hdoc.roundTrip settings json hjson hfinite)

theorem loadFromPath_not_replaced {json : String} {parsed : Settings}
    (hread : readToString files.primary = some json) (hparsed : format.fromStr json = some parsed)
    (copied : Option Nat) :
    Settings.loadFromPath format (settings.saveToPath format files ⟨copied, false⟩) =
      Settings.loadFromPath format files := by
  have hsame : (settings.saveToPath format files ⟨copied, false⟩).primary = files.primary := by
    unfold Settings.saveToPath
    cases format.toStringPretty settings <;> rfl
  rw [loadFromPath_of_primary hread hparsed]
  exact loadFromPath_of_primary (hsame ▸ hread) hparsed

/-- A safe save, wherever it stops, leaves files that load as before or as the saved settings. -/
theorem loadFromPath_of_saveSafe (hdoc : format.Documented)
    (hload : Settings.loadFromPath format files = some loaded)
    (hsafe : files.SaveSafe format settings) (stop : SaveStop) :
    Settings.loadFromPath format (settings.saveToPath format files stop) = some loaded ∨
      Settings.loadFromPath format (settings.saveToPath format files stop) =
        some (settings.validate format.parsesUrl) := by
  cases hjson : format.toStringPretty settings with
  | none =>
      left
      rw [saveToPath_of_unserializable hjson]
      exact hload
  | some json =>
      obtain ⟨hparses, hfinite⟩ := hsafe.resolve_left (by simp [hjson])
      obtain ⟨parsed, hparsed⟩ := Option.isSome_iff_exists.mp hparses
      obtain ⟨text, hread, hparsed⟩ := Option.bind_eq_some_iff.mp hparsed
      obtain ⟨copied, replaced⟩ := stop
      cases replaced with
      | false => exact .inl ((loadFromPath_not_replaced hread hparsed copied).trans hload)
      | true => exact .inr (loadFromPath_replaced hdoc hjson hfinite copied)

/-- Loaded settings can be saved again: their font size is in range, and so finite. -/
theorem saveSafe_of_loaded {before : SettingsFiles} (hparses : files.primaryParses format)
    (hload : Settings.loadFromPath format before = some settings) :
    files.SaveSafe format settings :=
  .inr ⟨hparses, FontSize.isFinite_of_inRange (Settings.inRange_of_loadFromPath hload).fontSize⟩

theorem exists_readToString_of_load (hload : Settings.loadFromPath format files = some loaded) :
    ∃ bytes text, files.primary = some bytes ∧ fromUtf8 bytes = some text := by
  cases hread : readToString files.primary with
  | none => simp [Settings.loadFromPath, hread] at hload
  | some text =>
      obtain ⟨bytes, hbytes, htext⟩ := Option.bind_eq_some_iff.mp hread
      exact ⟨bytes, text, hbytes, htext⟩

theorem truncated_backup {json : String} {bytes : List UInt8} (replaced : Bool)
    (hjson : format.toStringPretty settings = some json) (hbytes : files.primary = some bytes) :
    settings.saveToPath format files ⟨some 0, replaced⟩ =
      ⟨if replaced then some (asBytes json) else files.primary, some []⟩ := by
  simp [Settings.saveToPath, hjson, hbytes]

@[simp] theorem readToString_empty : readToString (some []) = some "" := readToString_asBytes ""

/-- A save that is not safe loses everything at some stop. -/
theorem exists_stop_of_not_saveSafe (hdoc : format.Documented)
    (hload : Settings.loadFromPath format files = some loaded)
    (hsafe : ¬ files.SaveSafe format settings) :
    ∃ stop, Settings.loadFromPath format (settings.saveToPath format files stop) = none := by
  obtain ⟨bytes, text, hbytes, htext⟩ := exists_readToString_of_load hload
  obtain ⟨json, hjson⟩ := Option.ne_none_iff_exists'.mp fun h => hsafe (.inl h)
  by_cases hparses : files.primaryParses format
  · -- the new settings file will not parse, and the backup is torn
    have hfinite : settings.editorSettings.fontSize.isFinite = false := by
      simpa using fun h => hsafe (.inr ⟨hparses, h⟩)
    refine ⟨⟨some 0, true⟩, ?_⟩
    rw [truncated_backup true hjson hbytes]
    exact loadFromPath_of_torn (readToString_asBytes json) readToString_empty
      (hdoc.nonFinite settings json hjson hfinite) hdoc.empty
  · -- the settings file does not parse, and the backup was the good copy
    have hread : readToString files.primary = some text := by
      simp [readToString, hbytes, htext]
    have hcorrupt : format.fromStr text = none := by
      simpa [SettingsFiles.primaryParses, hread] using hparses
    refine ⟨⟨some 0, false⟩, ?_⟩
    rw [truncated_backup false hjson hbytes]
    exact loadFromPath_of_torn hread readToString_empty hcorrupt hdoc.empty

/-! ## Any number of saves -/

/-- A run of saves always ends, since every save stops somewhere. -/
theorem exists_run_interruptedSave (files : SettingsFiles) (saves : List (Settings × SaveStop)) :
    ∃ after, run (SettingsFiles.interruptedSave format) files saves = some after := by
  induction saves generalizing files with
  | nil => exact ⟨files, rfl⟩
  | cons save saves ih => exact ih (save.1.saveToPath format files save.2)

/--
After safe saves, wherever each stops, a load returns what it did before or one of the
saved settings.
-/
theorem loadFromPath_of_guarded (hdoc : format.Documented) {saves : List (Settings × SaveStop)}
    {after : SettingsFiles} (hload : Settings.loadFromPath format files = some loaded)
    (hguard : Guarded (SettingsFiles.interruptedSave format)
      (fun files save => files.SaveSafe format save.1) files saves)
    (hrun : run (SettingsFiles.interruptedSave format) files saves = some after) :
    Settings.loadFromPath format after = some loaded ∨
      ∃ save ∈ saves, Settings.loadFromPath format after =
        some (save.1.validate format.parsesUrl) := by
  induction saves generalizing files loaded with
  | nil =>
      cases hrun
      exact .inl hload
  | cons save saves ih =>
      obtain ⟨mid, hmid, hrest⟩ := run_cons_eq_some hrun
      cases hmid
      have hguardRest := hguard.2 _ rfl
      rcases loadFromPath_of_saveSafe hdoc hload hguard.1 save.2 with hkept | hsaved
      · obtain hkept | ⟨later, hlater, heq⟩ := ih hkept hguardRest hrest
        · exact .inl hkept
        · exact .inr ⟨later, List.mem_cons_of_mem _ hlater, heq⟩
      · obtain hsaved | ⟨later, hlater, heq⟩ := ih hsaved hguardRest hrest
        · exact .inr ⟨save, List.mem_cons_self, hsaved⟩
        · exact .inr ⟨later, List.mem_cons_of_mem _ hlater, heq⟩

/--
From a settings file that parses, saves of finite settings, or of settings that
cannot be serialized, are all safe.
-/
theorem guarded_of_primaryParses (hdoc : format.Documented) {saves : List (Settings × SaveStop)}
    (hparses : files.primaryParses format)
    (hsaves : ∀ save ∈ saves, format.toStringPretty save.1 = none ∨
      save.1.editorSettings.fontSize.isFinite = true) :
    Guarded (SettingsFiles.interruptedSave format)
      (fun files save => files.SaveSafe format save.1) files saves := by
  refine Guarded.of_invariant (SettingsFiles.primaryParses format) ?_ ?_ hparses
    (Guarded.of_labels hsaves files)
  · intro files save files' hparses hsave hstep
    cases hstep
    cases hjson : format.toStringPretty save.1 with
    | none =>
        rw [saveToPath_of_unserializable hjson]
        exact hparses
    | some json =>
        have hfinite := hsave.resolve_left (by simp [hjson])
        cases hreplaced : save.2.replaced with
        | false =>
            simpa [SettingsFiles.primaryParses, Settings.saveToPath, hjson, hreplaced]
              using hparses
        | true =>
            simp [SettingsFiles.primaryParses, Settings.saveToPath, hjson, hreplaced, readToString,
              hdoc.roundTrip save.1 json hjson hfinite]
  · intro files save hparses hsave
    exact hsave.imp id fun hfinite => ⟨hparses, hfinite⟩

/--
However a save is interrupted, the files load as they did before or as the saved
settings, exactly when the save is safe; so they do after any number of safe
saves. Saved settings come back as they are exactly when they are in range.
-/
theorem interrupted_saves_keep_settings (hdoc : format.Documented) :
    (∀ files settings loaded, Settings.loadFromPath format files = some loaded →
      ((∀ stop, Settings.loadFromPath format (settings.saveToPath format files stop) = some loaded ∨
          Settings.loadFromPath format (settings.saveToPath format files stop) =
            some (settings.validate format.parsesUrl)) ↔
        files.SaveSafe format settings)) ∧
    (∀ files saves loaded after, Settings.loadFromPath format files = some loaded →
      Guarded (SettingsFiles.interruptedSave format)
        (fun files save => files.SaveSafe format save.1) files saves →
      run (SettingsFiles.interruptedSave format) files saves = some after →
      Settings.loadFromPath format after = some loaded ∨
        ∃ save ∈ saves,
          Settings.loadFromPath format after = some (save.1.validate format.parsesUrl)) ∧
    ∀ settings : Settings,
      settings.validate format.parsesUrl = settings ↔ settings.InRange format.parsesUrl := by
  refine ⟨fun files settings loaded hload => ⟨fun hkept => ?_, ?_⟩, ?_, ?_⟩
  · by_contra hsafe
    obtain ⟨stop, hlost⟩ := exists_stop_of_not_saveSafe hdoc hload hsafe
    have hkept := hkept stop
    simp [hlost] at hkept
  · exact fun hsafe stop => loadFromPath_of_saveSafe hdoc hload hsafe stop
  · exact fun files saves loaded after hload hguard hrun =>
      loadFromPath_of_guarded hdoc hload hguard hrun
  · exact fun settings => Settings.validate_eq_self_iff

end

/-! ## Two settings files -/

def sampleSettings (fontSize : ℚ) : Settings :=
  { Settings.new with editorSettings := { EditorSettings.new with fontSize := .finite fontSize } }

def sampleSettingsHead : String :=
  "\x7b" ++ "\n  \"editor_settings\": \x7b\n    \"show_line_numbers\": true,\n" ++
  "    \"show_indent_guides\": true,\n    \"soft_wrap\": false,\n" ++
  "    \"font_family\": \"Monaco\",\n    \"font_size\": "

def sampleSettingsTail : String :=
  ",\n    \"tab_size\": 4,\n    \"markdown_settings\": \x7b\n" ++
  "      \"preview_mode\": \"DedicatedTab\",\n      \"show_markdown_preview\": true,\n" ++
  "      \"show_markdown_toolbar\": false,\n      \"limit_preview_width\": true\n    \x7d,\n" ++
  "    \"show_whitespaces\": false,\n    \"watch_files\": true,\n    \"use_spaces\": true,\n" ++
  "    \"highlight_colors\": true\n  \x7d,\n" ++
  "  \"app_settings\": \x7b\n    \"confirm_exit\": true,\n" ++
  "    \"debug_mode\": false,\n    \"theme\": \"Default Light\",\n" ++
  "    \"synchronization_settings\": \x7b\n      \"is_synchronization_activated\": false,\n" ++
  "      \"profiles\": []\n    \x7d,\n    \"tab_color_style\": \"TextColor\",\n" ++
  "    \"persist_unsaved_buffers\": true\n  \x7d,\n" ++
  "  \"recent_files\": \x7b\n    \"files\": [],\n" ++
  "    \"max_files\": 10\n  \x7d\n\x7d"

def sampleSettingsJson (fontSize : String) : String :=
  sampleSettingsHead ++ fontSize ++ sampleSettingsTail

/-- The JSON of the defaults and of one change of them; nothing else is written or read. -/
def sampleSettingsFormat : SettingsFormat where
  toStringPretty settings :=
    if settings = sampleSettings 14 then some (sampleSettingsJson "14.0")
    else if settings = sampleSettings 18 then some (sampleSettingsJson "18.0")
    else none
  fromStr json :=
    if json = sampleSettingsJson "14.0" then some (sampleSettings 14)
    else if json = sampleSettingsJson "18.0" then some (sampleSettings 18)
    else none
  parsesUrl _ := true

theorem sampleSettingsJson_inj {a b : String} :
    sampleSettingsJson a = sampleSettingsJson b ↔ a = b := by
  simp [sampleSettingsJson]

theorem ne_sampleSettingsJson {text : String} (h : text.toList.head? ≠ some (Char.ofNat 0x7b))
    (fontSize : String) : text ≠ sampleSettingsJson fontSize := by
  rintro rfl
  have hbrace : "\x7b".toList = [Char.ofNat 0x7b] := by decide
  simp only [sampleSettingsJson, sampleSettingsHead, String.toList_append, hbrace,
    List.cons_append, List.head?_cons, not_true_eq_false, ne_eq] at h

/-- On these documents the format is as documented. -/
theorem sampleSettingsFormat_documented : sampleSettingsFormat.Documented where
  roundTrip settings json h _ := by
    simp only [sampleSettingsFormat] at h ⊢
    split at h
    · cases h
      simp_all
    · split at h
      · cases h
        simp_all [sampleSettingsJson_inj]
      · cases h
  nonFinite settings json h hinfinite := by
    simp only [sampleSettingsFormat] at h
    split at h
    · simp_all [sampleSettings, FontSize.isFinite]
    · split at h
      · simp_all [sampleSettings, FontSize.isFinite]
      · cases h
  empty := by
    have hne : ∀ fontSize, "" ≠ sampleSettingsJson fontSize := ne_sampleSettingsJson (by decide)
    simp [sampleSettingsFormat, hne]

theorem sampleSettingsFormat_fromStr :
    sampleSettingsFormat.fromStr (sampleSettingsJson "18.0") = some (sampleSettings 18) := by
  simp [sampleSettingsFormat, sampleSettingsJson_inj]

theorem sampleSettings_validate :
    (sampleSettings 18).validate sampleSettingsFormat.parsesUrl = sampleSettings 18 := by decide

/-- The settings file is damaged, and the settings with font size 18 are in the backup. -/
def sampleCorruptFiles : SettingsFiles :=
  ⟨some (asBytes "not valid json"), some (asBytes (sampleSettingsJson "18.0"))⟩

/--
The damaged settings file is copied over the backup, and the process stops
before the new one is in place: the settings that were loaded are gone.
-/
theorem backup_overwritten_by_damaged_settings :
    sampleSettingsFormat.Documented ∧
      Settings.loadFromPath sampleSettingsFormat sampleCorruptFiles = some (sampleSettings 18) ∧
      Settings.loadFromPath sampleSettingsFormat
        ((sampleSettings 14).saveToPath sampleSettingsFormat sampleCorruptFiles ⟨some 14, false⟩) =
          none := by
  have hne : ∀ fontSize, "not valid json" ≠ sampleSettingsJson fontSize :=
    ne_sampleSettingsJson (by decide)
  have hcorrupt : sampleSettingsFormat.fromStr "not valid json" = none := by
    simp [sampleSettingsFormat, hne]
  refine ⟨sampleSettingsFormat_documented, ?_, ?_⟩
  · rw [loadFromPath_of_backup (readToString_asBytes _) hcorrupt (readToString_asBytes _)
      sampleSettingsFormat_fromStr, sampleSettings_validate]
  · have hcopied : (asBytes "not valid json").take 14 = asBytes "not valid json" := by decide
    have hjson : sampleSettingsFormat.toStringPretty (sampleSettings 14) =
        some (sampleSettingsJson "14.0") := rfl
    have hafter :
      (sampleSettings 14).saveToPath sampleSettingsFormat sampleCorruptFiles ⟨some 14, false⟩ =
        ⟨some (asBytes "not valid json"), some (asBytes "not valid json")⟩ := by
      simp [Settings.saveToPath, hjson, sampleCorruptFiles, hcopied]
    rw [hafter]
    exact loadFromPath_of_torn (readToString_asBytes _) (readToString_asBytes _) hcorrupt hcorrupt

def sampleSettingsFiles : SettingsFiles := ⟨some (asBytes (sampleSettingsJson "18.0")), none⟩

/-- One save is stopped in the backup copy, and one whose backup copy failed goes through. -/
def sampleInterruptedSaves : List (Settings × SaveStop) :=
  [(sampleSettings 14, ⟨some 3, false⟩), (sampleSettings 14, ⟨some 0, true⟩)]

theorem interrupted_saves_keep_settings_sample :
    (∀ stop, Settings.loadFromPath sampleSettingsFormat
          ((sampleSettings 14).saveToPath sampleSettingsFormat sampleSettingsFiles stop) =
            some (sampleSettings 18) ∨
        Settings.loadFromPath sampleSettingsFormat
          ((sampleSettings 14).saveToPath sampleSettingsFormat sampleSettingsFiles stop) =
            some ((sampleSettings 14).validate sampleSettingsFormat.parsesUrl)) ∧
      ∃ after, run (SettingsFiles.interruptedSave sampleSettingsFormat) sampleSettingsFiles
          sampleInterruptedSaves = some after ∧
        (Settings.loadFromPath sampleSettingsFormat after = some (sampleSettings 18) ∨
          ∃ save ∈ sampleInterruptedSaves, Settings.loadFromPath sampleSettingsFormat after =
            some (save.1.validate sampleSettingsFormat.parsesUrl)) := by
  have hread : readToString sampleSettingsFiles.primary = some (sampleSettingsJson "18.0") :=
    readToString_asBytes _
  have hparses : sampleSettingsFiles.primaryParses sampleSettingsFormat := by
    rw [SettingsFiles.primaryParses, hread, Option.bind_some, sampleSettingsFormat_fromStr,
      Option.isSome_some]
  have hload : Settings.loadFromPath sampleSettingsFormat sampleSettingsFiles =
      some (sampleSettings 18) := by
    rw [loadFromPath_of_primary hread sampleSettingsFormat_fromStr, sampleSettings_validate]
  have hfinite : ∀ save ∈ sampleInterruptedSaves,
      sampleSettingsFormat.toStringPretty save.1 = none ∨
        save.1.editorSettings.fontSize.isFinite = true := by
    intro save hsave
    simp only [sampleInterruptedSaves, List.mem_cons, List.not_mem_nil, or_false] at hsave
    rcases hsave with rfl | rfl <;> exact .inr rfl
  have hguard := guarded_of_primaryParses sampleSettingsFormat_documented hparses hfinite
  obtain ⟨after, hrun⟩ := exists_run_interruptedSave sampleSettingsFiles sampleInterruptedSaves
  obtain ⟨hsave, hsaves, -⟩ := interrupted_saves_keep_settings sampleSettingsFormat_documented
  refine ⟨(hsave _ _ _ hload).mpr (.inr ⟨hparses, rfl⟩), after, hrun, ?_⟩
  exact hsaves _ _ _ _ hload hguard hrun

end Fulgur
