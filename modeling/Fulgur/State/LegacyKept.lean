import Fulgur.State.Launches

/-! # The legacy session is kept

As long as nothing stops or fails while an import is owed, the database file is
missing, or about to be imported into, or holds the document. So the first
start-up that gets through returns the document, and one that nothing stops does
get through. Whatever happens, at most one import is committed.
-/

namespace Fulgur

open LabelledRun

/-- The document is what every load of this file returns. -/
def StateFile.Holds (document : WindowsState) (file : StateFile) : Prop :=
  file.version = SCHEMA_VERSION ∧
    ∀ owned, ∃ session, StateDb.load ⟨file.tables, owned⟩ = .ok session ∧ session.Restores document

theorem StateFile.Holds.migrate {document : WindowsState} {file : StateFile}
    (h : file.Holds document) : file.migrate = some file := by
  simp [StateFile.migrate, h.1]

theorem StateFile.migrate_created : StateFile.created.migrate = some ⟨SCHEMA_VERSION, .empty⟩ := rfl

namespace Launches

/-- The file is missing or holds the document. -/
def Settled (document : WindowsState) (s : Launches) : Prop := ∀ file ∈ s.file, file.Holds document

/-- The file holds the document. -/
def Held (document : WindowsState) (s : Launches) : Prop := ∃ file ∈ s.file, file.Holds document

/-- What the file holds at each stage, before a start-up has got through. -/
def Phase (document : WindowsState) (s : Launches) : Prop :=
  match s.stage with
  | .ended => s.Settled document
  | .checked needsLegacyImport => s.Settled document ∧ needsLegacyImport = s.file.isNone
  | .connected needsLegacyImport | .configured needsLegacyImport =>
      if needsLegacyImport then s.file = some .created else s.Held document
  | .opened needsLegacyImport ⟨none, ownedWindows⟩ =>
      ownedWindows = ∅ ∧
        if needsLegacyImport then s.file = some ⟨SCHEMA_VERSION, .empty⟩ else s.Held document
  | .imported clean ⟨none, _⟩ => clean = true ∧ s.Held document
  | .loaded clean ⟨none, _⟩ session => clean = true ∧ s.Held document ∧ session.Restores document
  | .running ⟨none, _⟩ => False
  | .opened _ ⟨some _, _⟩ | .imported _ ⟨some _, _⟩ | .loaded _ ⟨some _, _⟩ _ |
      .running ⟨some _, _⟩ =>
      s.Settled document

variable {source : LegacySource} {document : WindowsState} {s s' : Launches}

theorem Held.settled (h : s.Held document) : s.Settled document := by
  obtain ⟨file, hfile, hholds⟩ := h
  intro other hother
  rw [Option.mem_def] at hfile hother
  rw [hfile, Option.some.injEq] at hother
  exact hother ▸ hholds

theorem Phase.settled (h : s.Phase document) (howes : s.owesImport = false) :
    s.Settled document := by
  unfold Phase at h
  unfold owesImport at howes
  split at h
  · exact h
  · exact h.1
  · simp_all [Held.settled]
  · simp_all [Held.settled]
  · simp_all [Held.settled, LaunchDb.isEphemeral]
  · exact h.2.settled
  · exact h.2.1.settled
  · exact h.elim
  all_goals exact h

theorem Phase.fallback (h : s.Settled document) (needsLegacyImport : Bool) :
    (s.fallback needsLegacyImport).Phase document := h

/-! ## One step -/

theorem Phase.pathExists (h : s.Phase document) (hstep : s.step source .pathExists = some s') :
    s'.Phase document := by
  unfold step at hstep
  cases hstage : s.stage with
  | ended =>
      simp only [hstage, Option.some.injEq] at hstep
      subst hstep
      exact ⟨h.settled (by simp [owesImport, hstage]), rfl⟩
  | _ => simp [hstage] at hstep

theorem Phase.connect {fails : Bool} (h : s.Phase document) (hstep : s.connect fails = some s') :
    s'.Phase document := by
  unfold Launches.connect at hstep
  cases hstage : s.stage with
  | checked needsLegacyImport =>
      simp only [Phase, hstage] at h
      obtain ⟨hsettled, hneeds⟩ := h
      simp only [hstage] at hstep
      cases fails with
      | true =>
          cases hstep
          exact Phase.fallback hsettled needsLegacyImport
      | false =>
          cases hstep
          cases hfile : s.file with
          | none => simp [Phase, hneeds, hfile]
          | some file => simpa [Phase, hneeds, hfile, Held] using hsettled file hfile
  | _ => simp [hstage] at hstep

theorem Phase.applyPragmas {fails : Bool} (h : s.Phase document)
    (hguard : fails = true → s.owesImport = false) (hstep : s.applyPragmas fails = some s') :
    s'.Phase document := by
  unfold Launches.applyPragmas at hstep
  cases hstage : s.stage with
  | connected needsLegacyImport =>
      simp only [hstage] at hstep
      cases fails with
      | true =>
          cases hstep
          exact Phase.fallback (h.settled (hguard rfl)) needsLegacyImport
      | false =>
          cases hstep
          simp only [Phase, hstage] at h
          exact h
  | _ => simp [hstage] at hstep

theorem Phase.migrate {fails : Bool} (h : s.Phase document)
    (hguard : fails = true → s.owesImport = false) (hstep : s.migrate fails = some s') :
    s'.Phase document := by
  unfold Launches.migrate at hstep
  cases hstage : s.stage with
  | configured needsLegacyImport =>
      simp only [hstage] at hstep
      cases fails with
      | true =>
          have hsettled := h.settled (hguard rfl)
          split at hstep
          · contradiction
          · cases hstep
            exact Phase.fallback hsettled needsLegacyImport
      | false =>
          simp only [Phase, hstage] at h
          cases needsLegacyImport with
          | true =>
              simp only [if_true] at h
              simp only [h, Option.bind_some, StateFile.migrate_created, Option.some.injEq] at hstep
              subst hstep
              simp [Phase]
          | false =>
              obtain ⟨file, hfile, hholds⟩ := h
              rw [Option.mem_def] at hfile
              simp only [hfile, Option.bind_some, hholds.migrate, Option.some.injEq] at hstep
              subst hstep
              simpa [Phase, Held] using hholds
  | _ => simp [hstage] at hstep

/-- The import that is owed goes through, unless something stops it. -/
theorem importLegacy_owed (hread : readLegacyJson source.fromStr source.files = some document)
    (hparsed : document.Parsed) {clock : List Int}
    (hclock : ClockFits document.windows.length clock)
    (hstage : s.stage = .opened true ⟨none, ∅⟩)
    (hfile : s.file = some ⟨SCHEMA_VERSION, .empty⟩) :
    ∃ tables ownedWindows,
      s.importLegacy source clock false = some { s with
        file := some ⟨SCHEMA_VERSION, tables⟩
        stage := .imported true ⟨none, ownedWindows⟩
        imports := s.imports + 1 } ∧
      StateFile.Holds document ⟨SCHEMA_VERSION, tables⟩ := by
  have hprimary : source.files.primary.isSome = true := by
    cases hprimary : source.files.primary with
    | none => simp [readLegacyJson, readToString, hprimary] at hread
    | some bytes => rfl
  obtain ⟨db, himport, hload⟩ := importLegacyJson_spec hread hparsed hclock
  refine ⟨db.tables, db.ownedWindows, ?_, rfl, hload⟩
  have hhandle : s.handle ⟨none, ∅⟩ = ⟨.empty, ∅⟩ := by simp [handle, hfile]
  simp [Launches.importLegacy, hstage, LaunchDb.isEphemeral, hprimary, hhandle, himport, commit,
    hfile]

theorem Phase.importLegacy (hread : readLegacyJson source.fromStr source.files = some document)
    (hparsed : document.Parsed) {clock : List Int} {fails : Bool} (h : s.Phase document)
    (hguard : (fails = true → s.owesImport = false) ∧ ClockFits document.windows.length clock)
    (hstep : s.importLegacy source clock fails = some s') : s'.Phase document := by
  cases hstage : s.stage with
  | opened needsLegacyImport db =>
      obtain ⟨memory, ownedWindows⟩ := db
      simp only [Phase, hstage] at h
      cases memory with
      | some tables =>
          simp only [Launches.importLegacy, hstage, LaunchDb.isEphemeral, Option.isSome_some,
            Bool.not_true, Bool.and_false, Bool.false_and, Bool.false_eq_true, if_false] at hstep
          cases hstep
          exact h
      | none =>
          obtain ⟨rfl, h⟩ := h
          cases needsLegacyImport with
          | false =>
              simp only [Launches.importLegacy, hstage, Bool.false_and, Bool.false_eq_true,
                if_false] at hstep
              cases hstep
              exact ⟨rfl, h⟩
          | true =>
              cases fails with
              | true => simp [owesImport, hstage, LaunchDb.isEphemeral] at hguard
              | false =>
                  obtain ⟨tables, owned, hdone, hholds⟩ :=
                    importLegacy_owed hread hparsed hguard.2 hstage h
                  rw [hdone] at hstep
                  cases hstep
                  exact ⟨rfl, _, rfl, hholds⟩
  | _ => simp [Launches.importLegacy, hstage] at hstep

theorem Held.load (h : s.Held document) (ownedWindows : Std.ExtTreeSet Int) :
    ∃ session, (s.handle ⟨none, ownedWindows⟩).load = .ok session ∧ session.Restores document := by
  obtain ⟨file, hfile, hholds⟩ := h
  rw [Option.mem_def] at hfile
  have hhandle : s.handle ⟨none, ownedWindows⟩ = ⟨file.tables, ownedWindows⟩ := by
    simp [handle, hfile]
  exact hhandle ▸ hholds.2 ownedWindows

theorem Phase.load (h : s.Phase document) (hstep : s.load = some s') : s'.Phase document := by
  cases hstage : s.stage with
  | imported clean db =>
      obtain ⟨memory, ownedWindows⟩ := db
      simp only [Phase, hstage] at h
      simp only [Launches.load, hstage] at hstep
      cases memory with
      | some tables =>
          have hsettled : s.Settled document := h
          split at hstep <;>
            · cases hstep
              exact hsettled
      | none =>
          obtain ⟨hclean, hheld⟩ := h
          obtain ⟨session, hload, hrestores⟩ := hheld.load ownedWindows
          rw [hload] at hstep
          cases hstep
          exact ⟨hclean, hheld, hrestores⟩
  | _ => simp [Launches.load, hstage] at hstep

/-- What the first start-up that gets through returns is the document. -/
theorem Phase.restored_claim (h : s.Phase document) (hfirst : s.firstSession = none)
    (hstep : s.claimPersistedWindows = some s') :
    ∀ session ∈ s'.firstSession, session.Restores document := by
  cases hstage : s.stage with
  | loaded clean db session =>
      obtain ⟨memory, ownedWindows⟩ := db
      simp only [Phase, hstage] at h
      simp only [Launches.claimPersistedWindows, hstage] at hstep
      cases hstep
      cases memory with
      | some tables => simp [hfirst, LaunchDb.isEphemeral]
      | none =>
          obtain ⟨rfl, -, hrestores⟩ := h
          simpa [hfirst, LaunchDb.isEphemeral] using hrestores
  | _ => simp [Launches.claimPersistedWindows, hstage] at hstep

/-- One that runs in memory gets through without a session from the file. -/
theorem Phase.claimPersistedWindows (h : s.Phase document)
    (hstep : s.claimPersistedWindows = some s') (hfirst : s'.firstSession = none) :
    s'.Phase document := by
  cases hstage : s.stage with
  | loaded clean db session =>
      obtain ⟨memory, ownedWindows⟩ := db
      simp only [Phase, hstage] at h
      simp only [Launches.claimPersistedWindows, hstage] at hstep
      cases hstep
      cases memory with
      | some tables => exact h
      | none =>
          obtain ⟨rfl, -, -⟩ := h
          simp [LaunchDb.isEphemeral] at hfirst
  | _ => simp [Launches.claimPersistedWindows, hstage] at hstep

/-- Until a start-up has got through, nothing is saved but in memory. -/
theorem Phase.save {snapshot : WindowsState} (h : s.Phase document)
    (hstep : s.save snapshot = some s') : s'.Phase document := by
  cases hstage : s.stage with
  | running db =>
      obtain ⟨memory, ownedWindows⟩ := db
      have hrunning := h
      simp only [Phase, hstage] at hrunning
      cases memory with
      | none => exact hrunning.elim
      | some tables =>
          simp only [Launches.save, hstage] at hstep
          split at hstep
          · cases hstep
            exact hrunning
          · cases hstep
            exact h
  | _ => simp [Launches.save, hstage] at hstep

/-! ## Runs -/

/-- What was returned first is the document, and until then the file is as its stage says. -/
structure LegacyKept (document : WindowsState) (s : Launches) : Prop where
  restored : ∀ session ∈ s.firstSession, session.Restores document
  phase : s.firstSession = none → s.Phase document

theorem legacyKept_upgraded (document : WindowsState) : upgraded.LegacyKept document where
  restored := nofun
  phase _ := nofun

theorem commit_frame (s : Launches) (db : LaunchDb) (next : StateDb) :
    (s.commit db next).1.firstSession = s.firstSession ∧ (s.commit db next).1.imports = s.imports ∧
      (s.commit db next).1.file.isSome = s.file.isSome := by
  unfold commit
  cases db.memory <;> simp

/-- Only a start-up that gets through sets the first session, and only once. -/
theorem firstSession_step {action : LaunchAction} (hstep : s.step source action = some s') :
    s'.firstSession = s.firstSession ∨
      (s.firstSession = none ∧ s.claimPersistedWindows = some s') := by
  cases action with
  | claimPersistedWindows =>
      cases hfirst : s.firstSession with
      | none => exact .inr ⟨rfl, hstep⟩
      | some session =>
          left
          simp only [step, Launches.claimPersistedWindows] at hstep
          split at hstep
          · cases hstep
            simp [hfirst]
          · cases hstep
  | pathExists | connect | applyPragmas | migrate | load | stop =>
      left
      simp only [step, Launches.connect, Launches.applyPragmas, Launches.migrate, Launches.load]
        at hstep
      repeat' split at hstep
      all_goals cases hstep <;> rfl
  | importLegacy clock fails =>
      left
      simp only [step, Launches.importLegacy] at hstep
      repeat' split at hstep
      all_goals cases hstep
      all_goals simp [(commit_frame _ _ _).1]
  | save snapshot =>
      left
      simp only [step, Launches.save] at hstep
      repeat' split at hstep
      all_goals cases hstep
      all_goals simp [(commit_frame _ _ _).1]

/-- Before a start-up has got through, a step keeps the phase or lets it through. -/
theorem phase_step (hread : readLegacyJson source.fromStr source.files = some document)
    (hparsed : document.Parsed) {action : LaunchAction} (hphase : s.Phase document)
    (hguard : s.Uninterrupted document.windows.length action)
    (hstep : s.step source action = some s') (hfirst : s'.firstSession = none) :
    s'.Phase document := by
  cases action with
  | pathExists => exact hphase.pathExists hstep
  | connect fails => exact hphase.connect hstep
  | applyPragmas fails => exact hphase.applyPragmas hguard hstep
  | migrate fails => exact hphase.migrate hguard hstep
  | importLegacy clock fails => exact hphase.importLegacy hread hparsed hguard hstep
  | load => exact hphase.load hstep
  | claimPersistedWindows => exact hphase.claimPersistedWindows hstep hfirst
  | save snapshot => exact hphase.save hstep
  | stop =>
      cases hstep
      exact hphase.settled hguard

theorem legacyKept_step (hread : readLegacyJson source.fromStr source.files = some document)
    (hparsed : document.Parsed) {action : LaunchAction} (hkept : s.LegacyKept document)
    (hguard : s.Uninterrupted document.windows.length action)
    (hstep : s.step source action = some s') : s'.LegacyKept document := by
  rcases firstSession_step hstep with hsame | ⟨hnone, hclaim⟩
  · refine ⟨hsame ▸ hkept.restored, fun hfirst => ?_⟩
    exact phase_step hread hparsed (hkept.phase (hsame ▸ hfirst)) hguard hstep hfirst
  · have hphase := hkept.phase hnone
    refine ⟨hphase.restored_claim hnone hclaim, fun hfirst => ?_⟩
    exact phase_step hread hparsed hphase hguard hstep hfirst

/-! ## At most one import -/

/-- The start-up that is running found no file, and has not come to its import. -/
def willImport (s : Launches) : Bool :=
  match s.stage with
  | .checked needsLegacyImport => needsLegacyImport
  | _ => s.owesImport

/-- The start-up that is running has opened the file, and has not come past its import. -/
def usesFile (s : Launches) : Bool :=
  match s.stage with
  | .connected _ | .configured _ => true
  | .opened _ db => !db.isEphemeral
  | _ => false

/-- Once an import is committed the file is there, and no start-up will import again. -/
structure ImportedOnce (s : Launches) : Prop where
  imports : s.imports ≤ 1
  file : s.usesFile = true → s.file.isSome = true
  done : s.imports = 1 → s.file.isSome = true ∧ s.willImport = false

theorem file_step {action : LaunchAction} (hstep : s.step source action = some s') :
    (s.file.isSome = true → s'.file.isSome = true) ∧
      (s'.usesFile = true → s.usesFile = true ∨ s'.file.isSome = true) := by
  cases action with
  | pathExists | connect | applyPragmas | migrate | load | stop | claimPersistedWindows =>
      simp only [step, Launches.connect, Launches.applyPragmas, Launches.migrate, Launches.load,
        Launches.claimPersistedWindows] at hstep
      repeat' split at hstep
      all_goals cases hstep
      all_goals simp_all [usesFile, fallback, LaunchDb.isEphemeral]
  | importLegacy | save =>
      simp only [step, Launches.importLegacy, Launches.save] at hstep
      repeat' split at hstep
      all_goals cases hstep
      all_goals simp_all [usesFile, commit_frame]

/-- An import is committed only by a start-up that found no file. -/
theorem imports_step {action : LaunchAction} (hstep : s.step source action = some s') :
    (s'.imports = s.imports ∧
        (s.file.isSome = true → s.willImport = false → s'.willImport = false)) ∨
      (s'.imports = s.imports + 1 ∧ s.willImport = true ∧ s.usesFile = true ∧
        s'.willImport = false) := by
  cases action with
  | pathExists | connect | applyPragmas | migrate | load | stop | claimPersistedWindows =>
      left
      simp only [step, Launches.connect, Launches.applyPragmas, Launches.migrate, Launches.load,
        Launches.claimPersistedWindows] at hstep
      repeat' split at hstep
      all_goals cases hstep
      all_goals simp_all [willImport, owesImport, fallback, LaunchDb.isEphemeral,
        Option.isSome_iff_ne_none]
  | importLegacy clock fails =>
      simp only [step, Launches.importLegacy] at hstep
      repeat' split at hstep
      all_goals cases hstep
      all_goals simp_all [willImport, owesImport, usesFile, commit_frame]
  | save snapshot =>
      left
      simp only [step, Launches.save] at hstep
      repeat' split at hstep
      all_goals cases hstep
      all_goals simp_all [willImport, owesImport, commit_frame]

theorem importedOnce_step {action : LaunchAction} (h : s.ImportedOnce)
    (hstep : s.step source action = some s') : s'.ImportedOnce := by
  obtain ⟨hkept, huses⟩ := file_step hstep
  have hfile : s'.usesFile = true → s'.file.isSome = true := fun h' =>
    (huses h').elim (fun hs => hkept (h.file hs)) id
  rcases imports_step hstep with ⟨himports, hwill⟩ | ⟨himports, hwill, hopen, hover⟩
  · refine ⟨himports ▸ h.imports, hfile, fun hone => ?_⟩
    obtain ⟨hsome, hnever⟩ := h.done (himports ▸ hone)
    exact ⟨hkept hsome, hwill hsome hnever⟩
  · have hnone : s.imports ≠ 1 := fun hone => by simp [(h.done hone).2] at hwill
    have hbound := h.imports
    exact ⟨by omega, hfile, fun _ => ⟨hkept (h.file hopen), hover⟩⟩

/-! ## A start-up that nothing stops -/

/-- The steps of `load_with_db`, none of which fails. -/
def completeLaunch (clock : List Int) : List LaunchAction :=
  [.pathExists, .connect false, .applyPragmas false, .migrate false] ++
    [.importLegacy clock false, .load, .claimPersistedWindows]

variable (source) in
theorem run_open (hsettled : s.Settled document) (hended : s.stage = .ended) :
    ∃ file needsLegacyImport, run (step source) s
        [.pathExists, .connect false, .applyPragmas false, .migrate false] =
          some { s with file := some file, stage := .opened needsLegacyImport ⟨none, ∅⟩ } ∧
      if needsLegacyImport then file = ⟨SCHEMA_VERSION, .empty⟩ else file.Holds document := by
  cases hfile : s.file with
  | none =>
      refine ⟨⟨SCHEMA_VERSION, .empty⟩, true, ?_, by simp⟩
      simp [run_cons, step, hended, hfile, Launches.connect, Launches.applyPragmas,
        Launches.migrate, StateFile.migrate_created]
  | some file =>
      have hholds := hsettled file hfile
      refine ⟨file, false, ?_, by simpa using hholds⟩
      simp [run_cons, step, hended, hfile, Launches.connect, Launches.applyPragmas,
        Launches.migrate, hholds.migrate]

/-- With the file open, the document is imported where it has to be. -/
theorem exists_importLegacy (hread : readLegacyJson source.fromStr source.files = some document)
    (hparsed : document.Parsed) {clock : List Int}
    (hclock : ClockFits document.windows.length clock) {file : StateFile} {needsLegacyImport : Bool}
    (hstage : s.stage = .opened needsLegacyImport ⟨none, ∅⟩) (hfile : s.file = some file)
    (hholds : if needsLegacyImport then file = ⟨SCHEMA_VERSION, .empty⟩ else file.Holds document) :
    ∃ s' ownedWindows, s.importLegacy source clock false = some s' ∧
      s'.firstSession = s.firstSession ∧ s'.stage = .imported true ⟨none, ownedWindows⟩ ∧
      s'.Held document := by
  cases needsLegacyImport with
  | true =>
      have hfresh : s.file = some ⟨SCHEMA_VERSION, .empty⟩ := hfile.trans (congrArg some hholds)
      obtain ⟨tables, ownedWindows, hdone, hholds⟩ :=
        importLegacy_owed hread hparsed hclock hstage hfresh
      exact ⟨_, ownedWindows, hdone, rfl, rfl, _, rfl, hholds⟩
  | false =>
      refine ⟨{ s with stage := .imported true ⟨none, ∅⟩ }, ∅, ?_, rfl, rfl, file, hfile, hholds⟩
      simp [Launches.importLegacy, hstage]

theorem run_load (hfirst : s.firstSession = none) {ownedWindows : Std.ExtTreeSet Int}
    (hstage : s.stage = .imported true ⟨none, ownedWindows⟩) (hheld : s.Held document) :
    ∃ s' session, run (step source) s [.load, .claimPersistedWindows] = some s' ∧
      s'.firstSession = some session ∧ session.Restores document := by
  obtain ⟨session, hload, hrestores⟩ := hheld.load ownedWindows
  have hloads : s.step source .load =
      some { s with stage := .loaded true ⟨none, ownedWindows⟩ session } := by
    simp [step, Launches.load, hstage, hload]
  rw [run_cons, hloads, Option.bind_some]
  exact ⟨_, session, rfl, by simp [hfirst, LaunchDb.isEphemeral], hrestores⟩

/-- A start-up that nothing stops gets through, and the first one returns the document. -/
theorem run_completeLaunch (hread : readLegacyJson source.fromStr source.files = some document)
    (hparsed : document.Parsed) {clock : List Int}
    (hclock : ClockFits document.windows.length clock) (hsettled : s.Settled document)
    (hended : s.stage = .ended) (hfirst : s.firstSession = none) :
    ∃ s' session, run (step source) s (completeLaunch clock) = some s' ∧
      s'.firstSession = some session ∧ session.Restores document := by
  obtain ⟨file, needs, hopen, hholds⟩ := run_open source hsettled hended
  obtain ⟨s₁, ownedWindows, himport, hkeeps, hstage, hheld⟩ :=
    exists_importLegacy (s := { s with file := some file, stage := .opened needs ⟨none, ∅⟩ })
      hread hparsed hclock rfl rfl hholds
  rw [completeLaunch, run_append, hopen, Option.bind_some, run_cons]
  simp only [step, himport, Option.bind_some]
  exact run_load (hkeeps.trans hfirst) hstage hheld

/--
From a missing database file on, at most one import is ever committed. When the
legacy document is a text, in runs in which nothing stops or fails while an import
is owed, the first session that a start-up returns from the file is the document,
and until one has returned, a start-up that nothing stops does.
-/
theorem first_launch_restores_legacy
    (hparses : ∀ json state, source.fromStr json = some state → state.Parsed)
    (hdocument : source.files.document source.fromStr = some document)
    (actions : List LaunchAction) {s : Launches}
    (hrun : run (step source) upgraded actions = some s) :
    s.imports ≤ 1 ∧
      ((readToString source.files.primary).isSome = true →
        Guarded (step source) (Uninterrupted document.windows.length) upgraded actions →
          (∀ session ∈ s.firstSession, session.Restores document) ∧
            (s.stage = .ended → s.firstSession = none → ∀ clock,
              ClockFits document.windows.length clock →
                ∃ s' session, run (step source) s (completeLaunch clock) = some s' ∧
                  s'.firstSession = some session ∧ session.Restores document)) := by
  constructor
  · have hupgraded : upgraded.ImportedOnce := ⟨by decide, nofun, nofun⟩
    exact (invariant_of_run ImportedOnce (fun _ _ _ h hstep => importedOnce_step h hstep)
      hupgraded hrun).imports
  · intro htext hguard
    have hread := (readLegacyJson_of_text htext).trans hdocument
    obtain ⟨json, hjson⟩ := exists_fromStr_of_document hdocument
    have hparsed := hparses json document hjson
    have hkept := invariant_of_guarded (LegacyKept document)
      (fun _ _ _ h hguard hstep => legacyKept_step hread hparsed h hguard hstep)
      (legacyKept_upgraded document) hguard hrun
    refine ⟨hkept.restored, fun hended hfirst clock hclock => ?_⟩
    have hsettled : s.Settled document := by
      simpa [Phase, hended] using hkept.phase hfirst
    exact run_completeLaunch hread hparsed hclock hsettled hended hfirst

/-! ## One legacy window -/

def sampleLegacyJson : String :=
  "\x7b\"windows\": [\x7b\"tabs\": [\x7b\"title\": \"recovered.txt\", \"file_path\": null, " ++
  "\"content\": null, \"last_saved\": null\x7d], \"active_tab_index\": 0\x7d]\x7d"

def sampleLegacy : WindowsState where
  windows := [
    { windowId := 0
      tabs := [
        { tabId := 0, title := "recovered.txt", filePath := none, content := none,
          lastSaved := none, remote := none, logView := false, colorTag := none }]
      activeTabIndex := some 0
      windowBounds := .default }]

/-- No other document is ever parsed. -/
def sampleLegacySource : LegacySource where
  fromStr json := if json = sampleLegacyJson then some sampleLegacy else none
  files := ⟨some (asBytes sampleLegacyJson), none⟩

theorem document_sampleLegacySource :
    sampleLegacySource.files.document sampleLegacySource.fromStr = some sampleLegacy := by
  simp [LegacyFiles.document, sampleLegacySource]

theorem parsed_sampleLegacySource (json : String) (state : WindowsState)
    (h : sampleLegacySource.fromStr json = some state) : state.Parsed := by
  simp only [sampleLegacySource] at h
  split at h
  · cases h
    refine ⟨by decide, by decide, by decide, ?_⟩
    simp [sampleLegacy]
  · cases h

/-- A start-up that could not open the file, followed by its end. -/
def sampleLaunches : List LaunchAction :=
  [.pathExists, .connect true, .importLegacy [] false, .load, .claimPersistedWindows, .stop]

theorem first_launch_restores_legacy_sample :
    ∃ s, run (step sampleLegacySource) upgraded sampleLaunches = some s ∧ s.imports ≤ 1 ∧
      ∃ s' session, run (step sampleLegacySource) s (completeLaunch [5]) = some s' ∧
        s'.firstSession = some session ∧ session.Restores sampleLegacy := by
  have hrun : run (step sampleLegacySource) upgraded sampleLaunches = some upgraded := rfl
  have hguard : Guarded (step sampleLegacySource) (Uninterrupted sampleLegacy.windows.length)
      upgraded sampleLaunches := Guarded.of_guardedRun (by decide)
  have htext : (readToString sampleLegacySource.files.primary).isSome = true := by
    simp [sampleLegacySource]
  obtain ⟨honce, hkept⟩ := first_launch_restores_legacy parsed_sampleLegacySource
    document_sampleLegacySource sampleLaunches hrun
  exact ⟨upgraded, hrun, honce, (hkept htext hguard).2 rfl rfl [5] (by decide)⟩

/--
A start-up stops right after it created the database file. The next one finds the
file, imports nothing, and returns a session without windows.
-/
theorem stopped_launch_loses_legacy :
    sampleLegacySource.files.document sampleLegacySource.fromStr = some sampleLegacy ∧
      ∃ s, run (step sampleLegacySource) upgraded
          ([.pathExists, .connect false, .stop] ++ completeLaunch [5]) = some s ∧
        ∃ session ∈ s.firstSession, ¬session.Restores sampleLegacy := by
  have hempty : (run (step sampleLegacySource) upgraded
      ([.pathExists, .connect false, .stop] ++ completeLaunch [5])).any
        (fun s => decide (s.firstSession = some ⟨[]⟩)) = true := by decide
  obtain ⟨s, hrun, hs⟩ := exists_of_any hempty
  refine ⟨document_sampleLegacySource, s, hrun, ⟨[]⟩, hs, fun hrestores => ?_⟩
  have hwindows := hrestores.windows
  simp [sampleLegacy] at hwindows

end Launches

end Fulgur
