import Fulgur.Library.Run
import Mathlib.Data.List.Infix

/-! # Migrating the database file

Processes of several builds may open one file. Each brings it up to its own schema
version, in one transaction that runs the pending migrations; only one process is in a
transaction at a time. A process may stop and each call may fail at any moment, which
leaves the file as it was before the transaction.
-/

namespace Fulgur

open LabelledRun

/-- The database file, or what a transaction has made of it. -/
structure SchemaFile (Contents : Type) where
  version : Int
  contents : Contents
  /-- The migrations that were executed on it, in their order. -/
  applied : List String

/-- How far a process is with opening the file. -/
inductive MigrationStage where
  | closed
  | checked (existed : Bool)
  | connected (existed : Bool)
  | configured (existed : Bool)
  | removingBackup
  | copying
  | ready
  | locked
  | executing (offset : Nat)
  | recording (offset : Nat)
  | committing
  | opened (migrated : Bool)
deriving DecidableEq

structure Migrating (Contents : Type) where
  file : Option (SchemaFile Contents)
  /-- The file beside it, and what is in it if it is whole. -/
  backup : Option (Option (SchemaFile Contents))
  /-- The process that holds the write lock, and the file as it sees it. -/
  transaction : Option (Nat × SchemaFile Contents)
  stage : Nat → MigrationStage

inductive MigrationCall (Contents : Type) where
  | pathExists
  | connect (fails : Bool)
  | applyPragmas (fails : Bool)
  /-- `existed && schema_version(..)? < SCHEMA_VERSION`. -/
  | inspect (fails : Bool)
  | removeBackup (fails : Bool)
  /-- `VACUUM INTO`; where it fails it may leave a file that is not whole. -/
  | vacuum (fails leaves : Bool)
  | begin_ (locked : Bool)
  | schemaVersion (fails : Bool)
  | executeBatch (fails : Bool)
  | setVersion (fails : Bool)
  | commit (fails : Bool)
  /-- An open handle changes the rows. -/
  | write (contents : Contents)
  | stop

/-- The migrations of the builds, and what SQLite does. -/
structure MigrationSetup (Contents : Type) where
  /-- `MIGRATIONS` of the build that a process runs. -/
  migrations : (process : Nat) → List String
  empty : Contents
  executeBatch : String → Contents → Option Contents

namespace MigrationSetup

variable {Contents : Type} (setup : MigrationSetup Contents)

def schemaVersion (p : Nat) : Int := (setup.migrations p).length

def created : SchemaFile Contents := ⟨0, setup.empty, []⟩

end MigrationSetup

namespace Migrating

variable {Contents : Type} (setup : MigrationSetup Contents) (s : Migrating Contents) (p : Nat)

def start (file : Option (SchemaFile Contents)) : Migrating Contents :=
  ⟨file, none, none, fun _ => .closed⟩

def enter (stage : MigrationStage) : Migrating Contents :=
  { s with stage := Function.update s.stage p stage }

def work : Option (SchemaFile Contents) :=
  s.transaction.bind fun (holder, file) => if holder = p then some file else none

/-- A process leaves its transaction, which is rolled back. -/
def rollback (stage : MigrationStage) : Migrating Contents :=
  { s.enter p stage with transaction := s.transaction.filter fun (holder, _) => holder ≠ p }

def step (s : Migrating Contents) (labelled : Nat × MigrationCall Contents) :
    Option (Migrating Contents) :=
  let p := labelled.1
  match s.stage p, labelled.2 with
  | .closed, .pathExists => some (s.enter p (.checked s.file.isSome))
  | .checked existed, .connect fails =>
      if fails then some (s.rollback p .closed)
      else some { s.enter p (.connected existed) with file := some (s.file.getD setup.created) }
  | .connected existed, .applyPragmas fails =>
      some (if fails then s.rollback p .closed else s.enter p (.configured existed))
  | .configured false, .inspect _ => some (s.enter p .ready)
  | .configured true, .inspect fails =>
      if fails then some (s.rollback p .closed)
      else s.file.map fun file =>
        s.enter p (if file.version < setup.schemaVersion p then .removingBackup else .ready)
  | .removingBackup, .removeBackup fails =>
      some (if s.backup.isSome && fails then s.enter p .ready
        else { s.enter p .copying with backup := none })
  | .copying, .vacuum fails leaves =>
      some (if s.backup.isSome then s.enter p .ready
        else { s.enter p .ready with
          backup := if fails then (if leaves then some none else none) else some s.file })
  | .ready, .begin_ locked =>
      if !locked then some (s.rollback p .closed)
      else if s.transaction.isSome then none
      else s.file.map fun file => { s.enter p .locked with transaction := some (p, file) }
  | .locked, .schemaVersion fails =>
      (s.work p).map fun file =>
        if fails ∨ setup.schemaVersion p < file.version then s.rollback p .closed
        else if file.version = setup.schemaVersion p then s.rollback p (.opened false)
        else if file.version < 0 then s.rollback p .closed
        else s.enter p (.executing file.version.toNat)
  | .executing offset, .executeBatch fails =>
      (s.work p).bind fun file => (setup.migrations p)[offset]?.map fun migration =>
        match if fails then none else setup.executeBatch migration file.contents with
        | none => s.rollback p .closed
        | some contents => { s.enter p (.recording offset) with
            transaction := some (p, ⟨file.version, contents, file.applied ++ [migration]⟩) }
  | .recording offset, .setVersion fails =>
      (s.work p).map fun file =>
        if fails then s.rollback p .closed
        else { s.enter p (if offset + 1 < (setup.migrations p).length then .executing (offset + 1)
            else .committing) with
          transaction := some (p, { file with version := (offset + 1 : Nat) }) }
  | .committing, .commit fails =>
      (s.work p).map fun file =>
        if fails then s.rollback p .closed
        else { s.rollback p (.opened true) with file := some file }
  | .opened _, .write contents =>
      if s.transaction.isSome then none
      else some { s with file := s.file.map fun file => { file with contents := contents } }
  | _, .stop => some (s.rollback p .closed)
  | _, _ => none

/-! ## Files that are migrated in order -/

/-- As many migrations were executed as the version says, one after the other. -/
def InOrder (history : List String) (file : SchemaFile Contents) : Prop :=
  ∃ n ≤ history.length, file.version = n ∧ file.applied = history.take n

/-- The file is older than the build of a process. -/
def Behind : Prop := ∃ file ∈ s.file, file.version < setup.schemaVersion p

/-- What a process has made of the file in its transaction. -/
def Working (file : SchemaFile Contents) : Prop :=
  match s.stage p with
  | .locked => s.file = some file
  | .executing offset => s.Behind setup p ∧ offset < (setup.migrations p).length ∧
      file.version = offset ∧ file.applied = (setup.migrations p).take offset
  | .recording offset => s.Behind setup p ∧ offset < (setup.migrations p).length ∧
      file.applied = (setup.migrations p).take (offset + 1)
  | .committing => s.Behind setup p ∧ file.version = setup.schemaVersion p ∧
      file.applied = setup.migrations p
  | _ => False

structure Ordered (history : List String) (least : Option Int) (s : Migrating Contents) : Prop where
  file : ∀ file ∈ s.file, InOrder history file
  backup : ∀ file, s.backup = some (some file) → InOrder history file
  working : ∀ p file, s.transaction = some (p, file) → s.Working setup p file
  opened : ∀ p migrated, s.stage p = .opened migrated →
    ∃ file ∈ s.file, setup.schemaVersion p ≤ file.version
  least : ∀ version ∈ least, ∃ file ∈ s.file, version ≤ file.version

variable {setup s p} {s' : Migrating Contents} {history : List String} {least : Option Int}

theorem stage_enter (stage : MigrationStage) : (s.enter p stage).stage p = stage := by
  simp [enter]

theorem stage_enter_of_ne {q : Nat} (hne : q ≠ p) (stage : MigrationStage) :
    (s.enter p stage).stage q = s.stage q := by
  simp [enter, hne]

theorem work_eq_some {file : SchemaFile Contents} :
    s.work p = some file ↔ s.transaction = some (p, file) := by
  unfold work
  cases htransaction : s.transaction with
  | none => simp
  | some held => simp [Prod.ext_iff]

theorem Ordered.exists_file (h : Ordered setup history least s) {file : SchemaFile Contents}
    (htransaction : s.transaction = some (p, file)) : ∃ committed, s.file = some committed := by
  have hworking := h.working p file htransaction
  unfold Working at hworking
  split at hworking
  · exact ⟨file, hworking⟩
  · obtain ⟨⟨committed, hcommitted, -⟩, -⟩ := hworking
    exact ⟨committed, hcommitted⟩
  · obtain ⟨⟨committed, hcommitted, -⟩, -⟩ := hworking
    exact ⟨committed, hcommitted⟩
  · obtain ⟨⟨committed, hcommitted, -⟩, -⟩ := hworking
    exact ⟨committed, hcommitted⟩
  · exact hworking.elim

/-- A step of one process; the others are as they were. -/
theorem Ordered.of_step (h : Ordered setup history least s)
    (hstage : ∀ q, q ≠ p → s'.stage q = s.stage q)
    (hfile : ∀ file ∈ s'.file, InOrder history file)
    (hgrown : ∀ file ∈ s.file, ∃ file' ∈ s'.file, file.version ≤ file'.version)
    (hbackup : ∀ file, s'.backup = some (some file) → InOrder history file)
    (hothers : ∀ q file, q ≠ p → s'.transaction = some (q, file) →
      s.transaction = some (q, file) ∧ s'.file = s.file)
    (hworking : ∀ file, s'.transaction = some (p, file) → s'.Working setup p file)
    (hopened : ∀ migrated, s'.stage p = .opened migrated →
      ∃ file ∈ s'.file, setup.schemaVersion p ≤ file.version) : Ordered setup history least s' where
  file := hfile
  backup := hbackup
  working := by
    intro q file htransaction
    by_cases hq : q = p
    · subst hq
      exact hworking file htransaction
    · obtain ⟨hbefore, hsame⟩ := hothers q file hq htransaction
      have hold := h.working q file hbefore
      unfold Working Behind at hold ⊢
      rwa [hstage q hq, hsame]
  opened := by
    intro q migrated hopen
    by_cases hq : q = p
    · subst hq
      exact hopened migrated hopen
    · rw [hstage q hq] at hopen
      obtain ⟨file, hmem, hle⟩ := h.opened q migrated hopen
      obtain ⟨file', hmem', hgrows⟩ := hgrown file hmem
      exact ⟨file', hmem', Int.le_trans hle hgrows⟩
  least := by
    intro version hversion
    obtain ⟨file, hmem, hle⟩ := h.least version hversion
    obtain ⟨file', hmem', hgrows⟩ := hgrown file hmem
    exact ⟨file', hmem', Int.le_trans hle hgrows⟩

/-- A process that is not in a transaction goes on. -/
theorem Ordered.enter (h : Ordered setup history least s)
    (houtside : ∀ file, ¬ s.Working setup p file)
    {stage : MigrationStage} (hstage : ∀ migrated, stage ≠ .opened migrated)
    {backup : Option (Option (SchemaFile Contents))}
    (hbackup : ∀ file, backup = some (some file) → InOrder history file) :
    Ordered setup history least { s.enter p stage with backup := backup } := by
  refine h.of_step (p := p) (fun q hq => stage_enter_of_ne hq stage) h.file
    (fun file hfile => ⟨file, hfile, Int.le_refl _⟩) hbackup
    (fun q file _ htransaction => ⟨htransaction, rfl⟩) (fun file htransaction => ?_)
    (fun migrated hopen => ?_)
  · exact absurd (h.working p file htransaction) (houtside file)
  · exact absurd ((stage_enter stage).symm.trans hopen) (hstage migrated)

theorem Ordered.rollback (h : Ordered setup history least s) {stage : MigrationStage}
    (hstage : ∀ migrated, stage = .opened migrated →
      ∃ file ∈ s.file, setup.schemaVersion p ≤ file.version) :
    Ordered setup history least (s.rollback p stage) := by
  refine h.of_step (p := p) (fun q hq => stage_enter_of_ne hq stage) h.file
    (fun file hfile => ⟨file, hfile, Int.le_refl _⟩) h.backup (fun q file _ htransaction => ?_)
    (fun file htransaction => ?_) (fun migrated hopen => ?_)
  · exact ⟨(Option.filter_eq_some_iff.mp htransaction).1, rfl⟩
  · simpa using (Option.filter_eq_some_iff.mp htransaction).2
  · exact hstage migrated ((stage_enter stage).symm.trans hopen)

theorem Ordered.close (h : Ordered setup history least s) :
    Ordered setup history least (s.rollback p .closed) :=
  h.rollback fun _ hstage => by cases hstage

/-- The transaction of a process goes on. -/
theorem Ordered.goOn (h : Ordered setup history least s) {stage : MigrationStage}
    {file : SchemaFile Contents} (hstage : ∀ migrated, stage ≠ .opened migrated)
    (hworking : Working setup { s.enter p stage with transaction := some (p, file) } p file) :
    Ordered setup history least { s.enter p stage with transaction := some (p, file) } := by
  refine h.of_step (p := p) (fun q hq => stage_enter_of_ne hq stage) h.file
    (fun file hfile => ⟨file, hfile, Int.le_refl _⟩) h.backup (fun q held hq htransaction => ?_)
    (fun held htransaction => ?_) (fun migrated hopen => ?_)
  · cases htransaction
    exact absurd rfl hq
  · cases htransaction
    exact hworking
  · exact absurd ((stage_enter stage).symm.trans hopen) (hstage migrated)

theorem take_of_prefix {migrations : List String} {n : Nat} (hlists : migrations <+: history)
    (hn : n ≤ migrations.length) : history.take n = migrations.take n := by
  obtain ⟨later, rfl⟩ := hlists
  exact List.take_append_of_le_length hn

theorem inOrder_of_migrations {migrations : List String} {file : SchemaFile Contents}
    (hlists : migrations <+: history) (hversion : file.version = migrations.length)
    (happlied : file.applied = migrations) : InOrder history file := by
  refine ⟨migrations.length, List.IsPrefix.length_le hlists, hversion, ?_⟩
  rw [happlied, take_of_prefix hlists (Nat.le_refl _), List.take_length]

theorem Ordered.connect (h : Ordered setup history least s)
    (houtside : ∀ file, ¬ s.Working setup p file)
    (existed : Bool) : Ordered setup history least
      { s.enter p (.connected existed) with file := some (s.file.getD setup.created) } := by
  have hkept : ∀ file ∈ s.file, some (s.file.getD setup.created) = some file := by
    intro file hfile
    rw [Option.mem_def.mp hfile, Option.getD_some]
  refine h.of_step (p := p) (fun q hq => stage_enter_of_ne hq _) ?_
    (fun file hfile => ⟨file, hkept file hfile, Int.le_refl _⟩) h.backup
    (fun q file _ htransaction => ?_) (fun file htransaction => ?_) (fun migrated hopen => ?_)
  · intro file hfile
    cases hsome : s.file with
    | none =>
        rw [hsome] at hfile
        cases hfile
        exact ⟨0, Nat.zero_le _, rfl, rfl⟩
    | some committed =>
        rw [hsome] at hfile
        cases hfile
        exact h.file _ hsome
  · obtain ⟨committed, hcommitted⟩ := h.exists_file htransaction
    exact ⟨htransaction, (hkept committed hcommitted).trans hcommitted.symm⟩
  · exact absurd (h.working p file htransaction) (houtside file)
  · exact absurd ((stage_enter _).symm.trans hopen) (by simp)

theorem Ordered.work_locked (h : Ordered setup history least s) (hat : s.stage p = .locked)
    {file : SchemaFile Contents} (hwork : s.work p = some file) : s.file = some file := by
  have hworking := h.working p file (work_eq_some.mp hwork)
  simpa only [Working, hat] using hworking

theorem Ordered.schemaVersion (hlists : setup.migrations p <+: history)
    (h : Ordered setup history least s) (hat : s.stage p = .locked) {file : SchemaFile Contents}
    (hwork : s.work p = some file) (fails : Bool) :
    Ordered setup history least
      (if fails ∨ setup.schemaVersion p < file.version then s.rollback p .closed
        else if file.version = setup.schemaVersion p then s.rollback p (.opened false)
        else if file.version < 0 then s.rollback p .closed
        else s.enter p (.executing file.version.toNat)) := by
  have htransaction := work_eq_some.mp hwork
  have hcommitted := h.work_locked hat hwork
  split
  · exact h.close
  · rename_i hsupported
    split
    · rename_i hequal
      exact h.rollback fun _ _ => ⟨file, hcommitted, Int.le_of_eq hequal.symm⟩
    · rename_i hbehind
      split
      · exact h.close
      · obtain ⟨n, -, hversion, happlied⟩ := h.file file hcommitted
        have hlt : n < (setup.migrations p).length := by
          simp only [MigrationSetup.schemaVersion] at hsupported hbehind
          omega
        refine h.of_step (p := p) (fun q hq => stage_enter_of_ne hq _) h.file
          (fun file hfile => ⟨file, hfile, Int.le_refl _⟩) h.backup
          (fun q file _ htransaction => ⟨htransaction, rfl⟩) (fun held hheld => ?_)
          (fun migrated hopen => ?_)
        · obtain rfl : held = file := by
            have hsame := htransaction.symm.trans hheld
            simpa using hsame.symm
          rw [Working, stage_enter]
          refine ⟨⟨held, hcommitted, ?_⟩, ?_, ?_, ?_⟩
          · simp only [MigrationSetup.schemaVersion]
            omega
          · rw [hversion]
            exact hlt
          · rw [hversion]
            rfl
          · rw [happlied, hversion]
            exact take_of_prefix hlists (Nat.le_of_lt hlt)
        · exact absurd ((stage_enter _).symm.trans hopen) (by simp)

theorem Ordered.executeBatch (h : Ordered setup history least s) {offset : Nat}
    (hat : s.stage p = .executing offset) {file : SchemaFile Contents}
    (hwork : s.work p = some file)
    {migration : String} (hmigration : (setup.migrations p)[offset]? = some migration)
    (contents : Contents) : Ordered setup history least { s.enter p (.recording offset) with
      transaction := some (p, ⟨file.version, contents, file.applied ++ [migration]⟩) } := by
  have hworking := h.working p file (work_eq_some.mp hwork)
  simp only [Working, hat] at hworking
  obtain ⟨hbehind, hoffset, -, happlied⟩ := hworking
  refine h.goOn (by simp) ?_
  simp only [Working, stage_enter]
  refine ⟨hbehind, hoffset, ?_⟩
  rw [happlied, List.take_add_one, hmigration]
  rfl

theorem Ordered.setVersion (h : Ordered setup history least s) {offset : Nat}
    (hat : s.stage p = .recording offset) {file : SchemaFile Contents}
    (hwork : s.work p = some file) :
    Ordered setup history least { s.enter p (if offset + 1 < (setup.migrations p).length then
        .executing (offset + 1) else .committing) with
      transaction := some (p, { file with version := (offset + 1 : Nat) }) } := by
  have hworking := h.working p file (work_eq_some.mp hwork)
  simp only [Working, hat] at hworking
  obtain ⟨hbehind, hoffset, happlied⟩ := hworking
  by_cases hmore : offset + 1 < (setup.migrations p).length
  · rw [if_pos hmore]
    refine h.goOn (by simp) ?_
    simp only [Working, stage_enter]
    exact ⟨hbehind, hmore, trivial, happlied⟩
  · have hall : offset + 1 = (setup.migrations p).length := by omega
    rw [if_neg hmore]
    refine h.goOn (by simp) ?_
    simp only [Working, stage_enter]
    refine ⟨hbehind, by rw [MigrationSetup.schemaVersion, hall], ?_⟩
    rw [happlied, hall, List.take_length]

theorem Ordered.commit (hlists : setup.migrations p <+: history) (h : Ordered setup history least s)
    (hat : s.stage p = .committing) {file : SchemaFile Contents} (hwork : s.work p = some file) :
    Ordered setup history least { s.rollback p (.opened true) with file := some file } := by
  have htransaction := work_eq_some.mp hwork
  have hworking := h.working p file htransaction
  simp only [Working, hat] at hworking
  obtain ⟨⟨before, hbefore, hlt⟩, hversion, happlied⟩ := hworking
  refine h.of_step (p := p) (fun q hq => stage_enter_of_ne hq _) ?_ ?_ h.backup ?_ ?_ ?_
  · intro committed hcommitted
    cases hcommitted
    exact inOrder_of_migrations hlists hversion happlied
  · intro committed hcommitted
    cases hbefore.symm.trans hcommitted
    exact ⟨file, rfl, by omega⟩
  · intro q held hq hheld
    have hsame := htransaction.symm.trans (Option.filter_eq_some_iff.mp hheld).1
    cases hsame
    exact absurd rfl hq
  · intro held hheld
    simpa using (Option.filter_eq_some_iff.mp hheld).2
  · exact fun _ _ => ⟨file, rfl, Int.le_of_eq hversion.symm⟩

/-- Rows are changed while no process is in a transaction. -/
theorem Ordered.write (h : Ordered setup history least s) (hfree : s.transaction = none)
    (contents : Contents) : Ordered setup history least
      { s with file := s.file.map fun file => { file with contents := contents } } where
  file := by
    intro file hfile
    obtain ⟨before, hbefore, rfl⟩ := Option.map_eq_some_iff.mp hfile
    exact h.file before hbefore
  backup := h.backup
  working := by
    intro p file htransaction
    rw [hfree] at htransaction
    cases htransaction
  opened := by
    intro p migrated hopen
    obtain ⟨file, hfile, hle⟩ := h.opened p migrated hopen
    exact ⟨_, Option.map_eq_some_iff.mpr ⟨file, hfile, rfl⟩, hle⟩
  least := by
    intro version hversion
    obtain ⟨file, hfile, hle⟩ := h.least version hversion
    exact ⟨_, Option.map_eq_some_iff.mpr ⟨file, hfile, rfl⟩, hle⟩

/-! ## Every call of every process -/

theorem Ordered.step (hlists : ∀ p, setup.migrations p <+: history)
    (h : Ordered setup history least s)
    {labelled : Nat × MigrationCall Contents} (hstep : step setup s labelled = some s') :
    Ordered setup history least s' := by
  obtain ⟨p, call⟩ := labelled
  unfold Migrating.step at hstep
  dsimp only at hstep
  split at hstep
  · rename_i hat
    cases hstep
    exact h.enter (by simp [Working, hat]) (by simp) h.backup
  · rename_i existed fails hat
    split at hstep
    · cases hstep
      exact h.close
    · cases hstep
      exact h.connect (by simp [Working, hat]) existed
  · rename_i existed fails hat
    cases hstep
    split
    · exact h.close
    · exact h.enter (by simp [Working, hat]) (by simp) h.backup
  · rename_i fails hat
    cases hstep
    exact h.enter (by simp [Working, hat]) (by simp) h.backup
  · rename_i fails hat
    split at hstep
    · cases hstep
      exact h.close
    · obtain ⟨file, hfile, rfl⟩ := Option.map_eq_some_iff.mp hstep
      refine h.enter (by simp [Working, hat]) ?_ h.backup
      intro migrated
      split <;> simp
  · rename_i fails hat
    cases hstep
    split
    · exact h.enter (by simp [Working, hat]) (by simp) h.backup
    · exact h.enter (by simp [Working, hat]) (by simp) (by simp)
  · rename_i fails leaves hat
    cases hstep
    split
    · exact h.enter (by simp [Working, hat]) (by simp) h.backup
    · refine h.enter (by simp [Working, hat]) (by simp) fun file hfile => ?_
      split at hfile
      · split at hfile <;> cases hfile
      · exact h.file file (Option.some.inj hfile)
  · rename_i locked hat
    split at hstep
    · cases hstep
      exact h.close
    · split at hstep
      · cases hstep
      · obtain ⟨file, hfile, rfl⟩ := Option.map_eq_some_iff.mp hstep
        refine h.goOn (by simp) ?_
        simp only [Working, stage_enter]
        exact hfile
  · rename_i fails hat
    obtain ⟨file, hwork, rfl⟩ := Option.map_eq_some_iff.mp hstep
    exact h.schemaVersion (hlists p) hat hwork fails
  · rename_i offset fails hat
    obtain ⟨file, hwork, hrest⟩ := Option.bind_eq_some_iff.mp hstep
    obtain ⟨migration, hmigration, rfl⟩ := Option.map_eq_some_iff.mp hrest
    split
    · exact h.close
    · exact h.executeBatch hat hwork hmigration _
  · rename_i offset fails hat
    obtain ⟨file, hwork, rfl⟩ := Option.map_eq_some_iff.mp hstep
    split
    · exact h.close
    · exact h.setVersion hat hwork
  · rename_i fails hat
    obtain ⟨file, hwork, rfl⟩ := Option.map_eq_some_iff.mp hstep
    split
    · exact h.close
    · exact h.commit (hlists p) hat hwork
  · rename_i migrated contents hat
    split at hstep
    · cases hstep
    · rename_i hfree
      cases hstep
      exact h.write (by simpa using hfree) contents
  · cases hstep
    exact h.close
  · cases hstep

/-! ## Newer files -/

theorem stage_rollback (stage : MigrationStage) : (s.rollback p stage).stage p = stage :=
  stage_enter stage

/-- A process opens a file that is not newer than its build. -/
theorem Ordered.opens (h : Ordered setup history least s) {call : MigrationCall Contents}
    (hstep : Migrating.step setup s (p, call) = some s') {migrated : Bool}
    (hopen : s'.stage p = .opened migrated) :
    s.stage p = .opened migrated ∨ ∀ f ∈ s.file, f.version ≤ setup.schemaVersion p := by
  unfold Migrating.step at hstep
  dsimp only at hstep
  split at hstep
  case h_9 fails hat =>
    obtain ⟨file, hwork, rfl⟩ := Option.map_eq_some_iff.mp hstep
    refine Or.inr fun f hf => ?_
    cases (h.work_locked hat hwork).symm.trans hf
    by_contra hnewer
    rw [if_pos (Or.inr (Int.not_le.mp hnewer)), stage_rollback] at hopen
    cases hopen
  case h_12 fails hat =>
    obtain ⟨file, hwork, rfl⟩ := Option.map_eq_some_iff.mp hstep
    have hworking := h.working p file (work_eq_some.mp hwork)
    simp only [Working, hat] at hworking
    obtain ⟨⟨before, hbefore, hlt⟩, -⟩ := hworking
    refine Or.inr fun f hf => ?_
    cases hbefore.symm.trans hf
    exact Int.le_of_lt hlt
  case h_13 before contents hat =>
    split at hstep
    · cases hstep
    · cases hstep
      exact Or.inl hopen
  -- Any other call ends in a stage in which the file is not open.
  all_goals grind [stage_rollback, stage_enter, Option.map_eq_some_iff, Option.bind_eq_some_iff]

/-- A newer file is refused, and what the transaction made of it is undone. -/
theorem Ordered.refused (h : Ordered setup history least s) {f : SchemaFile Contents}
    (hf : f ∈ s.file) (hnewer : setup.schemaVersion p < f.version) {fails : Bool}
    (hstep : Migrating.step setup s (p, .schemaVersion fails) = some s') :
    s' = s.rollback p .closed := by
  cases hat : s.stage p with
  | locked =>
      simp only [Migrating.step, hat] at hstep
      obtain ⟨file, hwork, rfl⟩ := Option.map_eq_some_iff.mp hstep
      cases (h.work_locked hat hwork).symm.trans hf
      rw [if_pos (Or.inr hnewer)]
  | configured existed => cases existed <;> simp [Migrating.step, hat] at hstep
  | _ => simp [Migrating.step, hat] at hstep

theorem ordered_start {file : Option (SchemaFile Contents)}
    (hfile : ∀ f ∈ file, InOrder history f) : Ordered setup history none (start file) where
  file := hfile
  backup := fun _ hbackup => by cases hbackup
  working := fun _ _ htransaction => by cases htransaction
  opened := fun _ _ hopen => by cases hopen
  least := fun _ hversion => by cases hversion

theorem Ordered.fromNow (h : Ordered setup history least s) :
    Ordered setup history (s.file.map SchemaFile.version) s where
  file := h.file
  backup := h.backup
  working := h.working
  opened := h.opened
  least := by
    intro version hversion
    obtain ⟨file, hfile, rfl⟩ := Option.map_eq_some_iff.mp hversion
    exact ⟨file, hfile, Int.le_refl _⟩

theorem Ordered.run (hlists : ∀ p, setup.migrations p <+: history)
    (h : Ordered setup history least s)
    {calls : List (Nat × MigrationCall Contents)}
    (hrun : run (Migrating.step setup) s calls = some s') : Ordered setup history least s' :=
  invariant_of_run (Ordered setup history least) (fun _ _ _ h hstep => h.step hlists hstep) h hrun

theorem InOrder.applied_growing {file file' : SchemaFile Contents} (h : InOrder history file)
    (h' : InOrder history file') (hle : file.version ≤ file'.version) :
    file.applied <+: file'.applied := by
  obtain ⟨n, -, hversion, happlied⟩ := h
  obtain ⟨m, -, hversion', happlied'⟩ := h'
  rw [happlied, happlied']
  exact List.take_prefix_take_left (by omega)

/--
Processes of any builds whose migrations are the first ones of one history open one file,
in every interleaving, with calls that fail and processes that stop. Whenever a transaction
is committed or a backup is whole, exactly the migrations up to its version were executed
on it, each once and in order. The version never drops, nor are migrations undone, and
it stays at least that of each process with an open handle. A process does not open a
file that is newer than its build: having read the version it leaves its transaction.
-/
theorem migrations_in_order (setup : MigrationSetup Contents)
    (hlists : ∀ p, setup.migrations p <+: history) {file : Option (SchemaFile Contents)}
    (hfile : ∀ f ∈ file, InOrder history f) {calls more : List (Nat × MigrationCall Contents)}
    {s t : Migrating Contents} (hrun : LabelledRun.run (step setup) (start file) calls = some s)
    (hmore : LabelledRun.run (step setup) s more = some t) :
    (∀ f ∈ s.file, InOrder history f) ∧
      (∀ f, s.backup = some (some f) → InOrder history f) ∧
      (∀ p migrated, s.stage p = .opened migrated →
        ∃ f ∈ t.file, setup.schemaVersion p ≤ f.version) ∧
      (∀ f ∈ s.file, ∃ f' ∈ t.file, f.version ≤ f'.version ∧ f.applied <+: f'.applied) ∧
      ∀ p, ∀ f ∈ s.file, setup.schemaVersion p < f.version → ∀ call s',
        step setup s (p, call) = some s' →
          (∀ migrated, s'.stage p = .opened migrated → s.stage p = .opened migrated) ∧
            ∀ fails, call = .schemaVersion fails → s' = s.rollback p .closed := by
  have hs : Ordered setup history none s := (ordered_start hfile).run hlists hrun
  have ht : Ordered setup history (s.file.map SchemaFile.version) t := hs.fromNow.run hlists hmore
  have hgrown : ∀ f ∈ s.file, ∃ f' ∈ t.file, f.version ≤ f'.version := fun f hf =>
    ht.least _ (Option.map_eq_some_iff.mpr ⟨f, hf, rfl⟩)
  refine ⟨hs.file, hs.backup, fun p migrated hopen => ?_, fun f hf => ?_, ?_⟩
  · obtain ⟨f, hf, hle⟩ := hs.opened p migrated hopen
    obtain ⟨f', hf', hgrows⟩ := hgrown f hf
    exact ⟨f', hf', Int.le_trans hle hgrows⟩
  · obtain ⟨f', hf', hgrows⟩ := hgrown f hf
    exact ⟨f', hf', hgrows, (hs.file f hf).applied_growing (ht.file f' hf') hgrows⟩
  · intro p f hf hnewer call s' hstep
    refine ⟨fun migrated hopen => ?_, fun fails hcall => ?_⟩
    · cases hs.opens hstep hopen with
      | inl hbefore => exact hbefore
      | inr hle => exact absurd (hle f hf) (Int.not_le.mpr hnewer)
    · subst hcall
      exact hs.refused hf hnewer hstep

/-- A build of two migrations, and a later one of three; each migration writes its own name. -/
def sampleMigrations : MigrationSetup (List String) where
  migrations p := if p = 0 then ["001", "002"] else ["001", "002", "003"]
  empty := []
  executeBatch migration contents := some (contents ++ [migration])

/--
The later build stops in its first attempt, and the older one opens the file before the
second.
-/
theorem migrations_in_order_sample :
    ∃ s t, LabelledRun.run (step sampleMigrations) (start none)
        ([(1, .pathExists), (1, .connect false), (1, .applyPragmas false), (1, .inspect false),
          (1, .begin_ true), (1, .schemaVersion false), (1, .executeBatch false),
          (0, .pathExists), (1, .setVersion false), (1, .stop), (0, .connect false),
          (0, .applyPragmas false), (0, .inspect false), (0, .removeBackup false),
          (0, .vacuum false false), (0, .begin_ true), (0, .schemaVersion false),
          (0, .executeBatch false), (0, .setVersion false), (0, .executeBatch false),
          (0, .setVersion false), (0, .commit false)]) = some s ∧
      LabelledRun.run (step sampleMigrations) s
        ([(1, .pathExists), (1, .connect false), (1, .applyPragmas false), (1, .inspect false),
          (1, .removeBackup false), (1, .vacuum false false), (1, .begin_ true),
          (1, .schemaVersion false), (1, .executeBatch false), (1, .setVersion false),
          (1, .commit false)]) = some t ∧
      ∃ f ∈ t.file, 2 ≤ f.version := by
  obtain ⟨s, hrun, hfirst⟩ : ∃ s, LabelledRun.run (step sampleMigrations) (start none)
      ([(1, .pathExists), (1, .connect false), (1, .applyPragmas false), (1, .inspect false),
        (1, .begin_ true), (1, .schemaVersion false), (1, .executeBatch false),
        (0, .pathExists), (1, .setVersion false), (1, .stop), (0, .connect false),
        (0, .applyPragmas false), (0, .inspect false), (0, .removeBackup false),
        (0, .vacuum false false), (0, .begin_ true), (0, .schemaVersion false),
        (0, .executeBatch false), (0, .setVersion false), (0, .executeBatch false),
        (0, .setVersion false), (0, .commit false)]) = some s ∧
      s.stage 0 = .opened true ∧ (LabelledRun.run (step sampleMigrations) s
        ([(1, .pathExists), (1, .connect false), (1, .applyPragmas false), (1, .inspect false),
          (1, .removeBackup false), (1, .vacuum false false), (1, .begin_ true),
          (1, .schemaVersion false), (1, .executeBatch false), (1, .setVersion false),
          (1, .commit false)])).isSome = true := exists_of_any (by decide +kernel)
  obtain ⟨hopen, hmore⟩ := hfirst
  obtain ⟨t, hmore⟩ := Option.isSome_iff_exists.mp hmore
  have hlists : ∀ p, sampleMigrations.migrations p <+: ["001", "002", "003"] := by
    intro p
    simp only [sampleMigrations]
    split <;> decide
  have hnone : ∀ f ∈ (none : Option (SchemaFile (List String))),
      InOrder ["001", "002", "003"] f := by
    intro f hf
    cases hf
  obtain ⟨-, -, hopened, -⟩ := migrations_in_order sampleMigrations hlists hnone hrun hmore
  exact ⟨s, t, hrun, hmore, hopened 0 true hopen⟩

end Migrating

end Fulgur
