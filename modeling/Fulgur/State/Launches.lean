import Fulgur.Library.Run
import Fulgur.State.Db.Legacy

/-! # Start-ups over the legacy document

A start-up looks whether the database file exists, opens and migrates it or
falls back to memory, imports the legacy document when the file was missing, and
loads and claims the session. It may stop between any two of these steps, and
the opening and the import may fail. The file is there long before the import
commits, and only a missing file is imported into: a start-up that stops or
fails in between leaves the document unread for good.
-/

namespace Fulgur

open LabelledRun

def SCHEMA_VERSION : Int := 1

/-- The database file: the recorded schema version and the rows. -/
structure StateFile where
  version : Int
  tables : Tables

namespace StateFile

/-- A file that was just created; its tables are still to come. -/
def created : StateFile := ⟨0, .empty⟩

/-- `schema::migrate`, in one transaction. -/
def migrate (file : StateFile) : Option StateFile :=
  if SCHEMA_VERSION < file.version then none
  else if file.version = SCHEMA_VERSION then some file
  else if file.version < 0 then none
  else some ⟨SCHEMA_VERSION, .empty⟩

end StateFile

/-- The database handle of a start-up, on the file or on an in-memory database. -/
structure LaunchDb where
  /-- The tables of the in-memory fallback. -/
  memory : Option Tables
  ownedWindows : Std.ExtTreeSet Int

def LaunchDb.isEphemeral (db : LaunchDb) : Bool := db.memory.isSome

/-- How far `load_with_db` is. -/
inductive LaunchStage where
  /-- No process is running. -/
  | ended
  | checked (needsLegacyImport : Bool)
  | connected (needsLegacyImport : Bool)
  | configured (needsLegacyImport : Bool)
  | opened (needsLegacyImport : Bool) (db : LaunchDb)
  /-- The import is over; `clean` unless it failed. -/
  | imported (clean : Bool) (db : LaunchDb)
  | loaded (clean : Bool) (db : LaunchDb) (session : WindowsState)
  /-- The start-up has returned its session. -/
  | running (db : LaunchDb)

/-- The legacy document and how it is parsed. -/
structure LegacySource where
  fromStr : String → Option WindowsState
  files : LegacyFiles

/-- The database file and the process that works on it. -/
structure Launches where
  file : Option StateFile
  stage : LaunchStage
  /-- How many imports were committed. -/
  imports : Nat
  /-- What the first start-up on the file returned whose import did not fail. -/
  firstSession : Option WindowsState

inductive LaunchAction where
  | pathExists
  /-- `Connection::open`; one that fails creates no file. -/
  | connect (fails : Bool)
  | applyPragmas (fails : Bool)
  | migrate (fails : Bool)
  | importLegacy (clock : List Int) (fails : Bool)
  | load
  | claimPersistedWindows
  | save (snapshot : WindowsState)
  /-- The process exits, or `load_with_db` returns an error. -/
  | stop

namespace Launches

def upgraded : Launches where
  file := none
  stage := .ended
  imports := 0
  firstSession := none

def handle (s : Launches) (db : LaunchDb) : StateDb :=
  ⟨db.memory.getD ((s.file.map StateFile.tables).getD .empty), db.ownedWindows⟩

/-- `open_in_memory` after the file could not be opened. -/
def fallback (s : Launches) (needsLegacyImport : Bool) : Launches :=
  { s with stage := .opened needsLegacyImport ⟨some .empty, ∅⟩ }

/-- Commit new tables through a handle. -/
def commit (s : Launches) (db : LaunchDb) (next : StateDb) : Launches × LaunchDb :=
  match db.memory with
  | some _ => (s, ⟨some next.tables, next.ownedWindows⟩)
  | none => ({ s with file := s.file.map fun file => { file with tables := next.tables } },
      ⟨none, next.ownedWindows⟩)

def connect (s : Launches) (fails : Bool) : Option Launches :=
  match s.stage with
  | .checked needsLegacyImport =>
      if fails then some (s.fallback needsLegacyImport)
      else some { s with
        file := some (s.file.getD .created)
        stage := .connected needsLegacyImport }
  | _ => none

def applyPragmas (s : Launches) (fails : Bool) : Option Launches :=
  match s.stage with
  | .connected needsLegacyImport =>
      if fails then some (s.fallback needsLegacyImport)
      else some { s with stage := .configured needsLegacyImport }
  | _ => none

def migrate (s : Launches) (fails : Bool) : Option Launches :=
  match s.stage with
  | .configured needsLegacyImport =>
      match s.file.bind StateFile.migrate, fails with
      | some file, false => some { s with
          file := some file
          stage := .opened needsLegacyImport ⟨none, ∅⟩ }
      | _, _ => some (s.fallback needsLegacyImport)
  | _ => none

/-- The import of a missing file's document; a failed one is only logged. -/
def importLegacy (source : LegacySource) (s : Launches) (clock : List Int) (fails : Bool) :
    Option Launches :=
  match s.stage with
  | .opened needsLegacyImport db =>
      if needsLegacyImport && !db.isEphemeral && source.files.primary.isSome then
        match importLegacyJson source.fromStr source.files clock (s.handle db), fails with
        | some next, false =>
            let (s, db) := s.commit db next
            some { s with stage := .imported true db, imports := s.imports + 1 }
        | _, _ => some { s with stage := .imported false db }
      else some { s with stage := .imported true db }
  | _ => none

def load (s : Launches) : Option Launches :=
  match s.stage with
  | .imported clean db =>
      match (s.handle db).load with
      | .ok session => some { s with stage := .loaded clean db session }
      | .error _ => some { s with stage := .ended }
  | _ => none

def claimPersistedWindows (s : Launches) : Option Launches :=
  match s.stage with
  | .loaded clean db session =>
      some { s with
        stage := .running ⟨db.memory, (s.handle db).claimPersistedWindows.ownedWindows⟩
        firstSession := s.firstSession.or
          (if clean && !db.isEphemeral then some session else none) }
  | _ => none

/-- The application saves its session; a failed save changes nothing. -/
def save (s : Launches) (snapshot : WindowsState) : Option Launches :=
  match s.stage with
  | .running db =>
      match (s.handle db).apply snapshot with
      | .ok (next, _) =>
          let (s, db) := s.commit db next
          some { s with stage := .running db }
      | .error _ => some s
  | _ => none

def step (source : LegacySource) (s : Launches) : LaunchAction → Option Launches
  | .pathExists =>
      match s.stage with
      | .ended => some { s with stage := .checked s.file.isNone }
      | _ => none
  | .connect fails => s.connect fails
  | .applyPragmas fails => s.applyPragmas fails
  | .migrate fails => s.migrate fails
  | .importLegacy clock fails => s.importLegacy source clock fails
  | .load => s.load
  | .claimPersistedWindows => s.claimPersistedWindows
  | .save snapshot => s.save snapshot
  | .stop => some { s with stage := .ended }

/-! ## What no start-up may be stopped in -/

/-- The database file is there, and the import into it is not committed. -/
def owesImport (s : Launches) : Bool :=
  match s.stage with
  | .connected needsLegacyImport | .configured needsLegacyImport => needsLegacyImport
  | .opened needsLegacyImport db => needsLegacyImport && !db.isEphemeral
  | _ => false

/--
Nothing stops or fails while an import is owed. The readings of the clock are
such that the identities they give are distinct.
-/
def Uninterrupted (count : Nat) (s : Launches) : LaunchAction → Prop
  | .stop => s.owesImport = false
  | .applyPragmas fails | .migrate fails => fails = true → s.owesImport = false
  | .importLegacy clock fails => (fails = true → s.owesImport = false) ∧ ClockFits count clock
  | _ => True

instance (count : Nat) (s : Launches) : ∀ a, Decidable (s.Uninterrupted count a)
  | .stop => inferInstanceAs (Decidable (_ = _))
  | .applyPragmas _ | .migrate _ => inferInstanceAs (Decidable (_ → _))
  | .importLegacy _ _ => inferInstanceAs (Decidable ((_ → _) ∧ _))
  | .pathExists | .connect _ | .load | .claimPersistedWindows | .save _ =>
      inferInstanceAs (Decidable True)

end Launches

end Fulgur
