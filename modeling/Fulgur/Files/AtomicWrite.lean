import Fulgur.Files.Disk
import Fulgur.Library.Volume

/-! # Writing a file atomically

The contents are written to a temporary file beside the destination, which is
synced and renamed over it. Every call of the file system may fail, whatever the
reason; a write may take a part of the contents.
-/

namespace Fulgur

open Volumes

/-- A path as its components; an empty one and `.` do not count. -/
structure Location where
  absolute : Bool
  names : List (List UInt8)
deriving DecidableEq

namespace Location

/-- `Path::parent`. -/
def parent (location : Location) : Option Location :=
  if location.names = [] then none else some { location with names := location.names.dropLast }

/-- `Path::file_name`. -/
def fileName (location : Location) : Option (List UInt8) :=
  location.names.getLast?.filter fun name => name ≠ [0x2E, 0x2E]

/-- `Path::join` with one name. -/
def join (location : Location) (name : List UInt8) : Location :=
  { location with names := location.names ++ [name] }

/-- The empty path, which no directory can be opened under. -/
def isEmpty (location : Location) : Bool := !location.absolute && location.names.isEmpty

end Location

/-- What stands at a location; a link names the location that it stands for. -/
inductive FileNode where
  | file (bytes : List UInt8) (mode : Nat)
  | link (leadsTo : Location)
  | directory (mode : Nat)
deriving DecidableEq

def FileNode.mode : FileNode → Option Nat
  | .file _ mode => some mode
  | .link _ => none
  | .directory mode => some mode

/-- `File::set_permissions`. -/
def FileNode.setPermissions (mode : Nat) : FileNode → FileNode
  | .file bytes _ => .file bytes mode
  | node => node

abbrev FileSystem := Volume Location FileNode

/-- How many links the system follows. -/
def MAX_LINKS : Nat := 40

def DEFAULT_FILE_MODE : Nat := 0o666

def canonicalizeFrom (nodes : Location → Option FileNode) : Nat → Location → Option Location
  | 0, _ => none
  | fuel + 1, location =>
      match nodes location with
      | none => none
      | some (.link leadsTo) => canonicalizeFrom nodes fuel leadsTo
      | some _ => some location

/-- `fs::canonicalize`: where the links lead to, if there is something. -/
def canonicalize (nodes : Location → Option FileNode) (location : Location) : Option Location :=
  canonicalizeFrom nodes (MAX_LINKS + 1) location

def readBytes (nodes : Location → Option FileNode) (location : Location) : Option (List UInt8) :=
  (canonicalize nodes location).bind fun target =>
    match nodes target with
    | some (.file bytes _) => some bytes
    | _ => none

/-- What `fs::metadata` tells of the permissions; it follows links. -/
def permissions (nodes : Location → Option FileNode) (location : Location) : Option Nat :=
  (canonicalize nodes location).bind fun target => (nodes target).bind FileNode.mode

/-- The call that failed, by the message of the error. -/
inductive AtomicWriteError where
  | noParent
  | noFilename
  | createTemp
  | writeTemp
  | flushTemp
  | syncTemp
  | applyPermissions
  | replace
  | openParent
  | syncParent
deriving DecidableEq

/-- A call of the function, with the process identifier, the clock and the counter that it reads. -/
structure AtomicWriteCall where
  path : Location
  contents : List UInt8
  pid : Nat
  nonce : Nat
  counter : Nat

def tempName (filename : List UInt8) (pid nonce counter : Nat) : List UInt8 :=
  asBytes ("." ++ fromUtf8Lossy filename ++ "." ++ toString pid ++ "." ++ toString nonce ++ "." ++
    toString counter ++ ".tmp")

/-- What the function has found out before it creates a file. -/
structure WriteTarget where
  target : Location
  parent : Location
  tmpPath : Location
deriving DecidableEq

inductive WritePoint where
  | metadata
  | create (existingPermissions : Option Nat)
  | write (existingPermissions : Option Nat) (written : Nat)
  | flush (existingPermissions : Option Nat)
  | sync (existingPermissions : Option Nat)
  | setPermissions (mode : Nat)
  | rename
  | openParent
  | syncParent
  | removeTemp (error : AtomicWriteError)
deriving DecidableEq

inductive WriteStatus where
  | canonicalize
  | going (target : WriteTarget) (point : WritePoint)
  | returned (target : Option WriteTarget) (result : Except AtomicWriteError Unit)

structure AtomicWrite where
  volume : FileSystem
  status : WriteStatus

/-- What the file system answers. -/
inductive CallOutcome where
  | succeeds
  | fails
  /-- A write takes some of the bytes. -/
  | takes (count : Nat)
deriving DecidableEq

namespace AtomicWriteCall

variable (call : AtomicWriteCall)

def locate (target : Location) : WriteStatus :=
  match target.parent with
  | none => .returned none (.error .noParent)
  | some parent =>
      match target.fileName with
      | none => .returned none (.error .noFilename)
      | some filename =>
          .going ⟨target, parent, parent.join (tempName filename call.pid call.nonce call.counter)⟩
            .metadata

/-- The loop of `write_all`, when some bytes are written. -/
def afterWrite (existingPermissions : Option Nat) (written : Nat) : WritePoint :=
  if written < call.contents.length then .write existingPermissions written
  else .flush existingPermissions

def tempNode (existingPermissions : Option Nat) (written : Nat) : FileNode :=
  .file (call.contents.take written) (existingPermissions.getD DEFAULT_FILE_MODE)

/-- The next call of the file system; a call that cannot succeed has only its failure. -/
def callAt (volume : FileSystem) (t : WriteTarget) : WritePoint → CallOutcome → Option AtomicWrite
  | .metadata, .succeeds =>
      some ⟨volume, .going t (.create (permissions volume.nodes t.target))⟩
  | .metadata, .fails => some ⟨volume, .going t (.create none)⟩
  | .create existing, .succeeds =>
      -- `create_new`
      if volume.visible t.tmpPath = none then
        some ⟨volume.put t.tmpPath (call.tempNode existing 0),
          .going t (call.afterWrite existing 0)⟩
      else none
  | .create _, .fails => some ⟨volume, .going t (.removeTemp .createTemp)⟩
  | .write existing written, .takes count =>
      if 0 < count ∧ written + count ≤ call.contents.length then
        some ⟨volume.put t.tmpPath (call.tempNode existing (written + count)),
          .going t (call.afterWrite existing (written + count))⟩
      else none
  | .write _ _, .fails => some ⟨volume, .going t (.removeTemp .writeTemp)⟩
  | .flush existing, .succeeds => some ⟨volume, .going t (.sync existing)⟩
  | .flush _, .fails => some ⟨volume, .going t (.removeTemp .flushTemp)⟩
  | .sync existing, .succeeds =>
      some ⟨volume.sync t.tmpPath, .going t (existing.elim .rename .setPermissions)⟩
  | .sync _, .fails => some ⟨volume, .going t (.removeTemp .syncTemp)⟩
  | .setPermissions mode, .succeeds =>
      some ⟨volume.modify t.tmpPath (.setPermissions mode), .going t .rename⟩
  | .setPermissions _, .fails => some ⟨volume, .going t (.removeTemp .applyPermissions)⟩
  | .rename, .succeeds =>
      match volume.nodes t.target with
      | some (.directory _) => none
      | _ => some ⟨volume.rename t.tmpPath t.target, .going t .openParent⟩
  | .rename, .fails => some ⟨volume, .going t (.removeTemp .replace)⟩
  | .openParent, .succeeds =>
      if t.parent.isEmpty then none else some ⟨volume, .going t .syncParent⟩
  | .openParent, .fails => some ⟨volume, .going t (.removeTemp .openParent)⟩
  | .syncParent, .succeeds => some ⟨volume.syncDirectory, .returned (some t) (.ok ())⟩
  | .syncParent, .fails => some ⟨volume, .going t (.removeTemp .syncParent)⟩
  | .removeTemp error, .succeeds =>
      if volume.visible t.tmpPath = none then none
      else some ⟨volume.remove t.tmpPath, .returned (some t) (.error error)⟩
  | .removeTemp error, .fails => some ⟨volume, .returned (some t) (.error error)⟩
  | _, _ => none

/-- `atomic_write_file`, one call of the file system after the other. -/
def step (s : AtomicWrite) (outcome : CallOutcome) : Option AtomicWrite :=
  match s.status, outcome with
  | .canonicalize, .succeeds =>
      some { s with status := call.locate ((canonicalize s.volume.nodes call.path).getD call.path) }
  | .canonicalize, .fails => some { s with status := call.locate call.path }
  | .canonicalize, .takes _ => none
  | .going t point, outcome => call.callAt s.volume t point outcome
  | .returned _ _, _ => none

end AtomicWriteCall

/-- The function is called on a file system at rest. -/
def AtomicWrite.start (nodes : Location → Option FileNode) : AtomicWrite :=
  ⟨.settled nodes, .canonicalize⟩

end Fulgur
