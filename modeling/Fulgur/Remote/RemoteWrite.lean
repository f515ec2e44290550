import Fulgur.Library.Run
import Mathlib.Logic.Function.Basic

/-! # Writing a file on a server

The contents are written to a temporary file, which is renamed over the destination
in up to three ways. When all of them fail, the destination itself is written. A call
may have an effect that the answer does not tell of, and the connection may end at
any moment.
-/

namespace Fulgur

/-- Fallback permission bits. -/
def DEFAULT_REMOTE_FILE_MODE : Nat := 0o644

structure RemoteFile where
  bytes : List UInt8
  mode : Nat
deriving DecidableEq

/-- What the server answers to a call. -/
inductive SftpAnswer where
  | done
  | failed (error : String)
  /-- The call had its effect, and yet an error arrives. -/
  | lost (error : String)
deriving DecidableEq

namespace SftpAnswer

def error? : SftpAnswer → Option String
  | .done => none
  | .failed error | .lost error => some error

def performed : SftpAnswer → Bool
  | .failed _ => false
  | .done | .lost _ => true

end SftpAnswer

/-- The next call. -/
inductive RemoteWritePhase where
  | realpath
  | stat
  | openTemp
  | write (left : List UInt8)
  /-- The temporary file is removed, and the error is returned. -/
  | discard (error : String)
  | setstat
  /-- The calls that are left, and the error of the last one. -/
  | rename (attempts : List String) (lastErr : String)
  | openDestination (lastErr : String)
  | overwrite (left : List UInt8) (lastErr : String)
  | unlink (result : Except String Unit)
  | over (result : Except String Unit)

structure RemoteWrite where
  files : String → Option RemoteFile
  remotePath : String
  data : List UInt8
  /-- The process and the time that the temporary file is named after. -/
  pid : Nat
  nanos : Nat
  phase : RemoteWritePhase
  resolved : String
  destMode : Nat
  /-- The mode of the temporary file was set. -/
  modeSet : Bool
  /-- The destination itself was opened for writing. -/
  overwritten : Bool

inductive SftpMove where
  | realpath (path : Option String)
  | stat (answered : Bool)
  /-- The mode that the server gives a new file. -/
  | open_ (answer : SftpAnswer) (mode : Nat)
  | write (count : Nat)
  | writeFails (count : Nat) (error : String)
  | setstat (answer : SftpAnswer)
  | rename (answer : SftpAnswer)
  | unlink (answer : SftpAnswer)

namespace RemoteWrite

def start (files : String → Option RemoteFile) (remotePath : String) (data : List UInt8)
    (pid nanos : Nat) : RemoteWrite where
  files := files
  remotePath := remotePath
  data := data
  pid := pid
  nanos := nanos
  phase := .realpath
  resolved := remotePath
  destMode := DEFAULT_REMOTE_FILE_MODE
  modeSet := false
  overwritten := false

def tmpPath (w : RemoteWrite) : String :=
  w.resolved ++ ".fulgur.tmp." ++ toString w.pid ++ "." ++ toString w.nanos

def put (w : RemoteWrite) (path : String) (file : Option RemoteFile) : RemoteWrite :=
  { w with files := Function.update w.files path file }

def truncated (w : RemoteWrite) (path : String) (mode : Nat) : RemoteWrite :=
  w.put path (some ⟨[], ((w.files path).map RemoteFile.mode).getD mode⟩)

def appended (w : RemoteWrite) (path : String) (bytes : List UInt8) : RemoteWrite :=
  w.put path ((w.files path).map fun file => { file with bytes := file.bytes ++ bytes })

/-- The temporary file takes the place of the destination; `none` if it is gone. -/
def renamed (w : RemoteWrite) : Option RemoteWrite :=
  (w.files w.tmpPath).map fun file => (w.put w.resolved (some file)).put w.tmpPath none

def renameFailed (w : RemoteWrite) (error : String) : Except String Unit :=
  .error ("SFTP error: Rename failed for " ++ w.resolved ++ ": " ++ error)

/-- The temporary file is written. -/
def afterWrite (left : List UInt8) : RemoteWritePhase :=
  if left = [] then .setstat else .write left

/-- The destination is written. -/
def afterOverwrite (left : List UInt8) (lastErr : String) : RemoteWritePhase :=
  if left = [] then .unlink (.ok ()) else .overwrite left lastErr

/-- The ways to rename, by their labels. -/
def renameAttempts : List String := ["overwrite+atomic", "overwrite", "default"]

def fallbackError (w : RemoteWrite) (lastErr error : String) : RemoteWritePhase :=
  .unlink (w.renameFailed (lastErr ++ "; fallback direct write failed: " ++ error))

def openTemp (w : RemoteWrite) (answer : SftpAnswer) (mode : Nat) : RemoteWrite :=
  let opened := if answer.performed then w.truncated w.tmpPath mode else w
  { opened with phase := match answer.error? with
      | some error =>
          .discard ("SFTP error: Cannot create temp file " ++ w.tmpPath ++ ": " ++ error)
      | none => afterWrite w.data }

def openDestination (w : RemoteWrite) (lastErr : String) (answer : SftpAnswer) (mode : Nat) :
    RemoteWrite :=
  let opened := if answer.performed then
    { w.truncated w.resolved mode with overwritten := true } else w
  { opened with phase := match answer.error? with
      | some error =>
          w.fallbackError lastErr ("cannot open destination for direct write: " ++ error)
      | none => afterOverwrite w.data lastErr }

def setstat (w : RemoteWrite) (answer : SftpAnswer) : RemoteWrite :=
  let changed := if answer.performed then
    { w.put w.tmpPath ((w.files w.tmpPath).map fun file => { file with mode := w.destMode }) with
      modeSet := true } else w
  { changed with phase := .rename renameAttempts "" }

def rename (w : RemoteWrite) (label : String) (attempts : List String) (answer : SftpAnswer) :
    Option RemoteWrite :=
  (if answer.performed then w.renamed else some w).map fun moved =>
    { moved with phase := match answer.error?, attempts with
        | none, _ => .unlink (.ok ())
        | some error, [] => .openDestination (label ++ ": " ++ error)
        | some error, attempts => .rename attempts (label ++ ": " ++ error) }

def unlink (w : RemoteWrite) (answer : SftpAnswer) (result : Except String Unit) : RemoteWrite :=
  let removed := if answer.performed then w.put w.tmpPath none else w
  { removed with phase := .over result }

def step (w : RemoteWrite) (move : SftpMove) : Option RemoteWrite :=
  match w.phase, move with
  | .realpath, .realpath path => some { w with resolved := path.getD w.remotePath, phase := .stat }
  | .stat, .stat answered =>
      let perm := if answered then (w.files w.resolved).map RemoteFile.mode else none
      some { w with
        destMode := (perm.map fun perm => perm % 0o1000).getD DEFAULT_REMOTE_FILE_MODE
        phase := .openTemp }
  | .openTemp, .open_ answer mode => some (w.openTemp answer mode)
  | .write left, .write count =>
      some { w.appended w.tmpPath (left.take count) with phase := afterWrite (left.drop count) }
  | .write left, .writeFails count error =>
      some { w.appended w.tmpPath (left.take count) with
        phase := .discard ("SFTP error: Write error on " ++ w.tmpPath ++ ": " ++ error) }
  | .discard error, .unlink answer => some (w.unlink answer (.error error))
  | .setstat, .setstat answer => some (w.setstat answer)
  | .rename (label :: attempts) _, .rename answer => w.rename label attempts answer
  | .openDestination lastErr, .open_ answer mode => some (w.openDestination lastErr answer mode)
  | .overwrite left lastErr, .write count =>
      some { w.appended w.resolved (left.take count) with
        phase := afterOverwrite (left.drop count) lastErr }
  | .overwrite left lastErr, .writeFails count error =>
      some { w.appended w.resolved (left.take count) with
        phase := w.fallbackError lastErr
          ("write error during fallback for " ++ w.resolved ++ ": " ++ error) }
  | .unlink result, .unlink answer => some (w.unlink answer result)
  | _, _ => none

end RemoteWrite

end Fulgur
