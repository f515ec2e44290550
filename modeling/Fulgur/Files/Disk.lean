import Fulgur.Files.Encoding
import Fulgur.State.Persistence

/-! # Paths, files and timestamps

Names are read off a path the way the platform does: empty and `.` components
do not count and `..` has no file name. A disk is what the application can see
of each path at one moment.
-/

namespace Fulgur

def UNTITLED : String := "Untitled"

namespace PathBuf

def components (path : PathBuf) : List (List UInt8) :=
  (path.bytes.splitOn 0x2F).filter fun part => part ≠ [] && part ≠ [0x2E]

/-- `Path::file_name`. -/
def fileName (path : PathBuf) : Option (List UInt8) :=
  path.components.getLast?.filter fun part => part ≠ [0x2E, 0x2E]

/-- `Path::extension`: what follows the last dot, unless the name starts with it. -/
def extension (path : PathBuf) : Option (List UInt8) :=
  path.fileName.bind fun name =>
    let parts := name.splitOn 0x2E
    if parts.length < 2 ∨ parts.dropLast = [[]] then none else parts.getLast?

end PathBuf

def extensionLowercase (path : PathBuf) : Option String :=
  (path.extension.bind fromUtf8).map String.toLower

/-- Whether a file opens directly in log view: only for the `log` extension. -/
def opensAsLogByDefault (path : PathBuf) : Bool := extensionLowercase path = some "log"

/-- What the application sees of one path. -/
structure FileView where
  isPresent : Bool
  /-- The modification time as an RFC 3339 text, when it can be read. -/
  modified : Option String
  canOpen : Bool
  /-- The bytes, when reading to the end succeeds. -/
  contents : Option (List UInt8)
deriving DecidableEq

namespace FileView

def missing : FileView := ⟨false, none, false, none⟩

end FileView

def Disk : Type := PathBuf → FileView

namespace Disk

/-- The disk after the file at `path` was replaced as a whole. -/
def write (disk : Disk) (path : PathBuf) (bytes : List UInt8) (modified : Option String) : Disk :=
  fun other => if other = path then ⟨true, modified, true, some bytes⟩ else disk other

@[simp] theorem contents_write_self (disk : Disk) (path : PathBuf) (bytes : List UInt8)
    (modified : Option String) : (disk.write path bytes modified path).contents = some bytes := by
  simp [write]

theorem write_of_ne (disk : Disk) {path other : PathBuf} (bytes : List UInt8)
    (modified : Option String) (h : other ≠ path) :
    disk.write path bytes modified other = disk other :=
  if_neg h

end Disk

def getFileModifiedTime (disk : Disk) (path : PathBuf) : Option String := (disk path).modified

/-- Compare two RFC 3339 timestamps; a text that does not parse is never newer. -/
def isFileNewer (parse : String → Option Int) (fileTime savedTime : String) : Bool :=
  match parse fileTime, parse savedTime with
  | some file, some saved => saved < file
  | _, _ => false

example : (PathBuf.mk (asBytes "/var/log/./app.LOG")).extension = some (asBytes "LOG") := by decide

/-! ## A small world -/

/-- Timestamps of one clock second. -/
def sampleParse (text : String) : Option Int :=
  if text = "2026-01-01T00:00:00Z" then some 1767225600 else none

/-- A library that knows UTF-8 only. -/
def sampleEncodings : Encodings where
  forLabel label := if eqIgnoreAsciiCase label UTF_8 then some UTF_8 else none
  guess _ := UTF_8
  decode _ bytes := (fromUtf8Lossy bytes, UTF_8, (fromUtf8 bytes).isNone)
  encode _ contents := (asBytes contents, false)

/-- Every path holds the file `a`. -/
def sampleDisk : Disk := fun _ => ⟨true, some "2026-01-01T00:00:00Z", true, some (asBytes "a")⟩

end Fulgur
