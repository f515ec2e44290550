import Fulgur.Library.Run
import Fulgur.Search.Matching
import Fulgur.Tabs.Transfer
import Mathlib.Data.List.DropRight
import Mathlib.Data.List.Sort
import Mathlib.Data.String.Basic

/-! # The browser for local paths

Below the path that is typed the browser lists the directory it leads to. A change of
the path starts a timer, and the last timer that runs out starts a refresh, whose
listing is shown unless there is a later one. Paths are those of Unix.
-/

namespace Fulgur

/-! ## Paths -/

namespace LocalPath

/-- The components behind the root that count at the end of a path. -/
def trimBack (parts : List (List Char)) : List (List Char) :=
  parts.rdropWhile fun part => part = [] ∨ part = ['.']

def joinParts (parts : List (List Char)) : List Char := List.intercalate ['/'] parts

/-- The start of a path that is not looked at from the end, and the components behind it. -/
def body (path : List Char) : List Char × List (List Char) :=
  match path with
  | '/' :: rest => (['/'], rest.splitOn '/')
  | '.' :: '/' :: rest => (['.'], rest.splitOn '/')
  | ['.'] => (['.'], [])
  | _ => ([], path.splitOn '/')

/-- `Path::parent`. -/
def parent (path : List Char) : Option (List Char) :=
  let (start, parts) := body path
  let parts := trimBack parts
  if parts = [] then (if start = ['.'] then some [] else none)
  else
    let before := trimBack parts.dropLast
    if start = ['.'] ∧ before ≠ [] then some ('.' :: '/' :: joinParts before)
    else some (start ++ joinParts before)

/-- `Path::file_name`. -/
def fileName (path : List Char) : Option (List Char) :=
  (trimBack (body path).2).getLast?.filter fun part => part ≠ ['.', '.']

/-- `Path::join`: an absolute path takes the place of the one before it. -/
def join (base path : List Char) : List Char :=
  if path.head? = some '/' then path
  else if base = [] ∨ base.getLast? = some '/' then base ++ path
  else base ++ '/' :: path

end LocalPath

/-! ## Listings -/

structure DirEntry where
  name : List Char
  isDir : Bool
deriving DecidableEq

/-- What the application sees of the file system at one moment. -/
structure LocalDisk where
  isDir : List Char → Bool
  /-- `read_dir`; entries that cannot be read are not in it. -/
  readDir : List Char → Option (List DirEntry)

structure PathEntry where
  name : List Char
  isDir : Bool
  fullPath : List Char
deriving DecidableEq

/-- What the browser is set up with. -/
structure PathBrowserSetup where
  unicode : Unicode
  home : Option (List Char)

namespace PathBrowserSetup

variable (setup : PathBrowserSetup)

/-- A leading `~` stands for the home directory; `none` where there is none. -/
def expand (trimmed : List Char) : Option (List Char) :=
  match trimmed with
  | ['~'] => setup.home
  | '~' :: '/' :: rest | '~' :: '\\' :: rest => setup.home.map (LocalPath.join · rest)
  | _ => some trimmed

/-- The directory that a path leads to, and how the names in it begin. -/
def parseInputPath (disk : LocalDisk) (raw : String) : Option (List Char × List Char) :=
  let trimmed := (trim raw).toList
  if trimmed = [] then none
  else (setup.expand trimmed).bind fun expanded =>
    if (['/', '.'] <:+ expanded ∨ ['\\', '.'] <:+ expanded) ∧ 2 < byteLen expanded then
      let parent := expanded.dropLast
      if disk.isDir parent then some (parent, ['.']) else none
    else if ['/'] <:+ expanded then (if disk.isDir expanded then some (expanded, []) else none)
    else (LocalPath.parent expanded).bind fun parent =>
      if disk.isDir parent then some (parent, (LocalPath.fileName expanded).getD []) else none

def lower (name : List Char) : String := String.ofList (setup.unicode.strToLowercase name)

/-- Directories come first, and names are compared without case. -/
def precedes (entry other : PathEntry) : Prop :=
  (entry.isDir = true ∧ other.isDir = false) ∨
    (entry.isDir = other.isDir ∧ setup.lower entry.name ≤ setup.lower other.name)

instance : DecidableRel setup.precedes := fun _ _ => inferInstanceAs (Decidable (_ ∨ _))

/-- Whether a name begins with the filter, without case. -/
def matchesFilter (filter name : List Char) : Bool :=
  let filterLower := setup.unicode.strToLowercase filter
  filterLower.isEmpty || filterLower.isPrefixOf (setup.unicode.strToLowercase name)

def matching (entries : List DirEntry) (parent filter : List Char) : List PathEntry :=
  (entries.filter fun entry => setup.matchesFilter filter entry.name).map fun entry =>
    ⟨entry.name, entry.isDir, LocalPath.join parent entry.name⟩

def readAndFilterEntries (disk : LocalDisk) (parent filter : List Char) : List PathEntry :=
  match disk.readDir parent with
  | none => []
  | some entries => ((setup.matching entries parent filter).insertionSort setup.precedes).take 500

/-- What the task of a refresh does in the background. -/
def listing (disk : LocalDisk) (raw : String) : List PathEntry :=
  match setup.parseInputPath disk raw with
  | some (parent, filter) => setup.readAndFilterEntries disk parent filter
  | none => []

end PathBrowserSetup

example : LocalPath.parent "/a//b/.".toList = some "/a".toList := by decide
example : LocalPath.parent "./b".toList = some ".".toList := by decide
example : LocalPath.fileName "/a/..".toList = none := by decide

/-! ## The browser -/

/-- A refresh on the background executor. -/
structure RefreshTask where
  generation : UInt64
  raw : String
  /-- The listing, once the directory was read. -/
  entries : Option (List PathEntry)
deriving DecidableEq

structure PathBrowser where
  input : String
  entries : List PathEntry
  debounceGeneration : UInt64
  refreshGeneration : UInt64
  /-- The generations of the timers that are running. -/
  timers : List UInt64
  /-- The refreshes whose listings have not come back yet. -/
  tasks : List RefreshTask
  disk : LocalDisk
  /-- The file system as the last refresh read it, for the record. -/
  readDisk : Option LocalDisk

inductive PathBrowserAction where
  /-- The path is typed, or an entry of the list is clicked. -/
  | change (path : String)
  | timer (index : Nat)
  | read (index : Nat)
  | arrive (index : Nat)
  /-- Someone changes the file system. -/
  | disk (disk : LocalDisk)

namespace PathBrowser

variable (setup : PathBrowserSetup) (b : PathBrowser)

def scheduleRefresh : PathBrowser :=
  { b with
    debounceGeneration := b.debounceGeneration + 1
    timers := b.timers ++ [b.debounceGeneration + 1] }

def dispatchRefresh : PathBrowser :=
  { b with
    refreshGeneration := b.refreshGeneration + 1
    tasks := b.tasks ++ [⟨b.refreshGeneration + 1, b.input, none⟩]
    readDisk := none }

/-- A browser that opens shows the home directory. -/
def new (disk : LocalDisk) : PathBrowser :=
  dispatchRefresh
    { input := String.ofList ((setup.home.map (· ++ ['/'])).getD [])
      entries := []
      debounceGeneration := 0
      refreshGeneration := 0
      timers := []
      tasks := []
      disk := disk
      readDisk := none }

def readTask (index : Nat) (task : RefreshTask) : PathBrowser :=
  { b with
    tasks := b.tasks.set index { task with entries := some (setup.listing b.disk task.raw) }
    readDisk := if task.generation = b.refreshGeneration then some b.disk else b.readDisk }

def step (b : PathBrowser) : PathBrowserAction → Option PathBrowser
  | .change path => some { b with input := path }.scheduleRefresh
  | .timer index =>
      b.timers[index]?.map fun generation =>
        let fired := { b with timers := b.timers.eraseIdx index }
        if b.debounceGeneration ≠ generation then fired else fired.dispatchRefresh
  | .read index =>
      (b.tasks[index]?.filter fun task => task.entries.isNone).map (b.readTask setup index)
  | .arrive index =>
      b.tasks[index]?.bind fun task => task.entries.map fun entries =>
        let arrived := { b with tasks := b.tasks.eraseIdx index }
        if b.refreshGeneration ≠ task.generation then arrived
        else { arrived with entries := entries }
  | .disk disk => some { b with disk := disk }

end PathBrowser

end Fulgur
