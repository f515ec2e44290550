import Mathlib.Data.Rat.Defs
import Fulgur.Tabs.Content

/-! # The persisted session

The snapshot of every window and its tabs that a save hands to the session
store and that a launch reads back. Credentials are never part of it.
-/

namespace Fulgur

/-- A 32-bit float up to IEEE equality: the two zeros are one value. -/
inductive F32 where
  | finite (value : Rat)
  | infinite (negative : Bool)
  | nan
deriving DecidableEq

namespace F32

/-- IEEE equality, as `PartialEq` derives it: NaN differs from itself. -/
def ieeeEq : F32 → F32 → Bool
  | .nan, _ => false
  | a, b => a = b

def isNumber (value : F32) : Bool := value ≠ .nan

theorem ieeeEq_iff (a b : F32) : ieeeEq a b = true ↔ a ≠ .nan ∧ a = b := by
  cases a <;> simp [ieeeEq]

end F32

/-- Runtime location of a remote file. -/
structure RemoteSpec where
  host : String
  port : UInt16
  user : Option String
  path : String
  passwordInUrl : Option String
deriving DecidableEq

/-- Persisted remote location, without credential material. -/
structure SerializedRemoteSpec where
  host : String
  port : UInt16
  user : String
  path : String
deriving DecidableEq

namespace SerializedRemoteSpec

def fromRemoteSpec (spec : RemoteSpec) : SerializedRemoteSpec where
  host := spec.host
  port := spec.port
  user := spec.user.getD ""
  path := spec.path

/-- An empty or blank user means "prompt user". -/
def toRemoteSpec (spec : SerializedRemoteSpec) : RemoteSpec where
  host := spec.host
  port := spec.port
  user := if isBlank spec.user then none else some spec.user
  path := spec.path
  passwordInUrl := none

end SerializedRemoteSpec

/-- An OS path, as the byte string a Unix `PathBuf` holds. -/
structure PathBuf where
  bytes : List UInt8
deriving DecidableEq

def pathToBytes (path : PathBuf) : List UInt8 := path.bytes

def pathFromBytes (bytes : List UInt8) : PathBuf := ⟨bytes⟩

@[simp] theorem pathFromBytes_pathToBytes (path : PathBuf) :
    pathFromBytes (pathToBytes path) = path := rfl

/-- Persisted state of a single editor tab. -/
structure TabState where
  tabId : Nat
  title : String
  filePath : Option PathBuf
  content : Option TabContent
  lastSaved : Option String
  remote : Option SerializedRemoteSpec
  logView : Bool
  colorTag : Option String
deriving DecidableEq

/-- Window position, size and display state. -/
structure SerializedWindowBounds where
  state : String
  x : F32
  y : F32
  width : F32
  height : F32
  displayId : Option UInt32
deriving DecidableEq

namespace SerializedWindowBounds

def default : SerializedWindowBounds where
  state := "Windowed"
  x := .finite 100
  y := .finite 100
  width := .finite 1200
  height := .finite 800
  displayId := none

def isNumber (bounds : SerializedWindowBounds) : Bool :=
  bounds.x.isNumber && bounds.y.isNumber && bounds.width.isNumber && bounds.height.isNumber

end SerializedWindowBounds

/-- Persisted state of a single application window. -/
structure WindowState where
  windowId : Int
  tabs : List TabState
  activeTabIndex : Option Nat
  windowBounds : SerializedWindowBounds
deriving DecidableEq

/-- Every window to be restored, in restore order. -/
structure WindowsState where
  windows : List WindowState
deriving DecidableEq

/-! ## What a stored session can say

The store keeps buffer text as one string and drops an active index that names
no tab. A snapshot is compared with what is read back up to these two.
-/

namespace TabState

def flatten (tab : TabState) : TabState := { tab with content := tab.content.map .flatten }

end TabState

namespace WindowState

def normalise (window : WindowState) : WindowState where
  windowId := window.windowId
  tabs := window.tabs.map .flatten
  activeTabIndex := window.activeTabIndex.filter (· < window.tabs.length)
  windowBounds := window.windowBounds

@[simp] theorem windowId_normalise (window : WindowState) :
    window.normalise.windowId = window.windowId := rfl

end WindowState

def WindowsState.ids (snapshot : WindowsState) : List Int := snapshot.windows.map (·.windowId)

end Fulgur
