import Fulgur.Library.Listing
import Fulgur.State.Db.Schema

/-! # Reading the session back

Windows are listed by position and id, the tabs of each window likewise, and
the active tab is found again by its identity.
-/

namespace Fulgur

def windowBoundsFromRow (row : StoredWindow) : SerializedWindowBounds where
  state := row.boundsState
  x := row.x
  y := row.y
  width := row.width
  height := row.height
  displayId := row.displayId

def remoteFromRow (row : StoredTab) : Except String (Option SerializedRemoteSpec) :=
  match row.remoteHost with
  | none => .ok none
  | some host =>
      match row.remotePort with
      | none => .error ("Failed to decode a persisted tab: " ++
          "Invalid column type Null at index: 8, name: remote_port")
      | some port => .ok (some ⟨host, port, row.remoteUser.getD "", row.remotePath.getD ""⟩)

/-- Decode one tab row; a negative id reads as zero, as `Int.toNat` has it. -/
def tabStateFromRow (row : Int × TabRow) : Except String TabState := do
  let remote ← remoteFromRow row.2.stored
  return {
    tabId := row.1.toNat
    title := row.2.stored.title
    filePath := row.2.stored.filePath.map pathFromBytes
    content := row.2.content.map .text
    lastSaved := row.2.stored.lastSaved
    remote := remote
    logView := row.2.stored.logView
    colorTag := row.2.stored.colorTag }

def loadTabs (tables : Tables) (windowId : Int) : Except String (List TabState) :=
  (Listing.orderBy (·.stored.position) (tables.tabsOf windowId)).mapM tabStateFromRow

/-- The position of the active tab among the loaded tabs. -/
def activeIndex (activeTabId : Option Int) (tabs : List TabState) : Option Nat :=
  activeTabId.bind fun active =>
    (usizeTryFrom active).bind fun active => tabs.findIdx? fun tab => tab.tabId = active

def loadWindow (tables : Tables) (row : Int × StoredWindow) : Except String WindowState := do
  let tabs ← loadTabs tables row.1
  return {
    windowId := row.1
    tabs := tabs
    activeTabIndex := activeIndex row.2.activeTabId tabs
    windowBounds := windowBoundsFromRow row.2 }

/-- Every persisted window, in restore order, with its tabs. -/
def StateDb.load (db : StateDb) : Except String WindowsState := do
  let windows ←
    (Listing.orderBy (·.position) db.tables.windows.toList).mapM (loadWindow db.tables)
  return ⟨windows⟩

end Fulgur
