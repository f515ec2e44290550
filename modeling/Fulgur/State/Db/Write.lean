import Fulgur.State.Db.Schema

/-! # Applying a snapshot as per-row changes

`StateDb::apply` walks the snapshot window by window. A window row is written
only when it differs from the stored one; a tab is inserted, rewritten with its
text, updated without it, or skipped, as its stored columns and content
fingerprint say. Tab rows that the snapshot no longer names go last, and after
all windows the rows of the windows this handle wrote before and the snapshot
no longer names.
-/

namespace Fulgur

/-- The persisted identity of a buffer, used to decide whether to rewrite it. -/
structure ContentFingerprint where
  hash : UInt64
  len : Nat
deriving DecidableEq

def ContentFingerprint.ofPair (pair : UInt64 × Nat) : ContentFingerprint := ⟨pair.1, pair.2⟩

/-- A snapshot tab in its comparable persisted form. -/
def storedTabFromSnapshot (tab : TabState) (position : Int) : StoredTab where
  position := position
  title := tab.title
  filePath := tab.filePath.map pathToBytes
  lastSaved := tab.lastSaved
  logView := tab.logView
  colorTag := tab.colorTag
  remoteHost := tab.remote.map (·.host)
  remotePort := tab.remote.map (·.port)
  remoteUser := tab.remote.map (·.user)
  remotePath := tab.remote.map (·.path)

def fingerprintColumns : Option ContentFingerprint → Except String (Option Int × Option Int)
  | none => .ok (none, none)
  | some fingerprint => do
      let len ← i64TryFrom "Content length" fingerprint.len
      return (some (castSigned fingerprint.hash), some len)

/-- The fingerprint held by a stored row; a half or negative one counts as absent. -/
def storedFingerprint (row : TabRow) : Option ContentFingerprint :=
  match row.contentHash, row.contentLen with
  | some hash, some len => (usizeTryFrom len).map fun len => ⟨castUnsigned hash, len⟩
  | _, _ => none

/-- The stored tab of each row of a window, with its fingerprint, by tab id. -/
abbrev StoredTabs := Std.ExtTreeMap Nat (StoredTab × Option ContentFingerprint)

/-- `u64::try_from(id)`: rows whose id is negative are not seen. -/
def storedEntry (row : Int × TabRow) : Option (Nat × StoredTab × Option ContentFingerprint) :=
  if 0 ≤ row.1 then some (row.1.toNat, row.2.stored, storedFingerprint row.2) else none

def readStoredTabs (tables : Tables) (windowId : Int) : StoredTabs :=
  Std.ExtTreeMap.ofList ((tables.tabsOf windowId).filterMap storedEntry)

def tabFingerprint (tab : TabState) : Option ContentFingerprint :=
  tab.content.map fun content => .ofPair content.fingerprint

/-- A failed statement, as `apply` reports it. -/
def failed (what : String) (error : String) : String := "Failed to " ++ what ++ ": " ++ error

def insertTab (tables : Tables) (windowId : Int) (tab : TabState) (desired : StoredTab)
    (fingerprint : Option ContentFingerprint) : Except String Tables := do
  let id ← i64TryFrom "Tab id" tab.tabId
  let (hash, len) ← fingerprintColumns fingerprint
  (tables.upsertTab ⟨windowId, id⟩ ⟨desired, tab.content.map (·.toText), hash, len⟩).mapError
    (failed ("insert tab " ++ toString id))

def updateTab (tables : Tables) (windowId : Int) (tab : TabState) (desired : StoredTab)
    (fingerprint : Option ContentFingerprint) : Except String Tables := do
  let id ← i64TryFrom "Tab id" tab.tabId
  let (hash, len) ← fingerprintColumns fingerprint
  return tables.updateTab ⟨windowId, id⟩ fun _ =>
    ⟨desired, tab.content.map (·.toText), hash, len⟩

def updateTabMetadata (tables : Tables) (windowId : Int) (tabId : Nat) (desired : StoredTab) :
    Except String Tables := do
  let id ← i64TryFrom "Tab id" tabId
  return tables.updateTab ⟨windowId, id⟩ fun row => { row with stored := desired }

/-! ## One window -/

def storedWindowFromSnapshot (window : WindowState) (position : Int) (activeTabId : Option Int) :
    StoredWindow where
  position := position
  activeTabId := activeTabId
  boundsState := window.windowBounds.state
  x := window.windowBounds.x
  y := window.windowBounds.y
  width := window.windowBounds.width
  height := window.windowBounds.height
  displayId := window.windowBounds.displayId

def activeTab (window : WindowState) : Option TabState :=
  window.activeTabIndex.bind fun index => window.tabs[index]?

def activeTabColumn (window : WindowState) : Except String (Option Int) :=
  match activeTab window with
  | none => .ok none
  | some tab => (i64TryFrom "Active tab id" tab.tabId).map some

def applyWindow (tables : Tables) (window : WindowState) (position : Int) (stats : ApplyStats) :
    Except String (Tables × ApplyStats) := do
  let activeTabId ← activeTabColumn window
  let desired := storedWindowFromSnapshot window position activeTabId
  if tables.windows[window.windowId]?.any (·.eq desired) then
    return (tables, stats)
  let tables ← (tables.upsertWindow window.windowId desired).mapError
    (failed ("write window " ++ toString window.windowId))
  return (tables, { stats with windowsWritten := stats.windowsWritten + 1 })

/-- What the tab loop of one window carries: rows not matched yet, tables and counters. -/
structure TabPass where
  existing : StoredTabs
  tables : Tables
  stats : ApplyStats

/-- One round of the tab loop. -/
def applyTab (windowId : Int) (tab : TabState) (position : Nat) (pass : TabPass) :
    Except String TabPass := do
  let position ← i64TryFrom "Tab position" position
  let desired := storedTabFromSnapshot tab position
  let fingerprint := tabFingerprint tab
  let existing := pass.existing.erase tab.tabId
  match pass.existing[tab.tabId]? with
  | none =>
      let tables ← insertTab pass.tables windowId tab desired fingerprint
      return ⟨existing, tables, { pass.stats with tabsInserted := pass.stats.tabsInserted + 1 }⟩
  | some (stored, storedFingerprint) =>
      if storedFingerprint ≠ fingerprint then
        let tables ← updateTab pass.tables windowId tab desired fingerprint
        return ⟨existing, tables,
          { pass.stats with tabsContentWritten := pass.stats.tabsContentWritten + 1 }⟩
      else if stored ≠ desired then
        let tables ← updateTabMetadata pass.tables windowId tab.tabId desired
        return ⟨existing, tables,
          { pass.stats with tabsMetadataUpdated := pass.stats.tabsMetadataUpdated + 1 }⟩
      else
        return ⟨existing, pass.tables, pass.stats⟩

/-- The tab loop, from the given position on. -/
def applyTabList (windowId : Int) : List TabState → Nat → TabPass → Except String TabPass
  | [], _, pass => .ok pass
  | tab :: tabs, position, pass => do
      let pass ← applyTab windowId tab position pass
      applyTabList windowId tabs (position + 1) pass

/-- Delete the rows that the snapshot did not name. -/
def deleteClosedTabs (windowId : Int) :
    List Nat → Tables → ApplyStats → Except String (Tables × ApplyStats)
  | [], tables, stats => .ok (tables, stats)
  | closed :: rest, tables, stats => do
      let id ← i64TryFrom "Tab id" closed
      let (tables, deleted) := tables.deleteTab ⟨windowId, id⟩
      deleteClosedTabs windowId rest tables
        { stats with tabsDeleted := stats.tabsDeleted + deleted }

def applyTabs (tables : Tables) (window : WindowState) (stats : ApplyStats) :
    Except String (Tables × ApplyStats) := do
  let existing := readStoredTabs tables window.windowId
  let pass ← applyTabList window.windowId window.tabs 0 ⟨existing, tables, stats⟩
  deleteClosedTabs window.windowId pass.existing.keys pass.tables pass.stats

/-! ## The snapshot -/

/-- The window loop, from the given position on. -/
def applyWindowList : List WindowState → Nat → Tables → ApplyStats →
    Except String (Tables × ApplyStats)
  | [], _, tables, stats => .ok (tables, stats)
  | window :: windows, position, tables, stats => do
      let row ← i64TryFrom "Window position" position
      let (tables, stats) ← applyWindow tables window row stats
      let (tables, stats) ← applyTabs tables window stats
      applyWindowList windows (position + 1) tables stats

/-- Delete the windows this handle wrote before and the snapshot does not name. -/
def deleteClosedWindows : List Int → Tables → ApplyStats → Tables × ApplyStats
  | [], tables, stats => (tables, stats)
  | closed :: rest, tables, stats =>
      let (tables, deleted) := tables.deleteWindow closed
      deleteClosedWindows rest tables
        { stats with windowsDeleted := stats.windowsDeleted + deleted }

/-- `owned_windows.difference(&present)`. -/
def StateDb.closedWindows (db : StateDb) (snapshot : WindowsState) : List Int :=
  (db.ownedWindows \ Std.ExtTreeSet.ofList snapshot.ids).toList

/-- Persist a snapshot in one transaction: an error leaves the handle as it was. -/
def StateDb.apply (db : StateDb) (snapshot : WindowsState) :
    Except String (StateDb × ApplyStats) := do
  let (tables, stats) ← applyWindowList snapshot.windows 0 db.tables {}
  let (tables, stats) := deleteClosedWindows (db.closedWindows snapshot) tables stats
  return (⟨tables, Std.ExtTreeSet.ofList snapshot.ids⟩, stats)

end Fulgur
