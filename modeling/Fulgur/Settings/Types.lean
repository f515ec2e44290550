import Mathlib.Algebra.Order.Ring.Rat
import Fulgur.State.Persistence

/-! # The settings

The editor, application and synchronization settings with their defaults, and
the recent files.
-/

namespace Fulgur

/-- Maximum number of server profiles a user can configure. -/
def MAX_PROFILES : Nat := 16

/-- An `f32`, as far as comparing and clamping it goes. -/
inductive FontSize where
  | finite (value : ℚ)
  | infinite (negative : Bool)
  | nan
deriving DecidableEq

def FontSize.isFinite : FontSize → Bool
  | .finite _ => true
  | _ => false

/-- Configuration for a single Fulgurant sync server. -/
structure ServerProfile where
  id : String
  name : String
  isActive : Bool
  serverUrl : Option String
  email : Option String
  publicKey : Option String
  isDeduplication : Bool
deriving DecidableEq

structure SynchronizationSettings where
  isSynchronizationActivated : Bool
  profiles : List ServerProfile
deriving DecidableEq

def SynchronizationSettings.new : SynchronizationSettings := ⟨false, []⟩

/-- How the Markdown preview is displayed. -/
inductive MarkdownPreviewMode where
  | dedicatedTab
  | panel
deriving DecidableEq

structure MarkdownSettings where
  previewMode : MarkdownPreviewMode
  showMarkdownPreview : Bool
  showMarkdownToolbar : Bool
  limitPreviewWidth : Bool
deriving DecidableEq

def MarkdownSettings.new : MarkdownSettings := ⟨.dedicatedTab, true, false, true⟩

structure EditorSettings where
  showLineNumbers : Bool
  showIndentGuides : Bool
  softWrap : Bool
  fontFamily : String
  fontSize : FontSize
  tabSize : Nat
  markdownSettings : MarkdownSettings
  showWhitespaces : Bool
  watchFiles : Bool
  useSpaces : Bool
  highlightColors : Bool
deriving DecidableEq

def EditorSettings.new : EditorSettings where
  showLineNumbers := true
  showIndentGuides := true
  softWrap := false
  fontFamily := "Monaco"
  fontSize := .finite 14
  tabSize := 4
  markdownSettings := .new
  showWhitespaces := false
  watchFiles := true
  useSpaces := true
  highlightColors := true

/-- How a tab's color tag is shown in the tab bar. -/
inductive TabColorStyle where
  | textColor
  | dot
deriving DecidableEq

structure AppSettings where
  confirmExit : Bool
  debugMode : Bool
  theme : String
  /-- The scrollbar mode of the component library, by its name. -/
  scrollbarShow : Option String
  synchronizationSettings : SynchronizationSettings
  tabColorStyle : TabColorStyle
  persistUnsavedBuffers : Bool
deriving DecidableEq

def AppSettings.new : AppSettings where
  confirmExit := true
  debugMode := false
  theme := "Default Light"
  scrollbarShow := none
  synchronizationSettings := .new
  tabColorStyle := .textColor
  persistUnsavedBuffers := true

structure RecentFiles where
  files : List PathBuf
  maxFiles : Nat
deriving DecidableEq

def RecentFiles.new (maxFiles : Nat) : RecentFiles := ⟨[], maxFiles⟩

structure Settings where
  editorSettings : EditorSettings
  appSettings : AppSettings
  recentFiles : RecentFiles
deriving DecidableEq

def Settings.new : Settings := ⟨.new, .new, .new 10⟩

end Fulgur
