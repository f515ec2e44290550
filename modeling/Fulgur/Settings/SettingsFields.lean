import Fulgur.Library.Fields
import Fulgur.Settings.Types

/-! # The fields of the settings

Each setting that a window can change is a field of the settings.
-/

namespace Fulgur

inductive SettingsField where
  | showLineNumbers
  | showIndentGuides
  | softWrap
  | fontFamily
  | fontSize
  | tabSize
  | previewMode
  | showMarkdownPreview
  | showMarkdownToolbar
  | limitPreviewWidth
  | showWhitespaces
  | watchFiles
  | useSpaces
  | highlightColors
  | confirmExit
  | debugMode
  | theme
  | scrollbarShow
  | isSynchronizationActivated
  | profiles
  | tabColorStyle
  | persistUnsavedBuffers
  | recentFiles
  | maxRecentFiles
deriving DecidableEq

namespace SettingsField

def Value : SettingsField → Type
  | .fontFamily => String
  | .fontSize => FontSize
  | .tabSize => Nat
  | .previewMode => MarkdownPreviewMode
  | .theme => String
  | .scrollbarShow => Option String
  | .profiles => List ServerProfile
  | .tabColorStyle => TabColorStyle
  | .recentFiles => List PathBuf
  | .maxRecentFiles => Nat
  | _ => Bool

def get (settings : Settings) : (field : SettingsField) → field.Value
  | .showLineNumbers => settings.editorSettings.showLineNumbers
  | .showIndentGuides => settings.editorSettings.showIndentGuides
  | .softWrap => settings.editorSettings.softWrap
  | .fontFamily => settings.editorSettings.fontFamily
  | .fontSize => settings.editorSettings.fontSize
  | .tabSize => settings.editorSettings.tabSize
  | .previewMode => settings.editorSettings.markdownSettings.previewMode
  | .showMarkdownPreview => settings.editorSettings.markdownSettings.showMarkdownPreview
  | .showMarkdownToolbar => settings.editorSettings.markdownSettings.showMarkdownToolbar
  | .limitPreviewWidth => settings.editorSettings.markdownSettings.limitPreviewWidth
  | .showWhitespaces => settings.editorSettings.showWhitespaces
  | .watchFiles => settings.editorSettings.watchFiles
  | .useSpaces => settings.editorSettings.useSpaces
  | .highlightColors => settings.editorSettings.highlightColors
  | .confirmExit => settings.appSettings.confirmExit
  | .debugMode => settings.appSettings.debugMode
  | .theme => settings.appSettings.theme
  | .scrollbarShow => settings.appSettings.scrollbarShow
  | .isSynchronizationActivated =>
      settings.appSettings.synchronizationSettings.isSynchronizationActivated
  | .profiles => settings.appSettings.synchronizationSettings.profiles
  | .tabColorStyle => settings.appSettings.tabColorStyle
  | .persistUnsavedBuffers => settings.appSettings.persistUnsavedBuffers
  | .recentFiles => settings.recentFiles.files
  | .maxRecentFiles => settings.recentFiles.maxFiles

def set (settings : Settings) : (field : SettingsField) → field.Value → Settings
  | .showLineNumbers, value => { settings with editorSettings.showLineNumbers := value }
  | .showIndentGuides, value => { settings with editorSettings.showIndentGuides := value }
  | .softWrap, value => { settings with editorSettings.softWrap := value }
  | .fontFamily, value => { settings with editorSettings.fontFamily := value }
  | .fontSize, value => { settings with editorSettings.fontSize := value }
  | .tabSize, value => { settings with editorSettings.tabSize := value }
  | .previewMode, value => { settings with editorSettings.markdownSettings.previewMode := value }
  | .showMarkdownPreview, value =>
      { settings with editorSettings.markdownSettings.showMarkdownPreview := value }
  | .showMarkdownToolbar, value =>
      { settings with editorSettings.markdownSettings.showMarkdownToolbar := value }
  | .limitPreviewWidth, value =>
      { settings with editorSettings.markdownSettings.limitPreviewWidth := value }
  | .showWhitespaces, value => { settings with editorSettings.showWhitespaces := value }
  | .watchFiles, value => { settings with editorSettings.watchFiles := value }
  | .useSpaces, value => { settings with editorSettings.useSpaces := value }
  | .highlightColors, value => { settings with editorSettings.highlightColors := value }
  | .confirmExit, value => { settings with appSettings.confirmExit := value }
  | .debugMode, value => { settings with appSettings.debugMode := value }
  | .theme, value => { settings with appSettings.theme := value }
  | .scrollbarShow, value => { settings with appSettings.scrollbarShow := value }
  | .isSynchronizationActivated, value =>
      { settings with appSettings.synchronizationSettings.isSynchronizationActivated := value }
  | .profiles, value => { settings with appSettings.synchronizationSettings.profiles := value }
  | .tabColorStyle, value => { settings with appSettings.tabColorStyle := value }
  | .persistUnsavedBuffers, value => { settings with appSettings.persistUnsavedBuffers := value }
  | .recentFiles, value => { settings with recentFiles.files := value }
  | .maxRecentFiles, value => { settings with recentFiles.maxFiles := value }

theorem get_set_self (settings : Settings) (field : SettingsField) (value : field.Value) :
    get (set settings field value) field = value := by
  cases field <;> rfl

theorem get_set_of_ne (settings : Settings) {field other : SettingsField} (value : field.Value)
    (hne : other ≠ field) : get (set settings field value) other = get settings other := by
  cases field <;> cases other <;> first | rfl | exact absurd rfl hne

def build (values : (field : SettingsField) → field.Value) : Settings where
  editorSettings :=
    { showLineNumbers := values .showLineNumbers
      showIndentGuides := values .showIndentGuides
      softWrap := values .softWrap
      fontFamily := values .fontFamily
      fontSize := values .fontSize
      tabSize := values .tabSize
      markdownSettings :=
        { previewMode := values .previewMode
          showMarkdownPreview := values .showMarkdownPreview
          showMarkdownToolbar := values .showMarkdownToolbar
          limitPreviewWidth := values .limitPreviewWidth }
      showWhitespaces := values .showWhitespaces
      watchFiles := values .watchFiles
      useSpaces := values .useSpaces
      highlightColors := values .highlightColors }
  appSettings :=
    { confirmExit := values .confirmExit
      debugMode := values .debugMode
      theme := values .theme
      scrollbarShow := values .scrollbarShow
      synchronizationSettings :=
        { isSynchronizationActivated := values .isSynchronizationActivated
          profiles := values .profiles }
      tabColorStyle := values .tabColorStyle
      persistUnsavedBuffers := values .persistUnsavedBuffers }
  recentFiles := { files := values .recentFiles, maxFiles := values .maxRecentFiles }

theorem build_get (settings : Settings) : build (get settings) = settings := rfl

theorem get_injective {settings other : Settings} (h : get settings = get other) :
    settings = other := by
  rw [← build_get settings, h, build_get]

end SettingsField

def settingsFields : Fields Settings SettingsField SettingsField.Value where
  get := SettingsField.get
  set := SettingsField.set
  get_set settings field value := by
    funext other
    by_cases h : other = field
    · subst h
      rw [Function.update_self, SettingsField.get_set_self]
    · rw [Function.update_of_ne h, SettingsField.get_set_of_ne settings value h]
  ext _ _ h := SettingsField.get_injective h

end Fulgur
