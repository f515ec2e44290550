import Fulgur.Files.FileWatch
import Fulgur.Search.Replace

/-! # The surfaces that edit a tab

A tab keeps its modified flag through a subscription on its content entity.
Typing emits a change event by itself; the CSV table writes its text into the
entity it was built over and emits the event; the search bar writes its text and
emits nothing. A change of language or settings may swap the content entity, and
the tab then subscribes anew.
-/

namespace Fulgur

/-- The grid over a CSV buffer, with the content entity it writes back into. -/
structure CsvTableDelegate where
  content : Nat
  lastCommitHash : Option UInt64
deriving DecidableEq

/-- A running save; a save under a new name also has the encoding it was written in. -/
structure TabSave where
  completion : SaveCompletion
  saveAsEncoding : Option String
deriving DecidableEq

structure LiveTab (Language : Type) where
  tab : EditorTab
  language : Language
  /-- The editor setting that decides whether an entity has a color provider. -/
  highlightColors : Bool
  documentColorProvider : Bool
  content : Nat
  contentSubscription : Option Nat
  nextEntity : Nat
  /-- Every table built so far: a dialog keeps the one it was opened on. -/
  csvTables : List CsvTableDelegate
  inflightSave : Option TabSave
  /-- The text of the saved baseline. -/
  savedText : String
  /-- The text that a failed save goes back to. -/
  previousText : String

namespace LiveTab

variable {Language : Type}

/-! ## The content entity -/

/-- An entity emits a change event, which reaches the tab through its subscription. -/
def emitChange (t : LiveTab Language) (entity : Nat) : LiveTab Language :=
  if t.contentSubscription = some entity then { t with tab := t.tab.onContentChange } else t

/-- Write a text into an entity; one that the tab has let go of is no buffer any more. -/
def setValue (t : LiveTab Language) (entity : Nat) (text : Rope) : LiveTab Language :=
  if entity = t.content then { t with tab.content := text } else t

def attachContentSubscription (t : LiveTab Language) : LiveTab Language :=
  { t with contentSubscription := some t.content }

def reattachIfContentSwapped (t : LiveTab Language) (contentBefore : Nat) : LiveTab Language :=
  if t.content ≠ contentBefore then t.attachContentSubscription else t

def intoEntity (tab : EditorTab) (language : Language) (highlightColors : Bool)
    (savedText : String) : LiveTab Language :=
  attachContentSubscription
    { tab := tab
      language := language
      highlightColors := highlightColors
      documentColorProvider := highlightColors && !tab.largeFile
      content := 0
      contentSubscription := none
      nextEntity := 1
      csvTables := []
      inflightSave := none
      savedText := savedText
      previousText := savedText }

/-- Move the text into a new entity, made by the current settings. -/
def rebuildInputState (t : LiveTab Language) : LiveTab Language :=
  { t with
    documentColorProvider := t.highlightColors && !t.tab.largeFile
    content := t.nextEntity
    nextEntity := t.nextEntity + 1 }

def updateSettings (t : LiveTab Language) (highlightColors : Bool) : LiveTab Language :=
  let updated := { t with highlightColors := highlightColors }
  let wantsProvider := highlightColors && !t.tab.largeFile
  (if t.documentColorProvider ≠ wantsProvider then updated.rebuildInputState else updated
    ).reattachIfContentSwapped t.content

def forceLanguage (t : LiveTab Language) (language : Language) : LiveTab Language :=
  { t with language := language }.rebuildInputState.reattachIfContentSwapped t.content

/-- Detect the language anew; a tab without a local path keeps its own. -/
def updateLanguage [DecidableEq Language] (languageFromContent : String → String → Language)
    (t : LiveTab Language) : LiveTab Language :=
  match t.tab.filePath with
  | none => t
  | some path =>
      let fileName := (path.fileName.bind fromUtf8).getD ""
      let language := languageFromContent fileName t.tab.content.toText
      if language ≠ t.language then t.forceLanguage language else t

def renameEditor [DecidableEq Language] (languageFromContent : String → String → Language)
    (t : LiveTab Language) (name : String) : Option (LiveTab Language) :=
  if t.tab.location = .untitled then
    let renamed := { t with tab.title := name }
    let language := languageFromContent name t.tab.content.toText
    some (if language ≠ t.language then renamed.forceLanguage language else renamed)
  else none

/-! ## User edits -/

/-- Typing into the buffer, or undoing: the entity emits its change event itself. -/
def typeText (t : LiveTab Language) (text : Rope) : LiveTab Language :=
  (t.setValue t.content text).emitChange t.content

/-- Put what the search bar made of the text into the buffer; no event is emitted. -/
def replaceText (t : LiveTab Language) (replaced : Option String) : LiveTab Language :=
  match replaced with
  | none => t
  | some text => t.setValue t.content (.ofText text)

def replaceCurrent (t : LiveTab Language) (bar : SearchBar) : LiveTab Language :=
  t.replaceText (bar.replacedCurrent t.tab.content.toText)

def replaceAll (t : LiveTab Language) (bar : SearchBar) : LiveTab Language :=
  t.replaceText (bar.replacedAll t.tab.content.toText)

def buildCsvTable (t : LiveTab Language) : LiveTab Language :=
  { t with csvTables := t.csvTables ++ [⟨t.content, none⟩] }

/-- Commit the text of an edited table; one that does not serialize is not committed. -/
def commitToBuffer (t : LiveTab Language) (table : Nat) (serialized : Option String) :
    Option (LiveTab Language) :=
  match t.csvTables[table]?, serialized with
  | none, _ => none
  | some _, none => some t
  | some delegate, some text =>
      let committed := { delegate with lastCommitHash := some (contentFingerprintFromStr text).1 }
      some (({ t with csvTables := t.csvTables.set table committed }.setValue delegate.content
        (.ofText text)).emitChange delegate.content)

/-! ## Saves and reloads -/

/-- Dispatch a background save, under a new name or the tab's own. -/
def dispatchSave (t : LiveTab Language) (path : PathBuf) (byteLen : Nat)
    (saveAsEncoding : Option String) : LiveTab Language :=
  if t.inflightSave.isSome then t
  else { t with
    inflightSave := some
      { completion :=
          { tabId := t.tab.id, path := path, byteLen := byteLen,
            previousBaseline := some t.tab.savedBaseline }
        saveAsEncoding := saveAsEncoding }
    tab := t.tab.markAsSaved
    savedText := t.tab.content.toText
    previousText := t.savedText }

def takePlace [DecidableEq Language] (languageFromContent : String → String → Language)
    (t : LiveTab Language) (canonicalPath : PathBuf) (encoding : String) : LiveTab Language :=
  updateLanguage languageFromContent
    { t with
      tab.location := .localPath canonicalPath
      tab.title := (canonicalPath.fileName.bind fromUtf8).getD UNTITLED
      tab.encoding := encoding }

/-- The outcome of a save reaches the UI thread: the path it wrote, or its failure. -/
def finishSave [DecidableEq Language] (languageFromContent : String → String → Language)
    (t : LiveTab Language) (writeResult : Option PathBuf) : Option (LiveTab Language) :=
  match t.inflightSave, writeResult with
  | none, _ => none
  | some save, none => some { t with
      inflightSave := none
      tab := handleFailedSave save.completion t.tab
      savedText := t.previousText }
  | some save, some canonicalPath =>
      let finished := { t with inflightSave := none }
      match save.saveAsEncoding with
      | none => some finished
      | some encoding => some (finished.takePlace languageFromContent canonicalPath encoding)

def finishRemoteSave (t : LiveTab Language) (savedContent : String) : LiveTab Language :=
  let saved := t.tab.setOriginalContentFromStr savedContent
  { t with
    tab := { saved with modified := false }.checkModified
    savedText := savedContent }

def applyReloadedContents [DecidableEq Language] (languageFromContent : String → String → Language)
    (t : LiveTab Language) (decoded : DecodedContents) : LiveTab Language :=
  updateLanguage languageFromContent
    { t with tab := t.tab.applyReload decoded, savedText := decoded.content }

def applyRemoteReload (languageFromContent : String → String → Language) (t : LiveTab Language)
    (result : EditorTab.RemoteFileResult) : LiveTab Language :=
  let reloaded :=
    { t.tab with content := .ofText result.content }.setOriginalContentFromStr result.content
  let title := EditorTab.remoteFileName result.spec.path
  forceLanguage
    { t with
      tab := { reloaded with
        location := .remote result.spec
        encoding := result.encoding
        modified := false
        title := title }
      savedText := result.content }
    (languageFromContent title result.content)

end LiveTab

inductive EditAction (Language : Type) where
  | typeText (text : Rope)
  | replaceCurrent (bar : SearchBar)
  | replaceAll (bar : SearchBar)
  | csvEdit (table : Nat) (serialized : Option String)
  | buildCsvTable
  | save (path : PathBuf) (byteLen : Nat) (saveAsEncoding : Option String)
  | finishSave (writeResult : Option PathBuf)
  | finishRemoteSave (savedContent : String)
  | reload (decoded : DecodedContents)
  | remoteReload (result : EditorTab.RemoteFileResult)
  | updateSettings (highlightColors : Bool)
  | forceLanguage (language : Language)
  | rename (name : String)

def EditAction.isUserEdit {Language : Type} : EditAction Language → Bool
  | .typeText _ => true
  | .replaceCurrent _ => true
  | .replaceAll _ => true
  | .csvEdit _ _ => true
  | _ => false

namespace LiveTab

variable {Language : Type} [DecidableEq Language]

def step (languageFromContent : String → String → Language) (t : LiveTab Language) :
    EditAction Language → Option (LiveTab Language)
  | .typeText text => some (t.typeText text)
  | .replaceCurrent bar => some (t.replaceCurrent bar)
  | .replaceAll bar => some (t.replaceAll bar)
  | .csvEdit table serialized => t.commitToBuffer table serialized
  | .buildCsvTable => some t.buildCsvTable
  | .save path byteLen saveAsEncoding => some (t.dispatchSave path byteLen saveAsEncoding)
  | .finishSave writeResult => t.finishSave languageFromContent writeResult
  | .finishRemoteSave savedContent => some (t.finishRemoteSave savedContent)
  | .reload decoded => some (t.applyReloadedContents languageFromContent decoded)
  | .remoteReload result => some (t.applyRemoteReload languageFromContent result)
  | .updateSettings highlightColors => some (t.updateSettings highlightColors)
  | .forceLanguage language => some (t.forceLanguage language)
  | .rename name => t.renameEditor languageFromContent name

end LiveTab

end Fulgur
