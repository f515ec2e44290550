import Fulgur.Library.Lines
import Fulgur.Sync.SseFraming

/-! # Requests from other instances

A process that finds another one running writes it the paths it was started
with, one on a line, or a command on a line of its own. The listener reads one
connection after the other and queues paths that exist, and commands.
-/

namespace Fulgur

def CMD_PREFIX : String := "CMD:"

/-- What `try_forward_to_existing_instance` writes. -/
def forwardedPaths (paths : List String) : List Char :=
  paths.flatMap fun path => path.toList ++ ['\n']

/-- What `try_send_command_to_existing_instance` writes. -/
def sentCommand (cmd : String) : List Char := (CMD_PREFIX ++ cmd).toList ++ ['\n']

structure IpcQueues where
  pendingFiles : List String
  pendingIpcCommands : List String
deriving DecidableEq

namespace IpcQueues

/-- One line of a connection; `exist` tells which paths exist. -/
def handleLine (exist : String → Bool) (queues : IpcQueues) (line : List Char) : IpcQueues :=
  if line = [] then queues
  else
    match CMD_PREFIX.toList.isPrefixOf line with
    | true => { queues with pendingIpcCommands :=
        queues.pendingIpcCommands ++ [String.ofList (line.drop CMD_PREFIX.length)] }
    | false =>
        if exist (String.ofList line) then
          { queues with pendingFiles := queues.pendingFiles ++ [String.ofList line] }
        else queues

def handleConnection (exist : String → Bool) (queues : IpcQueues) (text : List Char) : IpcQueues :=
  (Lines.read text).foldl (handleLine exist) queues

/-- The lines of a connection that breaks inside a character. -/
def handleBroken (exist : String → Bool) (queues : IpcQueues) (text : List Char) : IpcQueues :=
  (Lines.readEnded text).foldl (handleLine exist) queues

/-! ## What a line is taken for -/

def fileOf (exist : String → Bool) (line : List Char) : Option String :=
  if line ≠ [] ∧ CMD_PREFIX.toList.isPrefixOf line = false ∧ exist (String.ofList line) = true then
    some (String.ofList line)
  else none

def commandOf (line : List Char) : Option String :=
  if CMD_PREFIX.toList.isPrefixOf line = true then
    some (String.ofList (line.drop CMD_PREFIX.length))
  else none

variable {exist : String → Bool}

theorem handleLine_eq (queues : IpcQueues) (line : List Char) :
    handleLine exist queues line = ⟨queues.pendingFiles ++ (fileOf exist line).toList,
      queues.pendingIpcCommands ++ (commandOf line).toList⟩ := by
  unfold handleLine fileOf commandOf
  by_cases hnil : line = []
  · subst hnil
    simp [CMD_PREFIX]
  · cases hcmd : CMD_PREFIX.toList.isPrefixOf line with
    | true => simp [hnil]
    | false =>
        by_cases hexist : exist (String.ofList line) = true
        · simp [hnil, hexist]
        · simp [hnil, hexist]

theorem foldl_handleLine (queues : IpcQueues) (lines : List (List Char)) :
    lines.foldl (handleLine exist) queues =
      ⟨queues.pendingFiles ++ lines.filterMap (fileOf exist),
        queues.pendingIpcCommands ++ lines.filterMap commandOf⟩ := by
  induction lines generalizing queues with
  | nil => simp
  | cons line lines ih =>
      rw [List.foldl_cons, ih, handleLine_eq]
      cases hfile : fileOf exist line <;> cases hcommand : commandOf line <;>
        simp [hfile, hcommand]

theorem handleConnection_eq (queues : IpcQueues) (text : List Char) :
    queues.handleConnection exist text =
      ⟨queues.pendingFiles ++ (Lines.read text).filterMap (fileOf exist),
        queues.pendingIpcCommands ++ (Lines.read text).filterMap commandOf⟩ :=
  foldl_handleLine queues (Lines.read text)

end IpcQueues

open IpcQueues

variable {exist : String → Bool} {queues : IpcQueues} {paths : List String}

/-- A path that a line can carry. -/
structure Forwardable (path : String) : Prop where
  nonempty : path ≠ ""
  oneLine : '\n' ∉ path.toList
  noReturn : path.toList.getLast? ≠ some '\r'
  noCommand : startsWith path CMD_PREFIX = false

theorem toList_ne_nil {text : String} (h : text ≠ "") : text.toList ≠ [] :=
  fun hnil => h (String.toList_eq_nil_iff.mp hnil)

/-- A line is taken for the path it was written for exactly when it can carry it. -/
theorem fileOf_eq_self {path : String} :
    fileOf exist (Lines.dropReturn path.toList) = some path ↔
      path ≠ "" ∧ path.toList.getLast? ≠ some '\r' ∧ startsWith path CMD_PREFIX = false ∧
        exist path = true := by
  constructor
  · intro h
    unfold fileOf at h
    split at h
    · rename_i hline
      have hsame : Lines.dropReturn path.toList = path.toList := by
        have := congrArg String.toList (Option.some.inj h)
        simpa using this
      rw [hsame, String.ofList_toList] at hline
      refine ⟨fun hempty => hline.1 (by simp [hempty]), Lines.dropReturn_eq_self.mp hsame, hline.2⟩
    · cases h
  · intro h
    rw [Lines.dropReturn_eq_self.mpr h.2.1, fileOf, String.ofList_toList]
    exact if_pos ⟨toList_ne_nil h.1, h.2.2⟩

theorem oneLine_of_fileOf {text : List Char} {path : String}
    (h : path ∈ (Lines.read text).filterMap (fileOf exist)) : '\n' ∉ path.toList := by
  obtain ⟨line, hline, hfile⟩ := List.mem_filterMap.mp h
  unfold fileOf at hfile
  split at hfile
  · cases hfile
    simpa using Lines.newline_notMem_read hline
  · cases hfile

theorem read_forwardedPaths (h : ∀ path ∈ paths, '\n' ∉ path.toList) :
    Lines.read (forwardedPaths paths) = paths.map fun path => Lines.dropReturn path.toList := by
  have hlines := @Lines.read_lines (paths.map String.toList) (by simpa using h)
  rw [List.flatMap_map, List.map_map] at hlines
  exact hlines

theorem eq_some_of_filterMap_eq_self {α : Type} {f : α → Option α} {xs : List α}
    (h : xs.filterMap f = xs) : ∀ x ∈ xs, f x = some x := by
  induction xs with
  | nil => simp
  | cons x xs ih =>
      cases hx : f x with
      | none =>
          rw [List.filterMap_cons_none hx] at h
          have hlength := List.length_filterMap_le f xs
          rw [h, List.length_cons] at hlength
          omega
      | some y =>
          rw [List.filterMap_cons_some hx] at h
          obtain ⟨rfl, hrest⟩ := List.cons.inj h
          intro z hz
          cases List.mem_cons.mp hz with
          | inl hsame => exact hsame ▸ hx
          | inr hmem => exact ih hrest z hmem

theorem no_command_of_forwardable {path : String} (h : Forwardable path) {line : List Char}
    (hline : line <+: path.toList) : commandOf line = none := by
  refine if_neg fun hcmd => ?_
  have hprefix := (List.isPrefixOf_iff_prefix.mp hcmd).trans hline
  have hstarts : startsWith path CMD_PREFIX = true := List.isPrefixOf_iff_prefix.mpr hprefix
  rw [h.noCommand] at hstarts
  cases hstarts

/-- Lines that carry their paths are taken for these, and none for a command. -/
theorem filterMap_forwarded (h : ∀ path ∈ paths, Forwardable path ∧ exist path = true) :
    (paths.map fun path => Lines.dropReturn path.toList).filterMap (fileOf exist) = paths ∧
      (paths.map fun path => Lines.dropReturn path.toList).filterMap commandOf = [] := by
  rw [List.filterMap_map, List.filterMap_map]
  constructor
  · have hsame : ∀ path ∈ paths, (fileOf exist ∘ fun path : String =>
        Lines.dropReturn path.toList) path = some path := fun path hpath =>
      fileOf_eq_self.mpr ⟨(h path hpath).1.nonempty, (h path hpath).1.noReturn,
        (h path hpath).1.noCommand, (h path hpath).2⟩
    rw [List.filterMap_congr hsame, List.filterMap_some]
  · refine List.filterMap_eq_nil_iff.mpr fun path hpath => ?_
    have hline := Lines.dropReturn_eq_self.mpr (h path hpath).1.noReturn
    simp only [Function.comp, hline]
    exact no_command_of_forwardable (h path hpath).1 (List.prefix_refl _)

theorem forwarded_iff (exist : String → Bool) (queues : IpcQueues) (paths : List String) :
    queues.handleConnection exist (forwardedPaths paths) =
        ⟨queues.pendingFiles ++ paths, queues.pendingIpcCommands⟩ ↔
      ∀ path ∈ paths, Forwardable path ∧ exist path = true := by
  rw [handleConnection_eq, IpcQueues.mk.injEq, List.append_cancel_left_eq]
  constructor
  · intro h path hpath
    have hone : ∀ path ∈ paths, '\n' ∉ path.toList := by
      intro path hpath
      rw [← h.1] at hpath
      exact oneLine_of_fileOf hpath
    have hfiles := h.1
    rw [read_forwardedPaths hone, List.filterMap_map] at hfiles
    have hline := fileOf_eq_self.mp (eq_some_of_filterMap_eq_self hfiles path hpath)
    exact ⟨⟨hline.1, hone path hpath, hline.2.1, hline.2.2.1⟩, hline.2.2.2⟩
  · intro h
    rw [read_forwardedPaths fun path hpath => (h path hpath).1.oneLine]
    obtain ⟨hfiles, hcommands⟩ := filterMap_forwarded h
    rw [hfiles, hcommands, List.append_nil]
    exact ⟨rfl, rfl⟩

theorem commandOf_sent (cmd : List Char) :
    commandOf (CMD_PREFIX.toList ++ cmd) = some (String.ofList cmd) := by
  have hprefix : CMD_PREFIX.toList.isPrefixOf (CMD_PREFIX.toList ++ cmd) = true :=
    List.isPrefixOf_iff_prefix.mpr (List.prefix_append _ cmd)
  rw [commandOf, if_pos hprefix]
  rfl

theorem fileOf_sent (cmd : List Char) : fileOf exist (CMD_PREFIX.toList ++ cmd) = none := by
  have hprefix : CMD_PREFIX.toList.isPrefixOf (CMD_PREFIX.toList ++ cmd) = true :=
    List.isPrefixOf_iff_prefix.mpr (List.prefix_append _ cmd)
  simp [fileOf, hprefix]

theorem oneLine_of_commandOf {text : List Char} {cmd : String}
    (h : cmd ∈ (Lines.read text).filterMap commandOf) : '\n' ∉ cmd.toList := by
  obtain ⟨line, hline, hcmd⟩ := List.mem_filterMap.mp h
  unfold commandOf at hcmd
  split at hcmd
  · cases hcmd
    rw [String.toList_ofList]
    exact fun hnewline => Lines.newline_notMem_read hline (List.mem_of_mem_drop hnewline)
  · cases hcmd

theorem dropReturn_sent (cmd : List Char) :
    Lines.dropReturn (CMD_PREFIX.toList ++ cmd) = CMD_PREFIX.toList ++ Lines.dropReturn cmd := by
  cases hlast : cmd.getLast? with
  | none =>
      rw [List.getLast?_eq_none_iff.mp hlast]
      rfl
  | some last =>
      have hne : cmd ≠ [] := fun hnil => by simp [hnil] at hlast
      have hboth : (CMD_PREFIX.toList ++ cmd).getLast? = some last := by
        rw [List.getLast?_append, hlast]
        rfl
      unfold Lines.dropReturn
      rw [hboth, hlast, List.dropLast_append_of_ne_nil hne]
      split <;> rfl

theorem sent_command_iff (exist : String → Bool) (queues : IpcQueues) (cmd : String) :
    queues.handleConnection exist (sentCommand cmd) =
        ⟨queues.pendingFiles, queues.pendingIpcCommands ++ [cmd]⟩ ↔
      '\n' ∉ cmd.toList ∧ cmd.toList.getLast? ≠ some '\r' := by
  have hread : '\n' ∉ cmd.toList → Lines.read (sentCommand cmd) =
      [CMD_PREFIX.toList ++ Lines.dropReturn cmd.toList] := by
    intro hone
    have hline : '\n' ∉ CMD_PREFIX.toList ++ cmd.toList :=
      fun hmem => (List.mem_append.mp hmem).elim (by decide) hone
    have hlines := @Lines.read_lines [CMD_PREFIX.toList ++ cmd.toList] (by simpa using hline)
    simpa [sentCommand, dropReturn_sent] using hlines
  have hparts : queues.handleConnection exist (sentCommand cmd) =
      ⟨queues.pendingFiles, queues.pendingIpcCommands ++ [cmd]⟩ ↔
      (Lines.read (sentCommand cmd)).filterMap (fileOf exist) = [] ∧
        (Lines.read (sentCommand cmd)).filterMap commandOf = [cmd] := by
    simp [handleConnection_eq]
  rw [hparts]
  constructor
  · intro h
    have hone : '\n' ∉ cmd.toList := oneLine_of_commandOf (h.2 ▸ List.mem_singleton_self cmd)
    rw [hread hone] at h
    have hcmd := h.2
    rw [List.filterMap_cons_some (commandOf_sent _)] at hcmd
    have hsame := congrArg String.toList (List.cons.inj hcmd).1
    rw [String.toList_ofList] at hsame
    exact ⟨hone, Lines.dropReturn_eq_self.mp hsame⟩
  · intro h
    rw [hread h.1, Lines.dropReturn_eq_self.mpr h.2]
    rw [List.filterMap_cons_some (commandOf_sent _), List.filterMap_cons_none (fileOf_sent _)]
    simp

/-- What a connection that breaks off leaves: the first paths, and perhaps a part of the next. -/
theorem cut_forwarded (exist : String → Bool) (queues : IpcQueues)
    (h : ∀ path ∈ paths, Forwardable path ∧ exist path = true) (n : Nat) :
    ∃ k part, queues.handleBroken exist ((forwardedPaths paths).take n) =
        ⟨queues.pendingFiles ++ paths.take k, queues.pendingIpcCommands⟩ ∧
      queues.handleConnection exist ((forwardedPaths paths).take n) =
        ⟨queues.pendingFiles ++ paths.take k ++ Option.toList part, queues.pendingIpcCommands⟩ ∧
      ∀ file ∈ part, exist file = true ∧ ∃ next, paths[k]? = some next ∧
        file.toList <+: next.toList := by
  have hlines : forwardedPaths paths =
      (paths.map String.toList).flatMap fun line => line ++ ['\n'] := by
    rw [List.flatMap_map]
    rfl
  obtain ⟨k, tail, htake, htail⟩ := @Lines.take_lines (paths.map String.toList) n
  have hone : ∀ line ∈ (paths.map String.toList).take k, '\n' ∉ line := by
    intro line hline
    obtain ⟨path, hpath, rfl⟩ := List.mem_map.mp (List.mem_of_mem_take hline)
    exact (h path hpath).1.oneLine
  -- the tail is part of one path, so it is neither ended nor a command
  have hpart : tail ≠ [] → ∃ next, paths[k]? = some next ∧ tail <+: next.toList := by
    intro hne
    obtain ⟨next, hnext, hprefix⟩ := htail.resolve_left hne
    rw [List.getElem?_map, Option.map_eq_some_iff] at hnext
    obtain ⟨path, hpath, rfl⟩ := hnext
    exact ⟨path, hpath, hprefix⟩
  have htailOne : '\n' ∉ tail := by
    intro hnewline
    obtain ⟨next, hnext, hstarts⟩ := hpart (List.ne_nil_of_mem hnewline)
    exact (h next (List.mem_of_getElem? hnext)).1.oneLine (hstarts.subset hnewline)
  have hsplit := Lines.split_lines hone htailOne
  rw [← htake, ← hlines] at hsplit
  obtain ⟨hfiles, hcommands⟩ :=
    @filterMap_forwarded exist (paths.take k) fun path hpath => h path (List.mem_of_mem_take hpath)
  have hwhole : ((paths.map String.toList).take k).map Lines.dropReturn =
      (paths.take k).map fun path => Lines.dropReturn path.toList := by
    rw [← List.map_take, List.map_map]
    rfl
  refine ⟨k, fileOf exist tail, ?_, ?_, ?_⟩
  · rw [handleBroken, foldl_handleLine, Lines.readEnded, hsplit]
    simp only [hwhole, hfiles, hcommands, List.append_nil]
  · rw [handleConnection_eq, Lines.read, hsplit]
    simp only [hwhole, List.filterMap_append, hfiles, hcommands]
    by_cases hne : tail = []
    · simp [hne, fileOf]
    · obtain ⟨next, hnext, hstarts⟩ := hpart hne
      have hnone := no_command_of_forwardable (h next (List.mem_of_getElem? hnext)).1 hstarts
      cases hfile : fileOf exist tail <;> simp [hne, hfile, hnone]
  · intro file hfile
    have hfile : fileOf exist tail = some file := hfile
    unfold fileOf at hfile
    split at hfile
    · rename_i hline
      cases hfile
      obtain ⟨next, hnext, hstarts⟩ := hpart hline.1
      exact ⟨hline.2.2, next, hnext, by simpa using hstarts⟩
    · cases hfile

/--
Unicode paths that an instance forwards are queued just as they are, and nothing else
is, exactly when all of them exist and none is empty, has a newline or a carriage
return at its end, or begins like a command. A command arrives exactly when it has
no newline and no carriage return at its end. A connection that breaks off leaves
a number of first paths, and if it does not break inside a character perhaps an
existing file whose path the next one begins with.
-/
theorem forwarded_requests (exist : String → Bool) (queues : IpcQueues) (paths : List String) :
    (queues.handleConnection exist (forwardedPaths paths) =
        ⟨queues.pendingFiles ++ paths, queues.pendingIpcCommands⟩ ↔
      ∀ path ∈ paths, Forwardable path ∧ exist path = true) ∧
    (∀ cmd, queues.handleConnection exist (sentCommand cmd) =
        ⟨queues.pendingFiles, queues.pendingIpcCommands ++ [cmd]⟩ ↔
      '\n' ∉ cmd.toList ∧ cmd.toList.getLast? ≠ some '\r') ∧
    ((∀ path ∈ paths, Forwardable path ∧ exist path = true) → ∀ n, ∃ k part,
      queues.handleBroken exist ((forwardedPaths paths).take n) =
        ⟨queues.pendingFiles ++ paths.take k, queues.pendingIpcCommands⟩ ∧
      queues.handleConnection exist ((forwardedPaths paths).take n) =
        ⟨queues.pendingFiles ++ paths.take k ++ Option.toList part, queues.pendingIpcCommands⟩ ∧
      ∀ file ∈ part, exist file = true ∧ ∃ next, paths[k]? = some next ∧
        file.toList <+: next.toList) :=
  ⟨forwarded_iff exist queues paths, sent_command_iff exist queues, cut_forwarded exist queues⟩

/-- The second path is cut where another file is found. -/
theorem forwarded_requests_sample :
    ∃ k part, (IpcQueues.mk [] []).handleConnection (fun _ => true)
        ((forwardedPaths ["/a", "/b.txt"]).take 5) = ⟨["/a", "/b"], []⟩ ∧
      (IpcQueues.mk [] []).handleConnection (fun _ => true)
        ((forwardedPaths ["/a", "/b.txt"]).take 5) =
          ⟨[] ++ ["/a", "/b.txt"].take k ++ Option.toList part, []⟩ := by
  have hforwardable : ∀ path ∈ ["/a", "/b.txt"],
      Forwardable path ∧ (fun _ : String => true) path = true := by
    intro path hpath
    have hcases : path = "/a" ∨ path = "/b.txt" := by simpa using hpath
    cases hcases with
    | inl h => exact h ▸ ⟨⟨by decide, by decide, by decide, by decide⟩, rfl⟩
    | inr h => exact h ▸ ⟨⟨by decide, by decide, by decide, by decide⟩, rfl⟩
  obtain ⟨k, part, -, hcut, -⟩ :=
    (forwarded_requests (fun _ => true) (IpcQueues.mk [] []) ["/a", "/b.txt"]).2.2 hforwardable 5
  exact ⟨k, part, by decide, hcut⟩

end Fulgur
