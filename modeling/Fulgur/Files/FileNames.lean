import Fulgur.Library.Delimiters
import Fulgur.Tabs.Transfer

/-! # Names of files from other devices

A name that comes from elsewhere is cut down to its last segment without control
characters. What is left names an entry of whatever directory it is joined to,
except on Windows when it begins with a drive.
-/

namespace Fulgur

open Delimiters

/-- `char::is_control`. -/
def isControl (c : Char) : Bool := c.val ≤ 0x1F || (0x7F ≤ c.val && c.val ≤ 0x9F)

def isSeparator (c : Char) : Bool := c = '/' || c = '\\'

/-- The path with separators of one kind. -/
def normalizeSeparators (filename : List Char) : List Char :=
  filename.map fun c => if c = '\\' then '/' else c

/-- The last component that is not empty. -/
def baseName (filename : List Char) : List Char :=
  (((normalizeSeparators filename).splitOn '/').reverse.find? fun s => s ≠ []).getD []

/-- Only the name itself, without control characters, or else a default name. -/
def sanitizeFilename (filename : String) : String :=
  let sanitized := String.ofList
    (((baseName filename.toList).filter (· ≠ '\x00')).filter fun c => !isControl c)
  if sanitized = ".." ∨ sanitized = "." then "untitled"
  else if trim sanitized = "" then "untitled"
  else sanitized

/-- A name that is safe to join to a directory. -/
structure CleanName (name : String) : Prop where
  notBlank : trim name ≠ ""
  notCurDir : name ≠ "."
  notParentDir : name ≠ ".."
  bare : ∀ c ∈ name.toList, isSeparator c = false
  printable : ∀ c ∈ name.toList, isControl c = false

/-! ## The name that is left -/

theorem cleanName_untitled : CleanName "untitled" where
  notBlank := by decide
  notCurDir := by decide
  notParentDir := by decide
  bare c hc := by
    have hall : "untitled".toList.all (fun c => !isSeparator c) = true := by decide
    simpa using List.all_eq_true.mp hall c hc
  printable c hc := by
    have hall : "untitled".toList.all (fun c => !isControl c) = true := by decide
    simpa using List.all_eq_true.mp hall c hc

/-- The segment of the input is what the name is taken from. -/
theorem baseName_eq {filename before segment after : List Char}
    (h : IsLastSegment isSeparator filename before segment after) :
    baseName filename = segment := by
  have hsame : normalizeSeparators segment = segment := by
    refine (List.map_congr_left fun c hc => ?_).trans (List.map_id segment)
    have hplain := h.segment c hc
    rw [isSeparator, Bool.or_eq_false_iff] at hplain
    exact if_neg (of_decide_eq_false hplain.2)
  have hslash : ∀ c, isSeparator c = true → (if c = '\\' then '/' else c) = '/' := by
    intro c hc
    split
    · rfl
    · rename_i hother
      simpa [isSeparator, hother] using hc
  have hnormalized : IsLastSegment (· = '/') (normalizeSeparators filename)
      (normalizeSeparators before) segment (normalizeSeparators after) := by
    refine ⟨?_, h.nonempty, fun c hc => ?_, fun c hc => ?_, fun c hc => ?_⟩
    · have hparts := congrArg normalizeSeparators h.parts
      unfold normalizeSeparators at hparts hsame ⊢
      rwa [List.map_append, List.map_append, hsame] at hparts
    · have hplain := h.segment c hc
      rw [isSeparator, Bool.or_eq_false_iff] at hplain
      exact hplain.1
    · obtain ⟨d, hd, rfl⟩ := List.mem_map.mp hc
      exact decide_eq_true (hslash d (h.after d hd))
    · rw [normalizeSeparators, List.getLast?_map, Option.mem_def, Option.map_eq_some_iff] at hc
      obtain ⟨d, hd, rfl⟩ := hc
      exact decide_eq_true (hslash d (h.before d hd))
  rw [baseName, hnormalized.find_splitOn]
  rfl

theorem baseName_of_separators {filename : List Char}
    (h : ∀ c ∈ filename, isSeparator c = true) : baseName filename = [] := by
  have hall : ∀ c ∈ normalizeSeparators filename, c = '/' := by
    intro c hc
    obtain ⟨d, hd, rfl⟩ := List.mem_map.mp hc
    split
    · rfl
    · rename_i hother
      simpa [isSeparator, hother] using h d hd
  rw [baseName, find_splitOn_of_delimiters hall]
  rfl

theorem bare_baseName (filename : List Char) : ∀ c ∈ baseName filename, isSeparator c = false := by
  rcases exists_lastSegment isSeparator filename with hall | ⟨before, segment, after, h⟩
  · rw [baseName_of_separators hall]
    exact nofun
  · rw [baseName_eq h]
    exact h.segment

theorem sanitizeFilename_clean (filename : String) : CleanName (sanitizeFilename filename) := by
  unfold sanitizeFilename
  dsimp only
  split
  · exact cleanName_untitled
  · rename_i hdots
    rw [not_or] at hdots
    split
    · exact cleanName_untitled
    · rename_i hblank
      refine ⟨hblank, hdots.2, hdots.1, fun c hc => ?_, fun c hc => ?_⟩
      · rw [String.toList_ofList] at hc
        exact bare_baseName filename.toList c (List.mem_of_mem_filter (List.mem_of_mem_filter hc))
      · rw [String.toList_ofList] at hc
        simpa using (List.mem_filter.mp hc).2

theorem CleanName.lastSegment {name : String} (h : CleanName name) :
    IsLastSegment isSeparator name.toList [] name.toList [] where
  parts := by rw [List.append_nil, List.nil_append]
  nonempty := by
    intro hempty
    have hname : name = "" := String.toList_eq_nil_iff.mp hempty
    exact h.notBlank (by rw [hname]; rfl)
  segment := h.bare
  after := nofun
  before := nofun

theorem sanitizeFilename_unchanged {name : String} (h : CleanName name) :
    sanitizeFilename name = name := by
  have hkept : (name.toList.filter (· ≠ '\x00')).filter (fun c => !isControl c) = name.toList := by
    rw [List.filter_eq_self.mpr, List.filter_eq_self.mpr]
    · intro c hc
      refine decide_eq_true fun hnull => ?_
      have hcontrol := h.printable c hc
      rw [hnull] at hcontrol
      exact nomatch hcontrol
    · intro c hc
      rw [h.printable c (List.mem_of_mem_filter hc)]
      rfl
  unfold sanitizeFilename
  dsimp only
  rw [baseName_eq h.lastSegment, hkept, String.ofList_toList,
    if_neg (not_or.mpr ⟨h.notParentDir, h.notCurDir⟩), if_neg h.notBlank]

/-! ## Joining it to a directory -/

inductive Platform where
  | unix
  | windows
deriving DecidableEq

inductive PathComponent where
  | drive (letter : Char)
  | rootDir
  | curDir
  | parentDir
  | normal (name : String)
deriving DecidableEq

/-- A string without separators, as the last part of a path. -/
structure BareName where
  text : String
  bare : ∀ c ∈ text.toList, isSeparator c = false

/-- The components of a bare name; a dot is one at the start of a path only. -/
def bareComponents (isFirst : Bool) (text : List Char) : List PathComponent :=
  if text = [] then []
  else if text = ['.'] then if isFirst then [.curDir] else []
  else if text = ['.', '.'] then [.parentDir]
  else [.normal (String.ofList text)]

/-- The drive that a path begins with, and what follows it. -/
def driveOf : Platform → List Char → Option (Char × List Char)
  | .windows, letter :: ':' :: rest => if letter.isAlpha then some (letter, rest) else none
  | _, _ => none

/-- `Path::join`: a path with a drive replaces the directory. -/
def joinPath (platform : Platform) (directory : List PathComponent) (name : BareName) :
    List PathComponent :=
  match driveOf platform name.text.toList with
  | some (letter, rest) => .drive letter :: bareComponents true rest
  | none => directory ++ bareComponents (directory = []) name.text.toList

def sanitizedName (filename : String) : BareName :=
  ⟨sanitizeFilename filename, (sanitizeFilename_clean filename).bare⟩

/-- The last segment of a file name begins with a drive, control characters aside. -/
def DriveNamed (filename : String) : Prop :=
  ∃ before segment after, IsLastSegment isSeparator filename.toList before segment after ∧
    ∃ letter rest, segment.filter (fun c => !isControl c) = letter :: ':' :: rest ∧
      letter.isAlpha = true

/-- What the name of a file is sanitized for. -/
structure Sanitized (platform : Platform) (filename : String) : Prop where
  clean : CleanName (sanitizeFilename filename)
  inside : ∀ directory, joinPath platform directory (sanitizedName filename) =
    directory ++ [.normal (sanitizeFilename filename)]
  unchanged : CleanName filename → sanitizeFilename filename = filename
  idempotent : sanitizeFilename (sanitizeFilename filename) = sanitizeFilename filename

@[simp] theorem text_sanitizedName (filename : String) :
    (sanitizedName filename).text = sanitizeFilename filename := by
  rw [sanitizedName]

theorem CleanName.bareComponents {name : String} (h : CleanName name) (isFirst : Bool) :
    bareComponents isFirst name.toList = [.normal name] := by
  have hofList : ∀ text : List Char, name.toList = text → name = String.ofList text :=
    fun text htext => by rw [← htext, String.ofList_toList]
  unfold Fulgur.bareComponents
  rw [if_neg h.lastSegment.nonempty, if_neg fun hdot => h.notCurDir (hofList _ hdot),
    if_neg fun hdots => h.notParentDir (hofList _ hdots), String.ofList_toList]

theorem inside_iff {platform : Platform} {filename : String} :
    (∀ directory, joinPath platform directory (sanitizedName filename) =
      directory ++ [.normal (sanitizeFilename filename)]) ↔
      driveOf platform (sanitizeFilename filename).toList = none := by
  constructor
  · intro hinside
    have hroot := hinside [.rootDir]
    simp only [joinPath, text_sanitizedName] at hroot
    split at hroot
    · cases hroot
    · assumption
  · intro hnone directory
    simp only [joinPath, text_sanitizedName, hnone]
    rw [(sanitizeFilename_clean filename).bareComponents]

theorem driveOf_eq_none_iff {platform : Platform} {text : List Char} :
    driveOf platform text = none ↔
      platform = .unix ∨ ¬∃ letter rest, text = letter :: ':' :: rest ∧ letter.isAlpha = true := by
  unfold driveOf
  split
  · rename_i letter rest
    split
    · rename_i halpha
      exact iff_of_false nofun (by simp [halpha])
    · rename_i hother
      exact iff_of_true rfl (by simp [hother])
  · rename_i hother
    refine iff_of_true rfl ?_
    cases platform with
    | unix => exact Or.inl rfl
    | windows =>
        refine Or.inr ?_
        rintro ⟨letter, rest, rfl, -⟩
        exact hother letter rest rfl rfl

theorem filter_null (text : List Char) :
    (text.filter (· ≠ '\x00')).filter (fun c => !isControl c) =
      text.filter fun c => !isControl c := by
  rw [List.filter_filter]
  refine List.filter_congr fun c _ => ?_
  by_cases hnull : c = '\x00'
  · subst hnull
    rfl
  · simp [hnull]

theorem not_isWhiteSpace_of_isAlpha {letter : Char} (halpha : letter.isAlpha = true) :
    isWhiteSpace letter = false := by
  have hrange : (65 ≤ letter.toNat ∧ letter.toNat ≤ 90) ∨
      97 ≤ letter.toNat ∧ letter.toNat ≤ 122 := by
    have hletter : (decide (letter.val ≥ 65 ∧ letter.val ≤ 90) ||
        decide (letter.val ≥ 97) && decide (letter.val ≤ 122)) = true := halpha
    simpa [UInt32.le_iff_toNat_le] using hletter
  simp only [isWhiteSpace, List.contains_eq_mem, List.mem_cons, UInt32.le_iff_toNat_le,
    ← UInt32.toNat_inj]
  simp
  omega

theorem trim_ne_empty {text : String} {letter : Char} (hmem : letter ∈ text.toList)
    (halpha : letter.isAlpha = true) : trim text ≠ "" := by
  intro hblank
  have hwhite : ∀ c ∈ text.toList, isWhiteSpace c = true := by
    have hdropped : (text.toList.dropWhile isWhiteSpace).reverse.dropWhile isWhiteSpace = [] :=
      List.reverse_eq_nil_iff.mp (String.ofList_eq_empty_iff.mp hblank)
    rw [List.dropWhile_eq_nil_iff] at hdropped
    intro c hc
    rw [← List.takeWhile_append_dropWhile (p := isWhiteSpace) (l := text.toList)] at hc
    rcases List.mem_append.mp hc with htaken | hleft
    · exact List.mem_takeWhile_imp htaken
    · exact hdropped c (List.mem_reverse.mpr hleft)
  exact Bool.false_ne_true ((not_isWhiteSpace_of_isAlpha halpha).symm.trans (hwhite letter hmem))

theorem untitled_ne {letter : Char} {rest : List Char} :
    "untitled".toList ≠ letter :: ':' :: rest := by
  intro h
  have hsecond : "untitled".toList[1]? = some ':' := by
    rw [h]
    rfl
  exact absurd hsecond (by decide)

/-- What is left of a name with a drive is the name with the drive. -/
theorem sanitizeFilename_drive {filename : String} :
    (∃ letter rest, (sanitizeFilename filename).toList = letter :: ':' :: rest ∧
      letter.isAlpha = true) ↔ DriveNamed filename := by
  constructor
  · rintro ⟨letter, rest, hname, halpha⟩
    unfold sanitizeFilename at hname
    dsimp only at hname
    split at hname
    · exact absurd hname untitled_ne
    · split at hname
      · exact absurd hname untitled_ne
      · rw [String.toList_ofList, filter_null] at hname
        rcases exists_lastSegment isSeparator filename.toList with hall |
          ⟨before, segment, after, h⟩
        · rw [baseName_of_separators hall] at hname
          exact nomatch hname
        · rw [baseName_eq h] at hname
          exact ⟨before, segment, after, h, letter, rest, hname, halpha⟩
  · rintro ⟨before, segment, after, h, letter, rest, hname, halpha⟩
    refine ⟨letter, rest, ?_, halpha⟩
    have hletter : letter ∈ (String.ofList (letter :: ':' :: rest)).toList := by
      rw [String.toList_ofList]
      exact List.mem_cons_self
    have hdots : ¬(String.ofList (letter :: ':' :: rest) = ".." ∨
        String.ofList (letter :: ':' :: rest) = ".") := by
      rw [← String.toList_inj, ← String.toList_inj, String.toList_ofList]
      rintro (hdots | hdots)
      · exact absurd (List.cons.inj (List.cons.inj hdots).2).1 (by decide)
      · exact absurd (List.cons.inj hdots).2 (List.cons_ne_nil _ _)
    unfold sanitizeFilename
    dsimp only
    rw [filter_null, baseName_eq h, hname, if_neg hdots, if_neg (trim_ne_empty hletter halpha),
      String.toList_ofList]

/--
Of any string, a clean name is left, and of a clean name the name itself. Joined to
a directory it names an entry of it, unless the last segment of the string begins
with a drive on Windows: then the directory is replaced.
-/
theorem file_names_sanitized (platform : Platform) (filename : String) :
    (CleanName (sanitizeFilename filename) ∧
      (CleanName filename → sanitizeFilename filename = filename) ∧
      sanitizeFilename (sanitizeFilename filename) = sanitizeFilename filename) ∧
    (Sanitized platform filename ↔ platform = .unix ∨ ¬DriveNamed filename) := by
  have hclean := sanitizeFilename_clean filename
  have hidempotent := sanitizeFilename_unchanged hclean
  refine ⟨⟨hclean, sanitizeFilename_unchanged, hidempotent⟩, ?_⟩
  rw [← sanitizeFilename_drive, ← driveOf_eq_none_iff, ← inside_iff]
  exact ⟨Sanitized.inside, fun hinside =>
    ⟨hclean, hinside, sanitizeFilename_unchanged, hidempotent⟩⟩

/-- On Windows a name with a drive goes where the drive is. -/
theorem drive_name_leaves :
    ¬∀ platform filename, Sanitized platform filename := by
  intro hall
  have hinside := (hall .windows "share/C:evil.txt").inside [.drive 'D', .rootDir]
  exact absurd hinside (by decide)

end Fulgur
