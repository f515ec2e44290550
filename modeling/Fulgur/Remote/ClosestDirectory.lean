import Fulgur.Remote.UrlRoundTrip
import Mathlib.Data.List.DropRight

/-! # The closest directory on the remote host

From a path that the user typed, the browser goes up until it comes to a directory.
Each candidate is normalized again before it is inspected, which cuts off white
space at its end; a candidate without any is what is inspected.
-/

namespace Fulgur

open Delimiters

/-! ## Paths -/

theorem toList_root : REMOTE_ROOT_PATH.toList = ['/'] := by decide

def normalizeRemotePath (path : String) : String :=
  let trimmed := trim path
  if trimmed = "" then REMOTE_ROOT_PATH
  else if trimmed = "~" ∨ ['~', '/'] <+: trimmed.toList then trimmed
  else
    let slashes := trimmed.toList.map fun c => if c = '\\' then '/' else c
    if REMOTE_ROOT_PATH.toList <+: slashes then String.ofList slashes
    else String.ofList (REMOTE_ROOT_PATH.toList ++ slashes)

/-- `trim_end_matches` with a slash. -/
def trimSlashes (path : List Char) : List Char := path.rdropWhile (· = '/')

def parentRemotePath (path : String) : String :=
  let trimmed := trimSlashes path.toList
  if trimmed = [] ∨ trimmed = ['/'] then REMOTE_ROOT_PATH
  else match splitLast '/' trimmed with
    | none => REMOTE_ROOT_PATH
    | some (before, _) => if before = [] then REMOTE_ROOT_PATH else String.ofList before

def joinRemotePath (directory name : String) : String :=
  let directory := normalizeRemotePath directory
  if directory = REMOTE_ROOT_PATH then REMOTE_ROOT_PATH ++ name
  else String.ofList (trimSlashes directory.toList) ++ "/" ++ name

/-! ## The remote file system -/

inductive RemotePathKind where
  | file
  | directory
  | missing
deriving DecidableEq

/-- The code of an error of the SSH library. -/
inductive ErrorCode where
  | session (code : Int)
  | sftp (code : Int)
deriving DecidableEq

structure SftpFailure where
  code : ErrorCode
  text : String

/-- What the session answers about paths; a server may omit the mode bits. -/
structure SftpSession where
  stat : String → Except SftpFailure (Option UInt32)
  opendir : String → Bool

def SftpSession.kindAt (session : SftpSession) (path : String) : Except String RemotePathKind :=
  match session.stat path with
  | .ok (some perm) =>
      if perm &&& 0o170000 = 0o040000 then .ok .directory else .ok .file
  | .ok none => if session.opendir path then .ok .directory else .ok .file
  | .error err =>
      if err.code = .sftp 2 then .ok .missing
      else .error ("Cannot inspect " ++ path ++ ": " ++ err.text)

def classifyRemotePath (session : SftpSession) (remotePath : String) :
    Except String RemotePathKind :=
  session.kindAt (normalizeRemotePath remotePath)

/-! ## Going up -/

def stepsLeft (candidate : String) : Nat :=
  if candidate = REMOTE_ROOT_PATH then 0 else candidate.toList.length + 1

/-- The parent is a part of the path, or the root. -/
theorem parentRemotePath_cases (path : String) :
    parentRemotePath path = REMOTE_ROOT_PATH ∨
      ∃ before after slashes, path.toList = before ++ '/' :: (after ++ slashes) ∧ before ≠ [] ∧
        parentRemotePath path = String.ofList before := by
  unfold parentRemotePath
  dsimp only
  split
  · exact Or.inl rfl
  · split
    · exact Or.inl rfl
    · rename_i before after hsplit
      split
      · exact Or.inl rfl
      · rename_i hbefore
        refine Or.inr ⟨before, after, path.toList.rtakeWhile (· = '/'), ?_, hbefore, rfl⟩
        have hparts := (splitLast_eq_some hsplit).1
        rw [← List.cons_append, ← List.append_assoc, ← hparts, trimSlashes,
          List.rdropWhile_append_rtakeWhile]

theorem stepsLeft_parent {candidate : String} (hroot : candidate ≠ REMOTE_ROOT_PATH) :
    stepsLeft (parentRemotePath candidate) < stepsLeft candidate := by
  rcases parentRemotePath_cases candidate with hparent | ⟨before, after, slashes, hpath, -, hparent⟩
  · rw [hparent, stepsLeft, stepsLeft, if_pos rfl, if_neg hroot]
    exact Nat.succ_pos _
  · rw [hparent, stepsLeft, stepsLeft, if_neg hroot, hpath, String.toList_ofList,
      List.length_append, List.length_cons]
    split <;> omega

/-- The loop of `closest_existing_remote_directory`. -/
def closestFrom (session : SftpSession) (candidate : String) : Except String String :=
  match classifyRemotePath session candidate with
  | .error err => .error err
  | .ok .directory => .ok candidate
  | .ok _ =>
      if candidate = REMOTE_ROOT_PATH then .ok REMOTE_ROOT_PATH
      else closestFrom session (parentRemotePath candidate)
termination_by stepsLeft candidate
decreasing_by exact stepsLeft_parent ‹_›

def closestExistingRemoteDirectory (session : SftpSession) (path : String) :
    Except String String :=
  closestFrom session (normalizeRemotePath path)

def candidatesFrom (candidate : String) : List String :=
  if candidate = REMOTE_ROOT_PATH then [candidate]
  else candidate :: candidatesFrom (parentRemotePath candidate)
termination_by stepsLeft candidate
decreasing_by exact stepsLeft_parent ‹_›

def parentChain (path : String) : List String := candidatesFrom (normalizeRemotePath path)

theorem candidatesFrom_root : candidatesFrom REMOTE_ROOT_PATH = [REMOTE_ROOT_PATH] := by
  rw [candidatesFrom, if_pos rfl]

theorem candidatesFrom_of_ne {candidate : String} (hroot : candidate ≠ REMOTE_ROOT_PATH) :
    candidatesFrom candidate = candidate :: candidatesFrom (parentRemotePath candidate) := by
  rw [candidatesFrom, if_neg hroot]

theorem exists_candidatesFrom (candidate : String) :
    ∃ below, candidatesFrom candidate = below ++ [REMOTE_ROOT_PATH] := by
  fun_induction candidatesFrom candidate with
  | case1 => exact ⟨[], rfl⟩
  | case2 candidate _ ih =>
      obtain ⟨below, hbelow⟩ := ih
      exact ⟨candidate :: below, by rw [hbelow, List.cons_append]⟩

theorem length_candidatesFrom (candidate : String) :
    (candidatesFrom candidate).length ≤ stepsLeft candidate + 1 := by
  fun_induction candidatesFrom candidate with
  | case1 => exact Nat.succ_le_succ (Nat.zero_le _)
  | case2 candidate hroot ih =>
      have hless := stepsLeft_parent hroot
      rw [List.length_cons]
      omega

theorem forall_candidatesFrom {P : String → Prop} (hroot : P REMOTE_ROOT_PATH)
    (hparent : ∀ candidate, P candidate → P (parentRemotePath candidate)) {candidate : String}
    (h : P candidate) : ∀ c ∈ candidatesFrom candidate, P c := by
  fun_induction candidatesFrom candidate with
  | case1 => simpa using hroot
  | case2 candidate _ ih => exact List.forall_mem_cons.mpr ⟨h, ih (hparent candidate h)⟩

def endsSearch : Except String RemotePathKind → Bool
  | .error _ => true
  | .ok kind => kind = .directory

def searchResult (inspect : String → Except String RemotePathKind) :
    List String → Except String String
  | [] => .ok REMOTE_ROOT_PATH
  | candidate :: rest =>
      if endsSearch (inspect candidate) then (inspect candidate).map fun _ => candidate
      else searchResult inspect rest

section SearchResult

variable {inspect : String → Except String RemotePathKind} {candidates : List String}

theorem endsSearch_cases {answer : Except String RemotePathKind} (h : endsSearch answer = true) :
    answer = .ok .directory ∨ ∃ err, answer = .error err := by
  cases answer with
  | error err => exact Or.inr ⟨err, rfl⟩
  | ok kind => exact Or.inl (congrArg Except.ok (of_decide_eq_true h))

theorem not_directory {answer : Except String RemotePathKind} (h : ¬endsSearch answer = true) :
    answer ≠ .ok .directory := by
  rintro rfl
  exact h rfl

theorem searchResult_of_ends {candidate : String} (h : endsSearch (inspect candidate) = true)
    (rest : List String) :
    searchResult inspect (candidate :: rest) = (inspect candidate).map fun _ => candidate := by
  rw [searchResult, if_pos h]

theorem searchResult_of_goesOn {candidate : String} (h : ¬endsSearch (inspect candidate) = true)
    (rest : List String) :
    searchResult inspect (candidate :: rest) = searchResult inspect rest := by
  rw [searchResult, if_neg h]

theorem searchResult_congr {inspect' : String → Except String RemotePathKind}
    (h : ∀ c ∈ candidates, inspect c = inspect' c) :
    searchResult inspect candidates = searchResult inspect' candidates := by
  induction candidates with
  | nil => rfl
  | cons candidate rest ih =>
      have hfirst := h candidate List.mem_cons_self
      have hrest := ih fun c hc => h c (List.mem_cons_of_mem candidate hc)
      by_cases hends : endsSearch (inspect candidate) = true
      · rw [searchResult_of_ends hends, searchResult_of_ends (hfirst ▸ hends), hfirst]
      · rw [searchResult_of_goesOn hends, searchResult_of_goesOn (hfirst ▸ hends), hrest]

/-- What is found is the root or a directory, and no candidate before it is a directory. -/
theorem searchResult_ok {below : List String} {p : String}
    (h : searchResult inspect (below ++ [REMOTE_ROOT_PATH]) = .ok p) :
    (p = REMOTE_ROOT_PATH ∨ inspect p = .ok .directory) ∧
      ∃ before after, below ++ [REMOTE_ROOT_PATH] = before ++ p :: after ∧
        ∀ c ∈ before, inspect c ≠ .ok .directory := by
  induction below with
  | nil =>
      have hroot : p = REMOTE_ROOT_PATH := by
        by_cases hends : endsSearch (inspect REMOTE_ROOT_PATH) = true
        · rw [List.nil_append, searchResult_of_ends hends] at h
          rcases endsSearch_cases hends with hdirectory | ⟨err, herr⟩
          · rw [hdirectory] at h
            cases h
            rfl
          · rw [herr] at h
            cases h
        · rw [List.nil_append, searchResult_of_goesOn hends] at h
          cases h
          rfl
      exact ⟨Or.inl hroot, [], [], by rw [hroot], nofun⟩
  | cons candidate below ih =>
      rw [List.cons_append] at h ⊢
      by_cases hends : endsSearch (inspect candidate) = true
      · rw [searchResult_of_ends hends] at h
        rcases endsSearch_cases hends with hdirectory | ⟨err, herr⟩
        · rw [hdirectory] at h
          cases h
          exact ⟨Or.inr hdirectory, [], _, rfl, nofun⟩
        · rw [herr] at h
          cases h
      · rw [searchResult_of_goesOn hends] at h
        obtain ⟨hp, before, after, hparts, hbefore⟩ := ih h
        refine ⟨hp, candidate :: before, after, by rw [hparts, List.cons_append], ?_⟩
        exact List.forall_mem_cons.mpr ⟨not_directory hends, hbefore⟩

theorem searchResult_error_iff {err : String} :
    searchResult inspect candidates = .error err ↔
      (candidates.map inspect).find? endsSearch = some (.error err) := by
  induction candidates with
  | nil => exact iff_of_false nofun nofun
  | cons candidate rest ih =>
      rw [List.map_cons]
      by_cases hends : endsSearch (inspect candidate) = true
      · rw [searchResult_of_ends hends, List.find?_cons_of_pos hends, Option.some.injEq]
        rcases endsSearch_cases hends with hdirectory | ⟨other, hother⟩
        · rw [hdirectory]
          exact iff_of_false nofun nofun
        · rw [hother]
          exact Iff.intro (fun h => by cases h; rfl) (fun h => by cases h; rfl)
      · rw [searchResult_of_goesOn hends, List.find?_cons_of_neg hends, ih]

end SearchResult

/-- The loop searches the candidates, each as it classifies it. -/
theorem closestFrom_eq (session : SftpSession) (candidate : String) :
    closestFrom session candidate =
      searchResult (classifyRemotePath session) (candidatesFrom candidate) := by
  fun_induction closestFrom session candidate with
  | case1 candidate err herr =>
      have hends : endsSearch (classifyRemotePath session candidate) = true := by
        rw [herr]
        rfl
      rw [candidatesFrom]
      split <;>
        · rw [searchResult_of_ends hends, herr]
          rfl
  | case2 candidate hdirectory =>
      have hends : endsSearch (classifyRemotePath session candidate) = true := by
        rw [hdirectory]
        rfl
      rw [candidatesFrom]
      split <;>
        · rw [searchResult_of_ends hends, hdirectory]
          rfl
  | case3 kind hother hkind =>
      have hgoes : ¬endsSearch (classifyRemotePath session REMOTE_ROOT_PATH) = true := by
        rw [hkind]
        simpa [endsSearch] using hother
      rw [candidatesFrom_root, searchResult_of_goesOn hgoes]
      rfl
  | case4 candidate kind hother hkind hroot ih =>
      have hgoes : ¬endsSearch (classifyRemotePath session candidate) = true := by
        rw [hkind]
        simpa [endsSearch] using hother
      rw [ih, candidatesFrom_of_ne hroot, searchResult_of_goesOn hgoes]

/-! ## Normal paths -/

/-- A path as the normalization leaves it, but for white space at its end. -/
def Rooted (path : String) : Prop :=
  path = "~" ∨ ['~', '/'] <+: path.toList ∨
    ['/'] <+: path.toList ∧ '\\' ∉ path.toList

theorem rooted_root : Rooted REMOTE_ROOT_PATH := by
  rw [Rooted, toList_root]
  exact Or.inr (Or.inr ⟨List.prefix_rfl, by decide⟩)

theorem Rooted.parent {path : String} (h : Rooted path) : Rooted (parentRemotePath path) := by
  rcases parentRemotePath_cases path with
    hparent | ⟨before, after, slashes, hpath, hbefore, hparent⟩
  · rw [hparent]
    exact rooted_root
  · -- the parent is a part that begins as the path does
    obtain ⟨first, rest, rfl⟩ := List.exists_cons_of_ne_nil hbefore
    rw [hparent]
    unfold Rooted
    rw [String.toList_ofList]
    rcases h with rfl | hhome | ⟨hroot, hplain⟩
    · exact absurd (congrArg List.length hpath) (by simp)
    · rw [hpath] at hhome
      cases rest with
      | nil =>
          obtain rfl : '~' = first := (List.cons_prefix_cons.mp hhome).1
          exact Or.inl rfl
      | cons second rest =>
          refine Or.inr (Or.inl ?_)
          obtain ⟨rfl, hrest⟩ := List.cons_prefix_cons.mp hhome
          obtain ⟨rfl, -⟩ := List.cons_prefix_cons.mp hrest
          exact ⟨rest, rfl⟩
    · rw [hpath] at hroot hplain
      obtain ⟨rfl, -⟩ := List.cons_prefix_cons.mp hroot
      exact Or.inr (Or.inr ⟨⟨rest, rfl⟩, fun hmem => hplain (List.mem_append_left _ hmem)⟩)

theorem Rooted.ne_empty {path : String} (h : Rooted path) : path ≠ "" := by
  rintro rfl
  rcases h with h | h | ⟨h, -⟩
  · exact absurd h (by decide)
  · exact absurd h (by decide)
  · exact absurd h (by decide)

theorem Rooted.head {path : String} (h : Rooted path) :
    ∀ c ∈ path.toList.head?, isWhiteSpace c = false := by
  have hstarts : path.toList.head? = some '~' ∨ path.toList.head? = some '/' := by
    rcases h with rfl | ⟨rest, hrest⟩ | ⟨⟨rest, hrest⟩, -⟩
    · exact Or.inl rfl
    · exact Or.inl (by rw [← hrest]; rfl)
    · exact Or.inr (by rw [← hrest]; rfl)
  intro c hc
  rcases hstarts with h | h <;>
    · rw [h] at hc
      cases hc
      decide

theorem map_slashes {text : List Char} (hplain : '\\' ∉ text) :
    (text.map fun c => if c = '\\' then '/' else c) = text := by
  refine (List.map_congr_left fun c hc => ?_).trans (List.map_id text)
  refine if_neg ?_
  rintro rfl
  exact hplain hc

/-- Only white space at the end keeps a candidate from being inspected as it is. -/
theorem normalizeRemotePath_of_rooted {path : String} (h : Rooted path)
    (hend : NoSpaceAtEnd path.toList) : normalizeRemotePath path = path := by
  have htrim : trim path = path := by
    have htrimmed := trim_eq_self h.head hend
    rwa [String.ofList_toList] at htrimmed
  unfold normalizeRemotePath
  dsimp only
  rw [htrim, if_neg h.ne_empty]
  split
  · rfl
  · rename_i hother
    rw [not_or] at hother
    obtain ⟨hroot, hplain⟩ := (h.resolve_left hother.1).resolve_left hother.2
    rw [map_slashes hplain, toList_root, if_pos hroot, String.ofList_toList]

theorem rooted_normalize (path : String) :
    Rooted (normalizeRemotePath path) ∧ NoSpaceAtEnd (normalizeRemotePath path).toList := by
  have hend := noSpaceAtEnd_trim path
  unfold normalizeRemotePath
  dsimp only
  split
  · refine ⟨rooted_root, fun c hc => ?_⟩
    cases hc
    decide
  · rename_i hsome
    split
    · rename_i hhome
      exact ⟨hhome.imp id Or.inl, hend⟩
    · have hplain : '\\' ∉ (trim path).toList.map fun c => if c = '\\' then '/' else c := by
        intro hmem
        obtain ⟨c, -, hc⟩ := List.mem_map.mp hmem
        split at hc
        · exact absurd hc (by decide)
        · rename_i hother
          exact hother hc
      have hslashes :
        NoSpaceAtEnd ((trim path).toList.map fun c => if c = '\\' then '/' else c) := by
        intro c hc
        rw [List.getLast?_map, Option.mem_def, Option.map_eq_some_iff] at hc
        obtain ⟨d, hd, rfl⟩ := hc
        split
        · decide
        · exact hend d hd
      split
      · rename_i hroot
        rw [toList_root] at hroot
        rw [Rooted, String.toList_ofList]
        exact ⟨Or.inr (Or.inr ⟨hroot, hplain⟩), hslashes⟩
      · rw [Rooted, String.toList_ofList, toList_root]
        refine ⟨Or.inr (Or.inr ⟨List.prefix_append _ _, fun hmem => ?_⟩), hslashes.append ?_ _⟩
        · exact (List.mem_append.mp hmem).elim (by decide) hplain
        · intro hempty
          exact hsome (String.toList_eq_nil_iff.mp (List.map_eq_nil_iff.mp hempty))

theorem normalizeRemotePath_normalizeRemotePath (path : String) :
    normalizeRemotePath (normalizeRemotePath path) = normalizeRemotePath path :=
  normalizeRemotePath_of_rooted (rooted_normalize path).1 (rooted_normalize path).2

/-! ## The parent of an entry -/

def withoutSlashes (directory : String) : String :=
  if trimSlashes directory.toList = [] then REMOTE_ROOT_PATH
  else String.ofList (trimSlashes directory.toList)

theorem parentRemotePath_entry {path : String} {directory name : List Char} (hname : name ≠ [])
    (hslash : '/' ∉ name) (hpath : path.toList = directory ++ '/' :: name) :
    parentRemotePath path =
      if directory = [] then REMOTE_ROOT_PATH else String.ofList directory := by
  have htrimmed : trimSlashes path.toList = directory ++ '/' :: name := by
    obtain ⟨front, last, rfl⟩ := List.eq_nil_or_concat name |>.resolve_left hname
    rw [List.concat_eq_append] at hslash hpath ⊢
    have hlast : ¬decide (last = '/') = true := fun h =>
      hslash (List.mem_append_right front (by rw [of_decide_eq_true h]; exact List.mem_cons_self))
    rw [trimSlashes, hpath, ← List.cons_append, ← List.append_assoc]
    exact List.rdropWhile_concat_neg _ _ _ hlast
  have hlong : ¬(directory ++ '/' :: name = [] ∨ directory ++ '/' :: name = ['/']) := by
    rintro (hempty | hone)
    · exact absurd (List.append_eq_nil_iff.mp hempty).2 (List.cons_ne_nil _ _)
    · have hlength := congrArg List.length hone
      have hpos := List.length_pos_iff.mpr hname
      rw [List.length_append, List.length_cons, List.length_singleton] at hlength
      omega
  unfold parentRemotePath
  dsimp only
  rw [htrimmed, if_neg hlong, splitLast_append directory hslash]

theorem parent_joinRemotePath {name : String} (hname : name ≠ "") (hslash : '/' ∉ name.toList)
    (directory : String) :
    parentRemotePath (joinRemotePath directory name) =
      withoutSlashes (normalizeRemotePath directory) := by
  have hname : name.toList ≠ [] := fun h => hname (String.toList_eq_nil_iff.mp h)
  unfold joinRemotePath withoutSlashes
  dsimp only
  split
  · rename_i hroot
    rw [hroot, toList_root, if_pos (by decide)]
    refine (parentRemotePath_entry hname hslash ?_).trans (if_pos rfl)
    rw [String.toList_append, toList_root]
    rfl
  · refine parentRemotePath_entry hname hslash ?_
    rw [String.toList_append, String.toList_append, String.toList_ofList, List.append_assoc]
    rfl

/-! ## What the search finds -/

/-- No candidate ends in white space, which the inspection would leave out. -/
def ChainInspected (path : String) : Prop := ∀ c ∈ parentChain path, NoSpaceAtEnd c.toList

section Search

variable {session : SftpSession} {path : String}

theorem ChainInspected.classify (h : ChainInspected path) :
    ∀ c ∈ parentChain path, classifyRemotePath session c = session.kindAt c := by
  have hrooted : ∀ c ∈ parentChain path, Rooted c :=
    forall_candidatesFrom rooted_root (fun _ => Rooted.parent) (rooted_normalize path).1
  intro c hc
  rw [classifyRemotePath, normalizeRemotePath_of_rooted (hrooted c hc) (h c hc)]

theorem ChainInspected.closest_eq (h : ChainInspected path) :
    closestExistingRemoteDirectory session path =
      searchResult session.kindAt (parentChain path) := by
  rw [closestExistingRemoteDirectory, closestFrom_eq]
  exact searchResult_congr h.classify

theorem ChainInspected.of_ok (h : ChainInspected path) {p : String}
    (hok : closestExistingRemoteDirectory session path = .ok p) :
    (p = REMOTE_ROOT_PATH ∨ session.kindAt p = .ok .directory) ∧
      ∃ below above, parentChain path = below ++ p :: above ∧
        ∀ c ∈ below, session.kindAt c ≠ .ok .directory := by
  obtain ⟨start, hchain⟩ := exists_candidatesFrom (normalizeRemotePath path)
  rw [h.closest_eq, parentChain, hchain] at hok
  rw [parentChain, hchain]
  exact searchResult_ok hok

end Search

/--
From every path the search goes through finitely many candidates. Where none of
them ends in white space, it ends in the root or in the first directory of the
chain; it fails just when the first answer that is neither a file nor missing is an
error. Normalizing twice is normalizing once, and the parent of a named entry of a
directory is the normalized directory without the slashes at its end.
-/
theorem closest_remote_directory :
    (∀ path, (parentChain path).length ≤ stepsLeft (normalizeRemotePath path) + 1) ∧
    (∀ session path, ChainInspected path →
      (∀ p, closestExistingRemoteDirectory session path = .ok p →
        (p = REMOTE_ROOT_PATH ∨ session.kindAt p = .ok .directory) ∧
          ∃ below above, parentChain path = below ++ p :: above ∧
            ∀ c ∈ below, session.kindAt c ≠ .ok .directory) ∧
      ∀ err, closestExistingRemoteDirectory session path = .error err ↔
        ((parentChain path).map session.kindAt).find? endsSearch = some (.error err)) ∧
    (∀ path, normalizeRemotePath (normalizeRemotePath path) = normalizeRemotePath path) ∧
    ∀ directory name : String, name ≠ "" → '/' ∉ name.toList →
      parentRemotePath (joinRemotePath directory name) =
        withoutSlashes (normalizeRemotePath directory) :=
  ⟨fun path => length_candidatesFrom (normalizeRemotePath path),
    fun _ _ h => ⟨fun _ hok => h.of_ok hok, fun _ => h.closest_eq ▸ searchResult_error_iff⟩,
    normalizeRemotePath_normalizeRemotePath,
    fun directory _ hname hslash => parent_joinRemotePath hname hslash directory⟩

/-- A file below a directory that must not be looked at. -/
def sampleSession : SftpSession where
  stat path :=
    if path = "/a/b" then .ok (some 0o100644)
    else if path = "/a" then .error ⟨.sftp 3, "permission denied"⟩
    else if path = "/" then .ok (some 0o040755)
    else .error ⟨.sftp 2, "no such file"⟩
  opendir _ := false

theorem candidatesFrom_sample :
    candidatesFrom "/a/b" = ["/a/b", "/a", "/"] ∧ candidatesFrom "/ /a" = ["/ /a", "/ ", "/"] := by
  have hfile : parentRemotePath "/a/b" = "/a" := by decide
  have hdirectory : parentRemotePath "/a" = REMOTE_ROOT_PATH := by decide
  have hbelow : parentRemotePath "/ /a" = "/ " := by decide
  have hblank : parentRemotePath "/ " = REMOTE_ROOT_PATH := by decide
  constructor
  · rw [candidatesFrom_of_ne (by decide), hfile, candidatesFrom_of_ne (by decide), hdirectory,
      candidatesFrom_root]
    rfl
  · rw [candidatesFrom_of_ne (by decide), hbelow, candidatesFrom_of_ne (by decide), hblank,
      candidatesFrom_root]
    rfl

theorem closest_remote_directory_sample :
    closestExistingRemoteDirectory sampleSession "a\\b " =
        .error "Cannot inspect /a: permission denied" ∧
      parentRemotePath (joinRemotePath " home\\x//" "b") = "/home/x" := by
  have hchain : parentChain "a\\b " = ["/a/b", "/a", "/"] := by
    have hnormal : normalizeRemotePath "a\\b " = "/a/b" := by decide
    rw [parentChain, hnormal, candidatesFrom_sample.1]
  have hinspected : ChainInspected "a\\b " := by
    rw [ChainInspected, hchain]
    intro candidate hcandidate last hlast
    have hall : ["/a/b", "/a", "/"].all (fun c =>
        c.toList.getLast?.all fun last => !isWhiteSpace last) = true := by decide
    have hends := List.all_eq_true.mp hall candidate hcandidate
    rw [Option.mem_def.mp hlast] at hends
    simpa using hends
  obtain ⟨-, hclosest, -, hparent⟩ := closest_remote_directory
  refine ⟨((hclosest sampleSession _ hinspected).2 _).mpr ?_,
    (hparent _ _ (by decide) (by decide)).trans (by decide)⟩
  rw [hchain]
  rfl

/--
An error is returned though the first answer was that there is a file; the parent
of an entry is not the directory as it was written; and a path is returned that is
not there.
-/
theorem closest_directory_differs :
    (¬∀ session path err, closestExistingRemoteDirectory session path = .error err ↔
      ((parentChain path).map session.kindAt).find? (fun answer => answer ≠ .ok .missing) =
        some (.error err)) ∧
    (¬∀ directory name : String, '/' ∉ name.toList → '\\' ∉ name.toList →
      trimSlashes (parentRemotePath (joinRemotePath directory name)).toList =
        trimSlashes directory.toList) ∧
    ¬∀ session path p, closestExistingRemoteDirectory session path = .ok p →
      p = REMOTE_ROOT_PATH ∨ session.kindAt p = .ok .directory := by
  have hclosest : ∀ path, normalizeRemotePath path = path →
      closestExistingRemoteDirectory sampleSession path =
        searchResult (classifyRemotePath sampleSession) (candidatesFrom path) := by
    intro path hpath
    rw [closestExistingRemoteDirectory, closestFrom_eq, hpath]
  refine ⟨fun hall => ?_, fun hall => ?_, fun hall => ?_⟩
  · have hnormal : normalizeRemotePath "/a/b" = "/a/b" := by decide
    have herror := (hall sampleSession "/a/b" "Cannot inspect /a: permission denied").mp (by
      rw [hclosest _ hnormal, candidatesFrom_sample.1]
      rfl)
    rw [parentChain, hnormal, candidatesFrom_sample.1] at herror
    exact nomatch herror
  · exact absurd (hall "a" "b" (by decide) (by decide)) (by decide)
  · have hnormal : normalizeRemotePath "/ /a" = "/ /a" := by decide
    have hblank := hall sampleSession "/ /a" "/ " (by
      rw [hclosest _ hnormal, candidatesFrom_sample.2]
      rfl)
    rcases hblank with hroot | hdirectory
    · exact absurd hroot (by decide)
    · exact nomatch hdirectory

end Fulgur
