import Fulgur.Remote.RemoteUrl

/-! # Reading a written URL back

A URL is written without escapes. What is read back is what was written just
when no part of it has a delimiter that ends it too early.
-/

namespace Fulgur

open Delimiters

/-! ## Ports -/

variable {port : UInt16} {host hostport : List Char}

theorem portChars_ne_nil (port : UInt16) : (toString port.toNat).toList ≠ [] := by
  rw [Nat.toString_eq_repr, Nat.toList_repr]
  exact Nat.toDigits_ne_nil

theorem withoutPlus_eq {text : List Char} (h : '+' ∉ text) : withoutPlus text = text := by
  unfold withoutPlus
  split
  · exact absurd List.mem_cons_self h
  · rfl

/-- A port that is written reads back. -/
theorem parsePort_toString (port : UInt16) : parsePort (toString port.toNat).toList = .ok port := by
  have hne := portChars_ne_nil port
  have hvalue : Nat.ofDigitChars 10 (toString port.toNat).toList 0 = port.toNat := by
    rw [Nat.toString_eq_repr, Nat.toList_repr, Nat.ofDigitChars_ten_toDigits]
  have hall : (toString port.toNat).toList.all Char.isDigit = true :=
    List.all_eq_true.mpr fun c hc => isDigit_of_mem_numeral hc
  have hplus := notMem_numeral port.toNat (show '+'.isDigit = false by decide)
  have hparsed : parseU16 (toString port.toNat).toList = some port := by
    simp only [parseU16, withoutPlus_eq hplus, hvalue]
    rw [if_pos ⟨hne, hall, port.toNat_lt⟩, UInt16.ofNat_toNat]
  rw [parsePort, hparsed]

/-! ## Hosts -/

theorem parseBracketedHost_append (hclosed : ']' ∉ host) (hhost : host ≠ []) (port : UInt16) :
    parseBracketedHost (host ++ ']' :: ':' :: (toString port.toNat).toList) = .ok (host, port) := by
  simp only [parseBracketedHost, splitFirst_append hclosed, if_neg hhost,
    if_neg (portChars_ne_nil port), parsePort_toString]
  rfl

theorem parsePlainHost_append (hhost : host ≠ []) (port : UInt16) :
    parsePlainHost (host ++ ':' :: (toString port.toNat).toList) = .ok (host, port) := by
  have hcolon := notMem_numeral port.toNat (show ':'.isDigit = false by decide)
  simp only [parsePlainHost, splitLast_append host hcolon, if_neg hhost, parsePort_toString]
  rfl

theorem parseHostport_plain (hhead : hostport.head? ≠ some '[') (hnil : hostport ≠ []) :
    parseHostport hostport = parsePlainHost hostport := by
  cases hostport with
  | nil => exact absurd rfl hnil
  | cons c rest =>
      have hc : c ≠ '[' := fun h => hhead (by rw [h]; rfl)
      simp [parseHostport, hc]

theorem map_ok {α β : Type} {f : α → β} {result : Except String α} {b : β}
    (h : result.map f = .ok b) : ∃ a, result = .ok a ∧ f a = b := by
  cases result with
  | error e => exact nomatch h
  | ok a => exact ⟨a, rfl, Except.ok.inj h⟩

/-- A host in brackets ends at the first closing one. -/
theorem parseBracketedHost_ok {inner : List Char}
    (h : parseBracketedHost inner = .ok (host, port)) :
    host ≠ [] ∧ ∃ rest, inner = host ++ ']' :: rest ∧ ']' ∉ host := by
  unfold parseBracketedHost at h
  cases hsplit : splitFirst ']' inner with
  | none =>
      rw [hsplit] at h
      exact nomatch h
  | some parts =>
      obtain ⟨start, rest⟩ := parts
      rw [hsplit] at h
      by_cases hstart : start = []
      · simp only [if_pos hstart] at h
        exact nomatch h
      · have hhost : start = host := by
          simp only [if_neg hstart] at h
          split at h
          · exact (Prod.mk.inj (Except.ok.inj h)).1
          · split at h
            · exact nomatch h
            · obtain ⟨p, -, hp⟩ := map_ok h
              exact (Prod.mk.inj hp).1
          · exact nomatch h
        subst hhost
        obtain ⟨hinner, hclosed⟩ := splitFirst_eq_some hsplit
        exact ⟨hstart, rest, hinner, hclosed⟩

/-- A host without brackets stands at the beginning. -/
theorem parsePlainHost_ok (hnil : hostport ≠ []) (h : parsePlainHost hostport = .ok (host, port)) :
    host ≠ [] ∧ host <+: hostport := by
  unfold parsePlainHost at h
  cases hsplit : splitLast ':' hostport with
  | none =>
      rw [hsplit] at h
      obtain ⟨rfl, -⟩ := Prod.mk.inj (Except.ok.inj h)
      exact ⟨hnil, List.prefix_rfl⟩
  | some parts =>
      obtain ⟨start, rest⟩ := parts
      rw [hsplit] at h
      by_cases hstart : start = []
      · simp only [if_pos hstart] at h
        exact nomatch h
      · simp only [if_neg hstart] at h
        obtain ⟨p, -, hp⟩ := map_ok h
        obtain ⟨rfl, -⟩ := Prod.mk.inj hp
        exact ⟨hstart, _, (splitLast_eq_some hsplit).1.symm⟩

theorem parseHostport_ok (h : parseHostport hostport = .ok (host, port)) :
    host ≠ [] ∧ ∀ c ∈ host, c ∈ hostport := by
  unfold parseHostport at h
  split at h
  · exact nomatch h
  · obtain ⟨hhost, rest, rfl, -⟩ := parseBracketedHost_ok h
    exact ⟨hhost, fun c hc => List.mem_cons_of_mem _ (List.mem_append_left _ hc)⟩
  · rename_i hnil _
    obtain ⟨hhost, hprefix⟩ := parsePlainHost_ok hnil h
    exact ⟨hhost, fun c hc => hprefix.subset hc⟩

/-- A host that reads back: its own brackets are not taken for those of the URL. -/
def HostReadable (host : List Char) : Prop :=
  host.head? ≠ some '[' ∧ (':' ∈ host → host.getLast? ≠ some ']' → ']' ∉ host)

/-- A host that is written reads back just when it is readable. -/
theorem parseHostport_format_iff (hhost : host ≠ []) (port : UInt16) :
    parseHostport (formatHostForUrl host ++ ':' :: (toString port.toNat).toList) =
      .ok (host, port) ↔ HostReadable host := by
  by_cases hhead : host.head? = some '['
  · -- the bracket of the host is taken for that of the URL
    obtain ⟨rest, rfl⟩ : ∃ rest, host = '[' :: rest := by
      cases host with
      | nil => exact nomatch hhead
      | cons c rest => exact ⟨rest, by rw [Option.some.inj hhead]⟩
    rw [formatHostForUrl, if_neg fun h => h.2.1 hhead]
    refine iff_of_false (fun h => ?_) fun h => h.1 hhead
    have hinner : parseBracketedHost (rest ++ ':' :: (toString port.toNat).toList) =
        .ok ('[' :: rest, port) := h
    obtain ⟨-, after, hafter, -⟩ := parseBracketedHost_ok hinner
    -- a bracket in the place of the first digit
    have hdigits := congrArg (List.drop (rest.length + 1)) hafter
    rw [List.drop_length_add_append, List.drop_left' (List.length_cons)] at hdigits
    refine notMem_numeral port.toNat (show ']'.isDigit = false by decide) ?_
    rw [show (toString port.toNat).toList = ']' :: after from hdigits]
    exact List.mem_cons_self
  · by_cases hwrapped : ':' ∈ host ∧ host.getLast? ≠ some ']'
    · rw [formatHostForUrl, if_pos ⟨hwrapped.1, hhead, hwrapped.2⟩]
      by_cases hclosed : ']' ∈ host
      · refine iff_of_false (fun h => ?_) fun h => h.2 hwrapped.1 hwrapped.2 hclosed
        have hinner : parseBracketedHost (host ++ [']'] ++ ':' :: (toString port.toNat).toList) =
            .ok (host, port) := h
        obtain ⟨-, after, -, hnot⟩ := parseBracketedHost_ok hinner
        exact hnot hclosed
      · refine iff_of_true ?_ ⟨hhead, fun _ _ => hclosed⟩
        have hinner := parseBracketedHost_append hclosed hhost port
        rw [List.append_cons] at hinner
        exact hinner
    · rw [formatHostForUrl, if_neg fun h => hwrapped ⟨h.1, h.2.2⟩]
      refine iff_of_true ?_ ⟨hhead, fun hcolon hlast => absurd ⟨hcolon, hlast⟩ hwrapped⟩
      have hhead' : (host ++ ':' :: (toString port.toNat).toList).head? ≠ some '[' := by
        rwa [List.head?_append_of_ne_nil _ hhost]
      rw [parseHostport_plain hhead' (by simp [hhost]), parsePlainHost_append hhost]

/-! ## Paths -/

/-- A path as the parser gives it: below `~`, or absolute. -/
def RuntimePath (path : List Char) : Prop :=
  path = ['~'] ∨ (∃ relative, path = '~' :: '/' :: relative) ∨ ∃ relative, path = '/' :: relative

/-- The path of a URL that stands for `~` or for what is below it. -/
def HomePath (path : List Char) : Prop := path = ['/', '~'] ∨ ['/', '~', '/'] <+: path

theorem runtimePath_normalize (relative : List Char) :
    RuntimePath (normalizeUrlStylePath ('/' :: relative)) := by
  unfold normalizeUrlStylePath
  split
  · exact Or.inl rfl
  · exact Or.inr (Or.inl ⟨_, rfl⟩)
  · exact Or.inr (Or.inr ⟨_, rfl⟩)

theorem not_homePath_normalize (path : List Char) : ¬ HomePath (normalizeUrlStylePath path) := by
  unfold normalizeUrlStylePath
  split
  · simp [HomePath]
  · simp [HomePath]
  · rename_i hhome hbelow
    rintro (rfl | ⟨relative, rfl⟩)
    · exact hhome rfl
    · exact hbelow relative rfl

theorem normalizeUrlStylePath_of_not_homePath {path : List Char} (h : ¬ HomePath path) :
    normalizeUrlStylePath path = path := by
  unfold normalizeUrlStylePath
  split
  · exact absurd (Or.inl rfl) h
  · exact absurd (Or.inr ⟨_, rfl⟩) h
  · rfl

theorem formatPathForUrl_runtime {path : List Char} (h : RuntimePath path) :
    ∃ relative, formatPathForUrl path = '/' :: relative ∧
      (formatPathForUrl path).getLast? = path.getLast? := by
  rcases h with rfl | ⟨relative, rfl⟩ | ⟨relative, rfl⟩
  · exact ⟨['~'], rfl, rfl⟩
  · exact ⟨'~' :: '/' :: relative, rfl, List.getLast?_cons_cons⟩
  · exact ⟨relative, rfl, rfl⟩

/-- A path reads back unless it is an absolute one that looks like one below `~`. -/
theorem normalize_format_iff {path : List Char} (h : RuntimePath path) :
    normalizeUrlStylePath (formatPathForUrl path) = path ↔ ¬ HomePath path := by
  rcases h with rfl | ⟨relative, rfl⟩ | ⟨relative, rfl⟩
  · exact iff_of_true rfl (by simp [HomePath])
  · exact iff_of_true rfl (by simp [HomePath])
  · constructor
    · intro hnormal hhome
      exact not_homePath_normalize _ (hnormal ▸ hhome)
    · exact fun hhome => normalizeUrlStylePath_of_not_homePath hhome

/-! ## Ends of texts -/

/-- A text that ends with no white space; it may be empty. -/
def NoSpaceAtEnd (text : List Char) : Prop := ∀ c ∈ text.getLast?, isWhiteSpace c = false

theorem noSpaceAtEnd_trim (text : String) : NoSpaceAtEnd (trim text).toList := by
  intro c hc
  rw [trim, String.toList_ofList, List.getLast?_reverse] at hc
  have hhead := List.head?_dropWhile_not isWhiteSpace (text.toList.dropWhile isWhiteSpace).reverse
  rw [Option.mem_def.mp hc] at hhead
  exact hhead

theorem dropWhile_eq_self {text : List Char} (h : ∀ c ∈ text.head?, isWhiteSpace c = false) :
    text.dropWhile isWhiteSpace = text := by
  cases text with
  | nil => rfl
  | cons c rest => exact List.dropWhile_cons_of_neg (by simp [h c rfl])

theorem trim_eq_self {text : List Char} (hstart : ∀ c ∈ text.head?, isWhiteSpace c = false)
    (hend : NoSpaceAtEnd text) : trim (String.ofList text) = String.ofList text := by
  have hlast : ∀ c ∈ text.reverse.head?, isWhiteSpace c = false := by
    rwa [List.head?_reverse]
  rw [trim, String.toList_ofList, dropWhile_eq_self hstart, dropWhile_eq_self hlast,
    List.reverse_reverse]

theorem NoSpaceAtEnd.drop {text : List Char} (h : NoSpaceAtEnd text) (n : Nat) :
    NoSpaceAtEnd (text.drop n) := by
  intro c hc
  rw [List.getLast?_drop] at hc
  split at hc
  · exact nomatch hc
  · exact h c hc

theorem NoSpaceAtEnd.of_append {before after : List Char} (h : NoSpaceAtEnd (before ++ after)) :
    NoSpaceAtEnd after := by
  have hdrop := h.drop before.length
  rwa [List.drop_left] at hdrop

theorem NoSpaceAtEnd.append {after : List Char} (h : NoSpaceAtEnd after) (hafter : after ≠ [])
    (before : List Char) : NoSpaceAtEnd (before ++ after) := by
  intro c hc
  rw [List.getLast?_append_of_ne_nil _ hafter] at hc
  exact h c hc

/-! ## What the parser gives -/

/-- The parts of a specification, wherever it was parsed from. -/
structure Parsed (spec : RemoteSpec) : Prop where
  host : spec.host.toList ≠ []
  path : RuntimePath spec.path.toList
  ending : NoSpaceAtEnd spec.path.toList

/-- No part of a specification has a delimiter that ends it too early. -/
structure Readable (spec : RemoteSpec) : Prop where
  user : ∀ user ∈ spec.user, '/' ∉ user.toList ∧ ':' ∉ user.toList
  host : '/' ∉ spec.host.toList ∧ '@' ∉ spec.host.toList
  brackets : HostReadable spec.host.toList
  path : ¬ HomePath spec.path.toList

theorem noSpaceAtEnd_normalize {path : List Char} (h : NoSpaceAtEnd path) :
    NoSpaceAtEnd (normalizeUrlStylePath path) := by
  unfold normalizeUrlStylePath
  split
  · exact h.drop 1
  · exact h.drop 1
  · exact h

theorem noSpaceAtEnd_root : NoSpaceAtEnd REMOTE_ROOT_PATH.toList := by
  intro c hc
  cases hc
  rfl

theorem urlAuthority_spec {rest : List Char} (h : NoSpaceAtEnd rest) :
    '/' ∉ (urlAuthority rest).1 ∧ RuntimePath (urlAuthority rest).2 ∧
      NoSpaceAtEnd (urlAuthority rest).2 ∧ ¬ HomePath (urlAuthority rest).2 := by
  unfold urlAuthority
  by_cases hslash : '/' ∈ rest
  · obtain ⟨authority, relative, rfl, hauthority⟩ := List.eq_append_cons_of_mem hslash
    rw [splitFirst_append hauthority]
    exact ⟨hauthority, runtimePath_normalize relative, noSpaceAtEnd_normalize h.of_append,
      not_homePath_normalize _⟩
  · rw [splitFirst_eq_none hslash]
    exact ⟨hslash, Or.inr (Or.inr ⟨[], rfl⟩), noSpaceAtEnd_root,
      by simp [HomePath, REMOTE_ROOT_PATH]⟩

/-- The user of a URL has no colon, and what comes after it no `@`. -/
theorem urlUserinfo_spec (authority : List Char) :
    (∀ user ∈ (urlUserinfo authority).1, ':' ∉ user ∧ ∀ c ∈ user, c ∈ authority) ∧
      '@' ∉ (urlUserinfo authority).2.2 ∧ ∀ c ∈ (urlUserinfo authority).2.2, c ∈ authority := by
  unfold urlUserinfo
  by_cases hat : '@' ∈ authority
  · obtain ⟨userinfo, hostport, rfl, hhostport⟩ := exists_last hat
    rw [splitLast_append userinfo hhostport]
    have hpart : ∀ c ∈ hostport, c ∈ userinfo ++ '@' :: hostport :=
      fun c hc => List.mem_append_right _ (List.mem_cons_of_mem _ hc)
    by_cases hcolon : ':' ∈ userinfo
    · obtain ⟨user, password, rfl, huser⟩ := List.eq_append_cons_of_mem hcolon
      simp only [splitFirst_append huser]
      refine ⟨fun name hname => ?_, hhostport, hpart⟩
      cases hname
      exact ⟨huser, fun c hc => List.mem_append_left _ (List.mem_append_left _ hc)⟩
    · simp only [splitFirst_eq_none hcolon]
      refine ⟨fun name hname => ?_, hhostport, hpart⟩
      cases hname
      exact ⟨hcolon, fun c hc => List.mem_append_left _ hc⟩
  · rw [splitLast_eq_none hat]
    exact ⟨fun _ h => (nomatch h), hat, fun c hc => hc⟩

variable {spec : RemoteSpec} {rest : List Char}

theorem parseUrlStyle_ok (h : parseUrlStyle rest = .ok spec) :
    ∃ host port, parseHostport (urlUserinfo (urlAuthority rest).1).2.2 = .ok (host, port) ∧
      spec =
        { host := String.ofList host, port
          user := (urlUserinfo (urlAuthority rest).1).1.map String.ofList
          path := String.ofList (urlAuthority rest).2
          passwordInUrl := (urlUserinfo (urlAuthority rest).1).2.1.map String.ofList } := by
  unfold parseUrlStyle at h
  simp only at h
  split at h
  · exact nomatch h
  · obtain ⟨⟨host, port⟩, hhost, rfl⟩ := map_ok h
    exact ⟨host, port, hhost, rfl⟩

/-- A specification that comes from a URL: no slash, `@` or colon is part of what it ends. -/
theorem parseUrlStyle_spec (h : parseUrlStyle rest = .ok spec) (hend : NoSpaceAtEnd rest) :
    Parsed spec ∧ (∀ user ∈ spec.user, '/' ∉ user.toList ∧ ':' ∉ user.toList) ∧
      ('/' ∉ spec.host.toList ∧ '@' ∉ spec.host.toList) ∧ ¬ HomePath spec.path.toList := by
  obtain ⟨host, port, hhost, rfl⟩ := parseUrlStyle_ok h
  obtain ⟨hslash, hpath, hending, hhome⟩ := urlAuthority_spec hend
  obtain ⟨huser, hat, hpart⟩ := urlUserinfo_spec (urlAuthority rest).1
  obtain ⟨hne, hmem⟩ := parseHostport_ok hhost
  simp only [String.toList_ofList]
  refine ⟨⟨?_, ?_, ?_⟩, fun user hmember => ?_, ⟨?_, ?_⟩, hhome⟩
  · rwa [String.toList_ofList]
  · rwa [String.toList_ofList]
  · rwa [String.toList_ofList]
  · obtain ⟨name, hname, rfl⟩ := Option.map_eq_some_iff.mp hmember
    obtain ⟨hcolon, hsub⟩ := huser name hname
    rw [String.toList_ofList]
    exact ⟨fun hc => hslash (hsub _ hc), hcolon⟩
  · exact fun hc => hslash (hpart _ (hmem _ hc))
  · exact fun hc => hat (hmem _ hc)

theorem scpAuthority_spec {input : List Char} (h : NoSpaceAtEnd input) :
    RuntimePath (scpAuthority input).2 ∧ NoSpaceAtEnd (scpAuthority input).2 := by
  unfold scpAuthority
  split
  · exact ⟨Or.inr (Or.inr ⟨[], rfl⟩), noSpaceAtEnd_root⟩
  · rename_i colonIdx _
    have hraw := h.drop (colonIdx + 1)
    split
    · exact ⟨Or.inr (Or.inr ⟨[], rfl⟩), noSpaceAtEnd_root⟩
    · rename_i path heq
      rw [heq] at hraw
      exact ⟨Or.inr (Or.inr ⟨path, rfl⟩), hraw⟩
    · rename_i hnil _
      exact ⟨Or.inr (Or.inl ⟨_, rfl⟩), hraw.append hnil ['~', '/']⟩

theorem parseScpStyle_spec {input : List Char} (h : parseScpStyle input = .ok spec)
    (hend : NoSpaceAtEnd input) : Parsed spec := by
  unfold parseScpStyle at h
  obtain ⟨⟨host, port⟩, hhost, rfl⟩ := map_ok h
  obtain ⟨hpath, hending⟩ := scpAuthority_spec hend
  obtain ⟨hne, -⟩ := parseHostport_ok hhost
  refine ⟨?_, ?_, ?_⟩
  · rwa [String.toList_ofList]
  · rwa [String.toList_ofList]
  · rwa [String.toList_ofList]

theorem stripPrefix_append (start rest : List Char) :
    stripPrefix start (start ++ rest) = some rest := by
  rw [stripPrefix, if_pos (List.prefix_append start rest), List.drop_left]

theorem parseRemoteUrl_spec {input : String} (h : parseRemoteUrl input = .ok spec) :
    Parsed spec := by
  have hend := noSpaceAtEnd_trim input
  unfold parseRemoteUrl at h
  simp only at h
  split at h
  · cases h
  · split at h
    · rename_i rest hrest
      have hsuffix : ∃ n, rest = (trim input).toList.drop n := by
        unfold stripPrefix at hrest
        split at hrest
        · exact ⟨_, (Option.some.inj hrest).symm⟩
        · split at hrest
          · exact ⟨_, (Option.some.inj hrest).symm⟩
          · cases hrest
      obtain ⟨n, rfl⟩ := hsuffix
      exact (parseUrlStyle_spec h (hend.drop n)).1
    · exact parseScpStyle_spec h hend

/-! ## Reading back -/

def RemoteSpec.written (spec : RemoteSpec) : RemoteSpec :=
  { spec with user := spec.user.filter fun user => user ≠ "", passwordInUrl := none }

theorem noSpaceAtEnd_formatPathForUrl (h : Parsed spec) :
    NoSpaceAtEnd (formatPathForUrl spec.path.toList) := by
  obtain ⟨relative, -, hlast⟩ := formatPathForUrl_runtime h.path
  unfold NoSpaceAtEnd
  rw [hlast]
  exact h.ending

/-- A URL that is written is read in the style of a URL. -/
theorem parseRemoteUrl_format (h : Parsed spec) :
    parseRemoteUrl (formatRemoteUrl spec) =
      parseUrlStyle (formatAuthority spec ++ formatPathForUrl spec.path.toList) := by
  obtain ⟨relative, hpath, -⟩ := formatPathForUrl_runtime h.path
  have hending := noSpaceAtEnd_formatPathForUrl h
  have htrim : trim (formatRemoteUrl spec) = formatRemoteUrl spec := by
    refine trim_eq_self (fun c hc => ?_) (hending.append (by rw [hpath]; simp) _)
    cases hc
    rfl
  have htext : (formatRemoteUrl spec).toList =
      "ssh://".toList ++ (formatAuthority spec ++ formatPathForUrl spec.path.toList) :=
    String.toList_ofList.trans (List.append_assoc _ _ _)
  have hstrip : stripPrefix "ssh://".toList (formatRemoteUrl spec).toList =
      some (formatAuthority spec ++ formatPathForUrl spec.path.toList) := by
    rw [htext, stripPrefix_append]
  unfold parseRemoteUrl
  simp only [htrim, hstrip]
  rw [if_neg (by rw [htext]; simp)]
  rfl

theorem mem_formatHostForUrl {c : Char} (h : c ∈ formatHostForUrl host) :
    c ∈ host ∨ c = '[' ∨ c = ']' := by
  unfold formatHostForUrl at h
  split at h
  · simp only [List.cons_append, List.mem_cons, List.mem_append, List.not_mem_nil, or_false] at h
    rcases h with h | h | h
    · exact Or.inr (Or.inl h)
    · exact Or.inl h
    · exact Or.inr (Or.inr h)
  · exact Or.inl h

def writtenHost (spec : RemoteSpec) : List Char :=
  formatHostForUrl spec.host.toList ++ ':' :: (toString spec.port.toNat).toList

theorem notMem_writtenHost {c : Char} (hhost : c ∉ spec.host.toList) (hdigit : c.isDigit = false)
    (hmark : c ∉ ['[', ']', ':']) : c ∉ writtenHost spec := by
  intro h
  simp only [List.mem_cons, List.not_mem_nil, or_false, not_or] at hmark
  rcases List.mem_append.mp h with h | h
  · rcases mem_formatHostForUrl h with h | h | h
    · exact hhost h
    · exact hmark.1 h
    · exact hmark.2.1 h
  · rcases List.mem_cons.mp h with h | h
    · exact hmark.2.2 h
    · exact notMem_numeral _ hdigit h

theorem formatAuthority_cases (spec : RemoteSpec) :
    (spec.written.user = none ∧ formatAuthority spec = writtenHost spec) ∨
      ∃ user, spec.user = some user ∧ spec.written.user = some user ∧
        formatAuthority spec = user.toList ++ '@' :: writtenHost spec := by
  unfold formatAuthority RemoteSpec.written
  cases hspec : spec.user with
  | none => exact Or.inl ⟨rfl, rfl⟩
  | some user =>
      by_cases hempty : user = ""
      · subst hempty
        exact Or.inl ⟨rfl, rfl⟩
      · refine Or.inr ⟨user, rfl, ?_, if_neg (by simpa using hempty)⟩
        simp [Option.filter, hempty]

theorem urlUserinfo_formatAuthority (huser : ∀ user ∈ spec.written.user, ':' ∉ user.toList)
    (hhost : '@' ∉ spec.host.toList) :
    urlUserinfo (formatAuthority spec) =
      (spec.written.user.map String.toList, none, writtenHost spec) := by
  have hat : '@' ∉ writtenHost spec := notMem_writtenHost hhost (by decide) (by decide)
  unfold urlUserinfo
  rcases formatAuthority_cases spec with ⟨hnone, hauthority⟩ | ⟨user, -, hsome, hauthority⟩
  · rw [hauthority, hnone, splitLast_eq_none hat]
    rfl
  · rw [hauthority, hsome, splitLast_append _ hat]
    simp only [splitFirst_eq_none (huser user hsome)]
    rfl

theorem notMem_formatAuthority (huser : ∀ user ∈ spec.written.user, '/' ∉ user.toList)
    (hhost : '/' ∉ spec.host.toList) : '/' ∉ formatAuthority spec := by
  have hslash : '/' ∉ writtenHost spec := notMem_writtenHost hhost (by decide) (by decide)
  rcases formatAuthority_cases spec with ⟨-, hauthority⟩ | ⟨user, -, hsome, hauthority⟩
  · rwa [hauthority]
  · rw [hauthority, List.mem_append, List.mem_cons]
    rintro (h | h | h)
    · exact huser user hsome h
    · exact absurd h (by decide)
    · exact hslash h

theorem formatAuthority_ne_nil (spec : RemoteSpec) : formatAuthority spec ≠ [] := by
  rcases formatAuthority_cases spec with ⟨-, hauthority⟩ | ⟨user, -, -, hauthority⟩
  · rw [hauthority, writtenHost]
    simp
  · rw [hauthority]
    simp

/-- What is read back from a URL whose user, host and path are not cut. -/
theorem parseUrlStyle_format (h : Parsed spec)
    (huser : ∀ user ∈ spec.written.user, '/' ∉ user.toList ∧ ':' ∉ user.toList)
    (hhost : '/' ∉ spec.host.toList ∧ '@' ∉ spec.host.toList)
    (hhome : ¬ HomePath spec.path.toList) :
    parseUrlStyle (formatAuthority spec ++ formatPathForUrl spec.path.toList) =
      (parseHostport (writtenHost spec)).map fun (host, port) =>
        { spec.written with host := String.ofList host, port } := by
  obtain ⟨relative, hpath, -⟩ := formatPathForUrl_runtime h.path
  have hslash := notMem_formatAuthority (fun user hu => (huser user hu).1) hhost.1
  have hauthority : urlAuthority (formatAuthority spec ++ formatPathForUrl spec.path.toList) =
      (formatAuthority spec, spec.path.toList) := by
    rw [hpath, urlAuthority, splitFirst_append hslash]
    simp only [← hpath, (normalize_format_iff h.path).mpr hhome]
  have huserinfo := urlUserinfo_formatAuthority (fun user hu => (huser user hu).2) hhost.2
  have hname : (spec.written.user.map String.toList).map String.ofList = spec.written.user := by
    simp
  unfold parseUrlStyle
  simp only [hauthority, huserinfo, if_neg (formatAuthority_ne_nil spec), hname]
  simp only [RemoteSpec.written, String.ofList_toList, Option.map_none]

/-- The host reads back just when it is readable. -/
theorem parseHostport_writtenHost_iff (h : Parsed spec) :
    (parseHostport (writtenHost spec)).map (fun (host, port) =>
        { spec.written with host := String.ofList host, port }) = .ok spec.written ↔
      HostReadable spec.host.toList := by
  rw [← parseHostport_format_iff h.host spec.port]
  constructor
  · intro hall
    obtain ⟨⟨host, port⟩, hhost, hspec⟩ := map_ok hall
    have hname : String.ofList host = spec.host := congrArg RemoteSpec.host hspec
    have hport : port = spec.port := congrArg RemoteSpec.port hspec
    rw [← hname, String.toList_ofList, ← hport]
    rw [writtenHost, ← hname, String.toList_ofList, ← hport] at hhost
    exact hhost
  · intro hhost
    rw [writtenHost, hhost]
    simp only [Except.map, String.ofList_toList]
    rfl

/--
A specification that was parsed reads back from the URL that is written of it
just when it is readable. It has lost its password, and a user with an empty name.
-/
theorem parse_format_iff (h : Parsed spec) :
    parseRemoteUrl (formatRemoteUrl spec) = .ok spec.written ↔ Readable spec := by
  rw [parseRemoteUrl_format h]
  constructor
  · intro hread
    have hend : NoSpaceAtEnd (formatAuthority spec ++ formatPathForUrl spec.path.toList) := by
      obtain ⟨relative, hpath, -⟩ := formatPathForUrl_runtime h.path
      exact (noSpaceAtEnd_formatPathForUrl h).append (by rw [hpath]; simp) _
    obtain ⟨-, huser, hhost, hhome⟩ := parseUrlStyle_spec hread hend
    rw [parseUrlStyle_format h huser hhost hhome, parseHostport_writtenHost_iff h] at hread
    refine ⟨fun user hspec => ?_, hhost, hread, hhome⟩
    by_cases hempty : user = ""
    · simp [hempty]
    · exact huser user
        (by simp [RemoteSpec.written, Option.mem_def.mp hspec, Option.filter, hempty])
  · intro hreadable
    have huser : ∀ user ∈ spec.written.user, '/' ∉ user.toList ∧ ':' ∉ user.toList :=
      fun user hu => hreadable.user user (Option.filter_eq_some_iff.mp hu).1
    rw [parseUrlStyle_format h huser hreadable.host hreadable.path]
    exact (parseHostport_writtenHost_iff h).mpr hreadable.brackets

/--
What was parsed reads back from its URL, but for the password and an empty user
name, just when it is readable. The password has no influence on the URL.
-/
theorem remote_url_round_trip :
    (∀ (input : String) (spec : RemoteSpec), parseRemoteUrl input = .ok spec →
      (parseRemoteUrl (formatRemoteUrl spec) = .ok spec.written ↔ Readable spec)) ∧
    ∀ (spec : RemoteSpec) (password : Option String),
      formatRemoteUrl { spec with passwordInUrl := password } = formatRemoteUrl spec := by
  refine ⟨fun input spec hinput => parse_format_iff (parseRemoteUrl_spec hinput), ?_⟩
  intro spec password
  rfl

theorem remote_url_sample :
    parseRemoteUrl (formatRemoteUrl ⟨"::1", 2222, some "al", "~/notes.md", some "secret"⟩) =
      .ok ⟨"::1", 2222, some "al", "~/notes.md", none⟩ :=
  (remote_url_round_trip.1 " ssh://al:secret@[::1]:2222/~/notes.md" _ (by decide +kernel)).mpr
    ⟨fun user huser => by
        cases huser
        decide +kernel,
      by decide +kernel, ⟨by decide +kernel, fun _ _ => by decide +kernel⟩,
      fun h => by
        rcases h with h | h
        · exact absurd h (by decide +kernel)
        · exact absurd h (by decide +kernel)⟩

/-- An empty user name is lost, and an absolute path becomes one below `~`. -/
theorem remote_url_not_same :
    ¬ (∀ spec, parseRemoteUrl "ssh://@host/" = .ok spec →
        parseRemoteUrl (formatRemoteUrl spec) = .ok { spec with passwordInUrl := none }) ∧
    ¬ (∀ spec, parseRemoteUrl "host:/~/notes" = .ok spec →
        parseRemoteUrl (formatRemoteUrl spec) = .ok { spec with passwordInUrl := none }) := by
  constructor
  · intro h
    exact absurd (h ⟨"host", 22, some "", "/", none⟩ (by decide +kernel)) (by decide +kernel)
  · intro h
    exact absurd (h ⟨"host", 22, none, "/~/notes", none⟩ (by decide +kernel)) (by decide +kernel)

end Fulgur
