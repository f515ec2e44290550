import Fulgur.Library.Delimiters
import Fulgur.Library.Pieces
import Fulgur.Remote.HostKeys

/-! # Trusting a host

A host that the user trusts is written at the end of the file of known hosts, on a
line of its own. The parser of the file is given by what it makes of one line. The
name that is written means nothing as a pattern but itself, so the new entry
applies to this host and port alone.
-/

namespace Fulgur

namespace KnownHosts

/-- A letter of a host name: it means nothing in a pattern and ends neither name nor line. -/
def HostChar (c : Char) : Prop :=
  c ≠ '*' ∧ c ≠ '?' ∧ c ≠ '!' ∧ c ≠ '[' ∧ c ≠ ']' ∧ c ≠ '\n'

theorem hostChar_of_alphabet {c : Char} (h : c.isAlphanum = true ∨ c ∈ ['.', '-', '_', ':']) :
    HostChar c := by
  refine ⟨?_, ?_, ?_, ?_, ?_, ?_⟩
  all_goals
    rintro rfl
    revert h
    decide

variable {KeyData : Type}

/-- The entries of the file; `parseLine` gives an error, nothing or an entry for a line. -/
def parseKnownHosts (parseLine : List Char → Option (Option (KnownHostEntry KeyData)))
    (text : String) : Option (List (KnownHostEntry KeyData)) :=
  ((Pieces.pieces '\n' text.toList).mapM parseLine).map fun entries => entries.filterMap id

/-- The entry has the fields that were written: one name, and the key. -/
structure ReadsBack (publicKeyFromBytes : List UInt8 → Option KeyData) (token : String)
    (key : List UInt8) (entry : KnownHostEntry KeyData) : Prop where
  marker : entry.marker = none
  name : entry.hostPatterns = .patterns [token]
  key : some entry.keyData = publicKeyFromBytes key

/-! ## The line -/

variable {host host' : String} {port port' : UInt16}

theorem toList_bracketed (host : String) (port : UInt16) :
    (bracketed host port).toList =
      '[' :: (host.toList ++ ']' :: ':' :: (toString port.toNat).toList) := by
  simp [bracketed, String.toList_append]

/-- The letters of a name as it is written in the file. -/
theorem mem_knownHostsEntryHost {c : Char} (h : c ∈ (knownHostsEntryHost host port).toList) :
    c ∈ host.toList ∨ c = '[' ∨ c = ']' ∨ c = ':' ∨ c.isDigit = true := by
  unfold knownHostsEntryHost at h
  split at h
  · exact Or.inl h
  · rw [toList_bracketed] at h
    simp only [List.mem_cons, List.mem_append] at h
    rcases h with h | h | h | h | h
    · exact Or.inr (Or.inl h)
    · exact Or.inl h
    · exact Or.inr (Or.inr (Or.inl h))
    · exact Or.inr (Or.inr (Or.inr (Or.inl h)))
    · exact Or.inr (Or.inr (Or.inr (Or.inr (Delimiters.isDigit_of_mem_numeral h))))

theorem hostKeyAlgorithmName_graphic {key : List UInt8} {algorithm : String}
    (h : hostKeyAlgorithmName key = some algorithm) :
    ∀ c ∈ algorithm.toList, isAsciiGraphic c = true := by
  unfold hostKeyAlgorithmName at h
  split at h
  · simp only at h
    split at h
    · cases h
    · split at h
      · cases h
      · split at h
        · rename_i hname
          cases h
          exact List.all_eq_true.mp (Bool.and_eq_true_iff.mp hname).2
        · cases h
  · cases h

theorem newline_notMem_line {key : List UInt8} {algorithm : String}
    (hhost : ∀ c ∈ host.toList, HostChar c)
    (halgorithm : hostKeyAlgorithmName key = some algorithm) :
    '\n' ∉ (knownHostsEntryHost host port ++ " " ++ algorithm ++ " " ++
      String.ofList (Base64.encode key)).toList := by
  simp only [String.toList_append, String.toList_ofList, List.mem_append, not_or]
  refine ⟨⟨⟨⟨fun htoken => ?_, by decide⟩, fun hname => ?_⟩, by decide⟩,
    Base64.notMem_encode (by decide) (by decide)⟩
  · rcases mem_knownHostsEntryHost htoken with h | h | h | h | h
    · exact (hhost _ h).2.2.2.2.2 rfl
    · cases h
    · cases h
    · cases h
    · cases h
  · exact absurd (hostKeyAlgorithmName_graphic halgorithm _ hname) (by decide)

/-- The text ends its last line before the entry, and the entry ends its own. -/
theorem pieces_append_line {text line : String} (hline : '\n' ∉ line.toList) :
    Pieces.pieces '\n' (text ++ ((if knownHostsEndsMidLine text then "\n" else "") ++ line ++
      "\n")).toList = Pieces.pieces '\n' text.toList ++ [line.toList] := by
  rw [← Pieces.pieces_of_notMem hline]
  unfold knownHostsEndsMidLine
  cases hlast : text.toList.getLast? with
  | none =>
      rw [List.getLast?_eq_none_iff] at hlast
      simp [String.toList_append, hlast, Pieces.pieces]
  | some last =>
      have hne : text.toList ≠ [] := by
        intro hnil
        rw [hnil] at hlast
        cases hlast
      by_cases hended : last = '\n'
      · subst hended
        simp only [ne_eq, not_true_eq_false, decide_false, Bool.false_eq_true, if_false,
          String.toList_append]
        exact Pieces.pieces_append_of_ended _ (Or.inr hlast)
      · simp only [ne_eq, hended, not_false_eq_true, decide_true, if_true, String.toList_append]
        rw [List.append_assoc, show "\n".toList = ['\n'] from rfl, List.singleton_append,
          Pieces.pieces_append_sep, Pieces.pieces_ended hne]
        rw [hlast]
        exact fun h => hended (Option.some.inj h)

/-! ## The name as a pattern -/

theorem port_inj (h : (toString port.toNat).toList = (toString port'.toNat).toList) :
    port = port' := by
  rw [Nat.toString_eq_repr, Nat.toString_eq_repr, Nat.toList_repr, Nat.toList_repr] at h
  have hnat := congrArg (fun digits => Nat.ofDigitChars 10 digits 0) h
  simp only [Nat.ofDigitChars_ten_toDigits] at hnat
  exact UInt16.toNat_inj.mp hnat

theorem bracketed_inj (hhost : ∀ c ∈ host.toList, HostChar c)
    (h : bracketed host port = bracketed host' port') : host = host' ∧ port = port' := by
  have hlists := congrArg String.toList h
  rw [toList_bracketed, toList_bracketed, List.cons.injEq] at hlists
  have hclose : ']' ∉ host.toList := fun hmem => (hhost _ hmem).2.2.2.2.1 rfl
  have hport : ']' ∉ ':' :: (toString port.toNat).toList := by
    intro hmem
    rcases List.mem_cons.mp hmem with h | h
    · cases h
    · cases Delimiters.isDigit_of_mem_numeral h
  obtain ⟨hname, _, hrest⟩ := (List.append_cons_inj_of_notMem hclose hport).mp hlists.2
  exact ⟨String.toList_inj.mp hname, port_inj (List.cons.inj hrest).2⟩

theorem ne_bracketed (hhost : ∀ c ∈ host.toList, HostChar c) : host ≠ bracketed host' port' := by
  intro h
  have hopen : '[' ∈ host.toList := by
    rw [h, toList_bracketed]
    exact List.mem_cons_self
  exact (hhost _ hopen).2.2.2.1 rfl

theorem isCandidate_knownHostsEntryHost_iff (hhost : ∀ c ∈ host.toList, HostChar c)
    (hhost' : ∀ c ∈ host'.toList, HostChar c) :
    IsCandidate host' port' (knownHostsEntryHost host port) ↔ host' = host ∧ port' = port := by
  unfold IsCandidate knownHostsEntryHost
  split
  · rename_i hport
    rw [hport, or_iff_left (ne_bracketed hhost), and_comm, eq_comm]
  · rename_i hport
    constructor
    · rintro (⟨_, hsame⟩ | hsame)
      · exact absurd hsame.symm (ne_bracketed hhost')
      · obtain ⟨rfl, rfl⟩ := bracketed_inj hhost hsame
        exact ⟨rfl, rfl⟩
    · rintro ⟨rfl, rfl⟩
      exact Or.inr rfl

theorem wildcardPatternMatches_plain {pattern target : List Char} (hstar : '*' ∉ pattern)
    (hany : '?' ∉ pattern) (htarget : '*' ∉ target) :
    wildcardPatternMatches pattern target = true ↔ pattern = target := by
  rw [wildcardPatternMatches_iff htarget]
  refine Wildcard.matches_literal (fun b hb => decide_eq_false fun h => hstar (h ▸ hb)) ?_
  intro b hb c
  have hquestion : b ≠ '?' := fun h => hany (h ▸ hb)
  simp [acceptsChar, hquestion]

theorem notMem_knownHostsEntryHost {c : Char} (hhost : ∀ c ∈ host.toList, HostChar c)
    (hchar : ¬HostChar c) (hother : c ≠ '[' ∧ c ≠ ']' ∧ c ≠ ':' ∧ c.isDigit = false) :
    c ∉ (knownHostsEntryHost host port).toList := by
  intro h
  rcases mem_knownHostsEntryHost h with h | h | h | h | h
  · exact hchar (hhost c h)
  · exact hother.1 h
  · exact hother.2.1 h
  · exact hother.2.2.1 h
  · rw [hother.2.2.2] at h
    cases h

theorem star_notMem_candidate {candidate : String} (hhost : ∀ c ∈ host.toList, HostChar c)
    (h : IsCandidate host port candidate) : '*' ∉ candidate.toList := by
  rcases h with ⟨_, rfl⟩ | rfl
  · exact fun hmem => (hhost _ hmem).1 rfl
  · rw [toList_bracketed]
    intro hmem
    simp only [List.mem_cons, List.mem_append] at hmem
    rcases hmem with h | h | h | h | h
    · cases h
    · exact (hhost _ h).1 rfl
    · cases h
    · cases h
    · cases Delimiters.isDigit_of_mem_numeral h

theorem splitNegation_plain {pattern : String} (h : '!' ∉ pattern.toList) :
    splitNegation pattern = (false, pattern.toList) := by
  unfold splitNegation
  split
  · rename_i token htoken
    rw [htoken] at h
    exact absurd List.mem_cons_self h
  · rfl

variable {hmacSha1 : List UInt8 → List UInt8 → Option (List UInt8)} {entry : KnownHostEntry KeyData}

/-- The entry that was written applies to its host and port alone. -/
theorem applies_written_iff (hhost : ∀ c ∈ host.toList, HostChar c)
    (hhost' : ∀ c ∈ host'.toList, HostChar c)
    (hname : entry.hostPatterns = .patterns [knownHostsEntryHost host port]) :
    Applies hmacSha1 host' port' entry ↔ host' = host ∧ port' = port := by
  have hplain : splitNegation (knownHostsEntryHost host port) =
      (false, (knownHostsEntryHost host port).toList) :=
    splitNegation_plain (notMem_knownHostsEntryHost hhost (fun h => h.2.2.1 rfl) (by decide))
  have hstar : '*' ∉ (knownHostsEntryHost host port).toList :=
    notMem_knownHostsEntryHost hhost (fun h => h.1 rfl) (by decide)
  have hany : '?' ∉ (knownHostsEntryHost host port).toList :=
    notMem_knownHostsEntryHost hhost (fun h => h.2.1 rfl) (by decide)
  rw [← isCandidate_knownHostsEntryHost_iff hhost hhost']
  unfold Applies SomeMatches
  simp only [hname, List.mem_singleton, exists_eq_left, hplain, true_and, Bool.false_eq_true,
    false_and, and_false, exists_false, not_false_eq_true, and_true]
  constructor
  · rintro ⟨candidate, hcandidate, hmatches⟩
    rw [wildcardPatternMatches_plain hstar hany (star_notMem_candidate hhost' hcandidate)]
      at hmatches
    rwa [String.toList_inj.mp hmatches]
  · intro hcandidate
    refine ⟨_, hcandidate, ?_⟩
    have hnostar := star_notMem_candidate hhost' hcandidate
    exact (wildcardPatternMatches_plain hstar hany hnostar).mpr rfl

/-! ## The appended line -/

theorem parseKnownHosts_append {parseLine : List Char → Option (Option (KnownHostEntry KeyData))}
    {text text' : String} {line : List Char} {entries : List (KnownHostEntry KeyData)}
    (hpieces : Pieces.pieces '\n' text'.toList = Pieces.pieces '\n' text.toList ++ [line])
    (hparse : parseKnownHosts parseLine text = some entries)
    (hline : parseLine line = some (some entry)) :
    parseKnownHosts parseLine text' = some (entries ++ [entry]) := by
  unfold parseKnownHosts at hparse ⊢
  obtain ⟨parsed, hparsed, rfl⟩ := Option.map_eq_some_iff.mp hparse
  rw [hpieces, List.mapM_append, hparsed]
  simp [hline]

variable [DecidableEq KeyData]

theorem resolve_append {entries : List (KnownHostEntry KeyData)} {serverKey : KeyData}
    (h : ¬Applies hmacSha1 host port entry) :
    resolveKnownHostCheckResultFromEntries hmacSha1 (entries ++ [entry]) host port serverKey =
      resolveKnownHostCheckResultFromEntries hmacSha1 entries host port serverKey := by
  refine resolve_congr ?_ ?_ <;> simp [or_and_right, exists_or, h]

/--
A host that is trusted gets a line of its own after all that was in the file. Its
key is found from then on, and the answers for other hosts and ports stay.
-/
theorem trust_is_local (hmacSha1 : List UInt8 → List UInt8 → Option (List UInt8))
    {parseLine : List Char → Option (Option (KnownHostEntry KeyData))}
    {publicKeyFromBytes : List UInt8 → Option KeyData} {text host algorithm : String}
    {port : UInt16} {key : List UInt8} {entries : List (KnownHostEntry KeyData)}
    (hhost : ∀ c ∈ host.toList, HostChar c) (halgorithm : hostKeyAlgorithmName key = some algorithm)
    (hparse : parseKnownHosts parseLine text = some entries)
    (hreads : ∀ line, knownHostsEntryLine (knownHostsEntryHost host port) key = .ok line →
      ∃ entry, parseLine line.toList = some (some entry) ∧
        ReadsBack publicKeyFromBytes (knownHostsEntryHost host port) key entry) :
    ∃ text' line entries',
      appendKnownHostsEntry text (knownHostsEntryHost host port) key = .ok text' ∧
      knownHostsEntryLine (knownHostsEntryHost host port) key = .ok line ∧
      text.toList <+: text'.toList ∧
      Pieces.pieces '\n' text'.toList = Pieces.pieces '\n' text.toList ++ [line.toList] ∧
      parseKnownHosts parseLine text' = some entries' ∧
      (∀ serverKey, publicKeyFromBytes key = some serverKey →
        resolveKnownHostCheckResultFromEntries hmacSha1 entries' host port serverKey = .matched) ∧
      ∀ host' port' serverKey, (∀ c ∈ host'.toList, HostChar c) → (host', port') ≠ (host, port) →
        resolveKnownHostCheckResultFromEntries hmacSha1 entries' host' port' serverKey =
          resolveKnownHostCheckResultFromEntries hmacSha1 entries host' port' serverKey := by
  have hwritten : knownHostsEntryLine (knownHostsEntryHost host port) key =
      .ok (knownHostsEntryHost host port ++ " " ++ algorithm ++ " " ++
        String.ofList (Base64.encode key)) := by
    rw [knownHostsEntryLine, halgorithm]
  obtain ⟨entry, hentry, hback⟩ := hreads _ hwritten
  have hpieces := @pieces_append_line text _ (@newline_notMem_line _ port _ _ hhost halgorithm)
  refine ⟨_, _, entries ++ [entry], ?_, hwritten, ?_, hpieces,
    parseKnownHosts_append hpieces hparse hentry, ?_, ?_⟩
  · rw [appendKnownHostsEntry, hwritten]
  · rw [String.toList_append]
    exact List.prefix_append _ _
  · intro serverKey hkey
    refine (resolve_matched_iff _).mpr ⟨entry, by simp, ?_, ?_⟩
    · exact (applies_written_iff hhost hhost hback.name).mpr ⟨rfl, rfl⟩
    · exact Option.some.inj (hback.key.trans hkey)
  · intro host' port' serverKey hhost' hother
    refine resolve_append fun happlies => hother ?_
    obtain ⟨rfl, rfl⟩ := (applies_written_iff hhost hhost' hback.name).mp happlies
    rfl

/-- The file only changes for an unknown key that the user accepts. -/
theorem accepted_of_checkHostKey {checked : CheckResult} {decision : HostKeyDecision}
    {text text' : String} {key : List UInt8}
    (h : checkHostKey checked decision text host port key = .ok text') (hchanged : text' ≠ text) :
    (checked = .notFound ∨ checked = .failure) ∧ decision = .accept ∧
      appendKnownHostsEntry text (knownHostsEntryHost host port) key = .ok text' := by
  cases checked with
  | matched =>
      cases h
      exact absurd rfl hchanged
  | mismatch => cases h
  | notFound =>
      cases decision with
      | reject => cases h
      | accept => exact ⟨Or.inl rfl, rfl, h⟩
  | failure =>
      cases decision with
      | reject => cases h
      | accept => exact ⟨Or.inr rfl, rfl, h⟩

/-- A parser of plain lines: one name, the algorithm and the key. -/
def sampleParseLine (line : List Char) : Option (Option (KnownHostEntry (List UInt8))) :=
  match Pieces.pieces ' ' line with
  | [] => some none
  | [name, algorithm, key] =>
      (Base64.decode key).bind fun bytes =>
        if hostKeyAlgorithmName bytes = some (String.ofList algorithm) then
          some (some ⟨none, .patterns [String.ofList name], bytes⟩)
        else none
  | _ => none

/-- A key of an algorithm with a short name. -/
def sampleHostKey : List UInt8 := [0, 0, 0, 1, 97, 1]

/-- A name is added to a file that ends within a line. -/
theorem trust_is_local_sample :
    ∃ text' entries', appendKnownHostsEntry "o a AAAAAWEB" (knownHostsEntryHost "h" 2222)
        sampleHostKey = .ok text' ∧
      parseKnownHosts sampleParseLine text' = some entries' ∧
      resolveKnownHostCheckResultFromEntries (fun _ _ => none) entries' "h" 2222 sampleHostKey =
        .matched := by
  have hline : knownHostsEntryLine (knownHostsEntryHost "h" 2222) sampleHostKey =
      .ok "[h]:2222 a AAAAAWEB" := by decide +kernel
  have hparse : parseKnownHosts sampleParseLine "o a AAAAAWEB" =
      some [⟨none, .patterns ["o"], sampleHostKey⟩] := by decide +kernel
  have hentry : sampleParseLine "[h]:2222 a AAAAAWEB".toList =
      some (some ⟨none, .patterns [knownHostsEntryHost "h" 2222], sampleHostKey⟩) := by
    decide +kernel
  have hhost : ∀ c ∈ "h".toList, HostChar c := by
    intro c hc
    rw [List.mem_singleton.mp (show c ∈ ['h'] from hc)]
    exact hostChar_of_alphabet (Or.inl rfl)
  obtain ⟨text', _, entries', happend, _, _, _, hparsed, hmatched, _⟩ :=
    trust_is_local (fun _ _ => none) hhost
      (show hostKeyAlgorithmName sampleHostKey = some "a" by decide +kernel) hparse
      (fun line h => by
        cases hline.symm.trans h
        exact ⟨_, hentry, rfl, rfl, (rfl : some sampleHostKey = some sampleHostKey)⟩)
  exact ⟨text', entries', happend, hparsed, hmatched sampleHostKey rfl⟩

end KnownHosts

end Fulgur
