import Fulgur.Remote.KnownHosts
import Mathlib.Data.List.Perm.Basic

/-! # The host-key decision

The answer about a key only depends on which entries apply to the host and which
of these carry the key. An entry applies by what its patterns match, in whatever
order they stand.
-/

namespace Fulgur

namespace KnownHosts

/-- A text that a pattern with the wildcards `*` and `?` describes. -/
def WildcardMatches (pattern target : List Char) : Prop :=
  Wildcard.Matches isStar acceptsChar pattern target

/-- The names that the file may list a host under. -/
def IsCandidate (host : String) (port : UInt16) (candidate : String) : Prop :=
  port = 22 ∧ candidate = host ∨ candidate = bracketed host port

/-- Some positive or some negated pattern of the list matches a name of the host. -/
def SomeMatches (negated : Bool) (patterns : List String) (host : String) (port : UInt16) : Prop :=
  ∃ pattern ∈ patterns, ∃ candidate, IsCandidate host port candidate ∧
    (splitNegation pattern).1 = negated ∧
    wildcardPatternMatches (splitNegation pattern).2 candidate.toList = true

variable {KeyData : Type} (hmacSha1 : List UInt8 → List UInt8 → Option (List UInt8))

def Applies (host : String) (port : UInt16) (entry : KnownHostEntry KeyData) : Prop :=
  match entry.hostPatterns with
  | .patterns patterns =>
      SomeMatches false patterns host port ∧ ¬SomeMatches true patterns host port
  | .hashedName salt hash =>
      ∃ candidate, IsCandidate host port candidate ∧
        hmacSha1 salt (asBytes candidate) = some hash

/-- The same entry with its patterns in another order. -/
structure Reordered (entry entry' : KnownHostEntry KeyData) : Prop where
  marker : entry'.marker = entry.marker
  key : entry'.keyData = entry.keyData
  patterns : entry'.hostPatterns = entry.hostPatterns ∨
    ∃ before after, entry.hostPatterns = .patterns before ∧ entry'.hostPatterns = .patterns after ∧
      before.Perm after

variable {hmacSha1} {host : String} {port : UInt16}

theorem wildcardPatternMatches_iff {pattern target : List Char} (htarget : '*' ∉ target) :
    wildcardPatternMatches pattern target = true ↔ WildcardMatches pattern target := by
  refine Wildcard.scan_iff fun c hc a haccepts => ?_
  -- a letter that is no star is accepted by itself and by `?` only
  have hother : a = '?' ∨ a = c := by simpa [acceptsChar] using haccepts
  refine decide_eq_false fun hstar => ?_
  rcases hother with rfl | rfl
  · cases hstar
  · exact htarget (hstar ▸ hc)

theorem mem_hostMatchCandidates {candidate : String} :
    candidate ∈ hostMatchCandidates host port ↔ IsCandidate host port candidate := by
  unfold hostMatchCandidates IsCandidate
  split
  · rename_i hport
    subst hport
    simp
  · rename_i hport
    simp [hport]

theorem any_candidates {f : String → Bool} :
    (hostMatchCandidates host port).any f = true ↔
      ∃ candidate, IsCandidate host port candidate ∧ f candidate = true := by
  rw [List.any_eq_true]
  exact exists_congr fun candidate => and_congr_left' mem_hostMatchCandidates

theorem SomeMatches.cons {negated : Bool} {pattern : String} {patterns : List String} :
    SomeMatches negated (pattern :: patterns) host port ↔
      ((splitNegation pattern).1 = negated ∧ (hostMatchCandidates host port).any (fun candidate =>
        wildcardPatternMatches (splitNegation pattern).2 candidate.toList) = true) ∨
      SomeMatches negated patterns host port := by
  unfold SomeMatches
  rw [List.exists_mem_cons_iff, any_candidates]
  refine or_congr_left ⟨?_, ?_⟩
  · rintro ⟨candidate, hcandidate, hnegated, hmatches⟩
    exact ⟨hnegated, candidate, hcandidate, hmatches⟩
  · rintro ⟨hnegated, candidate, hcandidate, hmatches⟩
    exact ⟨candidate, hcandidate, hnegated, hmatches⟩

/-- The loop stops at a negated match, and else tells whether it saw a positive one. -/
theorem matchPatternsFrom_iff {patterns : List String} {matched : Bool} :
    matchPatternsFrom (hostMatchCandidates host port) patterns matched = true ↔
      (matched = true ∨ SomeMatches false patterns host port) ∧
        ¬SomeMatches true patterns host port := by
  induction patterns generalizing matched with
  | nil => simp [matchPatternsFrom, SomeMatches]
  | cons pattern patterns ih =>
      rw [SomeMatches.cons, SomeMatches.cons]
      simp only [matchPatternsFrom]
      split
      · rename_i hmatches
        split
        · rename_i hnegated
          simp [hnegated, hmatches]
        · rename_i hpositive
          rw [ih]
          simp [hpositive, hmatches]
      · rename_i hmisses
        rw [ih]
        simp [hmisses]

theorem knownHostEntryMatchesTarget_iff {entry : KnownHostEntry KeyData} :
    knownHostEntryMatchesTarget hmacSha1 entry host port = true ↔
      Applies hmacSha1 host port entry := by
  unfold knownHostEntryMatchesTarget knownHostPatternsMatch Applies
  cases entry.hostPatterns with
  | patterns patterns =>
      simp only [matchKnownHostPatterns, matchPatternsFrom_iff, Bool.false_eq_true, false_or]
  | hashedName salt hash => simp only [any_candidates, hashedHostMatches, decide_eq_true_eq]

theorem SomeMatches.perm {negated : Bool} {before after : List String} (h : before.Perm after) :
    SomeMatches negated after host port ↔ SomeMatches negated before host port :=
  exists_congr fun _ => and_congr_left' h.mem_iff.symm

theorem Reordered.applies_iff {entry entry' : KnownHostEntry KeyData} (h : Reordered entry entry') :
    Applies hmacSha1 host port entry' ↔ Applies hmacSha1 host port entry := by
  unfold Applies
  rcases h.patterns with hsame | ⟨before, after, hbefore, hafter, hperm⟩
  · rw [hsame]
  · rw [hbefore, hafter]
    exact and_congr (SomeMatches.perm hperm) (not_congr (SomeMatches.perm hperm))

theorem exists_iff_of_reordered {entries entries' : List (KnownHostEntry KeyData)}
    (h : List.Forall₂ Reordered entries entries') {P : KnownHostEntry KeyData → Prop}
    (hP : ∀ entry entry', Reordered entry entry' → (P entry' ↔ P entry)) :
    (∃ entry ∈ entries', P entry) ↔ ∃ entry ∈ entries, P entry := by
  induction h with
  | nil => simp
  | cons hentry _ ih => rw [List.exists_mem_cons_iff, List.exists_mem_cons_iff, hP _ _ hentry, ih]

variable [DecidableEq KeyData] {serverKey : KeyData}

/-- The answer of the loop, by what it still finds and by what it saw. -/
theorem resolveFrom_eq (entries : List (KnownHostEntry KeyData)) (saw : Bool) :
    (resolveFrom hmacSha1 host port serverKey entries saw = .matched ↔
        ∃ entry ∈ entries, Applies hmacSha1 host port entry ∧ entry.keyData = serverKey) ∧
      (resolveFrom hmacSha1 host port serverKey entries saw = .notFound ↔
        saw = false ∧ ¬∃ entry ∈ entries, Applies hmacSha1 host port entry) ∧
      resolveFrom hmacSha1 host port serverKey entries saw ≠ .failure := by
  induction entries generalizing saw with
  | nil => cases saw <;> simp [resolveFrom]
  | cons entry entries ih =>
      simp only [List.exists_mem_cons_iff, resolveFrom]
      cases htarget : knownHostEntryMatchesTarget hmacSha1 entry host port with
      | false =>
          have happlies : ¬Applies hmacSha1 host port entry := fun h =>
            Bool.false_ne_true (htarget.symm.trans (knownHostEntryMatchesTarget_iff.mpr h))
          simpa [happlies] using ih saw
      | true =>
          have happlies := knownHostEntryMatchesTarget_iff.mp htarget
          by_cases hkey : entry.keyData = serverKey
          · simp [hkey, happlies]
          · simpa [hkey, happlies] using ih true

theorem resolve_matched_iff (entries : List (KnownHostEntry KeyData)) :
    resolveKnownHostCheckResultFromEntries hmacSha1 entries host port serverKey = .matched ↔
      ∃ entry ∈ entries, Applies hmacSha1 host port entry ∧ entry.keyData = serverKey :=
  (resolveFrom_eq entries false).1

theorem resolve_notFound_iff (entries : List (KnownHostEntry KeyData)) :
    resolveKnownHostCheckResultFromEntries hmacSha1 entries host port serverKey = .notFound ↔
      ¬∃ entry ∈ entries, Applies hmacSha1 host port entry :=
  (resolveFrom_eq entries false).2.1.trans (and_iff_right rfl)

theorem resolve_mismatch_iff (entries : List (KnownHostEntry KeyData)) :
    resolveKnownHostCheckResultFromEntries hmacSha1 entries host port serverKey = .mismatch ↔
      (∃ entry ∈ entries, Applies hmacSha1 host port entry) ∧
        ¬∃ entry ∈ entries, Applies hmacSha1 host port entry ∧ entry.keyData = serverKey := by
  have hmatched := @resolve_matched_iff _ hmacSha1 host port _ serverKey entries
  have hnotFound := @resolve_notFound_iff _ hmacSha1 host port _ serverKey entries
  have hfailure : resolveKnownHostCheckResultFromEntries hmacSha1 entries host port serverKey ≠
      .failure := (resolveFrom_eq entries false).2.2
  rw [← hmatched, ← not_not (a := ∃ entry ∈ entries, Applies hmacSha1 host port entry), ← hnotFound]
  cases hresult : resolveKnownHostCheckResultFromEntries hmacSha1 entries host port serverKey with
  | matched => simp
  | mismatch => simp
  | notFound => simp
  | failure => exact absurd hresult hfailure

/-- Entries that apply alike and carry the same keys give the same answer. -/
theorem resolve_congr {entries entries' : List (KnownHostEntry KeyData)}
    (hkeys : (∃ entry ∈ entries', Applies hmacSha1 host port entry ∧ entry.keyData = serverKey) ↔
      ∃ entry ∈ entries, Applies hmacSha1 host port entry ∧ entry.keyData = serverKey)
    (happlies : (∃ entry ∈ entries', Applies hmacSha1 host port entry) ↔
      ∃ entry ∈ entries, Applies hmacSha1 host port entry) :
    resolveKnownHostCheckResultFromEntries hmacSha1 entries' host port serverKey =
      resolveKnownHostCheckResultFromEntries hmacSha1 entries host port serverKey := by
  cases hresult : resolveKnownHostCheckResultFromEntries hmacSha1 entries host port serverKey with
  | matched =>
      have hmatched := (resolve_matched_iff entries).mp hresult
      exact (resolve_matched_iff entries').mpr (hkeys.mpr hmatched)
  | mismatch =>
      obtain ⟨happly, hkey⟩ := (resolve_mismatch_iff entries).mp hresult
      exact (resolve_mismatch_iff entries').mpr ⟨happlies.mpr happly, fun h => hkey (hkeys.mp h)⟩
  | notFound =>
      have hnone := (resolve_notFound_iff entries).mp hresult
      exact (resolve_notFound_iff entries').mpr fun h => hnone (happlies.mp h)
  | failure => exact absurd hresult (resolveFrom_eq entries false).2.2

theorem resolve_reordered {entries sorted entries' : List (KnownHostEntry KeyData)}
    (hperm : entries.Perm sorted) (h : List.Forall₂ Reordered sorted entries') :
    resolveKnownHostCheckResultFromEntries hmacSha1 entries' host port serverKey =
      resolveKnownHostCheckResultFromEntries hmacSha1 entries host port serverKey := by
  refine resolve_congr ?_ ?_
  · rw [exists_iff_of_reordered h fun entry entry' hentry => by rw [hentry.applies_iff, hentry.key]]
    exact exists_congr fun entry => and_congr_left' hperm.mem_iff.symm
  · rw [exists_iff_of_reordered h fun entry entry' hentry => hentry.applies_iff]
    exact exists_congr fun entry => and_congr_left' hperm.mem_iff.symm

/--
The answer by the entries that apply, whatever their markers, and independently of
the order of the entries and of their patterns; and what a pattern matches.
-/
theorem resolve_exact (hmacSha1 : List UInt8 → List UInt8 → Option (List UInt8))
    (entries : List (KnownHostEntry KeyData)) (host : String) (port : UInt16)
    (serverKey : KeyData) :
    (resolveKnownHostCheckResultFromEntries hmacSha1 entries host port serverKey = .matched ↔
        ∃ entry ∈ entries, Applies hmacSha1 host port entry ∧ entry.keyData = serverKey) ∧
      (resolveKnownHostCheckResultFromEntries hmacSha1 entries host port serverKey = .mismatch ↔
        (∃ entry ∈ entries, Applies hmacSha1 host port entry) ∧
          ¬∃ entry ∈ entries, Applies hmacSha1 host port entry ∧ entry.keyData = serverKey) ∧
      (resolveKnownHostCheckResultFromEntries hmacSha1 entries host port serverKey = .notFound ↔
        ¬∃ entry ∈ entries, Applies hmacSha1 host port entry) ∧
      (∀ sorted entries', entries.Perm sorted → List.Forall₂ Reordered sorted entries' →
        resolveKnownHostCheckResultFromEntries hmacSha1 entries' host port serverKey =
          resolveKnownHostCheckResultFromEntries hmacSha1 entries host port serverKey) ∧
      ∀ pattern target : List Char, '*' ∉ target →
        (wildcardPatternMatches pattern target = true ↔ WildcardMatches pattern target) :=
  ⟨resolve_matched_iff entries, resolve_mismatch_iff entries, resolve_notFound_iff entries,
    fun _ _ => resolve_reordered, fun _ _ => wildcardPatternMatches_iff⟩

theorem aggregateFrom_matched_iff {results : List CheckResult} {sawMismatch sawNotFound : Bool} :
    aggregateFrom results sawMismatch sawNotFound = .matched ↔ .matched ∈ results := by
  induction results generalizing sawMismatch sawNotFound with
  | nil => cases sawMismatch <;> cases sawNotFound <;> simp [aggregateFrom]
  | cons result results ih => cases result <;> simp [aggregateFrom, ih]

theorem resolveWithKnownHostsFallback_matched_iff {primary : CheckResult}
    {fallback : Option CheckResult} :
    resolveWithKnownHostsFallback primary fallback = .matched ↔
      primary = .matched ∨ fallback = some .matched := by
  cases primary <;> rcases fallback with _ | fallback <;> try cases fallback
  all_goals decide

/-- A key passes exactly when one of the lookups of the library or the parser finds it. -/
theorem check_matched_iff {checkPort : String → UInt16 → CheckResult} {check : String → CheckResult}
    {fallback : Option CheckResult} :
    resolveWithKnownHostsFallback (resolveKnownHostCheckResult checkPort check host port) fallback =
        .matched ↔
      checkPort host port = .matched ∨ port = 22 ∧ check host = .matched ∨
        check (bracketed host port) = .matched ∨ fallback = some .matched := by
  rw [resolveWithKnownHostsFallback_matched_iff]
  unfold resolveKnownHostCheckResult aggregateCheckResults
  by_cases hport : port = 22
  · rw [if_pos hport, aggregateFrom_matched_iff]
    simp [hport, @eq_comm _ CheckResult.matched, or_assoc]
  · rw [if_neg hport, aggregateFrom_matched_iff]
    simp [hport, @eq_comm _ CheckResult.matched, or_assoc]

def sampleEntry (marker : Option Marker) (pattern : String) (key : Nat) : KnownHostEntry Nat :=
  ⟨marker, .patterns [pattern], key⟩

/--
A revoked key and the key of an authority pass as the key of the host. And a star
in a name is taken for the star of the pattern, so that the rest does not match.
-/
theorem markers_not_seen :
    resolveKnownHostCheckResultFromEntries (fun _ _ => none) [sampleEntry (some .revoked) "h" 1]
        "h" 22 1 = .matched ∧
      resolveKnownHostCheckResultFromEntries (fun _ _ => none)
        [sampleEntry (some .certAuthority) "h" 1] "h" 22 1 = .matched ∧
      resolveKnownHostCheckResultFromEntries (fun _ _ => none) [sampleEntry none "*h" 1]
        "*ah" 22 1 = .notFound ∧
      WildcardMatches "*h".toList "*ah".toList := by
  have hplain : hostMatchCandidates "h" 22 = ["h", "[h]:22"] := by decide
  have hstar : hostMatchCandidates "*ah" 22 = ["*ah", "[*ah]:22"] := by decide
  refine ⟨?_, ?_, ?_, ?_⟩
  · simp [resolveKnownHostCheckResultFromEntries, resolveFrom, knownHostEntryMatchesTarget,
      knownHostPatternsMatch, matchKnownHostPatterns, matchPatternsFrom, sampleEntry, hplain,
      splitNegation, wildcardPatternMatches, Wildcard.scan, acceptsChar]
  · simp [resolveKnownHostCheckResultFromEntries, resolveFrom, knownHostEntryMatchesTarget,
      knownHostPatternsMatch, matchKnownHostPatterns, matchPatternsFrom, sampleEntry, hplain,
      splitNegation, wildcardPatternMatches, Wildcard.scan, acceptsChar]
  · simp [resolveKnownHostCheckResultFromEntries, resolveFrom, knownHostEntryMatchesTarget,
      knownHostPatternsMatch, matchKnownHostPatterns, matchPatternsFrom, sampleEntry, hstar,
      splitNegation, wildcardPatternMatches, Wildcard.scan, isStar, acceptsChar]
  · exact .star ['*', 'a'] rfl (.one rfl rfl .nil)

end KnownHosts

end Fulgur
