import Mathlib.Tactic.SplitIfs
import Fulgur.Search.LowerCase

/-! # Searches with and without case

The two searches agree when a text and a query are lowered alike. They differ
where the query ends a word with a sigma, and where it is a part of what one
character is lowered to.
-/

namespace Fulgur

open Expansion

variable {u : Unicode} {text before middle after query : List Char} {wholeWord : Bool}
  {scratch : SearchScratch} {found : SearchMatch}

/-! ## Ranges -/

theorem placedMatch_nonempty_iff :
    (placedMatch before middle).start < (placedMatch before middle).stop ↔ middle ≠ [] := by
  rw [placedMatch]
  simp only [byteLen_append]
  constructor
  · rintro h rfl
    exact absurd h (by simp)
  · intro h
    have hpos := byteLen_pos h
    omega

theorem aligned_foldedMatches (hquery : query ≠ [])
    (h : found ∈ foldedMatches u text query wholeWord scratch) :
    isCharBoundary found.start text = true ∧ isCharBoundary found.stop text = true := by
  obtain ⟨before, middle, after, p, r, htext, -, -, -, rfl⟩ := (mem_foldedMatches hquery).mp h
  constructor
  · rw [htext]
    exact isCharBoundary_append before (middle ++ after)
  · rw [htext, ← List.append_assoc]
    exact isCharBoundary_append (before ++ middle) after

/-- No character that is kept is lowered to more than the query in it. -/
def NoPartialMatch (u : Unicode) (text query : List Char) (wholeWord : Bool) : Prop :=
  ∀ before c after, text = before ++ c :: after → isKept u wholeWord before (c :: after) = true →
    ∀ pre post, u.toLowercase c = pre ++ (u.strToLowercase query ++ post) → post = []

/-- A range is empty just where the query is a part of what one character is lowered to. -/
theorem nonempty_foldedMatches_iff (hquery : query ≠ []) :
    (∀ found ∈ foldedMatches u text query wholeWord scratch, found.start < found.stop) ↔
      NoPartialMatch u text query wholeWord := by
  constructor
  · intro h before c after htext hkept pre post hc
    by_contra hpost
    have hstart : Cut u.toLowercase before ([] ++ c :: after) (before.flatMap u.toLowercase ++ pre)
        (u.strToLowercase query ++ (post ++ after.flatMap u.toLowercase)) := by
      rw [← List.append_assoc (u.strToLowercase query)]
      refine Cut.of_part before after hc fun hnil => hpost ?_
      exact (List.append_eq_nil_iff.mp hnil).2
    have hend : Cut u.toLowercase (before ++ []) (c :: after)
        (before.flatMap u.toLowercase ++ pre ++ u.strToLowercase query)
        (post ++ after.flatMap u.toLowercase) := by
      rw [List.append_nil, List.append_assoc]
      exact Cut.of_part before after (hc.trans (List.append_assoc _ _ _).symm) hpost
    have hmem : placedMatch before [] ∈ foldedMatches u text query wholeWord scratch :=
      (mem_foldedMatches hquery).mpr
        ⟨before, [], c :: after, _, _, htext, hstart, hend, hkept, rfl⟩
    exact placedMatch_nonempty_iff.mp (h _ hmem) rfl
  · intro h found hfound
    obtain ⟨before, middle, after, p, r, htext, hstart, hend, hkept, rfl⟩ :=
      (mem_foldedMatches hquery).mp hfound
    refine placedMatch_nonempty_iff.mpr fun hnil => ?_
    subst hnil
    rw [List.append_nil] at hend
    obtain ⟨c, rest, pre, post, rfl, hc, hpost, -⟩ :=
      hstart.part (strToLowercase_ne_nil hquery) hend
    exact hpost (h before c rest htext hkept pre post hc)

/-! ## The order of the matches -/

/-- A match starts where its place is traced back to. -/
theorem start_of_foundAt_folded {p r q : List Char} (htext : text = before ++ after)
    (hcut : Cut u.toLowercase before after p (q ++ r))
    (hfound : foundAt ((foldedSearch u text wholeWord scratch).matchAt u) q p = some found) :
    found.start = byteLen before := by
  have hlower : lowerText u text = p ++ (q ++ r) := by
    rw [htext]
    exact hcut.flatMap
  obtain ⟨before', middle, after', htext', hstart, -, hmatch⟩ := exists_matchAt_folded hlower
  have hoffset := lowercaseOffsets_of_cut hcut
  have hoffset' := lowercaseOffsets_of_cut hstart
  rw [← htext] at hoffset
  rw [← htext', hoffset] at hoffset'
  rw [foundAt, hmatch] at hfound
  split at hfound
  · rw [← Option.some.inj hfound]
    exact (Option.some.inj hoffset').symm
  · cases hfound

/-- No character is lowered to twice the same one, so no two matches start together. -/
theorem foldedMatches_pairwise (hquery : query ≠ []) :
    (foldedMatches u text query wholeWord scratch).Pairwise fun a b => a.start < b.start := by
  have hne := strToLowercase_ne_nil (u := u) hquery
  refine allFound_pairwise hne fun p r c skipped r' hplace hplace' a ha b hb => ?_
  rw [List.append_assoc] at hplace'
  obtain ⟨before, middle, after, htext, hstart, hend⟩ := exists_span u.lowercase_ne_nil hplace'
  have hrest : u.strToLowercase query ++ r = (c :: skipped) ++ (u.strToLowercase query ++ r') :=
    List.append_cancel_left (hplace.symm.trans hplace')
  have hstartA := start_of_foundAt_folded htext (hrest ▸ hstart) ha
  have hstartB := start_of_foundAt_folded (htext.trans (List.append_assoc _ _ _).symm) hend hb
  rw [hstartA, hstartB, byteLen_append]
  have hmiddle : middle ≠ [] := by
    rintro rfl
    rw [List.append_nil] at hend
    obtain ⟨d, rest, pre, post, rfl, hd, hpost, hlast⟩ :=
      hstart.part (List.cons_ne_nil c skipped) hend
    -- both places begin with the first character of the query
    obtain ⟨x, xs, hx⟩ := List.exists_cons_of_ne_nil hne
    obtain ⟨y, ys, rfl⟩ := List.exists_cons_of_ne_nil hpost
    rw [hx, List.cons_append] at hrest hlast
    obtain ⟨rfl, -⟩ := List.cons.inj hrest
    obtain ⟨rfl, -⟩ := List.cons.inj hlast
    have hnodup := u.lowercase_nodup d
    rw [hd, List.nodup_append] at hnodup
    exact (List.nodup_cons.mp hnodup.2.1).1 (List.mem_append_right _ List.mem_cons_self)
  have hpos := byteLen_pos hmiddle
  omega

/-! ## Matches of both searches -/

theorem length_strToLowercaseFrom (before query : List Char) :
    (u.strToLowercaseFrom before query).length = (lowerText u query).length := by
  induction query generalizing before with
  | nil => rfl
  | cons c cs ih =>
      rw [Unicode.strToLowercaseFrom, lowerText, List.flatMap_cons, List.length_append,
        List.length_append, ih]
      by_cases hc : c = 'Σ'
      · rw [if_pos hc, hc, u.lowercase_sigma]
        rfl
      · rw [if_neg hc]
        rfl

/-- A place that starts in the first character of the query starts before it. -/
theorem not_within_first {c : Char} {cs pre post rest r : List Char}
    (hc : u.toLowercase c = pre ++ post) (hpre : pre ≠ []) (hpost : post ≠ [])
    (hrest : u.strToLowercase (c :: cs) ++ r = post ++ rest) : False := by
  obtain ⟨x, xs, rfl⟩ := List.exists_cons_of_ne_nil hpre
  obtain ⟨y, ys, rfl⟩ := List.exists_cons_of_ne_nil hpost
  by_cases hsigma : c = 'Σ'
  · rw [hsigma, u.lowercase_sigma] at hc
    have hlen := congrArg List.length hc
    simp at hlen
  · rw [Unicode.strToLowercase, Unicode.strToLowercaseFrom, if_neg hsigma, hc] at hrest
    obtain ⟨rfl, -⟩ := List.cons.inj hrest
    have hnodup := u.lowercase_nodup c
    rw [hc, List.cons_append, List.nodup_cons] at hnodup
    exact hnodup.1 (List.mem_append_right _ List.mem_cons_self)

/-- The query is lowered as a text is, if it is found at all. -/
def LoweredAlike (u : Unicode) (text query : List Char) (wholeWord : Bool) : Prop :=
  ∀ before after, text = (before ++ query) ++ after → isKept u wholeWord before after = true →
    u.strToLowercase query = lowerText u query

/-- What the other search finds at a place of the query is lowered as the text is. -/
theorem lowered_of_mem (hquery : query ≠ []) (htext : text = before ++ (query ++ after))
    (h : placedMatch before query ∈ foldedMatches u text query wholeWord scratch) :
    u.strToLowercase query = lowerText u query := by
  obtain ⟨before', middle, after', p, r, htext', hstart, hend, -, hfound⟩ :=
    (mem_foldedMatches hquery).mp h
  have hbefore : before = before' := eq_of_byteLen_eq (htext.symm.trans htext')
    (congrArg SearchMatch.start hfound)
  subst hbefore
  rw [← List.append_assoc] at htext htext'
  have hmiddle : before ++ query = before ++ middle := eq_of_byteLen_eq (htext.symm.trans htext')
    (congrArg SearchMatch.stop hfound)
  obtain rfl := List.append_cancel_left hmiddle
  obtain ⟨c, cs, rfl⟩ := List.exists_cons_of_ne_nil hquery
  generalize hfirst : u.strToLowercase (c :: cs) ++ r = result at hstart
  cases hstart with
  | within d rest pre post hpre hpost hd => exact (not_within_first hd hpre hpost hfirst).elim
  | between =>
      generalize hlast : before.flatMap u.toLowercase ++ u.strToLowercase (c :: cs) = whole at hend
      cases hend with
      | between =>
          rw [List.flatMap_append] at hlast
          exact List.append_cancel_left hlast
      | within d rest pre post hpre hpost hd =>
          rw [List.flatMap_append, List.append_assoc] at hlast
          have hlen := congrArg List.length (List.append_cancel_left hlast)
          have hpos := List.length_pos_iff.mpr hpre
          have hsame := length_strToLowercaseFrom (u := u) [] (c :: cs)
          rw [List.length_append] at hlen
          rw [← Unicode.strToLowercase, lowerText] at hsame
          omega

/--
Every match of the search that looks at case is one of the other search just
when the query is lowered as the text is.
-/
theorem included_iff (hquery : query ≠ []) {scratch scratch' : SearchScratch} :
    (∀ found ∈ sensitiveMatches u text query wholeWord scratch,
      found ∈ foldedMatches u text query wholeWord scratch') ↔
      LoweredAlike u text query wholeWord := by
  constructor
  · intro h before after htext hkept
    refine lowered_of_mem hquery (htext.trans (List.append_assoc _ _ _)) (h _ ?_)
    exact (mem_sensitiveMatches hquery).mpr ⟨before, after, htext, hkept, rfl⟩
  · intro h found hfound
    obtain ⟨before, after, htext, hkept, rfl⟩ := (mem_sensitiveMatches hquery).mp hfound
    have hlowered := h before after htext hkept
    refine (mem_foldedMatches hquery).mpr ⟨before, query, after, lowerText u before,
      lowerText u after, htext.trans (List.append_assoc _ _ _), ?_, ?_, hkept, rfl⟩
    · rw [hlowered, lowerText, lowerText, lowerText, ← List.flatMap_append]
      exact .between (query ++ after)
    · rw [hlowered, lowerText, lowerText, lowerText, ← List.flatMap_append]
      exact .between after

/-! ## The searches of one query -/

/-- What the two searches are to give. -/
structure ExactMatches (u : Unicode) (text query : List Char) (wholeWord : Bool)
    (sensitive folded : List SearchMatch) : Prop where
  found : ∀ found, found ∈ sensitive ↔ ∃ before after, text = (before ++ query) ++ after ∧
    isKept u wholeWord before after = true ∧ found = placedMatch before query
  ordered : sensitive.Pairwise fun a b => a.start < b.start
  nonempty : ∀ found ∈ folded, found.start < found.stop
  aligned : ∀ found ∈ folded,
    isCharBoundary found.start text = true ∧ isCharBoundary found.stop text = true
  folded_ordered : folded.Pairwise fun a b => a.start < b.start
  included : ∀ found ∈ sensitive, found ∈ folded

/-- The searches do not panic and give what they are to give, whatever their buffers held. -/
def SearchIsExact (u : Unicode) (text query : List Char) (wholeWord : Bool) : Prop :=
  ∀ scratch scratch', ∃ sensitive folded,
    (findMatchesWithScratch u text query true wholeWord scratch).map Prod.fst = some sensitive ∧
    (findMatchesWithScratch u text query false wholeWord scratch').map Prod.fst = some folded ∧
    ExactMatches u text query wholeWord sensitive folded

/--
Searches are exact just when no character that is kept is lowered to more than
the query in it, and a query that is found is lowered as the text is.
-/
theorem searchIsExact_iff (hquery : query ≠ []) :
    SearchIsExact u text query wholeWord ↔
      NoPartialMatch u text query wholeWord ∧ LoweredAlike u text query wholeWord := by
  constructor
  · intro h
    obtain ⟨sensitive, folded, hsensitive, hfolded, hexact⟩ := h ⟨[], [], []⟩ ⟨[], [], []⟩
    rw [findMatches_sensitive hquery] at hsensitive
    rw [findMatches_folded hquery] at hfolded
    cases hsensitive
    cases hfolded
    exact ⟨(nonempty_foldedMatches_iff hquery).mp hexact.nonempty,
      (included_iff hquery).mp hexact.included⟩
  · rintro ⟨hwhole, hlowered⟩ scratch scratch'
    refine ⟨_, _, findMatches_sensitive hquery, findMatches_folded hquery, ?_⟩
    exact {
      found := fun _ => mem_sensitiveMatches hquery
      ordered := sensitiveMatches_pairwise hquery
      nonempty := (nonempty_foldedMatches_iff hquery).mpr hwhole
      aligned := fun _ => aligned_foldedMatches hquery
      folded_ordered := foldedMatches_pairwise hquery
      included := (included_iff hquery).mpr hlowered }

/-- The tables for ASCII and three more letters. -/
def sampleUnicode : Unicode where
  toLowercase c :=
    if c = 'İ' then ['i', Char.ofNat 0x307] else if c = 'Α' then ['α'] else if c = 'Σ' then ['σ']
    else [c.toLower]
  isAlphanumeric c := c.isAlphanum || ['İ', 'Α', 'Σ'].contains c
  caseIgnorable c := c.toNat = 0x27
  cased c := c.isAlpha || ['İ', 'Α', 'Σ'].contains c
  lowercase_ne_nil c := by split_ifs <;> simp
  lowercase_nodup c := by split_ifs <;> simp
  lowercase_sigma := rfl

/-- Words in both cases, next to a letter that is lowered to two characters. -/
def sampleWords : List Char := ['B', 'a', ' ', 'İ', 'b', 'A', ' ', 'b', 'a']

theorem searchIsExact_sample : SearchIsExact sampleUnicode sampleWords ['b', 'A'] true := by
  refine (searchIsExact_iff (by decide)).mpr ⟨?_, fun _ _ _ _ => by decide⟩
  intro before c after htext _ pre post hc
  have hmem : c ∈ sampleWords := by
    rw [htext]
    simp
  have hlen := congrArg List.length hc
  simp only [List.length_append] at hlen
  have hshort : sampleWords.all (fun c => (sampleUnicode.toLowercase c).length ≤ 2) = true := by
    decide
  have hquery : (sampleUnicode.strToLowercase ['b', 'A']).length = 2 := by decide
  have hle := of_decide_eq_true (List.all_eq_true.mp hshort c hmem)
  rw [← List.length_eq_zero_iff]
  omega

/-- An empty range is found, and a word that ends with a sigma is not. -/
theorem searchIsExact_fails :
    ¬ SearchIsExact sampleUnicode ['İ'] ['i'] false ∧
      ¬ SearchIsExact sampleUnicode ['Α', 'Σ'] ['Α', 'Σ'] false := by
  constructor
  · intro h
    obtain ⟨sensitive, folded, -, hfolded, hexact⟩ := h ⟨[], [], []⟩ ⟨[], [], []⟩
    have hrun : (findMatchesWithScratch sampleUnicode ['İ'] ['i'] false false ⟨[], [], []⟩).map
        Prod.fst = some [⟨0, 0, 0, 0⟩] := by decide +kernel
    rw [hrun] at hfolded
    cases hfolded
    exact absurd (hexact.nonempty _ List.mem_cons_self) (by decide)
  · intro h
    obtain ⟨sensitive, folded, hsensitive, hfolded, hexact⟩ := h ⟨[], [], []⟩ ⟨[], [], []⟩
    have hrun : (findMatchesWithScratch sampleUnicode ['Α', 'Σ'] ['Α', 'Σ'] true false
        ⟨[], [], []⟩).map Prod.fst = some [⟨0, 4, 0, 0⟩] := by decide +kernel
    have hnone : (findMatchesWithScratch sampleUnicode ['Α', 'Σ'] ['Α', 'Σ'] false false
        ⟨[], [], []⟩).map Prod.fst = some [] := by decide +kernel
    rw [hrun] at hsensitive
    rw [hnone] at hfolded
    cases hsensitive
    cases hfolded
    exact nomatch hexact.included _ List.mem_cons_self

end Fulgur
