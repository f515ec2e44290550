import Fulgur.Library.Intervals
import Fulgur.Search.CaseFolding

/-! # Replacing all matches

Matches that start within one that is replaced are passed over. For the places
of a query this is what the replacement of the standard library does, which
looks for the query behind each one it has replaced.
-/

namespace Fulgur

open Intervals

variable {u : Unicode} {text query replace before after between : List Char} {offset : Nat}

def sliceable (text : List Char) (searchMatches : List SearchMatch) : List SearchMatch :=
  searchMatches.filter fun found => found.slices text

/-- The matches that are replaced, of those that can be sliced out. -/
def replacedMatches (text : List Char) (searchMatches : List SearchMatch) : List SearchMatch :=
  greedy SearchMatch.start SearchMatch.stop (sliceable text searchMatches)

/--
A text from an offset on, with the replacement in place of each of the matches
and every other character as it was.
-/
inductive Replaced (replace : List Char) :
    Nat → List Char → List SearchMatch → List Char → Prop
  | rest (offset : Nat) (text : List Char) : Replaced replace offset text [] text
  | found {offset : Nat} {found : SearchMatch} {between matched after result : List Char}
      {kept : List SearchMatch} (hstart : found.start = offset + byteLen between)
      (hstop : found.stop = found.start + byteLen matched)
      (hrest : Replaced replace found.stop after kept result) :
      Replaced replace offset (between ++ (matched ++ after)) (found :: kept)
        (between ++ (replace ++ result))

/-! ## Slices -/

/-- Of two parts that start a text the one with fewer bytes starts the other. -/
theorem prefix_of_byteLen_le {before' after' : List Char}
    (htext : before ++ after = before' ++ after') (hle : byteLen before ≤ byteLen before') :
    ∃ between, before' = before ++ between := by
  rcases List.append_eq_append_iff.mp htext with ⟨between, hbetween, -⟩ | ⟨between, hbetween, -⟩
  · exact ⟨between, hbetween⟩
  · have hnil : between = [] := by
      by_contra hne
      have hpos := byteLen_pos hne
      rw [hbetween, byteLen_append] at hle
      omega
    exact ⟨[], by rw [hbetween, hnil, List.append_nil, List.append_nil]⟩

theorem exists_slice {found : SearchMatch} (hslices : found.slices (before ++ after) = true)
    (hbefore : byteLen before ≤ found.start) :
    ∃ between matched rest, after = between ++ (matched ++ rest) ∧
      found.start = byteLen (before ++ between) ∧
      found.stop = byteLen ((before ++ between) ++ matched) := by
  simp only [SearchMatch.slices, Bool.and_eq_true, decide_eq_true_eq] at hslices
  obtain ⟨⟨⟨-, horder⟩, hstart⟩, hstop⟩ := hslices
  obtain ⟨upTo, rest, htext, hupTo⟩ := isCharBoundary_iff.mp hstart
  obtain ⟨upTo', rest', htext', hupTo'⟩ := isCharBoundary_iff.mp hstop
  obtain ⟨between, rfl⟩ := prefix_of_byteLen_le htext (by omega)
  obtain ⟨matched, rfl⟩ := prefix_of_byteLen_le (htext.symm.trans htext') (by omega)
  refine ⟨between, matched, rest', ?_, hupTo.symm, hupTo'.symm⟩
  rw [List.append_assoc, List.append_assoc] at htext'
  exact List.append_cancel_left htext'

theorem sliceable_cons_of_pos {found : SearchMatch} {searchMatches : List SearchMatch}
    (h : found.slices text = true) :
    sliceable text (found :: searchMatches) = found :: sliceable text searchMatches :=
  List.filter_cons_of_pos h

theorem sliceable_cons_of_neg {found : SearchMatch} {searchMatches : List SearchMatch}
    (h : ¬ found.slices text = true) :
    sliceable text (found :: searchMatches) = sliceable text searchMatches :=
  List.filter_cons_of_neg h

/-- The matches are replaced as one scan takes them. -/
theorem replaced_scan (replace : List Char) (searchMatches : List SearchMatch)
    (before after : List Char) :
    Replaced replace (byteLen before) after
      (scan SearchMatch.start SearchMatch.stop (byteLen before)
        (sliceable (before ++ after) searchMatches))
      (applyReplacementsFrom (before ++ after) replace (byteLen before) searchMatches) := by
  induction searchMatches generalizing before after with
  | nil =>
      rw [sliceable, List.filter_nil, scan, applyReplacementsFrom, textFrom_append]
      exact .rest (byteLen before) after
  | cons found searchMatches ih =>
      rw [applyReplacementsFrom]
      by_cases hslices : found.slices (before ++ after) = true
      · rw [sliceable_cons_of_pos hslices, scan]
        by_cases hstart : found.start < byteLen before
        · rw [if_pos hstart, if_pos (Or.inl hstart)]
          exact ih before after
        · rw [if_neg hstart, if_neg (by simp [hstart, hslices])]
          obtain ⟨between, matched, rest, rfl, hfrom, hto⟩ :=
            exists_slice hslices (Nat.le_of_not_lt hstart)
          have hparts : before ++ (between ++ (matched ++ rest)) =
              ((before ++ between) ++ matched) ++ rest := by
            simp only [List.append_assoc]
          have hbetween : textFrom (byteLen before)
              (textUpTo found.start (before ++ (between ++ (matched ++ rest)))) = between := by
            rw [hfrom, ← List.append_assoc, textUpTo_append, textFrom_append]
          rw [hbetween, List.append_assoc]
          refine .found (by rw [hfrom, byteLen_append]) (by rw [hto, hfrom, byteLen_append]) ?_
          have hrest := ih ((before ++ between) ++ matched) rest
          rwa [← hto, ← hparts] at hrest
      · rw [sliceable_cons_of_neg hslices, if_pos (Or.inr (by simpa using hslices))]
        exact ih before after

theorem replaced_applyReplacements (text replace : String) (searchMatches : List SearchMatch) :
    Replaced replace.toList 0 text.toList (replacedMatches text.toList searchMatches)
      (applyReplacements searchMatches text replace).toList := by
  have hscan := replaced_scan replace.toList searchMatches [] text.toList
  have horder : ∀ found ∈ sliceable text.toList searchMatches, found.start ≤ found.stop := by
    intro found hfound
    have hslices := (List.mem_filter.mp hfound).2
    simp only [SearchMatch.slices, Bool.and_eq_true, decide_eq_true_eq] at hslices
    exact hslices.1.1.2
  have hall : notBefore SearchMatch.start 0 (sliceable text.toList searchMatches) =
      sliceable text.toList searchMatches :=
    List.filter_eq_self.mpr fun found _ => decide_eq_true (Nat.zero_le found.start)
  rw [List.nil_append, byteLen_nil, scan_eq_greedy 0 horder, hall] at hscan
  rw [applyReplacements, String.toList_ofList]
  exact hscan

/-! ## The places of a query -/

def placedMatches (query done rest : List Char) : List SearchMatch :=
  (places query done rest).map fun place => placedMatch place.1 query

theorem placedMatches_cons (query done : List Char) (c : Char) (cs : List Char) :
    placedMatches query done (c :: cs) =
      (if query <+: c :: cs then [placedMatch done query] else []) ++
        placedMatches query (done ++ [c]) cs := by
  rw [placedMatches, places, List.map_append]
  split
  · rfl
  · rfl

theorem slices_placedMatch (htext : text = (before ++ between) ++ after) :
    (placedMatch before between).slices text = true := by
  have hstart : isCharBoundary (byteLen before) text = true := by
    rw [htext, List.append_assoc]
    exact isCharBoundary_append before (between ++ after)
  have hstop : isCharBoundary (byteLen (before ++ between)) text = true := by
    rw [htext]
    exact isCharBoundary_append (before ++ between) after
  have hlen : byteLen text = byteLen (before ++ between) + byteLen after := by
    rw [htext, byteLen_append]
  have hle : byteLen (before ++ between) ≤ byteLen text := by omega
  have horder : byteLen before ≤ byteLen (before ++ between) := by
    rw [byteLen_append]
    omega
  simp [SearchMatch.slices, placedMatch, hstart, hstop, hle, horder]

/-- Matches that start within the last one that was replaced are passed over. -/
theorem applyReplacements_skip (query before : List Char) (c : Char) (cs : List Char) (skip : Nat) :
    applyReplacementsFrom text replace (byteLen (before ++ (c :: cs).take (skip + 1)))
        (placedMatches query before (c :: cs)) =
      applyReplacementsFrom text replace (byteLen ((before ++ [c]) ++ cs.take skip))
        (placedMatches query (before ++ [c]) cs) := by
  have hlast : before ++ (c :: cs).take (skip + 1) = (before ++ [c]) ++ cs.take skip := by
    rw [List.take_succ_cons, List.append_assoc]
    rfl
  rw [hlast, placedMatches_cons]
  split
  · have hpos := byteLen_pos (List.cons_ne_nil c [])
    have hstart : (placedMatch before query).start < byteLen ((before ++ [c]) ++ cs.take skip) := by
      rw [byteLen_append, byteLen_append]
      change byteLen before < _
      omega
    rw [List.singleton_append, applyReplacementsFrom, if_pos (Or.inl hstart)]
  · rfl

theorem applyReplacements_place (htext : text = ((before ++ between) ++ query) ++ after)
    (searchMatches : List SearchMatch) :
    applyReplacementsFrom text replace (byteLen before)
        (placedMatch (before ++ between) query :: searchMatches) =
      between ++ (replace ++
        applyReplacementsFrom text replace (byteLen ((before ++ between) ++ query))
          searchMatches) := by
  have hslices := slices_placedMatch htext
  have hstart : ¬ (placedMatch (before ++ between) query).start < byteLen before := by
    rw [placedMatch, byteLen_append]
    exact Nat.not_lt.mpr (Nat.le_add_right _ _)
  have hbetween : textFrom (byteLen before) (textUpTo (byteLen (before ++ between)) text) =
      between := by
    rw [htext, List.append_assoc, textUpTo_append, textFrom_append]
  rw [applyReplacementsFrom, if_neg (by simp [hstart, hslices]), List.append_assoc]
  exact congrArg (· ++ _) hbetween

/--
The replacement of the standard library replaces the matches of the search: with
characters to skip behind the last one, and with characters since then.
-/
theorem applyReplacementsFrom_places (hquery : query ≠ []) (replace rest : List Char) :
    (∀ before skip, text = before ++ rest →
      applyReplacementsFrom text replace (byteLen (before ++ rest.take skip))
        (placedMatches query before rest) = replaceOccurrences query replace skip rest) ∧
    ∀ before between, text = (before ++ between) ++ rest →
      applyReplacementsFrom text replace (byteLen before)
        (placedMatches query (before ++ between) rest) =
        between ++ replaceOccurrences query replace 0 rest := by
  induction rest with
  | nil =>
      constructor
      · intro before skip htext
        rw [List.take_nil, List.append_nil, htext]
        exact (textFrom_append before []).trans (by cases skip <;> rfl)
      · intro before between htext
        rw [htext, List.append_assoc]
        exact textFrom_append before (between ++ [])
  | cons c cs ih =>
      obtain ⟨hskip, hbetween⟩ := ih
      have hfresh : ∀ before between, text = (before ++ between) ++ c :: cs →
          applyReplacementsFrom text replace (byteLen before)
            (placedMatches query (before ++ between) (c :: cs)) =
            between ++ replaceOccurrences query replace 0 (c :: cs) := by
        intro before between htext
        have hnext : text = (before ++ between ++ [c]) ++ cs := by
          rw [htext, List.append_assoc _ [c]]
          rfl
        rw [placedMatches_cons, replaceOccurrences]
        by_cases hprefix : query <+: c :: cs
        · -- a place: the other characters of the query are skipped
          rw [if_pos hprefix, if_pos (List.isPrefixOf_iff_prefix.mpr hprefix)]
          obtain ⟨after, hafter⟩ := hprefix
          obtain ⟨d, ds, rfl⟩ := List.exists_cons_of_ne_nil hquery
          rw [List.cons_append] at hafter
          obtain ⟨rfl, rfl⟩ := List.cons.inj hafter
          have hplace : text = ((before ++ between) ++ d :: ds) ++ after := by
            rw [htext, List.append_assoc _ (d :: ds), List.cons_append]
          have hrest := hskip (before ++ between ++ [d]) ds.length hnext
          rw [List.take_left, List.append_assoc _ [d], List.singleton_append] at hrest
          rw [List.singleton_append, applyReplacements_place hplace, hrest]
          rfl
        · have hnone : ¬ query.isPrefixOf (c :: cs) = true :=
            fun h => hprefix (List.isPrefixOf_iff_prefix.mp h)
          rw [if_neg hprefix, if_neg hnone, List.nil_append, List.append_assoc before between [c],
            hbetween before (between ++ [c]) (by rw [hnext, List.append_assoc before]),
            List.append_assoc]
          rfl
      refine ⟨fun before skip htext => ?_, hfresh⟩
      cases skip with
      | zero =>
          have hstart := hfresh before [] (by rw [List.append_nil, htext])
          rw [List.append_nil, List.nil_append] at hstart
          rwa [List.take_zero, List.append_nil]
      | succ skip =>
          rw [applyReplacements_skip]
          refine hskip (before ++ [c]) skip ?_
          rw [htext, List.append_assoc]
          rfl

theorem sensitiveMatches_eq (u : Unicode) (text query : List Char) (scratch : SearchScratch)
    (hquery : query ≠ []) :
    sensitiveMatches u text query false scratch = placedMatches query [] text := by
  rw [sensitiveMatches, allFound, placedMatches, ← List.filterMap_eq_map]
  refine List.filterMap_congr ?_
  rintro ⟨before, rest⟩ hplace
  obtain ⟨after, -, htext⟩ := (mem_places_start hquery).mp hplace
  rw [foundAt, matchAt_sensitive (htext.trans (List.append_assoc _ _ _).symm)]
  rfl

theorem applyReplacements_sensitive (u : Unicode) (text query replace : String)
    (scratch : SearchScratch) (hquery : query.toList ≠ []) :
    applyReplacements (sensitiveMatches u text.toList query.toList false scratch) text replace =
      String.ofList (replaceOccurrences query.toList replace.toList 0 text.toList) := by
  have hplaces := (applyReplacementsFrom_places hquery replace.toList text.toList).1 [] 0 rfl
  rw [applyReplacements, sensitiveMatches_eq u _ _ scratch hquery]
  exact congrArg String.ofList hplaces

/-! ## Both paths -/

/-- Some matches of a list are kept: they do not overlap, and each other one starts within one. -/
structure KeptGreedily (searchMatches kept : List SearchMatch) : Prop where
  sublist : kept.Sublist searchMatches
  apart : kept.Pairwise fun a b => a.stop ≤ b.start
  covered : ∀ found ∈ searchMatches, found ∈ kept ∨
    ∃ taken ∈ kept, taken.start ≤ found.start ∧ found.start < taken.stop

theorem keptGreedily_replacedMatches {text : List Char} {searchMatches : List SearchMatch}
    (hsorted : searchMatches.Pairwise fun a b => a.start ≤ b.start) :
    KeptGreedily (sliceable text searchMatches) (replacedMatches text searchMatches) where
  sublist := greedy_sublist _
  apart := greedy_pairwise _
  covered := fun _ hfound => greedy_covered (hsorted.filter _) hfound

/--
The replacement of the standard library gives the text that the matches of the
search give. Sorted matches are replaced greedily from the left, those that
cannot be sliced out are passed over, and nothing else changes.
-/
theorem replace_all_agrees :
    (∀ (u : Unicode) (text query replace : String) (scratch : SearchScratch), query ≠ "" →
      ∃ searchMatches,
        (findMatchesWithScratch u text.toList query.toList true false scratch).map Prod.fst =
          some searchMatches ∧
        applyReplacements searchMatches text replace =
          String.ofList (replaceOccurrences query.toList replace.toList 0 text.toList)) ∧
    ∀ (text replace : String) (searchMatches : List SearchMatch),
      searchMatches.Pairwise (fun a b => a.start ≤ b.start) →
      KeptGreedily (sliceable text.toList searchMatches)
        (replacedMatches text.toList searchMatches) ∧
      Replaced replace.toList 0 text.toList (replacedMatches text.toList searchMatches)
        (applyReplacements searchMatches text replace).toList := by
  constructor
  · intro u text query replace scratch hquery
    have hne : query.toList ≠ [] := fun h => hquery (String.toList_eq_nil_iff.mp h)
    exact ⟨_, findMatches_sensitive hne,
      applyReplacements_sensitive u text query replace scratch hne⟩
  · intro text replace searchMatches hsorted
    exact ⟨keptGreedily_replacedMatches hsorted,
      replaced_applyReplacements text replace searchMatches⟩

theorem replace_all_sample :
    (∃ searchMatches,
      (findMatchesWithScratch sampleUnicode "aaa".toList "aa".toList true false ⟨[], [], []⟩).map
        Prod.fst = some searchMatches ∧
      applyReplacements searchMatches "aaa" "b" =
        String.ofList (replaceOccurrences "aa".toList "b".toList 0 "aaa".toList)) ∧
    Replaced "b".toList 0 "aaa".toList
      (replacedMatches "aaa".toList [⟨0, 2, 0, 0⟩, ⟨1, 3, 0, 1⟩])
      (applyReplacements [⟨0, 2, 0, 0⟩, ⟨1, 3, 0, 1⟩] "aaa" "b").toList :=
  ⟨replace_all_agrees.1 sampleUnicode "aaa" "aa" "b" ⟨[], [], []⟩ (by decide),
    (replace_all_agrees.2 "aaa" "b" [⟨0, 2, 0, 0⟩, ⟨1, 3, 0, 1⟩] (by decide)).2⟩

/-- The search bar replaces the matches it has found, by whichever path. -/
theorem SearchBar.replacedAll_eq {bar : SearchBar} {text : String} (scratch : SearchScratch)
    (hsearch : (findMatchesWithScratch u text.toList bar.searchInput.toList bar.matchCase
      bar.matchWholeWord scratch).map Prod.fst = some (bar.performSearch text).1)
    (hfound : (bar.performSearch text).1 ≠ []) :
    bar.replacedAll text =
      some (applyReplacements (bar.performSearch text).1 text bar.replaceInput) := by
  rw [SearchBar.replacedAll]
  simp only [List.isEmpty_iff, if_neg hfound]
  cases hcase : bar.matchCase with
  | false => rfl
  | true =>
      cases hword : bar.matchWholeWord with
      | true => rfl
      | false =>
          rw [hcase, hword] at hsearch
          have hquery : bar.searchInput.toList ≠ [] := by
            intro hnil
            rw [findMatchesWithScratch, if_pos hnil] at hsearch
            exact hfound (Option.some.inj hsearch).symm
          rw [findMatches_sensitive hquery] at hsearch
          rw [← Option.some.inj hsearch, applyReplacements_sensitive _ _ _ _ _ hquery]
          rfl

/-! ## The replaced text beside the text -/

section Compared

variable {R : List Char → List Char → Prop}

theorem covered_append {found : SearchMatch} (hstart : found.start = byteLen before)
    (hstop : found.stop = byteLen (before ++ between)) :
    found.covered (before ++ (between ++ after)) = between := by
  rw [SearchMatch.covered, hstart, hstop, ← List.append_assoc, textUpTo_append, textFrom_append]

theorem Replaced.compared {kept : List SearchMatch} {result : List Char}
    (hrefl : ∀ part, R part part)
    (happend : ∀ {a b a' b'}, R a b → R a' b' → R (a ++ a') (b ++ b'))
    (h : Replaced replace offset after kept result) {before : List Char}
    (hoffset : offset = byteLen before)
    (hparts : ∀ found ∈ kept, R (found.covered (before ++ after)) replace) : R after result := by
  induction h generalizing before with
  | rest offset text => exact hrefl text
  | @found offset found between matched after result kept hstart hstop hrest ih =>
      have hfrom : found.start = byteLen (before ++ between) := by
        rw [byteLen_append, hstart, hoffset]
      have hto : found.stop = byteLen ((before ++ between) ++ matched) := by
        rw [byteLen_append, hstop, hfrom]
      have hwhole : before ++ (between ++ (matched ++ after)) =
          ((before ++ between) ++ matched) ++ after := by
        simp only [List.append_assoc]
      have hpart : R matched replace := by
        have hcovered := hparts found List.mem_cons_self
        rwa [← List.append_assoc, covered_append hfrom hto] at hcovered
      have hbehind : R after result := by
        apply ih hto
        intro later hlater
        rw [← hwhole]
        exact hparts later (List.mem_cons_of_mem _ hlater)
      exact happend (hrefl between) (happend hpart hbehind)

theorem applyReplacements_compared (hrefl : ∀ part, R part part)
    (happend : ∀ {a b a' b'}, R a b → R a' b' → R (a ++ a') (b ++ b')) {text replace : String}
    {searchMatches : List SearchMatch}
    (hparts : ∀ found ∈ searchMatches, R (found.covered text.toList) replace.toList) :
    R text.toList (applyReplacements searchMatches text replace).toList := by
  have hreplaced := replaced_applyReplacements text replace searchMatches
  apply hreplaced.compared hrefl happend byteLen_nil.symm
  intro found hfound
  have hsliceable := (greedy_sublist _).subset hfound
  exact hparts found (List.mem_of_mem_filter hsliceable)

/-- `str::replace` relates a text to the replaced text as it does a query to its replacement. -/
theorem replaceOccurrences_compared (hrefl : ∀ part, R part part)
    (happend : ∀ {a b a' b'}, R a b → R a' b' → R (a ++ a') (b ++ b')) (hquery : query ≠ [])
    (hpart : R query replace) (skip : Nat) (text : List Char) :
    R (text.drop skip) (replaceOccurrences query replace skip text) := by
  induction text generalizing skip with
  | nil =>
      rw [List.drop_nil]
      cases skip <;> exact hrefl []
  | cons c cs ih =>
      cases skip with
      | succ skip => exact ih skip
      | zero =>
          rw [replaceOccurrences, List.drop_zero]
          split
          · rename_i hprefix
            obtain ⟨rest, hrest⟩ := List.isPrefixOf_iff_prefix.mp hprefix
            have hdrop : cs.drop (query.length - 1) = rest := by
              cases query with
              | nil => exact absurd rfl hquery
              | cons q query =>
                  rw [List.cons_append] at hrest
                  rw [← (List.cons.inj hrest).2]
                  exact List.drop_left
            rw [← hrest, ← hdrop]
            exact happend hpart (ih _)
          · exact happend (hrefl [c]) (ih 0)

namespace SearchBar

variable {bar : SearchBar} {text : String}

/-- What relates each part to its replacement relates the text to the replaced text. -/
theorem replacedAll_compared (R : List Char → List Char → Prop) (hrefl : ∀ part, R part part)
    (happend : ∀ {a b a' b'}, R a b → R a' b' → R (a ++ a') (b ++ b'))
    (hparts : ∀ part ∈ bar.replacedParts text, R part bar.replaceInput.toList) :
    R text.toList ((bar.replacedAll text).getD text).toList := by
  unfold replacedAll
  unfold replacedParts at hparts
  dsimp only at hparts ⊢
  split at hparts
  · rename_i hnone
    rw [if_pos hnone]
    exact hrefl _
  · rename_i hsome
    rw [if_neg hsome]
    split at hparts
    · rename_i hplain
      have hquery : bar.searchInput.toList ≠ [] := by
        intro hnil
        have hempty := bar.emptyFinds (String.toList_eq_nil_iff.mp hnil) text
        rw [hempty] at hsome
        exact hsome rfl
      rw [if_pos hplain, Option.getD_some, String.toList_ofList]
      exact replaceOccurrences_compared hrefl happend hquery
        (hparts _ List.mem_cons_self) 0 text.toList
    · rename_i hfolded
      rw [if_neg hfolded, Option.getD_some]
      apply applyReplacements_compared hrefl happend
      intro found hfound
      exact hparts _ (List.mem_map_of_mem hfound)

/-- The current match is exchanged for the replacement, or there is nothing to exchange. -/
theorem replacedCurrent_cases (bar : SearchBar) (text : String) :
    (bar.currentParts text = [] ∧ bar.replacedCurrent text = none) ∨
      ∃ before part after, bar.currentParts text = [part] ∧
        text.toList = before ++ (part ++ after) ∧
        bar.replacedCurrent text =
          some (String.ofList (before ++ (bar.replaceInput.toList ++ after))) := by
  unfold currentParts replacedCurrent
  dsimp only
  cases (bar.performSearch text).2.bind fun index => (bar.performSearch text).1[index]? with
  | none => exact Or.inl ⟨rfl, rfl⟩
  | some found =>
      dsimp only
      by_cases hslices : found.slices text.toList = true
      · right
        have hwhole : found.slices ([] ++ text.toList) = true := hslices
        obtain ⟨before, part, after, htext, hstart, hstop⟩ :=
          exists_slice hwhole (Nat.zero_le found.start)
        rw [List.nil_append] at hstart hstop
        have hcovered : found.covered text.toList = part := by
          rw [htext]
          exact covered_append hstart hstop
        have hbefore : textUpTo found.start text.toList = before := by
          rw [htext, hstart, textUpTo_append]
        have hafter : textFrom found.stop text.toList = after := by
          rw [htext, hstop, ← List.append_assoc, textFrom_append]
        refine ⟨before, part, after, ?_, htext, ?_⟩
        · simp [hslices, hcovered]
        · rw [if_pos hslices, hbefore, hafter, List.append_assoc]
      · left
        simp [hslices]

end SearchBar

end Compared

end Fulgur
