import Fulgur.Search.Matching

/-! # The places of a query

The loop of a search visits the places of the query in the text one after the
other, each once: it goes on one character behind the last one.
-/

namespace Fulgur

variable {query text before after : List Char}

/-! ## Slices between characters -/

theorem sliceFrom_append (before after : List Char) :
    sliceFrom (byteLen before) (before ++ after) = some after := by
  rw [sliceFrom, if_pos (isCharBoundary_append before after), textFrom_append]

theorem sliceUpTo_append (before after : List Char) :
    sliceUpTo (byteLen before) (before ++ after) = some before := by
  rw [sliceUpTo, if_pos (isCharBoundary_append before after), textUpTo_append]

theorem slice_append (before middle after : List Char) :
    slice (byteLen before) (byteLen (before ++ middle)) ((before ++ middle) ++ after) =
      some middle := by
  have hle : byteLen before ≤ byteLen (before ++ middle) := by
    rw [byteLen_append]
    omega
  rw [slice, if_pos hle, sliceUpTo_append, Option.bind_some, sliceFrom_append]

theorem advancePastChar_append (before : List Char) (c : Char) (after : List Char) :
    advancePastChar (before ++ c :: after) (byteLen before) = some (byteLen (before ++ [c])) := by
  rw [advancePastChar, sliceFrom_append, byteLen_append]
  rfl

/-! ## Places -/

def places (query : List Char) : List Char → List Char → List (List Char × List Char)
  | _, [] => []
  | done, c :: cs =>
      (if query <+: c :: cs then [(done, c :: cs)] else []) ++ places query (done ++ [c]) cs

theorem mem_places {done rest p r : List Char} (hquery : query ≠ []) :
    (p, r) ∈ places query done rest ↔
      ∃ skipped, p = done ++ skipped ∧ rest = skipped ++ r ∧ query <+: r := by
  induction rest generalizing done with
  | nil =>
      refine iff_of_false List.not_mem_nil ?_
      rintro ⟨skipped, -, hrest, hprefix⟩
      obtain ⟨-, rfl⟩ := List.append_eq_nil_iff.mp hrest.symm
      exact hquery (List.prefix_nil.mp hprefix)
  | cons c cs ih =>
      rw [places, List.mem_append, ih]
      constructor
      · rintro (h | ⟨skipped, rfl, rfl, hprefix⟩)
        · by_cases hprefix : query <+: c :: cs
          · rw [if_pos hprefix, List.mem_singleton, Prod.mk.injEq] at h
            obtain ⟨rfl, rfl⟩ := h
            exact ⟨[], (List.append_nil p).symm, rfl, hprefix⟩
          · rw [if_neg hprefix] at h
            exact nomatch h
        · exact ⟨c :: skipped, List.append_cons _ _ _ |>.symm, rfl, hprefix⟩
      · rintro ⟨skipped, rfl, hrest, hprefix⟩
        cases skipped with
        | nil =>
            refine Or.inl ?_
            rw [List.nil_append] at hrest
            rw [hrest, if_pos hprefix, List.append_nil]
            exact List.mem_singleton.mpr rfl
        | cons d skipped =>
            obtain ⟨rfl, rfl⟩ := List.cons.inj hrest
            exact Or.inr ⟨skipped, List.append_cons _ _ _, rfl, hprefix⟩

theorem places_pairwise (hquery : query ≠ []) (done rest : List Char) :
    (places query done rest).Pairwise fun a b => ∃ c skipped, b.1 = a.1 ++ c :: skipped := by
  induction rest generalizing done with
  | nil => exact .nil
  | cons c cs ih =>
      rw [places, List.pairwise_append]
      refine ⟨?_, ih (done ++ [c]), ?_⟩
      · split
        · exact List.pairwise_singleton _ _
        · exact .nil
      · intro a ha b hb
        obtain ⟨skipped, hp, -⟩ := (mem_places (p := b.1) (r := b.2) hquery).mp hb
        split at ha
        · rw [List.mem_singleton.mp ha]
          exact ⟨c, skipped, by rw [hp, List.append_assoc]; rfl⟩
        · exact nomatch ha

/-! ## The loop -/

/-- A query is found at its first place. -/
theorem findStr_places (hquery : query ≠ []) (done rest : List Char) :
    (findStr query rest = none ∧ places query done rest = []) ∨
      ∃ skipped c cs, rest = skipped ++ c :: cs ∧ findStr query rest = some (byteLen skipped) ∧
        places query done rest =
          (done ++ skipped, c :: cs) :: places query (done ++ skipped ++ [c]) cs := by
  induction rest generalizing done with
  | nil => exact Or.inl ⟨if_neg hquery, rfl⟩
  | cons c cs ih =>
      by_cases hprefix : query <+: c :: cs
      · refine Or.inr ⟨[], c, cs, rfl, ?_, ?_⟩
        · rw [findStr, if_pos (List.isPrefixOf_iff_prefix.mpr hprefix)]
          rfl
        · rw [places, if_pos hprefix, List.append_nil]
          rfl
      · have hfind : findStr query (c :: cs) =
            (findStr query cs).map fun pos => c.utf8Size + pos := by
          rw [findStr, if_neg fun h => hprefix (List.isPrefixOf_iff_prefix.mp h)]
        have hplaces : places query done (c :: cs) = places query (done ++ [c]) cs := by
          rw [places, if_neg hprefix, List.nil_append]
        rw [hfind, hplaces]
        rcases ih (done ++ [c]) with ⟨hnone, hnil⟩ | ⟨skipped, d, ds, rfl, hsome, hcons⟩
        · exact Or.inl ⟨by rw [hnone]; rfl, hnil⟩
        · refine Or.inr ⟨c :: skipped, d, ds, rfl, ?_, ?_⟩
          · rw [hsome, byteLen_cons]
            rfl
          · rw [hcons, List.append_assoc done, List.singleton_append]

/-- The match at the place behind `p`, if there is one that is kept. -/
def foundAt (matchAt : Nat → Nat → Option (Option SearchMatch)) (query p : List Char) :
    Option SearchMatch :=
  (matchAt (byteLen p) (byteLen (p ++ query))).join

def allFound (matchAt : Nat → Nat → Option (Option SearchMatch)) (query text : List Char) :
    List SearchMatch :=
  (places query [] text).filterMap fun place => foundAt matchAt query place.1

variable {matchAt : Nat → Nat → Option (Option SearchMatch)}

/-- The loop gives what each place gives, when no place panics. -/
theorem findLoop_eq (hquery : query ≠ [])
    (hmatch : ∀ p r, text = p ++ (query ++ r) →
      (matchAt (byteLen p) (byteLen (p ++ query))).isSome)
    {fuel : Nat} {done rest : List Char} (htext : text = done ++ rest)
    (hfuel : rest.length < fuel) :
    findLoop text query matchAt fuel (byteLen done) =
      some ((places query done rest).filterMap fun place => foundAt matchAt query place.1) := by
  induction fuel generalizing done rest with
  | zero => omega
  | succ fuel ih =>
      rw [findLoop, htext, sliceFrom_append, Option.bind_some]
      rcases findStr_places hquery done rest with
        ⟨hnone, hnil⟩ | ⟨skipped, c, cs, hrest, hsome, hcons⟩
      · rw [hnone, hnil]
        rfl
      · have hplace : (done ++ skipped, c :: cs) ∈ places query done rest := by
          rw [hcons]
          exact List.mem_cons_self
        obtain ⟨-, -, -, after, hafter⟩ := (mem_places hquery).mp hplace
        have hat : text = (done ++ skipped) ++ c :: cs := by
          rw [htext, hrest, List.append_assoc]
        have hnext : text = (done ++ skipped ++ [c]) ++ cs := by
          rw [hat, List.append_assoc _ [c]]
          rfl
        obtain ⟨found, hfound⟩ := Option.isSome_iff_exists.mp (hmatch _ after (hafter ▸ hat))
        rw [hsome, hcons, ← htext]
        simp only [← byteLen_append, hfound, Option.bind_some]
        rw [hat, advancePastChar_append, Option.bind_some, ← hat, ih hnext]
        · rw [Option.map_some, List.filterMap_cons, foundAt, hfound]
          cases found <;> rfl
        · rw [hrest, List.length_append, List.length_cons] at hfuel
          omega

theorem findLoop_start (hquery : query ≠ [])
    (hmatch : ∀ p r, text = p ++ (query ++ r) →
      (matchAt (byteLen p) (byteLen (p ++ query))).isSome) :
    findLoop text query matchAt (byteLen text + 1) 0 = some (allFound matchAt query text) := by
  have htext : text = [] ++ text := rfl
  exact findLoop_eq hquery hmatch htext (Nat.lt_succ_of_le (length_le_byteLen text))

theorem mem_places_start (hquery : query ≠ []) {p rest : List Char} :
    (p, rest) ∈ places query [] text ↔ ∃ r, rest = query ++ r ∧ text = p ++ (query ++ r) := by
  rw [mem_places hquery]
  constructor
  · rintro ⟨skipped, hp, htext, r, rfl⟩
    rw [hp]
    exact ⟨r, rfl, htext⟩
  · rintro ⟨r, rfl, htext⟩
    exact ⟨p, rfl, htext, List.prefix_append query r⟩

theorem mem_allFound (hquery : query ≠ []) {found : SearchMatch} :
    found ∈ allFound matchAt query text ↔
      ∃ p r, text = p ++ (query ++ r) ∧ foundAt matchAt query p = some found := by
  rw [allFound, List.mem_filterMap]
  constructor
  · rintro ⟨⟨p, rest⟩, hplace, hfound⟩
    obtain ⟨r, -, htext⟩ := (mem_places_start hquery).mp hplace
    exact ⟨p, r, htext, hfound⟩
  · rintro ⟨p, r, htext, hfound⟩
    exact ⟨(p, query ++ r), (mem_places_start hquery).mpr ⟨r, rfl, htext⟩, hfound⟩

theorem allFound_pairwise {R : SearchMatch → SearchMatch → Prop} (hquery : query ≠ [])
    (h : ∀ p r c skipped r', text = p ++ (query ++ r) →
      text = (p ++ c :: skipped) ++ (query ++ r') →
      ∀ found, foundAt matchAt query p = some found →
      ∀ found', foundAt matchAt query (p ++ c :: skipped) = some found' → R found found') :
    (allFound matchAt query text).Pairwise R := by
  rw [allFound, List.pairwise_filterMap]
  refine (places_pairwise hquery [] text).imp_of_mem ?_
  rintro ⟨p, rest⟩ ⟨p', rest'⟩ hplace hplace' ⟨c, skipped, hlater⟩ found hfound found' hfound'
  obtain ⟨r, -, htext⟩ := (mem_places_start hquery).mp hplace
  obtain ⟨r', -, htext'⟩ := (mem_places_start hquery).mp hplace'
  change p' = p ++ c :: skipped at hlater
  subst hlater
  exact h p r c skipped r' htext htext' found hfound found' hfound'

end Fulgur
