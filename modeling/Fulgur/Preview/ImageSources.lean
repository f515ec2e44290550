import Fulgur.Preview.HtmlTokens
import Fulgur.Tabs.Transfer

/-! # Local images in HTML fragments

The preview looks for the name of the attribute and an equals sign, and puts the
file URL of a local path in the place of the quoted value that comes next. So it
reads the values after `src =`, whatever they belong to.
-/

namespace Fulgur

open QuotedValues Delimiters

/-! ## URLs of local paths -/

/-- Paths of the platform, and `Url::from_file_path`. -/
structure LocalPaths (Path : Type) where
  new : String → Path
  isAbsolute : Path → Bool
  join : Path → Path → Path
  fromFilePath : Path → Option String

def isNonLocalReference (reference : String) : Bool :=
  let lower := reference.toList.map Char.toLower
  "http://".toList.isPrefixOf lower || "https://".toList.isPrefixOf lower ||
    "file://".toList.isPrefixOf lower || "data:".toList.isPrefixOf lower ||
    "//".toList.isPrefixOf lower

section

variable {Path : Type}

def localPathToFileUrl (paths : LocalPaths Path) (url : String) (baseDir : Option Path) :
    Option String :=
  let trimmed := trim url
  if trimmed = "" ∨ isNonLocalReference trimmed = true then none
  else
    let path := paths.new trimmed
    let absolute := if paths.isAbsolute path then some path else baseDir.map (paths.join · path)
    absolute.bind paths.fromFilePath

/-- What is put in the place of a value. -/
def newUrl (paths : LocalPaths Path) (baseDir : Option Path) (url : List Char) :
    Option (List Char) :=
  (localPathToFileUrl paths (String.ofList url) baseDir).map String.toList

end

/-! ## The scan -/

/-- `str::find`; places are counted in characters. -/
def findChars (pattern : List Char) : List Char → Option Nat
  | [] => if pattern = [] then some 0 else none
  | c :: rest =>
      if pattern <+: c :: rest then some 0 else (findChars pattern rest).map (· + 1)

theorem ne_nil_of_findChars {pattern text : List Char} (hpattern : pattern ≠ []) {n : Nat}
    (h : findChars pattern text = some n) : text ≠ [] := by
  rintro rfl
  rw [findChars, if_neg hpattern] at h
  cases h

theorem length_drop_lt {text : List Char} (h : text ≠ []) (n : Nat) :
    (text.drop (n + 1)).length < text.length := by
  have hpos := List.length_pos_iff.mpr h
  rw [List.length_drop]
  omega

theorem length_of_drop_cons {text rest : List Char} {c : Char} {n : Nat}
    (h : text.drop n = c :: rest) : rest.length < text.length := by
  have hlength := congrArg List.length h
  rw [List.length_drop, List.length_cons] at hlength
  omega

/-- How many spaces the loops over the cursor pass. -/
def spaces (text : List Char) : Nat := (text.takeWhile (· = ' ')).length

def srcName : List Char := "src".toList

/-- The loop of `find_img_src`; `lower` is what is left to search. -/
def findImgSrcLoop (lower : List Char) : Option Nat :=
  match _h : findChars srcName lower with
  | none => none
  | some srcPos =>
      let after := lower.drop (srcPos + 3)
      let cursor := spaces after
      if after[cursor]? = some '=' then
        some (srcPos + 3 + (cursor + 1 + spaces (after.drop (cursor + 1))))
      else (findImgSrcLoop after).map (srcPos + 3 + ·)
termination_by lower.length
decreasing_by exact length_drop_lt (ne_nil_of_findChars (by decide) _h) _

theorem findImgSrcLoop_of_none {lower : List Char} (h : findChars srcName lower = none) :
    findImgSrcLoop lower = none := by
  rw [findImgSrcLoop]
  split
  · rfl
  · rename_i hfound
    rw [h] at hfound
    cases hfound

theorem findImgSrcLoop_of_some {lower : List Char} {srcPos : Nat}
    (h : findChars srcName lower = some srcPos) :
    findImgSrcLoop lower =
      let after := lower.drop (srcPos + 3)
      let cursor := spaces after
      if after[cursor]? = some '=' then
        some (srcPos + 3 + (cursor + 1 + spaces (after.drop (cursor + 1))))
      else (findImgSrcLoop after).map (srcPos + 3 + ·) := by
  rw [findImgSrcLoop]
  split
  · rename_i hfound
    rw [h] at hfound
    cases hfound
  · rename_i hfound
    rw [h] at hfound
    cases hfound
    rfl

/-- Where the value of the next `src` begins. -/
def findImgSrc (haystack : List Char) : Option Nat := findImgSrcLoop (haystack.map Char.toLower)

theorem findImgSrcLoop_nil : findImgSrcLoop [] = none := findImgSrcLoop_of_none (by decide)

theorem ne_nil_of_findImgSrc {text : List Char} {n : Nat} (h : findImgSrc text = some n) :
    text ≠ [] := by
  rintro rfl
  rw [findImgSrc, List.map_nil, findImgSrcLoop_nil] at h
  cases h

/-- The loop of `rewrite_html_img_src`; `rest` is what is left to scan. -/
def rewriteLoop (toUrl : List Char → Option (List Char)) (rest output : List Char)
    (changed : Bool) : Option (List Char) :=
  match _h : findImgSrc rest with
  | none => if changed then some (output ++ rest) else none
  | some valueStart =>
      let output := output ++ rest.take valueStart
      match _hvalue : rest.drop valueStart with
      | [] => rewriteLoop toUrl [] output changed
      | quote :: body =>
          if quote = '"' ∨ quote = '\'' then
            match _hbody : splitFirst quote body with
            | none => if changed then some (output ++ quote :: body) else none
            | some (url, after) =>
                match toUrl url with
                | some newUrl =>
                    rewriteLoop toUrl after (output ++ quote :: (newUrl ++ [quote])) true
                | none => rewriteLoop toUrl after (output ++ quote :: (url ++ [quote])) changed
          else rewriteLoop toUrl body (output ++ [quote]) changed
termination_by rest.length
decreasing_by
  · exact List.length_pos_iff.mpr (ne_nil_of_findImgSrc _h)
  · exact (Reader.splitFirst_length _hbody).trans (length_of_drop_cons _hvalue)
  · exact (Reader.splitFirst_length _hbody).trans (length_of_drop_cons _hvalue)
  · exact length_of_drop_cons _hvalue

def rewriteHtmlImgSrc {Path : Type} (paths : LocalPaths Path) (value : String)
    (baseDir : Option Path) : Option String :=
  (rewriteLoop (newUrl paths baseDir) value.toList [] false).map String.ofList

/-! ## The values after the name -/

/-- What was read of a name, of an equals sign, and of the spaces around it. -/
inductive SrcState where
  | start
  | afterS
  | afterSr
  | afterSrc
  | afterEquals
deriving DecidableEq

namespace SrcState

def first (c : Char) : SrcState := if c.toLower = 's' then .afterS else .start

def next : SrcState → Char → SrcState
  | .start, c => first c
  | .afterS, c => if c.toLower = 'r' then .afterSr else first c
  | .afterSr, c => if c.toLower = 'c' then .afterSrc else first c
  | .afterSrc, c => if c = ' ' then .afterSrc else if c = '=' then .afterEquals else first c
  | .afterEquals, c => if c = ' ' then .afterEquals else .start

def opens : SrcState → Char → Bool
  | .afterEquals, c => c = '"' || c = '\''
  | _, _ => false

end SrcState

/-- Reads the quoted values after the name `src` and an equals sign, in tags or not. -/
def srcReader : Reader SrcState Char where
  next := SrcState.next
  opens := SrcState.opens

/-- The text with the quoted values that stand after `src =`. -/
def srcPieces (html : String) : List (Piece Char) := srcReader.pieces .start html.toList

/-! ## What the scan finds -/

theorem pieces_eq_of_next {s s' : SrcState} {c : Char} (hs : srcReader.opens s c = false)
    (hs' : srcReader.opens s' c = false) {rest : List Char}
    (h : srcReader.pieces (SrcState.next s c) rest = srcReader.pieces (SrcState.next s' c) rest) :
    srcReader.pieces s (c :: rest) = srcReader.pieces s' (c :: rest) := by
  rw [srcReader.pieces_char hs, srcReader.pieces_char hs']
  exact congrArg (List.cons _) h

theorem pieces_nil (s : SrcState) : srcReader.pieces s [] = [] := by rw [Reader.pieces]

theorem pieces_afterSr {text : List Char} (h : ¬['c'] <+: text.map Char.toLower) :
    srcReader.pieces .afterSr text = srcReader.pieces .start text := by
  cases text with
  | nil => rw [pieces_nil, pieces_nil]
  | cons c rest =>
      have hc : c.toLower ≠ 'c' := fun heq => h (by simp [heq])
      have hnext : SrcState.next .afterSr c = .next .start c := if_neg hc
      exact pieces_eq_of_next rfl rfl (by rw [hnext])

theorem pieces_afterS {text : List Char} (h : ¬['r', 'c'] <+: text.map Char.toLower) :
    srcReader.pieces .afterS text = srcReader.pieces .start text := by
  cases text with
  | nil => rw [pieces_nil, pieces_nil]
  | cons c rest =>
      refine pieces_eq_of_next rfl rfl ?_
      by_cases hr : c.toLower = 'r'
      · have hnext : SrcState.next .afterS c = .afterSr := if_pos hr
        have hstart : SrcState.next .start c = .start := if_neg (by rw [hr]; decide)
        rw [hnext, hstart]
        refine pieces_afterSr fun hprefix => h ?_
        rw [List.map_cons, hr]
        exact List.cons_prefix_cons.mpr ⟨rfl, hprefix⟩
      · have hnext : SrcState.next .afterS c = .next .start c := if_neg hr
        rw [hnext]

theorem pieces_start {c : Char} {rest : List Char}
    (h : ¬srcName <+: (c :: rest).map Char.toLower) :
    srcReader.pieces .start (c :: rest) = .char c :: srcReader.pieces .start rest := by
  rw [srcReader.pieces_char rfl]
  refine congrArg (List.cons _) ?_
  by_cases hs : c.toLower = 's'
  · have hnext : srcReader.next .start c = .afterS := if_pos hs
    rw [hnext]
    refine pieces_afterS fun hprefix => h ?_
    rw [List.map_cons, hs]
    exact List.cons_prefix_cons.mpr ⟨rfl, hprefix⟩
  · have hnext : srcReader.next .start c = .start := if_neg hs
    rw [hnext]

theorem reads_srcName {text : List Char} (h : srcName <+: text.map Char.toLower) :
    srcReader.Reads .start text 3 .afterSrc := by
  obtain ⟨after, hafter⟩ := h
  obtain ⟨name, rest, rfl, hname, -⟩ := List.map_eq_append_iff.mp hafter.symm
  obtain ⟨s, name, rfl, hs, hname⟩ := List.map_eq_cons_iff.mp hname
  obtain ⟨r, name, rfl, hr, hname⟩ := List.map_eq_cons_iff.mp hname
  obtain ⟨c, name, rfl, hc, hname⟩ := List.map_eq_cons_iff.mp hname
  obtain rfl : name = [] := List.map_eq_nil_iff.mp hname
  have hfirst : srcReader.next .start s = .afterS := if_pos hs
  have hsecond : srcReader.next .afterS r = .afterSr := if_pos hr
  have hthird : srcReader.next .afterSr c = .afterSrc := if_pos hc
  refine .cons rfl (hfirst ▸ .cons rfl (hsecond ▸ .cons rfl ?_))
  exact hthird ▸ srcReader.reads_zero .afterSrc rest

theorem pieces_of_findChars_none {text : List Char}
    (h : findChars srcName (text.map Char.toLower) = none) :
    srcReader.pieces .start text = text.map .char := by
  induction text with
  | nil => exact pieces_nil .start
  | cons c rest ih =>
      rw [List.map_cons, findChars] at h
      split at h
      · cases h
      · rename_i hsrc
        rw [pieces_start hsrc, ih (Option.map_eq_none_iff.mp h), List.map_cons]

theorem reads_of_findChars {text : List Char} {n : Nat}
    (h : findChars srcName (text.map Char.toLower) = some n) :
    srcReader.Reads .start text (n + 3) .afterSrc := by
  induction text generalizing n with
  | nil => cases h
  | cons c rest ih =>
      rw [List.map_cons, findChars] at h
      split at h
      · rename_i hsrc
        cases h
        exact reads_srcName hsrc
      · rename_i hsrc
        obtain ⟨m, hm, rfl⟩ := Option.map_eq_some_iff.mp h
        have hrest := ih hm
        unfold Reader.Reads at *
        rw [pieces_start hsrc, hrest]
        rfl

/-- Only letters are made lower-case. -/
theorem toLower_eq_iff {c d : Char} (hd : d.toNat < 65) : c.toLower = d ↔ c = d := by
  unfold Char.toLower
  split
  · rename_i hupper
    have hle : 65 ≤ c.toNat := hupper.1
    have hge : c.toNat ≤ 90 := hupper.2
    constructor
    · rintro rfl
      have hsum : (c.val + ('a'.val - 'A'.val)).toNat = c.toNat + 32 :=
        (UInt32.toNat_add _ _).trans (Nat.mod_eq_of_lt (by
          have hdiff : ('a'.val - 'A'.val).toNat = 32 := by decide
          change c.toNat + _ < _
          omega))
      have hlow : (c.val + ('a'.val - 'A'.val)).toNat < 65 := hd
      omega
    · rintro rfl
      omega
  · exact Iff.rfl

theorem spaces_map_toLower (text : List Char) :
    spaces (text.map Char.toLower) = spaces text := by
  have hspace : ((decide <| · = ' ') ∘ Char.toLower : Char → Bool) = (decide <| · = ' ') := by
    funext c
    exact decide_eq_decide.mpr (toLower_eq_iff (by decide))
  rw [spaces, List.takeWhile_map, List.length_map, hspace, spaces]

theorem spaces_cons_space (text : List Char) : spaces (' ' :: text) = spaces text + 1 := by
  rw [spaces, List.takeWhile_cons_of_pos (by decide), List.length_cons, spaces]

theorem spaces_cons {c : Char} (hc : c ≠ ' ') (text : List Char) : spaces (c :: text) = 0 := by
  rw [spaces, List.takeWhile_cons_of_neg (by simpa using hc), List.length_nil]

/-- After the name comes no equals sign, so the search goes on behind the name. -/
theorem pieces_afterSrc_of_ne {text : List Char} (h : text[spaces text]? ≠ some '=') :
    srcReader.pieces .afterSrc text = srcReader.pieces .start text := by
  induction text with
  | nil => rw [pieces_nil, pieces_nil]
  | cons c rest ih =>
      refine pieces_eq_of_next rfl rfl ?_
      by_cases hc : c = ' '
      · subst hc
        rw [spaces_cons_space, List.getElem?_cons_succ] at h
        exact ih h
      · rw [spaces_cons hc, List.getElem?_cons_zero] at h
        have hequals : c ≠ '=' := fun heq => h (congrArg some heq)
        have hnext : SrcState.next .afterSrc c = .next .start c :=
          (if_neg hc).trans (if_neg hequals)
        rw [hnext]

theorem reads_equals {text : List Char} (h : text[spaces text]? = some '=') :
    srcReader.Reads .afterSrc text (spaces text + 1) .afterEquals := by
  induction text with
  | nil => cases h
  | cons c rest ih =>
      by_cases hc : c = ' '
      · subst hc
        rw [spaces_cons_space, List.getElem?_cons_succ] at h
        rw [spaces_cons_space]
        exact .cons rfl (ih h)
      · rw [spaces_cons hc, List.getElem?_cons_zero] at h
        obtain rfl : c = '=' := Option.some.inj h
        rw [spaces_cons hc]
        exact .cons rfl (srcReader.reads_zero .afterEquals rest)

theorem reads_spaces (text : List Char) :
    srcReader.Reads .afterEquals text (spaces text) .afterEquals ∧
      (text.drop (spaces text)).head? ≠ some ' ' := by
  induction text with
  | nil => exact ⟨srcReader.reads_zero _ _, fun h => nomatch h⟩
  | cons c rest ih =>
      by_cases hc : c = ' '
      · subst hc
        rw [spaces_cons_space, List.drop_succ_cons]
        exact ⟨.cons rfl ih.1, ih.2⟩
      · rw [spaces_cons hc]
        exact ⟨srcReader.reads_zero _ _, fun heq => hc (Option.some.inj heq)⟩

theorem getElem?_map_toLower {text : List Char} {n : Nat} :
    (text.map Char.toLower)[n]? = some '=' ↔ text[n]? = some '=' := by
  rw [List.getElem?_map, Option.map_eq_some_iff]
  constructor
  · rintro ⟨c, hc, heq⟩
    rw [hc, (toLower_eq_iff (by decide)).mp heq]
  · intro h
    exact ⟨'=', h, by decide⟩

/-- What the scan finds is the next place at which a value can begin. -/
theorem reads_of_findImgSrcLoop (text : List Char) :
    match findImgSrcLoop (text.map Char.toLower) with
    | none => srcReader.pieces .start text = text.map .char
    | some n => srcReader.Reads .start text n .afterEquals ∧ (text.drop n).head? ≠ some ' ' := by
  induction hlength : text.length using Nat.strong_induction_on generalizing text with
  | _ length ih =>
      subst hlength
      cases hfound : findChars srcName (text.map Char.toLower) with
      | none =>
          rw [findImgSrcLoop_of_none hfound]
          exact pieces_of_findChars_none hfound
      | some srcPos =>
          have hne : text ≠ [] := fun heq =>
            ne_nil_of_findChars (by decide) hfound (List.map_eq_nil_iff.mpr heq)
          have hname := reads_of_findChars hfound
          rw [findImgSrcLoop_of_some hfound]
          dsimp only
          rw [← List.map_drop, spaces_map_toLower]
          by_cases hequals : (text.drop (srcPos + 3))[spaces (text.drop (srcPos + 3))]? = some '='
          · rw [if_pos (getElem?_map_toLower.mpr hequals), ← List.map_drop, spaces_map_toLower]
            obtain ⟨hvalue, hhead⟩ := reads_spaces
              ((text.drop (srcPos + 3)).drop (spaces (text.drop (srcPos + 3)) + 1))
            refine ⟨hname.add ((reads_equals hequals).add hvalue), ?_⟩
            rwa [List.drop_drop, List.drop_drop] at hhead
          · rw [if_neg (mt getElem?_map_toLower.mp hequals)]
            -- the name stands alone, and the search goes on behind it
            have hstart : srcReader.Reads .start text (srcPos + 3) .start :=
              hname.trans (congrArg _ (pieces_afterSrc_of_ne hequals))
            have hrest := ih _ (length_drop_lt hne _) (text.drop (srcPos + 3)) rfl
            cases hloop : findImgSrcLoop ((text.drop (srcPos + 3)).map Char.toLower) with
            | none =>
                rw [hloop] at hrest
                rw [Option.map_none]
                rw [Reader.Reads, hrest, ← List.map_append, List.take_append_drop] at hstart
                exact hstart
            | some n =>
                rw [hloop] at hrest
                rw [Option.map_some]
                refine ⟨hstart.add hrest.1, ?_⟩
                rw [← List.drop_drop]
                exact hrest.2

/-! ## What the loop puts out -/

section Loop

variable {toUrl : List Char → Option (List Char)}

variable (toUrl) in
def rewritten (pieces : List (Piece Char)) (output : List Char) (changed : Bool) :
    Option (List Char) :=
  if changed || replacesAny toUrl pieces then some (output ++ render (changeAll toUrl pieces))
  else none

theorem rewritten_chars (text output : List Char) (changed : Bool) :
    rewritten toUrl (text.map .char) output changed =
      if changed then some (output ++ text) else none := by
  have hnone := replacesAny_chars_append toUrl text []
  rw [List.append_nil] at hnone
  rw [rewritten, hnone, changeAll_chars, render_map_char]
  cases changed <;> rfl

theorem rewritten_chars_append (text output : List Char) (pieces : List (Piece Char))
    (changed : Bool) :
    rewritten toUrl (text.map .char ++ pieces) output changed =
      rewritten toUrl pieces (output ++ text) changed := by
  rw [rewritten, rewritten, replacesAny_chars_append, changeAll_chars_append, render_append,
    render_map_char, List.append_assoc]

theorem rewritten_char (c : Char) (output : List Char) (pieces : List (Piece Char))
    (changed : Bool) :
    rewritten toUrl (.char c :: pieces) output changed =
      rewritten toUrl pieces (output ++ [c]) changed :=
  rewritten_chars_append [c] output pieces changed

theorem rewritten_quoted (quote : Char) (value output : List Char) (pieces : List (Piece Char))
    (changed : Bool) :
    rewritten toUrl (.quoted quote value :: pieces) output changed =
      rewritten toUrl pieces (output ++ quote :: ((toUrl value).getD value ++ [quote]))
        (changed || (toUrl value).isSome) := by
  rw [rewritten, rewritten, changeAll_quoted, render_cons, Piece.render, List.append_assoc,
    Bool.or_assoc]
  rfl

theorem pieces_quotedValue {quote : Char} (hquote : quote = '"' ∨ quote = '\'')
    {body value after : List Char} (h : splitFirst quote body = some (value, after)) :
    srcReader.pieces .afterEquals (quote :: body) =
      .quoted quote value :: srcReader.pieces .start after := by
  obtain ⟨rfl, hvalue⟩ := splitFirst_eq_some h
  rcases hquote with rfl | rfl
  · exact srcReader.pieces_quoted rfl hvalue after
  · exact srcReader.pieces_quoted rfl hvalue after

theorem pieces_unclosedValue {quote : Char} (hquote : quote = '"' ∨ quote = '\'')
    {body : List Char} (h : splitFirst quote body = none) :
    srcReader.pieces .afterEquals (quote :: body) = (quote :: body).map .char := by
  have hbody := notMem_of_splitFirst h
  rcases hquote with rfl | rfl
  · exact srcReader.pieces_unclosed rfl hbody
  · exact srcReader.pieces_unclosed rfl hbody

theorem pieces_unquotedValue {c : Char} (hquote : ¬(c = '"' ∨ c = '\'')) (hspace : c ≠ ' ')
    (body : List Char) :
    srcReader.pieces .afterEquals (c :: body) = .char c :: srcReader.pieces .start body := by
  have hopens : srcReader.opens .afterEquals c = false := by
    simpa [srcReader, SrcState.opens] using hquote
  have hnext : srcReader.next .afterEquals c = .start := if_neg hspace
  rw [srcReader.pieces_char hopens, hnext]

theorem rewritten_of_findImgSrc {rest value output : List Char} {valueStart : Nat} (changed : Bool)
    (hfound : findImgSrc rest = some valueStart) (hvalue : rest.drop valueStart = value) :
    rewritten toUrl (srcReader.pieces .start rest) output changed =
      rewritten toUrl (srcReader.pieces .afterEquals value) (output ++ rest.take valueStart)
        changed := by
  have hread := reads_of_findImgSrcLoop rest
  rw [← findImgSrc, hfound] at hread
  have hpieces : srcReader.pieces .start rest =
      (rest.take valueStart).map .char ++ srcReader.pieces .afterEquals value := hvalue ▸ hread.1
  rw [hpieces, rewritten_chars_append]

theorem rewritten_of_findImgSrc_none {rest : List Char} (output : List Char) (changed : Bool)
    (hfound : findImgSrc rest = none) :
    rewritten toUrl (srcReader.pieces .start rest) output changed =
      if changed then some (output ++ rest) else none := by
  have hread := reads_of_findImgSrcLoop rest
  rw [← findImgSrc, hfound] at hread
  have hpieces : srcReader.pieces .start rest = rest.map .char := hread
  rw [hpieces, rewritten_chars]

/-- The loop replaces the values that stand after `src =`. -/
theorem rewriteLoop_eq (rest output : List Char) (changed : Bool) :
    rewriteLoop toUrl rest output changed =
      rewritten toUrl (srcReader.pieces .start rest) output changed := by
  fun_induction rewriteLoop toUrl rest output changed with
  | case1 rest output hfound => exact (rewritten_of_findImgSrc_none output true hfound).symm
  | case2 rest output changed hfound hchanged =>
      rw [rewritten_of_findImgSrc_none output changed hfound, if_neg hchanged]
  | case3 rest output changed valueStart hfound copied hvalue ih =>
      rw [ih, pieces_nil, rewritten_of_findImgSrc changed hfound hvalue, pieces_nil]
  | case4 rest output valueStart hfound copied quote body hvalue hquote hbody =>
      rw [rewritten_of_findImgSrc true hfound hvalue, pieces_unclosedValue hquote hbody,
        rewritten_chars]
      rfl
  | case5 rest output changed valueStart hfound quote body hvalue hquote hbody hchanged =>
      rw [rewritten_of_findImgSrc changed hfound hvalue, pieces_unclosedValue hquote hbody,
        rewritten_chars, if_neg hchanged]
  | case6 rest output changed valueStart hfound copied quote body hvalue hquote url after hbody
      newUrl hurl ih =>
      rw [ih, rewritten_of_findImgSrc changed hfound hvalue, pieces_quotedValue hquote hbody,
        rewritten_quoted, hurl, Option.getD_some, Option.isSome_some, Bool.or_true]
  | case7 rest output changed valueStart hfound copied quote body hvalue hquote url after hbody
      hurl ih =>
      rw [ih, rewritten_of_findImgSrc changed hfound hvalue, pieces_quotedValue hquote hbody,
        rewritten_quoted, hurl, Option.getD_none, Option.isSome_none, Bool.or_false]
  | case8 rest output changed valueStart hfound copied quote body hvalue hquote ih =>
      have hread := reads_of_findImgSrcLoop rest
      rw [← findImgSrc, hfound] at hread
      have hspace : quote ≠ ' ' := fun heq => hread.2 (by rw [hvalue, heq, List.head?_cons])
      rw [ih, rewritten_of_findImgSrc changed hfound hvalue,
        pieces_unquotedValue hquote hspace, rewritten_char]

end Loop

/-! ## New values are told by their scheme -/

def fileScheme : List Char := "file://".toList

/-- What begins with the scheme still does when it is trimmed. -/
theorem fileScheme_prefix_trim {text : String} (h : fileScheme <+: text.toList) :
    fileScheme <+: (trim text).toList := by
  obtain ⟨rest, hrest⟩ := h
  have hfront : text.toList.dropWhile isWhiteSpace = text.toList := by
    rw [← hrest]
    exact List.dropWhile_cons_of_neg (by decide)
  have hback : fileScheme.reverse.dropWhile isWhiteSpace = fileScheme.reverse := by
    decide
  rw [trim, String.toList_ofList, hfront, ← hrest, List.reverse_append, List.dropWhile_append,
    hback]
  split
  · exact (List.reverse_reverse fileScheme).symm ▸ List.prefix_refl fileScheme
  · rw [List.reverse_append, List.reverse_reverse]
    exact List.prefix_append _ _

theorem isNonLocalReference_of_fileScheme {text : String} (h : fileScheme <+: text.toList) :
    isNonLocalReference text = true := by
  have hlower : "file://".toList.isPrefixOf (text.toList.map Char.toLower) = true :=
    List.isPrefixOf_iff_prefix.mpr (h.map Char.toLower)
  unfold isNonLocalReference
  dsimp only
  rw [hlower, Bool.or_true, Bool.true_or, Bool.true_or]

section

variable {Path : Type} {paths : LocalPaths Path}

theorem newUrl_of_fileScheme (baseDir : Option Path) {url : List Char}
    (h : fileScheme <+: url) : newUrl paths baseDir url = none := by
  have htext : fileScheme <+: (String.ofList url).toList := by rwa [String.toList_ofList]
  have hlocal := isNonLocalReference_of_fileScheme (fileScheme_prefix_trim htext)
  unfold newUrl localPathToFileUrl
  rw [if_pos (Or.inr hlocal), Option.map_none]

theorem fileScheme_of_newUrl
    (hurls : ∀ path url, paths.fromFilePath path = some url → fileScheme <+: url.toList)
    {baseDir : Option Path} {url url' : List Char} (h : newUrl paths baseDir url = some url') :
    fileScheme <+: url' := by
  obtain ⟨text, htext, rfl⟩ := Option.map_eq_some_iff.mp h
  unfold localPathToFileUrl at htext
  dsimp only at htext
  split at htext
  · cases htext
  · obtain ⟨path, -, hpath⟩ := Option.bind_eq_some_iff.mp htext
    exact hurls path text hpath

theorem marked_newUrl
    (hurls : ∀ path url, paths.fromFilePath path = some url → fileScheme <+: url.toList)
    (baseDir : Option Path) : Marked (newUrl paths baseDir) isQuote fileScheme where
  plain := by
    intro c hc hquote
    rcases hquote with rfl | rfl <;> exact absurd hc (by decide)
  new _ _ h := fileScheme_of_newUrl hurls h
  old value value' h hscheme := by
    rw [newUrl_of_fileScheme baseDir hscheme] at h
    cases h

/-! ## Fragments -/

theorem isQuote_of_srcReader (s : SrcState) (c : Char) (h : srcReader.opens s c = true) :
    isQuote c := by
  cases s with
  | afterEquals =>
      have h : SrcState.opens .afterEquals c = true := h
      simpa [SrcState.opens, isQuote] using h
  | _ => cases h

theorem render_srcPieces (html : String) : render (srcPieces html) = html.toList :=
  srcReader.render_pieces .start html.toList

theorem wellQuoted_srcPieces (html : String) : WellQuoted isQuote (srcPieces html) :=
  srcReader.wellQuoted_pieces isQuote_of_srcReader .start html.toList

theorem rewriteHtmlImgSrc_eq (html : String) (baseDir : Option Path) :
    rewriteHtmlImgSrc paths html baseDir =
      if replacesAny (newUrl paths baseDir) (srcPieces html) = true then
        some (String.ofList (render (changeAll (newUrl paths baseDir) (srcPieces html))))
      else none := by
  rw [rewriteHtmlImgSrc, rewriteLoop_eq, rewritten, ← srcPieces, Bool.false_or, List.nil_append]
  split <;> rfl

theorem toList_rewriteHtmlImgSrc (html : String) (baseDir : Option Path) :
    ((rewriteHtmlImgSrc paths html baseDir).getD html).toList =
      render (changeAll (newUrl paths baseDir) (srcPieces html)) := by
  rw [rewriteHtmlImgSrc_eq]
  split
  · exact String.toList_ofList
  · rename_i hnone
    rw [changeAll_of_replacesAny (Bool.eq_false_iff.mpr hnone), render_srcPieces]
    rfl

theorem srcPieces_rewritten {html : String} {baseDir : Option Path}
    (hquotes : ∀ quote value url, .quoted quote value ∈ srcPieces html →
      newUrl paths baseDir value = some url → quote ∉ url) :
    srcPieces ((rewriteHtmlImgSrc paths html baseDir).getD html) =
      changeAll (newUrl paths baseDir) (srcPieces html) := by
  have hquoted := wellQuoted_changeAll (wellQuoted_srcPieces html) hquotes
  rw [srcPieces, toList_rewriteHtmlImgSrc]
  exact srcReader.pieces_changed (changed_changeAll _ (srcPieces html)) hquoted

/--
Only the sources of images are changed, each to the URL of its file, and a second
time nothing is changed, just when all local paths after `src =` are the sources of
images and no URL has the quote in it that it stands in.
-/
theorem image_sources_rewritten
    (hurls : ∀ path url, paths.fromFilePath path = some url → fileScheme <+: url.toList)
    (html : String) (baseDir : Option Path) :
    let out := (rewriteHtmlImgSrc paths html baseDir).getD html
    List.Forall₂ (Changed (newUrl paths baseDir)) (imgSrcPieces html) (imgSrcPieces out) ∧
        rewriteHtmlImgSrc paths out baseDir = none ↔
      (∀ place quote value, (place, quote, value) ∈ QuotedValues.places 0 (srcPieces html) →
        newUrl paths baseDir value ≠ none →
          (place, quote, value) ∈ QuotedValues.places 0 (imgSrcPieces html)) ∧
      ∀ quote value url, .quoted quote value ∈ srcPieces html →
        newUrl paths baseDir value = some url → quote ∉ url := by
  intro out
  have hmarked := marked_newUrl hurls baseDir
  have hchanged := forall₂_changed_iff (r := imgSrcReader) (s := .data) hmarked isQuote_of_opens
    (wellQuoted_srcPieces html)
  rw [render_srcPieces, ← toList_rewriteHtmlImgSrc] at hchanged
  constructor
  · rintro ⟨honly, -⟩
    exact hchanged.mp honly
  · rintro ⟨hplaces, hquotes⟩
    refine ⟨hchanged.mpr ⟨hplaces, hquotes⟩, ?_⟩
    rw [rewriteHtmlImgSrc_eq, srcPieces_rewritten hquotes, hmarked.replacesAny_changeAll]
    rfl

end

/-- Paths with slashes; the URL of one in which nothing is encoded. -/
def slashPaths : LocalPaths String where
  new := id
  isAbsolute path := path.toList.head? = some '/'
  join base path := base ++ "/" ++ path
  fromFilePath path := if path.toList.head? = some '/' then some ("file://" ++ path) else none

theorem fileScheme_slashPaths (path url : String) (h : slashPaths.fromFilePath path = some url) :
    fileScheme <+: url.toList := by
  simp only [slashPaths] at h
  split at h
  · cases h
    rw [String.toList_append]
    exact List.prefix_append _ _
  · cases h

theorem pieces_oneValue {σ : Type} (r : Reader σ Char) {s : σ} {front value after : List Char}
    {quote : Char} (hfront : r.quiet s front = true)
    (hopens : r.opens (front.foldl r.next s) quote = true) (hvalue : quote ∉ value)
    (hafter : r.quiet (r.next (r.next (front.foldl r.next s) quote) quote) after = true) :
    r.pieces s (front ++ quote :: (value ++ quote :: after)) =
      front.map .char ++ .quoted quote value :: after.map .char := by
  rw [r.pieces_append_of_quiet hfront, r.pieces_quoted hopens hvalue, r.pieces_of_quiet hafter]

theorem image_sources_sample :
    let html := "<p><img alt='a' src = \"img/a.png\"></p>"
    let out := (rewriteHtmlImgSrc slashPaths html (some "/docs")).getD html
    List.Forall₂ (Changed (newUrl slashPaths (some "/docs"))) (imgSrcPieces html)
        (imgSrcPieces out) ∧
      rewriteHtmlImgSrc slashPaths out (some "/docs") = none := by
  intro html out
  have htext : html.toList =
      "<p><img alt='a' src = ".toList ++ '"' :: ("img/a.png".toList ++ '"' :: "></p>".toList) := by
    decide
  have hsrc : srcPieces html = "<p><img alt='a' src = ".toList.map .char ++
      .quoted '"' "img/a.png".toList :: "></p>".toList.map .char := by
    rw [srcPieces, htext]
    exact pieces_oneValue srcReader (by decide) (by decide) (by decide) (by decide)
  have himg : imgSrcPieces html = srcPieces html := by
    rw [hsrc, imgSrcPieces, htext]
    exact pieces_oneValue imgSrcReader (by decide) (by decide) (by decide) (by decide)
  refine (image_sources_rewritten fileScheme_slashPaths html (some "/docs")).mpr ⟨?_, ?_⟩
  · intro place quote value hplace _
    rwa [himg]
  · intro quote value url hmem hurl
    obtain ⟨rfl, rfl⟩ : quote = '"' ∧ value = "img/a.png".toList := by
      rw [hsrc] at hmem
      simpa using hmem
    rw [show newUrl slashPaths (some "/docs") "img/a.png".toList =
      some "file:///docs/img/a.png".toList by decide] at hurl
    cases hurl
    decide

/-- The source of a script is rewritten. -/
theorem script_source_rewritten :
    let html := "<script src=\"a.js\"></script>"
    let out := (rewriteHtmlImgSrc slashPaths html (some "/docs")).getD html
    out = "<script src=\"file:///docs/a.js\"></script>" ∧
      ¬List.Forall₂ (Changed (newUrl slashPaths (some "/docs"))) (imgSrcPieces html)
        (imgSrcPieces out) := by
  intro html out
  have htext : html.toList =
      "<script src=".toList ++ '"' :: ("a.js".toList ++ '"' :: "></script>".toList) := by
    decide
  have hsrc : srcPieces html = "<script src=".toList.map .char ++
      .quoted '"' "a.js".toList :: "></script>".toList.map .char := by
    rw [srcPieces, htext]
    exact pieces_oneValue srcReader (by decide) (by decide) (by decide) (by decide)
  have hout : out.toList = "<script src=\"file:///docs/a.js\"></script>".toList := by
    rw [toList_rewriteHtmlImgSrc, hsrc]
    decide
  have himg : imgSrcPieces html = html.toList.map .char := imgSrcReader.pieces_of_quiet (by decide)
  refine ⟨String.toList_inj.mp hout, fun hchanged => ?_⟩
  rw [himg] at hchanged
  have hsame := congrArg render (changed_chars hchanged)
  rw [render_map_char, imgSrcPieces, imgSrcReader.render_pieces, hout] at hsame
  exact absurd hsame (by decide)

end Fulgur
