import Fulgur.Library.Ranges
import Fulgur.Tabs.Content
import Mathlib.Data.List.Sort

/-! # Line breaks in the preview

The preview cannot show a run of text with a newline in it. Newlines in the ranges of
inline text, with the indentation behind them, become spaces, and so do `br` tags in
the ranges of raw HTML. What is outside these ranges stays as it is.
-/

namespace Fulgur

open Ranges

abbrev ByteRange := Nat × Nat

/-! ## The inline nodes of the document -/

/-- The kinds of nodes that are told apart. -/
inductive NodeKind where
  | text
  | inlineCode
  | inlineMath
  | html
  | other
deriving DecidableEq

inductive MarkdownNode where
  | node (kind : NodeKind) (position : Option ByteRange) (children : List MarkdownNode)

/-- The spans of inline text, and those of raw HTML. -/
structure InlineRanges where
  textRanges : List ByteRange
  htmlRanges : List ByteRange
deriving DecidableEq

namespace InlineRanges

def empty : InlineRanges := ⟨[], []⟩

/-- What the position of a node adds. -/
def visit (ranges : InlineRanges) (kind : NodeKind) : Option ByteRange → InlineRanges
  | none => ranges
  | some range =>
      match kind with
      | .text | .inlineCode | .inlineMath =>
          { ranges with textRanges := ranges.textRanges ++ [range] }
      | .html => ⟨ranges.textRanges ++ [range], ranges.htmlRanges ++ [range]⟩
      | .other => ranges

end InlineRanges

mutual

def collectInlineRanges : MarkdownNode → InlineRanges → InlineRanges
  | .node kind position children, ranges =>
      collectChildren children (ranges.visit kind position)

def collectChildren : List MarkdownNode → InlineRanges → InlineRanges
  | [], ranges => ranges
  | child :: children, ranges => collectChildren children (collectInlineRanges child ranges)

end

/-! ## Ranges -/

/-- `sort_unstable_by_key` with the start: ranges that start together may come in any order. -/
structure SortedByStart (ranges sorted : List ByteRange) : Prop where
  perm : sorted.Perm ranges
  ordered : sorted.Pairwise fun range next => range.1 ≤ next.1

/-- The body of the loop of `merge_ranges`. -/
def pushMerged (merged : List ByteRange) (range : ByteRange) : List ByteRange :=
  match merged.getLast? with
  | some last =>
      if range.1 ≤ last.2 then merged.dropLast ++ [(last.1, max last.2 range.2)]
      else merged ++ [range]
  | none => merged ++ [range]

def mergeSorted (sorted : List ByteRange) : List ByteRange := sorted.foldl pushMerged []

def mergeRanges (ranges : List ByteRange) : List ByteRange :=
  mergeSorted (ranges.insertionSort fun range next => range.1 ≤ next.1)

def offsetInRanges (offset : Nat) (ranges : List ByteRange) : Bool :=
  (binarySearchBy (fun range =>
    if offset < range.1 then .gt else if range.2 ≤ offset then .lt else .eq) ranges).isOk

/-! ## The rewrite -/

def charIndicesFrom : Nat → List Char → List (Nat × Char)
  | _, [] => []
  | offset, c :: cs => (offset, c) :: charIndicesFrom (offset + c.utf8Size) cs

/-- `str::char_indices`. -/
def charIndices (text : String) : List (Nat × Char) := charIndicesFrom 0 text.toList

def brTagLen (source : String) (offset : Nat) : Option Nat :=
  let bytes := (asBytes source).drop offset
  match bytes with
  | first :: second :: third :: fourth :: _ =>
      if first = 0x3C ∧ (second = 0x62 ∨ second = 0x42) ∧ (third = 0x72 ∨ third = 0x52) ∧
          fourth ∈ [0x3E, 0x2F, 0x20, 0x09, 0x0D, 0x0A] then
        (bytes.findIdx? (· = 0x3E)).map (· + 1)
      else none
  | _ => none

section Rewrite

variable (source : String) (textRanges htmlRanges : List ByteRange)

/-- Blanks that are dropped behind a newline. -/
def isIndentation (next : Nat × Char) : Bool :=
  (next.2 = ' ' || next.2 = '\t') && offsetInRanges next.1 textRanges

/-- The tag that is replaced at a character, if one is. -/
def brTagAt (offset : Nat) (ch : Char) : Option Nat :=
  if ch = '<' ∧ offsetInRanges offset htmlRanges = true then brTagLen source offset else none

/-- The loop of `rewrite_inline`: what it puts out, each with the offset that it is put out for. -/
def emitFrom : List (Nat × Char) → List (Nat × Char)
  | [] => []
  | (offset, ch) :: chars =>
      match brTagAt source htmlRanges offset ch with
      | some tagLen =>
          (offset, ' ') :: emitFrom (chars.dropWhile fun next => next.1 < offset + tagLen)
      | none =>
          if ch = '\n' ∧ offsetInRanges offset textRanges = true then
            (offset, ' ') :: emitFrom (chars.dropWhile (isIndentation textRanges))
          else (offset, ch) :: emitFrom chars
termination_by chars => chars.length
decreasing_by
  · exact Nat.lt_succ_of_le (List.dropWhile_suffix _).length_le
  · exact Nat.lt_succ_of_le (List.dropWhile_suffix _).length_le
  · exact Nat.lt_succ_self _

def emitted : List (Nat × Char) := emitFrom source textRanges htmlRanges (charIndices source)

def rewriteInline : String :=
  String.ofList ((emitted source textRanges htmlRanges).map Prod.snd)

end Rewrite

/-- The parser of the `markdown` crate is what `parse` stands for. -/
def sanitizeMarkdownPreview (parse : String → Option MarkdownNode) (source : String) : String :=
  match parse source with
  | none => source
  | some ast =>
      let ranges := collectInlineRanges ast .empty
      if ranges.textRanges = [] ∧ ranges.htmlRanges = [] then source
      else rewriteInline source (mergeRanges ranges.textRanges) (mergeRanges ranges.htmlRanges)

/-! ## Merged ranges -/

theorem sortedByStart_insertionSort (ranges : List ByteRange) :
    SortedByStart ranges (ranges.insertionSort fun range next => range.1 ≤ next.1) where
  perm := List.perm_insertionSort _ ranges
  ordered := by
    let byStart : ByteRange → ByteRange → Prop := fun range next => range.1 ≤ next.1
    have : Std.Total byStart := ⟨fun range next => Nat.le_total range.1 next.1⟩
    have : IsTrans ByteRange byStart := ⟨fun _ _ _ => Nat.le_trans⟩
    exact List.pairwise_insertionSort byStart ranges

/-- The merged ranges, with the next range put to them. -/
theorem pushMerged_spec {merged : List ByteRange} {range : ByteRange} (h : Separated merged)
    (hstarts : ∀ r ∈ merged, r.1 ≤ range.1) :
    Separated (pushMerged merged range) ∧ (∀ r ∈ pushMerged merged range, r.1 ≤ range.1) ∧
      ∀ offset, Covered (pushMerged merged range) offset ↔
        Covered merged offset ∨ Within offset range := by
  rcases List.eq_nil_or_concat merged with rfl | ⟨front, last, rfl⟩
  · refine ⟨List.pairwise_singleton _ _, fun r hr => ?_, fun offset => ?_⟩
    · rw [List.mem_singleton.mp hr]
    · exact covered_append.trans (or_congr_right covered_singleton)
  · rw [List.concat_eq_append] at h hstarts ⊢
    have hlast := hstarts last (List.mem_append_right _ (List.mem_singleton_self last))
    rw [pushMerged, List.getLast?_concat]
    dsimp only
    split
    · rename_i htouch
      rw [List.dropLast_concat]
      refine ⟨h.widen _, fun r hr => ?_, fun offset => ?_⟩
      · rcases List.mem_append.mp hr with hfront | hr
        · exact hstarts r (List.mem_append_left _ hfront)
        · rw [List.mem_singleton.mp hr]
          exact hlast
      · rw [covered_append, covered_append, covered_singleton, covered_singleton,
          within_widen hlast htouch, or_assoc]
    · rename_i hbehind
      refine ⟨h.concat hstarts (Nat.lt_of_not_le hbehind), fun r hr => ?_, fun offset => ?_⟩
      · rcases List.mem_append.mp hr with hr | hr
        · exact hstarts r hr
        · rw [List.mem_singleton.mp hr]
      · rw [covered_append, covered_singleton]

theorem foldl_pushMerged {sorted merged : List ByteRange} (h : Separated merged)
    (hordered : sorted.Pairwise fun range next => range.1 ≤ next.1)
    (hstarts : ∀ r ∈ merged, ∀ range ∈ sorted, r.1 ≤ range.1) :
    Separated (sorted.foldl pushMerged merged) ∧
      ∀ offset, Covered (sorted.foldl pushMerged merged) offset ↔
        Covered merged offset ∨ Covered sorted offset := by
  induction sorted generalizing merged with
  | nil => exact ⟨h, fun offset => by simp [Covered]⟩
  | cons range sorted ih =>
      obtain ⟨hfirst, hrest⟩ := List.pairwise_cons.mp hordered
      obtain ⟨hpushed, hbefore, hcovered⟩ := pushMerged_spec h fun r hr =>
        hstarts r hr range List.mem_cons_self
      obtain ⟨hseparated, hall⟩ := ih hpushed hrest fun r hr next hnext =>
        (hbefore r hr).trans (hfirst next hnext)
      refine ⟨hseparated, fun offset => ?_⟩
      rw [List.foldl_cons, hall, hcovered, or_assoc, ← covered_singleton, ← covered_append,
        List.singleton_append]

theorem SortedByStart.separated {ranges sorted : List ByteRange} (h : SortedByStart ranges sorted) :
    Separated (mergeSorted sorted) :=
  (foldl_pushMerged List.Pairwise.nil h.ordered nofun).1

theorem SortedByStart.covered {ranges sorted : List ByteRange} (h : SortedByStart ranges sorted)
    (offset : Nat) : Covered (mergeSorted sorted) offset ↔ Covered ranges offset := by
  have hsorted := (foldl_pushMerged List.Pairwise.nil h.ordered nofun).2 offset
  rw [mergeSorted, hsorted]
  constructor
  · rintro (⟨_, hnone, _⟩ | ⟨range, hrange, hwithin⟩)
    · exact absurd hnone List.not_mem_nil
    · exact ⟨range, h.perm.mem_iff.mp hrange, hwithin⟩
  · rintro ⟨range, hrange, hwithin⟩
    exact Or.inr ⟨range, h.perm.mem_iff.mpr hrange, hwithin⟩

theorem offsetInRanges_iff {ranges : List ByteRange} (h : Separated ranges) {offset : Nat} :
    offsetInRanges offset ranges = true ↔ Covered ranges offset :=
  h.isOk_binarySearchBy offset

/-! ## Characters and their offsets -/

theorem charIndicesFrom_ge {offset : Nat} {text : List Char} {entry : Nat × Char}
    (h : entry ∈ charIndicesFrom offset text) : offset ≤ entry.1 := by
  induction text generalizing offset with
  | nil => exact absurd h List.not_mem_nil
  | cons c cs ih =>
      rcases List.mem_cons.mp h with rfl | hrest
      · exact Nat.le_refl _
      · exact (Nat.le_add_right _ _).trans (ih hrest)

theorem pairwise_charIndicesFrom (offset : Nat) (text : List Char) :
    (charIndicesFrom offset text).Pairwise fun entry next => entry.1 < next.1 := by
  induction text generalizing offset with
  | nil => exact .nil
  | cons c cs ih =>
      refine List.Pairwise.cons (fun next hnext => ?_) (ih _)
      have hbehind := charIndicesFrom_ge hnext
      have hpos := c.utf8Size_pos
      dsimp only
      omega

theorem map_snd_charIndicesFrom (offset : Nat) (text : List Char) :
    (charIndicesFrom offset text).map Prod.snd = text := by
  induction text generalizing offset with
  | nil => rfl
  | cons c cs ih => rw [charIndicesFrom, List.map_cons, ih]

/-- What is not dropped anyway is not dropped. -/
theorem filter_dropWhile {α : Type} {p q : α → Bool} {xs : List α}
    (h : ∀ x ∈ xs, p x = true → q x = false) : (xs.dropWhile p).filter q = xs.filter q := by
  induction xs with
  | nil => rfl
  | cons x xs ih =>
      cases hp : p x with
      | false => rw [List.dropWhile_cons_of_neg (by simp [hp])]
      | true =>
          have hq : ¬q x = true := by simp [h x List.mem_cons_self hp]
          rw [List.dropWhile_cons_of_pos hp, List.filter_cons_of_neg hq]
          exact ih fun y hy => h y (List.mem_cons_of_mem x hy)

/-! ## What is put out -/

section Emitted

variable {source : String} {textRanges htmlRanges : List ByteRange}

/-- Every `br` tag that starts in one of the ranges ends in it. -/
def BrTagsEnd (source : String) (ranges : List ByteRange) : Prop :=
  ∀ range ∈ ranges, ∀ offset tagLen, Within offset range →
    brTagLen source offset = some tagLen → offset + tagLen ≤ range.2

/-- A character that belongs to none of the ranges. -/
def Outside (textRanges htmlRanges : List ByteRange) (entry : Nat × Char) : Prop :=
  ¬Covered textRanges entry.1 ∧ ¬Covered htmlRanges entry.1

instance (textRanges htmlRanges : List ByteRange) (entry : Nat × Char) :
    Decidable (Outside textRanges htmlRanges entry) := inferInstanceAs (Decidable (_ ∧ _))

theorem brTagAt_eq_some {offset tagLen : Nat} {ch : Char}
    (h : brTagAt source htmlRanges offset ch = some tagLen) :
    offsetInRanges offset htmlRanges = true ∧ brTagLen source offset = some tagLen := by
  unfold brTagAt at h
  split at h
  · rename_i hat
    exact ⟨hat.2, h⟩
  · cases h

theorem emitFrom_filter (htext : Separated textRanges) (hhtml : Separated htmlRanges)
    (hends : BrTagsEnd source htmlRanges) {chars : List (Nat × Char)}
    (hchars : chars.Pairwise fun entry next => entry.1 < next.1) :
    (emitFrom source textRanges htmlRanges chars).filter (Outside textRanges htmlRanges) =
      chars.filter (Outside textRanges htmlRanges) := by
  fun_induction emitFrom source textRanges htmlRanges chars with
  | case1 => rfl
  | case2 offset ch chars tagLen htag ih =>
      obtain ⟨hbehind, hrest⟩ := List.pairwise_cons.mp hchars
      obtain ⟨hin, hlen⟩ := brTagAt_eq_some htag
      obtain ⟨range, hrange, hwithin⟩ := (offsetInRanges_iff hhtml).mp hin
      have hend := hends range hrange offset tagLen hwithin hlen
      have hout : ∀ c, ¬Outside textRanges htmlRanges (offset, c) := fun c h =>
        h.2 ⟨range, hrange, hwithin⟩
      rw [List.filter_cons_of_neg (by simpa using hout ' '),
        List.filter_cons_of_neg (by simpa using hout ch),
        ih (hrest.sublist (List.dropWhile_suffix _).sublist)]
      refine filter_dropWhile fun next hnext hdropped => ?_
      have hbefore : next.1 < offset + tagLen := by simpa using hdropped
      have hfrom := hbehind next hnext
      have hcovered : Covered htmlRanges next.1 := by
        refine ⟨range, hrange, hwithin.1.trans (Nat.le_of_lt hfrom), ?_⟩
        omega
      simpa using fun h : Outside textRanges htmlRanges next => h.2 hcovered
  | case3 offset ch chars htag hnewline ih =>
      obtain ⟨-, hrest⟩ := List.pairwise_cons.mp hchars
      have hcovered := (offsetInRanges_iff htext).mp hnewline.2
      have hout : ∀ c, ¬Outside textRanges htmlRanges (offset, c) := fun c h => h.1 hcovered
      rw [List.filter_cons_of_neg (by simpa using hout ' '),
        List.filter_cons_of_neg (by simpa using hout ch),
        ih (hrest.sublist (List.dropWhile_suffix _).sublist)]
      refine filter_dropWhile fun next hnext hdropped => ?_
      have hnextIn := (Bool.and_eq_true_iff.mp hdropped).2
      have hnextCovered := (offsetInRanges_iff htext).mp hnextIn
      simpa using fun h : Outside textRanges htmlRanges next => h.1 hnextCovered
  | case4 offset ch chars htag hplain ih =>
      rw [List.filter_cons, List.filter_cons, ih (List.pairwise_cons.mp hchars).2]

theorem ne_newline_of_mem_emitFrom (htext : Separated textRanges) {chars : List (Nat × Char)}
    {entry : Nat × Char} (hmem : entry ∈ emitFrom source textRanges htmlRanges chars)
    (hcovered : Covered textRanges entry.1) : entry.2 ≠ '\n' := by
  fun_induction emitFrom source textRanges htmlRanges chars with
  | case1 => exact absurd hmem List.not_mem_nil
  | case2 offset ch chars tagLen htag ih =>
      rcases List.mem_cons.mp hmem with rfl | hrest
      · change ' ' ≠ '\n'
        decide
      · exact ih hrest
  | case3 offset ch chars htag hnewline ih =>
      rcases List.mem_cons.mp hmem with rfl | hrest
      · change ' ' ≠ '\n'
        decide
      · exact ih hrest
  | case4 offset ch chars htag hplain ih =>
      rcases List.mem_cons.mp hmem with rfl | hrest
      · intro hch
        exact hplain ⟨hch, (offsetInRanges_iff htext).mpr hcovered⟩
      · exact ih hrest

/-- Characters are put out in their order, for themselves or as a space. -/
theorem emitFrom_sublist (chars : List (Nat × Char)) :
    ((emitFrom source textRanges htmlRanges chars).map Prod.fst).Sublist (chars.map Prod.fst) ∧
      ∀ entry ∈ emitFrom source textRanges htmlRanges chars, entry ∈ chars ∨ entry.2 = ' ' := by
  fun_induction emitFrom source textRanges htmlRanges chars with
  | case1 => exact ⟨List.Sublist.refl _, fun _ h => absurd h List.not_mem_nil⟩
  | case2 offset ch chars tagLen htag ih =>
      have hkept := (List.dropWhile_suffix (l := chars) fun next : Nat × Char =>
        decide (next.1 < offset + tagLen)).sublist
      refine ⟨(ih.1.trans (hkept.map Prod.fst)).cons_cons offset, fun entry hentry => ?_⟩
      rcases List.mem_cons.mp hentry with rfl | hrest
      · exact Or.inr rfl
      · exact (ih.2 entry hrest).imp_left fun h => List.mem_cons_of_mem _ (hkept.subset h)
  | case3 offset ch chars htag hnewline ih =>
      have hkept := (List.dropWhile_suffix (l := chars) (isIndentation textRanges)).sublist
      refine ⟨(ih.1.trans (hkept.map Prod.fst)).cons_cons offset, fun entry hentry => ?_⟩
      rcases List.mem_cons.mp hentry with rfl | hrest
      · exact Or.inr rfl
      · exact (ih.2 entry hrest).imp_left fun h => List.mem_cons_of_mem _ (hkept.subset h)
  | case4 offset ch chars htag hplain ih =>
      refine ⟨ih.1.cons_cons offset, fun entry hentry => ?_⟩
      rcases List.mem_cons.mp hentry with rfl | hrest
      · exact Or.inl List.mem_cons_self
      · exact (ih.2 entry hrest).imp_left (List.mem_cons_of_mem _)

theorem emitFrom_eq_self {chars : List (Nat × Char)}
    (htags : ∀ entry ∈ chars, brTagAt source htmlRanges entry.1 entry.2 = none)
    (hnewlines : ∀ entry ∈ chars, entry.2 = '\n' → offsetInRanges entry.1 textRanges = false) :
    emitFrom source textRanges htmlRanges chars = chars := by
  fun_induction emitFrom source textRanges htmlRanges chars with
  | case1 => rfl
  | case2 offset ch chars tagLen htag ih =>
      have hnone := htags (offset, ch) List.mem_cons_self
      rw [htag] at hnone
      cases hnone
  | case3 offset ch chars htag hnewline ih =>
      have hfalse := hnewlines (offset, ch) List.mem_cons_self hnewline.1
      rw [hnewline.2] at hfalse
      cases hfalse
  | case4 offset ch chars htag hplain ih =>
      rw [ih (fun entry hentry => htags entry (List.mem_cons_of_mem _ hentry))
        fun entry hentry => hnewlines entry (List.mem_cons_of_mem _ hentry)]

/-- What is put out of a text when only its ranges are rewritten. -/
structure RewrittenWithin (source : String) (textRanges htmlRanges : List ByteRange)
    (out : List (Nat × Char)) : Prop where
  outside : out.filter (Outside textRanges htmlRanges) =
    (charIndices source).filter (Outside textRanges htmlRanges)
  noNewline : ∀ entry ∈ out, Covered textRanges entry.1 → entry.2 ≠ '\n'
  inOrder : (out.map Prod.fst).Sublist ((charIndices source).map Prod.fst)
  spaces : ∀ entry ∈ out, entry ∈ charIndices source ∨ entry.2 = ' '

theorem rewrittenWithin_emitted (htext : Separated textRanges) (hhtml : Separated htmlRanges)
    (hends : BrTagsEnd source htmlRanges) :
    RewrittenWithin source textRanges htmlRanges (emitted source textRanges htmlRanges) where
  outside := emitFrom_filter htext hhtml hends (pairwise_charIndicesFrom 0 source.toList)
  noNewline _ hmem hcovered := ne_newline_of_mem_emitFrom htext hmem hcovered
  inOrder := (emitFrom_sublist (charIndices source)).1
  spaces := (emitFrom_sublist (charIndices source)).2

/-- A whole `br` tag. -/
def BrTagIn (source : String) (range : ByteRange) : Prop :=
  ∃ offset tagLen, brTagLen source offset = some tagLen ∧ range.1 ≤ offset ∧
    offset + tagLen ≤ range.2

theorem text_of_charIndices (source : String) :
    String.ofList ((charIndices source).map Prod.snd) = source := by
  rw [charIndices, map_snd_charIndicesFrom, String.ofList_toList]

theorem rewriteInline_eq_self (htext : Separated textRanges) (hhtml : Separated htmlRanges)
    (hends : BrTagsEnd source htmlRanges)
    (hnewlines : ∀ offset, (offset, '\n') ∈ charIndices source → ¬Covered textRanges offset)
    (htags : ∀ range ∈ htmlRanges, ¬BrTagIn source range) :
    rewriteInline source textRanges htmlRanges = source := by
  have hself : emitted source textRanges htmlRanges = charIndices source := by
    refine emitFrom_eq_self (fun entry _ => ?_) fun entry hentry hnewline => ?_
    · by_contra hsome
      obtain ⟨tagLen, htag⟩ := Option.ne_none_iff_exists'.mp hsome
      obtain ⟨hin, hlen⟩ := brTagAt_eq_some htag
      obtain ⟨range, hrange, hwithin⟩ := (offsetInRanges_iff hhtml).mp hin
      exact htags range hrange ⟨entry.1, tagLen, hlen, hwithin.1,
        hends range hrange entry.1 tagLen hwithin hlen⟩
    · obtain ⟨offset, ch⟩ := entry
      obtain rfl : ch = '\n' := hnewline
      exact Bool.eq_false_iff.mpr fun hin =>
        hnewlines offset hentry ((offsetInRanges_iff htext).mp hin)
  rw [rewriteInline, hself, text_of_charIndices]

end Emitted

/-! ## The whole preview -/

/-- The rewrite asks the ranges only for what they cover. -/
theorem emitFrom_congr {source : String}
    {textRanges textRanges' htmlRanges htmlRanges' : List ByteRange}
    (htext : ∀ offset, offsetInRanges offset textRanges = offsetInRanges offset textRanges')
    (hhtml : ∀ offset, offsetInRanges offset htmlRanges = offsetInRanges offset htmlRanges')
    (chars : List (Nat × Char)) :
    emitFrom source textRanges htmlRanges chars =
      emitFrom source textRanges' htmlRanges' chars := by
  have htag : brTagAt source htmlRanges = brTagAt source htmlRanges' := by
    funext offset ch
    rw [brTagAt, brTagAt, hhtml]
  have hindentation : isIndentation textRanges = isIndentation textRanges' := by
    funext next
    rw [isIndentation, isIndentation, htext]
  fun_induction emitFrom source textRanges htmlRanges chars with
  | case1 => rw [emitFrom]
  | case2 offset ch chars tagLen hat ih =>
      rw [htag] at hat
      rw [emitFrom, hat, ih]
  | case3 offset ch chars hat hnewline ih =>
      rw [htag] at hat
      rw [htext] at hnewline
      rw [emitFrom, hat, ih, ← hindentation]
      exact (if_pos hnewline).symm
  | case4 offset ch chars hat hplain ih =>
      rw [htag] at hat
      rw [htext] at hplain
      rw [emitFrom, hat, ih]
      exact (if_neg hplain).symm

theorem InlineRanges.visit_subset {ranges : InlineRanges}
    (h : ranges.htmlRanges ⊆ ranges.textRanges) (kind : NodeKind) (position : Option ByteRange) :
    (ranges.visit kind position).htmlRanges ⊆ (ranges.visit kind position).textRanges := by
  cases position with
  | none => exact h
  | some range =>
      have hmore : ranges.htmlRanges ⊆ ranges.textRanges ++ [range] := fun r hr =>
        List.mem_append_left _ (h hr)
      cases kind with
      | html => exact List.append_subset.mpr ⟨hmore, List.subset_append_right _ _⟩
      | other => exact h
      | text => exact hmore
      | inlineCode => exact hmore
      | inlineMath => exact hmore

mutual

theorem html_subset_collectInlineRanges (node : MarkdownNode) {ranges : InlineRanges}
    (h : ranges.htmlRanges ⊆ ranges.textRanges) :
    (collectInlineRanges node ranges).htmlRanges ⊆
      (collectInlineRanges node ranges).textRanges := by
  cases node with
  | node kind position children =>
      exact html_subset_collectChildren children (InlineRanges.visit_subset h kind position)

theorem html_subset_collectChildren (children : List MarkdownNode) {ranges : InlineRanges}
    (h : ranges.htmlRanges ⊆ ranges.textRanges) :
    (collectChildren children ranges).htmlRanges ⊆
      (collectChildren children ranges).textRanges := by
  cases children with
  | nil => exact h
  | cons child children =>
      exact html_subset_collectChildren children (html_subset_collectInlineRanges child h)

end

section Preview

variable {parse : String → Option MarkdownNode} {source : String} {ast : MarkdownNode}

/-- It does not matter how the sort orders the ranges, nor that no range is a case of its own. -/
theorem sanitizeMarkdownPreview_eq (hparse : parse source = some ast)
    {textRanges htmlRanges : List ByteRange}
    (htext : SortedByStart (collectInlineRanges ast .empty).textRanges textRanges)
    (hhtml : SortedByStart (collectInlineRanges ast .empty).htmlRanges htmlRanges) :
    sanitizeMarkdownPreview parse source =
      rewriteInline source (mergeSorted textRanges) (mergeSorted htmlRanges) := by
  have hsame : ∀ {ranges sorted : List ByteRange}, SortedByStart ranges sorted → ∀ offset,
      offsetInRanges offset (mergeRanges ranges) = offsetInRanges offset (mergeSorted sorted) := by
    intro ranges sorted hsorted offset
    have hstable := sortedByStart_insertionSort ranges
    rw [mergeRanges, Bool.eq_iff_iff, offsetInRanges_iff hstable.separated,
      offsetInRanges_iff hsorted.separated, hstable.covered, hsorted.covered]
  have hmerged : rewriteInline source
      (mergeRanges (collectInlineRanges ast .empty).textRanges)
      (mergeRanges (collectInlineRanges ast .empty).htmlRanges) =
        rewriteInline source (mergeSorted textRanges) (mergeSorted htmlRanges) := by
    rw [rewriteInline, emitted, emitFrom_congr (hsame htext) (hsame hhtml)]
    rfl
  unfold sanitizeMarkdownPreview
  rw [hparse]
  dsimp only
  split
  · rename_i hnone
    rw [hnone.1, hnone.2] at hmerged
    rw [← hmerged]
    exact (rewriteInline_eq_self List.Pairwise.nil List.Pairwise.nil nofun nofun nofun).symm
  · exact hmerged

/-- What is outside the inline nodes of the document is shown as it is. -/
theorem sanitizeMarkdownPreview_outside {ranges : InlineRanges} (hparse : parse source = some ast)
    (hranges : collectInlineRanges ast .empty = ranges)
    (hends : BrTagsEnd source (mergeRanges ranges.htmlRanges)) :
    ∃ out : List (Nat × Char),
      sanitizeMarkdownPreview parse source = String.ofList (out.map Prod.snd) ∧
      (out.filter fun entry => ¬Covered ranges.textRanges entry.1) =
        ((charIndices source).filter fun entry => ¬Covered ranges.textRanges entry.1) ∧
      ∀ entry ∈ out, Covered ranges.textRanges entry.1 → entry.2 ≠ '\n' := by
  have hsubset : ranges.htmlRanges ⊆ ranges.textRanges :=
    hranges ▸ html_subset_collectInlineRanges ast (List.Subset.refl [])
  have htext := sortedByStart_insertionSort ranges.textRanges
  have hhtml := sortedByStart_insertionSort ranges.htmlRanges
  have hwithin : RewrittenWithin source (mergeRanges ranges.textRanges)
      (mergeRanges ranges.htmlRanges) _ :=
    rewrittenWithin_emitted htext.separated hhtml.separated hends
  have houtside : ∀ entry, Outside (mergeRanges ranges.textRanges) (mergeRanges ranges.htmlRanges)
      entry ↔ ¬Covered ranges.textRanges entry.1 := by
    intro entry
    unfold Outside mergeRanges
    rw [htext.covered, hhtml.covered]
    refine ⟨And.left, fun hnot => ⟨hnot, ?_⟩⟩
    rintro ⟨range, hrange, hin⟩
    exact hnot ⟨range, hsubset hrange, hin⟩
  have hfilter : ∀ entries : List (Nat × Char),
      entries.filter (Outside (mergeRanges ranges.textRanges) (mergeRanges ranges.htmlRanges)) =
        entries.filter fun entry => ¬Covered ranges.textRanges entry.1 := fun entries =>
    List.filter_congr fun entry _ => decide_eq_decide.mpr (houtside entry)
  subst hranges
  refine ⟨_, sanitizeMarkdownPreview_eq hparse htext hhtml, ?_, ?_⟩
  · rw [← hfilter, ← hfilter]
    exact hwithin.outside
  · intro entry hentry hcovered
    exact hwithin.noNewline entry hentry ((htext.covered entry.1).mpr hcovered)

end Preview

/--
However the sort orders ranges that start together, the merged ranges are sorted and
disjoint, they cover what the ranges covered, and the search in them tells that. The
rewrite with such ranges copies what is outside of them, puts out no newline for an
offset in a range of text, and nothing changes where there is nothing to replace.
-/
theorem preview_breaks_in_ranges :
    (∀ ranges sorted, SortedByStart ranges sorted →
      Separated (mergeSorted sorted) ∧
      (∀ offset, Covered (mergeSorted sorted) offset ↔ Covered ranges offset) ∧
      ∀ offset, offsetInRanges offset (mergeSorted sorted) = true ↔ Covered ranges offset) ∧
    ∀ source textRanges htmlRanges, Separated textRanges → Separated htmlRanges →
      BrTagsEnd source htmlRanges →
        RewrittenWithin source textRanges htmlRanges (emitted source textRanges htmlRanges) ∧
        ((∀ offset, (offset, '\n') ∈ charIndices source → ¬Covered textRanges offset) →
          (∀ range ∈ htmlRanges, ¬BrTagIn source range) →
            rewriteInline source textRanges htmlRanges = source) := by
  constructor
  · intro ranges sorted hsorted
    refine ⟨hsorted.separated, hsorted.covered, fun offset => ?_⟩
    rw [offsetInRanges_iff hsorted.separated, hsorted.covered]
  · intro source textRanges htmlRanges htext hhtml hends
    exact ⟨rewrittenWithin_emitted htext hhtml hends, rewriteInline_eq_self htext hhtml hends⟩

theorem preview_breaks_sample :
    (∀ offset, offsetInRanges offset (mergeSorted [(0, 6), (1, 5), (6, 9)]) = true ↔
      Covered [(6, 9), (0, 6), (1, 5)] offset) ∧
    RewrittenWithin "a<br>b\n c" [(0, 9)] [(1, 5)] (emitted "a<br>b\n c" [(0, 9)] [(1, 5)]) := by
  obtain ⟨hmerged, hrewritten⟩ := preview_breaks_in_ranges
  have hsorted : SortedByStart [(6, 9), (0, 6), (1, 5)] [(0, 6), (1, 5), (6, 9)] :=
    ⟨by decide, by decide⟩
  have hends : BrTagsEnd "a<br>b\n c" [(1, 5)] := by
    intro range hrange offset tagLen hwithin hlen
    obtain rfl := List.mem_singleton.mp hrange
    have hall : ∀ offset < 5, (brTagLen "a<br>b\n c" offset).all
        (fun tagLen => decide (offset + tagLen ≤ 5)) = true := by decide
    have hend := hall offset hwithin.2
    rw [hlen] at hend
    simpa using hend
  exact ⟨(hmerged _ _ hsorted).2.2, (hrewritten _ _ _ (List.pairwise_singleton _ _)
    (List.pairwise_singleton _ _) hends).1⟩

end Fulgur
