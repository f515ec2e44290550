import Fulgur.Preview.ImageSources
import Fulgur.Preview.InlineBreaks
import Fulgur.Search.ReplaceAll

/-! # Local images in Markdown

An image and a fragment of raw HTML with a local path in it are written anew, with the
file URL of the path, where they are in the source. What would start before the end of
something that was already written anew is left as it is.
-/

namespace Fulgur

open Intervals

/-! ## The images of a document -/

inductive ImageNode where
  | image (alt url : String) (title : Option String) (position : Option ByteRange)
  | html (value : String) (position : Option ByteRange)
  | other (children : List ImageNode)

/-- What comes in the place of a range of the source. -/
structure ImageReplacement where
  start : Nat
  stop : Nat
  replacement : String
deriving DecidableEq

namespace ImageNode

def position : ImageNode → Option ByteRange
  | .image _ _ _ position | .html _ position => position
  | .other _ => none

mutual

/-- The images and the fragments of HTML, in the order of the document. -/
def images : ImageNode → List ImageNode
  | .image alt url title position => [.image alt url title position]
  | .html value position => [.html value position]
  | .other children => childImages children

def childImages : List ImageNode → List ImageNode
  | [] => []
  | child :: children => child.images ++ childImages children

end

variable {Path : Type} (paths : LocalPaths Path) (baseDir : Option Path)

def rebuilt : ImageNode → Option String
  | .image alt url title _ =>
      (localPathToFileUrl paths url baseDir).map fun newUrl =>
        let title := (title.map fun title => " \"" ++ title ++ "\"").getD ""
        "![" ++ alt ++ "](" ++ newUrl ++ title ++ ")"
  | .html value _ => rewriteHtmlImgSrc paths value baseDir
  | .other _ => none

def replacement? (node : ImageNode) : Option ImageReplacement :=
  node.position.bind fun position =>
    (node.rebuilt paths baseDir).map fun text => ⟨position.1, position.2, text⟩

mutual

def collectImageReplacements : ImageNode → List ImageReplacement → List ImageReplacement
  | .image alt url title position, replacements =>
      replacements ++ (replacement? paths baseDir (.image alt url title position)).toList
  | .html value position, replacements =>
      replacements ++ (replacement? paths baseDir (.html value position)).toList
  | .other children, replacements => collectChildReplacements children replacements

def collectChildReplacements : List ImageNode → List ImageReplacement → List ImageReplacement
  | [], replacements => replacements
  | child :: children, replacements =>
      collectChildReplacements children (collectImageReplacements child replacements)

end

end ImageNode

/-! ## The rewrite -/

/-- The loop of `apply_replacements`; a slice that panics gives `none`. -/
def applyImageLoop (source : List Char) :
    Nat → List ImageReplacement → List Char → Option (List Char)
  | cursor, [], output => (sliceFrom cursor source).map (output ++ ·)
  | cursor, edit :: edits, output =>
      if edit.start < cursor then applyImageLoop source cursor edits output
      else (slice cursor edit.start source).bind fun between =>
        applyImageLoop source edit.stop edits (output ++ between ++ edit.replacement.toList)

/-- A way to sort by the start: `sort_unstable_by_key` leaves it open how ties are broken. -/
structure SortsByStart (sort : List ImageReplacement → List ImageReplacement) : Prop where
  perm : ∀ edits, (sort edits).Perm edits
  ordered : ∀ edits, (sort edits).Pairwise fun edit next => edit.start ≤ next.start

def applyImageReplacements (sort : List ImageReplacement → List ImageReplacement) (source : String)
    (replacements : List ImageReplacement) : Option String :=
  (applyImageLoop source.toList 0 (sort replacements) []).map String.ofList

/-- The parser of the `markdown` crate is what `parse` stands for. -/
def rewriteMarkdownImagePaths {Path : Type} (paths : LocalPaths Path)
    (parse : String → Option ImageNode) (sort : List ImageReplacement → List ImageReplacement)
    (source : String) (baseDir : Option Path) : Option String :=
  match parse source with
  | none => some source
  | some ast =>
      let replacements := ast.collectImageReplacements paths baseDir []
      if replacements = [] then some source
      else applyImageReplacements sort source replacements

/-! ## What is collected -/

namespace ImageNode

variable {Path : Type} (paths : LocalPaths Path) (baseDir : Option Path)

theorem filterMap_one (node : ImageNode) :
    [node].filterMap (replacement? paths baseDir) = (node.replacement? paths baseDir).toList := by
  cases h : node.replacement? paths baseDir <;> simp [h]

mutual

theorem collectImageReplacements_eq (node : ImageNode) (replacements : List ImageReplacement) :
    node.collectImageReplacements paths baseDir replacements =
      replacements ++ node.images.filterMap (replacement? paths baseDir) := by
  cases node with
  | image alt url title position =>
      rw [collectImageReplacements, images, filterMap_one]
  | html value position => rw [collectImageReplacements, images, filterMap_one]
  | other children =>
      rw [collectImageReplacements, images]
      exact collectChildReplacements_eq children replacements

theorem collectChildReplacements_eq (children : List ImageNode)
    (replacements : List ImageReplacement) :
    collectChildReplacements paths baseDir children replacements =
      replacements ++ (childImages children).filterMap (replacement? paths baseDir) := by
  cases children with
  | nil => simp [collectChildReplacements, childImages]
  | cons child children =>
      rw [collectChildReplacements, childImages, collectChildReplacements_eq,
        collectImageReplacements_eq, List.filterMap_append, List.append_assoc]

end

end ImageNode

/-! ## What is put in -/

/-- A range of whole characters of the source, with at least one in it. -/
structure Sliced (source : List Char) (start stop : Nat) : Prop where
  nonempty : start < stop
  start : isCharBoundary start source = true
  stop : isCharBoundary stop source = true

/-- A text from an offset on, with other texts in the places of some of its ranges. -/
inductive Spliced : Nat → List Char → List ImageReplacement → List Char → Prop
  | rest (offset : Nat) (text : List Char) : Spliced offset text [] text
  | replaced {offset : Nat} {edit : ImageReplacement} {between old after result : List Char}
      {kept : List ImageReplacement} (hstart : edit.start = offset + byteLen between)
      (hstop : edit.stop = edit.start + byteLen old)
      (hrest : Spliced edit.stop after kept result) :
      Spliced offset (between ++ (old ++ after)) (edit :: kept)
        (between ++ (edit.replacement.toList ++ result))

theorem Sliced.parts {before after : List Char} {start stop : Nat}
    (h : Sliced (before ++ after) start stop) (hbefore : byteLen before ≤ start) :
    ∃ between old rest, after = between ++ (old ++ rest) ∧ start = byteLen (before ++ between) ∧
      stop = byteLen ((before ++ between) ++ old) := by
  have hnonempty := h.nonempty
  obtain ⟨upTo, rest, htext, hupTo⟩ := isCharBoundary_iff.mp h.start
  obtain ⟨upTo', rest', htext', hupTo'⟩ := isCharBoundary_iff.mp h.stop
  obtain ⟨between, rfl⟩ := prefix_of_byteLen_le htext (by omega)
  obtain ⟨old, rfl⟩ := prefix_of_byteLen_le (htext.symm.trans htext') (by omega)
  refine ⟨between, old, rest', ?_, hupTo.symm, hupTo'.symm⟩
  rw [List.append_assoc, List.append_assoc] at htext'
  exact List.append_cancel_left htext'

/-- The edits are put in as one scan takes them. -/
theorem spliced_applyImageLoop (edits : List ImageReplacement) (before after output : List Char)
    (hsliced : ∀ edit ∈ edits, Sliced (before ++ after) edit.start edit.stop) :
    ∃ result, applyImageLoop (before ++ after) (byteLen before) edits output =
        some (output ++ result) ∧
      Spliced (byteLen before) after
        (scan ImageReplacement.start ImageReplacement.stop (byteLen before) edits) result := by
  induction edits generalizing before after output with
  | nil =>
      refine ⟨after, ?_, .rest (byteLen before) after⟩
      rw [applyImageLoop, sliceFrom_append, Option.map_some]
  | cons edit edits ih =>
      obtain ⟨hedit, hedits⟩ := List.forall_mem_cons.mp hsliced
      rw [applyImageLoop, scan]
      by_cases hstart : edit.start < byteLen before
      · rw [if_pos hstart, if_pos hstart]
        exact ih before after output hedits
      · rw [if_neg hstart, if_neg hstart]
        obtain ⟨between, old, rest, rfl, hfrom, hto⟩ := hedit.parts (Nat.le_of_not_lt hstart)
        have hbetween : slice (byteLen before) edit.start (before ++ (between ++ (old ++ rest))) =
            some between := by
          rw [hfrom, ← List.append_assoc]
          exact slice_append before between (old ++ rest)
        have hparts : before ++ (between ++ (old ++ rest)) =
            ((before ++ between) ++ old) ++ rest := by
          simp only [List.append_assoc]
        rw [hparts] at hedits
        obtain ⟨result, hresult, hspliced⟩ := ih ((before ++ between) ++ old) rest
          (output ++ between ++ edit.replacement.toList) hedits
        refine ⟨between ++ (edit.replacement.toList ++ result), ?_, ?_⟩
        · rw [hbetween, Option.bind_some, hto, hparts, hresult]
          simp only [List.append_assoc]
        · refine .replaced (by rw [hfrom, byteLen_append]) (by rw [hto, hfrom, byteLen_append]) ?_
          rwa [hto]

/-! ## All images -/

namespace ImageNode

variable {Path : Type} {paths : LocalPaths Path} {baseDir : Option Path}

/-- The positions of the images are ranges of whole characters. -/
def Placed (source : List Char) (ast : ImageNode) : Prop :=
  ∀ node ∈ ast.images, ∀ range ∈ node.position, Sliced source range.1 range.2

/-- The positions of the images do not overlap. -/
def Apart (ast : ImageNode) : Prop :=
  ast.images.Pairwise fun node other => ∀ range ∈ node.position, ∀ range' ∈ other.position,
    range.2 ≤ range'.1 ∨ range'.2 ≤ range.1

/-- What is to be put in for the images of a document. -/
def replacements (paths : LocalPaths Path) (baseDir : Option Path) (ast : ImageNode) :
    List ImageReplacement :=
  ast.images.filterMap (replacement? paths baseDir)

theorem position_of_replacement {node : ImageNode} {edit : ImageReplacement}
    (h : node.replacement? paths baseDir = some edit) :
    (edit.start, edit.stop) ∈ node.position := by
  obtain ⟨position, hposition, hedit⟩ := Option.bind_eq_some_iff.mp h
  obtain ⟨text, -, rfl⟩ := Option.map_eq_some_iff.mp hedit
  exact hposition

theorem Placed.sliced {source : List Char} {ast : ImageNode} (h : ast.Placed source)
    {edit : ImageReplacement} (hedit : edit ∈ ast.replacements paths baseDir) :
    Sliced source edit.start edit.stop := by
  obtain ⟨node, hnode, hnew⟩ := List.mem_filterMap.mp hedit
  exact h node hnode _ (position_of_replacement hnew)

theorem Apart.replacements {ast : ImageNode} (h : ast.Apart) :
    (ast.replacements paths baseDir).Pairwise fun edit other =>
      edit.stop ≤ other.start ∨ other.stop ≤ edit.start := by
  refine List.pairwise_filterMap.mpr (h.imp fun hapart edit hedit other hother => ?_)
  exact hapart _ (position_of_replacement hedit) _ (position_of_replacement hother)

end ImageNode

theorem greedy_sort {sort : List ImageReplacement → List ImageReplacement}
    (hsort : SortsByStart sort)
    {edits : List ImageReplacement} (hnonempty : ∀ edit ∈ edits, edit.start < edit.stop)
    (hapart : edits.Pairwise fun edit other => edit.stop ≤ other.start ∨ other.stop ≤ edit.start) :
    greedy ImageReplacement.start ImageReplacement.stop (sort edits) = sort edits := by
  have hsorted : (sort edits).Pairwise fun edit other =>
      edit.stop ≤ other.start ∨ other.stop ≤ edit.start :=
    ((hsort.perm edits).pairwise_iff fun h => h.symm).mpr hapart
  refine greedy_of_pairwise ((hsorted.and (hsort.ordered edits)).imp_of_mem ?_)
  intro edit other hedit hother hboth
  have hedit := hnonempty edit ((hsort.perm edits).subset hedit)
  have hother := hnonempty other ((hsort.perm edits).subset hother)
  omega

structure Rewritten (edits kept : List ImageReplacement) : Prop where
  subset : kept.Subset edits
  disjoint : kept.Pairwise fun edit next => edit.stop ≤ next.start
  /-- What is left out starts within something that was written anew. -/
  covered : ∀ edit ∈ edits, edit ∈ kept ∨
    ∃ taken ∈ kept, taken.start ≤ edit.start ∧ edit.start < taken.stop

theorem rewritten_sort {sort : List ImageReplacement → List ImageReplacement}
    (hsort : SortsByStart sort) (edits : List ImageReplacement) :
    Rewritten edits (greedy ImageReplacement.start ImageReplacement.stop (sort edits)) where
  subset := fun _ hedit => (hsort.perm edits).subset ((greedy_sublist (sort edits)).subset hedit)
  disjoint := greedy_pairwise (sort edits)
  covered := fun _ hedit =>
    greedy_covered (hsort.ordered edits) ((hsort.perm edits).symm.subset hedit)

theorem applyImageReplacements_spec {sort : List ImageReplacement → List ImageReplacement}
    (hsort : SortsByStart sort) {source : String} {edits : List ImageReplacement}
    (hsliced : ∀ edit ∈ edits, Sliced source.toList edit.start edit.stop) :
    ∃ result, applyImageReplacements sort source edits = some result ∧
      Spliced 0 source.toList
        (greedy ImageReplacement.start ImageReplacement.stop (sort edits)) result.toList := by
  have hsorted : ∀ edit ∈ sort edits, Sliced source.toList edit.start edit.stop :=
    fun edit hedit => hsliced edit ((hsort.perm edits).subset hedit)
  obtain ⟨result, hresult, hspliced⟩ :=
    spliced_applyImageLoop (sort edits) [] source.toList [] hsorted
  have horder : ∀ edit ∈ sort edits, edit.start ≤ edit.stop :=
    fun edit hedit => Nat.le_of_lt (hsorted edit hedit).nonempty
  have hall : notBefore ImageReplacement.start 0 (sort edits) = sort edits :=
    List.filter_eq_self.mpr fun edit _ => decide_eq_true (Nat.zero_le edit.start)
  rw [byteLen_nil, scan_eq_greedy 0 horder, hall] at hspliced
  refine ⟨String.ofList result, ?_, by rwa [String.toList_ofList]⟩
  rw [List.nil_append, byteLen_nil, List.nil_append] at hresult
  rw [applyImageReplacements, hresult, Option.map_some]

/--
The rewrite puts a new text in the place of images with local paths, and leaves every
other character of the source as it is. Where the images do not overlap, it does so for
each of them; otherwise for those that do not start within one that was put in before.
-/
theorem markdown_images_rewritten {Path : Type} (paths : LocalPaths Path)
    (parse : String → Option ImageNode) {sort : List ImageReplacement → List ImageReplacement}
    (hsort : SortsByStart sort) (source : String) (baseDir : Option Path)
    (hplaced : ∀ ast ∈ parse source, ast.Placed source.toList) :
    ∃ result kept, rewriteMarkdownImagePaths paths parse sort source baseDir = some result ∧
      Spliced 0 source.toList kept result.toList ∧
      (parse source = none → kept = []) ∧
      ∀ ast ∈ parse source, Rewritten (ast.replacements paths baseDir) kept ∧
        (ast.Apart → kept.Perm (ast.replacements paths baseDir)) := by
  cases hparse : parse source with
  | none =>
      refine ⟨source, [], by simp [rewriteMarkdownImagePaths, hparse], .rest 0 _, fun _ => rfl, ?_⟩
      intro ast hast
      cases hast
  | some ast =>
      have hsliced : ∀ edit ∈ ast.replacements paths baseDir,
          Sliced source.toList edit.start edit.stop := fun edit hedit =>
        (hplaced ast hparse).sliced hedit
      have hcollected : ast.collectImageReplacements paths baseDir [] =
          ast.replacements paths baseDir := by
        rw [ImageNode.collectImageReplacements_eq, List.nil_append]
        rfl
      obtain ⟨result, hresult, hspliced⟩ := applyImageReplacements_spec hsort hsliced
      refine ⟨result, _, ?_, hspliced, fun hnone => ?_, ?_⟩
      · simp only [rewriteMarkdownImagePaths, hparse, hcollected]
        split
        · rename_i hnil
          have hsorted : sort [] = [] := List.perm_nil.mp (hsort.perm [])
          rw [hnil, applyImageReplacements, hsorted] at hresult
          simpa [applyImageLoop, sliceFrom, isCharBoundary, textFrom] using hresult
        · exact hresult
      · cases hnone
      · rintro _ ⟨⟩
        refine ⟨rewritten_sort hsort _, fun hapart => ?_⟩
        rw [greedy_sort hsort (fun edit hedit => (hsliced edit hedit).nonempty) hapart.replacements]
        exact hsort.perm _

theorem sortsByStart_insertionSort :
    SortsByStart (List.insertionSort fun edit next => edit.start ≤ next.start) where
  perm := List.perm_insertionSort _
  ordered := by
    let byStart : ImageReplacement → ImageReplacement → Prop :=
      fun edit next => edit.start ≤ next.start
    have : Std.Total byStart := ⟨fun edit next => Nat.le_total edit.start next.start⟩
    have : IsTrans ImageReplacement byStart := ⟨fun _ _ _ => Nat.le_trans⟩
    exact fun edits => List.pairwise_insertionSort byStart edits

/-- The second image is not a local one. -/
def sampleImages : ImageNode :=
  .other [.other [.image "a" "a.png" (some "t") (some (0, 15))],
    .image "é" "https://b.test/b.png" none (some (16, 43))]

theorem markdown_images_sample :
    ∃ result kept, rewriteMarkdownImagePaths slashPaths (fun _ => some sampleImages)
        (List.insertionSort fun edit next => edit.start ≤ next.start)
        "![a](a.png \"t\") ![é](https://b.test/b.png)" (some "/docs") = some result ∧
      Spliced 0 "![a](a.png \"t\") ![é](https://b.test/b.png)".toList kept result.toList ∧
      kept.Perm [⟨0, 15, "![a](file:///docs/a.png \"t\")"⟩] := by
  have hplaced : ∀ ast ∈ some sampleImages,
      ast.Placed "![a](a.png \"t\") ![é](https://b.test/b.png)".toList := by
    rintro _ ⟨⟩ node hnode range hrange
    simp only [sampleImages, ImageNode.images, ImageNode.childImages, List.append_nil,
      List.cons_append, List.nil_append, List.mem_cons, List.not_mem_nil, or_false] at hnode
    rcases hnode with rfl | rfl
    · cases hrange
      exact ⟨by decide, by decide, by decide⟩
    · cases hrange
      exact ⟨by decide, by decide, by decide⟩
  obtain ⟨result, kept, hresult, hspliced, -, hall⟩ :=
    markdown_images_rewritten slashPaths (fun _ => some sampleImages) sortsByStart_insertionSort _
      (some "/docs") hplaced
  have hapart : sampleImages.Apart := by
    refine List.pairwise_pair.mpr fun range hrange range' hrange' => ?_
    cases hrange
    cases hrange'
    exact Or.inl (by decide)
  refine ⟨result, kept, hresult, hspliced, ?_⟩
  have hkept := (hall sampleImages rfl).2 hapart
  rwa [show sampleImages.replacements slashPaths (some "/docs") =
    [⟨0, 15, "![a](file:///docs/a.png \"t\")"⟩] by decide] at hkept

end Fulgur
