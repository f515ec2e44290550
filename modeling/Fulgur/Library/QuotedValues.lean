import Fulgur.Library.Delimiters
import Mathlib.Data.List.Forall2
import Mathlib.Data.List.Sort

/-! # Texts with quoted values

A text is read as symbols and quoted values. Values are replaced, and the new text
is read again: it has the new values in the places of the old ones when no new
value has its quote in it. Two ways to read a text that lead to the same new text
replaced the same values in the same places, if new values can be told by a mark
that they begin with.
-/

namespace QuotedValues

open Delimiters

variable {α σ : Type}

/-- A symbol on its own, or a value between two quotes. -/
inductive Piece (α : Type) where
  | char (c : α)
  | quoted (quote : α) (value : List α)
deriving DecidableEq

def Piece.render : Piece α → List α
  | .char c => [c]
  | .quoted quote value => quote :: (value ++ [quote])

def render (pieces : List (Piece α)) : List α := pieces.flatMap Piece.render

@[simp] theorem render_nil : render ([] : List (Piece α)) = [] := rfl

@[simp] theorem render_cons (piece : Piece α) (pieces : List (Piece α)) :
    render (piece :: pieces) = piece.render ++ render pieces := List.flatMap_cons

@[simp] theorem render_append (pieces more : List (Piece α)) :
    render (pieces ++ more) = render pieces ++ render more := List.flatMap_append

@[simp] theorem render_map_char (text : List α) : render (text.map .char) = text := by
  induction text with
  | nil => rfl
  | cons c text ih => rw [List.map_cons, render_cons, ih, Piece.render, List.singleton_append]

theorem render_length_pos (piece : Piece α) : 0 < piece.render.length := by
  cases piece <;> simp [Piece.render]

theorem length_render_quoted (quote : α) (value : List α) :
    (Piece.quoted quote value).render.length = value.length + 2 := by
  simp [Piece.render]

/-- The quotes of the values are quotes, and no value has its own quote in it. -/
def WellQuoted (isQuote : α → Prop) (pieces : List (Piece α)) : Prop :=
  ∀ quote value, .quoted quote value ∈ pieces → isQuote quote ∧ quote ∉ value

/-! ## Replaced values -/

section Changes

variable {replace : List α → Option (List α)}

variable (replace) in
inductive Changed : Piece α → Piece α → Prop
  | kept (piece : Piece α) : Changed piece piece
  | replaced {value value' : List α} (quote : α) (h : replace value = some value') :
      Changed (.quoted quote value) (.quoted quote value')

/-- Replace the values that are chosen by their places. -/
def changeAt (choose : Nat → α → List α → Option (List α)) :
    Nat → List (Piece α) → List (Piece α)
  | _, [] => []
  | n, .char c :: pieces => .char c :: changeAt choose (n + 1) pieces
  | n, .quoted quote value :: pieces =>
      .quoted quote ((choose n quote value).getD value) ::
        changeAt choose (n + value.length + 2) pieces

def places : Nat → List (Piece α) → List (Nat × α × List α)
  | _, [] => []
  | n, .char _ :: pieces => places (n + 1) pieces
  | n, .quoted quote value :: pieces =>
      (n, quote, value) :: places (n + value.length + 2) pieces

theorem changed_changeAt {choose : Nat → α → List α → Option (List α)}
    (hchoose : ∀ n quote value value', choose n quote value = some value' →
      replace value = some value') (n : Nat) (pieces : List (Piece α)) :
    List.Forall₂ (Changed replace) pieces (changeAt choose n pieces) := by
  induction pieces generalizing n with
  | nil => exact .nil
  | cons piece pieces ih =>
      cases piece with
      | char c => exact .cons (.kept _) (ih _)
      | quoted quote value =>
          refine .cons ?_ (ih _)
          cases hvalue : choose n quote value with
          | none => exact .kept _
          | some value' => exact .replaced quote (hchoose n quote value value' hvalue)

variable (replace) in
def changeAll (pieces : List (Piece α)) : List (Piece α) :=
  changeAt (fun _ _ value => replace value) 0 pieces

theorem changeAt_all (m n : Nat) (pieces : List (Piece α)) :
    changeAt (fun _ _ value => replace value) m pieces =
      changeAt (fun _ _ value => replace value) n pieces := by
  induction pieces generalizing m n with
  | nil => rfl
  | cons piece pieces ih =>
      cases piece with
      | char c => exact congrArg (List.cons _) (ih _ _)
      | quoted quote value => exact congrArg (List.cons _) (ih _ _)

@[simp] theorem changeAll_char (c : α) (pieces : List (Piece α)) :
    changeAll replace (.char c :: pieces) = .char c :: changeAll replace pieces :=
  congrArg (List.cons _) (changeAt_all _ _ pieces)

@[simp] theorem changeAll_quoted (quote : α) (value : List α) (pieces : List (Piece α)) :
    changeAll replace (.quoted quote value :: pieces) =
      .quoted quote ((replace value).getD value) :: changeAll replace pieces :=
  congrArg (List.cons _) (changeAt_all _ _ pieces)

variable (replace) in
theorem changeAll_chars_append (text : List α) (pieces : List (Piece α)) :
    changeAll replace (text.map .char ++ pieces) = text.map .char ++ changeAll replace pieces := by
  induction text with
  | nil => rfl
  | cons c text ih => rw [List.map_cons, List.cons_append, changeAll_char, ih, List.cons_append]

theorem changeAll_chars (text : List α) :
    changeAll replace (text.map .char) = text.map .char := by
  have h := changeAll_chars_append replace text []
  rw [List.append_nil] at h
  exact h.trans (List.append_nil _)

variable (replace) in
def replacesAny (pieces : List (Piece α)) : Bool :=
  pieces.any fun
    | .char _ => false
    | .quoted _ value => (replace value).isSome

theorem replacesAny_eq_false {pieces : List (Piece α)} :
    replacesAny replace pieces = false ↔
      ∀ quote value, .quoted quote value ∈ pieces → replace value = none := by
  rw [replacesAny, List.any_eq_false]
  constructor
  · intro h quote value hmem
    simpa using h (.quoted quote value) hmem
  · intro h piece hmem
    cases piece with
    | char c => exact Bool.false_ne_true
    | quoted quote value => simpa using h quote value hmem

variable (replace) in
theorem replacesAny_chars_append (text : List α) (pieces : List (Piece α)) :
    replacesAny replace (text.map .char ++ pieces) = replacesAny replace pieces := by
  induction text with
  | nil => rfl
  | cons c text ih => exact ih

theorem mem_changeAll {quote : α} {value' : List α} {pieces : List (Piece α)}
    (h : .quoted quote value' ∈ changeAll replace pieces) :
    ∃ value, .quoted quote value ∈ pieces ∧ (replace value).getD value = value' := by
  induction pieces with
  | nil => exact absurd h List.not_mem_nil
  | cons piece pieces ih =>
      cases piece with
      | char c =>
          rw [changeAll_char] at h
          rcases List.mem_cons.mp h with heq | hrest
          · cases heq
          · obtain ⟨value, hmem, hvalue⟩ := ih hrest
            exact ⟨value, List.mem_cons_of_mem _ hmem, hvalue⟩
      | quoted quote' value =>
          rw [changeAll_quoted] at h
          rcases List.mem_cons.mp h with heq | hrest
          · cases heq
            exact ⟨value, List.mem_cons_self, rfl⟩
          · obtain ⟨value, hmem, hvalue⟩ := ih hrest
            exact ⟨value, List.mem_cons_of_mem _ hmem, hvalue⟩

theorem wellQuoted_changeAll {isQuote : α → Prop} {pieces : List (Piece α)}
    (hquoted : WellQuoted isQuote pieces)
    (hnew : ∀ quote value value', .quoted quote value ∈ pieces → replace value = some value' →
      quote ∉ value') : WellQuoted isQuote (changeAll replace pieces) := by
  intro quote value' hmem
  obtain ⟨value, hold, hvalue⟩ := mem_changeAll hmem
  obtain ⟨hquote, hplain⟩ := hquoted quote value hold
  cases hreplace : replace value with
  | none =>
      rw [hreplace, Option.getD_none] at hvalue
      exact ⟨hquote, hvalue ▸ hplain⟩
  | some new =>
      rw [hreplace, Option.getD_some] at hvalue
      exact ⟨hquote, hvalue ▸ hnew quote value new hold hreplace⟩

theorem changeAll_of_replacesAny {pieces : List (Piece α)}
    (h : replacesAny replace pieces = false) : changeAll replace pieces = pieces := by
  induction pieces with
  | nil => rfl
  | cons piece pieces ih =>
      have hall := replacesAny_eq_false.mp h
      have hrest := ih (replacesAny_eq_false.mpr fun quote value hmem =>
        hall quote value (List.mem_cons_of_mem piece hmem))
      cases piece with
      | char c => rw [changeAll_char, hrest]
      | quoted quote value =>
          rw [changeAll_quoted, hall quote value List.mem_cons_self, Option.getD_none, hrest]

variable (replace) in
theorem changed_changeAll (pieces : List (Piece α)) :
    List.Forall₂ (Changed replace) pieces (changeAll replace pieces) := by
  have hchoose : ∀ (n : Nat) (quote : α) (value value' : List α),
      (fun _ _ value => replace value : Nat → α → List α → Option (List α)) n quote value =
        some value' → replace value = some value' := fun _ _ _ _ h => h
  exact changed_changeAt hchoose 0 pieces

theorem changed_chars {text : List α} {changed : List (Piece α)}
    (h : List.Forall₂ (Changed replace) (text.map .char) changed) : changed = text.map .char := by
  induction text generalizing changed with
  | nil =>
      cases h
      rfl
  | cons c text ih =>
      cases h with
      | cons hfirst hrest =>
          cases hfirst
          rw [ih hrest, List.map_cons]

theorem mem_pieces_of_place {n o : Nat} {quote : α} {value : List α} {pieces : List (Piece α)}
    (h : (o, quote, value) ∈ places n pieces) : .quoted quote value ∈ pieces := by
  fun_induction places n pieces with
  | case1 => exact nomatch h
  | case2 n c pieces ih => exact List.mem_cons_of_mem _ (ih h)
  | case3 n quote' value' pieces ih =>
      rcases List.mem_cons.mp h with heq | hrest
      · cases heq
        exact List.mem_cons_self
      · exact List.mem_cons_of_mem _ (ih hrest)

theorem mem_changeAt {choose : Nat → α → List α → Option (List α)} {n : Nat}
    {pieces : List (Piece α)} {quote : α} {value' : List α}
    (h : .quoted quote value' ∈ changeAt choose n pieces) :
    .quoted quote value' ∈ pieces ∨
      ∃ o value, (o, quote, value) ∈ places n pieces ∧ choose o quote value = some value' := by
  induction pieces generalizing n with
  | nil => exact absurd h List.not_mem_nil
  | cons piece pieces ih =>
      cases piece with
      | char c =>
          rcases List.mem_cons.mp h with heq | hrest
          · cases heq
          · exact (ih hrest).imp (List.mem_cons_of_mem _) id
      | quoted quote' value =>
          rcases List.mem_cons.mp h with heq | hrest
          · cases hchosen : choose n quote' value with
            | none =>
                rw [hchosen] at heq
                cases heq
                exact Or.inl List.mem_cons_self
            | some chosen =>
                rw [hchosen] at heq
                cases heq
                exact Or.inr ⟨n, value, List.mem_cons_self, hchosen⟩
          · refine (ih hrest).imp (List.mem_cons_of_mem _) ?_
            rintro ⟨o, value', hplace, hchosen⟩
            exact ⟨o, value', List.mem_cons_of_mem _ hplace, hchosen⟩

theorem exists_place {quote : α} {value : List α} {pieces : List (Piece α)}
    (h : .quoted quote value ∈ pieces) (n : Nat) : ∃ o, (o, quote, value) ∈ places n pieces := by
  fun_induction places n pieces with
  | case1 => exact nomatch h
  | case2 n c pieces ih =>
      rcases List.mem_cons.mp h with heq | hrest
      · cases heq
      · exact ih hrest
  | case3 n quote' value' pieces ih =>
      rcases List.mem_cons.mp h with heq | hrest
      · cases heq
        exact ⟨n, List.mem_cons_self⟩
      · obtain ⟨o, ho⟩ := ih hrest
        exact ⟨o, List.mem_cons_of_mem _ ho⟩

end Changes

/-! ## Reading a text -/

/-- A reader goes from state to state, and knows which symbols open a value. -/
structure Reader (σ α : Type) where
  next : σ → α → σ
  opens : σ → α → Bool

namespace Reader

variable [DecidableEq α] (r : Reader σ α)

theorem splitFirst_length {quote : α} {rest value after : List α}
    (h : splitFirst quote rest = some (value, after)) : after.length < rest.length := by
  rw [(splitFirst_eq_some h).1, List.length_append, List.length_cons]
  omega

/-- The pieces of a text; a value that is not closed is none. -/
def pieces (s : σ) : List α → List (Piece α)
  | [] => []
  | c :: rest =>
      if r.opens s c then
        match _h : splitFirst c rest with
        | some (value, after) => .quoted c value :: pieces (r.next (r.next s c) c) after
        | none => (c :: rest).map .char
      else .char c :: pieces (r.next s c) rest
termination_by text => text.length
decreasing_by
  · exact Nat.lt_succ_of_lt (splitFirst_length ‹_›)
  · exact Nat.lt_succ_self _

theorem pieces_char {s : σ} {c : α} (h : r.opens s c = false) (rest : List α) :
    r.pieces s (c :: rest) = .char c :: r.pieces (r.next s c) rest := by
  rw [pieces, h]
  rfl

theorem pieces_quoted {s : σ} {c : α} (h : r.opens s c = true) {value : List α} (hvalue : c ∉ value)
    (after : List α) :
    r.pieces s (c :: (value ++ c :: after)) =
      .quoted c value :: r.pieces (r.next (r.next s c) c) after := by
  have hsplit := splitFirst_append hvalue after
  rw [pieces, if_pos h]
  split
  · rename_i hfound
    rw [hsplit] at hfound
    cases hfound
    rfl
  · rename_i hnone
    rw [hsplit] at hnone
    cases hnone

theorem pieces_unclosed {s : σ} {c : α} (h : r.opens s c = true) {rest : List α}
    (hrest : c ∉ rest) :
    r.pieces s (c :: rest) = (c :: rest).map .char := by
  have hsplit := splitFirst_eq_none hrest
  rw [pieces, if_pos h]
  split
  · rename_i hfound
    rw [hsplit] at hfound
    cases hfound
  · rfl

theorem render_pieces (s : σ) (text : List α) : render (r.pieces s text) = text := by
  fun_induction r.pieces s text with
  | case1 => rfl
  | case2 s c rest hopens value after hsplit ih =>
      rw [render_cons, ih, Piece.render, (splitFirst_eq_some hsplit).1, List.cons_append,
        List.append_assoc, List.singleton_append]
  | case3 s c rest hopens hsplit => exact render_map_char (c :: rest)
  | case4 s c rest hopens ih => rw [render_cons, ih, Piece.render, List.singleton_append]

theorem wellQuoted_pieces {isQuote : α → Prop} (hopens : ∀ s c, r.opens s c = true → isQuote c)
    (s : σ) (text : List α) : WellQuoted isQuote (r.pieces s text) := by
  fun_induction r.pieces s text with
  | case1 => exact fun _ _ hmem => absurd hmem List.not_mem_nil
  | case2 s c rest hopen value after hsplit ih =>
      intro quote value' hmem
      rcases List.mem_cons.mp hmem with heq | hrest
      · cases heq
        exact ⟨hopens s c hopen, (splitFirst_eq_some hsplit).2⟩
      · exact ih quote value' hrest
  | case3 s c rest hopen hsplit =>
      intro quote value hmem
      obtain ⟨_, -, hchar⟩ := List.mem_map.mp hmem
      cases hchar
  | case4 s c rest hopen ih =>
      intro quote value hmem
      rcases List.mem_cons.mp hmem with heq | hrest
      · cases heq
      · exact ih quote value hrest

/-- No symbol of a text opens a value. -/
def quiet (s : σ) : List α → Bool
  | [] => true
  | c :: rest => !r.opens s c && quiet (r.next s c) rest

theorem pieces_append_of_quiet {s : σ} {front : List α} (h : r.quiet s front = true)
    (rest : List α) :
    r.pieces s (front ++ rest) = front.map .char ++ r.pieces (front.foldl r.next s) rest := by
  induction front generalizing s with
  | nil => rfl
  | cons c front ih =>
      obtain ⟨hopens, hfront⟩ := Bool.and_eq_true_iff.mp h
      have hopens : r.opens s c = false := by simpa using hopens
      rw [List.cons_append, r.pieces_char hopens, ih hfront, List.map_cons, List.cons_append,
        List.foldl_cons]

/-- No value is in the first symbols. -/
def Reads (s : σ) (text : List α) (n : Nat) (s' : σ) : Prop :=
  r.pieces s text = (text.take n).map .char ++ r.pieces s' (text.drop n)

variable {r} in
theorem Reads.add {s s' s'' : σ} {text : List α} {m n : Nat} (h : r.Reads s text m s')
    (h' : r.Reads s' (text.drop m) n s'') : r.Reads s text (m + n) s'' := by
  unfold Reads at *
  rw [h, h', List.take_add, List.map_append, List.append_assoc, List.drop_drop]

variable {r} in
theorem Reads.cons {s s' : σ} {c : α} {text : List α} {n : Nat} (hopens : r.opens s c = false)
    (h : r.Reads (r.next s c) text n s') : r.Reads s (c :: text) (n + 1) s' := by
  unfold Reads at *
  rw [r.pieces_char hopens, h]
  rfl

theorem reads_zero (s : σ) (text : List α) : r.Reads s text 0 s := rfl

theorem pieces_of_quiet {s : σ} {text : List α} (h : r.quiet s text = true) :
    r.pieces s text = text.map .char := by
  have hpieces := r.pieces_append_of_quiet h []
  rw [List.append_nil, pieces, List.append_nil] at hpieces
  exact hpieces

/-- What was changed is read as it was changed. -/
theorem pieces_changed {replace : List α → Option (List α)} {isQuote : α → Prop} {s : σ}
    {text : List α} {changed : List (Piece α)}
    (h : List.Forall₂ (Changed replace) (r.pieces s text) changed)
    (hquoted : WellQuoted isQuote changed) : r.pieces s (render changed) = changed := by
  fun_induction r.pieces s text generalizing changed with
  | case1 =>
      cases h
      rw [render_nil, pieces]
  | case2 s c rest hopen value after hsplit ih =>
      cases h with
      | @cons _ piece _ changed hfirst hrest =>
          have hrestQuoted : WellQuoted isQuote changed := fun quote value hmem =>
            hquoted quote value (List.mem_cons_of_mem piece hmem)
          obtain ⟨value', rfl⟩ : ∃ value', piece = .quoted c value' := by
            cases hfirst with
            | kept => exact ⟨value, rfl⟩
            | replaced _ _ => exact ⟨_, rfl⟩
          have hvalue := (hquoted c value' List.mem_cons_self).2
          rw [render_cons, Piece.render, List.cons_append, List.append_assoc, List.singleton_append,
            r.pieces_quoted hopen hvalue, ih hrest hrestQuoted]
  | case3 s c rest hopen hsplit =>
      rw [changed_chars h, render_map_char, r.pieces_unclosed hopen (notMem_of_splitFirst hsplit)]
  | case4 s c rest hopen ih =>
      cases h with
      | @cons _ piece _ changed hfirst hrest =>
          have hrestQuoted : WellQuoted isQuote changed := fun quote value hmem =>
            hquoted quote value (List.mem_cons_of_mem piece hmem)
          cases hfirst
          rw [render_cons, Piece.render, List.singleton_append,
            r.pieces_char (Bool.eq_false_iff.mpr hopen), ih hrest hrestQuoted]

end Reader

/-! ## What was replaced where -/

/-- A value that was replaced, with the place and the quote of it. -/
structure Edit (α : Type) where
  offset : Nat
  quote : α
  value : List α
  value' : List α

namespace Edit

def place (e : Edit α) : Nat × α × List α := (e.offset, e.quote, e.value)

end Edit

section Edits

variable (replace : List α → Option (List α)) (isQuote : α → Prop)

/-- The edits lead from one text to the other. -/
def Rewrites : Nat → List α → List (Edit α) → List α → Prop
  | _, text, [], text' => text' = text
  | n, text, e :: es, text' => ∃ gap rest rest',
      text = gap ++ e.quote :: (e.value ++ e.quote :: rest) ∧
      text' = gap ++ e.quote :: (e.value' ++ e.quote :: rest') ∧
      e.offset = n + gap.length ∧ isQuote e.quote ∧ e.quote ∉ e.value ∧
      replace e.value = some e.value' ∧
      Rewrites (e.offset + e.value.length + 2) rest es rest'

variable {replace isQuote}

/-- What comes before the edits stays. -/
theorem Rewrites.append_left {n : Nat} {text text' : List α} {es : List (Edit α)}
    (before : List α) (h : Rewrites replace isQuote (n + before.length) text es text') :
    Rewrites replace isQuote n (before ++ text) es (before ++ text') := by
  cases es with
  | nil => exact congrArg (before ++ ·) h
  | cons e es =>
      obtain ⟨gap, rest, rest', htext, htext', hoffset, hedit⟩ := h
      refine ⟨before ++ gap, rest, rest', ?_, ?_, ?_, hedit⟩
      · rw [htext, List.append_assoc]
      · rw [htext', List.append_assoc]
      · rw [hoffset, List.length_append, Nat.add_assoc]

/-- The edits say what comes out. -/
theorem Rewrites.unique {n : Nat} {text first second : List α} {es : List (Edit α)}
    (h : Rewrites replace isQuote n text es first)
    (h' : Rewrites replace isQuote n text es second) : first = second := by
  induction es generalizing n text first second with
  | nil => exact h.trans h'.symm
  | cons e es ih =>
      obtain ⟨gap, rest, restNew, rfl, rfl, hoffset, -, -, -, hrest⟩ := h
      obtain ⟨gap', rest', restNew', htext, rfl, hoffset', -, -, -, hrest'⟩ := h'
      obtain ⟨rfl, htail⟩ := List.append_inj htext (by omega)
      obtain rfl : rest = rest' :=
        (List.cons.inj (List.append_cancel_left (List.cons.inj htail).2)).2
      rw [ih hrest hrest']

/-! ## Marked values -/

variable (replace isQuote) in
/-- New values begin with a mark without quotes, and what is replaced does not. -/
structure Marked (mark : List α) : Prop where
  plain : ∀ c ∈ mark, ¬isQuote c
  new : ∀ value value', replace value = some value' → mark <+: value'
  old : ∀ value value', replace value = some value' → ¬mark <+: value

variable {mark : List α}

/-- A mark before a quote is a mark of what stands before the quote. -/
theorem prefix_of_prefix_append {quote : α} {xs ys : List α} (hquote : quote ∉ mark)
    (h : mark <+: xs ++ quote :: ys) : mark <+: xs := by
  rcases List.prefix_or_prefix_of_prefix h (List.prefix_append xs (quote :: ys)) with hmark | hxs
  · exact hmark
  · -- the mark is at least as long, so the quote would be in it
    obtain ⟨more, rfl⟩ := hxs
    cases more with
    | nil => simp
    | cons c more =>
        have hcons := (List.prefix_append_right_inj xs).mp h
        rw [List.cons_prefix_cons] at hcons
        exact absurd (List.mem_append_right xs (hcons.1 ▸ List.mem_cons_self)) hquote

theorem Marked.ne (hmark : Marked replace isQuote mark) {value value' : List α}
    (h : replace value = some value') : value' ≠ value := by
  rintro rfl
  exact hmark.old value' value' h (hmark.new value' value' h)

/-- A new value is not what stood there before. -/
theorem Marked.append_ne (h : Marked replace isQuote mark) {value value' : List α} {quote : α}
    (hquote : isQuote quote) (hreplace : replace value = some value') (rest rest' : List α) :
    value' ++ quote :: rest' ≠ value ++ quote :: rest := by
  intro heq
  have hnew : mark <+: value ++ quote :: rest :=
    heq ▸ (h.new value value' hreplace).trans (List.prefix_append _ _)
  exact h.old value value' hreplace
    (prefix_of_prefix_append (fun hmem => h.plain quote hmem hquote) hnew)

/-- The first edit does not come before the first of other edits with the same outcome. -/
theorem Marked.gap_le (h : Marked replace isQuote mark) {value value' : List α} {quote other : α}
    (hquote : isQuote quote) (hother : isQuote other) (hreplace : replace value = some value')
    {gap gap' rest rest' more more' : List α}
    (htext : gap ++ quote :: (value ++ quote :: rest) = gap' ++ other :: more)
    (htext' : gap ++ quote :: (value' ++ quote :: rest') = gap' ++ other :: more') :
    gap'.length ≤ gap.length := by
  by_contra hlonger
  have hprefix : gap <+: gap' := by
    have hstart : gap <+: gap' ++ other :: more := ⟨_, htext⟩
    exact List.prefix_of_prefix_length_le hstart (List.prefix_append _ _) (by omega)
  obtain ⟨between, rfl⟩ := hprefix
  cases between with
  | nil => simp at hlonger
  | cons c between =>
      rw [List.append_assoc] at htext htext'
      have hvalue : value ++ quote :: rest = between ++ other :: more :=
        (List.cons.inj (List.append_cancel_left htext)).2
      have hvalue' : value' ++ quote :: rest' = between ++ other :: more' :=
        (List.cons.inj (List.append_cancel_left htext')).2
      have hplain : ∀ {c}, isQuote c → c ∉ mark := fun hc hmem => h.plain _ hmem hc
      have hnew : mark <+: between ++ other :: more' :=
        hvalue' ▸ (h.new value value' hreplace).trans (List.prefix_append _ _)
      have hbetween : mark <+: between := prefix_of_prefix_append (hplain hother) hnew
      have hold : mark <+: value ++ quote :: rest :=
        hvalue ▸ hbetween.trans (List.prefix_append _ _)
      exact h.old value value' hreplace (prefix_of_prefix_append (hplain hquote) hold)

/-- What was put in is not replaced again. -/
theorem Marked.replacesAny_changeAll (h : Marked replace isQuote mark) (pieces : List (Piece α)) :
    replacesAny replace (changeAll replace pieces) = false := by
  refine replacesAny_eq_false.mpr fun quote value' hmem => ?_
  obtain ⟨value, -, hvalue⟩ := mem_changeAll hmem
  by_contra hsome
  obtain ⟨again, hagain⟩ := Option.ne_none_iff_exists'.mp hsome
  cases hreplace : replace value with
  | none =>
      rw [hreplace, Option.getD_none] at hvalue
      exact hsome (hvalue ▸ hreplace)
  | some new =>
      rw [hreplace, Option.getD_some] at hvalue
      exact h.old value' again hagain (hvalue ▸ h.new value new hreplace)

/-- The same text only comes out of the same edits. -/
theorem Rewrites.injective (h : Marked replace isQuote mark) {n : Nat} {text text' : List α}
    {es es' : List (Edit α)} (hes : Rewrites replace isQuote n text es text')
    (hes' : Rewrites replace isQuote n text es' text') : es = es' := by
  classical
  induction es generalizing n text text' es' with
  | nil =>
      cases es' with
      | nil => rfl
      | cons e' es' =>
          obtain ⟨gap, rest, rest', htext, htext', -, hquote, -, hreplace, -⟩ := hes'
          have hsame : text' = text := hes
          rw [htext, htext'] at hsame
          exact absurd (List.cons.inj (List.append_cancel_left hsame)).2
            (h.append_ne hquote hreplace rest rest')
  | cons e es ih =>
      obtain ⟨gap, rest, restNew, htext, htextNew, hoffset, hquote, hvalue, hreplace, hrest⟩ := hes
      cases es' with
      | nil =>
          have hsame : text' = text := hes'
          rw [htext, htextNew] at hsame
          exact absurd (List.cons.inj (List.append_cancel_left hsame)).2
            (h.append_ne hquote hreplace rest restNew)
      | cons e' es' =>
          obtain ⟨gap', rest', restNew', htext', htextNew', hoffset', hquote', hvalue', hreplace',
            hrest'⟩ := hes'
          subst htext htextNew
          have hle := h.gap_le hquote hquote' hreplace htext' htextNew'
          have hge := h.gap_le hquote' hquote hreplace' htext'.symm htextNew'.symm
          obtain ⟨rfl, hfrom⟩ := List.append_inj htext' (by omega)
          obtain ⟨-, hfromNew⟩ := List.append_inj htextNew' rfl
          obtain ⟨offset, quote, value, new⟩ := e
          obtain ⟨offset', quote', value', new'⟩ := e'
          dsimp only at *
          obtain ⟨rfl, hvalues⟩ := List.cons.inj hfrom
          have hsplit := splitFirst_append hvalue rest
          rw [hvalues, splitFirst_append hvalue' rest'] at hsplit
          cases hsplit
          obtain rfl : new' = new := Option.some.inj (hreplace'.symm.trans hreplace)
          have hnew := (List.cons.inj hfromNew).2
          obtain rfl : restNew = restNew' := (List.cons.inj (List.append_cancel_left hnew)).2
          obtain rfl : offset = offset' := hoffset.trans hoffset'.symm
          rw [ih hrest hrest']

end Edits

section Between

variable [DecidableEq α] {replace : List α → Option (List α)} {isQuote : α → Prop}

def editOf (n : Nat) : Piece α → Piece α → Option (Edit α)
  | .quoted quote value, .quoted _ value' =>
      if value' = value then none else some ⟨n, quote, value, value'⟩
  | _, _ => none

def edits : Nat → List (Piece α) → List (Piece α) → List (Edit α)
  | n, piece :: pieces, piece' :: pieces' =>
      (editOf n piece piece').toList ++ edits (n + piece.render.length) pieces pieces'
  | _, _, _ => []

theorem editOf_self (n : Nat) (piece : Piece α) : editOf n piece piece = none := by
  cases piece with
  | char c => rfl
  | quoted quote value => exact if_pos rfl

theorem rewrites_edits {pieces pieces' : List (Piece α)}
    (h : List.Forall₂ (Changed replace) pieces pieces') (hquoted : WellQuoted isQuote pieces)
    (n : Nat) :
    Rewrites replace isQuote n (render pieces) (edits n pieces pieces') (render pieces') := by
  induction h generalizing n with
  | nil => exact rfl
  | @cons piece piece' pieces pieces' hfirst hrest ih =>
      have hrestQuoted : WellQuoted isQuote pieces := fun quote value hmem =>
        hquoted quote value (List.mem_cons_of_mem piece hmem)
      have htail := ih hrestQuoted (n + piece.render.length)
      have hkept : piece' = piece → Rewrites replace isQuote n (render (piece :: pieces))
          (edits n (piece :: pieces) (piece' :: pieces')) (render (piece' :: pieces')) := by
        rintro rfl
        rw [edits, editOf_self, render_cons, render_cons]
        exact htail.append_left _
      cases hfirst with
      | kept => exact hkept rfl
      | @replaced value value' quote hreplace =>
          by_cases hsame : value' = value
          · exact hkept (by rw [hsame])
          · obtain ⟨hquote, hvalue⟩ := hquoted quote value List.mem_cons_self
            have hedit : editOf n (.quoted quote value) (.quoted quote value') =
                some ⟨n, quote, value, value'⟩ := if_neg hsame
            rw [edits, hedit]
            refine ⟨[], render pieces, render pieces', ?_, ?_, rfl, hquote, hvalue, hreplace, ?_⟩
            · simp [Piece.render]
            · simp [Piece.render]
            · have hlength :
                n + (Piece.quoted quote value).render.length = n + value.length + 2 := by
                simp [Piece.render]
                omega
              rw [← hlength]
              exact htail

/-- Later pieces are edited at later places. -/
theorem pairwise_edits (n : Nat) (pieces pieces' : List (Piece α)) :
    (edits n pieces pieces').Pairwise (fun e e' => e.offset < e'.offset) ∧
      ∀ e ∈ edits n pieces pieces', n ≤ e.offset := by
  fun_induction edits n pieces pieces' with
  | case1 n piece pieces piece' pieces' ih =>
      have hfirst : ∀ e ∈ (editOf n piece piece').toList, e.offset = n := by
        intro e he
        unfold editOf at he
        split at he
        · split at he
          · simp at he
          · simp at he
            rw [he]
        · simp at he
      have hlater := render_length_pos piece
      constructor
      · rw [List.pairwise_append]
        refine ⟨?_, ih.1, fun e he e' he' => ?_⟩
        · cases editOf n piece piece' <;> simp
        · have hge := ih.2 e' he'
          have hat := hfirst e he
          omega
      · intro e he
        rcases List.mem_append.mp he with hat | hrest
        · exact (hfirst e hat).ge
        · exact (Nat.le_add_right _ _).trans (ih.2 e hrest)
  | case2 => exact ⟨List.Pairwise.nil, fun _ he => absurd he List.not_mem_nil⟩

/-- An edit is of a value of the old pieces, and its new value is one of the new pieces. -/
theorem of_mem_edits {pieces pieces' : List (Piece α)}
    (h : List.Forall₂ (Changed replace) pieces pieces') {n : Nat} {e : Edit α}
    (he : e ∈ edits n pieces pieces') :
    e.place ∈ places n pieces ∧ .quoted e.quote e.value' ∈ pieces' := by
  induction h generalizing n with
  | nil => exact absurd he List.not_mem_nil
  | @cons piece piece' pieces pieces' hfirst hrest ih =>
      have hlater : ∀ {m}, e ∈ edits m pieces pieces' → n + piece.render.length = m →
          e.place ∈ places n (piece :: pieces) ∧ .quoted e.quote e.value' ∈ piece' :: pieces' := by
        rintro m he rfl
        obtain ⟨hplace, hmem⟩ := ih he
        refine ⟨?_, List.mem_cons_of_mem _ hmem⟩
        cases piece with
        | char c => exact hplace
        | quoted quote value =>
            rw [length_render_quoted] at hplace
            exact List.mem_cons_of_mem _ hplace
      rcases List.mem_append.mp he with hat | hlate
      · cases hfirst with
        | kept =>
            rw [editOf_self] at hat
            exact absurd hat List.not_mem_nil
        | @replaced value value' quote hreplace =>
            unfold editOf at hat
            dsimp only at hat
            split at hat
            · exact absurd hat List.not_mem_nil
            · rw [List.mem_singleton.mp hat]
              exact ⟨List.mem_cons_self, List.mem_cons_self⟩
      · exact hlater hlate rfl

/-- The edits are of the values that were chosen. -/
theorem mem_edits_changeAt {choose : Nat → α → List α → Option (List α)} {n : Nat}
    {pieces : List (Piece α)} {e : Edit α} :
    e ∈ edits n pieces (changeAt choose n pieces) ↔
      e.place ∈ places n pieces ∧ choose e.offset e.quote e.value = some e.value' ∧
        e.value' ≠ e.value := by
  induction pieces generalizing n with
  | nil => exact iff_of_false List.not_mem_nil fun h => absurd h.1 List.not_mem_nil
  | cons piece pieces ih =>
      cases piece with
      | char c => exact ih
      | quoted quote value =>
          have hlength := length_render_quoted quote value
          rw [changeAt, edits, places, List.mem_append, hlength, ← Nat.add_assoc, ih,
            List.mem_cons, or_and_right]
          refine or_congr ?_ Iff.rfl
          obtain ⟨offset, quote', old, new⟩ := e
          unfold editOf Edit.place
          dsimp only
          constructor
          · intro he
            split at he
            · exact absurd he List.not_mem_nil
            · rename_i hother
              cases List.mem_singleton.mp he
              cases hchosen : choose n quote value with
              | none =>
                  rw [hchosen] at hother
                  exact absurd rfl hother
              | some chosen =>
                  rw [hchosen] at hother
                  exact ⟨rfl, rfl, hother⟩
          · rintro ⟨hplace, hchosen, hother⟩
            cases hplace
            rw [hchosen, Option.getD_some, if_neg hother]
            exact List.mem_singleton.mpr rfl

/-! ## Two ways to read a text -/

section TwoReadings

variable {mark : List α} {r : Reader σ α} {s : σ} {scanned : List (Piece α)}

/-- If the other reading has all values that are replaced, the new text is read as it should be. -/
theorem forall₂_changed_of_places
    (hopens : ∀ s c, r.opens s c = true → isQuote c) (hscanned : WellQuoted isQuote scanned)
    (hplaces : ∀ o quote value, (o, quote, value) ∈ places 0 scanned → replace value ≠ none →
      (o, quote, value) ∈ places 0 (r.pieces s (render scanned)))
    (hquotes : ∀ quote value value', .quoted quote value ∈ scanned →
      replace value = some value' → quote ∉ value') :
    List.Forall₂ (Changed replace) (r.pieces s (render scanned))
      (r.pieces s (render (changeAll replace scanned))) := by
  let choose : Nat → α → List α → Option (List α) := fun o quote value =>
    if (o, quote, value) ∈ places 0 scanned then replace value else none
  have hchoose : ∀ {o quote value value'}, choose o quote value = some value' ↔
      (o, quote, value) ∈ places 0 scanned ∧ replace value = some value' := by
    intro o quote value value'
    by_cases hplace : (o, quote, value) ∈ places 0 scanned <;> simp [choose, hplace]
  let old := r.pieces s (render scanned)
  have hold : WellQuoted isQuote old := r.wellQuoted_pieces hopens s (render scanned)
  have hallowed : ∀ o quote value value', choose o quote value = some value' →
      replace value = some value' := fun _ _ _ _ h => (hchoose.mp h).2
  have hchanged : List.Forall₂ (Changed replace) old (changeAt choose 0 old) :=
    changed_changeAt hallowed 0 old
  have hnew : WellQuoted isQuote (changeAt choose 0 old) := by
    intro quote value' hmem
    rcases mem_changeAt hmem with hkept | ⟨o, value, hplace, hvalue⟩
    · exact hold quote value' hkept
    · obtain ⟨hscan, hreplace⟩ := hchoose.mp hvalue
      exact ⟨(hold quote value (mem_pieces_of_place hplace)).1,
        hquotes quote value value' (mem_pieces_of_place hscan) hreplace⟩
  have hsame : edits 0 old (changeAt choose 0 old) =
      edits 0 scanned (changeAll replace scanned) := by
    let earlier : Edit α → Edit α → Prop := fun e e' => e.offset < e'.offset
    have : Std.Irrefl earlier := ⟨fun e => Nat.lt_irrefl e.offset⟩
    have : Std.Antisymm earlier := ⟨fun e e' h h' => absurd h' (Nat.lt_asymm h)⟩
    refine List.Pairwise.eq_of_mem_iff (pairwise_edits 0 old _).1 (pairwise_edits 0 scanned _).1 ?_
    intro e
    rw [changeAll, mem_edits_changeAt, mem_edits_changeAt, hchoose]
    constructor
    · rintro ⟨-, ⟨hscan, hreplace⟩, hother⟩
      exact ⟨hscan, hreplace, hother⟩
    · rintro ⟨hscan, hreplace, hother⟩
      have hsome : replace e.value ≠ none := fun hnone => nomatch hnone.symm.trans hreplace
      exact ⟨hplaces _ _ _ hscan hsome, ⟨hscan, hreplace⟩, hother⟩
  have hout : render (changeAt choose 0 old) =
      render (changeAll replace scanned) := by
    have hleft := rewrites_edits hchanged hold 0
    rw [hsame, r.render_pieces] at hleft
    exact hleft.unique
      (rewrites_edits (changed_changeAll replace scanned) hscanned 0)
  rw [← hout, r.pieces_changed hchanged hnew]
  exact hchanged

/--
A text is read in one way, and what it replaces is put in. Read in another way, the
new text is the old one with replaced values just when that way of reading also has
a value wherever one is replaced, and no new value has its quote in it.
-/
theorem forall₂_changed_iff (hmark : Marked replace isQuote mark)
    (hopens : ∀ s c, r.opens s c = true → isQuote c) (hscanned : WellQuoted isQuote scanned) :
    List.Forall₂ (Changed replace) (r.pieces s (render scanned))
        (r.pieces s (render (changeAll replace scanned))) ↔
      (∀ o quote value, (o, quote, value) ∈ places 0 scanned → replace value ≠ none →
        (o, quote, value) ∈ places 0 (r.pieces s (render scanned))) ∧
      ∀ quote value value', .quoted quote value ∈ scanned → replace value = some value' →
        quote ∉ value' := by
  refine ⟨fun hchanged => ?_, fun h => forall₂_changed_of_places hopens hscanned h.1 h.2⟩
  have hread := rewrites_edits hchanged (r.wellQuoted_pieces hopens s _) 0
  rw [r.render_pieces, r.render_pieces] at hread
  have hscan := rewrites_edits (changed_changeAll replace scanned) hscanned 0
  have hsame := hscan.injective hmark hread
  have hedit : ∀ {o quote value value'}, (o, quote, value) ∈ places 0 scanned →
      replace value = some value' → (⟨o, quote, value, value'⟩ : Edit α) ∈ edits 0
        (r.pieces s (render scanned))
        (r.pieces s (render (changeAll replace scanned))) := by
    intro o quote value value' hplace hreplace
    rw [← hsame, changeAll, mem_edits_changeAt]
    exact ⟨hplace, hreplace, hmark.ne hreplace⟩
  constructor
  · intro o quote value hplace hsome
    obtain ⟨value', hreplace⟩ := Option.ne_none_iff_exists'.mp hsome
    exact (of_mem_edits hchanged (hedit hplace hreplace)).1
  · intro quote value value' hmem hreplace
    obtain ⟨o, hplace⟩ := exists_place hmem 0
    have hnew := (of_mem_edits hchanged (hedit hplace hreplace)).2
    exact (r.wellQuoted_pieces hopens s _ quote value' hnew).2

end TwoReadings

end Between

end QuotedValues
