import Fulgur.Files.LossyDecoding
import Fulgur.Library.Expansion
import Fulgur.LogView.Tail

/-! # Reading a log in parts

A file that only grows is read part by part, each read from where the last one
ended. Every part is decoded on its own: the texts put together are the decoded
file just when no part ends within a character.
-/

namespace Fulgur

open Expansion

/-- One read: the length that was asked for, and how much of the content was there to be read. -/
structure LogRead where
  len : Nat
  seen : Nat
deriving DecidableEq

def readAll (bytes : List UInt8) : List LogRead → Nat → String × Nat
  | [], offset => ("", offset)
  | read :: reads, offset =>
      let chunk := readNewLogBytes read.len (bytes.take read.seen) offset
      let (text, last) := readAll bytes reads chunk.newOffset
      (chunk.text ++ text, last)

/-- The file is only appended to: what was there once is there afterwards, up to `size` bytes. -/
def Growing (size : Nat) : Nat → List LogRead → Prop
  | _, [] => True
  | reached, read :: reads =>
      reached ≤ read.len ∧ read.len ≤ read.seen ∧ read.seen ≤ size ∧ Growing size read.seen reads

instance instDecidableGrowing (size : Nat) :
    (reached : Nat) → (reads : List LogRead) → Decidable (Growing size reached reads)
  | _, [] => inferInstanceAs (Decidable True)
  | _, read :: reads =>
      have := instDecidableGrowing size read.seen reads
      inferInstanceAs (Decidable (_ ∧ _ ∧ _ ∧ _))

/-! ## Bytes of characters -/

/-- A number of bytes ends after a character or within one. -/
theorem cut_cases {cs : List Char} {n : Nat} (hn : n ≤ (charBytes cs).length) :
    (∃ before after, cs = before ++ after ∧ n = (charBytes before).length) ∨
      ∃ before c after taken left, cs = before ++ c :: after ∧
        String.utf8EncodeChar c = taken ++ left ∧ taken ≠ [] ∧ left ≠ [] ∧
        n = (charBytes before).length + taken.length := by
  have hlen : ((charBytes cs).take n).length = n := by
    rw [List.length_take]
    omega
  obtain ⟨before, after, rfl, hcut⟩ := exists_cut (List.take_append_drop n (charBytes cs)).symm
  generalize (charBytes (before ++ after)).take n = p at hcut hlen
  generalize (charBytes (before ++ after)).drop n = r at hcut
  cases hcut with
  | between => exact Or.inl ⟨before, after, rfl, hlen.symm⟩
  | within c rest taken left htaken hleft hc =>
      refine Or.inr ⟨before, c, rest, taken, left, rfl, hc, htaken, hleft, ?_⟩
      rw [← hlen, List.length_append]
      rfl

/-- A place within a character is no boundary. -/
theorem not_isCharBoundary {text : List Char} {c : Char} {before after : List Char}
    {taken left : List UInt8} (htext : text = before ++ c :: after)
    (hbytes : String.utf8EncodeChar c = taken ++ left) (htaken : taken ≠ []) (hleft : left ≠ []) :
    ¬ isCharBoundary ((charBytes before).length + taken.length) text = true := by
  rw [isCharBoundary_iff, length_charBytes]
  rintro ⟨start, rest, hstart, hlen⟩
  have htaken := List.length_pos_iff.mpr htaken
  have hleft := List.length_pos_iff.mpr hleft
  rcases List.append_eq_append_iff.mp (hstart.symm.trans htext) with
    ⟨more, hmore, -⟩ | ⟨more, hmore, hrest⟩
  · rw [hmore, byteLen_append] at hlen
    omega
  · cases more with
    | nil =>
        rw [hmore, List.append_nil] at hlen
        omega
    | cons d more =>
        obtain ⟨rfl, -⟩ := List.cons.inj hrest
        have hsize := congrArg List.length hbytes
        rw [String.length_utf8EncodeChar, List.length_append] at hsize
        rw [hmore, byteLen_append, byteLen_cons] at hlen
        omega

theorem charBytes_split {c : Char} (before after : List Char) {taken left : List UInt8}
    (hbytes : String.utf8EncodeChar c = taken ++ left) :
    charBytes (before ++ c :: after) = (charBytes before ++ taken) ++
      (left ++ charBytes after) := by
  rw [charBytes_append, charBytes_cons, hbytes, List.append_assoc, List.append_assoc]

/-! ## One read -/

variable {bytes : List UInt8} {read : LogRead} {reads : List LogRead} {offset reached : Nat}

/-- A read of a file that only grew decodes the bytes between the two offsets. -/
theorem readNewLogBytes_growing (hoffset : offset ≤ read.len) (hlen : read.len ≤ read.seen)
    (hseen : read.seen ≤ bytes.length) :
    readNewLogBytes read.len (bytes.take read.seen) offset =
      ⟨fromUtf8Lossy ((bytes.drop offset).take (read.len - offset)), read.len, false⟩ := by
  by_cases hsame : read.len = offset
  · rw [readNewLogBytes, if_pos hsame, hsame, Nat.sub_self]
    rfl
  · have hbuf : ((bytes.take read.seen).drop offset).take (read.len - offset) =
        (bytes.drop offset).take (read.len - offset) := by
      rw [List.drop_take, List.take_take, Nat.min_eq_left (by omega)]
    have hlength : ((bytes.drop offset).take (read.len - offset)).length = read.len - offset := by
      rw [List.length_take, List.length_drop]
      omega
    rw [readNewLogBytes, if_neg hsame, if_neg (by omega)]
    simp only [hbuf, hlength]
    rw [Nat.add_sub_cancel' hoffset]

theorem readAll_cons (hoffset : offset ≤ read.len) (hlen : read.len ≤ read.seen)
    (hseen : read.seen ≤ bytes.length) :
    readAll bytes (read :: reads) offset =
      (fromUtf8Lossy ((bytes.drop offset).take (read.len - offset)) ++
        (readAll bytes reads read.len).1, (readAll bytes reads read.len).2) := by
  rw [readAll, readNewLogBytes_growing hoffset hlen hseen]

theorem toList_readAll_cons (hoffset : offset ≤ read.len) (hlen : read.len ≤ read.seen)
    (hseen : read.seen ≤ bytes.length) :
    (readAll bytes (read :: reads) offset).1.toList =
      lossyChars ((bytes.drop offset).take (read.len - offset)) ++
        (readAll bytes reads read.len).1.toList := by
  rw [readAll_cons hoffset hlen hseen, String.toList_append, toList_fromUtf8Lossy]

theorem drop_read (hoffset : offset ≤ read.len) :
    bytes.drop read.len = (bytes.drop offset).drop (read.len - offset) := by
  rw [List.drop_drop, Nat.add_sub_cancel' hoffset]

/--
A read may start within a character, at `left`. It gives as many characters as
there are bytes of `left` and whole characters that it takes, and one more when
it ends within a character.
-/
theorem count_read {left : List UInt8} {cs : List Char} {n : Nat}
    (hleft : ∀ byte ∈ left, IsContinuation byte) (hn : n ≤ (left ++ charBytes cs).length) :
    ∃ left' cs', (∀ byte ∈ left', IsContinuation byte) ∧
      (left ++ charBytes cs).drop n = left' ++ charBytes cs' ∧
      left.length + cs.length ≤
        (lossyChars ((left ++ charBytes cs).take n)).length + (left'.length + cs'.length) := by
  by_cases hshort : n ≤ left.length
  · refine ⟨left.drop n, cs, fun byte hbyte => hleft byte (List.mem_of_mem_drop hbyte),
      List.drop_append_of_le_length hshort, ?_⟩
    have htake : ∀ byte ∈ left.take n, IsContinuation byte :=
      fun byte hbyte => hleft byte (List.mem_of_mem_take hbyte)
    have hcount := congrArg List.length (@lossyChars_continuations _ [] htake)
    rw [List.append_nil, List.length_append, List.length_replicate, List.length_take] at hcount
    rw [List.take_append_of_le_length hshort, hcount, List.length_drop]
    omega
  · obtain ⟨k, rfl⟩ := Nat.exists_eq_add_of_le (Nat.le_of_not_le hshort)
    rw [List.length_append] at hn
    rw [List.take_length_add_append, List.drop_length_add_append, lossyChars_continuations hleft,
      List.length_append, List.length_replicate]
    rcases cut_cases (show k ≤ (charBytes cs).length by omega) with
      ⟨before, after, rfl, rfl⟩ | ⟨before, c, after, taken, rest, rfl, hbytes, htaken, hrest, rfl⟩
    · refine ⟨[], after, by simp, ?_, ?_⟩
      · rw [charBytes_append, List.drop_left, List.nil_append]
      · rw [charBytes_append, List.take_left, lossyChars_charBytes, List.length_append]
        simp only [List.length_nil]
        omega
    · have hchars := lossyChars_charBytes_append before taken
      rw [lossyChars_cut hbytes htaken hrest] at hchars
      rw [charBytes_split before after hbytes, ← List.length_append, List.take_left, List.drop_left,
        hchars]
      refine ⟨rest, after, continuation_of_cut hbytes htaken, rfl, ?_⟩
      have := List.length_pos_iff.mpr hrest
      simp only [List.length_append, List.length_cons, List.length_nil]
      omega

/-! ## All the reads -/

/--
From within a character on, the reads give at least as many characters as there
are bytes left of it and characters after it.
-/
theorem le_length_readAll {left : List UInt8} {cs : List Char} (hreached : offset ≤ reached)
    (hgrowing : Growing bytes.length reached reads)
    (hlast : (readAll bytes reads offset).2 = bytes.length)
    (hleft : ∀ byte ∈ left, IsContinuation byte)
    (hrest : bytes.drop offset = left ++ charBytes cs) :
    left.length + cs.length ≤ (readAll bytes reads offset).1.toList.length := by
  induction reads generalizing offset reached left cs with
  | nil =>
      obtain ⟨rfl, hcs⟩ := List.append_eq_nil_iff.mp
        (hrest.symm.trans (List.drop_eq_nil_of_le (Nat.le_of_eq hlast.symm)))
      have hnone : cs = [] := (lossyChars_charBytes cs).symm.trans (congrArg lossyChars hcs)
      rw [hnone]
      exact Nat.zero_le _
  | cons read reads ih =>
      obtain ⟨hlen, hseen, hsize, hgrowing⟩ := hgrowing
      have hoffset := hreached.trans hlen
      have hshort : read.len - offset ≤ (left ++ charBytes cs).length := by
        rw [← hrest, List.length_drop]
        omega
      obtain ⟨left', cs', hleft', hdrop, hcount⟩ := count_read hleft hshort
      rw [readAll_cons hoffset hseen hsize] at hlast
      have hafter : bytes.drop read.len = left' ++ charBytes cs' := by
        rw [drop_read hoffset, hrest, hdrop]
      have hmore := ih hseen hgrowing hlast hleft' hafter
      rw [toList_readAll_cons hoffset hseen hsize, List.length_append, hrest]
      omega

/-- A read that ends within a character makes the reads give more characters than there are. -/
theorem lt_length_readAll_within {start after : List Char} {c : Char} {taken left : List UInt8}
    (hoffset : offset ≤ read.len) (hseen : read.len ≤ read.seen)
    (hgrowing : Growing bytes.length read.seen reads)
    (hlast : (readAll bytes reads read.len).2 = bytes.length)
    (hrest : bytes.drop offset = charBytes (start ++ c :: after))
    (hchar : String.utf8EncodeChar c = taken ++ left) (htaken : taken ≠ []) (hleft : left ≠ [])
    (hn : read.len - offset = (charBytes start).length + taken.length) :
    (start ++ c :: after).length <
      (lossyChars ((charBytes (start ++ c :: after)).take (read.len - offset)) ++
        (readAll bytes reads read.len).1.toList).length := by
  have hafter : bytes.drop read.len = left ++ charBytes after := by
    rw [drop_read hoffset, hrest, hn, charBytes_split start after hchar, ← List.length_append,
      List.drop_left]
  have hpart : lossyChars ((charBytes (start ++ c :: after)).take (read.len - offset)) =
      start ++ [Char.ofNat 0xFFFD] := by
    rw [hn, charBytes_split start after hchar, ← List.length_append, List.take_left,
      lossyChars_charBytes_append, lossyChars_cut hchar htaken hleft]
  have hmore := le_length_readAll hseen hgrowing hlast (continuation_of_cut hchar htaken) hafter
  have hpos := List.length_pos_iff.mpr hleft
  rw [hpart]
  simp only [List.length_append, List.length_cons, List.length_nil]
  omega

/--
From the end of a character on, the reads give the characters after it just when
each of them ends after a character.
-/
theorem readAll_eq_chars_iff {text : String} {before cs : List Char}
    (htext : text.toList = before ++ cs) (hbefore : offset = (charBytes before).length)
    (hreached : offset ≤ reached) (hgrowing : Growing (asBytes text).length reached reads)
    (hlast : (readAll (asBytes text) reads offset).2 = (asBytes text).length) :
    (readAll (asBytes text) reads offset).1.toList = cs ↔
      ∀ read ∈ reads, isCharBoundary read.len text.toList = true := by
  have hbytes : asBytes text = charBytes before ++ charBytes cs := by
    rw [asBytes_eq, htext, charBytes_append]
  induction reads generalizing offset reached before cs with
  | nil =>
      have hcs : charBytes cs = [] := by
        rw [← List.length_eq_zero_iff]
        have hall : offset = (charBytes before ++ charBytes cs).length := hbytes ▸ hlast
        rw [List.length_append] at hall
        omega
      have hnone : cs = [] := (lossyChars_charBytes cs).symm.trans (congrArg lossyChars hcs)
      rw [hnone]
      exact ⟨fun _ _ hread => absurd hread List.not_mem_nil, fun _ => rfl⟩
  | cons read reads ih =>
      obtain ⟨hlen, hseen, hsize, hgrowing⟩ := hgrowing
      have hoffset := hreached.trans hlen
      have hrest : (asBytes text).drop offset = charBytes cs := by
        rw [hbytes, hbefore, List.drop_left]
      have hshort : read.len - offset ≤ (charBytes cs).length := by
        rw [← hrest, List.length_drop]
        omega
      rw [readAll_cons hoffset hseen hsize] at hlast
      rw [toList_readAll_cons hoffset hseen hsize, hrest, List.forall_mem_cons]
      rcases cut_cases hshort with
        ⟨start, after, rfl, hn⟩ | ⟨start, c, after, taken, left, rfl, hchar, htaken, hleft, hn⟩
      · -- the read ends after a character
        have htext' : text.toList = (before ++ start) ++ after := by rw [htext, List.append_assoc]
        have hend : read.len = (charBytes (before ++ start)).length := by
          rw [charBytes_append, List.length_append]
          omega
        have hboundary : isCharBoundary read.len text.toList = true :=
          isCharBoundary_iff.mpr ⟨before ++ start, after, htext', by rw [hend, length_charBytes]⟩
        have hbytes' : asBytes text = charBytes (before ++ start) ++ charBytes after := by
          rw [asBytes_eq, htext', charBytes_append]
        have hmore := ih htext' hend hseen hgrowing hlast hbytes'
        rw [hn, charBytes_append, List.take_left, lossyChars_charBytes, List.append_cancel_left_eq]
        exact hmore.trans (and_iff_right hboundary).symm
      · -- the read ends within a character: there are more characters than the text has
        have hend : read.len = (charBytes (before ++ start)).length + taken.length := by
          rw [charBytes_append, List.length_append]
          omega
        have htext' : text.toList = (before ++ start) ++ c :: after := by
          rw [htext, List.append_assoc]
        have hwithin : ¬ isCharBoundary read.len text.toList = true :=
          hend ▸ not_isCharBoundary htext' hchar htaken hleft
        have hmore :=
          lt_length_readAll_within hoffset hseen hgrowing hlast hrest hchar htaken hleft hn
        exact iff_of_false (fun hall => absurd (congrArg List.length hall) (Nat.ne_of_gt hmore))
          fun hall => hwithin hall.1

/--
The texts of the reads of a log put together are the whole file decoded, once
its last byte is read, just when no read ended within a character.
-/
theorem readAll_whole_iff (text : String) (reads : List LogRead)
    (hgrowing : Growing (asBytes text).length 0 reads)
    (hlast : (readAll (asBytes text) reads 0).2 = (asBytes text).length) :
    (readAll (asBytes text) reads 0).1 = fromUtf8Lossy (asBytes text) ↔
      ∀ read ∈ reads, isCharBoundary read.len text.toList = true := by
  rw [fromUtf8Lossy_asBytes, ← String.toList_inj]
  have htext : text.toList = [] ++ text.toList := rfl
  exact readAll_eq_chars_iff htext rfl le_rfl hgrowing hlast

/-- The second read ends before the letters that were appended while it read. -/
theorem readAll_whole_sample :
    (readAll (asBytes "aé€b") [⟨1, 1⟩, ⟨3, 6⟩, ⟨7, 7⟩] 0).1 = fromUtf8Lossy (asBytes "aé€b") :=
  (readAll_whole_iff "aé€b" [⟨1, 1⟩, ⟨3, 6⟩, ⟨7, 7⟩] (by decide +kernel) (by decide +kernel)).mpr
    (by decide +kernel)

/-- The two bytes of a character, read one by one, become two replacement characters. -/
theorem readAll_within_character :
    ¬ ∀ (text : String) (reads : List LogRead), Growing (asBytes text).length 0 reads →
      (readAll (asBytes text) reads 0).2 = (asBytes text).length →
      (readAll (asBytes text) reads 0).1 = fromUtf8Lossy (asBytes text) := by
  intro hall
  have hparts := hall "é" [⟨1, 1⟩, ⟨2, 2⟩] (by decide +kernel) (by decide +kernel)
  exact absurd hparts (by decide +kernel)

end Fulgur
