import Mathlib.Data.List.TakeWhile
import Fulgur.Files.Encoding
import Fulgur.Search.ByteOffsets

/-! # What lossy decoding makes of characters

The bytes of a character decode to it, whatever follows. A character that is cut
off at the end becomes one replacement character, and so does each of the bytes
that would have continued a character before the beginning.
-/

namespace Fulgur

/-- A byte that continues a character. -/
def IsContinuation (byte : UInt8) : Prop := 0x80 ≤ byte ∧ byte ≤ 0xBF

/-- The bytes of a character: the first tells how many there are, the others continue it. -/
structure Encodes (c : Char) (first : UInt8) (rest : List UInt8) : Prop where
  bytes : String.utf8EncodeChar c = first :: rest
  width : utf8Width first = rest.length + 1
  continues : ∀ byte ∈ rest, IsContinuation byte
  second : ∀ byte ∈ rest.head?, utf8SecondByte first byte = true
  scalar : utf8Scalar first rest = c.toNat

/-! ## The four lengths -/

theorem utf8Width_ofNat {n : Nat} (h : n < 256) :
    utf8Width (UInt8.ofNat n) =
      if n < 128 then 1
      else if 194 ≤ n ∧ n ≤ 223 then 2
      else if 224 ≤ n ∧ n ≤ 239 then 3
      else if 240 ≤ n ∧ n ≤ 244 then 4
      else 0 := by
  unfold utf8Width
  simp only [UInt8.lt_iff_toNat_lt, UInt8.le_iff_toNat_le, UInt8.toNat_ofNat_of_lt' h]
  rfl

theorem utf8SecondByte_ofNat {m n : Nat} (hm : m < 256) (hn : n < 256) :
    utf8SecondByte (UInt8.ofNat m) (UInt8.ofNat n) = true ↔
      (if m = 224 then 160 ≤ n ∧ n ≤ 191
      else if m = 237 then 128 ≤ n ∧ n ≤ 159
      else if m = 240 then 144 ≤ n ∧ n ≤ 191
      else if m = 244 then 128 ≤ n ∧ n ≤ 143
      else 128 ≤ n ∧ n ≤ 191) := by
  unfold utf8SecondByte
  simp only [← UInt8.toNat_inj, UInt8.le_iff_toNat_le, UInt8.toNat_ofNat_of_lt' hm,
    UInt8.toNat_ofNat_of_lt' hn]
  have h1 : (0xE0 : UInt8).toNat = 224 := rfl
  have h2 : (0xED : UInt8).toNat = 237 := rfl
  have h3 : (0xF0 : UInt8).toNat = 240 := rfl
  have h4 : (0xF4 : UInt8).toNat = 244 := rfl
  simp only [h1, h2, h3, h4]
  split
  · simp
  · split
    · simp
    · split
      · simp
      · split <;> simp

theorem isContinuation_ofNat {n : Nat} (h : n < 256) :
    IsContinuation (UInt8.ofNat n) ↔ 128 ≤ n ∧ n ≤ 191 := by
  simp only [IsContinuation, UInt8.le_iff_toNat_le, UInt8.toNat_ofNat_of_lt' h]
  rfl

theorem encodes_one {c : Char} (h1 : c.toNat ≤ 0x7f) : Encodes c (UInt8.ofNat c.toNat) [] where
  bytes := if_pos h1
  width := by
    rw [utf8Width_ofNat (by omega), if_pos (by omega)]
    rfl
  continues := by simp
  second := by simp
  scalar := by
    simp [utf8Scalar, utf8Width_ofNat (show c.toNat < 256 by omega), show c.toNat < 128 by omega]
    omega

theorem encodes_two {c : Char} (h1 : ¬ c.toNat ≤ 0x7f) (h2 : c.toNat ≤ 0x7ff) :
    Encodes c (UInt8.ofNat (c.toNat / 64 % 32 + 192)) [UInt8.ofNat (c.toNat % 64 + 128)] := by
  have hfirst : c.toNat / 64 % 32 + 192 < 256 := by omega
  have hsecond : c.toNat % 64 + 128 < 256 := by omega
  have hwidth : utf8Width (UInt8.ofNat (c.toNat / 64 % 32 + 192)) = 2 := by
    rw [utf8Width_ofNat hfirst, if_neg (by omega), if_pos (by omega)]
  refine ⟨?_, hwidth, ?_, ?_, ?_⟩
  · exact (if_neg h1).trans (if_pos h2)
  · simp only [List.mem_singleton, forall_eq, isContinuation_ofNat hsecond]
    omega
  · simp only [List.head?_cons, Option.mem_def, Option.some.injEq, forall_eq',
      utf8SecondByte_ofNat hfirst hsecond]
    split_ifs <;> omega
  · simp only [utf8Scalar, hwidth, List.foldl_cons, List.foldl_nil, UInt8.toNat_ofNat_of_lt' hfirst,
      UInt8.toNat_ofNat_of_lt' hsecond]
    change (c.toNat / 64 % 32 + 192) % 32 * 64 + (c.toNat % 64 + 128) % 64 = c.toNat
    omega

theorem encodes_three {c : Char} (h1 : ¬ c.toNat ≤ 0x7f) (h2 : ¬ c.toNat ≤ 0x7ff)
    (h3 : c.toNat ≤ 0xffff) :
    Encodes c (UInt8.ofNat (c.toNat / 4096 % 16 + 224))
      [UInt8.ofNat (c.toNat / 64 % 64 + 128), UInt8.ofNat (c.toNat % 64 + 128)] := by
  have hvalid : c.toNat < 0xD800 ∨ 0xDFFF < c.toNat ∧ c.toNat < 0x110000 := c.valid
  have hfirst : c.toNat / 4096 % 16 + 224 < 256 := by omega
  have hsecond : c.toNat / 64 % 64 + 128 < 256 := by omega
  have hthird : c.toNat % 64 + 128 < 256 := by omega
  have hwidth : utf8Width (UInt8.ofNat (c.toNat / 4096 % 16 + 224)) = 3 := by
    rw [utf8Width_ofNat hfirst, if_neg (by omega), if_neg (by omega), if_pos (by omega)]
  refine ⟨?_, hwidth, ?_, ?_, ?_⟩
  · exact (if_neg h1).trans ((if_neg h2).trans (if_pos h3))
  · simp only [List.mem_cons, List.not_mem_nil, or_false, forall_eq_or_imp, forall_eq,
      isContinuation_ofNat hsecond, isContinuation_ofNat hthird]
    omega
  · simp only [List.head?_cons, Option.mem_def, Option.some.injEq, forall_eq',
      utf8SecondByte_ofNat hfirst hsecond]
    split_ifs <;> omega
  · simp only [utf8Scalar, hwidth, List.foldl_cons, List.foldl_nil, UInt8.toNat_ofNat_of_lt' hfirst,
      UInt8.toNat_ofNat_of_lt' hsecond, UInt8.toNat_ofNat_of_lt' hthird]
    change ((c.toNat / 4096 % 16 + 224) % 16 * 64 + (c.toNat / 64 % 64 + 128) % 64) * 64 +
      (c.toNat % 64 + 128) % 64 = c.toNat
    omega

theorem encodes_four {c : Char} (h3 : ¬ c.toNat ≤ 0xffff) :
    Encodes c (UInt8.ofNat (c.toNat / 262144 % 8 + 240))
      [UInt8.ofNat (c.toNat / 4096 % 64 + 128), UInt8.ofNat (c.toNat / 64 % 64 + 128),
        UInt8.ofNat (c.toNat % 64 + 128)] := by
  have hvalid : c.toNat < 0xD800 ∨ 0xDFFF < c.toNat ∧ c.toNat < 0x110000 := c.valid
  have hfirst : c.toNat / 262144 % 8 + 240 < 256 := by omega
  have hsecond : c.toNat / 4096 % 64 + 128 < 256 := by omega
  have hthird : c.toNat / 64 % 64 + 128 < 256 := by omega
  have hfourth : c.toNat % 64 + 128 < 256 := by omega
  have hwidth : utf8Width (UInt8.ofNat (c.toNat / 262144 % 8 + 240)) = 4 := by
    rw [utf8Width_ofNat hfirst, if_neg (by omega), if_neg (by omega), if_neg (by omega),
      if_pos (by omega)]
  refine ⟨?_, hwidth, ?_, ?_, ?_⟩
  · have h1 : ¬ c.toNat ≤ 0x7f := by omega
    have h2 : ¬ c.toNat ≤ 0x7ff := by omega
    exact (if_neg h1).trans ((if_neg h2).trans (if_neg h3))
  · simp only [List.mem_cons, List.not_mem_nil, or_false, forall_eq_or_imp, forall_eq,
      isContinuation_ofNat hsecond, isContinuation_ofNat hthird, isContinuation_ofNat hfourth]
    omega
  · simp only [List.head?_cons, Option.mem_def, Option.some.injEq, forall_eq',
      utf8SecondByte_ofNat hfirst hsecond]
    split_ifs <;> omega
  · simp only [utf8Scalar, hwidth, List.foldl_cons, List.foldl_nil, UInt8.toNat_ofNat_of_lt' hfirst,
      UInt8.toNat_ofNat_of_lt' hsecond, UInt8.toNat_ofNat_of_lt' hthird,
      UInt8.toNat_ofNat_of_lt' hfourth]
    change (((c.toNat / 262144 % 8 + 240) % 8 * 64 + (c.toNat / 4096 % 64 + 128) % 64) * 64 +
      (c.toNat / 64 % 64 + 128) % 64) * 64 + (c.toNat % 64 + 128) % 64 = c.toNat
    omega

theorem encodes (c : Char) : ∃ first rest, Encodes c first rest := by
  by_cases h1 : c.toNat ≤ 0x7f
  · exact ⟨_, _, encodes_one h1⟩
  by_cases h2 : c.toNat ≤ 0x7ff
  · exact ⟨_, _, encodes_two h1 h2⟩
  by_cases h3 : c.toNat ≤ 0xffff
  · exact ⟨_, _, encodes_three h1 h2 h3⟩
  · exact ⟨_, _, encodes_four h3⟩

/-! ## One character after the other -/

/-- The characters that bytes decode to. -/
def lossyChars (bytes : List UInt8) : List Char := fromUtf8LossyAux bytes.length bytes

theorem toList_fromUtf8Lossy (bytes : List UInt8) :
    (fromUtf8Lossy bytes).toList = lossyChars bytes := by
  rw [fromUtf8Lossy, String.toList_ofList, lossyChars]

/-- Enough fuel is as good as more. -/
theorem fromUtf8LossyAux_fuel {fuel fuel' : Nat} {bytes : List UInt8} (h : bytes.length ≤ fuel)
    (h' : bytes.length ≤ fuel') : fromUtf8LossyAux fuel bytes = fromUtf8LossyAux fuel' bytes := by
  induction fuel generalizing fuel' bytes with
  | zero =>
      rw [List.length_eq_zero_iff.mp (Nat.le_zero.mp h)]
      cases fuel' <;> rfl
  | succ fuel ih =>
      cases bytes with
      | nil => cases fuel' <;> rfl
      | cons first rest =>
          rw [List.length_cons] at h h'
          obtain ⟨fuel', rfl⟩ : ∃ smaller, fuel' = smaller + 1 := ⟨fuel' - 1, by omega⟩
          have hdrop := (List.drop_suffix (utf8Continuation first rest).length rest).length_le
          exact congrArg (_ :: ·) (ih (by omega) (by omega))

theorem lossyChars_cons (first : UInt8) (rest : List UInt8) :
    lossyChars (first :: rest) =
      (if (utf8Continuation first rest).length + 1 = utf8Width first then
        Char.ofNat (utf8Scalar first (utf8Continuation first rest))
      else Char.ofNat 0xFFFD) ::
        lossyChars (rest.drop (utf8Continuation first rest).length) := by
  have hdrop := (List.drop_suffix (utf8Continuation first rest).length rest).length_le
  exact congrArg (_ :: ·) (fromUtf8LossyAux_fuel hdrop le_rfl)

theorem utf8Width_of_isContinuation {byte : UInt8} (h : IsContinuation byte) :
    utf8Width byte = 0 := by
  obtain ⟨hlow, hhigh⟩ := h
  rw [UInt8.le_iff_toNat_le] at hlow hhigh
  have hbyte := byte.toNat_lt
  rw [← UInt8.ofNat_toNat (x := byte), utf8Width_ofNat hbyte]
  change 128 ≤ byte.toNat at hlow
  change byte.toNat ≤ 191 at hhigh
  rw [if_neg (by omega), if_neg (by omega), if_neg (by omega), if_neg (by omega)]

theorem lossyChars_continuation {byte : UInt8} (h : IsContinuation byte) (rest : List UInt8) :
    lossyChars (byte :: rest) = Char.ofNat 0xFFFD :: lossyChars rest := by
  have hwidth := utf8Width_of_isContinuation h
  have hnone : utf8Continuation byte rest = [] := by
    cases rest with
    | nil => rfl
    | cons second rest => simp [utf8Continuation, hwidth]
  rw [lossyChars_cons, hnone, hwidth]
  rfl

variable {c : Char} {first : UInt8} {rest : List UInt8}

/-- The bytes that are taken along with a first byte, when only some or all of them are there. -/
theorem Encodes.continuation (h : Encodes c first rest) {taken more : List UInt8}
    (htaken : taken <+: rest) (hmore : taken = rest ∨ more = []) :
    utf8Continuation first (taken ++ more) = taken := by
  have hwidth := h.width
  cases taken with
  | nil =>
      rcases hmore with hrest | rfl
      · rw [← hrest] at hwidth
        cases more with
        | nil => rfl
        | cons second more => simp [utf8Continuation, hwidth]
      · rfl
  | cons second taken =>
      obtain ⟨left, hleft⟩ := htaken
      have hsecond : utf8SecondByte first second = true :=
        h.second second (by rw [← hleft]; rfl)
      have hlong : utf8Width first = taken.length + left.length + 2 := by
        rw [hwidth, ← hleft]
        simp
      have htake : (taken ++ more).take (utf8Width first - 2) = taken := by
        rcases hmore with hrest | rfl
        · have hnone : left = [] := by simpa [← hleft] using hrest
          rw [hlong, hnone]
          simp
        · rw [List.append_nil, List.take_of_length_le]
          omega
      have hall : taken.takeWhile (fun b => 0x80 ≤ b && b ≤ 0xBF) = taken := by
        refine List.takeWhile_eq_self_iff.mpr fun b hb => ?_
        have hcontinues := h.continues b (by rw [← hleft]; simp [hb])
        simp [hcontinues.1, hcontinues.2]
      rw [List.cons_append, utf8Continuation, if_pos ⟨by omega, hsecond⟩, htake, hall]

/-- The bytes of a character decode to it, whatever follows. -/
theorem lossyChars_encodeChar (c : Char) (more : List UInt8) :
    lossyChars (String.utf8EncodeChar c ++ more) = c :: lossyChars more := by
  obtain ⟨first, rest, h⟩ := encodes c
  rw [h.bytes, List.cons_append, lossyChars_cons, h.continuation List.prefix_rfl (Or.inl rfl),
    if_pos h.width.symm, h.scalar, List.drop_left, Char.ofNat_toNat]

def charBytes (cs : List Char) : List UInt8 := cs.flatMap String.utf8EncodeChar

theorem charBytes_append (cs ds : List Char) :
    charBytes (cs ++ ds) = charBytes cs ++ charBytes ds :=
  List.flatMap_append

theorem charBytes_cons (c : Char) (cs : List Char) :
    charBytes (c :: cs) = String.utf8EncodeChar c ++ charBytes cs := List.flatMap_cons

theorem length_charBytes (cs : List Char) : (charBytes cs).length = byteLen cs := by
  induction cs with
  | nil => rfl
  | cons c cs ih =>
      rw [charBytes_cons, List.length_append, String.length_utf8EncodeChar, byteLen_cons, ih]

theorem lossyChars_charBytes_append (cs : List Char) (more : List UInt8) :
    lossyChars (charBytes cs ++ more) = cs ++ lossyChars more := by
  induction cs with
  | nil => rfl
  | cons c cs ih =>
      rw [charBytes_cons, List.append_assoc, lossyChars_encodeChar, ih, List.cons_append]

theorem lossyChars_charBytes (cs : List Char) : lossyChars (charBytes cs) = cs := by
  have happend := lossyChars_charBytes_append cs []
  rwa [List.append_nil, show lossyChars [] = [] from rfl, List.append_nil] at happend

/-- A character that is cut off becomes one replacement character. -/
theorem lossyChars_cut {taken left : List UInt8} (hbytes : String.utf8EncodeChar c = taken ++ left)
    (htaken : taken ≠ []) (hleft : left ≠ []) : lossyChars taken = [Char.ofNat 0xFFFD] := by
  obtain ⟨first, rest, h⟩ := encodes c
  obtain ⟨byte, taken, rfl⟩ := List.exists_cons_of_ne_nil htaken
  rw [h.bytes, List.cons_append, List.cons.injEq] at hbytes
  obtain ⟨rfl, hrest⟩ := hbytes
  have hcontinuation : utf8Continuation first (taken ++ []) = taken :=
    h.continuation ⟨left, hrest.symm⟩ (Or.inr rfl)
  rw [List.append_nil] at hcontinuation
  have hshort : taken.length + 1 ≠ utf8Width first := by
    rw [h.width, hrest, List.length_append]
    have := List.length_pos_iff.mpr hleft
    omega
  rw [lossyChars_cons, hcontinuation, if_neg hshort, List.drop_length]
  rfl

theorem continuation_of_cut {taken left : List UInt8}
    (hbytes : String.utf8EncodeChar c = taken ++ left) (htaken : taken ≠ []) :
    ∀ byte ∈ left, IsContinuation byte := by
  obtain ⟨first, rest, h⟩ := encodes c
  obtain ⟨byte, taken, rfl⟩ := List.exists_cons_of_ne_nil htaken
  rw [h.bytes, List.cons_append, List.cons.injEq] at hbytes
  intro b hb
  exact h.continues b (by rw [hbytes.2]; exact List.mem_append_right taken hb)

theorem lossyChars_continuations {bytes more : List UInt8}
    (h : ∀ byte ∈ bytes, IsContinuation byte) :
    lossyChars (bytes ++ more) =
      List.replicate bytes.length (Char.ofNat 0xFFFD) ++ lossyChars more := by
  induction bytes with
  | nil => rfl
  | cons byte bytes ih =>
      rw [List.cons_append, lossyChars_continuation (h byte List.mem_cons_self),
        ih fun b hb => h b (List.mem_cons_of_mem byte hb)]
      rfl

/-! ## Texts -/

theorem asBytes_eq (text : String) : asBytes text = charBytes text.toList := by
  have hencode : text.toList.utf8Encode = text.toByteArray := String.utf8Encode_toList
  rw [asBytes, String.toUTF8_eq_toByteArray, ← hencode, List.utf8Encode, List.data_toByteArray,
    charBytes]

theorem fromUtf8Lossy_asBytes (text : String) : fromUtf8Lossy (asBytes text) = text := by
  rw [← String.toList_inj, toList_fromUtf8Lossy, asBytes_eq, lossyChars_charBytes]

end Fulgur
