import Fulgur.Files.Encoding

/-! # Opening a file and saving it untouched

The codecs are those of the standard: a byte order mark decides how a file is
decoded, whatever was guessed, and a legacy encoding writes a text character by
character. A file that is opened and saved untouched stays the same file if it
is UTF-8, or if no mark of UTF-16 stands before it and its bytes are what the
guessed encoding writes.
-/

namespace Fulgur

/-! ## Byte order marks and UTF-16 -/

/-- The encoding that a byte order mark stands for, and what follows the mark. -/
def bomOf : List UInt8 → Option (String × List UInt8)
  | 0xEF :: 0xBB :: 0xBF :: rest => some (UTF_8, rest)
  | 0xFF :: 0xFE :: rest => some ("UTF-16LE", rest)
  | 0xFE :: 0xFF :: rest => some ("UTF-16BE", rest)
  | _ => none

/-- The code units of UTF-16 text, and whether a byte is left over. -/
def utf16Units (bigEndian : Bool) : List UInt8 → List Nat × Bool
  | [] => ([], false)
  | [_] => ([], true)
  | first :: second :: rest =>
      let unit := if bigEndian then first.toNat * 256 + second.toNat
        else second.toNat * 256 + first.toNat
      let (units, odd) := utf16Units bigEndian rest
      (unit :: units, odd)

/-- The characters of code units, and whether a surrogate stands alone. -/
def utf16Chars : List Nat → List Char × Bool
  | [] => ([], false)
  | [unit] =>
      if 0xD800 ≤ unit ∧ unit < 0xE000 then ([Char.ofNat 0xFFFD], true)
      else ([Char.ofNat unit], false)
  | lead :: trail :: rest =>
      if 0xD800 ≤ lead ∧ lead < 0xDC00 ∧ 0xDC00 ≤ trail ∧ trail < 0xE000 then
        let (chars, hadErrors) := utf16Chars rest
        (Char.ofNat (0x10000 + (lead - 0xD800) * 0x400 + (trail - 0xDC00)) :: chars, hadErrors)
      else
        let (chars, hadErrors) := utf16Chars (trail :: rest)
        if 0xD800 ≤ lead ∧ lead < 0xE000 then (Char.ofNat 0xFFFD :: chars, true)
        else (Char.ofNat lead :: chars, hadErrors)

/-- A byte that is left over is one error together with a lead surrogate before it. -/
def decodeUtf16 (bigEndian : Bool) (bytes : List UInt8) : String × Bool :=
  let (units, odd) := utf16Units bigEndian bytes
  let (chars, hadErrors) := utf16Chars units
  let leadPending := units.getLast?.any fun unit => 0xD800 ≤ unit && unit < 0xDC00
  (String.ofList (if odd && !leadPending then chars ++ [Char.ofNat 0xFFFD] else chars),
    hadErrors || odd)

example : decodeUtf16 false [0x61, 0x00, 0x00, 0xD8, 0x61] = ("a\uFFFD", true) := by decide

/-! ## The codecs of the standard -/

def usedEncoding (used : String) (decoded : String × Bool) : String × String × Bool :=
  (decoded.1, used, decoded.2)

/-- What an encoding writes for a text, if it can write every character. -/
def encodeChars (encodeChar : Char → Option (List UInt8)) : List Char → Option (List UInt8)
  | [] => some []
  | char :: rest =>
      match encodeChar char, encodeChars encodeChar rest with
      | some bytes, some more => some (bytes ++ more)
      | _, _ => none

/-- The encodings that are guessed for bytes that are not UTF-8. -/
def LEGACY_ENCODINGS : List String :=
  ["IBM866", "ISO-8859-2", "ISO-8859-3", "ISO-8859-4", "ISO-8859-5", "ISO-8859-6", "ISO-8859-7",
    "ISO-8859-8", "ISO-8859-8-I", "ISO-8859-10", "ISO-8859-13", "ISO-8859-14", "ISO-8859-15",
    "ISO-8859-16", "KOI8-R", "KOI8-U", "macintosh", "windows-874", "windows-1250", "windows-1251",
    "windows-1252", "windows-1253", "windows-1254", "windows-1255", "windows-1256", "windows-1257",
    "windows-1258", "x-mac-cyrillic", "GBK", "Big5", "EUC-JP", "Shift_JIS", "EUC-KR"]

/--
The crates with the codecs of the standard. A decoder first looks for a byte order
mark. A legacy encoding writes at most two bytes for a character, and reads them
back as a character that is written with the same bytes: the same one, or the one
it is folded with.
-/
structure StandardCodecs extends Encodings where
  decodeWithoutBom : String → List UInt8 → String × Bool
  encodeChar : String → Char → Option (List UInt8)
  decode_eq : ∀ name bytes, decode name bytes =
    match bomOf bytes with
    | some (marked, rest) => usedEncoding marked (decodeWithoutBom marked rest)
    | none => usedEncoding name (decodeWithoutBom name bytes)
  utf8_errors : ∀ bytes, (decodeWithoutBom UTF_8 bytes).2 = (fromUtf8 bytes).isNone
  utf16le_eq : ∀ bytes, decodeWithoutBom "UTF-16LE" bytes = decodeUtf16 false bytes
  utf16be_eq : ∀ bytes, decodeWithoutBom "UTF-16BE" bytes = decodeUtf16 true bytes
  guess_legacy : ∀ bytes, fromUtf8 bytes = none → guess bytes ∈ LEGACY_ENCODINGS
  forLabel_name : ∀ name ∈ LEGACY_ENCODINGS, forLabel name = some name
  encode_iff : ∀ name ∈ LEGACY_ENCODINGS, ∀ text bytes,
    encode name text = (bytes, false) ↔ encodeChars (encodeChar name) text.toList = some bytes
  width : ∀ name ∈ LEGACY_ENCODINGS, ∀ char bytes, encodeChar name char = some bytes →
    bytes.length ≤ 2
  decode_nil : ∀ name ∈ LEGACY_ENCODINGS, decodeWithoutBom name [] = ("", false)
  decode_char : ∀ name ∈ LEGACY_ENCODINGS, ∀ char bytes, encodeChar name char = some bytes →
    ∃ folded, encodeChar name folded = some bytes ∧ ∀ rest,
      decodeWithoutBom name (bytes ++ rest) =
        (String.singleton folded ++ (decodeWithoutBom name rest).1, (decodeWithoutBom name rest).2)

/--
No mark of UTF-16 stands before the bytes, and the guessed encoding writes them for some
text.
-/
def Encodings.WritesAs (encodings : Encodings) (bytes : List UInt8) : Prop :=
  (∀ bom ∈ bomOf bytes, bom.1 = UTF_8) ∧
    ∃ text, encodings.encode (encodings.guess bytes) text = (bytes, false)

/-! ## Lengths -/

theorem length_utf16Units (bigEndian : Bool) (bytes : List UInt8) :
    2 * (utf16Units bigEndian bytes).1.length ≤ bytes.length := by
  fun_induction utf16Units bigEndian bytes with
  | case1 => exact Nat.le_refl _
  | case2 => exact Nat.zero_le _
  | case3 first second rest unit units odd heq ih =>
      rw [heq] at ih
      simp only [List.length_cons] at ih ⊢
      omega

theorem length_utf16Chars (units : List Nat) : (utf16Chars units).1.length ≤ units.length := by
  induction units using utf16Chars.induct with
  | case1 => simp [utf16Chars]
  | case2 unit h => simp [utf16Chars, h]
  | case3 unit h => simp [utf16Chars, h]
  | case4 lead trail rest h chars hadErrors heq ih =>
      rw [utf16Chars, if_pos h]
      simp only [List.length_cons]
      omega
  | case5 lead trail rest h chars hadErrors heq hlone ih =>
      rw [utf16Chars, if_neg h]
      simp only [hlone, and_self, if_true, List.length_cons] at ih ⊢
      omega
  | case6 lead trail rest h chars hadErrors heq hlone ih =>
      rw [utf16Chars, if_neg h]
      simp only [hlone, if_false, List.length_cons] at ih ⊢
      omega

theorem length_decodeUtf16 {bigEndian : Bool} {bytes : List UInt8} {text : String}
    (h : decodeUtf16 bigEndian bytes = (text, false)) : 2 * text.toList.length ≤ bytes.length := by
  have hunits := length_utf16Units bigEndian bytes
  have hchars := length_utf16Chars (utf16Units bigEndian bytes).1
  unfold decodeUtf16 at h
  obtain ⟨htext, hflags⟩ := Prod.mk.inj h
  obtain ⟨-, hodd⟩ := Bool.or_eq_false_iff.mp hflags
  rw [← htext, hodd, Bool.false_and, if_neg Bool.false_ne_true, String.toList_ofList]
  omega

theorem length_encodeChars {encodeChar : Char → Option (List UInt8)}
    (hwidth : ∀ char bytes, encodeChar char = some bytes → bytes.length ≤ 2) {text : List Char}
    {bytes : List UInt8} (h : encodeChars encodeChar text = some bytes) :
    bytes.length ≤ 2 * text.length := by
  induction text generalizing bytes with
  | nil =>
      cases h
      exact Nat.le_refl _
  | cons char rest ih =>
      unfold encodeChars at h
      split at h
      · rename_i first more hfirst hmore
        cases h
        have hchar := hwidth char first hfirst
        have hrest := ih hmore
        simp only [List.length_append, List.length_cons]
        omega
      · cases h

/-! ## Marks -/

theorem bomOf_cases {bytes rest : List UInt8} {marked : String}
    (h : bomOf bytes = some (marked, rest)) :
    (marked = UTF_8 ∧ bytes = 0xEF :: 0xBB :: 0xBF :: rest) ∨
      (marked = "UTF-16LE" ∧ bytes.length = rest.length + 2) ∨
        (marked = "UTF-16BE" ∧ bytes.length = rest.length + 2) := by
  unfold bomOf at h
  split at h
  · cases h
    exact Or.inl ⟨rfl, rfl⟩
  · cases h
    exact Or.inr (Or.inl ⟨rfl, rfl⟩)
  · cases h
    exact Or.inr (Or.inr ⟨rfl, rfl⟩)
  · cases h

theorem asBytes_of_fromUtf8 {bytes : List UInt8} {text : String} (h : fromUtf8 bytes = some text) :
    asBytes text = bytes := by
  unfold fromUtf8 String.fromUTF8? at h
  split at h
  · cases h
    rfl
  · cases h

/-! ## What a legacy encoding writes, it reads back -/

namespace StandardCodecs

variable (codecs : StandardCodecs) {name : String}

/-- What is written is read as a text that is written with the same bytes. -/
theorem decode_written (hname : name ∈ LEGACY_ENCODINGS) {text : List Char} {bytes : List UInt8}
    (h : encodeChars (codecs.encodeChar name) text = some bytes) :
    ∃ folded, codecs.decodeWithoutBom name bytes = (String.ofList folded, false) ∧
      encodeChars (codecs.encodeChar name) folded = some bytes := by
  induction text generalizing bytes with
  | nil =>
      cases h
      exact ⟨[], codecs.decode_nil name hname, rfl⟩
  | cons char rest ih =>
      unfold encodeChars at h
      split at h
      · rename_i first more hfirst hmore
        cases h
        obtain ⟨folded, hfolded, hdecode⟩ := codecs.decode_char name hname char first hfirst
        obtain ⟨others, hrest, hothers⟩ := ih hmore
        refine ⟨folded :: others, ?_, ?_⟩
        · rw [hdecode, hrest, Prod.mk.injEq, and_iff_left rfl]
          exact String.toList_inj.mp (by simp)
        · simp [encodeChars, hfolded, hothers]
      · cases h

/-- Bytes that are not UTF-8 and are decoded without an error have no mark or one of UTF-16. -/
theorem bom_of_decoded {bytes : List UInt8} {text used : String} (hutf8 : fromUtf8 bytes = none)
    (h : codecs.decode name bytes = (text, used, false)) :
    (bomOf bytes = none ∧ used = name ∧ codecs.decodeWithoutBom name bytes = (text, false)) ∨
      (∃ bom ∈ bomOf bytes, bom.1 ≠ UTF_8) ∧ 2 * text.toList.length + 2 ≤ bytes.length := by
  rw [codecs.decode_eq] at h
  split at h
  · rename_i marked rest hbom
    obtain ⟨htext, hused⟩ := Prod.mk.inj h
    obtain ⟨-, hclean⟩ := Prod.mk.inj hused
    replace h : codecs.decodeWithoutBom marked rest = (text, false) := Prod.ext htext hclean
    rcases bomOf_cases hbom with ⟨rfl, hbytes⟩ | ⟨rfl, hlength⟩ | ⟨rfl, hlength⟩
    · exfalso
      have herrors := codecs.utf8_errors rest
      rw [h, eq_comm, Option.isNone_eq_false_iff] at herrors
      obtain ⟨valid, hvalid⟩ := Option.isSome_iff_exists.mp herrors
      have hwhole : bytes = asBytes ("\uFEFF" ++ valid) := by
        rw [asBytes_append, asBytes_of_fromUtf8 hvalid, hbytes]
        rfl
      rw [hwhole, fromUtf8_asBytes] at hutf8
      cases hutf8
    · rw [codecs.utf16le_eq] at h
      have hshort := length_decodeUtf16 h
      exact Or.inr ⟨⟨_, hbom, by simp [UTF_8]⟩, by omega⟩
    · rw [codecs.utf16be_eq] at h
      have hshort := length_decodeUtf16 h
      exact Or.inr ⟨⟨_, hbom, by simp [UTF_8]⟩, by omega⟩
  · rename_i hbom
    obtain ⟨htext, hused⟩ := Prod.mk.inj h
    obtain ⟨hname, hclean⟩ := Prod.mk.inj hused
    exact Or.inl ⟨hbom, hname.symm, Prod.ext htext hclean⟩

theorem decoded_of_clean {bytes : List UInt8} (hutf8 : fromUtf8 bytes = none)
    (h : (detectEncodingAndDecode codecs.toEncodings bytes).lossy = false) :
    ∃ text used, codecs.decode (codecs.guess bytes) bytes = (text, used, false) := by
  unfold detectEncodingAndDecode at h
  rcases hdecode : codecs.decode (codecs.guess bytes) bytes with ⟨text, used, hadErrors⟩
  cases hadErrors with
  | true => simp [hutf8, hdecode] at h
  | false => exact ⟨text, used, rfl⟩

/-- A guessed encoding is written under its own name. -/
theorem encodeForSave_legacy (hname : name ∈ LEGACY_ENCODINGS) (text : String)
    (bytes : List UInt8) :
    encodeForSave codecs.toEncodings text name = .encoded bytes ↔
      codecs.encode name text = (bytes, false) := by
  have hlabels : ∀ label ∈ LEGACY_ENCODINGS, eqIgnoreAsciiCase label UTF_8 = false ∧
      ¬ (label = "UTF-16LE" ∨ label = "UTF-16BE" ∨ label = "replacement") := by decide
  obtain ⟨hutf8, hwritable⟩ := hlabels name hname
  unfold encodeForSave
  rw [if_neg (by simp [hutf8]), codecs.forLabel_name name hname]
  rcases hencode : codecs.encode name text with ⟨encoded, hadUnmappable⟩
  cases hadUnmappable with
  | true => simp [hwritable, hencode]
  | false => simp [hwritable, hencode]

end StandardCodecs

/-- A file opened without loss is saved untouched exactly when the guessed encoding writes it. -/
theorem untouched_save_iff (codecs : StandardCodecs) (bytes : List UInt8)
    (h : (detectEncodingAndDecode codecs.toEncodings bytes).lossy = false) :
    encodeForSave codecs.toEncodings (detectEncodingAndDecode codecs.toEncodings bytes).content
        (detectEncodingAndDecode codecs.toEncodings bytes).encoding = .encoded bytes ↔
      (fromUtf8 bytes).isSome = true ∨ codecs.toEncodings.WritesAs bytes := by
  cases hutf8 : fromUtf8 bytes with
  | some text =>
      have hopened : detectEncodingAndDecode codecs.toEncodings bytes =
          ⟨UTF_8, text, false, bytes.length⟩ := by
        unfold detectEncodingAndDecode
        rw [hutf8]
      rw [hopened, encodeForSave_utf8, asBytes_of_fromUtf8 hutf8]
      simp
  | none =>
      have hname := codecs.guess_legacy bytes hutf8
      obtain ⟨text, used, hdecode⟩ := codecs.decoded_of_clean hutf8 h
      have hopened : detectEncodingAndDecode codecs.toEncodings bytes =
          ⟨codecs.guess bytes, text, false, bytes.length⟩ := by
        simp [detectEncodingAndDecode, hutf8, hdecode]
      rw [hopened, codecs.encodeForSave_legacy hname]
      unfold Encodings.WritesAs
      rw [Option.isSome_none, or_iff_right Bool.false_ne_true]
      have hwritten := codecs.encode_iff _ hname
      rcases codecs.bom_of_decoded hutf8 hdecode with ⟨hbom, -, hplain⟩ | ⟨hmarked, hshort⟩
      · refine ⟨fun hsame => ⟨by simp [hbom], text, hsame⟩, fun hwrites => ?_⟩
        obtain ⟨-, written, hsame⟩ := hwrites
        obtain ⟨folded, hfolded, hencoded⟩ :=
          codecs.decode_written hname ((hwritten written bytes).mp hsame)
        rw [hplain] at hfolded
        refine (hwritten text bytes).mpr ?_
        rw [(Prod.mk.inj hfolded).1, String.toList_ofList]
        exact hencoded
      · -- The text of a UTF-16 file is too short for any other encoding to fill the file again.
        refine ⟨fun hsame => ?_, fun hwrites => ?_⟩
        · have hlength := length_encodeChars (codecs.width _ hname) ((hwritten text bytes).mp hsame)
          omega
        · obtain ⟨bom, hbom, hother⟩ := hmarked
          exact absurd (hwrites.1 bom hbom) hother

/-! ## One legacy encoding -/

def WINDOWS_1252 : List Nat :=
  [0x20AC, 0x81, 0x201A, 0x192, 0x201E, 0x2026, 0x2020, 0x2021, 0x2C6, 0x2030, 0x160, 0x2039, 0x152,
    0x8D, 0x17D, 0x8F, 0x90, 0x2018, 0x2019, 0x201C, 0x201D, 0x2022, 0x2013, 0x2014, 0x2DC, 0x2122,
    0x161, 0x203A, 0x153, 0x9D, 0x17E, 0x178]

def windows1252Char (byte : UInt8) : Char :=
  if 0x80 ≤ byte ∧ byte < 0xA0 then Char.ofNat (WINDOWS_1252.getD (byte.toNat - 0x80) 0)
  else Char.ofNat byte.toNat

def windows1252Byte (char : Char) : Option (List UInt8) :=
  (((List.range 256).map UInt8.ofNat).find? fun byte => windows1252Char byte = char).map ([·])

/-- The Unicode encodings, and windows-1252 under every other name. -/
def sampleDecode (name : String) (bytes : List UInt8) : String × Bool :=
  if name = UTF_8 then (fromUtf8Lossy bytes, (fromUtf8 bytes).isNone)
  else if name = "UTF-16LE" then decodeUtf16 false bytes
  else if name = "UTF-16BE" then decodeUtf16 true bytes
  else (String.ofList (bytes.map windows1252Char), false)

theorem sampleDecode_legacy {name : String} (hname : name ∈ LEGACY_ENCODINGS) (bytes : List UInt8) :
    sampleDecode name bytes = (String.ofList (bytes.map windows1252Char), false) := by
  have hnames :
    ∀ name ∈ LEGACY_ENCODINGS, name ≠ UTF_8 ∧ name ≠ "UTF-16LE" ∧ name ≠ "UTF-16BE" := by
    decide
  obtain ⟨hutf8, hle, hbe⟩ := hnames name hname
  rw [sampleDecode, if_neg hutf8, if_neg hle, if_neg hbe]

theorem windows1252Byte_eq {char : Char} {bytes : List UInt8}
    (h : windows1252Byte char = some bytes) :
    ∃ byte, bytes = [byte] ∧ windows1252Char byte = char := by
  obtain ⟨byte, hbyte, rfl⟩ := Option.map_eq_some_iff.mp h
  exact ⟨byte, rfl, by simpa using List.find?_some hbyte⟩

def windows1252Codecs : StandardCodecs where
  forLabel label := if label ∈ LEGACY_ENCODINGS then some label else none
  guess _ := "windows-1252"
  decode name bytes := match bomOf bytes with
    | some (marked, rest) => usedEncoding marked (sampleDecode marked rest)
    | none => usedEncoding name (sampleDecode name bytes)
  encode _ text := match encodeChars windows1252Byte text.toList with
    | some bytes => (bytes, false)
    | none => ([], true)
  decodeWithoutBom := sampleDecode
  encodeChar _ := windows1252Byte
  decode_eq _ _ := rfl
  utf8_errors _ := rfl
  utf16le_eq _ := rfl
  utf16be_eq _ := rfl
  guess_legacy _ _ := by decide
  forLabel_name _ hname := if_pos hname
  encode_iff _ _ text bytes := by
    cases encodeChars windows1252Byte text.toList with
    | some written => simp
    | none => simp
  width _ _ char bytes h := by
    obtain ⟨byte, rfl, -⟩ := windows1252Byte_eq h
    exact Nat.le_succ 1
  decode_nil name hname := sampleDecode_legacy hname []
  decode_char name hname char bytes h := by
    obtain ⟨byte, rfl, hchar⟩ := windows1252Byte_eq h
    refine ⟨char, h, fun rest => ?_⟩
    rw [sampleDecode_legacy hname, sampleDecode_legacy hname, List.singleton_append, List.map_cons,
      hchar]
    exact Prod.ext (String.toList_inj.mp (by simp)) rfl

theorem untouched_save_iff_sample :
    encodeForSave windows1252Codecs.toEncodings "café" "windows-1252" =
        .encoded [0x63, 0x61, 0x66, 0xE9] ∧
      windows1252Codecs.toEncodings.WritesAs [0x63, 0x61, 0x66, 0xE9] := by
  have hopened : detectEncodingAndDecode windows1252Codecs.toEncodings [0x63, 0x61, 0x66, 0xE9] =
      ⟨"windows-1252", "café", false, 4⟩ := by decide +kernel
  have hsaved := untouched_save_iff windows1252Codecs [0x63, 0x61, 0x66, 0xE9] (by rw [hopened])
  rw [hopened] at hsaved
  have hwrites : windows1252Codecs.toEncodings.WritesAs [0x63, 0x61, 0x66, 0xE9] :=
    ⟨by simp [bomOf], "café", by decide +kernel⟩
  exact ⟨hsaved.mpr (Or.inr hwrites), hwrites⟩

/-- A file with a mark of UTF-16 is saved without the mark, one byte for each character. -/
theorem marked_file_saved_changed :
    detectEncodingAndDecode windows1252Codecs.toEncodings [0xFF, 0xFE, 0x61, 0x00] =
        ⟨"windows-1252", "a", false, 4⟩ ∧
      encodeForSave windows1252Codecs.toEncodings "a" "windows-1252" = .encoded [0x61] := by
  decide +kernel

end Fulgur
