import Mathlib.Data.List.Basic
import Fulgur.Tabs.Content

/-! # Decoding a file and encoding a buffer

A file that is valid UTF-8 is taken as it is. Any other file is decoded by the
encoding its bytes look like, and by UTF-8 with replacement characters when
that decode fails. A buffer is written back under the label its tab carries,
and a text the label cannot represent is refused.
-/

namespace Fulgur

def UTF_8 : String := "UTF-8"

/--
The encoding crates: guessing, decoding and encoding, by canonical name. A decode
gives the text, the encoding it really used and whether there were errors.
-/
structure Encodings where
  forLabel : String → Option String
  guess : List UInt8 → String
  decode : String → List UInt8 → String × String × Bool
  encode : String → String → List UInt8 × Bool

/-- Outcome of decoding raw file bytes into editor text. -/
structure DecodedContents where
  encoding : String
  content : String
  lossy : Bool
  byteLen : Nat
deriving DecidableEq

/-- Outcome of re-encoding editor text for writing back to disk. -/
inductive EncodedContents where
  | encoded (bytes : List UInt8)
  | lossy
deriving DecidableEq

/-! ## Lossy UTF-8

Each maximal prefix of a character that the next byte cannot continue becomes
one replacement character.
-/

/-- Bytes a UTF-8 sequence has, by its first byte; no sequence starts with the others. -/
def utf8Width (first : UInt8) : Nat :=
  if first < 0x80 then 1
  else if 0xC2 ≤ first ∧ first ≤ 0xDF then 2
  else if 0xE0 ≤ first ∧ first ≤ 0xEF then 3
  else if 0xF0 ≤ first ∧ first ≤ 0xF4 then 4
  else 0

/--
Whether a second byte may follow a first one: no overlong form, no surrogate, at most
U+10FFFF.
-/
def utf8SecondByte (first second : UInt8) : Bool :=
  if first = 0xE0 then 0xA0 ≤ second && second ≤ 0xBF
  else if first = 0xED then 0x80 ≤ second && second ≤ 0x9F
  else if first = 0xF0 then 0x90 ≤ second && second ≤ 0xBF
  else if first = 0xF4 then 0x80 ≤ second && second ≤ 0x8F
  else 0x80 ≤ second && second ≤ 0xBF

def utf8Continuation (first : UInt8) : List UInt8 → List UInt8
  | [] => []
  | second :: rest =>
      if 2 ≤ utf8Width first ∧ utf8SecondByte first second = true then
        second :: ((rest.take (utf8Width first - 2)).takeWhile fun b => 0x80 ≤ b && b ≤ 0xBF)
      else []

/-- The code point of a complete UTF-8 sequence. -/
def utf8Scalar (first : UInt8) (continuation : List UInt8) : Nat :=
  let lead := match utf8Width first with
    | 1 => first.toNat
    | 2 => first.toNat % 32
    | 3 => first.toNat % 16
    | _ => first.toNat % 8
  continuation.foldl (fun acc b => acc * 64 + b.toNat % 64) lead

/-- `String::from_utf8_lossy`; the fuel bounds the number of characters. -/
def fromUtf8LossyAux : Nat → List UInt8 → List Char
  | 0, _ => []
  | _ + 1, [] => []
  | fuel + 1, first :: rest =>
      let continuation := utf8Continuation first rest
      let char :=
        if continuation.length + 1 = utf8Width first then Char.ofNat (utf8Scalar first continuation)
        else Char.ofNat 0xFFFD
      char :: fromUtf8LossyAux fuel (rest.drop continuation.length)

def fromUtf8Lossy (bytes : List UInt8) : String :=
  String.ofList (fromUtf8LossyAux bytes.length bytes)

/-- `String::from_utf8`. -/
def fromUtf8 (bytes : List UInt8) : Option String := String.fromUTF8? ⟨bytes.toArray⟩

/-- `fs::read_to_string`. -/
def readToString (file : Option (List UInt8)) : Option String := file.bind fromUtf8

/-! ## Reading and writing -/

def detectEncodingAndDecode (encodings : Encodings) (bytes : List UInt8) : DecodedContents :=
  match fromUtf8 bytes with
  | some text => ⟨UTF_8, text, false, bytes.length⟩
  | none =>
      let encoding := encodings.guess bytes
      let (decoded, _, hadErrors) := encodings.decode encoding bytes
      if hadErrors then ⟨UTF_8, fromUtf8Lossy bytes, true, bytes.length⟩
      else ⟨encoding, decoded, false, bytes.length⟩

/-- `str::eq_ignore_ascii_case`. -/
def eqIgnoreAsciiCase (a b : String) : Bool := a.toList.map Char.toLower = b.toList.map Char.toLower

def encodeForSave (encodings : Encodings) (contents label : String) : EncodedContents :=
  if eqIgnoreAsciiCase label UTF_8 then .encoded (asBytes contents)
  else match encodings.forLabel label with
    | none => .encoded (asBytes contents)
    | some encoding =>
        if encoding = "UTF-16LE" ∨ encoding = "UTF-16BE" ∨ encoding = "replacement" then
          .encoded (asBytes contents)
        else
          let (encoded, hadUnmappable) := encodings.encode encoding contents
          if hadUnmappable then .lossy else .encoded encoded

/-- Number of leading bytes inspected by the binary-content heuristic. -/
def BINARY_SNIFF_LEN : Nat := 8000

def looksBinary (bytes : List UInt8) : Bool := (bytes.take BINARY_SNIFF_LEN).contains 0

example : fromUtf8Lossy [0x63, 0xC3, 0xA9, 0xE2, 0x82, 0x41, 0xFF] = "cé\uFFFDA\uFFFD" := by decide

/-! ## UTF-8 labels -/

@[simp] theorem fromUtf8_asBytes (text : String) : fromUtf8 (asBytes text) = some text := by
  unfold fromUtf8 asBytes
  simp only [String.fromUTF8?, String.toUTF8_eq_toByteArray, Array.toArray_toList,
    dif_pos text.isValidUTF8]
  rfl

@[simp] theorem readToString_asBytes (text : String) :
    readToString (some (asBytes text)) = some text := fromUtf8_asBytes text

@[simp] theorem encodeForSave_utf8 (encodings : Encodings) (contents : String) :
    encodeForSave encodings contents UTF_8 = .encoded (asBytes contents) :=
  if_pos (by decide)

theorem detectEncodingAndDecode_asBytes (encodings : Encodings) (text : String) :
    detectEncodingAndDecode encodings (asBytes text) =
      ⟨UTF_8, text, false, (asBytes text).length⟩ := by
  simp only [detectEncodingAndDecode, fromUtf8_asBytes]

end Fulgur
