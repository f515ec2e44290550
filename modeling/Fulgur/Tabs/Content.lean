import Mathlib.Data.List.Basic

/-! # Buffer text and its fingerprint

A buffer is held either as one string or as a rope of string chunks. Two texts
are compared by an FNV-1a fingerprint and their byte length; the fingerprint of
a rope does not depend on how its text is cut into chunks.
-/

namespace Fulgur

def LARGE_FILE_THRESHOLD_BYTES : Nat := 50 * 1024 * 1024

/-- Whether a decoded buffer of the given byte length opens in large-file mode. -/
def isLargeFile (contentLen : Nat) : Bool := LARGE_FILE_THRESHOLD_BYTES < contentLen

def FNV_OFFSET_BASIS : UInt64 := 0xcbf29ce484222325

def FNV_PRIME : UInt64 := 0x00000100000001b3

def fnv1aUpdate (hash : UInt64) (bytes : List UInt8) : UInt64 :=
  bytes.foldl (fun hash byte => (hash ^^^ byte.toUInt64) * FNV_PRIME) hash

def isWhiteSpace (c : Char) : Bool :=
  (0x9 ≤ c.val && c.val ≤ 0xD) || (0x2000 ≤ c.val && c.val ≤ 0x200A) ||
    [0x20, 0x85, 0xA0, 0x1680, 0x2028, 0x2029, 0x202F, 0x205F, 0x3000].contains c.val

/-- Nothing is left of the text by `str::trim`. -/
def isBlank (text : String) : Bool := text.toList.all isWhiteSpace

def asBytes (text : String) : List UInt8 := text.toUTF8.data.toList

/-- A rope buffer, seen through its chunks. -/
structure Rope where
  chunks : List String
deriving DecidableEq

namespace Rope

def toText (rope : Rope) : String := rope.chunks.foldr (· ++ ·) ""

def len (rope : Rope) : Nat := rope.toText.utf8ByteSize

def ofText (text : String) : Rope := ⟨[text]⟩

end Rope

/-- `(hash, byte_len)` of a string. -/
def contentFingerprintFromStr (content : String) : UInt64 × Nat :=
  (fnv1aUpdate FNV_OFFSET_BASIS (asBytes content), content.utf8ByteSize)

def contentFingerprintFromRope (content : Rope) : UInt64 × Nat :=
  content.chunks.foldl
    (fun acc chunk => (fnv1aUpdate acc.1 (asBytes chunk), acc.2 + chunk.utf8ByteSize))
    (FNV_OFFSET_BASIS, 0)

/-- Buffer text attached to a persisted tab. -/
inductive TabContent where
  | text (contents : String)
  | rope (buffer : Rope)
deriving DecidableEq

namespace TabContent

def toText : TabContent → String
  | .text contents => contents
  | .rope buffer => buffer.toText

def isEmpty : TabContent → Bool
  | .text contents => contents.isEmpty
  | .rope buffer => buffer.len = 0

def fingerprint : TabContent → UInt64 × Nat
  | .text contents => contentFingerprintFromStr contents
  | .rope buffer => contentFingerprintFromRope buffer

/-- The same text held as one string. -/
def flatten (content : TabContent) : TabContent := .text content.toText

end TabContent

/-! ## Fingerprints do not see chunk boundaries -/

theorem asBytes_append (a b : String) : asBytes (a ++ b) = asBytes a ++ asBytes b := by
  simp [asBytes]

theorem fnv1aUpdate_append (hash : UInt64) (xs ys : List UInt8) :
    fnv1aUpdate hash (xs ++ ys) = fnv1aUpdate (fnv1aUpdate hash xs) ys :=
  List.foldl_append

private theorem foldl_chunks (chunks : List String) (hash : UInt64) (len : Nat) :
    chunks.foldl
        (fun acc chunk => (fnv1aUpdate acc.1 (asBytes chunk), acc.2 + chunk.utf8ByteSize))
        (hash, len) =
      (fnv1aUpdate hash (asBytes (Rope.toText ⟨chunks⟩)),
        len + (Rope.toText ⟨chunks⟩).utf8ByteSize) := by
  induction chunks generalizing hash len with
  | nil => simp [Rope.toText, fnv1aUpdate, asBytes]
  | cons chunk chunks ih =>
      have htext : Rope.toText ⟨chunk :: chunks⟩ = chunk ++ Rope.toText ⟨chunks⟩ := rfl
      rw [List.foldl_cons, ih, htext, asBytes_append, fnv1aUpdate_append,
        String.utf8ByteSize_append, Nat.add_assoc]

theorem contentFingerprintFromRope_eq (rope : Rope) :
    contentFingerprintFromRope rope = contentFingerprintFromStr rope.toText := by
  have h := foldl_chunks rope.chunks FNV_OFFSET_BASIS 0
  rw [Nat.zero_add] at h
  exact h

theorem TabContent.fingerprint_eq (content : TabContent) :
    content.fingerprint = contentFingerprintFromStr content.toText := by
  cases content with
  | text contents => rfl
  | rope buffer => exact contentFingerprintFromRope_eq buffer

theorem TabContent.isEmpty_iff (content : TabContent) :
    content.isEmpty = true ↔ content.toText = "" := by
  cases content with
  | text contents => simp [isEmpty, toText]
  | rope buffer => simp [isEmpty, toText, Rope.len]

@[simp] theorem Rope.toText_ofText (text : String) : (Rope.ofText text).toText = text := by
  simp [Rope.ofText, Rope.toText]

end Fulgur
