import Mathlib.Data.List.Basic
import Fulgur.Files.Encoding
import Fulgur.Library.Pieces

/-! # The tail of a log file

The log view shows the last lines of a file. A whole text is cut by counting
its newlines; a text that is shown already is appended to and cut by the lines
of its buffer. New bytes are read from where the last read ended.
-/

namespace Fulgur

open Pieces

/-- Maximum number of trailing lines kept in the log view before trimming. -/
def LOG_LINE_CAP : Nat := 10000

/-- The loop of `trim_to_last_lines`: just past the newline that ends the last dropped line. -/
def trimCut (linesToDrop : Nat) : List Char → Nat → Nat → Nat
  | [], _, _ => 0
  | char :: rest, idx, seen =>
      if char = '\n' then
        if seen + 1 = linesToDrop then idx + 1 else trimCut linesToDrop rest (idx + 1) (seen + 1)
      else trimCut linesToDrop rest (idx + 1) seen

def trimToLastLines (buffer : String) (maxLines : Nat) : String × Bool :=
  let newlineCount := buffer.toList.count '\n'
  if newlineCount ≤ maxLines then (buffer, false)
  else
    let cut := trimCut (newlineCount - maxLines) buffer.toList 0 0
    (String.ofList (buffer.toList.drop cut), true)

/-- What the rope of the editor tells of the lines of its text. -/
structure RopeLines where
  linesLen : String → Nat
  lineStartOffset : String → Nat → Nat

/-- Just past as many newlines as the row has before it. -/
def lineStart : Nat → List Char → Nat
  | 0, _ => 0
  | _ + 1, [] => 0
  | row + 1, char :: rest => lineStart (if char = '\n' then row else row + 1) rest + 1

structure RopeLines.ByNewlines (rope : RopeLines) : Prop where
  linesLen : ∀ text, rope.linesLen text = text.toList.count '\n' + 1
  lineStartOffset : ∀ text row, row < rope.linesLen text →
    rope.lineStartOffset text row = lineStart row text.toList

def newlineRope : RopeLines where
  linesLen text := text.toList.count '\n' + 1
  lineStartOffset text row := lineStart row text.toList

theorem byNewlines_newlineRope : newlineRope.ByNewlines := ⟨fun _ => rfl, fun _ _ _ => rfl⟩

/-- The buffer with new text at its end, cut to the line cap unless it is lifted. -/
def appendLogToBottom (rope : RopeLines) (display text : String) (logFull : Bool) : String × Bool :=
  let shown := display ++ text
  let newlineCount := rope.linesLen shown - 1
  if logFull = false ∧ LOG_LINE_CAP < newlineCount then
    let cut := rope.lineStartOffset shown (newlineCount - LOG_LINE_CAP)
    (String.ofList (shown.toList.drop cut), true)
  else (shown, false)

structure LogFile where
  bytes : List UInt8
  ascii : ∀ byte ∈ bytes, byte < 0x80
deriving DecidableEq

def LogFile.append (file more : LogFile) : LogFile where
  bytes := file.bytes ++ more.bytes
  ascii := fun byte hbyte => (List.mem_append.mp hbyte).elim (file.ascii byte) (more.ascii byte)

/-- What a read decodes to: the text, the new offset, and whether the file had shrunk. -/
structure LogChunk where
  text : String
  newOffset : Nat
  truncated : Bool
deriving DecidableEq

/--
The bytes past `offset`. The length is asked for first; the file is read later,
and may have grown by then.
-/
def readNewLogBytes (len : Nat) (bytes : List UInt8) (offset : Nat) : LogChunk :=
  if len = offset then ⟨"", offset, false⟩
  else if len < offset then ⟨fromUtf8Lossy bytes, bytes.length, true⟩
  else
    let buf := (bytes.drop offset).take (len - offset)
    ⟨fromUtf8Lossy buf, offset + buf.length, false⟩

/-! ## Both ways of cutting leave the last lines -/

theorem drop_lineStart (row : Nat) (text : List Char) :
    text.drop (lineStart row text) = dropPieces '\n' row text := by
  induction text generalizing row with
  | nil => cases row <;> rfl
  | cons char rest ih =>
      cases row with
      | zero => rfl
      | succ row =>
          rw [lineStart, List.drop_succ_cons, ih, dropPieces_cons]

theorem trimCut_eq {linesToDrop seen : Nat} {text : List Char} (hseen : seen < linesToDrop)
    (hdrop : linesToDrop ≤ seen + text.count '\n') (idx : Nat) :
    trimCut linesToDrop text idx seen = idx + lineStart (linesToDrop - seen) text := by
  induction text generalizing idx seen with
  | nil =>
      rw [List.count_nil] at hdrop
      omega
  | cons char rest ih =>
      obtain ⟨left, rfl⟩ : ∃ left, linesToDrop = seen + left + 1 :=
        ⟨linesToDrop - seen - 1, by omega⟩
      rw [List.count_cons] at hdrop
      rw [trimCut, show seen + left + 1 - seen = left + 1 by omega, lineStart]
      by_cases hchar : char = '\n'
      · simp only [hchar, beq_self_eq_true, if_true] at hdrop ⊢
        by_cases hlast : seen + 1 = seen + left + 1
        · obtain rfl : left = 0 := by omega
          rw [if_pos rfl, lineStart]
        · rw [if_neg hlast, ih (by omega) (by omega),
            show seen + left + 1 - (seen + 1) = left by omega]
          omega
      · simp only [hchar, if_false]
        rw [ih hseen (by simpa [hchar] using hdrop),
          show seen + left + 1 - seen = left + 1 by omega]
        omega

theorem trimToLastLines_eq (buffer : String) (maxLines : Nat) :
    (trimToLastLines buffer maxLines).1.toList = lastPieces '\n' maxLines buffer.toList := by
  unfold trimToLastLines
  dsimp only
  split
  · rename_i hfew
    rw [lastPieces_of_le hfew]
  · rename_i hmany
    rw [String.toList_ofList, trimCut_eq (by omega) (by omega), Nat.zero_add, Nat.sub_zero,
      drop_lineStart, lastPieces]

/-- What is shown once text is appended to a view that holds `display`. -/
theorem appendLogToBottom_eq {rope : RopeLines} (hrope : rope.ByNewlines) (display text : String)
    (logFull : Bool) : (appendLogToBottom rope display text logFull).1 =
      if logFull then display ++ text else (trimToLastLines (display ++ text) LOG_LINE_CAP).1 := by
  apply String.toList_inj.mp
  unfold appendLogToBottom
  dsimp only
  rw [hrope.linesLen, Nat.add_sub_cancel]
  cases logFull with
  | true => simp
  | false =>
      rw [if_neg Bool.false_ne_true, trimToLastLines_eq]
      by_cases hmany : LOG_LINE_CAP < (display ++ text).toList.count '\n'
      · have hrow : (display ++ text).toList.count '\n' - LOG_LINE_CAP <
            rope.linesLen (display ++ text) := by
          rw [hrope.linesLen]
          omega
        rw [if_pos ⟨rfl, hmany⟩, String.toList_ofList, hrope.lineStartOffset _ _ hrow,
          drop_lineStart, lastPieces]
      · rw [if_neg (fun h => hmany h.2), lastPieces_of_le (by omega)]

/-! ## ASCII bytes are decoded one by one -/

theorem fromUtf8LossyAux_ascii {bytes : List UInt8} (hascii : ∀ byte ∈ bytes, byte < 0x80) :
    fromUtf8LossyAux bytes.length bytes = bytes.map fun byte => Char.ofNat byte.toNat := by
  induction bytes with
  | nil => rfl
  | cons first rest ih =>
      have hwidth : utf8Width first = 1 := if_pos (hascii first List.mem_cons_self)
      have hcontinuation : utf8Continuation first rest = [] := by
        cases rest with
        | nil => rfl
        | cons second rest => simp [utf8Continuation, hwidth]
      have hrest := ih fun byte hbyte => hascii byte (List.mem_cons_of_mem first hbyte)
      rw [List.length_cons, fromUtf8LossyAux, hcontinuation]
      simp [hwidth, utf8Scalar, hrest]

theorem fromUtf8Lossy_append {first second : List UInt8} (hfirst : ∀ byte ∈ first, byte < 0x80)
    (hsecond : ∀ byte ∈ second, byte < 0x80) :
    fromUtf8Lossy (first ++ second) = fromUtf8Lossy first ++ fromUtf8Lossy second := by
  have hboth : ∀ byte ∈ first ++ second, byte < 0x80 := fun byte hbyte =>
    (List.mem_append.mp hbyte).elim (hfirst byte) (hsecond byte)
  unfold fromUtf8Lossy
  rw [fromUtf8LossyAux_ascii hboth, fromUtf8LossyAux_ascii hfirst, fromUtf8LossyAux_ascii hsecond,
    List.map_append, String.ofList_append]

namespace LogFile

def textTo (file : LogFile) (offset : Nat) : String := fromUtf8Lossy (file.bytes.take offset)

theorem textTo_append (file more : LogFile) {offset : Nat} (hoffset : offset ≤ file.bytes.length) :
    (file.append more).textTo offset = file.textTo offset := by
  unfold textTo append
  rw [List.take_append_of_le_length hoffset]

/-- A read that goes on from `offset` ends with the text up to where it ended. -/
theorem textTo_readNewLogBytes (file : LogFile) {len offset : Nat} (hoffset : offset ≤ len)
    (hlen : len ≤ file.bytes.length) :
    (readNewLogBytes len file.bytes offset).truncated = false ∧
      (readNewLogBytes len file.bytes offset).newOffset = len ∧
        file.textTo offset ++ (readNewLogBytes len file.bytes offset).text = file.textTo len := by
  unfold readNewLogBytes
  by_cases hsame : len = offset
  · rw [if_pos hsame, hsame]
    exact ⟨rfl, rfl, String.append_empty⟩
  · rw [if_neg hsame, if_neg (by omega)]
    refine ⟨rfl, ?_, ?_⟩
    · simp only [List.length_take, List.length_drop]
      omega
    · dsimp only
      unfold textTo
      rw [← fromUtf8Lossy_append, ← List.take_add, Nat.add_sub_cancel' hoffset]
      · exact fun byte hbyte => file.ascii byte (List.mem_of_mem_take hbyte)
      · exact fun byte hbyte =>
          file.ascii byte (List.mem_of_mem_drop (List.mem_of_mem_take hbyte))

end LogFile

end Fulgur
