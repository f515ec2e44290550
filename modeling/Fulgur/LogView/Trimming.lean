import Fulgur.LogView.Tail

/-! # Trimming the log

A text is its ended lines and the line that is not ended yet. Trimming leaves the
last of the ended lines and the open one, also when it is done piece by piece or
in the buffer that is shown.
-/

namespace Fulgur

open Pieces

def logText (lines : Pieced '\n') : String := String.ofList lines.toList

theorem toList_logText (lines : Pieced '\n') : (logText lines).toList = lines.toList :=
  String.toList_ofList

theorem exists_logText (buffer : String) : ∃ lines, logText lines = buffer := by
  obtain ⟨lines, hlines⟩ := @Pieced.exists_toList Char _ '\n' buffer.toList
  exact ⟨lines, by rw [logText, hlines, String.ofList_toList]⟩

theorem trimToLastLines_dropped (buffer : String) (maxLines : Nat) :
    (trimToLastLines buffer maxLines).2 = decide (maxLines < buffer.toList.count '\n') := by
  unfold trimToLastLines
  dsimp only
  split
  · exact (decide_eq_false (by omega)).symm
  · exact (decide_eq_true (by omega)).symm

theorem count_trimToLastLines (buffer : String) (maxLines : Nat) :
    (trimToLastLines buffer maxLines).1.toList.count '\n' =
      min (buffer.toList.count '\n') maxLines := by
  rw [trimToLastLines_eq, lastPieces, count_dropPieces]
  omega

theorem trimToLastLines_logText (lines : Pieced '\n') (maxLines : Nat) :
    trimToLastLines (logText lines) maxLines =
      (logText (lines.last (min lines.ended.length maxLines)),
        decide (maxLines < lines.ended.length)) := by
  have hlast : lines.last maxLines = lines.last (min lines.ended.length maxLines) := by
    unfold Pieced.last
    congr 2
    omega
  have hkept : (trimToLastLines (logText lines) maxLines).1 = logText (lines.last maxLines) := by
    apply String.toList_inj.mp
    rw [trimToLastLines_eq, toList_logText, toList_logText, Pieced.lastPieces_toList]
  refine Prod.ext (by rw [hkept, hlast]) ?_
  rw [trimToLastLines_dropped, toList_logText, Pieced.count_toList]

/-- What is trimmed has fewer lines than it had, or is what it was. -/
theorem trimToLastLines_dropped_iff (buffer : String) (maxLines : Nat) :
    (trimToLastLines buffer maxLines).2 = true ↔ (trimToLastLines buffer maxLines).1 ≠ buffer := by
  rw [trimToLastLines_dropped, decide_eq_true_iff]
  constructor
  · intro hmany hsame
    have hcount := count_trimToLastLines buffer maxLines
    rw [hsame] at hcount
    omega
  · intro hother
    by_contra hfew
    refine hother (String.toList_inj.mp ?_)
    rw [trimToLastLines_eq, lastPieces_of_le (by omega)]

theorem trimToLastLines_trimmed (buffer : String) (maxLines : Nat) :
    trimToLastLines (trimToLastLines buffer maxLines).1 maxLines =
      ((trimToLastLines buffer maxLines).1, false) := by
  refine Prod.ext (String.toList_inj.mp ?_) ?_
  · rw [trimToLastLines_eq, trimToLastLines_eq, lastPieces_lastPieces]
  · rw [trimToLastLines_dropped, count_trimToLastLines]
    exact decide_eq_false (by omega)

theorem trimToLastLines_append (first second : String) (maxLines : Nat) :
    (trimToLastLines ((trimToLastLines first maxLines).1 ++ second) maxLines).1 =
        (trimToLastLines (first ++ second) maxLines).1 ∧
      ((trimToLastLines first maxLines).2 ||
          (trimToLastLines ((trimToLastLines first maxLines).1 ++ second) maxLines).2) =
        (trimToLastLines (first ++ second) maxLines).2 := by
  constructor
  · apply String.toList_inj.mp
    rw [trimToLastLines_eq, String.toList_append, trimToLastLines_eq, lastPieces_append,
      trimToLastLines_eq, String.toList_append]
  · rw [trimToLastLines_dropped, trimToLastLines_dropped, trimToLastLines_dropped,
      String.toList_append, String.toList_append, List.count_append, List.count_append,
      count_trimToLastLines, ← Bool.decide_or, decide_eq_decide]
    omega

/-- The buffer that is shown is the trimmed text. -/
theorem appendLogToBottom_trims {rope : RopeLines} (hrope : rope.ByNewlines)
    (display text : String) :
    appendLogToBottom rope display text false = trimToLastLines (display ++ text) LOG_LINE_CAP := by
  refine Prod.ext ?_ ?_
  · rw [appendLogToBottom_eq hrope, if_neg Bool.false_ne_true]
  · rw [trimToLastLines_dropped, appendLogToBottom]
    dsimp only
    rw [hrope.linesLen, Nat.add_sub_cancel]
    split
    · rename_i hmany
      exact (decide_eq_true hmany.2).symm
    · rename_i hfew
      exact (decide_eq_false fun hmany => hfew ⟨rfl, hmany⟩).symm

/--
Every text is made of lines. Trimming keeps as many of the last ended lines as the
limit allows and the line that is not ended, and reports a drop just when the text
is another. What is trimmed stays as it is; trimming a text before more follows
does not show in the text that is trimmed next; and the buffer that is shown is the
trimmed text, unless the cap is lifted, where the rope counts lines by newlines.
-/
theorem log_trimming {rope : RopeLines} (hrope : rope.ByNewlines) :
    (∀ buffer, ∃ lines, logText lines = buffer) ∧
    (∀ lines maxLines, trimToLastLines (logText lines) maxLines =
      (logText (lines.last (min lines.ended.length maxLines)),
        decide (maxLines < lines.ended.length))) ∧
    (∀ buffer maxLines, (trimToLastLines buffer maxLines).2 = true ↔
      (trimToLastLines buffer maxLines).1 ≠ buffer) ∧
    (∀ buffer maxLines, trimToLastLines (trimToLastLines buffer maxLines).1 maxLines =
      ((trimToLastLines buffer maxLines).1, false)) ∧
    (∀ first second maxLines,
      (trimToLastLines ((trimToLastLines first maxLines).1 ++ second) maxLines).1 =
          (trimToLastLines (first ++ second) maxLines).1 ∧
        ((trimToLastLines first maxLines).2 ||
            (trimToLastLines ((trimToLastLines first maxLines).1 ++ second) maxLines).2) =
          (trimToLastLines (first ++ second) maxLines).2) ∧
    ∀ display text logFull, appendLogToBottom rope display text logFull =
      if logFull then (display ++ text, false)
      else trimToLastLines (display ++ text) LOG_LINE_CAP := by
  refine ⟨exists_logText, trimToLastLines_logText, trimToLastLines_dropped_iff,
    trimToLastLines_trimmed, trimToLastLines_append, fun display text logFull => ?_⟩
  cases logFull with
  | true => rfl
  | false => exact appendLogToBottom_trims hrope display text

theorem log_trimming_sample : appendLogToBottom newlineRope "a\n" "b\nc" false =
    trimToLastLines "a\nb\nc" LOG_LINE_CAP ∧ trimToLastLines "a\nb\nc" 1 = ("b\nc", true) := by
  obtain ⟨-, htrims, -, -, -, hshown⟩ := log_trimming byNewlines_newlineRope
  exact ⟨hshown "a\n" "b\nc" false, htrims ⟨[['a'], ['b']], ['c'], by decide, by decide⟩ 1⟩

end Fulgur
