import Mathlib.Data.List.Basic

/-! # Records of fields as delimited text

A field is quoted when it holds the delimiter, a quote or a line break, and so is
the one field of a record that would be an empty line. The reader is a machine
over the characters. It skips empty lines, and reads back what was written.
-/

namespace Csv

/-! ## Writer -/

/-- A character that a bare field may not hold. -/
def special (delimiter c : Char) : Bool := c = delimiter || c = '"' || c = '\n' || c = '\r'

/-- A quote inside quotes is written twice. -/
def doubled : List Char → List Char
  | [] => []
  | '"' :: cs => '"' :: '"' :: doubled cs
  | c :: cs => c :: doubled cs

def writeField (delimiter : Char) (field : List Char) : List Char :=
  if field.any (special delimiter) then '"' :: (doubled field ++ ['"']) else field

def writeFields (delimiter : Char) : List (List Char) → List Char
  | [] => []
  | [field] => writeField delimiter field
  | field :: fields => writeField delimiter field ++ delimiter :: writeFields delimiter fields

def writeRecord (delimiter : Char) (record : List (List Char)) : List Char :=
  (if record = [] ∨ record = [[]] then ['"', '"'] else writeFields delimiter record) ++ ['\n']

/-! ## Reader -/

/-- Where in a record the reader is. -/
inductive Place where
  | recordStart
  | fieldStart
  | bare
  | quoted
  /-- After a quote inside quotes: it ends the field, or is one of two. -/
  | quoteSeen
deriving DecidableEq

def Place.next (place : Place) (c : Char) : Place × List Char :=
  if c = '"' then
    match place with
    | .recordStart | .fieldStart => (.quoted, [])
    | .bare => (.bare, [c])
    | .quoted => (.quoteSeen, [])
    | .quoteSeen => (.quoted, [c])
  else
    match place with
    | .quoted => (.quoted, [c])
    | _ => (.bare, [c])

def read (delimiter : Char) : Place → List Char → List (List Char) → List Char →
    List (List (List Char))
  | .recordStart, _, _, [] => []
  | _, field, record, [] => [record ++ [field]]
  | place, field, record, c :: cs =>
      if place ≠ .quoted ∧ (c = '\n' ∨ c = '\r') then
        if place = .recordStart then read delimiter .recordStart [] [] cs
        else (record ++ [field]) :: read delimiter .recordStart [] [] cs
      else if place ≠ .quoted ∧ c = delimiter then
        read delimiter .fieldStart [] (record ++ [field]) cs
      else read delimiter (place.next c).1 (field ++ (place.next c).2) record cs

def readAll (delimiter : Char) (text : List Char) : List (List (List Char)) :=
  read delimiter .recordStart [] [] text

/-! ## Reading what was written -/

/-- A delimiter that is no quote and no line break. -/
structure Separates (delimiter : Char) : Prop where
  quote : delimiter ≠ '"'
  newline : delimiter ≠ '\n'
  carriage : delimiter ≠ '\r'

variable {delimiter : Char} {place : Place} {field tail : List Char} {record : List (List Char)}

theorem read_newline (hquoted : place ≠ .quoted) (hstart : place ≠ .recordStart) :
    read delimiter place field record ('\n' :: tail) =
      (record ++ [field]) :: readAll delimiter tail := by
  rw [read, if_pos ⟨hquoted, .inl rfl⟩, if_neg hstart, readAll]

theorem read_delimiter (hsep : Separates delimiter) (hquoted : place ≠ .quoted) :
    read delimiter place field record (delimiter :: tail) =
      read delimiter .fieldStart [] (record ++ [field]) tail := by
  have hbreak : ¬(delimiter = '\n' ∨ delimiter = '\r') := by
    rintro (h | h)
    · exact hsep.newline h
    · exact hsep.carriage h
  rw [read, if_neg fun h => hbreak h.2, if_pos ⟨hquoted, rfl⟩]

/-- A character that is neither a line break nor the delimiter belongs to the field. -/
theorem read_char {c : Char} (hc : place = .quoted ∨ (c ≠ delimiter ∧ c ≠ '\n' ∧ c ≠ '\r')) :
    read delimiter place field record (c :: tail) =
      read delimiter (place.next c).1 (field ++ (place.next c).2) record tail := by
  rw [read]
  rcases hc with rfl | ⟨hdelimiter, hnewline, hcarriage⟩
  · simp
  · simp [hdelimiter, hnewline, hcarriage]

theorem not_special {c : Char} (h : special delimiter c = false) :
    c ≠ delimiter ∧ c ≠ '"' ∧ c ≠ '\n' ∧ c ≠ '\r' := by
  simpa [special, not_or, and_assoc] using h

theorem read_bare (cs : List Char) (hplain : cs.any (special delimiter) = false) :
    read delimiter .bare field record (cs ++ tail) =
      read delimiter .bare (field ++ cs) record tail := by
  induction cs generalizing field with
  | nil => simp
  | cons c cs ih =>
      simp only [List.any_cons, Bool.or_eq_false_iff] at hplain
      obtain ⟨hdelimiter, hquote, hnewline, hcarriage⟩ := not_special hplain.1
      have hnext : Place.next .bare c = (.bare, [c]) := by
        simp [Place.next]
      rw [List.cons_append, read_char (.inr ⟨hdelimiter, hnewline, hcarriage⟩), hnext, ih hplain.2,
        List.append_assoc, List.singleton_append]

theorem doubled_cons {c : Char} (cs : List Char) (h : c ≠ '"') :
    doubled (c :: cs) = c :: doubled cs := by
  rw [doubled]
  exact h

theorem read_doubled (hsep : Separates delimiter) (cs : List Char) :
    read delimiter .quoted field record (doubled cs ++ tail) =
      read delimiter .quoted (field ++ cs) record tail := by
  induction cs generalizing field with
  | nil => simp [doubled]
  | cons c cs ih =>
      by_cases hquote : c = '"'
      · subst hquote
        have hfirst : read delimiter .quoted field record ('"' :: '"' :: (doubled cs ++ tail)) =
            read delimiter .quoteSeen (field ++ []) record ('"' :: (doubled cs ++ tail)) :=
          read_char (.inl rfl)
        have hsecond : read delimiter .quoteSeen field record ('"' :: (doubled cs ++ tail)) =
            read delimiter .quoted (field ++ ['"']) record (doubled cs ++ tail) :=
          read_char (.inr ⟨hsep.quote.symm, by decide, by decide⟩)
        rw [List.append_nil] at hfirst
        rw [doubled, List.cons_append, List.cons_append, hfirst, hsecond, ih, List.append_assoc,
          List.singleton_append]
      · have hnext : Place.next .quoted c = (.quoted, [c]) := by
          simp [Place.next, hquote]
        rw [doubled_cons cs hquote, List.cons_append, read_char (.inl rfl), hnext, ih,
          List.append_assoc, List.singleton_append]

/-- A place where the field may end. -/
def Place.Ends (place : Place) : Prop := place ≠ .quoted ∧ place ≠ .recordStart

theorem read_writeField (hsep : Separates delimiter) (written : List Char)
    (record : List (List Char)) (tail : List Char) :
    ∃ place, Place.Ends place ∧
      read delimiter .fieldStart [] record (writeField delimiter written ++ tail) =
        read delimiter place written record tail := by
  unfold writeField
  split
  · refine ⟨.quoteSeen, ⟨nofun, nofun⟩, ?_⟩
    have hopen : read delimiter .fieldStart [] record
        ('"' :: (doubled written ++ ('"' :: tail))) =
          read delimiter .quoted [] record (doubled written ++ ('"' :: tail)) :=
      read_char (.inr ⟨hsep.quote.symm, by decide, by decide⟩)
    have hclose : read delimiter .quoted written record ('"' :: tail) =
        read delimiter .quoteSeen (written ++ []) record tail := read_char (.inl rfl)
    rw [List.append_nil] at hclose
    rw [List.cons_append, List.append_assoc, List.singleton_append, hopen, read_doubled hsep,
      List.nil_append, hclose]
  · rename_i hplain
    rw [Bool.not_eq_true] at hplain
    cases written with
    | nil => exact ⟨.fieldStart, ⟨nofun, nofun⟩, rfl⟩
    | cons c cs =>
        refine ⟨.bare, ⟨nofun, nofun⟩, ?_⟩
        simp only [List.any_cons, Bool.or_eq_false_iff] at hplain
        obtain ⟨hdelimiter, hquote, hnewline, hcarriage⟩ := not_special hplain.1
        have hnext : Place.next .fieldStart c = (.bare, [c]) := by
          simp [Place.next, hquote]
        rw [List.cons_append, read_char (.inr ⟨hdelimiter, hnewline, hcarriage⟩), hnext,
          read_bare cs hplain.2]
        rfl

theorem read_writeFields (hsep : Separates delimiter) {fields : List (List Char)}
    (hfields : fields ≠ []) (record : List (List Char)) (tail : List Char) :
    read delimiter .fieldStart [] record (writeFields delimiter fields ++ '\n' :: tail) =
      (record ++ fields) :: readAll delimiter tail := by
  induction fields generalizing record with
  | nil => exact absurd rfl hfields
  | cons written fields ih =>
      cases fields with
      | nil =>
          obtain ⟨place, hends, hread⟩ := read_writeField hsep written record ('\n' :: tail)
          rw [writeFields, hread, read_newline hends.1 hends.2]
      | cons following fields =>
          obtain ⟨place, hends, hread⟩ := read_writeField hsep written record
            (delimiter :: (writeFields delimiter (following :: fields) ++ '\n' :: tail))
          rw [writeFields, List.append_assoc, List.cons_append, hread,
            read_delimiter hsep hends.1, ih (List.cons_ne_nil _ _), List.append_assoc,
            List.singleton_append]
          · exact nofun

/-- A record starts with its first field when it is no empty line. -/
theorem read_recordStart {c : Char} (hc : c ≠ '\n' ∧ c ≠ '\r') :
    read delimiter .recordStart [] [] (c :: tail) =
      read delimiter .fieldStart [] [] (c :: tail) := by
  have hnext : Place.next .recordStart c = Place.next .fieldStart c := rfl
  simp [read, hc.1, hc.2, hnext]

/-- The line of a record starts with a character of it, so it is not taken for an empty one. -/
theorem exists_writeFields_cons (hsep : Separates delimiter) {record : List (List Char)}
    (hnil : record ≠ []) (hempty : record ≠ [[]]) :
    ∃ c cs, writeFields delimiter record = c :: cs ∧ c ≠ '\n' ∧ c ≠ '\r' := by
  have hfield : ∀ written, written ≠ [] →
      ∃ c cs, writeField delimiter written = c :: cs ∧ c ≠ '\n' ∧ c ≠ '\r' := by
    intro written hwritten
    unfold writeField
    split
    · exact ⟨'"', _, rfl, by decide, by decide⟩
    · rename_i hplain
      obtain ⟨c, cs, rfl⟩ := List.exists_cons_of_ne_nil hwritten
      rw [Bool.not_eq_true, List.any_cons, Bool.or_eq_false_iff] at hplain
      obtain ⟨-, -, hnewline, hcarriage⟩ := not_special hplain.1
      exact ⟨c, cs, rfl, hnewline, hcarriage⟩
  match record with
  | [] => exact absurd rfl hnil
  | [written] =>
      rw [writeFields]
      exact hfield written fun h => hempty (h ▸ rfl)
  | [] :: following :: fields =>
      refine ⟨delimiter, writeFields delimiter (following :: fields), ?_, hsep.newline,
        hsep.carriage⟩
      rfl
  | (c :: cs) :: following :: fields =>
      obtain ⟨first, rest, hfirst, hbreak⟩ := hfield (c :: cs) (List.cons_ne_nil c cs)
      refine ⟨first, rest ++ delimiter :: writeFields delimiter (following :: fields), ?_, hbreak⟩
      rw [writeFields, hfirst, List.cons_append]
      exact nofun

theorem readAll_writeRecord (hsep : Separates delimiter) {record : List (List Char)}
    (hrecord : record ≠ []) (tail : List Char) :
    readAll delimiter (writeRecord delimiter record ++ tail) =
      record :: readAll delimiter tail := by
  unfold writeRecord
  by_cases hempty : record = [[]]
  · subst hempty
    have hopen : read delimiter .fieldStart [] [] ('"' :: '"' :: '\n' :: tail) =
        read delimiter .quoted [] [] ('"' :: '\n' :: tail) :=
      read_char (.inr ⟨hsep.quote.symm, by decide, by decide⟩)
    have hclose : read delimiter .quoted [] [] ('"' :: '\n' :: tail) =
        read delimiter .quoteSeen [] [] ('\n' :: tail) := read_char (.inl rfl)
    calc readAll delimiter ('"' :: '"' :: '\n' :: tail)
        = read delimiter .fieldStart [] [] ('"' :: '"' :: '\n' :: tail) :=
          read_recordStart ⟨by decide, by decide⟩
      _ = read delimiter .quoteSeen [] [] ('\n' :: tail) := hopen.trans hclose
      _ = [[]] :: readAll delimiter tail := read_newline nofun nofun
  · obtain ⟨c, cs, hline, hbreak⟩ := exists_writeFields_cons hsep hrecord hempty
    have hread := read_writeFields hsep hrecord [] tail
    rw [hline, List.cons_append] at hread
    rw [if_neg (by simp [hrecord, hempty]), hline, readAll, List.cons_append, List.cons_append,
      read_recordStart hbreak, List.append_assoc, List.singleton_append, hread, List.nil_append]

end Csv
