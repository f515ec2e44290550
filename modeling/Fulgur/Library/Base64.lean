import Mathlib.Data.List.Basic

/-! # Base64

The standard alphabet with padding: three bytes become four characters, and the
last group is filled up with `=`. Decoding takes canonical text only.
-/

namespace Base64

/-- The character of a number below 64. -/
def char (n : Nat) : Char :=
  if n < 26 then Char.ofNat (65 + n)
  else if n < 52 then Char.ofNat (97 + (n - 26))
  else if n < 62 then Char.ofNat (48 + (n - 52))
  else if n = 62 then '+' else '/'

def value (c : Char) : Option Nat :=
  if 'A' ≤ c ∧ c ≤ 'Z' then some (c.toNat - 65)
  else if 'a' ≤ c ∧ c ≤ 'z' then some (c.toNat - 97 + 26)
  else if '0' ≤ c ∧ c ≤ '9' then some (c.toNat - 48 + 52)
  else if c = '+' then some 62
  else if c = '/' then some 63
  else none

def encode : List UInt8 → List Char
  | a :: b :: c :: rest =>
      char (a.toNat / 4) :: char (a.toNat % 4 * 16 + b.toNat / 16) ::
        char (b.toNat % 16 * 4 + c.toNat / 64) :: char (c.toNat % 64) :: encode rest
  | [a, b] =>
      [char (a.toNat / 4), char (a.toNat % 4 * 16 + b.toNat / 16), char (b.toNat % 16 * 4), '=']
  | [a] => [char (a.toNat / 4), char (a.toNat % 4 * 16), '=', '=']
  | [] => []

/-- Three bytes from four numbers. -/
def group (w x y z : Nat) : List UInt8 :=
  [UInt8.ofNat (w * 4 + x / 16), UInt8.ofNat (x % 16 * 16 + y / 4), UInt8.ofNat (y % 4 * 64 + z)]

/-- The bits beyond the bytes of a group that is cut short are zero. -/
def lastGroup (p q r s : Char) : Option (List UInt8) :=
  match value p, value q, value r, value s with
  | some w, some x, some y, some z => some (group w x y z)
  | some w, some x, some y, none =>
      if s = '=' ∧ y % 4 = 0 then some ((group w x y 0).take 2) else none
  | some w, some x, none, none =>
      if r = '=' ∧ s = '=' ∧ x % 16 = 0 then some ((group w x 0 0).take 1) else none
  | _, _, _, _ => none

def decode : List Char → Option (List UInt8)
  | [] => some []
  | [p, q, r, s] => lastGroup p q r s
  | p :: q :: r :: s :: rest =>
      match value p, value q, value r, value s, decode rest with
      | some w, some x, some y, some z, some bytes => some (group w x y z ++ bytes)
      | _, _, _, _, _ => none
  | _ => none

theorem value_char {n : Nat} (h : n < 64) : value (char n) = some n := by
  revert n
  decide

theorem value_pad : value '=' = none := by decide

/-- The bits of three bytes, cut into four numbers, give the bytes back. -/
theorem group_cut (a b c : UInt8) :
    group (a.toNat / 4) (a.toNat % 4 * 16 + b.toNat / 16) (b.toNat % 16 * 4 + c.toNat / 64)
      (c.toNat % 64) = [a, b, c] := by
  have ha := a.toNat_lt
  have hb := b.toNat_lt
  have hc := c.toNat_lt
  have hfirst : a.toNat / 4 * 4 + (a.toNat % 4 * 16 + b.toNat / 16) / 16 = a.toNat := by omega
  have hsecond : (a.toNat % 4 * 16 + b.toNat / 16) % 16 * 16 +
      (b.toNat % 16 * 4 + c.toNat / 64) / 4 = b.toNat := by omega
  have hthird : (b.toNat % 16 * 4 + c.toNat / 64) % 4 * 64 + c.toNat % 64 = c.toNat := by omega
  rw [group, hfirst, hsecond, hthird, UInt8.ofNat_toNat, UInt8.ofNat_toNat, UInt8.ofNat_toNat]

theorem decode_encode (bytes : List UInt8) : decode (encode bytes) = some bytes := by
  fun_induction encode bytes with
  | case1 a b c rest ih =>
      have ha := a.toNat_lt
      have hb := b.toNat_lt
      have hc := c.toNat_lt
      have hp := value_char (show a.toNat / 4 < 64 by omega)
      have hq := value_char (show a.toNat % 4 * 16 + b.toNat / 16 < 64 by omega)
      have hr := value_char (show b.toNat % 16 * 4 + c.toNat / 64 < 64 by omega)
      have hs := value_char (show c.toNat % 64 < 64 by omega)
      cases hrest : encode rest with
      | nil =>
          rw [hrest] at ih
          cases ih
          simp only [decode, lastGroup, hp, hq, hr, hs, group_cut]
      | cons d tail =>
          rw [hrest] at ih
          simp only [decode, hp, hq, hr, hs, ih, group_cut, List.cons_append, List.nil_append]
  | case2 a b =>
      have ha := a.toNat_lt
      have hb := b.toNat_lt
      have hp := value_char (show a.toNat / 4 < 64 by omega)
      have hq := value_char (show a.toNat % 4 * 16 + b.toNat / 16 < 64 by omega)
      have hr := value_char (show b.toNat % 16 * 4 < 64 by omega)
      have hcut := group_cut a b 0
      have hzero : b.toNat % 16 * 4 % 4 = 0 := by omega
      simp only [decode, lastGroup, hp, hq, hr, value_pad, hzero, true_and, if_true]
      exact congrArg (fun group => some (group.take 2)) hcut
  | case3 a =>
      have ha := a.toNat_lt
      have hp := value_char (show a.toNat / 4 < 64 by omega)
      have hq := value_char (show a.toNat % 4 * 16 < 64 by omega)
      have hcut := group_cut a 0 0
      have hzero : a.toNat % 4 * 16 % 16 = 0 := by omega
      simp only [decode, lastGroup, hp, hq, value_pad, hzero, true_and, if_true]
      exact congrArg (fun group => some (group.take 1)) hcut
  | case4 => rfl

theorem length_encode (bytes : List UInt8) :
    (encode bytes).length = 4 * ((bytes.length + 2) / 3) := by
  fun_induction encode bytes with
  | case1 a b c rest ih =>
      simp only [List.length_cons, ih]
      omega
  | case2 a b => simp
  | case3 a => simp
  | case4 => rfl

theorem utf8Size_char {n : Nat} (h : n < 64) : (char n).utf8Size = 1 := by
  revert n
  decide

/-- The characters of a text: those of numbers, and the padding. -/
theorem mem_encode {bytes : List UInt8} {c : Char} (h : c ∈ encode bytes) :
    c = '=' ∨ ∃ n < 64, c = char n := by
  fun_induction encode bytes with
  | case1 x y z rest ih =>
      have hx := x.toNat_lt
      have hy := y.toNat_lt
      have hz := z.toNat_lt
      simp only [List.mem_cons] at h
      rcases h with rfl | rfl | rfl | rfl | h
      · exact Or.inr ⟨_, by omega, rfl⟩
      · exact Or.inr ⟨_, by omega, rfl⟩
      · exact Or.inr ⟨_, by omega, rfl⟩
      · exact Or.inr ⟨_, by omega, rfl⟩
      · exact ih h
  | case2 x y =>
      have hx := x.toNat_lt
      have hy := y.toNat_lt
      simp only [List.mem_cons, List.not_mem_nil, or_false] at h
      rcases h with rfl | rfl | rfl | rfl
      · exact Or.inr ⟨_, by omega, rfl⟩
      · exact Or.inr ⟨_, by omega, rfl⟩
      · exact Or.inr ⟨_, by omega, rfl⟩
      · exact Or.inl rfl
  | case3 x =>
      have hx := x.toNat_lt
      simp only [List.mem_cons, List.not_mem_nil, or_false] at h
      rcases h with rfl | rfl | rfl | rfl
      · exact Or.inr ⟨_, by omega, rfl⟩
      · exact Or.inr ⟨_, by omega, rfl⟩
      · exact Or.inl rfl
      · exact Or.inl rfl
  | case4 => cases h

theorem utf8Size_of_mem_encode {bytes : List UInt8} {c : Char} (h : c ∈ encode bytes) :
    c.utf8Size = 1 := by
  rcases mem_encode h with rfl | ⟨n, hn, rfl⟩
  · decide
  · exact utf8Size_char hn

theorem notMem_encode {bytes : List UInt8} {c : Char} (hpad : c ≠ '=') (hvalue : value c = none) :
    c ∉ encode bytes := by
  intro h
  rcases mem_encode h with rfl | ⟨n, hn, rfl⟩
  · exact hpad rfl
  · rw [value_char hn] at hvalue
    cases hvalue

/-- Every character takes one byte. -/
theorem utf8ByteSize_encode (bytes : List UInt8) :
    (String.ofList (encode bytes)).utf8ByteSize = 4 * ((bytes.length + 2) / 3) := by
  rw [← length_encode]
  generalize htext : encode bytes = text
  have hsize : ∀ c ∈ text, c.utf8Size = 1 := htext ▸ fun c => utf8Size_of_mem_encode
  clear htext
  induction text with
  | nil => rfl
  | cons c text ih =>
      have hrest := ih fun d hd => hsize d (List.mem_cons_of_mem c hd)
      rw [String.ofList_cons, String.utf8ByteSize_append, hrest, String.utf8ByteSize_singleton,
        hsize c List.mem_cons_self, List.length_cons, Nat.add_comm]

end Base64
