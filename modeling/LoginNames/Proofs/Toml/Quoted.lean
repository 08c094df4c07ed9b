import LoginNames.Toml.Quoted
import Mathlib

/-! # Spelling quoted text

A basic string spells its text character by character: as it is, by a backslash and a letter, or by
its number in hexadecimal. Whichever of them is taken for each character, the text is read back. -/

set_option autoImplicit false

namespace LoginNames.Toml.Quoted

/-- What can stand for a character in a basic string. -/
inductive Spells : Char → List Char → Prop
  | plain {c : Char} (hplain : isPlain c = true) (hquote : c ≠ '"') (hbackslash : c ≠ '\\') :
      Spells c [c]
  | short {c letter : Char} (h : simpleEscape? letter = some c) : Spells c ['\\', letter]
  | hexadecimal {c letter : Char} {digits : List Char}
      (hwidth : hexWidth? letter = some digits.length)
      (hnumber : hexNumber? digits = some c.toNat) : Spells c ('\\' :: letter :: digits)

/-- A way to spell each character. -/
structure Escaping where
  spell : Char → List Char
  spells : ∀ c, Spells c (spell c)

def Escaping.body (e : Escaping) (text : List Char) : List Char := text.flatMap e.spell

theorem simpleEscape?_of_hexWidth? {letter : Char} {width : Nat}
    (h : hexWidth? letter = some width) : simpleEscape? letter = none := by
  unfold hexWidth? at h
  split at h
  · rfl
  · rfl
  · rfl
  · cases h

theorem escape?_short {c letter : Char} (h : simpleEscape? letter = some c) (rest : List Char) :
    escape? (letter :: rest) = some (c, rest) := by
  simp only [escape?, h]

theorem escape?_hexadecimal {c letter : Char} {digits : List Char}
    (hwidth : hexWidth? letter = some digits.length) (hnumber : hexNumber? digits = some c.toNat)
    (rest : List Char) : escape? (letter :: (digits ++ rest)) = some (c, rest) := by
  have hvalid : c.toNat.isValidChar := c.valid
  simp [escape?, simpleEscape?_of_hexWidth? hwidth, hwidth, hnumber, hvalid, Char.ofNat_toNat]

theorem basic_plain {c : Char} (hplain : isPlain c = true) (hquote : c ≠ '"')
    (hbackslash : c ≠ '\\') (rest : List Char) : basic (c :: rest) = (basic rest).push c := by
  have hline : c ≠ '\n' := by
    rintro rfl
    exact absurd hplain (by decide)
  -- The character is none of those that are matched before the plain ones.
  rw [basic.eq_def]
  simp [hplain]

theorem basic_escape {c : Char} {text rest : List Char} (h : escape? text = some (c, rest)) :
    basic ('\\' :: text) = (basic rest).push c := by
  rw [basic]
  split
  next hnone => rw [h] at hnone; cases hnone
  next hsome => rw [h] at hsome; cases hsome; rfl

theorem Spells.basic_append {c : Char} {spelled : List Char} (h : Spells c spelled)
    (rest : List Char) : basic (spelled ++ rest) = (basic rest).push c := by
  cases h with
  | plain hplain hquote hbackslash => exact basic_plain hplain hquote hbackslash rest
  | short h => exact basic_escape (escape?_short h rest)
  | hexadecimal hwidth hnumber => exact basic_escape (escape?_hexadecimal hwidth hnumber rest)

theorem Escaping.basic_body (e : Escaping) (text rest : List Char) :
    basic (e.body text ++ '"' :: rest) = (some text, rest) := by
  induction text with
  | nil => simp [body, basic]
  | cons c text ih =>
    rw [body, List.flatMap_cons, List.append_assoc, (e.spells c).basic_append, ← body, ih]
    rfl

def shortLetter? : Char → Option Char
  | '"' => some '"'
  | '\\' => some '\\'
  | '\n' => some 'n'
  | '\r' => some 'r'
  | '\t' => some 't'
  | '\x08' => some 'b'
  | '\x0c' => some 'f'
  | _ => none

theorem simpleEscape?_of_shortLetter? {c letter : Char} (h : shortLetter? c = some letter) :
    simpleEscape? letter = some c := by
  unfold shortLetter? at h
  split at h <;> cases h <;> rfl

/-- The four digits of a number of two hexadecimal digits. -/
def fourDigits (n : Nat) : List Char := ['0', '0', Nat.digitChar (n / 16), Nat.digitChar (n % 16)]

theorem toNat_lt_of_not_isPlain {c : Char} (h : isPlain c = false) : c.toNat < 128 := by
  by_contra hlarge
  have hspace : ' ' ≤ c := by
    rw [Char.le_def, UInt32.le_iff_toNat_le]
    exact le_trans (by decide) (Nat.le_of_not_lt hlarge)
  have hdelete : c ≠ '\x7f' := by
    rintro rfl
    exact hlarge (by decide)
  simp [isPlain, hspace, hdelete] at h

theorem hexNumber?_fourDigits {n : Nat} (h : n < 128) : hexNumber? (fourDigits n) = some n := by
  revert h
  revert n
  decide

/-- Quotes, backslashes and control characters are escaped, by a letter where they have one. -/
def Escaping.usual : Escaping where
  spell c :=
    match shortLetter? c with
    | some letter => ['\\', letter]
    | none => if isPlain c then [c] else '\\' :: 'u' :: fourDigits c.toNat
  spells c := by
    cases hletter : shortLetter? c with
    | some letter => exact .short (simpleEscape?_of_shortLetter? hletter)
    | none =>
      cases hplain : isPlain c with
      | true =>
        refine .plain hplain ?_ ?_
        · rintro rfl
          cases hletter
        · rintro rfl
          cases hletter
      | false =>
        exact .hexadecimal rfl (hexNumber?_fourDigits (toNat_lt_of_not_isPlain hplain))

end LoginNames.Toml.Quoted
