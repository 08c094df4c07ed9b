import LoginNames.Numeral

/-! # Placeholders

A template marks where a name goes by the token of its field, perhaps followed by a truncation
group: an opening parenthesis, at least one digit, and anything up to the first closing
parenthesis. `match?` reads the placeholder at the start of a text and says how many bytes it
spans; the span is never empty and never leaves the text. -/

set_option autoImplicit false

namespace LoginNames

inductive NameField
  | firstname
  | lastname
deriving DecidableEq

namespace NameField

def word : NameField → String
  | firstname => "firstnames"
  | lastname => "lastnames"

def token : NameField → Bytes
  | firstname => Bytes.ofString "\x7bfirstname\x7d"
  | lastname => Bytes.ofString "\x7blastname\x7d"

def pick (field : NameField) (first last : Bytes) : Bytes :=
  match field with
  | firstname => first
  | lastname => last

theorem token_length_pos (field : NameField) : 0 < field.token.length := by
  cases field <;> decide

end NameField

structure Placeholder where
  field : NameField
  limit : Option Nat
deriving DecidableEq

/-- A placeholder found at the start of a text, and the bytes that it spans. -/
structure PlaceholderMatch where
  placeholder : Placeholder
  width : Nat
deriving DecidableEq

namespace Placeholder

def render (p : Placeholder) (first last : Bytes) : Bytes :=
  match p.limit with
  | none => p.field.pick first last
  | some n => (p.field.pick first last).take n

def opening : UInt8 := 40

def closing : UInt8 := 41

/-- A group reaches through the first closing parenthesis, or to the end of the text. -/
def groupWidth (after : Bytes) : Nat :=
  match after.dropWhile (· != closing) with
  | [] => after.length
  | _ :: _ => (after.takeWhile (· != closing)).length + 1

def truncation? : Bytes → Option (Nat × Nat)
  | [] => none
  | c :: tail =>
    let digits := tail.takeWhile Numeral.isDigit
    if c = opening ∧ digits ≠ [] then
      some (Numeral.saturating digits, groupWidth (c :: tail))
    else none

def matchField? (field : NameField) (rest : Bytes) : Option PlaceholderMatch :=
  (field.token.isPrefixOf? rest).map fun after =>
    match truncation? after with
    | some (n, width) => ⟨⟨field, some n⟩, field.token.length + width⟩
    | none => ⟨⟨field, none⟩, field.token.length⟩

def match? (rest : Bytes) : Option PlaceholderMatch :=
  matchField? .firstname rest <|> matchField? .lastname rest

@[simp] theorem isPrefixOf?_nil (rest : Bytes) : List.isPrefixOf? [] rest = some rest := by
  cases rest <;> rfl

@[simp] theorem isPrefixOf?_cons_cons (b c : UInt8) (token rest : Bytes) :
    (b :: token).isPrefixOf? (c :: rest) = if b = c then token.isPrefixOf? rest else none := by
  change (if (b == c) = true then token.isPrefixOf? rest else none) = _
  simp only [beq_iff_eq]

theorem isPrefixOf?_eq_some {token rest after : Bytes} :
    token.isPrefixOf? rest = some after ↔ rest = token ++ after := by
  induction token generalizing rest with
  | nil => simp [eq_comm]
  | cons b token ih =>
    cases rest with
    | nil =>
      have hnone : (b :: token).isPrefixOf? ([] : Bytes) = none := rfl
      simp [hnone]
    | cons c rest =>
      by_cases h : b = c
      · simp [h, ih]
      · simp [h, Ne.symm h]

theorem groupWidth_le (after : Bytes) : groupWidth after ≤ after.length := by
  unfold groupWidth
  have h : after.takeWhile (· != closing) ++ after.dropWhile (· != closing) = after :=
    List.takeWhile_append_dropWhile
  have hl := congrArg List.length h
  rw [List.length_append] at hl
  split
  · exact Nat.le_refl _
  · rename_i heq
    rw [heq, List.length_cons] at hl
    omega

theorem truncation?_width_le {after : Bytes} {n width : Nat}
    (h : truncation? after = some (n, width)) : width ≤ after.length := by
  cases after with
  | nil => simp [truncation?] at h
  | cons c tail =>
    simp only [truncation?] at h
    split at h
    · cases h
      exact groupWidth_le _
    · cases h

theorem matchField?_width {field : NameField} {rest : Bytes} {m : PlaceholderMatch}
    (h : matchField? field rest = some m) : 0 < m.width ∧ m.width ≤ rest.length := by
  obtain ⟨after, ha, rfl⟩ := Option.map_eq_some_iff.1 h
  have hrest := congrArg List.length (isPrefixOf?_eq_some.1 ha)
  rw [List.length_append] at hrest
  have hpos := field.token_length_pos
  cases ht : truncation? after with
  | none => simp only; omega
  | some t =>
    obtain ⟨n, width⟩ := t
    have := truncation?_width_le ht
    simp only
    omega

theorem match?_width {rest : Bytes} {m : PlaceholderMatch} (h : match? rest = some m) :
    0 < m.width ∧ m.width ≤ rest.length := by
  cases hf : matchField? .firstname rest with
  | some first =>
    simp only [match?, hf, Option.orElse_eq_orElse, Option.orElse_some, Option.some.injEq] at h
    exact h ▸ matchField?_width hf
  | none =>
    simp only [match?, hf, Option.orElse_eq_orElse, Option.orElse_none] at h
    exact matchField?_width h

end Placeholder

end LoginNames
