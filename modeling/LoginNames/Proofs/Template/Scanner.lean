import LoginNames.Proofs.Template.Grammar
import LoginNames.Template

/-! # The scanner of templates

The rules by which a template is filled in, one position after the other: at each position the
first of five rules that fits says what is written and where the scan goes on. Nothing is held
back, and no rule looks at what was written. The placeholder that a template has at a position
says the same as the rules. -/

set_option autoImplicit false

namespace LoginNames.Scanner

open Placeholder (opening closing groupWidth)

/-- Goes past the first closing parenthesis, or to the end where there is none. -/
def behindClosing (text : Bytes) : Bytes := (text.dropWhile (· != closing)).tail

/-- The token, an opening parenthesis and at least one digit: so many bytes of the name are
    written, and the scan goes on behind the group. -/
def truncated? (field : NameField) (name text : Bytes) : Option (Bytes × Bytes) :=
  match (field.token ++ [opening]).isPrefixOf? text with
  | none => none
  | some group =>
    let digits := group.takeWhile Numeral.isDigit
    if digits = [] then none
    else some (name.take (min (Numeral.ofBytes digits) Numeral.maxWord),
      behindClosing (group.dropWhile Numeral.isDigit))

/-- The token: the name is written, and the scan goes on behind the token. -/
def plain? (field : NameField) (name text : Bytes) : Option (Bytes × Bytes) :=
  (field.token.isPrefixOf? text).map fun behind => (name, behind)

def placeholder? (first last text : Bytes) : Option (Bytes × Bytes) :=
  truncated? .firstname first text <|> plain? .firstname first text <|>
    truncated? .lastname last text <|> plain? .lastname last text

/-- Where no placeholder stands, the byte itself is written. -/
def move (first last : Bytes) (b : UInt8) (tail : Bytes) : Bytes × Bytes :=
  (placeholder? first last (b :: tail)).getD ([b], tail)

theorem behindClosing_append {skipped : Bytes} (h : closing ∉ skipped) (text : Bytes) :
    behindClosing (skipped ++ text) = behindClosing text := by
  rw [behindClosing, List.dropWhile_append_of_pos (forall_bne.mpr h), behindClosing]

theorem drop_groupWidth (after : Bytes) : after.drop (groupWidth after) = behindClosing after := by
  have hsplit : after.takeWhile (· != closing) ++ after.dropWhile (· != closing) = after :=
    List.takeWhile_append_dropWhile
  unfold groupWidth behindClosing
  cases hdrop : after.dropWhile (· != closing) with
  | nil => simp
  | cons b tail =>
    rw [hdrop] at hsplit
    generalize after.takeWhile (· != closing) = before at hsplit ⊢
    subst hsplit
    simp

/-- The digits of a group hold no closing parenthesis, so looking for it may start behind them. -/
theorem behindClosing_group (group : Bytes) :
    behindClosing (opening :: group) = behindClosing (group.dropWhile Numeral.isDigit) := by
  have hskip : closing ∉ opening :: group.takeWhile Numeral.isDigit :=
    Placeholder.closing_not_mem_group fun _ => List.mem_takeWhile_imp
  have hgroup : opening :: group = (opening :: group.takeWhile Numeral.isDigit) ++
      group.dropWhile Numeral.isDigit := by
    rw [List.cons_append, List.takeWhile_append_dropWhile]
  rw [hgroup, behindClosing_append hskip]

theorem isPrefixOf?_append (a b c : Bytes) :
    (a ++ b).isPrefixOf? (a ++ c) = b.isPrefixOf? c := by
  induction a with
  | nil => rfl
  | cons x a ih => simpa using ih

theorem truncated?_token (field : NameField) (name after : Bytes) :
    truncated? field name (field.token ++ after) =
      (Placeholder.truncation? after).map fun (n, width) => (name.take n, after.drop width) := by
  unfold truncated?
  rw [isPrefixOf?_append]
  cases after with
  | nil => rfl
  | cons c group =>
    by_cases hc : c = opening
    · subst c
      by_cases hdigits : group.takeWhile Numeral.isDigit = []
      · simp [Placeholder.truncation?, hdigits]
      · simp only [Placeholder.isPrefixOf?_cons_cons, Placeholder.isPrefixOf?_nil,
          Placeholder.truncation?, hdigits, if_true, if_false, ne_eq, not_false_eq_true, and_self,
          Option.map_some, drop_groupWidth, behindClosing_group, Numeral.saturating_eq]
    · simp [Placeholder.truncation?, hc, Ne.symm hc]

theorem truncated?_none {field : NameField} {text : Bytes} (name : Bytes)
    (h : field.token.isPrefixOf? text = none) : truncated? field name text = none := by
  unfold truncated?
  cases hgroup : (field.token ++ [opening]).isPrefixOf? text with
  | none => rfl
  | some group =>
    have htext := Placeholder.isPrefixOf?_eq_some.1 hgroup
    rw [List.append_assoc] at htext
    rw [Placeholder.isPrefixOf?_eq_some.2 htext] at h
    cases h

/-- One field's two rules together are what the placeholder of that field says. -/
theorem rules_eq_matchField? (field : NameField) (first last text : Bytes) :
    (truncated? field (field.pick first last) text <|>
        plain? field (field.pick first last) text) =
      (Placeholder.matchField? field text).map fun m =>
        (m.placeholder.render first last, text.drop m.width) := by
  unfold plain? Placeholder.matchField?
  cases htoken : field.token.isPrefixOf? text with
  | none =>
    rw [truncated?_none _ htoken]
    rfl
  | some after =>
    have htext := Placeholder.isPrefixOf?_eq_some.1 htoken
    subst text
    rw [truncated?_token]
    cases htruncation : Placeholder.truncation? after with
    | none => simp [htruncation, Placeholder.render]
    | some group => simp [htruncation, Placeholder.render, List.drop_append]

theorem placeholder?_eq_match? (first last text : Bytes) :
    placeholder? first last text = (Placeholder.match? text).map fun m =>
      (m.placeholder.render first last, text.drop m.width) := by
  have hfirst := rules_eq_matchField? .firstname first last text
  have hlast := rules_eq_matchField? .lastname first last text
  simp only [NameField.pick] at hfirst hlast
  have hassoc (a b c : Option (Bytes × Bytes)) : (a <|> b <|> c) = ((a <|> b) <|> c) := by
    cases a <;> rfl
  rw [placeholder?, hassoc, hfirst, hlast, Placeholder.match?]
  cases Placeholder.matchField? .firstname text <;> rfl

theorem move_eq (first last : Bytes) (b : UInt8) (tail : Bytes) :
    move first last b tail = match Placeholder.match? (b :: tail) with
      | some m => (m.placeholder.render first last, (b :: tail).drop m.width)
      | none => ([b], tail) := by
  rw [move, placeholder?_eq_match?]
  cases Placeholder.match? (b :: tail) <;> rfl

theorem move_length (first last : Bytes) (b : UInt8) (tail : Bytes) :
    (move first last b tail).2.length ≤ tail.length := by
  rw [move_eq]
  cases hmatch : Placeholder.match? (b :: tail) with
  | none => exact Nat.le_refl _
  | some m =>
    have := Placeholder.match?_width hmatch
    simp only [List.length_drop, List.length_cons]
    omega

/-- Writes a template with the names filled in, from left to right. -/
def scan (first last : Bytes) : Bytes → Bytes
  | [] => []
  | b :: tail => (move first last b tail).1 ++ scan first last (move first last b tail).2
termination_by text => text.length
decreasing_by exact Nat.lt_succ_of_le (move_length first last b tail)

@[simp] theorem scan_nil (first last : Bytes) : scan first last [] = [] := by
  rw [scan]

/-- A placeholder is passed whole, and the names that it stands for are not scanned. -/
theorem scan_of_match (first last : Bytes) {text : Bytes} {m : PlaceholderMatch}
    (h : Placeholder.match? text = some m) :
    scan first last text =
      m.placeholder.render first last ++ scan first last (text.drop m.width) := by
  cases text with
  | nil =>
    have := Placeholder.match?_width h
    simp only [List.length_nil] at this
    omega
  | cons b tail => rw [scan, move_eq, h]

theorem scan_of_literal (first last : Bytes) {b : UInt8} {tail : Bytes}
    (h : Placeholder.match? (b :: tail) = none) :
    scan first last (b :: tail) = b :: scan first last tail := by
  rw [scan, move_eq, h]
  rfl

end LoginNames.Scanner
