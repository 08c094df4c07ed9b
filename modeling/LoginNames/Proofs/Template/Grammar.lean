import LoginNames.Placeholder
import LoginNames.Proofs.Text.Separator
import Mathlib

/-! # The grammar of placeholders

A placeholder is spelled by the token of its field, and by a truncation group behind it where it
has a limit. The relation `Spells` says so by concatenations alone, and the placeholder that is
found at the start of a text is the one that the text starts by spelling. -/

set_option autoImplicit false

namespace LoginNames

/-- What stands behind a token tells which token it is: no token is the start of another one. -/
theorem NameField.token_append_inj {field other : NameField} {a b : Bytes}
    (h : field.token ++ a = other.token ++ b) : field = other ∧ a = b := by
  have hlength (f : NameField) : 2 ≤ f.token.length := by cases f <;> decide
  have hstart : field.token.take 2 = other.token.take 2 := by
    have htake := congrArg (List.take 2) h
    rwa [List.take_append_of_le_length (hlength field),
      List.take_append_of_le_length (hlength other)] at htake
  have hfield : field = other := by
    cases field <;> cases other
    all_goals first | rfl | exact absurd hstart (by decide)
  subst hfield
  exact ⟨rfl, List.append_cancel_left h⟩

namespace Placeholder

/-- An opening parenthesis and a digit, which start a group where a token stands before them. -/
def StartsGroup (after : Bytes) : Prop :=
  ∃ digit rest, Numeral.isDigit digit = true ∧ after = opening :: digit :: rest

/-- Some digits, and a text behind them that does not go on with one. -/
structure DigitRun (digits tail : Bytes) : Prop where
  ne_nil : digits ≠ []
  isDigit : ∀ b ∈ digits, Numeral.isDigit b = true
  stops : ∀ b ∈ tail.head?, Numeral.isDigit b = false

/-- The limit that digits give; a number beyond the largest word is that word. -/
def limitOf (digits : Bytes) : Nat := min (Numeral.ofBytes digits) Numeral.maxWord

/-- A text that starts with a placeholder, and the placeholder with the bytes that it spans. A
    group ends with its first closing parenthesis, or with the text where it has none. -/
inductive Spells : Bytes → PlaceholderMatch → Prop
  | plain (field : NameField) {after : Bytes} (h : ¬ StartsGroup after) :
      Spells (field.token ++ after) ⟨⟨field, none⟩, field.token.length⟩
  | closed (field : NameField) {digits inside after : Bytes}
      (hdigits : DigitRun digits (inside ++ closing :: after)) (hinside : closing ∉ inside) :
      Spells (field.token ++ opening :: (digits ++ (inside ++ closing :: after)))
        ⟨⟨field, some (limitOf digits)⟩,
          field.token.length + 1 + digits.length + (inside.length + 1)⟩
  | unclosed (field : NameField) {digits tail : Bytes} (hdigits : DigitRun digits tail)
      (htail : closing ∉ tail) :
      Spells (field.token ++ opening :: (digits ++ tail))
        ⟨⟨field, some (limitOf digits)⟩,
          (field.token ++ opening :: (digits ++ tail)).length⟩

theorem DigitRun.takeWhile_eq {digits tail : Bytes} (h : DigitRun digits tail) :
    (digits ++ tail).takeWhile Numeral.isDigit = digits := by
  have htail : tail.takeWhile Numeral.isDigit = [] := by
    cases tail with
    | nil => rfl
    | cons b tail => rw [List.takeWhile_cons_of_neg (by simp [h.stops b rfl])]
  rw [List.takeWhile_append_of_pos h.isDigit, htail, List.append_nil]

theorem StartsGroup.exists_digitRun {after : Bytes} (h : StartsGroup after) :
    ∃ digits tail, DigitRun digits tail ∧ after = opening :: (digits ++ tail) := by
  obtain ⟨digit, rest, hdigit, rfl⟩ := h
  refine ⟨(digit :: rest).takeWhile Numeral.isDigit, (digit :: rest).dropWhile Numeral.isDigit,
    ⟨?_, fun b hb => List.mem_takeWhile_imp hb, fun b hb => ?_⟩, ?_⟩
  · rw [List.takeWhile_cons_of_pos hdigit]
    exact List.cons_ne_nil _ _
  · have hstop := List.head?_dropWhile_not Numeral.isDigit (digit :: rest)
    rw [Option.mem_def.mp hb] at hstop
    simpa using hstop
  · rw [List.takeWhile_append_dropWhile]

/-- The digits of a group do not close it. -/
theorem closing_not_mem_group {digits : Bytes} (h : ∀ b ∈ digits, Numeral.isDigit b = true) :
    closing ∉ opening :: digits := by
  rw [List.mem_cons, not_or]
  exact ⟨by decide, fun hmem => absurd (h closing hmem) (by decide)⟩

theorem groupWidth_of_closing {before : Bytes} (h : closing ∉ before) (after : Bytes) :
    groupWidth (before ++ closing :: after) = before.length + 1 := by
  simp only [groupWidth, dropWhile_bne_append h, takeWhile_bne_append h]

theorem groupWidth_of_not_mem {text : Bytes} (h : closing ∉ text) :
    groupWidth text = text.length := by
  rw [groupWidth, dropWhile_bne h]

theorem truncation?_of_not_startsGroup {after : Bytes} (h : ¬ StartsGroup after) :
    truncation? after = none := by
  cases after with
  | nil => rfl
  | cons c tail =>
    refine if_neg ?_
    rintro ⟨rfl, hdigits⟩
    cases tail with
    | nil => exact hdigits rfl
    | cons digit rest =>
      refine h ⟨digit, rest, ?_, rfl⟩
      by_contra hdigit
      exact hdigits (List.takeWhile_cons_of_neg hdigit)

theorem truncation?_of_digitRun {digits tail : Bytes} (h : DigitRun digits tail) :
    truncation? (opening :: (digits ++ tail)) =
      some (limitOf digits, groupWidth (opening :: (digits ++ tail))) := by
  simp only [truncation?, h.takeWhile_eq, ne_eq, h.ne_nil, not_false_eq_true, and_self, if_true,
    Numeral.saturating_eq, limitOf]

theorem matchField?_token (field : NameField) (after : Bytes) :
    matchField? field (field.token ++ after) = some (match truncation? after with
      | some (n, width) => ⟨⟨field, some n⟩, field.token.length + width⟩
      | none => ⟨⟨field, none⟩, field.token.length⟩) := by
  have hbehind : field.token.isPrefixOf? (field.token ++ after) = some after :=
    isPrefixOf?_eq_some.mpr rfl
  exact congrArg (Option.map _) hbehind

theorem matchField?_eq_none {field : NameField} {rest : Bytes} :
    matchField? field rest = none ↔ ¬ field.token <+: rest := by
  rw [matchField?, Option.map_eq_none_iff, Option.eq_none_iff_forall_ne_some]
  constructor
  · rintro h ⟨after, rfl⟩
    exact h after (isPrefixOf?_eq_some.mpr rfl)
  · rintro h after hafter
    exact h ⟨after, (isPrefixOf?_eq_some.mp hafter).symm⟩

theorem match?_token (field : NameField) (after : Bytes) :
    match? (field.token ++ after) = matchField? field (field.token ++ after) := by
  cases field with
  | firstname =>
    rw [match?, matchField?_token]
    rfl
  | lastname =>
    have hfirst : matchField? .firstname (NameField.lastname.token ++ after) = none := by
      rw [matchField?_eq_none]
      rintro ⟨behind, hbehind⟩
      exact absurd (NameField.token_append_inj hbehind).1 (by decide)
    rw [match?, hfirst]
    rfl

theorem match?_eq_none {rest : Bytes} :
    match? rest = none ↔ ∀ field : NameField, ¬ field.token <+: rest := by
  constructor
  · rintro h field ⟨after, rfl⟩
    rw [match?_token, matchField?_token] at h
    cases h
  · intro h
    rw [match?, matchField?_eq_none.mpr (h .firstname), matchField?_eq_none.mpr (h .lastname)]
    rfl

theorem match?_plain (field : NameField) {after : Bytes} (h : ¬ StartsGroup after) :
    match? (field.token ++ after) = some ⟨⟨field, none⟩, field.token.length⟩ := by
  rw [match?_token, matchField?_token, truncation?_of_not_startsGroup h]

theorem match?_group (field : NameField) {digits tail : Bytes} (h : DigitRun digits tail) :
    match? (field.token ++ opening :: (digits ++ tail)) =
      some ⟨⟨field, some (limitOf digits)⟩,
        field.token.length + groupWidth (opening :: (digits ++ tail))⟩ := by
  rw [match?_token, matchField?_token, truncation?_of_digitRun h]

theorem match?_closed (field : NameField) {digits inside after : Bytes}
    (hdigits : DigitRun digits (inside ++ closing :: after)) (hinside : closing ∉ inside) :
    match? (field.token ++ opening :: (digits ++ (inside ++ closing :: after))) =
      some ⟨⟨field, some (limitOf digits)⟩,
        field.token.length + 1 + digits.length + (inside.length + 1)⟩ := by
  have hbefore : closing ∉ opening :: digits ++ inside := by
    rw [List.mem_append, not_or]
    exact ⟨closing_not_mem_group hdigits.isDigit, hinside⟩
  have hgroup : opening :: (digits ++ (inside ++ closing :: after)) =
      (opening :: digits ++ inside) ++ closing :: after := by simp
  rw [match?_group field hdigits, hgroup, groupWidth_of_closing hbefore]
  simp only [List.length_append, List.length_cons, Option.some.injEq, PlaceholderMatch.mk.injEq,
    true_and]
  omega

theorem match?_unclosed (field : NameField) {digits tail : Bytes} (hdigits : DigitRun digits tail)
    (htail : closing ∉ tail) :
    match? (field.token ++ opening :: (digits ++ tail)) =
      some ⟨⟨field, some (limitOf digits)⟩,
        (field.token ++ opening :: (digits ++ tail)).length⟩ := by
  have hgroup : closing ∉ opening :: (digits ++ tail) := by
    rw [← List.cons_append, List.mem_append, not_or]
    exact ⟨closing_not_mem_group hdigits.isDigit, htail⟩
  rw [match?_group field hdigits, groupWidth_of_not_mem hgroup, List.length_append]

theorem exists_spells (field : NameField) (after : Bytes) :
    ∃ m, Spells (field.token ++ after) m := by
  by_cases hgroup : StartsGroup after
  · obtain ⟨digits, tail, hdigits, rfl⟩ := hgroup.exists_digitRun
    by_cases htail : closing ∈ tail
    · obtain ⟨inside, behind, rfl, hinside⟩ := List.eq_append_cons_of_mem htail
      exact ⟨_, .closed field hdigits hinside⟩
    · exact ⟨_, .unclosed field hdigits htail⟩
  · exact ⟨_, .plain field hgroup⟩

theorem Spells.match?_eq {rest : Bytes} {m : PlaceholderMatch} (h : Spells rest m) :
    match? rest = some m := by
  cases h with
  | plain field h => exact match?_plain field h
  | closed field hdigits hinside => exact match?_closed field hdigits hinside
  | unclosed field hdigits htail => exact match?_unclosed field hdigits htail

theorem match?_eq_some {rest : Bytes} {m : PlaceholderMatch} :
    match? rest = some m ↔ Spells rest m := by
  refine ⟨fun h => ?_, Spells.match?_eq⟩
  -- Some token stands there, and then the text spells something, which is what is found.
  have htoken : ∃ field : NameField, field.token <+: rest := by
    by_contra hnone
    rw [match?_eq_none.mpr (not_exists.mp hnone)] at h
    cases h
  obtain ⟨field, after, rfl⟩ := htoken
  obtain ⟨m', hm'⟩ := exists_spells field after
  cases h.symm.trans hm'.match?_eq
  exact hm'

theorem Spells.width_bounds {rest : Bytes} {m : PlaceholderMatch} (h : Spells rest m) :
    m.placeholder.field.token.length ≤ m.width ∧ m.width ≤ rest.length := by
  cases h <;> simp only [List.length_append, List.length_cons] <;> omega

/-- There is a placeholder at the start of a text exactly where a token is, and it is the one that
    the text spells there. It spans its token and no more than the text. -/
theorem match?_iff_spells (rest : Bytes) :
    (match? rest = none ↔ ∀ field : NameField, ¬ field.token <+: rest) ∧
      (∀ m, match? rest = some m ↔ Spells rest m) ∧
      ∀ m, match? rest = some m →
        m.placeholder.field.token.length ≤ m.width ∧ m.width ≤ rest.length :=
  ⟨match?_eq_none, fun _ => match?_eq_some, fun _ h => (match?_eq_some.mp h).width_bounds⟩

/-- Leading zeros and bytes behind the digits, in a group that is closed; a number beyond the
    largest word, in one that is not; and no digits at all. -/
theorem match?_iff_spells_groups :
    (Spells (Bytes.ofString "\x7blastname\x7d(007 x)y") ⟨⟨.lastname, some 7⟩, 17⟩ ∧
        match? (Bytes.ofString "\x7blastname\x7d(007 x)y") = some ⟨⟨.lastname, some 7⟩, 17⟩) ∧
      (match? (Bytes.ofString "\x7bfirstname\x7d(18446744073709551616 x") =
          some ⟨⟨.firstname, some 18446744073709551615⟩, 34⟩ ∧
        34 ≤ (Bytes.ofString "\x7bfirstname\x7d(18446744073709551616 x").length) ∧
      match? (Bytes.ofString "\x7bfirstname\x7d()") = some ⟨⟨.firstname, none⟩, 11⟩ ∧
      match? (Bytes.ofString "\x7bfirst\x7d(1)") = none := by
  have hclosed : Spells (Bytes.ofString "\x7blastname\x7d(007 x)y") ⟨⟨.lastname, some 7⟩, 17⟩ := by
    have hdigits : DigitRun (Bytes.ofString "007") (Bytes.ofString " x" ++ closing :: [121]) :=
      ⟨by decide, by decide +kernel, by decide +kernel⟩
    exact .closed .lastname hdigits (by decide)
  have hunclosed : Spells (Bytes.ofString "\x7bfirstname\x7d(18446744073709551616 x")
      ⟨⟨.firstname, some 18446744073709551615⟩, 34⟩ := by
    have hdigits : DigitRun (Bytes.ofString "18446744073709551616") (Bytes.ofString " x") :=
      ⟨by decide, by decide +kernel, by decide +kernel⟩
    exact .unclosed .firstname hdigits (by decide)
  have hplain : Spells (Bytes.ofString "\x7bfirstname\x7d()") ⟨⟨.firstname, none⟩, 11⟩ := by
    have hgroup : ¬ StartsGroup (Bytes.ofString "()") := by
      rintro ⟨digit, rest, hdigit, heq⟩
      cases heq
      exact absurd hdigit (by decide)
    exact .plain .firstname hgroup
  have hnone : ∀ field : NameField, ¬ field.token <+: Bytes.ofString "\x7bfirst\x7d(1)" := by
    rintro (_ | _) <;> decide
  have hmatch := ((match?_iff_spells _).2.1 _).mpr hunclosed
  exact ⟨⟨hclosed, ((match?_iff_spells _).2.1 _).mpr hclosed⟩,
    ⟨hmatch, ((match?_iff_spells _).2.2 _ hmatch).2⟩,
    ((match?_iff_spells _).2.1 _).mpr hplain, (match?_iff_spells _).1.mpr hnone⟩

end Placeholder

end LoginNames
