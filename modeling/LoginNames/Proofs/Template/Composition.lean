import LoginNames.Proofs.Expansions
import LoginNames.Proofs.Template.Printing

/-! # Templates put together

A template may be cut in front of a brace. A token holds one brace, its first byte, and no group is
started by one, so nothing that is found in the first part reaches over the cut, and each part is
scanned as if it were alone. Only a group that nothing closes takes in what follows it. -/

set_option autoImplicit false

namespace LoginNames

open Placeholder (brace closing opening limitOf match? DigitRun StartsGroup)

namespace Placeholder

theorem brace_not_mem_token_tail (field : NameField) : brace ∉ field.token.tail := by
  cases field <;> decide

theorem drop_closed (field : NameField) (digits inside after : Bytes) :
    (field.token ++ opening :: (digits ++ (inside ++ closing :: after))).drop
      (field.token.length + 1 + digits.length + (inside.length + 1)) = after := by
  have hsplit : field.token ++ opening :: (digits ++ (inside ++ closing :: after)) =
      (field.token ++ opening :: digits ++ (inside ++ [closing])) ++ after := by simp
  rw [hsplit]
  apply List.drop_left'
  simp only [List.length_append, List.length_cons, List.length_nil]
  omega

/-- What follows the closing parenthesis of a group does not matter to its digits. -/
theorem DigitRun.behind_closing {digits inside after : Bytes}
    (h : DigitRun digits (inside ++ closing :: after)) (other : Bytes) :
    DigitRun digits (inside ++ closing :: other) := by
  refine ⟨h.ne_nil, h.isDigit, fun b hb => h.stops b ?_⟩
  cases inside <;> exact hb

end Placeholder

namespace Outline

variable {field : NameField} {digits inside tail after : Bytes}

theorem ofText_plain (h : ¬ StartsGroup after) :
    ofText (field.token ++ after) = (ofText after).placed ⟨field, none⟩ := by
  rw [ofText_of_match (Placeholder.match?_plain field h), List.drop_left]

theorem ofText_closed (hdigits : DigitRun digits (inside ++ closing :: after))
    (hinside : closing ∉ inside) :
    ofText (field.token ++ opening :: (digits ++ (inside ++ closing :: after))) =
      (ofText after).placed ⟨field, some (limitOf digits)⟩ := by
  rw [ofText_of_match (Placeholder.match?_closed field hdigits hinside), Placeholder.drop_closed]

/-- Whatever stands behind a group that is closed is behind it. -/
theorem ofText_closed_append (hdigits : DigitRun digits (inside ++ closing :: after))
    (hinside : closing ∉ inside) (more : Bytes) :
    ofText (field.token ++ opening :: (digits ++ (inside ++ closing :: after)) ++ more) =
      (ofText (after ++ more)).placed ⟨field, some (limitOf digits)⟩ := by
  have hassoc : field.token ++ opening :: (digits ++ (inside ++ closing :: after)) ++ more =
      field.token ++ opening :: (digits ++ (inside ++ closing :: (after ++ more))) := by simp
  rw [hassoc, ofText_closed (hdigits.behind_closing _) hinside]

theorem ofText_unclosed (hdigits : DigitRun digits tail) (htail : closing ∉ tail) :
    ofText (field.token ++ opening :: (digits ++ tail)) =
      placed ⟨field, some (limitOf digits)⟩ ⟨[], []⟩ := by
  rw [ofText_of_match (Placeholder.match?_unclosed field hdigits htail), List.drop_length, ofText]

end Outline

/-- The scan of a text comes to no group that nothing closes. -/
inductive GroupsClose : Bytes → Prop
  | nil : GroupsClose []
  | literal {b : UInt8} {text : Bytes} (h : match? (b :: text) = none)
      (tail : GroupsClose text) : GroupsClose (b :: text)
  | plain (field : NameField) {after : Bytes} (h : ¬ StartsGroup after)
      (tail : GroupsClose after) : GroupsClose (field.token ++ after)
  | closed (field : NameField) {digits inside after : Bytes}
      (hdigits : DigitRun digits (inside ++ closing :: after)) (hinside : closing ∉ inside)
      (tail : GroupsClose after) :
      GroupsClose (field.token ++ opening :: (digits ++ (inside ++ closing :: after)))

section Append

variable {more : Bytes} (hmore : ∀ b ∈ more.head?, b = brace)
include hmore

/-- A token that starts in a text in front of a brace ends there, too. -/
theorem Placeholder.token_prefix_of_append {field : NameField} {text : Bytes} (hne : text ≠ [])
    (h : field.token <+: text ++ more) : field.token <+: text := by
  obtain hwithin | ⟨excess, hexcess⟩ :=
    List.prefix_or_prefix_of_prefix h (List.prefix_append text more)
  · exact hwithin
  · cases excess with
    | nil => exact ⟨[], by rw [← hexcess, List.append_nil, List.append_nil]⟩
    | cons b excess =>
      -- The first byte behind the text would be a brace within the token.
      exfalso
      rw [← hexcess, List.prefix_append_right_inj] at h
      obtain ⟨rest, rfl⟩ := h
      have hb : b = brace := hmore b rfl
      obtain ⟨c, text, rfl⟩ := List.exists_cons_of_ne_nil hne
      apply brace_not_mem_token_tail field
      rw [← hexcess, hb]
      simp

theorem Placeholder.match?_append_eq_none {text : Bytes} (hne : text ≠ [])
    (h : match? text = none) : match? (text ++ more) = none := by
  rw [match?_eq_none] at h ⊢
  exact fun field hprefix => h field (token_prefix_of_append hmore hne hprefix)

namespace Outline

variable {field : NameField} {digits inside tail after : Bytes}

theorem ofText_plain_append (h : ¬ StartsGroup after) :
    ofText (field.token ++ after ++ more) = (ofText (after ++ more)).placed ⟨field, none⟩ := by
  have happend : ¬ StartsGroup (after ++ more) := fun hgroup => h (hgroup.of_append hmore)
  rw [List.append_assoc, ofText_plain happend]

theorem ofText_unclosed_append (hdigits : DigitRun digits tail) (htail : closing ∉ tail)
    (hclosing : closing ∉ more) :
    ofText (field.token ++ opening :: (digits ++ tail) ++ more) =
      ofText (field.token ++ opening :: (digits ++ tail)) := by
  have happend : DigitRun digits (tail ++ more) := by
    refine ⟨hdigits.ne_nil, hdigits.isDigit, fun b hb => ?_⟩
    cases tail with
    | nil =>
      rw [hmore b hb]
      decide
    | cons c tail => exact hdigits.stops b hb
  have hnone : closing ∉ tail ++ more := by
    rw [List.mem_append, not_or]
    exact ⟨htail, hclosing⟩
  have hassoc : field.token ++ opening :: (digits ++ tail) ++ more =
      field.token ++ opening :: (digits ++ (tail ++ more)) := by simp
  rw [hassoc, ofText_unclosed happend hnone, ofText_unclosed hdigits htail]

/-- Where every group of a text is closed, what it is scanned to goes on behind a brace with what
    the rest is scanned to alone. -/
theorem ofText_append {text : Bytes} (h : GroupsClose text) :
    (ofText (text ++ more)).placeholders =
        (ofText text).placeholders ++ (ofText more).placeholders ∧
      ∀ first last, (ofText (text ++ more)).fill first last =
        (ofText text).fill first last ++ (ofText more).fill first last := by
  induction h with
  | nil =>
    rw [ofText]
    exact ⟨rfl, fun first last => rfl⟩
  | @literal b text h _ ih =>
    have happend := Placeholder.match?_append_eq_none hmore (List.cons_ne_nil b text) h
    rw [List.cons_append] at happend ⊢
    rw [ofText_of_literal happend, ofText_of_literal h]
    simp only [placeholders_literal, fill_literal, ih.1, ih.2, List.cons_append, implies_true,
      and_self]
  | plain field h _ ih =>
    rw [ofText_plain_append hmore h, ofText_plain h]
    simp only [placeholders_placed, fill_placed, ih.1, ih.2, List.cons_append, List.append_assoc,
      implies_true, and_self]
  | closed field hdigits hinside _ ih =>
    rw [ofText_closed_append hdigits hinside, ofText_closed hdigits hinside]
    simp only [placeholders_placed, fill_placed, ih.1, ih.2, List.cons_append, List.append_assoc,
      implies_true, and_self]

/-- A group that nothing closes takes in what does not close it either. -/
theorem ofText_append_of_open {text : Bytes} (hopen : ¬ GroupsClose text)
    (hclosing : closing ∉ more) : ofText (text ++ more) = ofText text := by
  induction text using ofText.induct with
  | case1 => exact absurd .nil hopen
  | case2 b rest m hmatch ih =>
    generalize b :: rest = text at hopen hmatch ih ⊢
    cases Placeholder.match?_eq_some.mp hmatch with
    | @plain field after h =>
      have hrest : ¬ GroupsClose after := fun hafter => hopen (.plain field h hafter)
      rw [List.drop_left] at ih
      rw [ofText_plain_append hmore h, ofText_plain h, ih hrest]
    | @closed field digits inside after hdigits hinside =>
      have hrest : ¬ GroupsClose after := fun hafter => hopen (.closed field hdigits hinside hafter)
      rw [Placeholder.drop_closed] at ih
      rw [ofText_closed_append hdigits hinside, ofText_closed hdigits hinside, ih hrest]
    | unclosed field hdigits htail => exact ofText_unclosed_append hmore hdigits htail hclosing
  | case3 b rest hmatch ih =>
    have hrest : ¬ GroupsClose rest := fun hrest => hopen (.literal hmatch hrest)
    have happend := Placeholder.match?_append_eq_none hmore (List.cons_ne_nil b rest) hmatch
    rw [List.cons_append] at happend ⊢
    rw [ofText_of_literal happend, ofText_of_literal hmatch, ih hrest]

end Outline

end Append

theorem Outline.ofText_brace : ofText [brace] = ⟨[brace], []⟩ := by
  rw [ofText_of_literal (by decide), ofText]
  rfl

theorem head?_brace : ∀ b ∈ [brace].head?, b = brace := by
  rintro b ⟨⟩
  rfl

/-- Behind an open group a brace is lost, and behind closed ones it is not. -/
theorem not_groupsClose_of_unclosed {field : NameField} {digits tail : Bytes}
    (hdigits : DigitRun digits tail) (htail : closing ∉ tail) :
    ¬ GroupsClose (field.token ++ opening :: (digits ++ tail)) := by
  intro h
  have hkept := (Outline.ofText_append head?_brace h).2 [] []
  rw [Outline.ofText_unclosed_append head?_brace hdigits htail (by decide),
    Outline.ofText_brace] at hkept
  exact List.cons_ne_nil brace [] (List.self_eq_append_right.mp hkept)

namespace Template

instance : Append Template := ⟨fun t more => ⟨t.source ++ more.source⟩⟩

theorem expansion_eq_fill (t : Template) (first last : Bytes) :
    t.expansion first last = t.outline.fill first last := by
  rw [expansion_eq_scan, outline, Outline.fill_ofText]

/-- Templates are put together in front of a brace. Where every group of the first one is closed, the
    two of them list and expand as they do alone, one behind the other, into any sink; a group that
    nothing closes swallows the brace. A literal may be put in front of any template. -/
theorem write_append (t : Template) :
    (GroupsClose t.source → ∀ more : Template, (∀ b ∈ more.source.head?, b = brace) →
      (t ++ more).placeholders = t.placeholders ++ more.placeholders ∧
      ∀ first last,
        (t ++ more).expansion first last = t.expansion first last ++ more.expansion first last ∧
        (t ++ more).write first last = (do t.write first last; more.write first last)) ∧
    (¬ GroupsClose t.source → ∀ first last,
      (t ++ ofString "\x7b").expansion first last = t.expansion first last) ∧
    ∀ text : Bytes, brace ∉ text →
      ((⟨text⟩ : Template) ++ t).placeholders = t.placeholders ∧
      ∀ first last,
        ((⟨text⟩ : Template) ++ t).expansion first last = text ++ t.expansion first last ∧
        ((⟨text⟩ : Template) ++ t).write first last =
          (do Writer.writeAll text; t.write first last) := by
  refine ⟨fun hclose more hmore => ?_, fun hopen first last => ?_, fun text htext => ?_⟩
  · obtain ⟨hplaceholders, hfill⟩ := Outline.ofText_append hmore hclose
    refine ⟨?_, fun first last => ⟨?_, ?_⟩⟩
    · rw [← outline_placeholders, ← outline_placeholders, ← outline_placeholders]
      exact hplaceholders
    · rw [expansion_eq_fill, expansion_eq_fill, expansion_eq_fill]
      exact hfill first last
    · rw [write_eq_writeAll, write_eq_writeAll, write_eq_writeAll, LawfulWriter.writeAll_append]
      exact congrArg Writer.writeAll (hfill first last)
  · rw [expansion_eq_fill, expansion_eq_fill]
    exact congrArg _ (Outline.ofText_append_of_open head?_brace hopen (by decide))
  · have houtline : ((⟨text⟩ : Template) ++ t).outline = text.foldr .literal t.outline :=
      Outline.ofText_literal_append htext t.source
    refine ⟨?_, fun first last => ⟨?_, ?_⟩⟩
    · rw [← outline_placeholders, ← outline_placeholders, houtline,
        Outline.placeholders_foldr_literal]
    · rw [expansion_eq_fill, expansion_eq_fill, houtline, Outline.fill_foldr_literal]
    · rw [write_eq_writeAll, write_eq_writeAll, LawfulWriter.writeAll_append, houtline,
        Outline.fill_foldr_literal]

/-- A group with bytes behind its digits and a token with a parenthesis behind it, both in front of
    another token; a group that nothing closes; and parentheses in front of a template. -/
theorem write_append_groups :
    let t := ofString "<\x7blastname\x7d(2 x)\x7bfirstname\x7d("
    let more := ofString "\x7blastname\x7d(1)y"
    let unclosed := ofString "\x7bfirstname\x7d(1"
    let ann := Bytes.ofString "ann"
    let weir := Bytes.ofString "weir"
    GroupsClose t.source ∧
      (t ++ more).placeholders = [⟨.lastname, some 2⟩, ⟨.firstname, none⟩, ⟨.lastname, some 1⟩] ∧
      (t ++ more).expansion ann weir = Bytes.ofString "<weann(wy" ∧
      ¬ GroupsClose unclosed.source ∧
      (unclosed ++ ofString "\x7b").expansion ann weir = Bytes.ofString "a" ∧
      (ofString "(1)" ++ more).expansion ann weir = Bytes.ofString "(1)wy" := by
  intro t more unclosed ann weir
  have hclose : GroupsClose t.source := by
    have hsource : t.source = 60 :: (NameField.lastname.token ++ opening ::
        ([50] ++ ([32, 120] ++ closing :: (NameField.firstname.token ++ [opening])))) := by
      decide +kernel
    have hdigits : DigitRun [50]
        ([32, 120] ++ closing :: (NameField.firstname.token ++ [opening])) :=
      ⟨by decide, by decide +kernel, by decide +kernel⟩
    have hgroup : ¬ StartsGroup [opening] := by
      rintro ⟨digit, rest, -, heq⟩
      cases heq
    have htoken : GroupsClose (NameField.firstname.token ++ [opening]) :=
      .plain .firstname hgroup (.literal (by decide) .nil)
    rw [hsource]
    exact .literal (Placeholder.match?_of_ne_brace (by decide) _)
      (.closed .lastname hdigits (by decide) htoken)
  have hopen : ¬ GroupsClose unclosed.source := by
    have hsource : unclosed.source = NameField.firstname.token ++ opening :: ([49] ++ []) := by
      decide +kernel
    have hdigits : DigitRun [49] [] := ⟨by decide, by decide +kernel, by decide +kernel⟩
    rw [hsource]
    exact not_groupsClose_of_unclosed hdigits List.not_mem_nil
  obtain ⟨hjoin, -, -⟩ := write_append t
  obtain ⟨hplaceholders, hexpansion⟩ := hjoin hclose more (by decide +kernel)
  obtain ⟨-, hswallow, -⟩ := write_append unclosed
  obtain ⟨-, -, hliteral⟩ := write_append more
  obtain ⟨-, hbehind⟩ := hliteral (Bytes.ofString "(1)") (by decide)
  refine ⟨hclose, hplaceholders.trans ?_, (hexpansion ann weir).1.trans ?_, hopen,
    (hswallow hopen ann weir).trans ?_, (hbehind ann weir).1.trans ?_⟩
  · decide +kernel
  · rw [expansion_eq_scan, expansion_eq_scan]
    cbv
  · rw [expansion_eq_scan]
    cbv
  · rw [expansion_eq_scan]
    cbv

end Template

end LoginNames
