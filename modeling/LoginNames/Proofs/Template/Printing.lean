import LoginNames.Proofs.Template.Grammar
import LoginNames.Proofs.Template.Outline

/-! # Printing templates

A template can be printed from literals and placeholders. Where no literal could be read as the
group of the placeholder before it, a scan of the print finds each of them again, since a
placeholder is read the same whatever follows it. -/

set_option autoImplicit false

namespace LoginNames

inductive Segment
  | literal (text : Bytes)
  | placeholder (p : Placeholder)
deriving DecidableEq

namespace Placeholder

/-- The first byte of every token. -/
def brace : UInt8 := 123

def print (p : Placeholder) : Bytes :=
  match p.limit with
  | none => p.field.token
  | some n => p.field.token ++ opening :: (Numeral.toBytes n ++ [closing])

theorem exists_token_eq (field : NameField) : ∃ tail, field.token = brace :: tail := by
  cases field <;> exact ⟨_, rfl⟩

theorem exists_print_eq (p : Placeholder) : ∃ tail, p.print = brace :: tail := by
  obtain ⟨tail, htail⟩ := exists_token_eq p.field
  unfold print
  rw [htail]
  cases p.limit <;> exact ⟨_, rfl⟩

theorem match?_of_ne_brace {b : UInt8} (hb : b ≠ brace) (rest : Bytes) :
    match? (b :: rest) = none := by
  rw [match?_eq_none]
  rintro field ⟨after, heq⟩
  obtain ⟨tail, htail⟩ := exists_token_eq field
  rw [htail] at heq
  exact hb (List.cons.inj heq).1.symm

theorem match?_print_truncated (field : NameField) {n : Nat} (hn : n < 2 ^ 64) (rest : Bytes) :
    match? ((⟨field, some n⟩ : Placeholder).print ++ rest) =
      some ⟨⟨field, some n⟩, (⟨field, some n⟩ : Placeholder).print.length⟩ := by
  have hdigits : DigitRun (Numeral.toBytes n) ([] ++ closing :: rest) := by
    refine ⟨Numeral.toBytes_ne_nil n, fun b hb => Numeral.isDigit_of_mem_toBytes hb, ?_⟩
    rintro b ⟨⟩
    decide
  have hlimit : limitOf (Numeral.toBytes n) = n := by
    rw [limitOf, Numeral.ofBytes_toBytes]
    exact Nat.min_eq_left (Nat.le_sub_one_of_lt hn)
  have hprint : (⟨field, some n⟩ : Placeholder).print ++ rest =
      field.token ++ opening :: (Numeral.toBytes n ++ ([] ++ closing :: rest)) := by
    simp [print]
  rw [hprint, match?_closed field hdigits List.not_mem_nil, hlimit]
  simp only [print, List.length_append, List.length_cons, List.length_nil, Option.some.injEq,
    PlaceholderMatch.mk.injEq, true_and]
  omega

/-- A group is not started by bytes behind a text that go on with a placeholder. -/
theorem StartsGroup.of_append {text behind : Bytes} (hbehind : ∀ b ∈ behind.head?, b = brace)
    (h : StartsGroup (text ++ behind)) : StartsGroup text := by
  obtain ⟨digit, rest, hdigit, heq⟩ := h
  cases text with
  | nil =>
    rw [List.nil_append] at heq
    subst heq
    exact absurd (hbehind opening rfl) (by decide)
  | cons c text =>
    cases text with
    | nil =>
      obtain ⟨-, rfl⟩ := List.cons.inj heq
      rw [hbehind digit rfl] at hdigit
      exact absurd hdigit (by decide)
    | cons d text =>
      obtain ⟨rfl, htail⟩ := List.cons.inj heq
      obtain ⟨rfl, -⟩ := List.cons.inj htail
      exact ⟨d, text, hdigit, rfl⟩

end Placeholder

namespace Segment

open Placeholder (brace StartsGroup match?)

def print : Segment → Bytes
  | literal text => text
  | placeholder p => p.print

def render (first last : Bytes) : Segment → Bytes
  | literal text => text
  | placeholder p => p.render first last

def placeholder? : Segment → Option Placeholder
  | literal _ => none
  | placeholder p => some p

/-- What the print of a segment may hold. -/
def Printable : Segment → Prop
  | literal text => brace ∉ text
  | placeholder p => ∀ n ∈ p.limit, n < 2 ^ 64

/-- Two segments in a row that do not run together. -/
def Apart : Segment → Segment → Prop
  | literal _, literal _ => False
  | placeholder ⟨_, none⟩, literal text => ¬ StartsGroup text
  | _, _ => True

/-- Segments that can be told apart in their print. -/
structure Readable (segments : List Segment) : Prop where
  printable : ∀ segment ∈ segments, segment.Printable
  apart : segments.IsChain Apart

theorem Readable.tail {segment : Segment} {rest : List Segment}
    (h : Readable (segment :: rest)) : Readable rest :=
  ⟨fun other hother => h.printable other (List.mem_cons_of_mem segment hother), h.apart.tail⟩

/-- What is printed behind a literal starts with a placeholder. -/
theorem Readable.head_behind_literal {text : Bytes} {rest : List Segment}
    (h : Readable (literal text :: rest)) : ∀ b ∈ (rest.flatMap print).head?, b = brace := by
  intro b hb
  cases rest with
  | nil => cases hb
  | cons next rest =>
    cases next with
    | literal text' => exact (List.isChain_cons_cons.mp h.apart).1.elim
    | placeholder p =>
      obtain ⟨tail, htail⟩ := p.exists_print_eq
      rw [List.flatMap_cons, print, htail] at hb
      cases hb
      rfl

theorem Readable.not_startsGroup {field : NameField} {rest : List Segment}
    (h : Readable (placeholder ⟨field, none⟩ :: rest)) : ¬ StartsGroup (rest.flatMap print) := by
  rintro hgroup
  cases rest with
  | nil =>
    obtain ⟨digit, behind, -, heq⟩ := hgroup
    cases heq
  | cons next rest =>
    cases next with
    | literal text =>
      exact (List.isChain_cons_cons.mp h.apart).1 (hgroup.of_append h.tail.head_behind_literal)
    | placeholder p =>
      obtain ⟨tail, htail⟩ := p.exists_print_eq
      obtain ⟨digit, behind, -, heq⟩ := hgroup
      rw [List.flatMap_cons, print, htail] at heq
      exact absurd (List.cons.inj heq).1 (by decide)

theorem Readable.match?_print {p : Placeholder} {rest : List Segment}
    (h : Readable (placeholder p :: rest)) :
    match? (p.print ++ rest.flatMap print) = some ⟨p, p.print.length⟩ := by
  obtain ⟨field, limit⟩ := p
  cases limit with
  | none => exact Placeholder.match?_plain field h.not_startsGroup
  | some n =>
    exact Placeholder.match?_print_truncated field
      (h.printable _ List.mem_cons_self n rfl) (rest.flatMap print)

end Segment

namespace Outline

open Segment (Readable)

def ofSegments : List Segment → Outline
  | [] => ⟨[], []⟩
  | .literal text :: rest => text.foldr literal (ofSegments rest)
  | .placeholder p :: rest => (ofSegments rest).placed p

theorem placeholders_foldr_literal (text : Bytes) (o : Outline) :
    (text.foldr literal o).placeholders = o.placeholders := by
  induction text with
  | nil => rfl
  | cons b text ih => rw [List.foldr_cons, placeholders_literal, ih]

theorem fill_foldr_literal (first last text : Bytes) (o : Outline) :
    (text.foldr literal o).fill first last = text ++ o.fill first last := by
  induction text with
  | nil => rfl
  | cons b text ih => rw [List.foldr_cons, fill_literal, ih, List.cons_append]

theorem placeholders_ofSegments (segments : List Segment) :
    (ofSegments segments).placeholders = segments.filterMap Segment.placeholder? := by
  induction segments with
  | nil => rfl
  | cons segment rest ih =>
    cases segment with
    | literal text => rw [ofSegments, placeholders_foldr_literal, ih]; rfl
    | placeholder p => rw [ofSegments, placeholders_placed, ih]; rfl

theorem fill_ofSegments (first last : Bytes) (segments : List Segment) :
    (ofSegments segments).fill first last = segments.flatMap (Segment.render first last) := by
  induction segments with
  | nil => rfl
  | cons segment rest ih =>
    cases segment with
    | literal text => rw [ofSegments, fill_foldr_literal, ih]; rfl
    | placeholder p => rw [ofSegments, fill_placed, ih]; rfl

theorem ofText_literal_append {text : Bytes} (h : Placeholder.brace ∉ text) (rest : Bytes) :
    ofText (text ++ rest) = text.foldr literal (ofText rest) := by
  induction text with
  | nil => rfl
  | cons b text ih =>
    rw [List.mem_cons, not_or] at h
    rw [List.cons_append, ofText_of_literal (Placeholder.match?_of_ne_brace (Ne.symm h.1) _),
      ih h.2, List.foldr_cons]

/-- The outline of a print is read off the segments, each without a look at the others. -/
theorem ofText_print {segments : List Segment} (h : Readable segments) :
    ofText (segments.flatMap Segment.print) = ofSegments segments := by
  induction segments with
  | nil => rw [List.flatMap_nil, ofText, ofSegments]
  | cons segment rest ih =>
    rw [List.flatMap_cons]
    cases segment with
    | literal text =>
      rw [Segment.print, ofText_literal_append (h.printable _ List.mem_cons_self), ih h.tail,
        ofSegments]
    | placeholder p =>
      rw [Segment.print, ofText_of_match h.match?_print, List.drop_left, ih h.tail, ofSegments]

end Outline

namespace Template

/-- A template that is printed from segments lists the placeholders among them, and is filled in by
    writing the literals as they are and what the placeholders stand for. -/
theorem scan_print {segments : List Segment} (h : Segment.Readable segments) :
    let t : Template := ⟨segments.flatMap Segment.print⟩
    t.placeholders = segments.filterMap Segment.placeholder? ∧
      ∀ (first last : Bytes) (sink : Sink), sink.Unlimited →
        (t.write first last).run sink =
          .ok () (sink.push (segments.flatMap (Segment.render first last))) := by
  intro t
  have houtline : t.outline = .ofSegments segments := Outline.ofText_print h
  refine ⟨?_, fun first last sink hsink => ?_⟩
  · rw [← outline_placeholders, houtline, Outline.placeholders_ofSegments]
  · rw [write_eq_writeAll, hsink.writeAll_run, houtline, Outline.fill_ofSegments]

/-- Parentheses behind a placeholder without a limit and digits behind one with a limit, and two
    placeholders in a row, the last of them with the largest limit. -/
theorem scan_print_parentheses :
    let segments : List Segment := [.placeholder ⟨.firstname, none⟩, .literal (Bytes.ofString "(x)"),
      .placeholder ⟨.lastname, some 2⟩, .literal (Bytes.ofString "(3"),
      .placeholder ⟨.firstname, none⟩, .placeholder ⟨.lastname, some 18446744073709551615⟩]
    let t := ofString ("\x7bfirstname\x7d(x)\x7blastname\x7d(2)(3\x7bfirstname\x7d" ++
      "\x7blastname\x7d(18446744073709551615)")
    Segment.Readable segments ∧ t = ⟨segments.flatMap Segment.print⟩ ∧
      t.placeholders = [⟨.firstname, none⟩, ⟨.lastname, some 2⟩, ⟨.firstname, none⟩,
        ⟨.lastname, some 18446744073709551615⟩] ∧
      (t.write (Bytes.ofString "\x7b") (Bytes.ofString "weir")).run {} =
        .ok () (({} : Sink).push (Bytes.ofString "\x7b(x)we(3\x7bweir")) := by
  intro segments t
  have hapart : ¬ Placeholder.StartsGroup (Bytes.ofString "(x)") := by
    rintro ⟨digit, rest, hdigit, heq⟩
    cases heq
    exact absurd hdigit (by decide)
  have hreadable : Segment.Readable segments := by
    constructor
    · have hclosed : Placeholder.brace ∉ Bytes.ofString "(x)" := by decide
      have hopen : Placeholder.brace ∉ Bytes.ofString "(3" := by decide
      simp [segments, Segment.Printable, hclosed, hopen]
    · simp [segments, Segment.Apart, hapart]
  have hprint : t = ⟨segments.flatMap Segment.print⟩ := by decide +kernel
  obtain ⟨hplaceholders, hwrite⟩ := scan_print hreadable
  rw [← hprint] at hplaceholders hwrite
  exact ⟨hreadable, hprint, hplaceholders, hwrite _ _ {} ⟨rfl, by simp⟩⟩

end Template

end LoginNames
