import LoginNames.Proofs.Template.Expansion
import LoginNames.Run

/-! # The outline of a template

A template is literal runs with placeholders between them. Its outline says so without any names,
and to expand the template is to fill the outline in. So the placeholders are all that the names go
through, and what a placeholder cuts off of a name is seen nowhere. -/

set_option autoImplicit false

namespace LoginNames

/-- A literal run, and then placeholders, each with the literal run behind it. -/
structure Outline where
  head : Bytes
  tail : List (Placeholder × Bytes)

namespace Outline

def literal (b : UInt8) (o : Outline) : Outline := ⟨b :: o.head, o.tail⟩

def placed (p : Placeholder) (o : Outline) : Outline := ⟨[], (p, o.head) :: o.tail⟩

def placeholders (o : Outline) : List Placeholder := o.tail.map Prod.fst

/-- The runs in their order, with what each placeholder stands for between them. -/
def fill (first last : Bytes) (o : Outline) : Bytes :=
  o.head ++ (o.tail.map fun (p, run) => p.render first last ++ run).flatten

@[simp] theorem placeholders_literal (b : UInt8) (o : Outline) :
    (o.literal b).placeholders = o.placeholders := rfl

@[simp] theorem placeholders_placed (p : Placeholder) (o : Outline) :
    (o.placed p).placeholders = p :: o.placeholders := rfl

@[simp] theorem fill_literal (first last : Bytes) (b : UInt8) (o : Outline) :
    (o.literal b).fill first last = b :: o.fill first last := rfl

@[simp] theorem fill_placed (first last : Bytes) (p : Placeholder) (o : Outline) :
    (o.placed p).fill first last = p.render first last ++ o.fill first last := by
  simp [fill, placed]

def ofText : Bytes → Outline
  | [] => ⟨[], []⟩
  | b :: rest =>
    match _h : Placeholder.match? (b :: rest) with
    | some m => (ofText ((b :: rest).drop m.width)).placed m.placeholder
    | none => (ofText rest).literal b
termination_by text => text.length
decreasing_by
  · have := Placeholder.match?_width _h
    simp only [List.length_drop, List.length_cons]
    omega
  · exact Nat.lt_succ_self _

theorem ofText_of_match {text : Bytes} {m : PlaceholderMatch}
    (h : Placeholder.match? text = some m) :
    ofText text = (ofText (text.drop m.width)).placed m.placeholder := by
  cases text with
  | nil =>
    have := Placeholder.match?_width h
    simp only [List.length_nil] at this
    omega
  | cons b rest =>
    rw [ofText]
    split
    · rename_i m' hmatch
      cases h.symm.trans hmatch
      rfl
    · rename_i hnone
      cases h.symm.trans hnone

theorem ofText_of_literal {b : UInt8} {rest : Bytes}
    (h : Placeholder.match? (b :: rest) = none) : ofText (b :: rest) = (ofText rest).literal b := by
  rw [ofText]
  split
  · rename_i m hmatch
    cases h.symm.trans hmatch
  · rfl

/-- The scan that fills a template in and the one that finds its outline take the same steps. -/
theorem fill_ofText (first last text : Bytes) :
    (ofText text).fill first last = Scanner.scan first last text := by
  induction text using ofText.induct with
  | case1 => rw [ofText, Scanner.scan_nil]; rfl
  | case2 b rest m hmatch ih =>
    rw [ofText_of_match hmatch, fill_placed, ih, Scanner.scan_of_match first last hmatch]
  | case3 b rest hmatch ih =>
    rw [ofText_of_literal hmatch, fill_literal, ih, Scanner.scan_of_literal first last hmatch]

theorem ofText_of_no_placeholders {text : Bytes} (h : (ofText text).placeholders = []) :
    ofText text = ⟨text, []⟩ := by
  induction text using ofText.induct with
  | case1 => rw [ofText]
  | case2 b rest m hmatch ih =>
    rw [ofText_of_match hmatch] at h
    cases h
  | case3 b rest hmatch ih =>
    rw [ofText_of_literal hmatch] at h ⊢
    rw [ih h]
    rfl

theorem fill_congr {first last first' last' : Bytes} {o : Outline}
    (h : ∀ p ∈ o.placeholders, p.render first last = p.render first' last') :
    o.fill first last = o.fill first' last' := by
  have htail : (o.tail.map fun (p, run) => p.render first last ++ run) =
      o.tail.map fun (p, run) => p.render first' last' ++ run := by
    apply List.map_congr_left
    rintro ⟨p, run⟩ hpart
    have hp : p ∈ o.placeholders := List.mem_map_of_mem hpart
    change p.render first last ++ run = p.render first' last' ++ run
    rw [h p hp]
  rw [fill, fill, htail]

end Outline

namespace Template

def outline (t : Template) : Outline := .ofText t.source

theorem placeholdersFrom_of_match {t : Template} {cursor : Nat} (hcursor : cursor < t.source.length)
    {m : PlaceholderMatch} (h : t.match? cursor = some m) :
    t.placeholdersFrom cursor = m.placeholder :: t.placeholdersFrom (cursor + m.width) := by
  rw [placeholdersFrom, if_pos hcursor]
  split
  · rename_i m' hmatch
    cases h.symm.trans hmatch
    rfl
  · rename_i hnone
    cases h.symm.trans hnone

theorem placeholdersFrom_of_literal {t : Template} {cursor : Nat}
    (hcursor : cursor < t.source.length) (h : t.match? cursor = none) :
    t.placeholdersFrom cursor = t.placeholdersFrom (cursor + 1) := by
  rw [placeholdersFrom, if_pos hcursor]
  split
  · rename_i m hmatch
    cases h.symm.trans hmatch
  · rfl

/-- The listing of the placeholders takes the steps of the outline, too. -/
theorem placeholdersFrom_eq (t : Template) (cursor : Nat) :
    t.placeholdersFrom cursor = (Outline.ofText (t.source.drop cursor)).placeholders := by
  induction cursor using placeholdersFrom.induct t with
  | case1 cursor hcursor m hmatch ih =>
    rw [placeholdersFrom_of_match hcursor hmatch, ih, Outline.ofText_of_match hmatch,
      Outline.placeholders_placed, List.drop_drop]
  | case2 cursor hcursor hmatch ih =>
    rw [placeholdersFrom_of_literal hcursor hmatch, ih]
    have hdrop := List.drop_eq_getElem_cons hcursor
    rw [match?, hdrop] at hmatch
    rw [hdrop, Outline.ofText_of_literal hmatch, Outline.placeholders_literal]
  | case3 cursor hcursor =>
    rw [placeholdersFrom, if_neg hcursor, List.drop_of_length_le (Nat.le_of_not_lt hcursor),
      Outline.ofText]
    rfl

theorem outline_placeholders (t : Template) : t.outline.placeholders = t.placeholders := by
  rw [placeholders, placeholdersFrom_eq, List.drop_zero, outline]

theorem write_eq_writeAll (t : Template) (first last : Bytes) :
    t.write first last = Writer.writeAll (t.outline.fill first last) := by
  rw [write, expand_eq, outline, Outline.fill_ofText]

theorem write_congr {t : Template} {first last first' last' : Bytes}
    (h : ∀ p ∈ t.placeholders, p.render first last = p.render first' last') :
    t.write first last = t.write first' last' := by
  rw [← outline_placeholders] at h
  rw [write_eq_writeAll, write_eq_writeAll, Outline.fill_congr h]

end Template

/-- What a placeholder stands for is the same for names of which it sees the same bytes. -/
theorem Placeholder.render_eq_of_take {p : Placeholder} {field : NameField} {most : Nat}
    {first last first' last' : Bytes}
    (hother : ∀ other, other ≠ field → other.pick first last = other.pick first' last')
    (htake : (field.pick first last).take most = (field.pick first' last').take most)
    (hp : p.field = field → ∃ n, p.limit = some n ∧ n ≤ most) :
    p.render first last = p.render first' last' := by
  unfold render
  by_cases hfield : p.field = field
  · obtain ⟨n, hlimit, hn⟩ := hp hfield
    have hcut (name : Bytes) : name.take n = (name.take most).take n := by
      rw [List.take_take, Nat.min_eq_left hn]
    rw [hlimit, hfield]
    change (field.pick first last).take n = (field.pick first' last').take n
    rw [hcut, htake, ← hcut]
  · rw [hother p.field hfield]

theorem formatNotices_eq_nil {format : String} :
    formatNotices format = [] ↔ (Template.ofString format).placeholders ≠ [] := by
  unfold formatNotices
  split <;> simp_all

namespace Template

/-- A template has an outline with the placeholders that it lists, and an expansion fills it in for
    whatever names. So a template without placeholders, which a run warns of, is written as it is;
    names of a field that has no placeholder do not matter; and of a field whose placeholders all
    cut the name off no more matters than the longest of them takes. -/
theorem write_eq_fill (t : Template) :
    t.outline.placeholders = t.placeholders ∧
    (∀ (first last : Bytes) (sink : Sink), sink.Unlimited →
      (t.write first last).run sink = .ok () (sink.push (t.outline.fill first last))) ∧
    (∀ format, t = ofString format → (formatNotices format ≠ [] ↔ t.placeholders = [])) ∧
    (t.placeholders = [] → ∀ (first last : Bytes) (sink : Sink), sink.Unlimited →
      (t.write first last).run sink = .ok () (sink.push t.source)) ∧
    ∀ (field : NameField) (first last first' last' : Bytes),
      (∀ other, other ≠ field → other.pick first last = other.pick first' last') →
      ((∀ p ∈ t.placeholders, p.field ≠ field) → t.write first last = t.write first' last') ∧
      ∀ most, (∀ p ∈ t.placeholders, p.field = field → ∃ n, p.limit = some n ∧ n ≤ most) →
        (field.pick first last).take most = (field.pick first' last').take most →
        t.write first last = t.write first' last' := by
  have hwrite (first last : Bytes) (sink : Sink) (h : sink.Unlimited) :
      (t.write first last).run sink = .ok () (sink.push (t.outline.fill first last)) := by
    rw [write_eq_writeAll, h.writeAll_run]
  refine ⟨t.outline_placeholders, hwrite, ?_, ?_, ?_⟩
  · rintro format rfl
    rw [Ne, formatNotices_eq_nil, not_not]
  · intro hnone first last sink h
    have houtline : t.outline = ⟨t.source, []⟩ := by
      refine Outline.ofText_of_no_placeholders ?_
      rw [← hnone, ← outline_placeholders, outline]
    rw [hwrite first last sink h, houtline]
    simp [Outline.fill]
  · intro field first last first' last' hother
    refine ⟨fun hfield => write_congr fun p hp => ?_,
      fun most hcut htake => write_congr fun p hp => ?_⟩
    · unfold Placeholder.render
      rw [hother p.field (hfield p hp)]
    · exact Placeholder.render_eq_of_take hother htake (hcut p hp)

/-- The lastnames are cut to one byte and, by a group that nothing closes, to two, and no firstname
    is asked for; and a format in which the marks are not quite right is written as it is. -/
theorem write_eq_fill_cut_names :
    let t := ofString "<\x7blastname\x7d(1).\x7blastname\x7d(2 x"
    let plain := "\x7bfirst\x7d-\x7blastname"
    let ann := Bytes.ofString "ann"
    let weir := Bytes.ofString "weir"
    t.outline.placeholders = [⟨.lastname, some 1⟩, ⟨.lastname, some 2⟩] ∧
      t.write ann weir = t.write (Bytes.ofString "bo") weir ∧
      t.write ann weir = t.write ann (Bytes.ofString "welsh") ∧
      formatNotices plain ≠ [] ∧
      ((ofString plain).write ann weir).run {} =
        .ok () (({} : Sink).push (Bytes.ofString plain)) := by
  intro t plain ann weir
  obtain ⟨houtline, -, -, -, hnames⟩ := write_eq_fill t
  obtain ⟨-, -, hwarned, hliteral, -⟩ := write_eq_fill (ofString plain)
  have hlisted : t.placeholders = [⟨.lastname, some 1⟩, ⟨.lastname, some 2⟩] := by decide +kernel
  have hnone : (ofString plain).placeholders = [] := by decide +kernel
  have hlast : ∀ other, other ≠ NameField.firstname →
      other.pick ann weir = other.pick (Bytes.ofString "bo") weir := by
    rintro (_ | _) h
    · exact absurd rfl h
    · rfl
  have hfirst : ∀ other, other ≠ NameField.lastname →
      other.pick ann weir = other.pick ann (Bytes.ofString "welsh") := by
    rintro (_ | _) h
    · rfl
    · exact absurd rfl h
  refine ⟨houtline.trans hlisted, (hnames _ _ _ _ _ hlast).1 ?_,
    (hnames _ _ _ _ _ hfirst).2 2 ?_ (by decide), (hwarned plain rfl).2 hnone,
    hliteral hnone _ _ _ ⟨rfl, by simp⟩⟩
  · rw [hlisted]
    decide
  · rw [hlisted]
    rintro p hp -
    simp only [List.mem_cons, List.not_mem_nil, or_false] at hp
    obtain rfl | rfl := hp
    · exact ⟨1, rfl, by omega⟩
    · exact ⟨2, rfl, by omega⟩

end Template

end LoginNames
