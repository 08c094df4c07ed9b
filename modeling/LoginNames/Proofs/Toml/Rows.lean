import LoginNames.Proofs.Toml.Literal

/-! # Documents written in rows

A row is a header with one name or a line that sets one key. The layout of rows that are written one
below the other is what each row says, in the same order. -/

set_option autoImplicit false

namespace LoginNames.Toml

/-- A name that needs no quotes. -/
structure IsBareName (name : List Char) : Prop where
  ne_nil : name ≠ []
  isBare : ∀ c ∈ name, Piece.isBare c = true

instance (name : List Char) : Decidable (IsBareName name) :=
  decidable_of_iff (name ≠ [] ∧ name.all Piece.isBare = true)
    ⟨fun ⟨hne, hbare⟩ => ⟨hne, List.all_eq_true.mp hbare⟩,
      fun ⟨hne, hbare⟩ => ⟨hne, List.all_eq_true.mpr hbare⟩⟩

namespace Layout

theorem ne_of_isBare {c d : Char} (hc : Piece.isBare c = true) (hd : Piece.isBare d = false) :
    c ≠ d := by
  rintro rfl
  rw [hc] at hd
  cases hd

theorem endsKey_of_isBare {c : Char} (h : Piece.isBare c = true) : endsKey c = false := by
  by_contra hends
  simp only [endsKey, isMark, isBlank, Bool.not_eq_false, Bool.or_eq_true, decide_eq_true_eq,
    or_assoc] at hends
  rcases hends with rfl | rfl | rfl | rfl | rfl | rfl | rfl | rfl | rfl | rfl | rfl | rfl
  all_goals exact absurd h (by decide)

theorem ends_of_isBare {c : Char} (h : Piece.isBare c = true) :
    isMark c = false ∧ isBlank c = false := by
  have hstop := endsKey_of_isBare h
  simp only [endsKey, Bool.or_eq_false_iff] at hstop
  exact hstop.1

variable {name : List Char}

theorem quoted?_eq_none {c : Char} (hquote : c ≠ '"') (hapostrophe : c ≠ '\'')
    (rest : List Char) : quoted? (c :: rest) = none := by
  unfold quoted?
  split
  next heq => exact absurd (List.cons.inj heq).1 hquote
  next heq => exact absurd (List.cons.inj heq).1 hquote
  next heq => exact absurd (List.cons.inj heq).1 hapostrophe
  next heq => exact absurd (List.cons.inj heq).1 hapostrophe
  next => rfl

theorem quoted?_bare (h : IsBareName name) (rest : List Char) : quoted? (name ++ rest) = none := by
  obtain ⟨c, tail, rfl⟩ := List.exists_cons_of_ne_nil h.ne_nil
  have hc := h.isBare c List.mem_cons_self
  exact quoted?_eq_none (ne_of_isBare hc (by decide)) (ne_of_isBare hc (by decide)) _

theorem key_bare (h : IsBareName name) {stop : Char} (hstop : endsKey stop = true)
    (rest : List Char) : key (name ++ stop :: rest) = (.word name, stop :: rest) := by
  have hname : ∀ c ∈ name, (!endsKey c) = true := fun c hc => by
    rw [endsKey_of_isBare (h.isBare c hc)]
    rfl
  rw [key, quoted?_bare h, List.takeWhile_append_of_pos hname, List.dropWhile_append_of_pos hname,
    List.takeWhile_cons_of_neg (by simp [hstop]), List.dropWhile_cons_of_neg (by simp [hstop]),
    List.append_nil]
  rfl

theorem word_bare (h : IsBareName name) (rest : List Char) :
    word (name ++ '\n' :: rest) = (name, '\n' :: rest) := by
  have hends (c : Char) (hc : c ∈ name) := ends_of_isBare (h.isBare c hc)
  have hrun : (name ++ '\n' :: rest).takeWhile (!isMark ·) = name := by
    rw [List.takeWhile_append_of_pos fun c hc => by rw [(hends c hc).1]; rfl,
      List.takeWhile_cons_of_neg (by decide), List.append_nil]
  have hblank : name.reverse.dropWhile isBlank = name.reverse := by
    refine List.dropWhile_eq_self_iff.mpr fun hlength => ?_
    rw [Bool.not_eq_true]
    exact (hends _ (List.mem_reverse.mp (List.getElem_mem hlength))).2
  simp only [word, hrun, hblank, List.reverse_reverse, List.drop_left]

theorem scalar_bare (h : IsBareName name) (rest : List Char) :
    scalar (name ++ '\n' :: rest) = (.word name, '\n' :: rest) := by
  rw [scalar, quoted?_bare h, word_bare h]
  rfl

theorem quoted?_basic {text : List Char} (h : ¬ ['"', '"'] <+: text) :
    quoted? ('"' :: text) = some (.quoted (Quoted.basic text).1 false, (Quoted.basic text).2) := by
  unfold quoted?
  split
  next rest heq =>
    cases heq
    exact absurd ⟨rest, rfl⟩ h
  next heq =>
    cases heq
    rfl
  next heq => cases heq
  next heq => cases heq
  next _ hother _ _ => exact absurd rfl (hother text)

end Layout

theorem Quoted.Spells.exists_cons {c : Char} {spelled : List Char} (h : Spells c spelled) :
    ∃ d tail, spelled = d :: tail ∧ d ≠ '"' := by
  cases h with
  | plain hplain hquote hbackslash => exact ⟨c, [], rfl, hquote⟩
  | short h => exact ⟨_, _, rfl, by decide⟩
  | hexadecimal hwidth hnumber => exact ⟨_, _, rfl, by decide⟩

/-- An empty text is no start of three quotes, as the line ends behind it. -/
theorem Quoted.Escaping.body_no_quotes (e : Escaping) (text rest : List Char) :
    ¬ ['"', '"'] <+: e.body text ++ '"' :: '\n' :: rest := by
  rintro ⟨behind, heq⟩
  cases text with
  | nil => cases heq
  | cons c text =>
    obtain ⟨d, tail, hspelled, hd⟩ := (e.spells c).exists_cons
    rw [body, List.flatMap_cons, hspelled] at heq
    exact hd (List.cons.inj heq).1.symm

namespace Literal

theorem isBareName_digits (n : Nat) : IsBareName (Nat.toDigits 10 n) := by
  refine ⟨Nat.toDigits_ne_nil, fun c hc => ?_⟩
  have hdigit := (Scalar.isDigits_toDigits n).2 c hc
  simp [Piece.isBare, Char.isAlphanum, hdigit]

theorem isBareName_truthWord (b : Bool) : IsBareName (truthWord b) := by
  have hne : truthWord b ≠ [] := by cases b <;> exact List.cons_ne_nil _ _
  have hbare : (truthWord b).all Piece.isBare = true := by cases b <;> decide
  exact ⟨hne, List.all_eq_true.mp hbare⟩

theorem scalar_print (e : Quoted.Escaping) (l : Literal) (rest : List Char) :
    Layout.scalar (l.print e ++ '\n' :: rest) = (l.piece, '\n' :: rest) := by
  cases l with
  | text s =>
    have hprint : (text s).print e ++ '\n' :: rest =
        '"' :: (e.body s.toList ++ '"' :: '\n' :: rest) := by
      simp [print]
    rw [hprint, Layout.scalar, Layout.quoted?_basic (e.body_no_quotes s.toList rest),
      e.basic_body]
    rfl
  | number n => exact Layout.scalar_bare (isBareName_digits n) rest
  | truth b => exact Layout.scalar_bare (isBareName_truthWord b) rest

/-- What a literal starts with is no blank, and no bracket or brace of another kind of value. -/
theorem exists_print_eq (e : Quoted.Escaping) (l : Literal) :
    ∃ c tail, l.print e = c :: tail ∧ isBlank c = false ∧ c ≠ '[' ∧ c ≠ '{' := by
  have hbare {name : List Char} (h : IsBareName name) :
      ∃ c tail, name = c :: tail ∧ isBlank c = false ∧ c ≠ '[' ∧ c ≠ '{' := by
    obtain ⟨c, tail, rfl⟩ := List.exists_cons_of_ne_nil h.ne_nil
    have hc := h.isBare c List.mem_cons_self
    exact ⟨c, tail, rfl, (Layout.ends_of_isBare hc).2, Layout.ne_of_isBare hc (by decide),
      Layout.ne_of_isBare hc (by decide)⟩
  cases l with
  | text s => exact ⟨'"', _, rfl, by decide⟩
  | number n => exact hbare (isBareName_digits n)
  | truth b => exact hbare (isBareName_truthWord b)

theorem node?_print (bound depth : Nat) (e : Quoted.Escaping) (l : Literal) (rest : List Char) :
    Layout.node? bound depth (l.print e ++ '\n' :: rest) =
      some (.scalar l.piece, '\n' :: rest) := by
  have hscalar := l.scalar_print e rest
  obtain ⟨c, tail, hprint, -, hbracket, hbrace⟩ := l.exists_print_eq e
  rw [hprint] at hscalar ⊢
  unfold Layout.node?
  split
  next heq => exact absurd (List.cons.inj heq).1 hbracket
  next heq => exact absurd (List.cons.inj heq).1 hbrace
  next => rw [hscalar]

end Literal

/-- A header, or a key with its value. -/
inductive Row
  | header (name : String)
  | entry (key : String) (literal : Literal)
deriving DecidableEq

namespace Row

def name : Row → String
  | header name => name
  | entry key _ => key

def print (e : Quoted.Escaping) : Row → List Char
  | header name => '[' :: (name.toList ++ [']', '\n'])
  | entry key literal => key.toList ++ ([' ', '=', ' '] ++ (literal.print e ++ ['\n']))

def line : Row → Line
  | header name => .header [.word name.toList]
  | entry key literal => .entry [.word key.toList] (.scalar literal.piece)

variable {name : List Char}

theorem skipBlank_of_not_isBlank {c : Char} (h : isBlank c = false) (rest : List Char) :
    Layout.skipBlank (c :: rest) = c :: rest :=
  List.dropWhile_cons_of_neg (by simp [h])

theorem keys?_bare (h : IsBareName name) {stop c : Char} {rest after : List Char}
    (hstop : Layout.endsKey stop = true) (hafter : Layout.skipBlank (stop :: rest) = c :: after)
    (hdot : c ≠ '.') (bound : Nat) :
    Layout.keys? (bound + 1) (name ++ stop :: rest) = some ([.word name], c :: after) := by
  rw [Layout.keys?, Layout.key_bare h hstop]
  simp only [hafter]
  split
  next heq => exact absurd (List.cons.inj heq).1 hdot
  next => rfl

theorem headerKeys?_bare (h : IsBareName name) (bound : Nat) (rest : List Char) :
    Layout.headerKeys? (bound + 1) (name ++ ']' :: rest) = some ([.word name], rest) := by
  have hkeys : Layout.keys? (bound + 1) (name ++ ']' :: rest) = some ([.word name], ']' :: rest) :=
    keys?_bare h (by decide) rfl (by decide) bound
  obtain ⟨c, tail, rfl⟩ := List.exists_cons_of_ne_nil h.ne_nil
  have hblank := (Layout.ends_of_isBare (h.isBare c List.mem_cons_self)).2
  rw [Layout.headerKeys?, List.cons_append, skipBlank_of_not_isBlank hblank, ← List.cons_append,
    hkeys]
  rfl

theorem line?_header (h : IsBareName name) (bound : Nat) (rest : List Char) :
    Layout.line? (bound + 1) ('[' :: (name ++ ']' :: rest)) =
      some (.header [.word name], rest) := by
  have hkeys := headerKeys?_bare h bound rest
  obtain ⟨c, tail, rfl⟩ := List.exists_cons_of_ne_nil h.ne_nil
  have hbracket : c ≠ '[' := Layout.ne_of_isBare (h.isBare c List.mem_cons_self) (by decide)
  unfold Layout.line?
  split
  next heq => exact absurd (List.cons.inj (List.cons.inj heq).2).1 hbracket
  next heq =>
    cases heq
    rw [hkeys]
    rfl
  next _ hother => exact absurd rfl (hother _)

theorem line?_entry (h : IsBareName name) (e : Quoted.Escaping) (l : Literal) (bound : Nat)
    (rest : List Char) :
    Layout.line? (bound + 1) (name ++ ' ' :: '=' :: ' ' :: (l.print e ++ '\n' :: rest)) =
      some (.entry [.word name] (.scalar l.piece), '\n' :: rest) := by
  have hkeys : Layout.keys? (bound + 1) (name ++ ' ' :: '=' :: ' ' :: (l.print e ++ '\n' :: rest)) =
      some ([.word name], '=' :: ' ' :: (l.print e ++ '\n' :: rest)) :=
    keys?_bare h (by decide) rfl (by decide) bound
  have hnode := l.node?_print (bound + 1) Layout.maxDepth e rest
  have hvalue : Layout.skipBlank (' ' :: (l.print e ++ '\n' :: rest)) =
      l.print e ++ '\n' :: rest := by
    obtain ⟨c, tail, hprint, hblank, -⟩ := l.exists_print_eq e
    rw [hprint]
    exact skipBlank_of_not_isBlank hblank _
  have hassignment : Layout.assignment? (bound + 1) (some <| Layout.skipBlank ·)
      (Layout.node? (bound + 1) Layout.maxDepth)
      (name ++ ' ' :: '=' :: ' ' :: (l.print e ++ '\n' :: rest)) =
      some (([.word name], .scalar l.piece), '\n' :: rest) := by
    rw [Layout.assignment?, hkeys]
    simp [skipBlank_of_not_isBlank (show isBlank '=' = false by decide), Layout.expect?, hvalue,
      hnode]
  obtain ⟨c, tail, rfl⟩ := List.exists_cons_of_ne_nil h.ne_nil
  have hbracket : c ≠ '[' := Layout.ne_of_isBare (h.isBare c List.mem_cons_self) (by decide)
  unfold Layout.line?
  split
  next heq => exact absurd (List.cons.inj heq).1 hbracket
  next heq => exact absurd (List.cons.inj heq).1 hbracket
  next =>
    rw [hassignment]
    rfl

theorem line?_print (e : Quoted.Escaping) {row : Row} (h : IsBareName row.name.toList)
    (bound : Nat) (rest : List Char) :
    Layout.line? (bound + 1) (row.print e ++ rest) = some (row.line, '\n' :: rest) := by
  cases row with
  | header name =>
    have hprint : (header name).print e ++ rest = '[' :: (name.toList ++ ']' :: '\n' :: rest) := by
      simp [print]
    rw [hprint]
    exact line?_header h bound ('\n' :: rest)
  | entry key literal =>
    have hprint : (entry key literal).print e ++ rest =
        key.toList ++ ' ' :: '=' :: ' ' :: (literal.print e ++ '\n' :: rest) := by
      simp [print]
    rw [hprint]
    exact line?_entry h e literal bound rest

theorem skipFiller_visible {c : Char} (hline : c ≠ '\n') (hreturn : c ≠ '\r')
    (hcomment : c ≠ '#') (hblank : isBlank c = false) (rest : List Char) :
    Layout.skipFiller false (c :: rest) = some (c :: rest) := by
  unfold Layout.skipFiller
  split
  next heq => cases heq
  next heq => exact absurd (List.cons.inj heq).1 hline
  next heq => exact absurd (List.cons.inj heq).1 hreturn
  next heq =>
    cases heq
    simp [hblank, hcomment]

/-- A row starts with something that is no blank, comment or line end, and no mark of the order of
    bytes. -/
theorem exists_print_eq (e : Quoted.Escaping) {row : Row} (h : IsBareName row.name.toList)
    (rest : List Char) :
    ∃ c tail, row.print e ++ rest = c :: tail ∧ c ≠ Layout.byteOrderMark ∧
      Layout.skipFiller false (c :: tail) = some (c :: tail) := by
  cases row with
  | header name =>
    exact ⟨'[', _, rfl, by decide,
      skipFiller_visible (by decide) (by decide) (by decide) (by decide) _⟩
  | entry key literal =>
    obtain ⟨c, tail, hkey⟩ := List.exists_cons_of_ne_nil h.ne_nil
    have hc := h.isBare c (by rw [hkey]; exact List.mem_cons_self)
    have hprint : (entry key literal).print e ++ rest =
        c :: (tail ++ ([' ', '=', ' '] ++ (literal.print e ++ ['\n'])) ++ rest) := by
      rw [print, show key.toList = c :: tail from hkey]
      rfl
    refine ⟨c, _, hprint, ?_, skipFiller_visible ?_ ?_ ?_ (Layout.ends_of_isBare hc).2 _⟩
    all_goals exact Layout.ne_of_isBare hc (by decide)

theorem lineEnd?_newline (rest : List Char) : Layout.lineEnd? ('\n' :: rest) = some rest := rfl

/-- The bound on the lines need only be above the number of rows. -/
theorem lines?_print (e : Quoted.Escaping) {rows : List Row}
    (h : ∀ row ∈ rows, IsBareName row.name.toList) {bound : Nat} (hbound : rows.length < bound) :
    Layout.lines? bound (rows.flatMap (print e)) = some (rows.map line) := by
  induction rows generalizing bound with
  | nil =>
    obtain ⟨bound, rfl⟩ := Nat.exists_eq_succ_of_ne_zero (Nat.ne_of_gt hbound)
    rfl
  | cons row rows ih =>
    obtain ⟨bound, rfl⟩ := Nat.exists_eq_succ_of_ne_zero (Nat.ne_of_gt (Nat.zero_lt_of_lt hbound))
    have hrow := h row List.mem_cons_self
    have hrest := ih (fun other hother => h other (List.mem_cons_of_mem row hother))
      (Nat.lt_of_succ_lt_succ hbound)
    have hline := line?_print e hrow bound (rows.flatMap (print e))
    obtain ⟨c, tail, hprint, -, hskip⟩ := exists_print_eq e hrow (rows.flatMap (print e))
    rw [List.flatMap_cons, hprint, Layout.lines?, hskip]
    rw [hprint] at hline
    simp [hline, lineEnd?_newline, hrest]

theorem length_le_print (e : Quoted.Escaping) (rows : List Row) :
    rows.length ≤ (rows.flatMap (print e)).length := by
  induction rows with
  | nil => exact Nat.le_refl 0
  | cons row rows ih =>
    have hrow : 1 ≤ (row.print e).length := by
      cases row <;> simp only [print, List.length_cons, List.length_append] <;> omega
    rw [List.flatMap_cons, List.length_cons, List.length_append]
    omega

theorem ofText?_print (e : Quoted.Escaping) {rows : List Row}
    (h : ∀ row ∈ rows, IsBareName row.name.toList) :
    Layout.ofText? (String.ofList (rows.flatMap (print e))) = some (rows.map line) := by
  have hlines := lines?_print e h (Nat.lt_succ_of_le (length_le_print e rows))
  rw [Layout.ofText?, String.toList_ofList]
  cases rows with
  | nil => rfl
  | cons row rows =>
    obtain ⟨c, tail, hprint, hmark, -⟩ :=
      exists_print_eq e (h row List.mem_cons_self) (rows.flatMap (print e))
    rw [List.flatMap_cons, hprint] at hlines ⊢
    simpa only [if_neg hmark] using hlines

end Row

end LoginNames.Toml
