import LoginNames.Proofs.References
import LoginNames.Proofs.Toml.Sections

/-! # Substitution in documents

No reference reaches over the border between two texts where each one that starts in the first is
closed in it. So a row of a document is substituted by itself, and where the inserted values hold no
quotes, backslashes and control characters what comes of it is the same row with other texts. -/

set_option autoImplicit false

namespace LoginNames

namespace Environment

/-- Each dollar sign with an opening brace starts a reference. -/
def Closes (text : List Char) : Prop :=
  ∀ rest, '$' :: '{' :: rest <:+ text → StartsReference ('$' :: '{' :: rest)

theorem closes_iff_tails {text : List Char} :
    (text.tails.all fun tail =>
      !List.isPrefixOf ['$', '{'] tail || (reference? (tail.drop 2)).isSome) = true ↔
      Closes text := by
  simp only [List.all_eq_true, List.mem_tails, Bool.or_eq_true, Bool.not_eq_true']
  constructor
  · intro h rest hrest
    obtain hopen | hfound := h _ hrest
    · simp at hopen
    · exact startsReference_iff.mpr (Option.isSome_iff_exists.mp hfound)
  · intro h tail htail
    cases hopen : List.isPrefixOf ['$', '{'] tail with
    | false => exact .inl rfl
    | true =>
      obtain ⟨rest, rfl⟩ := List.isPrefixOf_iff_prefix.mp hopen
      exact .inr (Option.isSome_iff_exists.mpr (startsReference_iff.mp (h rest htail)))

instance : DecidablePred Closes := fun _ => decidable_of_iff _ closes_iff_tails

theorem Closes.shut {text : List Char} (h : Closes text) : Shut text := by
  intro rest hrest
  obtain ⟨name, behind, -, heq⟩ := h rest hrest
  rw [(List.cons.inj (List.cons.inj heq).2).2]
  exact List.mem_append_right name List.mem_cons_self

variable (lookup : String → Option String)

theorem substituteChars_of_no_dollar {text : List Char} (h : '$' ∉ text) :
    substituteChars lookup text = text := by
  refine substituteChars_of_unset fun name hname => ?_
  rw [references_of_open fun rest hrest => absurd (hrest.subset List.mem_cons_self) h] at hname
  cases hname

theorem substituteChars_verbatim {a : List Char} (h : '$' ∉ a) (b : List Char) :
    substituteChars lookup (a ++ b) = a ++ substituteChars lookup b := by
  have hborder (hend : ['$'] <:+ a) : ¬ ['{'] <+: b := absurd (hend.subset List.mem_cons_self) h
  rw [substituteChars_append lookup (shut_of_no_dollar h) hborder,
    substituteChars_of_no_dollar lookup h]

/-- What comes out was there before or comes from a value. -/
theorem mem_substituteChars {lookup : String → Option String} {text : List Char} {c : Char}
    (h : c ∈ substituteChars lookup text) :
    c ∈ text ∨ ∃ name value, lookup name = some value ∧ c ∈ value.toList := by
  obtain ⟨parts, hparts⟩ := Scans.total text
  rw [hparts.substituteChars_eq] at h
  obtain ⟨part, hpart, hc⟩ := List.mem_flatMap.mp h
  have hspelled (hc : c ∈ part.spelled) : c ∈ text := by
    rw [← hparts.spelled]
    exact List.mem_flatMap.mpr ⟨part, hpart, hc⟩
  cases part with
  | copied d => exact .inl (hspelled hc)
  | reference name =>
    cases hvalue : lookup (String.ofList name) with
    | none =>
      rw [Part.filled, hvalue] at hc
      exact .inl (hspelled hc)
    | some value =>
      rw [Part.filled, hvalue] at hc
      exact .inr ⟨_, value, hvalue, hc⟩

end Environment

namespace Toml

open Environment (Closes substitute substituteChars)

namespace Quoted

/-- A character that is spelled as it is: no quote, no backslash and no control character. -/
def IsHarmless (c : Char) : Prop := ' ' ≤ c ∧ c ≠ '\x7f' ∧ c ≠ '"' ∧ c ≠ '\\'

instance : DecidablePred IsHarmless := fun c =>
  inferInstanceAs (Decidable (' ' ≤ c ∧ c ≠ '\x7f' ∧ c ≠ '"' ∧ c ≠ '\\'))

/-- Harmless characters are spelled as they are. -/
def Escaping.Keeps (e : Escaping) : Prop := ∀ c, IsHarmless c → e.spell c = [c]

theorem Escaping.Keeps.body {e : Escaping} (h : e.Keeps) {text : List Char}
    (htext : ∀ c ∈ text, IsHarmless c) : e.body text = text := by
  rw [Escaping.body, List.flatMap_congr fun c hc => h c (htext c hc), List.flatMap_singleton']

theorem Escaping.usual_keeps : Escaping.usual.Keeps := by
  rintro c ⟨hspace, hdelete, hquote, hbackslash⟩
  have hletter : shortLetter? c = none := by
    unfold shortLetter?
    split
    case h_8 => rfl
    case h_1 => exact absurd rfl hquote
    case h_2 => exact absurd rfl hbackslash
    all_goals exact absurd hspace (by decide)
  have hplain : isPlain c = true := by simp [isPlain, hspace, hdelete]
  simp [usual, hletter, hplain]

end Quoted

/-- A text of harmless characters in which each reference is closed. -/
def IsHarmlessText (text : List Char) : Prop := (∀ c ∈ text, Quoted.IsHarmless c) ∧ Closes text

instance : DecidablePred IsHarmlessText := fun text =>
  decidable_of_iff (text.all (Quoted.IsHarmless ·) = true ∧ Closes text)
    (and_congr_left fun _ => by simp [List.all_eq_true])

/-- Whatever is inserted is harmless. -/
def HarmlessValues (lookup : String → Option String) : Prop :=
  ∀ name value, lookup name = some value → ∀ c ∈ value.toList, Quoted.IsHarmless c

theorem HarmlessValues.substitute {lookup : String → Option String} (h : HarmlessValues lookup)
    {s : String} (hs : ∀ c ∈ s.toList, Quoted.IsHarmless c) :
    ∀ c ∈ (substitute lookup s).toList, Quoted.IsHarmless c := by
  intro c hc
  rw [Environment.substitute, String.toList_ofList] at hc
  obtain hmem | ⟨name, value, hvalue, hmem⟩ := Environment.mem_substituteChars hc
  · exact hs c hmem
  · exact h name value hvalue c hmem

def Literal.mapText (f : String → String) : Literal → Literal
  | text s => text (f s)
  | number n => number n
  | truth b => truth b

def Literal.IsHarmless : Literal → Prop
  | text s => IsHarmlessText s.toList
  | number _ | truth _ => True

def Row.mapText (f : String → String) : Row → Row
  | header name => header name
  | entry key literal => entry key (literal.mapText f)

def Row.IsHarmless : Row → Prop
  | header _ => True
  | entry _ literal => literal.IsHarmless

theorem IsBareName.no_dollar {name : List Char} (h : IsBareName name) : '$' ∉ name :=
  fun hmem => absurd (h.isBare _ hmem) (by decide)

section Rows

variable {lookup : String → Option String} {e : Quoted.Escaping}

theorem Literal.substituteChars_print_text (he : e.Keeps) (hvalues : HarmlessValues lookup)
    {s : String} (h : IsHarmlessText s.toList) (rest : List Char) :
    substituteChars lookup ((text s).print e ++ '\n' :: rest) =
      (text (substitute lookup s)).print e ++ '\n' :: substituteChars lookup rest := by
  have hprint {s : String} (h : ∀ c ∈ s.toList, Quoted.IsHarmless c) (rest : List Char) :
      (text s).print e ++ '\n' :: rest = ['"'] ++ (s.toList ++ (['"', '\n'] ++ rest)) := by
    simp [print, he.body h]
  -- The quote behind the text is no brace, so nothing is matched over it.
  have hborder (_ : ['$'] <:+ s.toList) : ¬ ['{'] <+: ['"', '\n'] ++ rest := by
    rintro ⟨behind, heq⟩
    cases heq
  rw [hprint h.1, hprint (hvalues.substitute h.1),
    Environment.substituteChars_verbatim lookup (by decide),
    Environment.substituteChars_append lookup h.2.shut hborder,
    Environment.substituteChars_verbatim lookup (by decide), substitute, String.toList_ofList]

theorem Literal.substituteChars_print_bare {name : List Char} (h : IsBareName name)
    (rest : List Char) :
    substituteChars lookup (name ++ '\n' :: rest) =
      name ++ '\n' :: substituteChars lookup rest := by
  have hline : substituteChars lookup (['\n'] ++ rest) = ['\n'] ++ substituteChars lookup rest :=
    Environment.substituteChars_verbatim lookup (by decide) rest
  rw [Environment.substituteChars_verbatim lookup h.no_dollar]
  exact congrArg (name ++ ·) hline

/-- A literal that ends with its line is substituted by itself. -/
theorem Literal.substituteChars_print (he : e.Keeps) (hvalues : HarmlessValues lookup)
    {literal : Literal} (h : literal.IsHarmless) (rest : List Char) :
    substituteChars lookup (literal.print e ++ '\n' :: rest) =
      (literal.mapText (substitute lookup)).print e ++ '\n' :: substituteChars lookup rest := by
  cases literal with
  | text s => exact substituteChars_print_text he hvalues h rest
  | number n => exact substituteChars_print_bare (isBareName_digits n) rest
  | truth b => exact substituteChars_print_bare (isBareName_truthWord b) rest

theorem Row.substituteChars_print (he : e.Keeps) (hvalues : HarmlessValues lookup) {row : Row}
    (hname : IsBareName row.name.toList) (h : row.IsHarmless) (rest : List Char) :
    substituteChars lookup (row.print e ++ rest) =
      (row.mapText (substitute lookup)).print e ++ substituteChars lookup rest := by
  cases row with
  | header name =>
    have hprint : '$' ∉ (header name).print e := by
      have hdollar : '$' ∉ name.toList := hname.no_dollar
      simp [print, hdollar]
    exact Environment.substituteChars_verbatim lookup hprint rest
  | entry key literal =>
    have hkey : '$' ∉ key.toList := hname.no_dollar
    have hprint (literal : Literal) (rest : List Char) : (entry key literal).print e ++ rest =
        key.toList ++ ([' ', '=', ' '] ++ (literal.print e ++ '\n' :: rest)) := by
      simp [print]
    rw [mapText, hprint, hprint, Environment.substituteChars_verbatim lookup hkey,
      Environment.substituteChars_verbatim lookup (by decide),
      Literal.substituteChars_print he hvalues h]

theorem Row.substituteChars_flatMap (he : e.Keeps) (hvalues : HarmlessValues lookup)
    {rows : List Row} (hnames : ∀ row ∈ rows, IsBareName row.name.toList)
    (h : ∀ row ∈ rows, row.IsHarmless) :
    substituteChars lookup (rows.flatMap (print e)) =
      (rows.map (mapText (substitute lookup))).flatMap (print e) := by
  induction rows with
  | nil => exact Environment.substituteChars_of_no_dollar lookup List.not_mem_nil
  | cons row rows ih =>
    obtain ⟨hname, hnames⟩ := List.forall_mem_cons.mp hnames
    obtain ⟨hrow, hrows⟩ := List.forall_mem_cons.mp h
    rw [List.flatMap_cons, substituteChars_print he hvalues hname hrow, ih hnames hrows]
    rfl

end Rows

namespace Section

variable {name : String} {declared others : List (String × Option Literal)}
  {hname : IsBareName name.toList} {hkeys : ∀ key ∈ declared.map Prod.fst, IsBareName key.toList}
  {hnodup : (declared.map Prod.fst).Nodup}

theorem present_mapText (f : String → String) (declared : List (String × Option Literal)) :
    present (declared.map fun (key, literal?) => (key, literal?.map (Literal.mapText f))) =
      (present declared).map fun (key, literal) => (key, literal.mapText f) := by
  induction declared with
  | nil => rfl
  | cons setting declared ih =>
    obtain ⟨key, _ | literal⟩ := setting
    · exact ih
    · exact congrArg _ ih

theorem rows_mapText (f : String → String)
    (h : others = declared.map fun (key, literal?) => (key, literal?.map (Literal.mapText f)))
    (hkeys' : ∀ key ∈ others.map Prod.fst, IsBareName key.toList)
    (hnodup' : (others.map Prod.fst).Nodup) :
    (ofDeclared name declared hname hkeys hnodup).rows.map (Row.mapText f) =
      (ofDeclared name others hname hkeys' hnodup').rows := by
  subst h
  simp only [rows, ofDeclared, present_mapText, List.map_cons, List.map_map]
  rfl

theorem harmless_rows (h : ∀ setting ∈ declared, ∀ literal ∈ setting.2, literal.IsHarmless) :
    ∀ row ∈ (ofDeclared name declared hname hkeys hnodup).rows, row.IsHarmless := by
  intro row hrow
  obtain rfl | hentry := List.mem_cons.mp hrow
  · trivial
  · obtain ⟨⟨key, literal⟩, hpresent, rfl⟩ := List.mem_map.mp hentry
    obtain ⟨setting, hsetting, hliteral⟩ := List.mem_filterMap.mp hpresent
    obtain ⟨literal, hsome, heq⟩ := Option.map_eq_some_iff.mp hliteral
    cases heq
    exact h setting hsetting literal hsome

end Section

end Toml

end LoginNames
