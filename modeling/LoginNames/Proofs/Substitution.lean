import LoginNames.Environment
import LoginNames.Proofs.Text.Pattern
import LoginNames.Proofs.Text.Separator

/-! # The scanner of references

A text is scanned for references once, from left to right: where one stands it is taken whole, and
anything else is copied one character at a time. The relation `Scans` gives what the scanner finds,
which hangs on the text alone, and a substitution fills in the references found. The same comes of
replacing all matches of the pattern that spells a reference. -/

set_option autoImplicit false

namespace LoginNames.Environment

/-- What stands between the braces of a reference. -/
def IsName (name : List Char) : Prop := name ≠ [] ∧ '}' ∉ name

/-- A dollar sign and a name in braces, at the start of a text. -/
def StartsReference (text : List Char) : Prop :=
  ∃ name rest, IsName name ∧ text = '$' :: '{' :: (name ++ '}' :: rest)

theorem reference?_name {name : List Char} (h : IsName name) (rest : List Char) :
    reference? (name ++ '}' :: rest) = some (name, rest) := by
  obtain ⟨c, tail, rfl⟩ := List.exists_cons_of_ne_nil h.1
  rw [reference?, takeWhile_bne_append h.2, dropWhile_bne_append h.2]

theorem reference?_eq_some {text name rest : List Char} :
    reference? text = some (name, rest) ↔ IsName name ∧ text = name ++ '}' :: rest := by
  constructor
  · intro h
    have hsplit : text.takeWhile (· != '}') ++ text.dropWhile (· != '}') = text :=
      List.takeWhile_append_dropWhile
    have hstop := List.head?_dropWhile_not (· != '}') text
    unfold reference? at h
    split at h
    next c tail d behind htake hdrop =>
      cases h
      rw [hdrop] at hstop
      obtain rfl : d = '}' := by simpa using hstop
      refine ⟨⟨List.cons_ne_nil c tail, fun hmem => ?_⟩, ?_⟩
      · rw [← htake] at hmem
        exact absurd (List.mem_takeWhile_imp hmem) (by decide)
      · rw [← htake, ← hdrop, hsplit]
    · cases h
  · rintro ⟨hname, rfl⟩
    exact reference?_name hname rest

theorem startsReference_iff {text : List Char} :
    StartsReference ('$' :: '{' :: text) ↔ ∃ found, reference? text = some found := by
  constructor
  · rintro ⟨name, rest, hname, heq⟩
    cases heq
    exact ⟨_, reference?_name hname rest⟩
  · rintro ⟨⟨name, rest⟩, hfound⟩
    obtain ⟨hname, rfl⟩ := reference?_eq_some.mp hfound
    exact ⟨name, rest, hname, rfl⟩

section Equations

variable {c : Char} {name rest text : List Char}

theorem substituteChars_reference (lookup : String → Option String) (h : IsName name)
    (rest : List Char) :
    substituteChars lookup ('$' :: '{' :: (name ++ '}' :: rest)) =
      expansion lookup name ++ substituteChars lookup rest := by
  rw [substituteChars]
  split
  next found rest' hfound =>
    rw [reference?_name h] at hfound
    cases hfound
    rfl
  next hnone =>
    rw [reference?_name h] at hnone
    cases hnone

theorem substituteChars_copied (lookup : String → Option String)
    (h : ¬ StartsReference (c :: text)) :
    substituteChars lookup (c :: text) = c :: substituteChars lookup text := by
  conv => lhs; unfold substituteChars
  split
  next heq => cases heq
  next text' heq =>
    cases heq
    split
    next name rest hfound => exact absurd (startsReference_iff.mpr ⟨_, hfound⟩) h
    next hnone => rfl
  next heq =>
    cases heq
    rfl

theorem references_reference (h : IsName name) (rest : List Char) :
    references ('$' :: '{' :: (name ++ '}' :: rest)) = name :: references rest := by
  rw [references]
  split
  next found rest' hfound =>
    rw [reference?_name h] at hfound
    cases hfound
    rfl
  next hnone =>
    rw [reference?_name h] at hnone
    cases hnone

theorem references_copied (h : ¬ StartsReference (c :: text)) :
    references (c :: text) = references text := by
  conv => lhs; unfold references
  split
  next heq => cases heq
  next text' heq =>
    cases heq
    split
    next name rest hfound => exact absurd (startsReference_iff.mpr ⟨_, hfound⟩) h
    next hnone => rfl
  next heq =>
    cases heq
    rfl

end Equations

/-- A character that is copied, or a reference. -/
inductive Part
  | copied (c : Char)
  | reference (name : List Char)
deriving DecidableEq

namespace Part

def name? : Part → Option (List Char)
  | copied _ => none
  | reference name => some name

def spelled : Part → List Char
  | copied c => [c]
  | reference name => '$' :: '{' :: name ++ ['}']

/-- The value of a reference where it has one, and what is spelled otherwise. -/
def filled (lookup : String → Option String) : Part → List Char
  | copied c => [c]
  | reference name =>
    match lookup (String.ofList name) with
    | some value => value.toList
    | none => (reference name).spelled

end Part

/-- What a scan of a text finds, from left to right. -/
inductive Scans : List Char → List Part → Prop
  | done : Scans [] []
  | reference {name rest : List Char} {parts : List Part} (hname : IsName name)
      (hrest : Scans rest parts) :
      Scans ('$' :: '{' :: (name ++ '}' :: rest)) (.reference name :: parts)
  | copied {c : Char} {rest : List Char} {parts : List Part} (h : ¬ StartsReference (c :: rest))
      (hrest : Scans rest parts) : Scans (c :: rest) (.copied c :: parts)

namespace Scans

variable {text : List Char} {parts : List Part}

theorem total (text : List Char) : ∃ parts, Scans text parts := by
  induction hlength : text.length using Nat.strong_induction_on generalizing text with
  | _ length ih =>
    by_cases h : StartsReference text
    · obtain ⟨name, rest, hname, rfl⟩ := h
      have hshorter : rest.length < length := by
        simp only [← hlength, List.length_cons, List.length_append]
        omega
      obtain ⟨parts, hparts⟩ := ih _ hshorter rest rfl
      exact ⟨_, .reference hname hparts⟩
    · cases text with
      | nil => exact ⟨[], .done⟩
      | cons c rest =>
        obtain ⟨parts, hparts⟩ := ih rest.length (by simp [← hlength]) rest rfl
        exact ⟨_, .copied h hparts⟩

theorem of_reference {name rest : List Char} (hname : IsName name)
    (h : Scans ('$' :: '{' :: (name ++ '}' :: rest)) parts) :
    ∃ tail, parts = .reference name :: tail ∧ Scans rest tail := by
  generalize htext : '$' :: '{' :: (name ++ '}' :: rest) = text at h
  cases h with
  | done => cases htext
  | @reference other rest' tail hother hrest =>
    have hfound := reference?_name hname rest
    rw [(List.cons.inj (List.cons.inj htext).2).2, reference?_name hother] at hfound
    cases hfound
    exact ⟨tail, rfl, hrest⟩
  | copied h => exact absurd ⟨name, rest, hname, htext.symm⟩ h

theorem unique {other : List Part} (h : Scans text parts) (hother : Scans text other) :
    other = parts := by
  induction h generalizing other with
  | done => cases hother; rfl
  | @reference name rest parts hname hrest ih =>
    obtain ⟨tail, rfl, htail⟩ := hother.of_reference hname
    rw [ih htail]
  | @copied c rest parts h hrest ih =>
    cases hother with
    | reference hname hother => exact absurd ⟨_, _, hname, rfl⟩ h
    | copied _ hother => rw [ih hother]

theorem spelled (h : Scans text parts) : parts.flatMap Part.spelled = text := by
  induction h with
  | done => rfl
  | reference hname hrest ih => simp [Part.spelled, ih]
  | copied h hrest ih => rw [List.flatMap_cons, ih]; rfl

theorem substituteChars_eq (h : Scans text parts) (lookup : String → Option String) :
    substituteChars lookup text = parts.flatMap (Part.filled lookup) := by
  induction h with
  | done => rw [substituteChars]; rfl
  | @reference name rest parts hname hrest ih =>
    rw [substituteChars_reference lookup hname, ih, List.flatMap_cons]
    rfl
  | copied h hrest ih => rw [substituteChars_copied lookup h, ih]; rfl

theorem references_eq (h : Scans text parts) : references text = parts.filterMap Part.name? := by
  induction h with
  | done => rw [references]; rfl
  | reference hname hrest ih => rw [references_reference hname, ih]; rfl
  | copied h hrest ih => rw [references_copied h, ih]; rfl

end Scans

/-- A text comes out as it went in where no variable that it refers to has a value. -/
theorem substituteChars_of_unset {lookup : String → Option String} {text : List Char}
    (h : ∀ name ∈ references text, lookup (String.ofList name) = none) :
    substituteChars lookup text = text := by
  obtain ⟨parts, hparts⟩ := Scans.total text
  rw [hparts.references_eq] at h
  calc substituteChars lookup text = parts.flatMap (Part.filled lookup) :=
        hparts.substituteChars_eq lookup
    _ = parts.flatMap Part.spelled := by
        refine List.flatMap_congr fun part hpart => ?_
        cases part with
        | copied c => rfl
        | reference name =>
          have hunset := h name (List.mem_filterMap.mpr ⟨_, hpart, rfl⟩)
          simp only [Part.filled, hunset]
    _ = text := hparts.spelled

/-- A brace that closes at once or never does makes no reference. -/
theorem references_of_open {text : List Char}
    (h : ∀ rest, '$' :: '{' :: rest <:+ text → rest.head? = some '}' ∨ '}' ∉ rest) :
    references text = [] := by
  obtain ⟨parts, hparts⟩ := Scans.total text
  induction hparts with
  | done => rw [references]
  | @reference name rest parts hname hrest ih =>
    obtain ⟨c, tail, rfl⟩ := List.exists_cons_of_ne_nil hname.1
    obtain hempty | hopen := h _ (List.suffix_refl _)
    · cases hempty
      exact absurd List.mem_cons_self hname.2
    · exact absurd (List.mem_append_right _ List.mem_cons_self) hopen
  | @copied c rest parts hcopied hrest ih =>
    rw [references_copied hcopied]
    exact ih fun behind hbehind => h behind (hbehind.trans (List.suffix_cons c rest))

/-- The pattern that spells a reference: the name is a run of anything but closing braces. -/
def referencePattern : Pattern := ⟨['$', '{'], (· != '}'), ['}']⟩

theorem referencePattern_match? {text name rest : List Char} :
    referencePattern.match? text = some (name, rest) ↔
      IsName name ∧ text = '$' :: '{' :: (name ++ '}' :: rest) := by
  rw [Pattern.match?_eq_some rfl (by decide), IsName, and_assoc]
  exact and_congr_right fun _ => and_congr_left fun _ => forall_bne

theorem Scans.replace_eq {text : List Char} {parts : List Part} (h : Scans text parts)
    (lookup : String → Option String) :
    referencePattern.replace (expansion lookup) text = parts.flatMap (Part.filled lookup) := by
  induction h with
  | done => rw [Pattern.replace]; rfl
  | @reference name rest parts hname hrest ih =>
    rw [Pattern.replace_of_match _ (referencePattern_match?.mpr ⟨hname, rfl⟩), ih,
      List.flatMap_cons]
    rfl
  | @copied c rest parts hcopied hrest ih =>
    have hnone : referencePattern.match? (c :: rest) = none := by
      rw [Option.eq_none_iff_forall_ne_some]
      rintro ⟨name, behind⟩ hmatch
      obtain ⟨hname, heq⟩ := referencePattern_match?.mp hmatch
      exact hcopied ⟨name, behind, hname, heq⟩
    rw [Pattern.replace_of_none _ hnone, ih]
    rfl

/-- Substitution scans a text once: what the scan finds hangs on the text alone and is found in one
    way only, and each reference in it is filled in with its value, or stands as it is spelled. So
    all matches of the pattern of references are replaced, from left to right; and a text with no
    reference to a variable that has a value comes out as it went in, whatever braces it holds. -/
theorem substitute_eq_scan (text : String) :
    ∃ parts,
      (∀ other, Scans text.toList other ↔ other = parts) ∧
        (∀ lookup, substitute lookup text = String.ofList (parts.flatMap (Part.filled lookup))) ∧
        (∀ lookup, substitute lookup text =
          String.ofList (referencePattern.replace (expansion lookup) text.toList)) ∧
        references text.toList = parts.filterMap Part.name? ∧
        (∀ lookup, (∀ name ∈ references text.toList, lookup (String.ofList name) = none) →
          substitute lookup text = text) ∧
        ((∀ rest, '$' :: '{' :: rest <:+ text.toList → rest.head? = some '}' ∨ '}' ∉ rest) →
          ∀ lookup, substitute lookup text = text) ∧
        (¬ ['$', '{'] <:+: text.toList → ∀ lookup, substitute lookup text = text) := by
  obtain ⟨parts, hparts⟩ := Scans.total text.toList
  have hunset (lookup : String → Option String)
      (h : ∀ name ∈ references text.toList, lookup (String.ofList name) = none) :
      substitute lookup text = text := by
    rw [substitute, substituteChars_of_unset h, String.ofList_toList]
  have hopen (h : ∀ rest, '$' :: '{' :: rest <:+ text.toList →
      rest.head? = some '}' ∨ '}' ∉ rest) (lookup : String → Option String) :
      substitute lookup text = text := by
    refine hunset lookup fun name hname => ?_
    rw [references_of_open h] at hname
    cases hname
  refine ⟨parts, ?scan, ?filled, ?replaced, hparts.references_eq, hunset, hopen, ?plain⟩
  case scan =>
    intro other
    constructor
    · exact hparts.unique
    · rintro rfl
      exact hparts
  case filled =>
    intro lookup
    rw [substitute, hparts.substituteChars_eq]
  case replaced =>
    intro lookup
    rw [substitute, hparts.substituteChars_eq, hparts.replace_eq]
  case plain =>
    intro hplain
    refine hopen fun rest hrest => absurd ?_ hplain
    exact (List.prefix_append ['$', '{'] rest).isInfix.trans hrest.isInfix

/-- Empty braces, a value that looks like a reference, a reference over two lines that holds the
    start of another one, and braces that do not close. -/
theorem substitute_eq_scan_nested :
    let lookup (name : String) : Option String :=
      if name = "a" then some "$\x7bb\x7d" else if name = "b" then some "!" else none
    let text := "$\x7b\x7d$\x7ba\x7d $\x7b\n$\x7bb\x7d"
    let unclosed := "$$\x7b\x7d \x7bb\x7d$\x7bb"
    references text.toList = [['a'], ['\n', '$', '{', 'b']] ∧
      substitute lookup text = "$\x7b\x7d$\x7bb\x7d $\x7b\n$\x7bb\x7d" ∧
      substitute (fun _ => none) text = text ∧
      references unclosed.toList = [] ∧
      substitute lookup unclosed = unclosed := by
  intro lookup text unclosed
  obtain ⟨-, -, -, hreplaced, -, hunset, -, -⟩ := substitute_eq_scan text
  obtain ⟨-, -, -, -, -, hclosed, -, -⟩ := substitute_eq_scan unclosed
  have hreferences : references unclosed.toList = [] := by cbv
  refine ⟨by cbv, (hreplaced lookup).trans (by cbv), hunset _ fun _ _ => rfl, hreferences, ?_⟩
  refine hclosed lookup fun name hname => ?_
  rw [hreferences] at hname
  cases hname

end LoginNames.Environment
