import LoginNames.Profile
import LoginNames.Proofs.Substitution

/-! # Which references are replaced

A reference is taken whole up to its closing brace, so a text behind an opening that is still open
belongs to the name of an earlier reference. Where each opening before a reference is shut, the
reference is replaced by the value of its variable; where one is not, the reference is a part of a
longer name and is replaced with it or stays as it is spelled. -/

set_option autoImplicit false

namespace LoginNames

namespace Environment

/-- Behind each dollar sign with an opening brace, a closing brace follows. -/
def Shut (text : List Char) : Prop := ∀ rest, '$' :: '{' :: rest <:+ text → '}' ∈ rest

instance : DecidablePred Shut := fun text =>
  decidable_of_iff (∀ tail ∈ text.tails, ['$', '{'] <+: tail → '}' ∈ tail) <| by
    simp only [List.mem_tails]
    constructor
    · intro h rest hrest
      simpa using h _ hrest (List.prefix_append ['$', '{'] rest)
    · rintro h tail htail ⟨rest, rfl⟩
      exact List.mem_append_right _ (h rest htail)

theorem Shut.of_suffix {a b : List Char} (h : Shut b) (hsuffix : a <:+ b) : Shut a :=
  fun rest hrest => h rest (hrest.trans hsuffix)

theorem shut_of_no_dollar {text : List Char} (h : '$' ∉ text) : Shut text :=
  fun _ hrest => absurd (hrest.subset List.mem_cons_self) h

/-- A reference that starts in a text where it is shut ends in that text. -/
theorem StartsReference.of_append {rest behind : List Char} (h : '}' ∈ rest)
    (hstarts : StartsReference ('$' :: '{' :: (rest ++ behind))) :
    StartsReference ('$' :: '{' :: rest) := by
  obtain ⟨name, further, hname, heq⟩ := hstarts
  have hrest : rest ++ behind = name ++ '}' :: further := by simpa using heq
  obtain ⟨more, rfl, -⟩ | ⟨more, rfl, hmore⟩ := List.append_eq_append_iff.mp hrest
  · exact absurd (List.mem_append_left more h) hname.2
  · cases more with
    | nil => exact absurd (by simpa using h) hname.2
    | cons c more =>
      obtain ⟨rfl, -⟩ := List.cons.inj hmore
      exact ⟨name, more, hname, rfl⟩

/-- Two texts are scanned one after the other where no reference reaches over the border. -/
theorem Scans.append {a b : List Char} {parts others : List Part} (ha : Scans a parts)
    (hb : Scans b others) (hshut : Shut a) (hborder : ['$'] <:+ a → ¬ ['{'] <+: b) :
    Scans (a ++ b) (parts ++ others) := by
  induction ha with
  | done => exact hb
  | @reference name rest parts hname hrest ih =>
    have hsuffix : rest <:+ '$' :: '{' :: (name ++ '}' :: rest) :=
      ⟨'$' :: '{' :: (name ++ ['}']), by simp⟩
    have hbehind := ih (hshut.of_suffix hsuffix) fun hend => hborder (hend.trans hsuffix)
    simpa using Scans.reference hname hbehind
  | @copied c rest parts hcopied hrest ih =>
    have hsuffix := List.suffix_cons c rest
    refine .copied ?_ (ih (hshut.of_suffix hsuffix) fun hend => hborder (hend.trans hsuffix))
    intro hstarts
    obtain ⟨name, behind, hname, heq⟩ := hstarts
    cases rest with
    | nil =>
      cases heq
      exact hborder (List.suffix_refl _) ⟨_, rfl⟩
    | cons d rest =>
      obtain ⟨rfl, htail⟩ := List.cons.inj heq
      obtain ⟨rfl, -⟩ := List.cons.inj htail
      exact hcopied (.of_append (hshut rest (List.suffix_refl _)) ⟨name, behind, hname, heq⟩)

theorem substituteChars_append (lookup : String → Option String) {a b : List Char}
    (hshut : Shut a) (hborder : ['$'] <:+ a → ¬ ['{'] <+: b) :
    substituteChars lookup (a ++ b) = substituteChars lookup a ++ substituteChars lookup b := by
  obtain ⟨parts, ha⟩ := Scans.total a
  obtain ⟨others, hb⟩ := Scans.total b
  rw [(ha.append hb hshut hborder).substituteChars_eq, ha.substituteChars_eq,
    hb.substituteChars_eq, List.flatMap_append]

/-- The text up to the first opening that is never shut. -/
theorem exists_open_of_not_shut {text : List Char} (h : ¬ Shut text) :
    ∃ front rest, text = front ++ '$' :: '{' :: rest ∧ '}' ∉ rest ∧ Shut front := by
  have hnil : Shut [] := shut_of_no_dollar List.not_mem_nil
  induction text with
  | nil => exact absurd hnil h
  | cons c text ih =>
    by_cases htext : Shut text
    · -- Only the text as a whole can start with the opening.
      have hopen : ∃ rest, c :: text = '$' :: '{' :: rest ∧ '}' ∉ rest := by
        by_contra hnone
        push Not at hnone
        refine h fun rest hrest => ?_
        obtain heq | hrest := List.suffix_cons_iff.mp hrest
        · exact hnone rest heq.symm
        · exact htext rest hrest
      obtain ⟨rest, heq, hrest⟩ := hopen
      exact ⟨[], rest, heq, hrest, hnil⟩
    · obtain ⟨front, rest, rfl, hrest, hfront⟩ := ih htext
      by_cases hopen : ∃ inner, c :: front = '$' :: '{' :: inner ∧ '}' ∉ inner
      · obtain ⟨inner, heq, hinner⟩ := hopen
        refine ⟨[], inner ++ '$' :: '{' :: rest, ?_, ?_, hnil⟩
        · rw [← List.cons_append, heq]
          rfl
        · simp [hinner, hrest]
      · push Not at hopen
        refine ⟨c :: front, rest, rfl, hrest, fun inner hinner => ?_⟩
        obtain heq | hinner := List.suffix_cons_iff.mp hinner
        · exact hopen inner heq.symm
        · exact hfront inner hinner

section Reference

variable {before name : List Char} (hshut : Shut before) (hname : IsName name) (after : List Char)

include hshut hname

theorem Scans.at_reference {parts others : List Part} (hbefore : Scans before parts)
    (hafter : Scans after others) :
    Scans (before ++ '$' :: '{' :: (name ++ '}' :: after))
      (parts ++ .reference name :: others) := by
  refine hbefore.append (.reference hname hafter) hshut fun _ => ?_
  rintro ⟨behind, heq⟩
  cases heq

theorem substituteChars_at_reference (lookup : String → Option String) :
    substituteChars lookup (before ++ '$' :: '{' :: (name ++ '}' :: after)) =
      substituteChars lookup before ++ (expansion lookup name ++ substituteChars lookup after) := by
  obtain ⟨parts, hbefore⟩ := Scans.total before
  obtain ⟨others, hafter⟩ := Scans.total after
  rw [(hbefore.at_reference hshut hname after hafter).substituteChars_eq,
    hbefore.substituteChars_eq, hafter.substituteChars_eq, List.flatMap_append, List.flatMap_cons]
  rfl

theorem references_at_reference :
    references (before ++ '$' :: '{' :: (name ++ '}' :: after)) =
      references before ++ name :: references after := by
  obtain ⟨parts, hbefore⟩ := Scans.total before
  obtain ⟨others, hafter⟩ := Scans.total after
  rw [(hbefore.at_reference hshut hname after hafter).references_eq,
    hbefore.references_eq, hafter.references_eq, List.filterMap_append]
  rfl

end Reference

theorem toList_spelled (before name after : String) :
    (before ++ "$\x7b" ++ name ++ "\x7d" ++ after).toList =
      before.toList ++ '$' :: '{' :: (name.toList ++ '}' :: after.toList) := by
  simp

theorem references_spelled {before name : String} (hshut : Shut before.toList)
    (hname : IsName name.toList) (after : String) :
    references (before ++ "$\x7b" ++ name ++ "\x7d" ++ after).toList =
      references before.toList ++ name.toList :: references after.toList := by
  rw [toList_spelled, references_at_reference hshut hname]

theorem substitute_spelled (lookup : String → Option String) {before name : String}
    (hshut : Shut before.toList) (hname : IsName name.toList) (after : String) :
    substitute lookup (before ++ "$\x7b" ++ name ++ "\x7d" ++ after) =
      substitute lookup before ++ String.ofList (expansion lookup name.toList) ++
        substitute lookup after := by
  rw [substitute, toList_spelled, substituteChars_at_reference hshut hname]
  simp [substitute, String.append_assoc]

theorem expansion_of_value {lookup : String → Option String} {name value : String}
    (h : lookup name = some value) : String.ofList (expansion lookup name.toList) = value := by
  simp [expansion, h]

theorem expansion_of_unset {lookup : String → Option String} {name : String}
    (h : lookup name = none) :
    String.ofList (expansion lookup name.toList) = "$\x7b" ++ name ++ "\x7d" := by
  refine String.toList_inj.mp ?_
  simp [expansion, h]

/-- A reference to a variable with a value is replaced by it exactly where each opening in the text
    before it is shut there, whatever else stands before or behind it. Where one is not, everything
    from the first such opening on is the name of one longer reference: the reference is replaced
    together with the text before it if that name has a value, and otherwise it is not replaced. -/
theorem substitute_behind_text (lookup : String → Option String) {name value : String}
    (hname : IsName name.toList) (hvalue : lookup name = some value) (before after : String) :
    let text := before ++ "$\x7b" ++ name ++ "\x7d" ++ after
    (Shut before.toList →
      references text.toList =
          references before.toList ++ name.toList :: references after.toList ∧
        substitute lookup text = substitute lookup before ++ value ++ substitute lookup after) ∧
    (¬ Shut before.toList →
      ∃ front rest, before = front ++ "$\x7b" ++ rest ∧ Shut front.toList ∧ '}' ∉ rest.toList ∧
        let longer := rest ++ "$\x7b" ++ name
        references text.toList =
            references front.toList ++ longer.toList :: references after.toList ∧
          (lookup longer = none → substitute lookup text =
            substitute lookup front ++ "$\x7b" ++ longer ++ "\x7d" ++ substitute lookup after) ∧
          ∀ other, lookup longer = some other → substitute lookup text =
            substitute lookup front ++ other ++ substitute lookup after) := by
  intro text
  refine ⟨fun hshut => ⟨references_spelled hshut hname after, ?_⟩, fun hopen => ?_⟩
  · rw [substitute_spelled lookup hshut hname, expansion_of_value hvalue]
  · obtain ⟨front, rest, hbefore, hrest, hfront⟩ := exists_open_of_not_shut hopen
    obtain ⟨front, rfl⟩ : ∃ s : String, s.toList = front := ⟨.ofList front, String.toList_ofList⟩
    obtain ⟨rest, rfl⟩ : ∃ s : String, s.toList = rest := ⟨.ofList rest, String.toList_ofList⟩
    have hsplit : before = front ++ "$\x7b" ++ rest := String.toList_inj.mp (by simp [hbefore])
    have hlonger : IsName (rest ++ "$\x7b" ++ name).toList := by
      constructor
      · simp
      · simp [hrest, hname.2]
    have htext : text = front ++ "$\x7b" ++ (rest ++ "$\x7b" ++ name) ++ "\x7d" ++ after := by
      simp only [text, hsplit, String.append_assoc]
    refine ⟨front, rest, hsplit, hfront, hrest, ?_, fun hunset => ?_, fun other hother => ?_⟩
    · rw [htext, references_spelled hfront hlonger]
    · rw [htext, substitute_spelled lookup hfront hlonger, expansion_of_unset hunset]
      simp only [String.append_assoc]
    · rw [htext, substitute_spelled lookup hfront hlonger, expansion_of_value hother]

/-- Empty braces, a lone dollar sign and an unset variable leave a reference alone, and an opening
    that is never shut hides it. -/
theorem substitute_behind_text_stray :
    let lookup (name : String) : Option String := if name = "a" then some "1" else none
    let shut := "# $\x7b\x7d $ $\x7bb\x7d"
    let stray := "# $\x7b\n"
    Shut shut.toList ∧
      substitute lookup (shut ++ "$\x7b" ++ "a" ++ "\x7d" ++ "!") = "# $\x7b\x7d $ $\x7bb\x7d1!" ∧
      ¬ Shut stray.toList ∧
      references (stray ++ "$\x7b" ++ "a" ++ "\x7d" ++ "!").toList = [['\n', '$', '{', 'a']] ∧
      substitute lookup (stray ++ "$\x7b" ++ "a" ++ "\x7d" ++ "!") = "# $\x7b\n$\x7ba\x7d!" := by
  intro lookup shut stray
  have hname : IsName "a".toList := ⟨by decide, by decide⟩
  have hshut : Shut shut.toList := by decide
  have hstray : ¬ Shut stray.toList := by decide
  have hreferences : references (stray ++ "$\x7b" ++ "a" ++ "\x7d" ++ "!").toList =
      [['\n', '$', '{', 'a']] := by cbv
  obtain ⟨hreplaced, -⟩ := substitute_behind_text lookup hname rfl shut "!"
  obtain ⟨-, hhidden⟩ := substitute_behind_text lookup hname rfl stray "!"
  obtain ⟨front, rest, hsplit, -, -, hlonger, hunset, -⟩ := hhidden hstray
  obtain rfl : rest = "\n" := by
    rw [hreferences] at hlonger
    obtain ⟨-, heq⟩ | ⟨-, heq⟩ := List.append_eq_singleton_iff.mp hlonger.symm
    · have hchars : rest.toList ++ ['$', '{', 'a'] = ['\n'] ++ ['$', '{', 'a'] := by
        simpa using (List.cons.inj heq).1
      exact String.toList_inj.mp (List.append_cancel_right hchars)
    · cases heq
  obtain rfl : front = "# " := by
    have hchars : ['#', ' '] ++ ['$', '{', '\n'] = front.toList ++ ['$', '{', '\n'] := by
      simpa [stray] using congrArg String.toList hsplit
    exact String.toList_inj.mp (List.append_cancel_right hchars).symm
  refine ⟨hshut, (hreplaced hshut).2.trans (by cbv), hstray, hreferences, ?_⟩
  exact (hunset (by decide)).trans (by cbv)

/-- A comment in front of a profile hides a reference in it: the variable is set, and the format is
    the reference as it is spelled. -/
theorem reference_hidden_by_comment :
    let env := Environment.ofPairs [("OC_A", Bytes.ofString "x")]
    let text := "# $\x7b\n[output]\nformat = \"$\x7bOC_A\x7d\"\n"
    env.text? "OC_A" = some "x" ∧ substitute env.text? text = text ∧
      Profile.parse env.text? text = .ok { output := { format := some "$\x7bOC_A\x7d" } } ∧
      Profile.parse env.text? text ≠ .ok { output := { format := some "x" } } := by
  intro env text
  have hvalue : env.text? "OC_A" = some "x" := by cbv
  have htext : substitute env.text? text = text := by cbv
  have hread : Profile.parse env.text? text =
      .ok { output := { format := some "$\x7bOC_A\x7d" } } := by cbv
  refine ⟨hvalue, htext, hread, ?_⟩
  rw [hread]
  exact fun hsame => absurd (Except.ok.inj hsame) (by decide)

end Environment

end LoginNames
