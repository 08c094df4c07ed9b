import LoginNames.Proofs.Profile.Printing
import LoginNames.Proofs.Toml.Substituted

/-! # Substitution before and after reading

References are replaced in the text of a document before anything is known of its tables. Where
each reference is closed in the text that it starts in and the values are harmless, the document of
a profile is read as the profile with its texts substituted one by one. -/

set_option autoImplicit false

namespace LoginNames

open Environment (substitute)
open Toml (IsHarmlessText HarmlessValues Literal Row Section)

def ProfileInput.mapText (f : String → String) (p : ProfileInput) : ProfileInput :=
  { p with firstnames := p.firstnames.map f, lastnames := p.lastnames.map f }

def ProfileOutput.mapText (f : String → String) (p : ProfileOutput) : ProfileOutput :=
  { p with path := p.path.map f, format := p.format.map f }

/-- The profile with a change to each of its texts. -/
def Profile.mapText (f : String → String) (p : Profile) : Profile :=
  { p with input := p.input.mapText f, output := p.output.mapText f }

/-- The texts of a profile, as far as they are set. -/
def Profile.texts (p : Profile) : List String :=
  [p.input.firstnames, p.input.lastnames, p.output.path, p.output.format].reduceOption

namespace Profile

theorem word_no_dollar (policy : Overlong) : '$' ∉ policy.word.toList := by
  cases policy <;> decide

theorem harmless_word (policy : Overlong) : IsHarmlessText policy.word.toList := by
  cases policy <;> decide

theorem substitute_word (lookup : String → Option String) (policy : Overlong) :
    substitute lookup policy.word = policy.word := by
  rw [substitute, Environment.substituteChars_of_no_dollar lookup (word_no_dollar policy),
    String.ofList_toList]

section Mapped

variable {f : String → String} (hword : ∀ policy : Overlong, f policy.word = policy.word)

theorem settings_mapText_output (p : ProfileOutput) : (p.mapText f).settings =
    p.settings.map fun (key, literal?) => (key, literal?.map (Literal.mapText f)) := by
  simp [ProfileOutput.settings, ProfileOutput.mapText, Function.comp_def, Literal.mapText]

include hword

theorem settings_mapText_input (p : ProfileInput) : (p.mapText f).settings =
    p.settings.map fun (key, literal?) => (key, literal?.map (Literal.mapText f)) := by
  simp [ProfileInput.settings, ProfileInput.mapText, Function.comp_def, Literal.mapText, hword]

theorem rows_mapText (p : Profile) :
    (p.sections.flatMap Section.rows).map (Row.mapText f) =
      (p.mapText f).sections.flatMap Section.rows := by
  have hinput : (inputSection p.input).rows.map (Row.mapText f) =
      (inputSection (p.input.mapText f)).rows :=
    Section.rows_mapText f (settings_mapText_input hword p.input) _ _
  have houtput : (outputSection p.output).rows.map (Row.mapText f) =
      (outputSection (p.output.mapText f)).rows :=
    Section.rows_mapText f (settings_mapText_output p.output) _ _
  have hmonitoring : ((p.monitoring.toList.map monitoringSection).flatMap Section.rows).map
      (Row.mapText f) = (p.monitoring.toList.map monitoringSection).flatMap Section.rows := by
    cases p.monitoring <;> rfl
  simp only [sections, List.flatMap_cons, List.map_append, hinput, houtput, hmonitoring]
  rfl

end Mapped

theorem harmless_settings_input (p : ProfileInput)
    (hfirstnames : ∀ text ∈ p.firstnames, IsHarmlessText text.toList)
    (hlastnames : ∀ text ∈ p.lastnames, IsHarmlessText text.toList) :
    ∀ setting ∈ p.settings, ∀ literal ∈ setting.2, literal.IsHarmless := by
  intro setting hsetting literal hliteral
  simp only [ProfileInput.settings, List.mem_cons, List.not_mem_nil, or_false] at hsetting
  obtain rfl | rfl | rfl | rfl | rfl := hsetting
  all_goals obtain ⟨written, hwritten, rfl⟩ := Option.map_eq_some_iff.mp hliteral
  exacts [hfirstnames written hwritten, hlastnames written hwritten, trivial,
    harmless_word written, trivial]

theorem harmless_settings_output (p : ProfileOutput)
    (hpath : ∀ text ∈ p.path, IsHarmlessText text.toList)
    (hformat : ∀ text ∈ p.format, IsHarmlessText text.toList) :
    ∀ setting ∈ p.settings, ∀ literal ∈ setting.2, literal.IsHarmless := by
  intro setting hsetting literal hliteral
  simp only [ProfileOutput.settings, List.mem_cons, List.not_mem_nil, or_false] at hsetting
  obtain rfl | rfl | rfl := hsetting
  all_goals obtain ⟨written, hwritten, rfl⟩ := Option.map_eq_some_iff.mp hliteral
  exacts [hpath written hwritten, hformat written hwritten, trivial]

theorem harmless_rows {p : Profile} (h : ∀ text ∈ p.texts, IsHarmlessText text.toList) :
    ∀ row ∈ p.sections.flatMap Section.rows, row.IsHarmless := by
  have hgiven {text? : Option String} (hmem : text? ∈ [p.input.firstnames, p.input.lastnames,
      p.output.path, p.output.format]) : ∀ text ∈ text?, IsHarmlessText text.toList :=
    fun text htext => h text (List.reduceOption_mem_iff.mpr (htext ▸ hmem))
  intro row hrow
  obtain ⟨s, hs, hrow⟩ := List.mem_flatMap.mp hrow
  simp only [sections, List.mem_cons, List.mem_map] at hs
  obtain rfl | rfl | ⟨enabled, -, rfl⟩ := hs
  · have hsettings := harmless_settings_input p.input (hgiven (by simp)) (hgiven (by simp))
    exact Section.harmless_rows hsettings row hrow
  · have hsettings := harmless_settings_output p.output (hgiven (by simp)) (hgiven (by simp))
    exact Section.harmless_rows hsettings row hrow
  · refine Section.harmless_rows (fun setting hsetting literal hliteral => ?_) row hrow
    obtain rfl := List.mem_singleton.mp hsetting
    obtain rfl := Option.some.inj hliteral
    trivial

theorem substitute_document {p : Profile} {e : Toml.Quoted.Escaping} (he : e.Keeps)
    {lookup : String → Option String} (hvalues : HarmlessValues lookup)
    (htexts : ∀ text ∈ p.texts, IsHarmlessText text.toList) :
    substitute lookup (p.document e) = (p.mapText (substitute lookup)).document e := by
  rw [substitute, document, Section.document, String.toList_ofList,
    Row.substituteChars_flatMap he hvalues (Section.bare_rows _) (harmless_rows htexts),
    rows_mapText (substitute_word lookup)]
  rfl

theorem Fits.mapText {p : Profile} (h : p.Fits) (f : String → String) : (p.mapText f).Fits :=
  ⟨h.maxNameLength, h.maxLines⟩

/-- To substitute before a document is read is to substitute in what is read: where the texts of a
    profile are harmless, each reference in them is closed in the same text and all values are
    harmless, the document of the profile is read as the profile with each of its texts substituted
    and all else as it was. -/
theorem document_reads_substituted {p : Profile} (hfits : p.Fits) {e : Toml.Quoted.Escaping}
    (he : e.Keeps) {lookup : String → Option String} (hvalues : HarmlessValues lookup)
    (htexts : ∀ text ∈ p.texts, IsHarmlessText text.toList) :
    parse lookup (p.document e) = .ok (p.mapText (substitute lookup)) :=
  parse_eq_ok (hfits.mapText _) (substitute_document he hvalues htexts)

/-- Two references in one text, a value that looks like a reference and like a comment, a reference
    to an unset variable, and a text that ends with a dollar sign. -/
theorem document_reads_substituted_twice :
    let p : Profile := {
      input := { firstnames := some "$\x7ba\x7d/$\x7ba\x7d.txt", overlong := some .reject }
      output := { path := some "$\x7bc\x7d$", format := some "\x7bfirst\x7d", maxLines := some 7 }
      monitoring := some true }
    let lookup (name : String) : Option String := if name = "a" then some "$\x7bb\x7d #" else none
    parse lookup (p.document .usual) = .ok {
      input := { firstnames := some "$\x7bb\x7d #/$\x7bb\x7d #.txt", overlong := some .reject }
      output := { path := some "$\x7bc\x7d$", format := some "\x7bfirst\x7d", maxLines := some 7 }
      monitoring := some true } := by
  intro p lookup
  have hfits : p.Fits := ⟨by decide, by decide⟩
  have hvalues : HarmlessValues lookup := by
    intro name value hvalue
    obtain ⟨-, heq⟩ := Option.ite_none_right_eq_some.mp hvalue
    cases heq
    exact (show IsHarmlessText "$\x7bb\x7d #".toList by decide).1
  have htexts : ∀ text ∈ p.texts, IsHarmlessText text.toList := by decide
  refine (document_reads_substituted hfits Toml.Quoted.Escaping.usual_keeps hvalues htexts).trans ?_
  cbv

end Profile

end LoginNames
