import LoginNames.Proofs.Profile.Fields
import LoginNames.Proofs.Substitution
import LoginNames.Proofs.Toml.Sections

/-! # Printing profiles

A profile is printed as a document: a section for each of its tables, with a row for each field
that is set. Whatever its texts hold, the document is read as the profile it was printed from, as
long as the substitution of references leaves it alone. -/

set_option autoImplicit false

namespace LoginNames

open Toml (IsBareName Literal Section Value)

/-- What is written of a table: each of its keys, with the value if it has one. -/
def ProfileInput.settings (p : ProfileInput) : List (String × Option Literal) :=
  [("firstnames", p.firstnames.map .text), ("lastnames", p.lastnames.map .text),
    ("max_name_length", p.maxNameLength.map .number),
    ("overlong", p.overlong.map fun policy => .text policy.word),
    ("strip_carriage_return", p.stripCarriageReturn.map .truth)]

def ProfileOutput.settings (p : ProfileOutput) : List (String × Option Literal) :=
  [("path", p.path.map .text), ("format", p.format.map .text),
    ("max_lines", p.maxLines.map .number)]

namespace Profile

open Decode (inputFields outputFields profileFields)

theorem bare_inputFields : ∀ key ∈ inputFields, IsBareName key.toList := by decide

theorem bare_outputFields : ∀ key ∈ outputFields, IsBareName key.toList := by decide

theorem bare_enabled : ∀ key ∈ ["enabled"], IsBareName key.toList := by decide

theorem nodup_inputFields : inputFields.Nodup := by decide

theorem nodup_outputFields : outputFields.Nodup := by decide

def inputSection (p : ProfileInput) : Section :=
  .ofDeclared "input" p.settings (by decide) bare_inputFields nodup_inputFields

def outputSection (p : ProfileOutput) : Section :=
  .ofDeclared "output" p.settings (by decide) bare_outputFields nodup_outputFields

def monitoringSection (enabled : Bool) : Section :=
  .ofDeclared "monitoring" [("enabled", some (.truth enabled))] (by decide) bare_enabled
    (List.nodup_singleton _)

def sections (p : Profile) : List Section :=
  inputSection p.input :: outputSection p.output :: p.monitoring.toList.map monitoringSection

/-- The text of a profile, with `e` to spell the characters of its texts. -/
def document (e : Toml.Quoted.Escaping) (p : Profile) : String := Section.document e p.sections

/-- No number of the profile is above the largest word. -/
structure Fits (p : Profile) : Prop where
  maxNameLength : ∀ n ∈ p.input.maxNameLength, n < 2 ^ 64
  maxLines : ∀ n ∈ p.output.maxLines, n < 2 ^ 64

/-- A field that is written under its key is read back, and so is one that is not set. -/
theorem Fills.of_declared {β : Type} {read : Value → Except ProfileFault β}
    (write : β → Literal) {declared : List (String × Option Literal)} {key : String}
    {field : Option β} (hnodup : (declared.map Prod.fst).Nodup)
    (hmem : (key, field.map write) ∈ declared) (hread : ∀ b ∈ field, read (write b).value = .ok b) :
    Fills (Decode.given read) (Section.entries (Section.present declared)) key none field := by
  cases field with
  | none => exact .absent (Section.not_mem_entries_of_none hnodup hmem)
  | some b =>
    refine .given (Section.mem_entries (List.mem_filterMap.mpr ⟨_, hmem, rfl⟩)) ?_
    rw [Decode.given, hread b rfl]
    rfl

theorem number_ok {n : Nat} (h : n < 2 ^ 64) : Decode.number (Literal.number n).value = .ok n :=
  if_pos (Nat.le_sub_one_of_lt h)

theorem policy_ok (policy : Overlong) :
    Decode.policy (Literal.text policy.word).value = .ok policy := by
  cases policy <;> rfl

theorem record_inputSection {p : ProfileInput} (h : ∀ n ∈ p.maxNameLength, n < 2 ^ 64) :
    Decode.record inputFields Decode.setInput {} (inputSection p).entry.2 = .ok p := by
  have hnodup : (p.settings.map Prod.fst).Nodup := nodup_inputFields
  refine (reading_input.sorted_eq_ok (Section.nodup_entries _)).mpr ?_
  exact {
    keys := fun _ => Section.mem_declared_of_mem_entries
    firstnames := .of_declared .text hnodup (by simp [ProfileInput.settings]) fun _ _ => rfl
    lastnames := .of_declared .text hnodup (by simp [ProfileInput.settings]) fun _ _ => rfl
    maxNameLength := .of_declared .number hnodup (by simp [ProfileInput.settings])
      fun n hn => number_ok (h n hn)
    overlong := .of_declared (fun policy => .text policy.word) hnodup
      (by simp [ProfileInput.settings]) fun policy _ => policy_ok policy
    stripCarriageReturn := .of_declared .truth hnodup (by simp [ProfileInput.settings])
      fun _ _ => rfl }

theorem record_outputSection {p : ProfileOutput} (h : ∀ n ∈ p.maxLines, n < 2 ^ 64) :
    Decode.record outputFields Decode.setOutput {} (outputSection p).entry.2 = .ok p := by
  have hnodup : (p.settings.map Prod.fst).Nodup := nodup_outputFields
  refine (reading_output.sorted_eq_ok (Section.nodup_entries _)).mpr ?_
  exact {
    keys := fun _ => Section.mem_declared_of_mem_entries
    path := .of_declared .text hnodup (by simp [ProfileOutput.settings]) fun _ _ => rfl
    format := .of_declared .text hnodup (by simp [ProfileOutput.settings]) fun _ _ => rfl
    maxLines := .of_declared .number hnodup (by simp [ProfileOutput.settings])
      fun n hn => number_ok (h n hn) }

theorem monitoring_monitoringSection (enabled : Bool) :
    Decode.monitoring (monitoringSection enabled).entry.2 = .ok enabled := by
  have hentry : (monitoringSection enabled).entry.2 =
      .table .headed [("enabled", .boolean enabled)] := rfl
  rw [hentry, Decode.monitoring, Decode.record, Toml.Entries.sorted, List.mergeSort_singleton]
  rfl

theorem keys_sections (p : Profile) : (p.sections.map Section.entry).map Prod.fst =
    ["input", "output"] ++ p.monitoring.toList.map fun _ => "monitoring" := by
  simp only [sections, List.map_cons, List.map_map]
  rfl

theorem keys_sections_sublist (p : Profile) :
    ((p.sections.map Section.entry).map Prod.fst).Sublist profileFields := by
  rw [keys_sections]
  cases p.monitoring with
  | none => exact List.sublist_append_left ["input", "output"] ["monitoring"]
  | some enabled => exact .refl profileFields

theorem keys_sections_nodup (p : Profile) :
    ((p.sections.map Section.entry).map Prod.fst).Nodup :=
  (keys_sections_sublist p).nodup (by decide)

theorem fillsProfile_sections {p : Profile} (h : p.Fits) :
    FillsProfile (p.sections.map Section.entry) {} p where
  keys _ hkey := (keys_sections_sublist p).subset hkey
  input := .given List.mem_cons_self (record_inputSection h.maxNameLength)
  output := .given (List.mem_cons_of_mem _ List.mem_cons_self) (record_outputSection h.maxLines)
  monitoring := by
    cases hmonitoring : p.monitoring with
    | none =>
      refine .absent ?_
      rw [keys_sections, hmonitoring]
      decide
    | some enabled =>
      have hmem : monitoringSection enabled ∈ p.sections := by simp [sections, hmonitoring]
      refine .given (List.mem_map_of_mem hmem) ?_
      exact map_eq_ok.mpr ⟨enabled, monitoring_monitoringSection enabled, rfl⟩

/-- A profile is read back from a text that the substitution turns into its document. -/
theorem parse_eq_ok {e : Toml.Quoted.Escaping} {p : Profile} (h : p.Fits)
    {lookup : String → Option String} {text : String}
    (htext : Environment.substitute lookup text = p.document e) : parse lookup text = .ok p := by
  have hnames : (p.sections.map Section.name).Nodup := by
    have hkeys := keys_sections_nodup p
    rwa [List.map_map] at hkeys
  have hread : ofToml (p.sections.map Section.entry).reverse = .ok p := by
    have hperm := List.reverse_perm (p.sections.map Section.entry)
    refine (reading_profile.sorted_eq_ok ?_).mpr ?_
    · exact (hperm.map Prod.fst).nodup_iff.mpr (keys_sections_nodup p)
    · exact (reading_profile.perm hperm).mpr (fillsProfile_sections h)
  simp only [parse, htext, document, Toml.parse_document e hnames, hread]

/-- Every profile can be written and is read back: whatever its texts hold, however their characters
    are spelled and whichever fields are set, its document is read as that profile, with each of the
    nine settings in its field, where no reference in the text names a variable with a value. -/
theorem document_reads_back {p : Profile} (hfits : p.Fits) (e : Toml.Quoted.Escaping)
    {lookup : String → Option String}
    (hunset : ∀ name ∈ Environment.references (p.document e).toList,
      lookup (String.ofList name) = none) :
    parse lookup (p.document e) = .ok p ∧
      (parse lookup (p.document e)).map toOverrides = .ok {
        firstnames := p.input.firstnames
        lastnames := p.input.lastnames
        output := p.output.path
        format := p.output.format
        maxLines := p.output.maxLines
        maxNameLength := p.input.maxNameLength
        overlong := p.input.overlong
        stripCarriageReturn := p.input.stripCarriageReturn
        monitoring := p.monitoring } := by
  have htext : Environment.substitute lookup (p.document e) = p.document e := by
    rw [Environment.substitute, Environment.substituteChars_of_unset hunset, String.ofList_toList]
  have hread := parse_eq_ok hfits htext
  exact ⟨hread, map_eq_ok.mpr ⟨p, hread, rfl⟩⟩

set_option maxRecDepth 2048 in
/-- Texts with quotes, backslashes, line ends, control characters and marks of the document itself,
    the largest number, and a reference to an unset variable that starts in one field and ends in
    another. -/
theorem document_reads_back_marks :
    let p : Profile := {
      input := { firstnames := some "\"\\\n# $\x7bx", overlong := some .reject }
      output := { format := some "\x01\x7dé", maxLines := some 18446744073709551615 } }
    let lookup (name : String) : Option String := if name = "x" then some "1" else none
    let text := "[input]\nfirstnames = \"\\\"\\\\\\n# $\x7bx\"\noverlong = \"reject\"\n" ++
      "[output]\nformat = \"\\u0001\x7dé\"\nmax_lines = 18446744073709551615\n"
    let name := "x\"\noverlong = \"reject\"\n[output]\nformat = \"\\u0001"
    p.document .usual = text ∧ Environment.references text.toList = [name.toList] ∧
      parse lookup text = .ok p := by
  intro p lookup text name
  have htext : p.document .usual = text := by cbv
  have hreferences : Environment.references text.toList = [name.toList] := by cbv
  have hfits : p.Fits := ⟨by decide, by decide⟩
  have hunset : ∀ name ∈ Environment.references (p.document .usual).toList,
      lookup (String.ofList name) = none := by
    intro other hother
    rw [htext, hreferences] at hother
    rw [List.mem_singleton.mp hother, String.ofList_toList]
    exact if_neg (by decide)
  have hread := document_reads_back hfits .usual hunset
  rw [htext] at hread
  exact ⟨htext, hreferences, hread.1⟩

end Profile

end LoginNames
