import LoginNames.Proofs.Profile.Fields
import LoginNames.Proofs.Profile.Reordered
import LoginNames.Proofs.Toml.Distinct

/-! # Which documents are profiles

A document is a profile when its tables hold no key but those of their fields, and each key what its
field can hold. The profile then has for each field what the document holds under its key, whatever
the order of the keys. -/

set_option autoImplicit false

namespace LoginNames.Profile

open Toml (Value Entries)

/-- What a field can hold. -/
inductive FieldType
  | text
  | number
  | policy
  | truth
deriving DecidableEq

def FieldType.Holds : FieldType → Value → Prop
  | text, value => ∃ s, value = .string s
  | number, value => ∃ n : Nat, n < 2 ^ 64 ∧ value = .integer n
  | policy, value => ∃ policy : Overlong, value = .string policy.word
  | truth, value => ∃ b, value = .boolean b

def inputTypes : List (String × FieldType) :=
  [("firstnames", .text), ("lastnames", .text), ("max_name_length", .number),
    ("overlong", .policy), ("strip_carriage_return", .truth)]

def outputTypes : List (String × FieldType) :=
  [("path", .text), ("format", .text), ("max_lines", .number)]

/-- Each key is that of a field, and its value is one that the field can hold. -/
def Conforms (types : List (String × FieldType)) (entries : Entries) : Prop :=
  ∀ entry ∈ entries, ∃ type, (entry.1, type) ∈ types ∧ type.Holds entry.2

/-- The entries of a table of the document, none if there is no such table. -/
def tableOf (entries : Entries) (name : String) : Entries :=
  match entries.lookup name with
  | some (.table _ inner) => inner
  | _ => []

/-- A table that turns monitoring on or off. Other keys in it mean nothing, but their numbers must
    be such that they can be read. -/
structure Switches (inner : Entries) : Prop where
  enabled : ∃ b, inner.lookup "enabled" = some (.boolean b)
  inRange : ∀ entry ∈ inner, entry.1 ≠ "enabled" → entry.2.inRange = true

/-- No table has a key that is not one of its fields, but for what monitoring passes over, and each
    field holds what it can hold. -/
@[mk_iff]
structure WellTyped (entries : Entries) : Prop where
  keys : ∀ key ∈ entries.map Prod.fst, key ∈ Decode.profileFields
  input : Conforms inputTypes (tableOf entries "input")
  output : Conforms outputTypes (tableOf entries "output")
  monitoring : "monitoring" ∈ entries.map Prod.fst → Switches (tableOf entries "monitoring")

/-- Each field is what the table has under its key, and unset where it has nothing there. -/
@[mk_iff]
structure MirrorsInput (p : ProfileInput) (inner : Entries) : Prop where
  firstnames : inner.lookup "firstnames" = p.firstnames.map .string
  lastnames : inner.lookup "lastnames" = p.lastnames.map .string
  maxNameLength : inner.lookup "max_name_length" = p.maxNameLength.map fun n => .integer n
  overlong : inner.lookup "overlong" = p.overlong.map fun policy => .string policy.word
  stripCarriageReturn : inner.lookup "strip_carriage_return" =
    p.stripCarriageReturn.map .boolean

@[mk_iff]
structure MirrorsOutput (p : ProfileOutput) (inner : Entries) : Prop where
  path : inner.lookup "path" = p.path.map .string
  format : inner.lookup "format" = p.format.map .string
  maxLines : inner.lookup "max_lines" = p.maxLines.map fun n => .integer n

@[mk_iff]
structure Mirrors (p : Profile) (entries : Entries) : Prop where
  input : MirrorsInput p.input (tableOf entries "input")
  output : MirrorsOutput p.output (tableOf entries "output")
  monitoring : (tableOf entries "monitoring").lookup "enabled" = p.monitoring.map .boolean

/-- The three tables of a profile are tables where they are there at all, and the policy is a text.
    Otherwise other values can stand for them: an array for a table, and a table for a policy. -/
structure Shaped (entries : Entries) : Prop where
  tables : ∀ name ∈ Decode.profileFields, ∀ value, entries.lookup name = some value →
    ∃ kind inner, value = .table kind inner
  overlong : ∀ value, (tableOf entries "input").lookup "overlong" = some value →
    ∃ s, value = .string s

section Fields

variable {β : Type} {read : Value → Except ProfileFault β} {form : β → Value} {type : FieldType}
  {inner : Entries} {key : String}

/-- A table that holds each key once gives a field what is read under its key. -/
theorem fills_iff_lookup (hnodup : (inner.map Prod.fst).Nodup) {old new : β} :
    Fills read inner key old new ↔
      match inner.lookup key with
      | some value => read value = .ok new
      | none => new = old := by
  cases hlookup : inner.lookup key with
  | none => exact Fills.of_absent (Toml.Entries.lookup_eq_none.mp hlookup)
  | some value =>
    have hmem := Toml.Entries.mem_of_lookup hlookup
    constructor
    · rintro (⟨hother, hread⟩ | habsent)
      · rw [Toml.Entries.lookup_of_mem hnodup hother] at hlookup
        exact Option.some.inj hlookup ▸ hread
      · exact absurd (List.mem_map_of_mem hmem) habsent
    · exact .given hmem

/-- A field of a type mirrors its key where what is under the key is of the type. -/
theorem fills_given_iff (hnodup : (inner.map Prod.fst).Nodup)
    (hread : ∀ value, inner.lookup key = some value →
      ∀ b, read value = .ok b ↔ type.Holds value ∧ value = form b) {new : Option β} :
    Fills (Decode.given read) inner key none new ↔
      (∀ value, inner.lookup key = some value → type.Holds value) ∧
        inner.lookup key = new.map form := by
  rw [fills_iff_lookup hnodup]
  cases hlookup : inner.lookup key with
  | none => simp [eq_comm]
  | some value =>
    simp only [Decode.given, map_eq_ok, hread value hlookup]
    constructor
    · rintro ⟨b, ⟨hholds, rfl⟩, rfl⟩
      exact ⟨fun other heq => Option.some.inj heq ▸ hholds, rfl⟩
    · rintro ⟨hholds, hform⟩
      obtain ⟨b, rfl, rfl⟩ := Option.map_eq_some_iff.mp hform.symm
      exact ⟨b, ⟨hholds _ rfl, rfl⟩, rfl⟩

theorem text_eq_ok {value : Value} {s : String} :
    Decode.text value = .ok s ↔ FieldType.text.Holds value ∧ value = .string s := by
  cases value <;> simp [Decode.text, FieldType.Holds]

theorem number_eq_ok {value : Value} {n : Nat} :
    Decode.number value = .ok n ↔ FieldType.number.Holds value ∧ value = .integer n := by
  have hword (n : Nat) : n ≤ Numeral.maxWord ↔ n < 2 ^ 64 := Nat.lt_succ_iff.symm
  unfold Decode.number
  split
  next m =>
    simp only [FieldType.Holds, hword, Value.integer.injEq, Int.ofNat_eq_natCast, Nat.cast_inj]
    grind
  next hother =>
    constructor
    · exact fun h => nomatch h
    · rintro ⟨-, rfl⟩
      exact absurd rfl (hother n)

theorem truth_eq_ok {value : Value} {b : Bool} :
    Decode.truth value = .ok b ↔ FieldType.truth.Holds value ∧ value = .boolean b := by
  cases value <;> simp [Decode.truth, FieldType.Holds]

theorem ofWord?_eq_some {word : String} {policy : Overlong} :
    Overlong.ofWord? word = some policy ↔ word = policy.word := by
  constructor
  · intro h
    unfold Overlong.ofWord? at h
    split_ifs at h <;> cases h <;> assumption
  · rintro rfl
    cases policy <;> rfl

theorem policy_eq_ok {word : String} {policy : Overlong} :
    Decode.policy (.string word) = .ok policy ↔
      FieldType.policy.Holds (.string word) ∧ Value.string word = .string policy.word := by
  have hword : Decode.policyWord word = .ok policy ↔ word = policy.word := by
    rw [← ofWord?_eq_some, Decode.policyWord]
    cases Overlong.ofWord? word <;> simp
  rw [Decode.policy, hword, Value.string.injEq, iff_and_self]
  rintro rfl
  exact ⟨policy, rfl⟩

end Fields

section Tables

variable {entries inner : Entries} {types : List (String × FieldType)}

/-- To conform field by field, where fields and keys are told apart by their names. -/
theorem conforms_iff (htypes : (types.map Prod.fst).Nodup) (hnodup : (inner.map Prod.fst).Nodup) :
    Conforms types inner ↔
      (∀ key ∈ inner.map Prod.fst, key ∈ types.map Prod.fst) ∧
        ∀ field ∈ types, ∀ value, inner.lookup field.1 = some value → field.2.Holds value := by
  constructor
  · intro h
    refine ⟨List.forall_mem_map.mpr fun entry hentry => ?_, fun field hfield value hlookup => ?_⟩
    · obtain ⟨type, htype, -⟩ := h entry hentry
      exact List.mem_map_of_mem htype
    · obtain ⟨type, htype, hholds⟩ := h _ (Toml.Entries.mem_of_lookup hlookup)
      have heq := List.inj_on_of_nodup_map htypes htype hfield rfl
      exact heq ▸ hholds
  · rintro ⟨hkeys, hholds⟩ entry hentry
    obtain ⟨⟨_, type⟩, htype, rfl⟩ := List.mem_map.mp (hkeys _ (List.mem_map_of_mem hentry))
    exact ⟨type, htype, hholds _ htype _ (Toml.Entries.lookup_of_mem hnodup hentry)⟩

theorem fillsInput_iff_mirrors (hnodup : (inner.map Prod.fst).Nodup)
    (hoverlong : ∀ value, inner.lookup "overlong" = some value → ∃ s, value = .string s)
    {p : ProfileInput} :
    FillsInput inner {} p ↔ Conforms inputTypes inner ∧ MirrorsInput p inner := by
  -- of the two forms that a policy is read from only the word is left
  have hpolicy : ∀ value, inner.lookup "overlong" = some value → ∀ policy : Overlong,
      Decode.policy value = .ok policy ↔
        FieldType.policy.Holds value ∧ value = .string policy.word := by
    intro value hvalue policy
    obtain ⟨word, rfl⟩ := hoverlong value hvalue
    exact policy_eq_ok
  rw [fillsInput_iff, conforms_iff (by decide) hnodup, mirrorsInput_iff,
    fills_given_iff hnodup fun _ _ _ => text_eq_ok, fills_given_iff hnodup fun _ _ _ => text_eq_ok,
    fills_given_iff hnodup fun _ _ _ => number_eq_ok, fills_given_iff hnodup hpolicy,
    fills_given_iff hnodup fun _ _ _ => truth_eq_ok]
  simp only [inputTypes, Decode.inputFields, List.forall_mem_cons, List.map_cons, List.map_nil,
    List.not_mem_nil, false_imp_iff, implies_true, and_true]
  tauto

theorem fillsOutput_iff_mirrors (hnodup : (inner.map Prod.fst).Nodup) {p : ProfileOutput} :
    FillsOutput inner {} p ↔ Conforms outputTypes inner ∧ MirrorsOutput p inner := by
  rw [fillsOutput_iff, conforms_iff (by decide) hnodup, mirrorsOutput_iff,
    fills_given_iff hnodup fun _ _ _ => text_eq_ok, fills_given_iff hnodup fun _ _ _ => text_eq_ok,
    fills_given_iff hnodup fun _ _ _ => number_eq_ok]
  simp only [outputTypes, Decode.outputFields, List.forall_mem_cons, List.map_cons, List.map_nil,
    List.not_mem_nil, false_imp_iff, implies_true, and_true]
  tauto

/-- The entries give what is under `enabled`, and nothing among the others stops the reading. -/
@[mk_iff]
structure FillsMonitoring (entries : Entries) (old new : Option Bool) : Prop where
  inRange : ∀ entry ∈ entries, entry.1 ≠ "enabled" → entry.2.inRange = true
  enabled : Fills (Decode.given Decode.truth) entries "enabled" old new

theorem reading_monitoring : Reading Decode.setMonitoring FillsMonitoring where
  nil := by simp [fillsMonitoring_iff, Fills.of_absent]
  cons {key value entries old new} hfresh := by
    unfold Decode.setMonitoring
    split
    case h_1 =>
      simp only [fillsMonitoring_iff, Fills.cons_self hfresh, Fills.of_absent hfresh, Decode.given]
      simp
      tauto
    case h_2 hother =>
      have hne : key ≠ "enabled" := hother
      simp only [fillsMonitoring_iff, Fills.cons_of_ne hne.symm, List.forall_mem_cons]
      cases value.inRange <;> simp [hne]
  perm hperm := by
    simp only [fillsMonitoring_iff, Fills.perm hperm, hperm.mem_iff]

theorem monitoring_eq_ok (kind : Toml.TableKind) (hnodup : (inner.map Prod.fst).Nodup) {b : Bool} :
    Decode.monitoring (.table kind inner) = .ok b ↔
      Switches inner ∧ inner.lookup "enabled" = some (.boolean b) := by
  have hrecord (enabled : Option Bool) :
      Decode.record ["enabled"] Decode.setMonitoring none (.table kind inner) = .ok enabled ↔
        FillsMonitoring inner none enabled := reading_monitoring.sorted_eq_ok hnodup
  have henabled (enabled : Option Bool) :
      Fills (Decode.given Decode.truth) inner "enabled" none enabled ↔
        (∀ value, inner.lookup "enabled" = some value → FieldType.truth.Holds value) ∧
          inner.lookup "enabled" = enabled.map .boolean :=
    fills_given_iff hnodup fun _ _ _ => truth_eq_ok
  rw [Decode.monitoring, bind_eq_ok]
  simp only [hrecord, fillsMonitoring_iff, henabled]
  constructor
  · rintro ⟨enabled, ⟨hrange, -, hlookup⟩, hok⟩
    cases enabled with
    | none => cases hok
    | some b =>
      cases hok
      exact ⟨⟨⟨b, hlookup⟩, hrange⟩, hlookup⟩
  · rintro ⟨⟨-, hrange⟩, hlookup⟩
    refine ⟨some b, ⟨hrange, fun value hvalue => ?_, hlookup⟩, rfl⟩
    exact ⟨b, Option.some.inj (hvalue.symm.trans hlookup)⟩

theorem tableOf_distinct (h : entries.Distinct) (name : String) :
    (tableOf entries name).Distinct := by
  unfold tableOf
  split
  next hlookup => exact (h.of_lookup hlookup).entries
  next => exact .nil

/-- A table that is not there is read as one with nothing in it. -/
theorem fills_record_iff {α : Type} {fields : List String}
    {set : String → Value → α → Except ProfileFault α} {Filled : Entries → α → α → Prop}
    (hreading : Reading set Filled) (hdistinct : entries.Distinct) {name : String}
    (htable : ∀ value, entries.lookup name = some value → ∃ kind inner, value = .table kind inner)
    {old new : α} :
    Fills (Decode.record fields set old) entries name old new ↔
      Filled (tableOf entries name) old new := by
  have hinner := (tableOf_distinct hdistinct name).nodup
  rw [fills_iff_lookup hdistinct.nodup]
  unfold tableOf at hinner ⊢
  cases hlookup : entries.lookup name with
  | none => exact hreading.nil.symm
  | some value =>
    obtain ⟨kind, inner, rfl⟩ := htable value hlookup
    rw [hlookup] at hinner
    exact hreading.sorted_eq_ok hinner

/-- Unlike the other tables this one may be missing but not empty. -/
theorem fills_monitoring_iff (hdistinct : entries.Distinct)
    (htable : ∀ value, entries.lookup "monitoring" = some value →
      ∃ kind inner, value = .table kind inner) {enabled : Option Bool} :
    Fills (Decode.given Decode.monitoring) entries "monitoring" none enabled ↔
      ("monitoring" ∈ entries.map Prod.fst → Switches (tableOf entries "monitoring")) ∧
        (tableOf entries "monitoring").lookup "enabled" = enabled.map .boolean := by
  have hinner := (tableOf_distinct hdistinct "monitoring").nodup
  rw [fills_iff_lookup hdistinct.nodup]
  unfold tableOf at hinner ⊢
  cases hlookup : entries.lookup "monitoring" with
  | none =>
    have hnot := Toml.Entries.lookup_eq_none.mp hlookup
    simp [hnot, eq_comm]
  | some value =>
    obtain ⟨kind, inner, rfl⟩ := htable value hlookup
    have hmem : "monitoring" ∈ entries.map Prod.fst :=
      List.mem_map_of_mem (Toml.Entries.mem_of_lookup hlookup)
    rw [hlookup] at hinner
    simp only [Decode.given, map_eq_ok, monitoring_eq_ok kind hinner, hmem, true_imp_iff]
    constructor
    · rintro ⟨b, hread, rfl⟩
      exact hread
    · rintro ⟨hswitches, hfield⟩
      obtain ⟨b, hb⟩ := hswitches.enabled
      obtain ⟨c, rfl, hc⟩ := Option.map_eq_some_iff.mp (hfield.symm.trans hb)
      exact ⟨c, ⟨hswitches, hfield⟩, rfl⟩

end Tables

/-- A document is a profile when it is well typed, and the profile is what it holds. -/
theorem ofToml_eq_ok {entries : Entries} (hdistinct : entries.Distinct) (hshape : Shaped entries)
    {p : Profile} : ofToml entries = .ok p ↔ WellTyped entries ∧ Mirrors p entries := by
  have htable (name : String) (h : name ∈ Decode.profileFields) := hshape.tables name h
  have hread : ofToml entries = .ok p ↔ FillsProfile entries {} p :=
    reading_profile.sorted_eq_ok hdistinct.nodup
  rw [hread, fillsProfile_iff, wellTyped_iff, mirrors_iff,
    fills_record_iff reading_input hdistinct (htable "input" (by decide)),
    fills_record_iff reading_output hdistinct (htable "output" (by decide)),
    fills_monitoring_iff hdistinct (htable "monitoring" (by decide)),
    fillsInput_iff_mirrors (tableOf_distinct hdistinct "input").nodup hshape.overlong,
    fillsOutput_iff_mirrors (tableOf_distinct hdistinct "output").nodup]
  tauto

section Existence

variable {inner entries : Entries}

theorem exists_field {β : Type} {form : β → Value} {key : String}
    (h : ∀ value, inner.lookup key = some value → ∃ b, value = form b) :
    ∃ field : Option β, inner.lookup key = field.map form := by
  cases hlookup : inner.lookup key with
  | none => exact ⟨none, rfl⟩
  | some value =>
    obtain ⟨b, rfl⟩ := h value hlookup
    exact ⟨some b, rfl⟩

theorem exists_mirrorsInput (hnodup : (inner.map Prod.fst).Nodup)
    (h : Conforms inputTypes inner) : ∃ p, MirrorsInput p inner := by
  have hholds := ((conforms_iff (by decide) hnodup).mp h).2
  simp only [inputTypes, List.forall_mem_cons] at hholds
  obtain ⟨hfirst, hlast, hlength, hoverlong, hstrip, -⟩ := hholds
  obtain ⟨firstnames, hfirst⟩ := exists_field hfirst
  obtain ⟨lastnames, hlast⟩ := exists_field hlast
  obtain ⟨maxNameLength, hlength⟩ : ∃ field : Option Nat,
      inner.lookup "max_name_length" = field.map fun n => .integer n :=
    exists_field fun value hvalue => (hlength value hvalue).imp fun n hn => hn.2
  obtain ⟨overlong, hoverlong⟩ := exists_field hoverlong
  obtain ⟨stripCarriageReturn, hstrip⟩ := exists_field hstrip
  exact ⟨⟨firstnames, lastnames, maxNameLength, overlong, stripCarriageReturn⟩,
    hfirst, hlast, hlength, hoverlong, hstrip⟩

theorem exists_mirrorsOutput (hnodup : (inner.map Prod.fst).Nodup)
    (h : Conforms outputTypes inner) : ∃ p, MirrorsOutput p inner := by
  have hholds := ((conforms_iff (by decide) hnodup).mp h).2
  simp only [outputTypes, List.forall_mem_cons] at hholds
  obtain ⟨hpath, hformat, hlines, -⟩ := hholds
  obtain ⟨path, hpath⟩ := exists_field hpath
  obtain ⟨format, hformat⟩ := exists_field hformat
  obtain ⟨maxLines, hlines⟩ : ∃ field : Option Nat,
      inner.lookup "max_lines" = field.map fun n => .integer n :=
    exists_field fun value hvalue => (hlines value hvalue).imp fun n hn => hn.2
  exact ⟨⟨path, format, maxLines⟩, hpath, hformat, hlines⟩

/-- Something is read of each well typed document. -/
theorem WellTyped.exists_mirrors (hdistinct : entries.Distinct) (h : WellTyped entries) :
    ∃ p, Mirrors p entries := by
  obtain ⟨input, hinput⟩ :=
    exists_mirrorsInput (tableOf_distinct hdistinct "input").nodup h.input
  obtain ⟨output, houtput⟩ :=
    exists_mirrorsOutput (tableOf_distinct hdistinct "output").nodup h.output
  obtain ⟨monitoring, hmonitoring⟩ :
      ∃ field : Option Bool, (tableOf entries "monitoring").lookup "enabled" =
        field.map .boolean := by
    by_cases hmem : "monitoring" ∈ entries.map Prod.fst
    · obtain ⟨b, hb⟩ := (h.monitoring hmem).enabled
      exact ⟨some b, hb⟩
    · refine ⟨none, ?_⟩
      rw [tableOf, Toml.Entries.lookup_eq_none.mpr hmem]
      rfl
  exact ⟨⟨input, output, monitoring⟩, hinput, houtput, hmonitoring⟩

end Existence

theorem message_profile (fault : ProfileFault) :
    (Failure.profile fault).message =
      (Failure.validation "toml_parsing" ("TOML parsing error" ++ fault.reason)).message := by
  have hhead : "Configuration validation failed for '" ++ "toml_parsing" ++ "': " ++
      "TOML parsing error" =
      "Configuration validation failed for 'toml_parsing': TOML parsing error" := by decide
  unfold Failure.message
  dsimp only
  rw [← String.append_assoc, hhead]

/-- A document in which the tables of a profile are tables is accepted exactly when it is well
    typed. The profile is then what the document holds, and otherwise the failure is one of reading
    TOML. Another text for the same keys and values gives the same. -/
theorem parse_well_typed {lookup : String → Option String} {text : String} {entries : Entries}
    (hparse : Toml.parse (Environment.substitute lookup text) = .ok entries)
    (hshape : Shaped entries) :
    ((∃ p, parse lookup text = .ok p) ↔ WellTyped entries) ∧
      (∀ p, parse lookup text = .ok p → Mirrors p entries) ∧
      (¬ WellTyped entries → ∃ fault, parse lookup text = .error fault ∧
        (Failure.profile fault).message =
          (Failure.validation "toml_parsing" ("TOML parsing error" ++ fault.reason)).message) ∧
      ∀ (lookup' : String → Option String) (text' : String) (entries' : Entries),
        Toml.parse (Environment.substitute lookup' text') = .ok entries' →
        entries.Reordered entries' → parse lookup' text' = parse lookup text := by
  have hdistinct := Toml.distinct_of_parse hparse
  have hread : parse lookup text = ofToml entries := by rw [parse, hparse]
  have haccept : (∃ p, parse lookup text = .ok p) ↔ WellTyped entries := by
    simp only [hread, ofToml_eq_ok hdistinct hshape]
    constructor
    · exact fun ⟨_, hwell, _⟩ => hwell
    · exact fun hwell => (hwell.exists_mirrors hdistinct).imp fun _ hp => ⟨hwell, hp⟩
  refine ⟨haccept, fun p hp => ?_, fun hill => ?_, fun lookup' text' entries' hparse' h => ?_⟩
  · exact ((ofToml_eq_ok hdistinct hshape).mp (hread ▸ hp)).2
  · cases hresult : parse lookup text with
    | ok p => exact absurd (haccept.mp ⟨p, hresult⟩) hill
    | error fault => exact ⟨fault, rfl, message_profile fault⟩
  · rw [hread, parse, hparse']
    exact (ofToml_eq_of_reordered h).symm

/-- Tables with headers and a reference against dotted keys and braces, in another order. -/
theorem parse_well_typed_reordered :
    let lookup (name : String) : Option String := if name = "N" then some "ann" else none
    let text := "[monitoring]\nx = 1\nenabled = true\n[input]\nfirstnames = \"$\x7bN\x7d\"\n" ++
      "overlong = \"reject\"\n"
    let text' := "input.overlong = \"reject\"\nmonitoring = \x7benabled = true, x = 1\x7d\n" ++
      "input.firstnames = \"ann\"\n"
    let p : Profile := ⟨{ firstnames := some "ann", overlong := some .reject }, {}, some true⟩
    parse lookup text = .ok p ∧ parse (fun _ => none) text' = .ok p := by
  intro lookup text text' p
  let inputs : Entries := [("overlong", .string "reject"), ("firstnames", .string "ann")]
  let switches : Entries := [("enabled", .boolean true), ("x", .integer 1)]
  let entries : Entries :=
    [("input", .table .headed inputs), ("monitoring", .table .headed switches)]
  let entries' : Entries :=
    [("monitoring", .table .inline switches.reverse), ("input", .table .dotted inputs.reverse)]
  have hparse : Toml.parse (Environment.substitute lookup text) = .ok entries := by
    unfold lookup text entries inputs switches
    cbv
  have hparse' : Toml.parse (Environment.substitute (fun _ => none) text') = .ok entries' := by
    unfold text' entries' inputs switches
    cbv
  have hinput : (Value.table .headed inputs).Reordered (.table .dotted inputs.reverse) :=
    Toml.Entries.Reordered.table (.of_perm (by decide) (List.reverse_perm inputs).symm) _ _
  have hswitches : (Value.table .headed switches).Reordered (.table .inline switches.reverse) :=
    Toml.Entries.Reordered.table (.of_perm (by decide) (List.reverse_perm switches).symm) _ _
  have horder : entries.Reordered entries' := by
    refine ⟨by decide, fun key value value' hmem hmem' => ?_⟩
    simp only [entries, entries', List.mem_cons, Prod.mk.injEq, List.not_mem_nil, or_false]
      at hmem hmem'
    obtain ⟨rfl, rfl⟩ | ⟨rfl, rfl⟩ := hmem <;> obtain ⟨hkey, rfl⟩ | ⟨hkey, rfl⟩ := hmem'
    · exact absurd hkey (by decide)
    · exact hinput
    · exact hswitches
    · exact absurd hkey (by decide)
  have hshape : Shaped entries := by
    refine ⟨List.forall_mem_cons.mpr ⟨fun value hvalue => ?_, List.forall_mem_cons.mpr
      ⟨fun value hvalue => ?_, List.forall_mem_singleton.mpr fun value hvalue => ?_⟩⟩,
      fun value hvalue => ⟨_, (Option.some.inj hvalue).symm⟩⟩
    · exact ⟨_, _, (Option.some.inj hvalue).symm⟩
    · cases hvalue
    · exact ⟨_, _, (Option.some.inj hvalue).symm⟩
  have hinputs : Conforms inputTypes inputs := by
    intro entry hentry
    obtain rfl | rfl : entry = ("overlong", .string "reject") ∨
      entry = ("firstnames", .string "ann") := by simpa [inputs] using hentry
    · exact ⟨.policy, by decide, .reject, rfl⟩
    · exact ⟨.text, by decide, "ann", rfl⟩
  have hvalid : Switches switches := by
    refine ⟨⟨true, rfl⟩, fun entry hentry hkey => ?_⟩
    obtain rfl | rfl : entry = ("enabled", .boolean true) ∨ entry = ("x", .integer 1) := by
      simpa [switches] using hentry
    · exact absurd rfl hkey
    · rfl
  have hwell : WellTyped entries :=
    ⟨by decide, hinputs, fun _ hentry => absurd hentry List.not_mem_nil, fun _ => hvalid⟩
  have hmirrors : Mirrors p entries := ⟨⟨rfl, rfl, rfl, rfl, rfl⟩, ⟨rfl, rfl, rfl⟩, rfl⟩
  have hread : parse lookup text = .ok p := by
    rw [parse, hparse]
    exact (ofToml_eq_ok (Toml.distinct_of_parse hparse) hshape).mpr ⟨hwell, hmirrors⟩
  obtain ⟨-, -, -, hsame⟩ := parse_well_typed hparse hshape
  exact ⟨hread, (hsame _ _ _ hparse' horder).trans hread⟩

/-- A number of more than 128 bits is refused, though its key means nothing. -/
theorem parse_monitoring_unreadable :
    let text := "[monitoring]\nenabled=true\nx=-170141183460469231731687303715884105729"
    let entries : Entries := [("monitoring", .table .headed
      [("x", .integer (-170141183460469231731687303715884105729)), ("enabled", .boolean true)])]
    Toml.parse (Environment.substitute (fun _ => none) text) = .ok entries ∧ Shaped entries ∧
      ¬ ((∃ p, parse (fun _ => none) text = .ok p) ↔
        (∀ key ∈ entries.map Prod.fst, key ∈ Decode.profileFields) ∧
          Conforms inputTypes (tableOf entries "input") ∧
          Conforms outputTypes (tableOf entries "output") ∧
          ("monitoring" ∈ entries.map Prod.fst →
            ∃ b, (tableOf entries "monitoring").lookup "enabled" = some (.boolean b))) := by
  intro text entries
  have hparse : Toml.parse (Environment.substitute (fun _ => none) text) = .ok entries := by
    unfold text entries
    cbv
  have hshape : Shaped entries := by
    refine ⟨List.forall_mem_cons.mpr ⟨fun value hvalue => ?_, List.forall_mem_cons.mpr
      ⟨fun value hvalue => ?_, List.forall_mem_singleton.mpr fun value hvalue => ?_⟩⟩,
      fun value hvalue => ?_⟩
    · cases hvalue
    · cases hvalue
    · exact ⟨_, _, (Option.some.inj hvalue).symm⟩
    · cases hvalue
  refine ⟨hparse, hshape, fun haccept => ?_⟩
  have hnone (types : List (String × FieldType)) : Conforms types [] :=
    fun _ hentry => absurd hentry List.not_mem_nil
  obtain ⟨p, hp⟩ := haccept.mpr ⟨by decide, hnone _, hnone _, fun _ => ⟨true, rfl⟩⟩
  rw [parse, hparse] at hp
  have hwell := ((ofToml_eq_ok (Toml.distinct_of_parse hparse) hshape).mp hp).1
  have hrange := (hwell.monitoring (by decide)).inRange _ List.mem_cons_self (by decide)
  exact absurd hrange (by decide)

end LoginNames.Profile
