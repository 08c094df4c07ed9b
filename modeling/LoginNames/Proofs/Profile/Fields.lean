import LoginNames.Profile
import LoginNames.Proofs.Attempts
import Mathlib

/-! # What a table gives the fields of a profile

A table that holds each key once gives each field what is read under its key, and leaves the fields
alone whose keys it does not hold. In which order the keys stand makes no difference. -/

set_option autoImplicit false

namespace LoginNames.Profile

open Toml (Value Entries)

/-- What the entries of a table make of a field: what is read under its key, or what it was. -/
inductive Fills {β : Type} (read : Value → Except ProfileFault β) (entries : Entries)
    (key : String) (old : β) : β → Prop
  | given {value : Value} {new : β} (hmem : (key, value) ∈ entries) (hread : read value = .ok new) :
      Fills read entries key old new
  | absent (h : key ∉ entries.map Prod.fst) : Fills read entries key old old

namespace Fills

variable {β : Type} {read : Value → Except ProfileFault β} {entries : Entries} {key : String}
  {old new : β}

theorem of_absent (h : key ∉ entries.map Prod.fst) :
    Fills read entries key old new ↔ new = old := by
  constructor
  · rintro (⟨hmem, -⟩ | -)
    · exact absurd (List.mem_map_of_mem hmem) h
    · rfl
  · rintro rfl
    exact .absent h

theorem cons_self (h : key ∉ entries.map Prod.fst) (value : Value) :
    Fills read ((key, value) :: entries) key old new ↔ read value = .ok new := by
  constructor
  · rintro (⟨hmem, hread⟩ | habsent)
    · obtain heq | hmem := List.mem_cons.mp hmem
      · cases heq
        exact hread
      · exact absurd (List.mem_map_of_mem hmem) h
    · exact absurd List.mem_cons_self habsent
  · exact .given List.mem_cons_self

theorem cons_of_ne {other : String} (hne : key ≠ other) (value : Value) :
    Fills read ((other, value) :: entries) key old new ↔ Fills read entries key old new := by
  constructor
  · rintro (⟨hmem, hread⟩ | habsent)
    · obtain heq | hmem := List.mem_cons.mp hmem
      · cases heq
        exact absurd rfl hne
      · exact .given hmem hread
    · exact .absent fun hmem => habsent (List.mem_cons_of_mem _ hmem)
  · rintro (⟨hmem, hread⟩ | habsent)
    · exact .given (List.mem_cons_of_mem _ hmem) hread
    · refine .absent fun hmem => ?_
      obtain rfl | hmem := List.mem_cons.mp hmem
      · exact hne rfl
      · exact habsent hmem

theorem perm {others : Entries} (hperm : entries.Perm others) :
    Fills read entries key old new ↔ Fills read others key old new := by
  have hsome {a b : Entries} (hperm : a.Perm b) (h : Fills read a key old new) :
      Fills read b key old new := by
    obtain ⟨hmem, hread⟩ | habsent := h
    · exact .given (hperm.mem_iff.mp hmem) hread
    · exact .absent fun hmem => habsent ((hperm.map Prod.fst).mem_iff.mpr hmem)
  exact ⟨hsome hperm, hsome hperm.symm⟩

end Fills

/-- A table is read by setting one field for each of its keys, which are all different, so what the
    reading makes of a record can be said of the entries in any order. -/
structure Reading {α : Type} (set : String → Value → α → Except ProfileFault α)
    (Filled : Entries → α → α → Prop) : Prop where
  nil : ∀ {old new}, Filled [] old new ↔ new = old
  cons : ∀ {key value entries old new}, key ∉ entries.map Prod.fst →
    (Filled ((key, value) :: entries) old new ↔
      ∃ mid, set key value old = .ok mid ∧ Filled entries mid new)
  perm : ∀ {a b old new}, a.Perm b → (Filled a old new ↔ Filled b old new)

namespace Reading

variable {α : Type} {set : String → Value → α → Except ProfileFault α}
  {Filled : Entries → α → α → Prop} {entries : Entries} {old new : α}

theorem foldlM_eq_ok (h : Reading set Filled) (hnodup : (entries.map Prod.fst).Nodup) :
    entries.foldlM (fun a (key, value) => set key value a) old = .ok new ↔
      Filled entries old new := by
  induction entries generalizing old with
  | nil =>
    rw [h.nil, List.foldlM_nil]
    exact Except.ok.injEq old new ▸ eq_comm
  | cons entry entries ih =>
    obtain ⟨key, value⟩ := entry
    rw [List.map_cons, List.nodup_cons] at hnodup
    rw [h.cons hnodup.1, List.foldlM_cons, bind_eq_ok]
    exact exists_congr fun mid => and_congr_right fun _ => ih hnodup.2

theorem sorted_eq_ok (h : Reading set Filled) (hnodup : (entries.map Prod.fst).Nodup) :
    (Toml.Entries.sorted entries).foldlM (fun a (key, value) => set key value a) old = .ok new ↔
      Filled entries old new := by
  have hsorted : (Toml.Entries.sorted entries).Perm entries := List.mergeSort_perm _ _
  rw [h.foldlM_eq_ok ((hsorted.map Prod.fst).nodup_iff.mpr hnodup), h.perm hsorted]

end Reading

/-- An optional field is set to what is read. -/
def Decode.given {α : Type} (read : Value → Except ProfileFault α) (value : Value) :
    Except ProfileFault (Option α) :=
  (read value).map some

@[mk_iff]
structure FillsInput (entries : Entries) (old new : ProfileInput) : Prop where
  keys : ∀ key ∈ entries.map Prod.fst, key ∈ Decode.inputFields
  firstnames : Fills (Decode.given Decode.text) entries "firstnames" old.firstnames new.firstnames
  lastnames : Fills (Decode.given Decode.text) entries "lastnames" old.lastnames new.lastnames
  maxNameLength : Fills (Decode.given Decode.number) entries "max_name_length" old.maxNameLength
    new.maxNameLength
  overlong : Fills (Decode.given Decode.policy) entries "overlong" old.overlong new.overlong
  stripCarriageReturn : Fills (Decode.given Decode.truth) entries "strip_carriage_return"
    old.stripCarriageReturn new.stripCarriageReturn

@[mk_iff]
structure FillsOutput (entries : Entries) (old new : ProfileOutput) : Prop where
  keys : ∀ key ∈ entries.map Prod.fst, key ∈ Decode.outputFields
  path : Fills (Decode.given Decode.text) entries "path" old.path new.path
  format : Fills (Decode.given Decode.text) entries "format" old.format new.format
  maxLines : Fills (Decode.given Decode.number) entries "max_lines" old.maxLines new.maxLines

@[mk_iff]
structure FillsProfile (entries : Entries) (old new : Profile) : Prop where
  keys : ∀ key ∈ entries.map Prod.fst, key ∈ Decode.profileFields
  input : Fills (Decode.record Decode.inputFields Decode.setInput {}) entries "input" old.input
    new.input
  output : Fills (Decode.record Decode.outputFields Decode.setOutput {}) entries "output" old.output
    new.output
  monitoring : Fills (Decode.given Decode.monitoring) entries "monitoring" old.monitoring
    new.monitoring

theorem forall_keys_perm {a b : Entries} (h : a.Perm b) (fields : List String) :
    (∀ key ∈ a.map Prod.fst, key ∈ fields) ↔ ∀ key ∈ b.map Prod.fst, key ∈ fields :=
  forall_congr' fun _ => imp_congr_left (h.map Prod.fst).mem_iff

theorem reading_input : Reading Decode.setInput FillsInput where
  nil {old new} := by
    cases old
    cases new
    simp [fillsInput_iff, Fills.of_absent]
  cons {key value entries old new} hfresh := by
    unfold Decode.setInput
    split
    case h_6 h1 h2 h3 h4 h5 =>
      have hunknown : key ∉ Decode.inputFields := by
        simp only [Decode.inputFields, List.mem_cons, List.not_mem_nil, or_false]
        tauto
      simp [fillsInput_iff, hunknown]
    -- The key of a field fills that field and no other.
    all_goals
      simp only [fillsInput_iff, Fills.cons_self hfresh, Fills.of_absent hfresh, Decode.given,
        map_eq_ok, exists_exists_and_eq_and]
      simp [Fills.cons_of_ne, Decode.inputFields]
      grind
  perm hperm := by simp only [fillsInput_iff, Fills.perm hperm, forall_keys_perm hperm]

theorem reading_output : Reading Decode.setOutput FillsOutput where
  nil {old new} := by
    cases old
    cases new
    simp [fillsOutput_iff, Fills.of_absent]
  cons {key value entries old new} hfresh := by
    unfold Decode.setOutput
    split
    case h_4 h1 h2 h3 =>
      have hunknown : key ∉ Decode.outputFields := by
        simp only [Decode.outputFields, List.mem_cons, List.not_mem_nil, or_false]
        tauto
      simp [fillsOutput_iff, hunknown]
    all_goals
      simp only [fillsOutput_iff, Fills.cons_self hfresh, Fills.of_absent hfresh, Decode.given,
        map_eq_ok, exists_exists_and_eq_and]
      simp [Fills.cons_of_ne, Decode.outputFields]
      grind
  perm hperm := by simp only [fillsOutput_iff, Fills.perm hperm, forall_keys_perm hperm]

theorem reading_profile : Reading Decode.setProfile FillsProfile where
  nil {old new} := by
    cases old
    cases new
    simp [fillsProfile_iff, Fills.of_absent]
  cons {key value entries old new} hfresh := by
    unfold Decode.setProfile
    split
    case h_4 h1 h2 h3 =>
      have hunknown : key ∉ Decode.profileFields := by
        simp only [Decode.profileFields, List.mem_cons, List.not_mem_nil, or_false]
        tauto
      simp [fillsProfile_iff, hunknown]
    all_goals
      simp only [fillsProfile_iff, Fills.cons_self hfresh, Fills.of_absent hfresh, Decode.given,
        map_eq_ok, exists_exists_and_eq_and]
      simp [Fills.cons_of_ne, Decode.profileFields]
      grind
  perm hperm := by simp only [fillsProfile_iff, Fills.perm hperm, forall_keys_perm hperm]

end LoginNames.Profile
