import LoginNames.Settings
import Mathlib

/-! # What settings come to

Settings that are merged from several sources are resolved in two steps. A required one that no
source sets is missing, the first of them first; where none is, the defaults are filled in, and what
comes of it is checked as a whole. -/

set_option autoImplicit false

namespace LoginNames

/-- What a path may be before it is looked up. -/
def Check.IsPath (value : String) : Prop := value ≠ "" ∧ '\x00' ∉ value.toList

namespace Check

@[simp] theorem path_eq_ok {field value : String} : path field value = .ok () ↔ IsPath value := by
  unfold path IsPath
  split
  · simp_all
  · split <;> simp_all

@[simp] theorem atLeast_eq_ok {field : String} {value min : Nat} :
    atLeast field value min = .ok () ↔ min ≤ value := by
  unfold atLeast
  split <;> simp <;> omega

@[simp] theorem within_eq_ok {field : String} {value min max : Int} :
    within field value min max = .ok () ↔ min ≤ value ∧ value ≤ max := by
  unfold within
  split <;> simp <;> omega

end Check

namespace Settings

/-- Settings that a run can start with. -/
@[mk_iff]
structure Valid (s : Settings) : Prop where
  firstnames : Check.IsPath s.firstnames
  lastnames : Check.IsPath s.lastnames
  output : Check.IsPath s.output
  maxLines : ∀ lines ∈ s.maxLines, 1 ≤ lines
  maxLength_pos : 1 ≤ s.loading.maxLength
  maxLength_le : s.loading.maxLength ≤ maxNameLengthLimit

theorem then_eq_ok {α : Type} {check : Except Failure Unit} {next : Except Failure α} {a : α} :
    (check >>= fun _ => next) = .ok a ↔ check = .ok () ∧ next = .ok a := by
  cases check <;> simp [bind, Except.bind]

theorem check_eq_ok {s : Settings} : s.check = .ok () ↔ s.Valid := by
  obtain ⟨firstnames, lastnames, output, format, maxLines, loading, monitoring⟩ := s
  rw [valid_iff, check]
  cases maxLines <;> simp [then_eq_ok]

end Settings

namespace Overrides

/-- The settings that have no default. -/
def required (o : Overrides) : List (String × Option String) :=
  [("firstnames", o.firstnames), ("lastnames", o.lastnames), ("output", o.output),
    ("format", o.format)]

def missing? (o : Overrides) : Option String :=
  (o.required.find? fun setting => setting.2.isNone).map Prod.fst

/-- The settings with the defaults filled in. -/
def filled (o : Overrides) : Settings where
  firstnames := o.firstnames.getD ""
  lastnames := o.lastnames.getD ""
  output := o.output.getD ""
  format := o.format.getD ""
  maxLines := o.maxLines
  loading := {
    maxLength := o.maxNameLength.getD defaultMaxLength
    overlong := o.overlong.getD .truncate
    stripCarriageReturn := o.stripCarriageReturn.getD false }
  monitoring := o.monitoring.getD false

theorem missing?_eq_none {o : Overrides} :
    o.missing? = none ↔ ∀ setting ∈ o.required, setting.2 ≠ none := by
  unfold missing?
  rw [Option.map_eq_none_iff, List.find?_eq_none]
  simp only [Option.isNone_iff_eq_none]

end Overrides

namespace Settings

theorem resolve_eq (o : Overrides) :
    resolve o = match o.missing? with
      | some field => .error (.missingSetting field)
      | none => o.filled.check.map fun _ => o.filled := by
  obtain ⟨firstnames, lastnames, output, format, maxLines, maxNameLength, overlong, strip,
    monitoring⟩ := o
  -- The first setting that is missing decides; with none missing, both sides check the same.
  cases firstnames with
  | none => rfl
  | some firstnames =>
    cases lastnames with
    | none => rfl
    | some lastnames =>
      cases output with
      | none => rfl
      | some output =>
        cases format with
        | none => rfl
        | some format => rfl

theorem resolve_of_missing {o : Overrides} {field : String} (h : o.missing? = some field) :
    resolve o = .error (.missingSetting field) := by
  rw [resolve_eq, h]

theorem resolve_of_filled {o : Overrides} (h : o.missing? = none) :
    resolve o = o.filled.check.map fun _ => o.filled := by
  rw [resolve_eq, h]

theorem resolve_eq_ok {o : Overrides} {s : Settings} :
    resolve o = .ok s ↔ (o.missing? = none ∧ s = o.filled) ∧ s.Valid := by
  cases hmissing : o.missing? with
  | some field => simp [resolve_of_missing hmissing]
  | none =>
    rw [resolve_of_filled hmissing, ← check_eq_ok]
    cases hcheck : o.filled.check with
    | error failure =>
      constructor
      · rintro ⟨⟩
      · rintro ⟨⟨-, rfl⟩, hvalid⟩
        rw [hcheck] at hvalid
        cases hvalid
    | ok checked =>
      constructor
      · rintro ⟨⟩
        exact ⟨⟨rfl, rfl⟩, hcheck⟩
      · rintro ⟨⟨-, rfl⟩, -⟩
        rfl

end Settings

end LoginNames
