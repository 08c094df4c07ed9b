import LoginNames.Numeral
import LoginNames.Proofs.Settings

/-! # Settings from many sources

Sources are merged from left to right, and each setting is that of the first source that sets it,
however the merges are grouped. What they come to has to meet some requirements, one after the
other, and the first that is not met is the failure. -/

set_option autoImplicit false

namespace LoginNames

namespace Overrides

/-- Sources merged in their order. -/
def merged : List Overrides → Overrides
  | [] => {}
  | first :: rest => rest.foldl or first

/-- Each setting from the first source that sets it. -/
def firstSet (sources : List Overrides) : Overrides where
  firstnames := sources.findSome? firstnames
  lastnames := sources.findSome? lastnames
  output := sources.findSome? output
  format := sources.findSome? format
  maxLines := sources.findSome? maxLines
  maxNameLength := sources.findSome? maxNameLength
  overlong := sources.findSome? overlong
  stripCarriageReturn := sources.findSome? stripCarriageReturn
  monitoring := sources.findSome? monitoring

/-- A way to merge sources two at a time. -/
inductive Grouping
  | source (o : Overrides)
  | merge (first second : Grouping)

namespace Grouping

def sources : Grouping → List Overrides
  | source o => [o]
  | merge first second => first.sources ++ second.sources

def result : Grouping → Overrides
  | source o => o
  | merge first second => first.result.or second.result

end Grouping

@[simp] theorem unset_or (o : Overrides) : ({} : Overrides).or o = o := by
  cases o
  simp only [or, Option.none_or]

@[simp] theorem or_unset (o : Overrides) : o.or {} = o := by
  cases o
  simp only [or, Option.or_none]

theorem or_assoc (a b c : Overrides) : (a.or b).or c = a.or (b.or c) := by
  simp only [or, Option.or_assoc]

theorem foldl_or (first : Overrides) (rest : List Overrides) :
    rest.foldl or first = first.or (merged rest) := by
  induction rest generalizing first with
  | nil => exact (or_unset first).symm
  | cons next rest ih => rw [List.foldl_cons, ih, or_assoc, ← ih next]; rfl

theorem merged_cons (first : Overrides) (rest : List Overrides) :
    merged (first :: rest) = first.or (merged rest) :=
  foldl_or first rest

theorem merged_append (a b : List Overrides) : merged (a ++ b) = (merged a).or (merged b) := by
  induction a with
  | nil => exact (unset_or (merged b)).symm
  | cons first a ih => rw [List.cons_append, merged_cons, ih, merged_cons, or_assoc]

theorem merged_unset (before after : List Overrides) :
    merged (before ++ {} :: after) = merged (before ++ after) := by
  rw [merged_append, merged_cons, unset_or, ← merged_append]

theorem merged_eq_firstSet (sources : List Overrides) : merged sources = firstSet sources := by
  have hcons {α : Type} (setting : Overrides → Option α) (first : Overrides)
      (rest : List Overrides) :
      (first :: rest).findSome? setting = (setting first).or (rest.findSome? setting) := by
    rw [List.findSome?_cons]
    cases setting first <;> rfl
  induction sources with
  | nil => rfl
  | cons first rest ih => simp only [merged_cons, ih, firstSet, hcons, or]

theorem Grouping.result_eq (g : Grouping) : g.result = merged g.sources := by
  induction g with
  | source o => rfl
  | merge first second ihFirst ihSecond =>
    rw [result, ihFirst, ihSecond, sources, merged_append]

end Overrides

/-- Something that settings have to meet, and the failure where they do not. -/
structure Requirement where
  met : Bool
  failure : Failure

namespace Requirement

/-- The failure of the first requirement that is not met. -/
def failure? (requirements : List Requirement) : Option Failure :=
  (requirements.find? (!·.met)).map failure

def verdict (requirements : List Requirement) : Except Failure Unit :=
  match failure? requirements with
  | some failure => .error failure
  | none => .ok ()

def given (setting : String × Option String) : Requirement :=
  ⟨setting.2.isSome, .missingSetting setting.1⟩

def path (field value : String) : List Requirement :=
  [⟨value ≠ "", .invalidValue field value "Path cannot be empty"⟩,
    ⟨'\x00' ∉ value.toList, .invalidValue field value "Path contains null bytes"⟩]

theorem failure?_append (a b : List Requirement) :
    failure? (a ++ b) = (failure? a).or (failure? b) := by
  rw [failure?, List.find?_append, Option.map_or, ← failure?, ← failure?]

theorem verdict_append (a b : List Requirement) :
    verdict (a ++ b) = verdict a >>= fun _ => verdict b := by
  rw [verdict, failure?_append, verdict]
  cases failure? a <;> rfl

theorem verdict_path (field value : String) :
    verdict (path field value) = Check.path field value := by
  by_cases hempty : value = ""
  · simp [verdict, failure?, path, Check.path, hempty]
  · by_cases hnull : '\x00' ∈ value.toList
    · simp [verdict, failure?, path, Check.path, hempty, hnull]
    · simp [verdict, failure?, path, Check.path, hempty, hnull]

end Requirement

namespace Settings

/-- Paths first, then the numbers. -/
def requirements (s : Settings) : List Requirement :=
  Requirement.path "firstnames" s.firstnames ++ (Requirement.path "lastnames" s.lastnames ++
    (Requirement.path "output" s.output ++
      ([⟨s.maxLines ≠ some 0, .invalidValue "max_lines" "0" "Value must be at least 1"⟩] ++
        [⟨1 ≤ s.loading.maxLength ∧ s.loading.maxLength ≤ 65536,
          .invalidValue "max_name_length" (toString s.loading.maxLength)
            "Value must be between 1 and 65536"⟩])))

theorem verdict_lines (lines : Option Nat) :
    Requirement.verdict
        [⟨lines ≠ some 0, .invalidValue "max_lines" "0" "Value must be at least 1"⟩] =
      match lines with
      | some lines => Check.atLeast "max_lines" lines 1
      | none => .ok () := by
  cases lines with
  | none => rfl
  | some n =>
    cases n with
    | zero => decide
    | succ n => simp [Requirement.verdict, Requirement.failure?, Check.atLeast]

theorem verdict_length (length : Nat) :
    Requirement.verdict
        [⟨1 ≤ length ∧ length ≤ 65536, .invalidValue "max_name_length" (toString length)
          "Value must be between 1 and 65536"⟩] =
      Check.within "max_name_length" length 1 maxNameLengthLimit := by
  by_cases h : 1 ≤ length ∧ length ≤ 65536
  · rw [Check.within_eq_ok.mpr (by unfold maxNameLengthLimit; omega)]
    simp [Requirement.verdict, Requirement.failure?, h]
  · have hout : (length : Int) < 1 ∨ (maxNameLengthLimit : Int) < length := by
      unfold maxNameLengthLimit
      omega
    rw [Check.within, if_pos hout]
    simp only [Requirement.verdict, Requirement.failure?, h]
    rfl

theorem verdict_requirements (s : Settings) : Requirement.verdict s.requirements = s.check := by
  obtain ⟨firstnames, lastnames, output, format, maxLines, loading, monitoring⟩ := s
  simp only [requirements, Requirement.verdict_append, Requirement.verdict_path, verdict_lines,
    verdict_length, check]
  cases maxLines <;> rfl

/-- Settings that hold what a source sets, and the defaults where it sets nothing. -/
structure Carries (o : Overrides) (s : Settings) : Prop where
  firstnames : o.firstnames = some s.firstnames
  lastnames : o.lastnames = some s.lastnames
  output : o.output = some s.output
  format : o.format = some s.format
  maxLines : s.maxLines = o.maxLines
  maxLength : s.loading.maxLength = o.maxNameLength.getD 99
  overlong : s.loading.overlong = o.overlong.getD .truncate
  stripCarriageReturn : s.loading.stripCarriageReturn = o.stripCarriageReturn.getD false
  monitoring : s.monitoring = o.monitoring.getD false

end Settings

namespace Overrides

/-- The required settings have to be there, and then those with a default are looked at as well. -/
def requirements (o : Overrides) : List Requirement :=
  o.required.map Requirement.given ++ o.filled.requirements

/-- What a source has to set, and to what, for a run to start with it. -/
@[mk_iff]
structure Sufficient (o : Overrides) : Prop where
  firstnames : ∃ path, o.firstnames = some path ∧ Check.IsPath path
  lastnames : ∃ path, o.lastnames = some path ∧ Check.IsPath path
  output : ∃ path, o.output = some path ∧ Check.IsPath path
  format : ∃ format, o.format = some format
  maxLines : o.maxLines ≠ some 0
  maxNameLength : 1 ≤ o.maxNameLength.getD 99 ∧ o.maxNameLength.getD 99 ≤ 65536

theorem failure?_required (o : Overrides) :
    Requirement.failure? (o.required.map Requirement.given) =
      o.missing?.map Failure.missingSetting := by
  have hmet : (fun r : Requirement => !r.met) ∘ Requirement.given =
      fun setting => setting.2.isNone := by
    funext setting
    simp [Requirement.given]
  rw [Requirement.failure?, List.find?_map, hmet, missing?, Option.map_map, Option.map_map]
  rfl

theorem resolve_eq_failure? (o : Overrides) :
    Settings.resolve o = match Requirement.failure? o.requirements with
      | some failure => .error failure
      | none => .ok o.filled := by
  rw [Settings.resolve_eq, requirements, Requirement.failure?_append, failure?_required,
    ← Settings.verdict_requirements, Requirement.verdict]
  cases o.missing? with
  | some field => rfl
  | none => cases Requirement.failure? o.filled.requirements <;> rfl

theorem sufficient_iff_valid {o : Overrides} :
    o.Sufficient ↔ o.missing? = none ∧ o.filled.Valid := by
  obtain ⟨firstnames, lastnames, output, format, maxLines, maxNameLength, overlong, strip,
    monitoring⟩ := o
  have hlines : maxLines ≠ some 0 ↔ ∀ lines ∈ maxLines, 1 ≤ lines := by
    cases maxLines with
    | none => simp
    | some lines => simp [Nat.one_le_iff_ne_zero]
  rw [sufficient_iff, missing?_eq_none, Settings.valid_iff]
  simp only [required, filled, List.forall_mem_cons, Option.ne_none_iff_exists', hlines]
  constructor
  · rintro ⟨⟨first, rfl, hfirst⟩, ⟨last, rfl, hlast⟩, ⟨out, rfl, hout⟩, ⟨format, rfl⟩, hmax, hlow,
      hhigh⟩
    exact ⟨⟨⟨first, rfl⟩, ⟨last, rfl⟩, ⟨out, rfl⟩, ⟨format, rfl⟩, fun _ h => nomatch h⟩,
      hfirst, hlast, hout, hmax, hlow, hhigh⟩
  · rintro ⟨⟨⟨first, rfl⟩, ⟨last, rfl⟩, ⟨out, rfl⟩, ⟨format, rfl⟩, -⟩, hfirst, hlast, hout, hmax,
      hlow, hhigh⟩
    exact ⟨⟨first, rfl, hfirst⟩, ⟨last, rfl, hlast⟩, ⟨out, rfl, hout⟩, ⟨format, rfl⟩, hmax, hlow,
      hhigh⟩

theorem carries_of_resolve {o : Overrides} {s : Settings} (h : Settings.resolve o = .ok s) :
    s.Carries o := by
  obtain ⟨⟨hmissing, rfl⟩, -⟩ := Settings.resolve_eq_ok.mp h
  rw [missing?_eq_none] at hmissing
  obtain ⟨firstnames, lastnames, output, format, maxLines, maxNameLength, overlong, strip,
    monitoring⟩ := o
  simp only [required, List.forall_mem_cons, Option.ne_none_iff_exists'] at hmissing
  obtain ⟨⟨first, rfl⟩, ⟨last, rfl⟩, ⟨out, rfl⟩, ⟨format, rfl⟩, -⟩ := hmissing
  exact ⟨rfl, rfl, rfl, rfl, rfl, rfl, rfl, rfl, rfl⟩

end Overrides

/-- Sources are merged setting by setting, where the first that sets one decides, so the merges can
    be grouped in any way and a source that sets nothing can stand anywhere. A run can start with
    what they come to where it is sufficient, and then with just that and the defaults, under which
    the limit of a name and the byte beyond it are still a word; otherwise the first requirement
    that is not met is the failure. -/
theorem resolve_merged (first : Overrides) (rest : List Overrides) :
    let sources := first :: rest
    let m := rest.foldl Overrides.or first
    m = Overrides.firstSet sources ∧
      (∀ g : Overrides.Grouping, g.sources = sources → g.result = m) ∧
      (∀ before after, before ++ after = sources →
        Overrides.merged (before ++ {} :: after) = m) ∧
      ((∃ s, Settings.resolve m = .ok s) ↔ m.Sufficient) ∧
      (∀ s, Settings.resolve m = .ok s →
        s.Carries m ∧ s.loading.maxLength + 1 ≤ Numeral.maxWord) ∧
      ∀ failure, Settings.resolve m = .error failure ↔
        Requirement.failure? m.requirements = some failure := by
  intro sources m
  have hmerged : Overrides.merged sources = m := rfl
  refine ⟨?settings, ?grouping, ?unset, ?accepted, ?carried, ?refused⟩
  case settings => rw [← hmerged, Overrides.merged_eq_firstSet]
  case grouping =>
    intro g hsources
    rw [g.result_eq, hsources, hmerged]
  case unset =>
    intro before after hsources
    rw [Overrides.merged_unset, hsources, hmerged]
  case accepted =>
    rw [Overrides.sufficient_iff_valid]
    simp only [Settings.resolve_eq_ok]
    constructor
    · rintro ⟨s, ⟨hmissing, rfl⟩, hvalid⟩
      exact ⟨hmissing, hvalid⟩
    · rintro ⟨hmissing, hvalid⟩
      exact ⟨m.filled, ⟨hmissing, rfl⟩, hvalid⟩
  case carried =>
    intro s hresolve
    refine ⟨Overrides.carries_of_resolve hresolve, ?_⟩
    have hlength := (Settings.resolve_eq_ok.mp hresolve).2.maxLength_le
    exact (Nat.succ_le_succ hlength).trans (by decide)
  case refused =>
    intro failure
    rw [Overrides.resolve_eq_failure?]
    cases Requirement.failure? m.requirements <;> simp

/-- A source that sets nothing between two others: the first one decides where both set something,
    also when what it sets is refused, and a refused path comes before a refused length. -/
theorem resolve_merged_of_empty_path :
    let path (output : String) : Overrides := { output := some output, maxLines := some 5 }
    let rest : List Overrides := [{}, {
      firstnames := some "f", lastnames := some "l", output := some "o", format := some "x",
      maxLines := some 0, maxNameLength := some 65537 }]
    let length : Overrides := { maxNameLength := some 65536 }
    let s : Settings := ⟨"f", "l", "p", "x", some 5, ⟨65536, .truncate, false⟩, false⟩
    Settings.resolve (rest.foldl Overrides.or (path "")) =
        .error (.invalidValue "output" "" "Path cannot be empty") ∧
      Settings.resolve (rest.foldl Overrides.or (path "p")) =
        .error (.invalidValue "max_name_length" "65537" "Value must be between 1 and 65536") ∧
      Settings.resolve ((path "p" :: rest).foldl Overrides.or length) = .ok s ∧
      s.Carries ((path "p" :: rest).foldl Overrides.or length) ∧
      (Overrides.Grouping.merge (.merge (.source length) (.source (path "p")))
        (.merge (.source {}) (.source rest[1]))).result =
          (path "p" :: rest).foldl Overrides.or length := by
  intro path rest length s
  obtain ⟨-, -, -, -, -, hpath⟩ := resolve_merged (path "") rest
  obtain ⟨-, -, -, -, -, hlength⟩ := resolve_merged (path "p") rest
  obtain ⟨-, hgrouping, -, -, hcarried, -⟩ := resolve_merged length (path "p" :: rest)
  have hresolve : Settings.resolve ((path "p" :: rest).foldl Overrides.or length) = .ok s := by
    decide
  exact ⟨(hpath _).mpr (by decide), (hlength _).mpr (by decide), hresolve,
    (hcarried s hresolve).1, hgrouping _ rfl⟩

end LoginNames
