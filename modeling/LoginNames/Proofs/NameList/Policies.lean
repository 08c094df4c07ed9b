import LoginNames.Proofs.NameList.Overlong

/-! # Policies and limits compared

Loads of one source that differ in what becomes of a line that is too long, or in the limit, come to
the same lines. So where none is too long they are the same load; where one is, the failure of the
strict load is the first entry of the other one; and a smaller limit takes less of the same names. -/

set_option autoImplicit false

namespace LoginNames

/-- Of the start of a name, a shorter start is that of the name. -/
theorem NameList.map_take_of_le {max more : Nat} (h : max ≤ more) (names : NameList) :
    (names.map (·.take more)).map (·.take max) = names.map (·.take max) := by
  rw [List.map_map]
  apply List.map_congr_left
  intro name _
  rw [Function.comp_apply, List.take_take, Nat.min_eq_left h]

/-- The lines that a load of the source comes to, whatever its options are. -/
def Source.lines (source : Source) : List Bytes := (source.stream false).lines

theorem Loaded.cutOff_ok_eq_ok {names loaded : NameList} {log : Log} {failure : Option IoError} :
    (Loaded.cutOff ⟨.ok names, log⟩ failure).result = .ok loaded ↔
      failure = none ∧ loaded = names := by
  cases failure <;> simp [cutOff, Except.bind, eq_comm]

theorem Loaded.cutOff_ok_eq_error {names : NameList} {log : Log} {broken : Option IoError}
    {failure : Failure} :
    (Loaded.cutOff ⟨.ok names, log⟩ broken).result = .error failure ↔
      ∃ cause, broken = some cause ∧ failure = .io cause := by
  cases broken <;> simp [cutOff, Except.bind, eq_comm]

theorem Loaded.cutOff_log (loaded : Loaded) (failure : Option IoError) :
    (loaded.cutOff failure).log = loaded.log := by
  cases failure <;> rfl

section Load

variable {options : LoadOptions} {source : Source}

theorem load_of_truncate (hoverlong : options.overlong = .truncate) :
    load options source =
      Loaded.cutOff ⟨.ok ((source.lines.map options.stripped).map (·.take options.maxLength)),
        options.cutEntries source.lines⟩ (source.stream false).failure := by
  rw [load_eq_stream, Stream.load, ← Source.lines, LoadOptions.judge_truncate hoverlong]

theorem load_of_reject_fits (hoverlong : options.overlong = .reject)
    (h : options.longLines source.lines = []) :
    load options source =
      Loaded.cutOff ⟨.ok (source.lines.map options.stripped), []⟩
        (source.stream false).failure := by
  rw [load_eq_stream, Stream.load, ← Source.lines, LoadOptions.judge_reject_fits hoverlong h]

theorem load_of_reject_long (hoverlong : options.overlong = .reject) {line : Bytes} {number : Nat}
    (h : (options.longLines source.lines).head? = some (line, number)) :
    (load options source).result =
      .error (.nameTooLong number line.length options.maxLength) := by
  rw [load_eq_stream, Stream.load, ← Source.lines, LoadOptions.judge_reject_long hoverlong h]
  cases (source.stream false).failure <;> rfl

/-- A strict load gives the lines themselves, as long as all of them fit. -/
theorem load_reject_eq_ok (hoverlong : options.overlong = .reject) {names : NameList} :
    (load options source).result = .ok names ↔
      (source.stream false).failure = none ∧ names = source.lines.map options.stripped ∧
        ∀ name ∈ names, name.length ≤ options.maxLength := by
  cases hlong : options.longLines source.lines with
  | nil =>
    have hfits := LoadOptions.longLines_eq_nil.mp hlong
    rw [load_of_reject_fits hoverlong hlong, Loaded.cutOff_ok_eq_ok]
    constructor
    · rintro ⟨hfailure, rfl⟩
      exact ⟨hfailure, rfl, hfits⟩
    · rintro ⟨hfailure, hnames, -⟩
      exact ⟨hfailure, hnames⟩
  | cons first more =>
    obtain ⟨line, number⟩ := first
    have hhead : (options.longLines source.lines).head? = some (line, number) := by
      rw [hlong, List.head?_cons]
    rw [load_of_reject_long hoverlong hhead]
    constructor
    · rintro ⟨⟩
    · rintro ⟨-, rfl, hfits⟩
      rw [LoadOptions.longLines_eq_nil.mpr hfits] at hlong
      cases hlong

/-- A load fails for a read, or for a line where such lines are not cut. -/
theorem load_error_cases {failure : Failure} (h : (load options source).result = .error failure) :
    (∃ cause, (source.stream false).failure = some cause ∧ failure = .io cause) ∨
      options.overlong = .reject ∧
        ∃ line length, failure = .nameTooLong line length options.maxLength := by
  cases hoverlong : options.overlong with
  | truncate =>
    rw [load_of_truncate hoverlong, Loaded.cutOff_ok_eq_error] at h
    exact .inl h
  | reject =>
    cases hlong : options.longLines source.lines with
    | nil =>
      rw [load_of_reject_fits hoverlong hlong, Loaded.cutOff_ok_eq_error] at h
      exact .inl h
    | cons first more =>
      rw [load_of_reject_long hoverlong (by rw [hlong, List.head?_cons])] at h
      exact .inr ⟨rfl, _, _, (Except.error.inj h).symm⟩

theorem load_truncate_ne_too_long (hoverlong : options.overlong = .truncate)
    (line length max : Nat) :
    (load options source).result ≠ .error (.nameTooLong line length max) := by
  intro h
  obtain ⟨cause, -, hio⟩ | ⟨hreject, -⟩ := load_error_cases h
  · cases hio
  · cases hreject.symm.trans hoverlong

end Load

section Policies

variable (source : Source) (strip : Bool) (max : Nat)

/-- Either no line is too long and the policy does not matter, or the first line that is too long is
    what stops the one load and what the other one tells first. -/
theorem load_policies_cases :
    (load ⟨max, .reject, strip⟩ source = load ⟨max, .truncate, strip⟩ source ∧
        (load ⟨max, .truncate, strip⟩ source).log = []) ∨
      ∃ line length, (load ⟨max, .reject, strip⟩ source).result =
          .error (.nameTooLong line length max) ∧
        (load ⟨max, .truncate, strip⟩ source).log.head? =
          some (truncationEntry line length max) := by
  have hcut : load ⟨max, .truncate, strip⟩ source = _ := load_of_truncate rfl
  cases hlong : LoadOptions.longLines ⟨max, .reject, strip⟩ source.lines with
  | nil =>
    have hentries : LoadOptions.cutEntries ⟨max, .truncate, strip⟩ source.lines = [] :=
      congrArg (List.map _) hlong
    have hfits : ∀ line ∈ source.lines.map (LoadOptions.stripped ⟨max, .truncate, strip⟩),
        line.length ≤ max := LoadOptions.longLines_eq_nil.mp hlong
    rw [LoadOptions.map_take_of_fits hfits, hentries] at hcut
    rw [load_of_reject_fits rfl hlong, hcut]
    exact .inl ⟨rfl, Loaded.cutOff_log _ _⟩
  | cons first more =>
    obtain ⟨line, number⟩ := first
    have hhead : (LoadOptions.longLines ⟨max, .reject, strip⟩ source.lines).head? =
        some (line, number) := by rw [hlong, List.head?_cons]
    have hentries : LoadOptions.cutEntries ⟨max, .truncate, strip⟩ source.lines = _ :=
      congrArg (List.map _) hlong
    refine .inr ⟨number, line.length, load_of_reject_long rfl hhead, ?_⟩
    rw [hcut, Loaded.cutOff_log, hentries, List.map_cons, List.head?_cons]

theorem load_limits_cases {more : Nat} (h : max ≤ more) :
    (∃ cause, (load ⟨max, .truncate, strip⟩ source).result = .error (.io cause) ∧
        (load ⟨more, .truncate, strip⟩ source).result = .error (.io cause)) ∨
      ∃ names : NameList, (load ⟨more, .truncate, strip⟩ source).result = .ok names ∧
        (load ⟨max, .truncate, strip⟩ source).result = .ok (names.map (·.take max)) := by
  rw [load_of_truncate rfl, load_of_truncate rfl]
  cases (source.stream false).failure with
  | some cause => exact .inl ⟨cause, rfl, rfl⟩
  | none =>
    exact .inr ⟨_, rfl, congrArg Except.ok (NameList.map_take_of_le h _).symm⟩

end Policies

/-- A strict load succeeds where the other one cuts no line, and is the same load then; where a line
    stops it, that line is the first one that the other load tells of. With a larger limit more is
    taken of the same names, or the same read fails, and a strict load that succeeds stays as it is. -/
theorem load_policies (source : Source) (strip : Bool) (max : Nat) :
    let cut := load ⟨max, .truncate, strip⟩ source
    let strict := load ⟨max, .reject, strip⟩ source
    (∀ names, strict.result = .ok names ↔ cut = ⟨.ok names, []⟩) ∧
    (cut.log = [] → strict = cut) ∧
    (∀ line length most, strict.result = .error (.nameTooLong line length most) →
      most = max ∧ cut.log.head? =
        some ⟨.debug, s!"Line {line} is {length} bytes, truncating to {max}"⟩) ∧
    ∀ more, max ≤ more →
      let wide := load ⟨more, .truncate, strip⟩ source
      ((∃ cause, cut.result = .error (.io cause) ∧ wide.result = .error (.io cause)) ∨
        ∃ names : NameList, wide.result = .ok names ∧
          cut.result = .ok (names.map (·.take max))) ∧
      ∀ names, strict.result = .ok names →
        (load ⟨more, .reject, strip⟩ source).result = .ok names := by
  intro cut strict
  have hcases : (strict = cut ∧ cut.log = []) ∨
      ∃ line length, strict.result = .error (.nameTooLong line length max) ∧
        cut.log.head? = some (truncationEntry line length max) :=
    load_policies_cases source strip max
  refine ⟨fun names => ?_, fun hquiet => ?_, fun line length most hstopped => ?_,
    fun more hmore => ⟨load_limits_cases source strip max hmore, fun names hnames => ?_⟩⟩
  · obtain ⟨hsame, hquiet⟩ | ⟨line, length, hstopped, hfirst⟩ := hcases
    · rw [hsame]
      exact ⟨fun hnames => by rw [← hnames, ← hquiet], fun hcut => by rw [hcut]⟩
    · constructor
      · intro hnames
        cases hnames.symm.trans hstopped
      · intro hcut
        rw [hcut] at hfirst
        cases hfirst
  · obtain ⟨hsame, -⟩ | ⟨line, length, -, hfirst⟩ := hcases
    · exact hsame
    · rw [hquiet] at hfirst
      cases hfirst
  · obtain ⟨hsame, -⟩ | ⟨line', length', hstopped', hfirst⟩ := hcases
    · rw [hsame] at hstopped
      exact absurd hstopped (load_truncate_ne_too_long rfl line length most)
    · cases hstopped.symm.trans hstopped'
      exact ⟨rfl, hfirst⟩
  · obtain ⟨hfailure, hlines, hfits⟩ := (load_reject_eq_ok rfl).mp hnames
    exact (load_reject_eq_ok rfl).mpr
      ⟨hfailure, hlines, fun name hname => (hfits name hname).trans hmore⟩

/-- A line of four bytes behind a line that ends in a carriage return: with a limit of three it stops
    the strict load and is cut by the other one, and with a limit of four it is kept by both; and a
    read that fails behind it. -/
theorem load_policies_of_long_line :
    let source : Source := [.chunk [97, 98, 99, 13], .interrupted, .chunk [10, 97, 98, 99, 100]]
    let failing : Source := source ++ [.failure .isDirectory (by decide)]
    let names : NameList := [[97, 98, 99], [97, 98, 99, 100]]
    3 ≤ 4 ∧ (load ⟨3, .reject, true⟩ source).result = .error (.nameTooLong 2 4 3) ∧
      (load ⟨3, .truncate, true⟩ source).log.head? =
        some ⟨.debug, "Line 2 is 4 bytes, truncating to 3"⟩ ∧
      (load ⟨4, .reject, true⟩ source).result = .ok names ∧
      load ⟨4, .truncate, true⟩ source = ⟨.ok names, []⟩ ∧
      (load ⟨5, .reject, true⟩ source).result = .ok names ∧
      ((∃ cause, (load ⟨3, .truncate, true⟩ failing).result = .error (.io cause) ∧
          (load ⟨4, .truncate, true⟩ failing).result = .error (.io cause)) ∨
        ∃ names : NameList, (load ⟨4, .truncate, true⟩ failing).result = .ok names ∧
          (load ⟨3, .truncate, true⟩ failing).result = .ok (names.map (·.take 3))) := by
  intro source failing names
  have hstopped : (load ⟨3, .reject, true⟩ source).result = .error (.nameTooLong 2 4 3) := by
    rw [load_eq_stream]
    decide
  have hnames : (load ⟨4, .reject, true⟩ source).result = .ok names := by
    rw [load_eq_stream]
    decide
  obtain ⟨-, -, hfirst, -⟩ := load_policies source true 3
  obtain ⟨hquiet, -, -, hwider⟩ := load_policies source true 4
  obtain ⟨-, -, -, hfailing⟩ := load_policies failing true 3
  exact ⟨by decide, hstopped, (hfirst 2 4 3 hstopped).2, hnames, (hquiet names).mp hnames,
    (hwider 5 (by decide)).2 names hnames, (hfailing 4 (by decide)).1⟩

end LoginNames
