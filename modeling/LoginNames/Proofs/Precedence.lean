import LoginNames.Proofs.Performance
import LoginNames.Proofs.Settings
import LoginNames.Proofs.Text.Shown

/-! # Which source a setting comes from

Settings come from the command line, from a profile that it names, and from the defaults, in this
order. A profile that cannot be read or accepted is a failure of its own; with one that can, only
what the two sources come to together is checked. -/

set_option autoImplicit false

namespace LoginNames

/-- Settings that come from a command line over a profile. A flag and its entry in the profile can
    each switch a setting on, and neither can switch it off for the other. -/
@[mk_iff]
structure Settings.Layers (o : Options) (p : Profile) (s : Settings) : Prop where
  firstnames : o.firstnames.or p.input.firstnames = some s.firstnames
  lastnames : o.lastnames.or p.input.lastnames = some s.lastnames
  output : o.output.or p.output.path = some s.output
  format : o.format.or p.output.format = some s.format
  maxLines : s.maxLines = o.maxLines.or p.output.maxLines
  maxLength : s.loading.maxLength =
    (o.maxNameLength.or p.input.maxNameLength).getD defaultMaxLength
  overlong : s.loading.overlong = (o.overlong.or p.input.overlong).getD .truncate
  stripCarriageReturn : s.loading.stripCarriageReturn =
    (o.stripCarriageReturn || p.input.stripCarriageReturn.getD false)
  monitoring : s.monitoring = (o.monitor || p.monitoring.getD false)

theorem or_getD_flag (flag : Bool) (entry : Option Bool) :
    ((if flag then some true else none).or entry).getD false = (flag || entry.getD false) := by
  cases flag <;> rfl

/-- The settings that have no default, each from the first of two sources that sets it. -/
def Options.requiredOver (o : Options) (p : Profile) : List (String × Option String) :=
  [("firstnames", o.firstnames.or p.input.firstnames),
    ("lastnames", o.lastnames.or p.input.lastnames), ("output", o.output.or p.output.path),
    ("format", o.format.or p.output.format)]

theorem Options.required_or (o : Options) (p : Profile) :
    (o.toOverrides.or p.toOverrides).required = o.requiredOver p := rfl

/-- Merging and filling in the defaults is layering, once no required setting is missing. -/
theorem Settings.layers_iff_filled {o : Options} {p : Profile} {s : Settings} :
    s.Layers o p ↔
      (o.toOverrides.or p.toOverrides).missing? = none ∧
        s = (o.toOverrides.or p.toOverrides).filled := by
  obtain ⟨firstnames, lastnames, output, format, maxLines, ⟨maxLength, overlong, strip⟩,
    monitoring⟩ := s
  rw [layers_iff, Overrides.missing?_eq_none]
  simp only [Overrides.required, Overrides.filled, Overrides.or, Options.toOverrides,
    Profile.toOverrides, or_getD_flag, mk.injEq, LoadOptions.mk.injEq, List.forall_mem_cons,
    Option.ne_none_iff_exists']
  constructor
  · rintro ⟨hfirst, hlast, hout, hformat, rfl, rfl, rfl, rfl, rfl⟩
    simp [hfirst, hlast, hout, hformat]
  · rintro ⟨⟨⟨first, hfirst⟩, ⟨last, hlast⟩, ⟨out, hout⟩, ⟨format, hformat⟩, -⟩, rfl, rfl, rfl,
      rfl, rfl, ⟨rfl, rfl, rfl⟩, rfl⟩
    simp [hfirst, hlast, hout, hformat]

/-- Two sources that are merged come to what they give in layers. -/
theorem Settings.resolve_or_eq_ok {o : Options} {p : Profile} {s : Settings} :
    resolve (o.toOverrides.or p.toOverrides) = .ok s ↔ s.Layers o p ∧ s.Valid := by
  rw [resolve_eq_ok, layers_iff_filled]

theorem Settings.resolve_or_of_missing {o : Options} {p : Profile} {field : String}
    (h : (o.requiredOver p).find? (fun setting => setting.2.isNone) = some (field, none)) :
    resolve (o.toOverrides.or p.toOverrides) = .error (.missingSetting field) := by
  apply resolve_of_missing
  rw [Overrides.missing?, Options.required_or, h]
  rfl

theorem Settings.resolve_or_of_check {o : Options} {p : Profile} {s : Settings} {failure : Failure}
    (hlayers : s.Layers o p) (hcheck : s.check = .error failure) :
    resolve (o.toOverrides.or p.toOverrides) = .error failure := by
  obtain ⟨hmissing, rfl⟩ := layers_iff_filled.mp hlayers
  rw [resolve_of_filled hmissing, hcheck]
  rfl

theorem Settings.exists_layers {o : Options} {p : Profile}
    (h : ∀ setting ∈ o.requiredOver p, setting.2 ≠ none) : ∃ s : Settings, s.Layers o p :=
  ⟨_, layers_iff_filled.mpr ⟨Overrides.missing?_eq_none.mpr h, rfl⟩⟩

namespace Profile

variable {env : Environment} {fs : FileSystem} {path text : String}

theorem load_of_unreadable {cause : IoError}
    (h : fs.readText (Bytes.ofString path) = .error cause) :
    load env fs (Bytes.ofString path) = .error (.fileAccess "config" path cause) := by
  rw [load, h, Bytes.lossyText_ofString]
  rfl

theorem load_of_rejected {fault : ProfileFault}
    (hread : fs.readText (Bytes.ofString path) = .ok text)
    (hparse : parse env.text? text = .error fault) :
    load env fs (Bytes.ofString path) = .error (.profile fault) := by
  simp only [load, hread, hparse]

theorem load_of_accepted {p : Profile} (hread : fs.readText (Bytes.ofString path) = .ok text)
    (hparse : parse env.text? text = .ok p) : load env fs (Bytes.ofString path) = .ok p := by
  simp only [load, hread, hparse]

end Profile

namespace Options

variable {env : Environment} {fs : FileSystem} {o : Options} {path : String}

theorem resolve_of_fault {failure : Failure} (hconfig : o.config = some path)
    (hload : Profile.load env fs (Bytes.ofString path) = .error failure) :
    o.resolve env fs = .error failure := by
  simp only [resolve, hconfig, hload]
  rfl

theorem resolve_of_profile {p : Profile} (hconfig : o.config = some path)
    (hload : Profile.load env fs (Bytes.ofString path) = .ok p) :
    o.resolve env fs = Settings.resolve (o.toOverrides.or p.toOverrides) := by
  simp only [resolve, hconfig, hload]
  rfl

end Options

/-- The command line comes first, then the profile that it names, then the defaults. Without a
    profile nothing is read. A profile that cannot be read or accepted is the failure, whatever the
    command line sets; over one that can, the first required setting that neither source sets is
    missing, or else the layered settings are checked, and nothing that they leave out. Nothing is
    written before the settings are there. -/
theorem resolve_layers (host : Host) (env : Environment) (fs : FileSystem) (o : Options) :
    (∀ failure, o.resolve env fs = .error failure → (Program.perform host env fs o).files = fs) ∧
      (∀ s, o.resolve env fs = .ok s →
        (Program.perform host env fs o).files = (run host.device s fs).files) ∧
      (o.config = none → o.resolve env fs = Settings.resolve o.toOverrides) ∧
      ∀ path, o.config = some path →
        (∀ failure, Profile.load env fs (Bytes.ofString path) = .error failure →
          o.resolve env fs = .error failure) ∧
        (∀ cause, fs.readText (Bytes.ofString path) = .error cause →
          o.resolve env fs = .error (.fileAccess "config" path cause)) ∧
        ∀ text, fs.readText (Bytes.ofString path) = .ok text →
          (∀ fault, Profile.parse env.text? text = .error fault →
            o.resolve env fs = .error (.profile fault)) ∧
          ∀ p, Profile.parse env.text? text = .ok p →
            (∀ field, (o.requiredOver p).find? (fun setting => setting.2.isNone) =
                some (field, none) →
              o.resolve env fs = .error (.missingSetting field)) ∧
            ((∀ setting ∈ o.requiredOver p, setting.2 ≠ none) → ∃ s : Settings, s.Layers o p) ∧
            (∀ s, o.resolve env fs = .ok s ↔ s.Layers o p ∧ s.Valid) ∧
            ∀ s : Settings, s.Layers o p → ∀ failure, s.check = .error failure →
              o.resolve env fs = .error failure := by
  refine ⟨?unresolved, ?resolved, ?alone, ?profile⟩
  case unresolved =>
    intro failure hresolve
    rw [Program.perform_files, Options.work_of_unresolved hresolve]
  case resolved =>
    intro s hresolve
    rw [Program.perform_files, Options.work_of_resolved hresolve]
  case alone =>
    intro hconfig
    simp only [Options.resolve, hconfig]
  case profile =>
    intro path hconfig
    refine ⟨fun failure => Options.resolve_of_fault hconfig, ?_, ?_⟩
    · intro cause hread
      exact Options.resolve_of_fault hconfig (Profile.load_of_unreadable hread)
    · intro text hread
      refine ⟨?_, ?_⟩
      · intro fault hparse
        exact Options.resolve_of_fault hconfig (Profile.load_of_rejected hread hparse)
      · intro p hparse
        have hload := Profile.load_of_accepted hread hparse
        rw [Options.resolve_of_profile hconfig hload]
        exact ⟨fun field => Settings.resolve_or_of_missing, Settings.exists_layers,
          fun s => Settings.resolve_or_eq_ok,
          fun s hlayers failure => Settings.resolve_or_of_check hlayers⟩

/-- A profile that allows no lines, under a command line that allows some and under one that does not
    say; a command line that lacks its output; and one that lacks nothing but names a profile that
    is not there. -/
theorem resolve_layers_over_invalid :
    let profile : Profile := { output := { maxLines := some 0 } }
    let text := "[output]\nmax_lines = 0"
    let fs : FileSystem := ⟨[([Bytes.ofString "p"], .file (Bytes.ofString text))], []⟩
    let complete (config : String) : Options := {
      firstnames := some "a", lastnames := some "b", output := some "c",
      format := some "\x7bfirstname\x7d", config := some config, maxLines := some 3, monitor := true }
    let layered : Settings := ⟨"a", "b", "c", "\x7bfirstname\x7d", some 3, {}, true⟩
    let noLines : Failure := .invalidValue "max_lines" "0" "Value must be at least 1"
    Profile.parse (Environment.text? ⟨[]⟩) text = .ok profile ∧
      (layered.Layers (complete "p") profile ∧ layered.Valid) ∧
      (complete "p").resolve ⟨[]⟩ fs = .ok layered ∧
      ({ complete "p" with maxLines := none }).resolve ⟨[]⟩ fs = .error noLines ∧
      ({ complete "p" with output := none }).resolve ⟨[]⟩ fs = .error (.missingSetting "output") ∧
      (complete "q").resolve ⟨[]⟩ fs = .error (.fileAccess "config" "q" .notFound) ∧
      (Program.perform {} ⟨[]⟩ fs (complete "q")).files = fs := by
  intro profile text fs complete layered noLines
  have hread : fs.readText (Bytes.ofString "p") = .ok text := by decide +kernel
  have hunread : fs.readText (Bytes.ofString "q") = .error .notFound := by decide +kernel
  have hparse : Profile.parse (Environment.text? ⟨[]⟩) text = .ok profile := by cbv
  have hlayers : layered.Layers (complete "p") profile :=
    ⟨rfl, rfl, rfl, rfl, rfl, rfl, rfl, rfl, rfl⟩
  have hvalid : layered.Valid := Settings.check_eq_ok.mp (by decide)
  have hnone : ({ layered with maxLines := some 0 }).check = .error noLines := by decide
  obtain ⟨-, -, -, hgiven⟩ := resolve_layers {} ⟨[]⟩ fs (complete "p")
  obtain ⟨-, -, -, hsilent⟩ := resolve_layers {} ⟨[]⟩ fs { complete "p" with maxLines := none }
  obtain ⟨-, -, -, hlack⟩ := resolve_layers {} ⟨[]⟩ fs { complete "p" with output := none }
  obtain ⟨hfiles, -, -, hmissing⟩ := resolve_layers {} ⟨[]⟩ fs (complete "q")
  obtain ⟨-, -, hlayered, -⟩ := ((hgiven "p" rfl).2.2 text hread).2 profile hparse
  obtain ⟨-, -, -, hchecked⟩ := ((hsilent "p" rfl).2.2 text hread).2 profile hparse
  obtain ⟨hlacking, -⟩ := ((hlack "p" rfl).2.2 text hread).2 profile hparse
  have habsent := (hmissing "q" rfl).2.1 _ hunread
  exact ⟨hparse, ⟨hlayers, hvalid⟩, (hlayered layered).mpr ⟨hlayers, hvalid⟩,
    hchecked { layered with maxLines := some 0 } ⟨rfl, rfl, rfl, rfl, rfl, rfl, rfl, rfl, rfl⟩ _
      hnone,
    hlacking "output" rfl, habsent, hfiles _ habsent⟩

end LoginNames
