import LoginNames.Proofs.CommandLine.Flags
import LoginNames.Proofs.ExitStatus
import LoginNames.Proofs.Settings

/-! # Flags for diagnosis

Three flags are there to see more of what the program does, or to see it in another form. They
change what is told on the way and nothing of the work: the files, the exit code, the standard
output and the messages to the user are those of the same command line without the flag. -/

set_option autoImplicit false

namespace LoginNames

namespace ConsoleItem

def entry? : ConsoleItem → Option LogEntry
  | entry e => some e
  | message _ => none

def message? : ConsoleItem → Option String
  | entry _ => none
  | message text => some text

theorem filterMap_message?_entries (log : Log) : (log.map entry).filterMap message? = [] := by
  rw [List.filterMap_map]
  exact List.filterMap_eq_nil_iff.mpr fun _ _ => rfl

/-- No filter holds a message back. -/
theorem filterMap_message?_shown (filter : LogFilter) (items : List ConsoleItem) :
    (items.filter (isShown filter)).filterMap message? = items.filterMap message? := by
  rw [List.filterMap_filter]
  apply List.filterMap_congr
  rintro (e | text) -
  · simp [message?]
  · rfl

/-- What is shown from the debug level on is, without its debug entries, what is shown from the
    info level on. -/
theorem filter_debug_shown (items : List ConsoleItem) :
    ((items.filter (isShown (.atLeast Level.debug.rank))).filterMap entry?).filter
        (·.level ≠ .debug) =
      (items.filter (isShown (.atLeast Level.info.rank))).filterMap entry? := by
  induction items with
  | nil => rfl
  | cons item items ih =>
    cases item with
    | message text => exact ih
    | entry e =>
      obtain ⟨level, message⟩ := e
      cases level with
      | debug => exact ih
      | info | warn | error => exact congrArg (List.cons _) ih

end ConsoleItem

namespace Settings

theorem resolve_monitoring (o : Overrides) :
    resolve { o with monitoring := some true } =
      (resolve o).map fun s => { s with monitoring := true } := by
  have hmissing : ({ o with monitoring := some true } : Overrides).missing? = o.missing? := rfl
  have hfilled : ({ o with monitoring := some true } : Overrides).filled =
      { o.filled with monitoring := true } := rfl
  have hcheck : ({ o.filled with monitoring := true } : Settings).check = o.filled.check := rfl
  rw [resolve_eq, resolve_eq, hmissing, hfilled, hcheck]
  cases o.missing? with
  | some field => rfl
  | none => cases o.filled.check <;> rfl

end Settings

/-- The flags that are only there to see more. -/
def FlagSwitch.diagnostic : List FlagSwitch := [verbose, jsonLogs, monitor]

theorem FlagSwitch.letter?_of_diagnostic {flag : FlagSwitch} (h : flag ∈ diagnostic) :
    (Switch.flag flag).letter? = none := by
  revert h
  cases flag <;> decide

namespace Options

variable {flag : FlagSwitch} (device : Sink) (env : Environment) (fs : FileSystem) (o : Options)

/-- Of the settings a diagnostic flag can change whether the process is monitored. -/
theorem resolve_assign (h : flag ∈ FlagSwitch.diagnostic) :
    ∃ monitored : Settings → Bool, (flag.assign true o).resolve env fs =
      (o.resolve env fs).map fun s => { s with monitoring := monitored s } := by
  have hsame : (o.resolve env fs).map (fun s => { s with monitoring := s.monitoring }) =
      o.resolve env fs := by cases o.resolve env fs <;> rfl
  simp only [FlagSwitch.diagnostic, List.mem_cons, List.not_mem_nil, or_false] at h
  obtain rfl | rfl | rfl := h
  · exact ⟨Settings.monitoring, hsame.symm⟩
  · exact ⟨Settings.monitoring, hsame.symm⟩
  · refine ⟨fun _ => true, ?_⟩
    unfold resolve
    simp only [FlagSwitch.assign]
    cases o.config with
    | none => exact Settings.resolve_monitoring o.toOverrides
    | some path =>
      simp only [bind, Except.bind]
      cases Profile.load env fs (Bytes.ofString path) with
      | error failure => rfl
      | ok profile => exact Settings.resolve_monitoring (o.toOverrides.or profile.toOverrides)

theorem work_assign (h : flag ∈ FlagSwitch.diagnostic) :
    ∃ monitored : Settings → Bool, (flag.assign true o).work device env fs =
      ((o.work device env fs).1.map fun (s, report) =>
          ({ s with monitoring := monitored s }, report),
        (o.work device env fs).2) := by
  obtain ⟨monitored, hresolve⟩ := resolve_assign env fs o h
  refine ⟨monitored, ?_⟩
  unfold work
  rw [hresolve]
  cases o.resolve env fs with
  | error failure => rfl
  | ok s =>
    -- Only the engine's observer looks at whether the process is monitored.
    have hrun : run device { s with monitoring := monitored s } fs = run device s fs := rfl
    simp only [Except.map, hrun]
    cases (run device s fs).result <;> rfl

end Options

namespace Program

/-- The options of a command line that does its work and does not only answer. -/
def working? (arguments : List Bytes) : Option Options :=
  match arguments, CommandLine.parse arguments with
  | _ :: _, .ok o => if o.showVersion then none else some o
  | _, _ => none

/-- The items that the console shows of a run, before they are put into lines. -/
def shown (host : Host) (arguments : List Bytes) (env : Environment) (fs : FileSystem) :
    List ConsoleItem :=
  match working? arguments with
  | none => []
  | some o =>
    (perform host env fs o).items.filter
      (ConsoleItem.isShown (LogFilter.choose host.readFilter env o.verbose))

/-- Whether log entries are put into lines of JSON. -/
def showsJson (arguments : List Bytes) : Bool := (working? arguments).any Options.jsonLogs

theorem run_stderr (host : Host) (arguments : List Bytes) (env : Environment) (fs : FileSystem) :
    (run host arguments env fs).stderr =
      (shown host arguments env fs).flatMap (ConsoleLine.ofItem (showsJson arguments)) := by
  unfold run shown showsJson working?
  cases arguments with
  | nil => rfl
  | cons first rest =>
    cases CommandLine.parse (first :: rest) with
    | error interruption => cases interruption <;> rfl
    | ok o => cases hversion : o.showVersion <;> simp [hversion]

/-- The only messages to the user are those about the failure of the work. -/
theorem Performance.ofWork_messages (log : Log) (summary : Failure → String)
    (work : Except Failure (Settings × Report) × FileSystem) :
    (ofWork log summary work).items.filterMap ConsoleItem.message? =
      match work.1 with
      | .ok _ => []
      | .error failure => ["❌ " ++ failure.friendly, "💡 " ++ failure.suggestion] := by
  obtain ⟨failure | done, files⟩ := work
  · simp only [ofWork, List.filterMap_append, ConsoleItem.filterMap_message?_entries]
    rfl
  · simp only [ofWork, List.filterMap_append, ConsoleItem.filterMap_message?_entries]
    rfl

variable (host : Host) (env : Environment) (fs : FileSystem) (o : Options)

/-- What a command line comes to but for what it tells on the way. -/
theorem perform_assign {flag : FlagSwitch} (h : flag ∈ FlagSwitch.diagnostic) :
    let flagged := perform host env fs (flag.assign true o)
    let plain := perform host env fs o
    flagged.files = plain.files ∧ flagged.exitCode = plain.exitCode ∧ flagged.text = plain.text ∧
      flagged.items.filterMap ConsoleItem.message? =
        plain.items.filterMap ConsoleItem.message? := by
  obtain ⟨monitored, hwork⟩ := Options.work_assign host.device env fs o h
  obtain ⟨log, summary, hplain⟩ := exists_perform_eq host env fs o
  obtain ⟨log', summary', hflagged⟩ := exists_perform_eq host env fs (flag.assign true o)
  rw [hwork] at hflagged
  dsimp only
  rw [hplain, hflagged, Performance.ofWork_messages, Performance.ofWork_messages]
  -- The end of a performance shows the settings by the output's path alone.
  obtain ⟨failure | ⟨s, report⟩, files⟩ := o.work host.device env fs
  · exact ⟨rfl, rfl, rfl, rfl⟩
  · exact ⟨rfl, rfl, rfl, rfl⟩

theorem perform_verbose (h : o.verbose = false) :
    (perform host env fs (FlagSwitch.verbose.assign true o)).items =
      .entry ⟨.debug, "CLI config: " ++ (FlagSwitch.verbose.assign true o).describe⟩ ::
        (perform host env fs o).items := by
  have hresolve : (FlagSwitch.verbose.assign true o).resolve env fs = o.resolve env fs := rfl
  have hverbose : (FlagSwitch.verbose.assign true o).verbose = true := rfl
  have hlog : (FlagSwitch.verbose.assign true o).resolveLog = o.resolveLog := rfl
  unfold perform
  rw [hresolve, hverbose, hlog, h]
  cases o.resolve env fs with
  | error failure => rfl
  | ok s =>
    simp only
    cases ((Engine.withMonitoring s s.monitoring).run host.device fs).result <;> rfl

section Flagged

variable {flag : FlagSwitch} {arguments : List Bytes} {o : Options}

theorem working?_of_options (hne : arguments ≠ []) (hparse : CommandLine.parse arguments = .ok o)
    (hversion : o.showVersion = false) : working? arguments = some o := by
  obtain ⟨first, rest, rfl⟩ := List.exists_cons_of_ne_nil hne
  simp [working?, hparse, hversion]

/-- Both command lines only answer, and give the same answer; or both do their work, with options
    that differ in the flag alone. -/
theorem run_argument_cons (h : flag ∈ FlagSwitch.diagnostic) (hne : arguments ≠ [])
    (hflag : flag.argument ∉ arguments) :
    (working? arguments = none ∧ working? (flag.argument :: arguments) = none ∧
        run host (flag.argument :: arguments) env fs = run host arguments env fs) ∨
      ∃ o, CommandLine.parse arguments = .ok o ∧ o.showVersion = false ∧
        CommandLine.parse (flag.argument :: arguments) = .ok (flag.assign true o) ∧
        (flag.assign true o).showVersion = false := by
  have hversion (o : Options) : (flag.assign true o).showVersion = o.showVersion := by
    revert h
    cases flag <;> first | exact fun _ => rfl | exact fun h => absurd h (by decide)
  have hparse := CommandLine.parse_argument_cons (FlagSwitch.letter?_of_diagnostic h) hflag
  obtain ⟨first, rest, rfl⟩ := List.exists_cons_of_ne_nil hne
  cases hplain : CommandLine.parse (first :: rest) with
  | error interruption =>
    rw [hplain, Except.map] at hparse
    left
    simp only [working?, run, hparse, hplain, true_and]
  | ok o =>
    rw [hplain, Except.map] at hparse
    cases hshow : o.showVersion with
    | true =>
      left
      simp [working?, run, hparse, hplain, hversion, hshow]
    | false => exact .inr ⟨o, rfl, hshow, hparse, (hversion o).trans hshow⟩

end Flagged

end Program

/-- A diagnostic flag before arguments that do not give it changes neither the files nor the exit
    code nor the standard output, and none of the messages to the user. With nothing else to choose
    the level, a log that is asked to be verbose is the same log with debug entries in it. -/
theorem run_beside_diagnostics {flag : FlagSwitch} (h : flag ∈ FlagSwitch.diagnostic)
    {arguments : List Bytes} (hne : arguments ≠ []) (hflag : flag.argument ∉ arguments)
    (host : Host) (env : Environment) (fs : FileSystem) :
    let plain := Program.run host arguments env fs
    let flagged := Program.run host (flag.argument :: arguments) env fs
    let shown (arguments : List Bytes) := Program.shown host arguments env fs
    (flagged.files = plain.files ∧ flagged.exitCode = plain.exitCode ∧
        flagged.stdout = plain.stdout) ∧
      (∀ arguments, (Program.run host arguments env fs).stderr =
        (shown arguments).flatMap (ConsoleLine.ofItem (Program.showsJson arguments))) ∧
      (shown (flag.argument :: arguments)).filterMap ConsoleItem.message? =
        (shown arguments).filterMap ConsoleItem.message? ∧
      (flag = .verbose → env.text? LogFilter.variableName = none →
        ((shown (flag.argument :: arguments)).filterMap ConsoleItem.entry?).filter
            (·.level ≠ .debug) =
          (shown arguments).filterMap ConsoleItem.entry?) := by
  intro plain flagged shown
  obtain ⟨hplain, hflagged, hrun⟩ | ⟨o, hparse, hversion, hparse', hversion'⟩ :=
    Program.run_argument_cons host env fs h hne hflag
  · have hnone : shown (flag.argument :: arguments) = shown arguments := by
      simp only [shown, Program.shown, hplain, hflagged]
    have hempty : shown arguments = [] := by simp only [shown, Program.shown, hplain]
    refine ⟨by simp only [flagged, plain, hrun, and_self],
      fun arguments => Program.run_stderr host arguments env fs, by rw [hnone], fun _ _ => ?_⟩
    rw [hnone, hempty]
    rfl
  · have hcons : flag.argument :: arguments ≠ [] := List.cons_ne_nil _ _
    have hplain := Program.working?_of_options hne hparse hversion
    have hflagged := Program.working?_of_options hcons hparse' hversion'
    obtain ⟨hfiles, hcode, htext, hmessages⟩ := Program.perform_assign host env fs o h
    refine ⟨?_, fun arguments => Program.run_stderr host arguments env fs, ?_, ?_⟩
    · simp only [flagged, plain, Program.run_of_options hne hparse hversion,
        Program.run_of_options hcons hparse' hversion', hfiles, hcode, htext, and_self]
    · simp only [shown, Program.shown, hplain, hflagged, ConsoleItem.filterMap_message?_shown,
        hmessages]
    · rintro rfl hunset
      have hquiet : o.verbose = false := by
        have hclear := CommandLine.parse_eq_unset (FlagSwitch.letter?_of_diagnostic h) hflag
        rw [hparse, Except.map, Except.ok.injEq] at hclear
        rw [hclear]
        rfl
      have hverbose : (FlagSwitch.verbose.assign true o).verbose = true := rfl
      have hlevel (verbose : Bool) : LogFilter.choose host.readFilter env verbose =
          .atLeast (if verbose then Level.debug.rank else Level.info.rank) := by
        rw [LogFilter.choose, hunset]
        rfl
      simp only [shown, Program.shown, hplain, hflagged, hlevel, hverbose, hquiet, if_true,
        Program.perform_verbose host env fs o hquiet]
      exact ConsoleItem.filter_debug_shown (.entry _ :: (Program.perform host env fs o).items)

/-- A run that writes its lines, with its log in lines of JSON; one that a device stops, monitored;
    one for which the lastnames are not there, with a verbose log; and a monitored run that shows
    figures at its end, with a verbose log. -/
theorem run_beside_diagnostics_of_runs :
    let fs : FileSystem := ⟨[([Bytes.ofString "a"], .file (Bytes.ofString "x\ny")),
      ([Bytes.ofString "b"], .file (Bytes.ofString "z\n"))], []⟩
    let arguments (lastnames : String) : List Bytes :=
      ["-Fa", "-L" ++ lastnames, "-oc", "-f\x7blastname\x7d"].map Bytes.ofString
    let monitored := Bytes.ofString "--monitor" :: arguments "b"
    let fullDevice : Host := { device := { limit := some 1, full := some (.system 28) } }
    let run (host : Host) (arguments : List Bytes) := Program.run host arguments ⟨[]⟩ fs
    let log (arguments : List Bytes) :=
      (Program.shown {} arguments ⟨[]⟩ fs).filterMap ConsoleItem.entry?
    (run {} (Bytes.ofString "--json-logs" :: arguments "b")).files =
        (run {} (arguments "b")).files ∧
      (run fullDevice monitored).exitCode = (run fullDevice (arguments "b")).exitCode ∧
      (run {} (Bytes.ofString "--verbose" :: arguments "q")).stdout =
        (run {} (arguments "q")).stdout ∧
      (log (Bytes.ofString "--verbose" :: monitored)).filter (·.level ≠ .debug) = log monitored ∧
      (log monitored).reverse[1]? = some ⟨.info, "📊 Final Stats"⟩ ∧
      (log (arguments "b")).reverse[1]? = some ⟨.info, "[+] - Generating file took"⟩ := by
  intro fs arguments monitored fullDevice run log
  have hunset : Environment.text? ⟨[]⟩ LogFilter.variableName = none := by decide
  obtain ⟨⟨hfiles, -⟩, -⟩ := run_beside_diagnostics (by decide : .jsonLogs ∈ FlagSwitch.diagnostic)
    (by decide : arguments "b" ≠ []) (by decide) {} ⟨[]⟩ fs
  obtain ⟨⟨-, hcode, -⟩, -⟩ := run_beside_diagnostics
    (by decide : .monitor ∈ FlagSwitch.diagnostic) (by decide : arguments "b" ≠ []) (by decide)
    fullDevice ⟨[]⟩ fs
  obtain ⟨⟨-, -, hstdout⟩, -⟩ := run_beside_diagnostics
    (by decide : .verbose ∈ FlagSwitch.diagnostic) (by decide : arguments "q" ≠ []) (by decide)
    {} ⟨[]⟩ fs
  obtain ⟨-, -, -, hlog⟩ := run_beside_diagnostics
    (by decide : .verbose ∈ FlagSwitch.diagnostic) (by decide : monitored ≠ []) (by decide)
    {} ⟨[]⟩ fs
  have hfigures : (log monitored).reverse[1]? = some ⟨.info, "📊 Final Stats"⟩ := by
    dsimp only [log, monitored, arguments, fs]
    cbv
  have hplain : (log (arguments "b")).reverse[1]? =
      some ⟨.info, "[+] - Generating file took"⟩ := by
    dsimp only [log, arguments, fs]
    cbv
  exact ⟨hfiles, hcode, hstdout, hlog rfl hunset, hfigures, hplain⟩

end LoginNames
