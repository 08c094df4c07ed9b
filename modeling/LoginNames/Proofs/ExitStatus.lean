import LoginNames.Proofs.Performance

/-! # The exit status of the program

The program ends with 0 for a script exactly when it did all that it was asked for. Every other way
to end has an exit code of its own, and says on the console what stopped it. -/

set_option autoImplicit false

namespace LoginNames

namespace Failure

theorem exitCode_of_category (e : Failure) :
    (e.category = .configuration → e.exitCode = 1) ∧ (e.category = .input → e.exitCode = 2) ∧
      (e.category = .io ∨ e.category = .resource → e.exitCode = 3) := by
  unfold exitCode severity
  cases e.category <;> decide

theorem exitCode_ne_zero (e : Failure) : e.exitCode ≠ 0 := by
  unfold exitCode severity
  cases e.category <;> decide

end Failure

namespace Program

/-- Messages to the user are shown whatever the level, so that what is told of a failure ends with
    its message and the advice. -/
theorem failure_printed (filter : LogFilter) (json : Bool) (told : List ConsoleItem)
    (summary : String) (failure : Failure) :
    ∃ before, ConsoleLine.printed
        (((told ++ failureItems summary failure).filter (ConsoleItem.isShown filter)).flatMap
          (ConsoleLine.ofItem json)) =
      before ++ ("❌ " ++ failure.friendly ++ "\n" ++ ("💡 " ++ failure.suggestion ++ "\n")) := by
  have hshown : ∀ message advice : String,
      [ConsoleItem.message message, .message advice].filter (ConsoleItem.isShown filter) =
        [.message message, .message advice] := fun _ _ => rfl
  rw [failureItems, List.append_cons, List.filter_append, hshown, List.flatMap_append,
    ConsoleLine.printed_append, List.flatMap_cons, ConsoleLine.printed_append,
    List.flatMap_singleton, ConsoleLine.printed_message, ConsoleLine.printed_message]
  exact ⟨_, rfl⟩

variable {host : Host} {arguments : List Bytes} {env : Environment} {fs : FileSystem} {o : Options}

theorem run_of_fault {fault : UsageFault} (hne : arguments ≠ [])
    (hparse : CommandLine.parse arguments = .error (.fault fault)) :
    run host arguments env fs = ⟨2, "", [], fs⟩ := by
  obtain ⟨first, rest, rfl⟩ := List.exists_cons_of_ne_nil hne
  rw [run, hparse]

theorem run_of_help {long : Bool} (hne : arguments ≠ [])
    (hparse : CommandLine.parse arguments = .error (.help long)) :
    run host arguments env fs = ⟨0, CommandLine.help long, [], fs⟩ := by
  obtain ⟨first, rest, rfl⟩ := List.exists_cons_of_ne_nil hne
  rw [run, hparse]

theorem run_of_version (hne : arguments ≠ []) (hparse : CommandLine.parse arguments = .ok o)
    (hversion : o.showVersion = true) :
    run host arguments env fs = ⟨0, "Version " ++ version ++ "\n", [], fs⟩ := by
  obtain ⟨first, rest, rfl⟩ := List.exists_cons_of_ne_nil hne
  rw [run, hparse]
  exact if_pos hversion

theorem run_of_options (hne : arguments ≠ []) (hparse : CommandLine.parse arguments = .ok o)
    (hversion : o.showVersion = false) :
    run host arguments env fs =
      ⟨(perform host env fs o).exitCode, banner ++ (perform host env fs o).text,
        ((perform host env fs o).items.filter
          (ConsoleItem.isShown (LogFilter.choose host.readFilter env o.verbose))).flatMap
            (ConsoleLine.ofItem o.jsonLogs),
        (perform host env fs o).files⟩ := by
  obtain ⟨first, rest, rfl⟩ := List.exists_cons_of_ne_nil hne
  rw [run, hparse]
  exact if_neg (by simp [hversion])

/-- A performance ends with 0 exactly when its work succeeds. -/
theorem perform_exitCode :
    (perform host env fs o).exitCode = 0 ↔
      ∃ s report, (o.work host.device env fs).1 = .ok (s, report) := by
  obtain ⟨log, summary, hperform⟩ := exists_perform_eq host env fs o
  rw [hperform]
  obtain ⟨failure | ⟨s, report⟩, files⟩ := o.work host.device env fs
  · simp [Performance.ofWork, failure.exitCode_ne_zero]
  · simp [Performance.ofWork]

theorem banner_no_report : ¬ "Wrote".toList <:+: banner.toList := by
  have hletter : 'W' ∉ banner.toList := by
    -- Line by line: the letters of the joined text take long to compute.
    delta banner version
    simp only [String.toList_append]
    decide +kernel
  intro hreport
  exact hletter (hreport.subset (by decide))

end Program

/-- How a program ends. It writes nothing where it only answers, and does what its options ask for
    otherwise; its exit code is 0 exactly when that succeeded, and then the output is complete, on
    whichever device. Success is reported on the standard output and nowhere else. A failure is
    named last of all on the console, with the exit code of its category. -/
theorem run_exit_status (host : Host) (arguments : List Bytes) (env : Environment)
    (fs : FileSystem) :
    let outcome := Program.run host arguments env fs
    (arguments = [] → outcome.exitCode = 1 ∧ outcome.files = fs) ∧
      (arguments ≠ [] →
        (∀ fault, CommandLine.parse arguments = .error (.fault fault) →
          outcome.exitCode = 2 ∧ outcome.files = fs) ∧
        (∀ long, CommandLine.parse arguments = .error (.help long) →
          outcome.exitCode = 0 ∧ outcome.files = fs) ∧
        ∀ o, CommandLine.parse arguments = .ok o →
          (o.showVersion = true → outcome.exitCode = 0 ∧ outcome.files = fs) ∧
          (o.showVersion = false →
            outcome.files = (o.work host.device env fs).2 ∧
            (outcome.exitCode = 0 ↔ ∃ s report, (o.work host.device env fs).1 = .ok (s, report)) ∧
            (∀ s report, (o.work host.device env fs).1 = .ok (s, report) →
              outcome.stdout = Program.banner ++
                ("✅ Wrote " ++ toString report.lines ++ " lines to " ++ s.output ++ "\n") ∧
              ∃ firsts lasts location, fs.HoldsNames s.loading s.firstnames firsts ∧
                fs.HoldsNames s.loading s.lastnames lasts ∧
                report = (Template.ofString s.format).report firsts lasts ∧
                fs.Written (Bytes.ofString s.output) location
                  (host.device.accepted.toList ++ (Template.ofString s.format).output firsts lasts)
                  outcome.files) ∧
            ∀ failure, (o.work host.device env fs).1 = .error failure →
              ¬ "Wrote".toList <:+: outcome.stdout.toList ∧
              (∃ before, ConsoleLine.printed outcome.stderr = before ++
                ("❌ " ++ failure.friendly ++ "\n" ++ ("💡 " ++ failure.suggestion ++ "\n"))) ∧
              (failure.category = .configuration → outcome.exitCode = 1) ∧
              (failure.category = .input → outcome.exitCode = 2) ∧
              (failure.category = .io ∨ failure.category = .resource → outcome.exitCode = 3))) := by
  intro outcome
  refine ⟨?none, fun hne => ⟨?fault, ?help, ?options⟩⟩
  case none =>
    rintro rfl
    exact ⟨rfl, rfl⟩
  case fault =>
    intro fault hparse
    simp [outcome, Program.run_of_fault hne hparse]
  case help =>
    intro long hparse
    simp [outcome, Program.run_of_help hne hparse]
  case options =>
    intro o hparse
    refine ⟨?version, ?work⟩
    case version =>
      intro hversion
      simp [outcome, Program.run_of_version hne hparse hversion]
    case work =>
      intro hversion
      simp only [outcome, Program.run_of_options hne hparse hversion]
      have hfiles := Program.perform_files host env fs o
      obtain ⟨log, summary, hperform⟩ := Program.exists_perform_eq host env fs o
      refine ⟨hfiles, Program.perform_exitCode, ?success, ?failure⟩
      case success =>
        intro s report hwork
        refine ⟨?_, hfiles ▸ Options.written_of_work hwork⟩
        rw [hperform, ← Prod.eta (o.work host.device env fs), hwork]
        rfl
      case failure =>
        intro failure hwork
        rw [hperform, ← Prod.eta (o.work host.device env fs), hwork]
        simp only [Program.Performance.ofWork, String.append_empty]
        exact ⟨Program.banner_no_report, Program.failure_printed _ _ _ _ _,
          failure.exitCode_of_category⟩

/-- A run that writes its two lines; the same on a device that is full after one byte, and with a
    file of lastnames that is not there; a version that is asked for beside a profile that is not
    there; help; and a switch that does not exist. -/
theorem run_exit_status_of_ways :
    let fs : FileSystem := ⟨[([Bytes.ofString "a"], .file (Bytes.ofString "x\ny")),
      ([Bytes.ofString "b"], .file (Bytes.ofString "z\n"))], []⟩
    let written (content : String) := fs.set [Bytes.ofString "c"] (.file (Bytes.ofString content))
    let arguments (lastnames : String) : List Bytes :=
      ["-Fa", "-L" ++ lastnames, "-oc", "-f\x7blastname\x7d"].map Bytes.ofString
    let fullDevice : Sink := { limit := some 1, full := some (.system 28) }
    let run (arguments : List Bytes) := Program.run {} arguments ⟨[]⟩ fs
    let runFull (arguments : List Bytes) := Program.run { device := fullDevice } arguments ⟨[]⟩ fs
    ((run (arguments "b")).exitCode = 0 ∧ (run (arguments "b")).files = written "z\nz\n" ∧
        (run (arguments "b")).stdout =
          Program.banner ++ ("✅ Wrote " ++ toString 2 ++ " lines to " ++ "c" ++ "\n")) ∧
      ((runFull (arguments "b")).exitCode = 3 ∧ (runFull (arguments "b")).files = written "z" ∧
        ¬ "Wrote".toList <:+: (runFull (arguments "b")).stdout.toList) ∧
      ((run (arguments "q")).exitCode = 3 ∧ (run (arguments "q")).files = fs ∧
        ¬ "Wrote".toList <:+: (run (arguments "q")).stdout.toList) ∧
      (run (["-v", "-cq"].map Bytes.ofString)).exitCode = 0 ∧
      (run (["-h"].map Bytes.ofString)).exitCode = 0 ∧
      (run (["-x"].map Bytes.ofString)).exitCode = 2 ∧ (run []).exitCode = 1 := by
  intro fs written arguments fullDevice run runFull
  let options (lastnames : String) : Options := {
    firstnames := some "a", lastnames := some lastnames, output := some "c",
    format := some "\x7blastname\x7d" }
  have hdone : (options "b").work {} ⟨[]⟩ fs =
      (.ok (⟨"a", "b", "c", "\x7blastname\x7d", none, {}, false⟩, ⟨2, 1, 2, 4⟩),
        written "z\nz\n") := by cbv
  have hbroken : (options "b").work fullDevice ⟨[]⟩ fs =
      (.error (.io (.system 28)), written "z") := by cbv
  have hstopped : (options "q").work {} ⟨[]⟩ fs =
      (.error (.fileAccess "lastnames" "q" .notFound), fs) := by cbv
  obtain ⟨-, hwriting⟩ := run_exit_status {} (arguments "b") ⟨[]⟩ fs
  obtain ⟨hfiles, hcode, hreport, -⟩ :=
    ((hwriting (by decide)).2.2 (options "b") (by decide)).2 rfl
  rw [hdone] at hfiles hcode hreport
  obtain ⟨hstdout, -⟩ := hreport _ _ rfl
  obtain ⟨-, hfilling⟩ := run_exit_status { device := fullDevice } (arguments "b") ⟨[]⟩ fs
  obtain ⟨hstart, -, -, hfull⟩ := ((hfilling (by decide)).2.2 (options "b") (by decide)).2 rfl
  rw [hbroken] at hstart hfull
  obtain ⟨hsilent, -, -, -, hdevice⟩ := hfull _ rfl
  obtain ⟨-, hfailing⟩ := run_exit_status {} (arguments "q") ⟨[]⟩ fs
  obtain ⟨hkept, -, -, hfailure⟩ := ((hfailing (by decide)).2.2 (options "q") (by decide)).2 rfl
  rw [hstopped] at hkept hfailure
  obtain ⟨hquiet, -, -, -, hio⟩ := hfailure _ rfl
  obtain ⟨-, hversion⟩ := run_exit_status {} (["-v", "-cq"].map Bytes.ofString) ⟨[]⟩ fs
  obtain ⟨-, hhelp⟩ := run_exit_status {} (["-h"].map Bytes.ofString) ⟨[]⟩ fs
  obtain ⟨-, hfault⟩ := run_exit_status {} (["-x"].map Bytes.ofString) ⟨[]⟩ fs
  obtain ⟨hnone, -⟩ := run_exit_status {} [] ⟨[]⟩ fs
  exact ⟨⟨hcode.mpr ⟨_, _, rfl⟩, hfiles, hstdout⟩, ⟨hdevice (.inl rfl), hstart, hsilent⟩,
    ⟨hio (.inl rfl), hkept, hquiet⟩,
    (((hversion (by decide)).2.2 { config := some "q", showVersion := true } (by decide)).1 rfl).1,
    ((hhelp (by decide)).2.1 false (by decide)).1,
    ((hfault (by decide)).1 .unknownArgument (by decide)).1, (hnone rfl).1⟩

end LoginNames
