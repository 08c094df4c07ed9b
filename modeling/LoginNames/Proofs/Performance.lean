import LoginNames.Program
import LoginNames.Proofs.Observers
import Mathlib

/-! # What a command line comes to

A command line that is accepted does its work, which is to resolve its settings and to run with
them, and then tells how the work ended: in the exit code, on the standard output and on the
console. -/

set_option autoImplicit false

namespace LoginNames

namespace ConsoleLine

/-- What the console shows, each line ended by a newline. -/
def printed (lines : List ConsoleLine) : String :=
  String.join (lines.map fun line => line.render ++ "\n")

theorem printed_append (lines others : List ConsoleLine) :
    printed (lines ++ others) = printed lines ++ printed others := by
  rw [← String.toList_inj]
  simp [printed, String.toList_join]

theorem split_newline (text : List Char) : split ('\n' :: text) = [] :: split text := rfl

theorem split_cons {c : Char} {text line : List Char} {rest : List (List Char)} (hc : c ≠ '\n')
    (h : split text = line :: rest) : split (c :: text) = (c :: line) :: rest := by
  unfold split at h ⊢
  rw [List.foldr_cons, if_neg hc, h]

theorem exists_split (text : List Char) : ∃ line rest, split text = line :: rest := by
  induction text with
  | nil => exact ⟨[], [], rfl⟩
  | cons c text ih =>
    by_cases hc : c = '\n'
    · subst hc
      exact ⟨_, _, split_newline text⟩
    · obtain ⟨line, rest, hsplit⟩ := ih
      exact ⟨_, _, split_cons hc hsplit⟩

/-- Ending every line of a text by a newline gives the text back, with a newline at its end. -/
theorem split_flatMap (text : List Char) :
    (split text).flatMap (· ++ ['\n']) = text ++ ['\n'] := by
  induction text with
  | nil => rfl
  | cons c text ih =>
    by_cases hc : c = '\n'
    · subst hc
      rw [split_newline, List.flatMap_cons, ih]
      rfl
    · obtain ⟨line, rest, hsplit⟩ := exists_split text
      rw [hsplit, List.flatMap_cons] at ih
      rw [split_cons hc hsplit, List.flatMap_cons, List.cons_append, List.cons_append, ih]
      rfl

theorem printed_message (json : Bool) (message : String) :
    printed (ofItem json (.message message)) = message ++ "\n" := by
  rw [← String.toList_inj]
  simpa [printed, ofItem, render, String.toList_join, List.flatMap_map] using
    split_flatMap message.toList

end ConsoleLine

/-- The work of a command line: the settings and the report, or what stopped it, and the files that
    it leaves. -/
def Options.work (device : Sink) (env : Environment) (fs : FileSystem) (o : Options) :
    Except Failure (Settings × Report) × FileSystem :=
  match o.resolve env fs with
  | .error failure => (.error failure, fs)
  | .ok s => ((run device s fs).result.map fun report => (s, report), (run device s fs).files)

section Work

variable {device : Sink} {env : Environment} {fs : FileSystem} {o : Options} {s : Settings}

theorem Options.work_of_unresolved {failure : Failure} (h : o.resolve env fs = .error failure) :
    o.work device env fs = (.error failure, fs) := by
  rw [work, h]

theorem Options.work_of_resolved (h : o.resolve env fs = .ok s) :
    o.work device env fs =
      ((run device s fs).result.map fun report => (s, report), (run device s fs).files) := by
  rw [work, h]

/-- Work that is done has filled the file that its settings name. -/
theorem Options.written_of_work {report : Report}
    (h : (o.work device env fs).1 = .ok (s, report)) :
    ∃ firsts lasts location, fs.HoldsNames s.loading s.firstnames firsts ∧
      fs.HoldsNames s.loading s.lastnames lasts ∧
      report = (Template.ofString s.format).report firsts lasts ∧
      fs.Written (Bytes.ofString s.output) location
        (device.accepted.toList ++ (Template.ofString s.format).output firsts lasts)
        (o.work device env fs).2 := by
  cases hresolve : o.resolve env fs with
  | error failure =>
    rw [work_of_unresolved hresolve] at h
    cases h
  | ok resolved =>
    rw [work_of_resolved hresolve] at h ⊢
    cases hrun : (run device resolved fs).result with
    | error failure =>
      simp only [hrun, Except.map] at h
      cases h
    | ok returned =>
      simp only [hrun, Except.map] at h
      cases h
      exact written_of_run_eq_ok hrun

end Work

namespace Program

/-- What is made of work that has come to its end, behind a log of the way there. -/
def Performance.ofWork (log : Log) (summary : Failure → String) :
    Except Failure (Settings × Report) × FileSystem → Performance
  | (.ok (s, report), files) =>
    ⟨0, successText s report ++ "\n", log.map .entry ++ [info (successText s report)], files⟩
  | (.error failure, files) =>
    ⟨failure.exitCode, "", log.map .entry ++ failureItems (summary failure) failure, files⟩

theorem Performance.ofWork_files (log : Log) (summary : Failure → String)
    (work : Except Failure (Settings × Report) × FileSystem) :
    (ofWork log summary work).files = work.2 := by
  obtain ⟨failure | done, files⟩ := work <;> rfl

theorem exists_settingsItems_eq (s : Settings) : ∃ log : Log, settingsItems s = log.map .entry := by
  unfold settingsItems
  cases s.monitoring with
  | false => exact ⟨[⟨.info, _⟩, ⟨.info, _⟩, ⟨.info, _⟩, ⟨.info, _⟩], rfl⟩
  | true => exact ⟨[⟨.info, _⟩, ⟨.info, _⟩, ⟨.info, _⟩, ⟨.info, _⟩, ⟨.info, _⟩], rfl⟩

/-- A performance is its work, and tells nothing but its log before that has come to its end. -/
theorem exists_perform_eq (host : Host) (env : Environment) (fs : FileSystem) (o : Options) :
    ∃ log summary,
      perform host env fs o = .ofWork log summary (o.work host.device env fs) := by
  have hopening : ∃ log : Log,
      (if o.verbose then [ConsoleItem.entry ⟨.debug, "CLI config: " ++ o.describe⟩] else []) ++
        o.resolveLog.map .entry = log.map .entry := by
    cases o.verbose with
    | false => exact ⟨_, rfl⟩
    | true => exact ⟨⟨.debug, _⟩ :: o.resolveLog, rfl⟩
  obtain ⟨opening, hopening⟩ := hopening
  cases hresolve : o.resolve env fs with
  | error failure =>
    refine ⟨opening, configurationSummary, ?_⟩
    rw [Options.work_of_unresolved hresolve]
    simp only [perform, hresolve, hopening]
    rfl
  | ok s =>
    obtain ⟨settings, hsettings⟩ := exists_settingsItems_eq s
    refine ⟨opening ++ settings ++ (Observer.ofMonitor ⟨s.monitoring⟩).log
      (LoginNames.run host.device s fs).notices, generationSummary, ?_⟩
    rw [Options.work_of_resolved hresolve]
    simp only [perform, hresolve, hopening, hsettings, Engine.run_eq, Engine.withMonitoring,
      ← List.map_append]
    cases (LoginNames.run host.device s fs).result with
    | error failure => rfl
    | ok report => rfl

theorem perform_files (host : Host) (env : Environment) (fs : FileSystem) (o : Options) :
    (perform host env fs o).files = (o.work host.device env fs).2 := by
  obtain ⟨log, summary, hperform⟩ := exists_perform_eq host env fs o
  rw [hperform, Performance.ofWork_files]

end Program

end LoginNames
