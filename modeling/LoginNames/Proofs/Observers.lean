import LoginNames.Engine
import LoginNames.Proofs.BadInput

/-! # What an observer is told

A run tells an observer that the lastnames are loaded, that the firstnames are, that the lines are
about to be written, and that they are written. The step at which it stops says how much of that it
has told. An observer hears each notice when the run comes to it, and whatever it does with it, the
run goes on as it would without it. -/

set_option autoImplicit false

namespace LoginNames

/-- What a run tells that comes to its end. -/
def Event.protocol (lasts firsts : NameList) (report : Report) : List Event :=
  [.namesLoaded .lastname lasts, .namesLoaded .firstname firsts,
    .generationStarted firsts.length lasts.length, .generationFinished report]

@[simp] theorem Event.protocol_length (lasts firsts : NameList) (report : Report) :
    (protocol lasts firsts report).length = 4 := rfl

namespace Observer

theorem events_append (observer : Observer) (notices more : List Notice) :
    observer.events (notices ++ more) = observer.events notices ++ observer.events more := by
  cases observer <;> simp [events]

theorem log_append (observer : Observer) (notices more : List Notice) :
    observer.log (notices ++ more) = observer.log notices ++ observer.log more :=
  List.flatMap_append

theorem recording_events_entries (log : Log) :
    recording.events (log.map .entry) = [] := by
  simp [events]

theorem forM_tell (observer : Observer) (notices : List Notice) (events : List Event) (log : Log) :
    (notices.forM observer.tell).run (events, log) =
      ((), events ++ observer.events notices, log ++ observer.log notices) := by
  induction notices generalizing events log with
  | nil => cases observer <;> simp [Observer.events, Observer.log] <;> rfl
  | cons notice notices ih =>
    rw [← List.singleton_append, events_append, log_append, ← List.append_assoc,
      ← List.append_assoc]
    exact ih _ _

end Observer

section Telling

variable {m : Type → Type} [Monad m] [LawfulMonad m]

theorem generateTelling_eq {σ : Type} [Writer σ] (tell : Notice → m Unit) (maxLines : Option Nat)
    (firsts lasts : NameList) (t : Template) (sink : σ) :
    generateTelling tell maxLines firsts lasts t sink =
      (do (generate maxLines firsts lasts t sink).notices.forM tell
          pure ((generate maxLines firsts lasts t sink).result,
            (generate maxLines firsts lasts t sink).sink)) := by
  unfold generateTelling
  cases hlimit : checkLimit maxLines firsts lasts with
  | error failure => simp [generate, hlimit]
  | ok =>
    rw [generate_eq_writeLines hlimit]
    cases (t.writeLines firsts lasts).run (⟨sink, 0⟩ : Counted σ) <;> simp

/-- To tell each notice at once comes to the same as to run first and tell them all afterwards. -/
theorem runTelling_eq (tell : Notice → m Unit) (device : Sink) (s : Settings) (fs : FileSystem) :
    runTelling tell device s fs =
      (do (run device s fs).notices.forM tell
          pure ((run device s fs).result, (run device s fs).files)) := by
  unfold runTelling run loadInputs
  cases hlast : (loadNames s.loading NameField.lastname.word s.lastnames fs).result with
  | error failure => simp [hlast, Loaded.notices]
  | ok lasts =>
    cases hfirst : (loadNames s.loading NameField.firstname.word s.firstnames fs).result with
    | error failure => simp [hlast, hfirst, Loaded.notices]
    | ok firsts =>
      cases hlimit : checkLimit s.maxLines firsts lasts with
      | error failure => simp [hlast, hfirst, hlimit, Loaded.notices]
      | ok =>
        unfold writeOutput
        cases hcreate : fs.createOutput (Bytes.ofString s.output) with
        | mk created result =>
          cases result with
          | error cause => simp [hlast, hfirst, hlimit, Loaded.notices]
          | ok location =>
            cases hgenerate : (generate s.maxLines firsts lasts (Template.ofString s.format)
                (⟨device, #[]⟩ : Buffered Sink)).result <;>
              simp [hlast, hfirst, hlimit, hgenerate, generateTelling_eq, Loaded.notices]

end Telling

/-- An observer keeps what the whole run tells, each in its way, and changes nothing of the run. -/
theorem runWithObserver_eq (observer : Observer) (device : Sink) (s : Settings)
    (fs : FileSystem) :
    runWithObserver observer device s fs =
      ⟨(run device s fs).result, (run device s fs).files,
        observer.events (run device s fs).notices, observer.log (run device s fs).notices⟩ := by
  unfold runWithObserver
  rw [runTelling_eq, StateT.run_bind, observer.forM_tell]
  rfl

/-- An engine's own observer keeps no events. -/
theorem Engine.run_eq (engine : Engine) (device : Sink) (fs : FileSystem) :
    engine.run device fs =
      let outcome := LoginNames.run device engine.settings fs
      ⟨outcome.result, outcome.files, [],
        (Observer.ofMonitor engine.monitor).log outcome.notices⟩ := by
  have hevents (notices : List Notice) :
      (Observer.ofMonitor engine.monitor).events notices = [] := by
    unfold Observer.ofMonitor
    split <;> rfl
  rw [Engine.run, runWithObserver_eq, hevents]

namespace Loaded

variable {loaded : Loaded} (field : NameField)

theorem events_of_ok {names : NameList} (h : loaded.result = .ok names) :
    Observer.recording.events (loaded.notices field) = [.namesLoaded field names] := by
  rw [notices, Observer.events_append, Observer.recording_events_entries, h]
  rfl

theorem events_of_error {failure : Failure} (h : loaded.result = .error failure) :
    Observer.recording.events (loaded.notices field) = [] := by
  rw [notices, Observer.events_append, Observer.recording_events_entries, h]
  rfl

end Loaded

theorem events_formatNotices (format : String) :
    Observer.recording.events (formatNotices format) = [] := by
  unfold formatNotices
  split <;> rfl

section Course

variable {device : Sink} {s : Settings} {fs : FileSystem}

/-- How far a run comes: the events that it tells, how it ends and the files that it leaves, by the
    step that stops it, if any does. -/
inductive Course (device : Sink) (s : Settings) (fs : FileSystem) :
    List Event → Except Failure Report → FileSystem → Prop
  | lastnames {failure : Failure}
      (h : fs.NamesFault s.loading NameField.lastname.word s.lastnames failure) :
      Course device s fs [] (.error failure) fs
  | firstnames {lasts : NameList} {failure : Failure}
      (hlasts : fs.HoldsNames s.loading s.lastnames lasts)
      (h : fs.NamesFault s.loading NameField.firstname.word s.firstnames failure) :
      Course device s fs [.namesLoaded .lastname lasts] (.error failure) fs
  | limit {lasts firsts : NameList} {failure : Failure}
      (hlasts : fs.HoldsNames s.loading s.lastnames lasts)
      (hfirsts : fs.HoldsNames s.loading s.firstnames firsts)
      (h : checkLimit s.maxLines firsts lasts = .error failure) :
      Course device s fs [.namesLoaded .lastname lasts, .namesLoaded .firstname firsts]
        (.error failure) fs
  | output {lasts firsts : NameList} {created : FileSystem} {cause : IoError}
      (hlasts : fs.HoldsNames s.loading s.lastnames lasts)
      (hfirsts : fs.HoldsNames s.loading s.firstnames firsts)
      (hlimit : checkLimit s.maxLines firsts lasts = .ok ())
      (h : fs.createOutput (Bytes.ofString s.output) = (created, .error cause)) :
      Course device s fs [.namesLoaded .lastname lasts, .namesLoaded .firstname firsts]
        (.error (.fileAccess outputRole s.output cause)) created
  | device {lasts firsts : NameList} {created : FileSystem} {location : Location}
      {cause : IoError} {left : Counted Sink} {failure : Failure}
      (hlasts : fs.HoldsNames s.loading s.lastnames lasts)
      (hfirsts : fs.HoldsNames s.loading s.firstnames firsts)
      (hlimit : checkLimit s.maxLines firsts lasts = .ok ())
      (hcreate : fs.createOutput (Bytes.ofString s.output) = (created, .ok location))
      (h : ((Template.ofString s.format).writeLines firsts lasts).run (⟨device, 0⟩ : Counted Sink) =
        .error cause left)
      (hfailure : (writeOutput device s ⟨firsts, lasts⟩ fs).result = .error failure) :
      Course device s fs [.namesLoaded .lastname lasts, .namesLoaded .firstname firsts,
          .generationStarted firsts.length lasts.length]
        (.error failure) (created.set location (.file left.inner.accepted.toList))
  | done {lasts firsts : NameList} {created : FileSystem} {location : Location} {lines : Nat}
      {left : Counted Sink} (hlasts : fs.HoldsNames s.loading s.lastnames lasts)
      (hfirsts : fs.HoldsNames s.loading s.firstnames firsts)
      (hlimit : checkLimit s.maxLines firsts lasts = .ok ())
      (hcreate : fs.createOutput (Bytes.ofString s.output) = (created, .ok location))
      (h : ((Template.ofString s.format).writeLines firsts lasts).run (⟨device, 0⟩ : Counted Sink) =
        .ok lines left) :
      Course device s fs
        (Event.protocol lasts firsts ⟨firsts.length, lasts.length, lines, left.bytes⟩)
        (.ok ⟨firsts.length, lasts.length, lines, left.bytes⟩)
        (created.set location (.file left.inner.accepted.toList))

/-! The loads tell of each list that they give; a generation tells that it starts, and that it is
done if it is. -/

theorem loadInputs_of_lastnames_fault {failure : Failure}
    (h : fs.NamesFault s.loading NameField.lastname.word s.lastnames failure) :
    (loadInputs s fs).1 = .error failure ∧
      Observer.recording.events (loadInputs s fs).2 = [] := by
  have hlast := loadNames_eq_error.mpr h
  simp only [loadInputs, hlast, true_and]
  exact Loaded.events_of_error _ hlast

theorem loadInputs_of_firstnames_fault {lasts : NameList} {failure : Failure}
    (hlasts : fs.HoldsNames s.loading s.lastnames lasts)
    (h : fs.NamesFault s.loading NameField.firstname.word s.firstnames failure) :
    (loadInputs s fs).1 = .error failure ∧
      Observer.recording.events (loadInputs s fs).2 = [.namesLoaded .lastname lasts] := by
  have hlast := (loadNames_eq_ok NameField.lastname.word).mpr hlasts
  have hfirst := loadNames_eq_error.mpr h
  simp only [loadInputs, hlast, hfirst, true_and, Observer.events_append,
    Loaded.events_of_ok _ hlast, Loaded.events_of_error _ hfirst, List.append_nil]

theorem loadInputs_of_holdsNames {lasts firsts : NameList}
    (hlasts : fs.HoldsNames s.loading s.lastnames lasts)
    (hfirsts : fs.HoldsNames s.loading s.firstnames firsts) :
    (loadInputs s fs).1 = .ok ⟨firsts, lasts⟩ ∧
      Observer.recording.events (loadInputs s fs).2 =
        [.namesLoaded .lastname lasts, .namesLoaded .firstname firsts] := by
  have hlast := (loadNames_eq_ok NameField.lastname.word).mpr hlasts
  have hfirst := (loadNames_eq_ok NameField.firstname.word).mpr hfirsts
  simp only [loadInputs, hlast, hfirst, true_and, Observer.events_append,
    Loaded.events_of_ok _ hlast, Loaded.events_of_ok _ hfirst, List.singleton_append]

theorem run_of_limit (device : Sink) {lasts firsts : NameList}
    (hlasts : fs.HoldsNames s.loading s.lastnames lasts)
    (hfirsts : fs.HoldsNames s.loading s.firstnames firsts)
    (hlimit : checkLimit s.maxLines firsts lasts = .ok ()) :
    (run device s fs).result = (writeOutput device s ⟨firsts, lasts⟩ fs).result ∧
      (run device s fs).files = (writeOutput device s ⟨firsts, lasts⟩ fs).files ∧
      Observer.recording.events (run device s fs).notices =
        [.namesLoaded .lastname lasts, .namesLoaded .firstname firsts] ++
          Observer.recording.events (writeOutput device s ⟨firsts, lasts⟩ fs).notices := by
  obtain ⟨hload, hevents⟩ := loadInputs_of_holdsNames hlasts hfirsts
  rw [run_eq_of_inputs hload hlimit]
  simp only [Observer.events_append, hevents, events_formatNotices, List.append_nil, true_and]

section Write

variable {lasts firsts : NameList} {created : FileSystem} {location : Location}
  (hlimit : checkLimit s.maxLines firsts lasts = .ok ())
  (hcreate : fs.createOutput (Bytes.ofString s.output) = (created, .ok location))

include hlimit hcreate

theorem writeOutput_of_device_error {cause : IoError} {left : Counted Sink}
    (h : ((Template.ofString s.format).writeLines firsts lasts).run (⟨device, 0⟩ : Counted Sink) =
      .error cause left) :
    let written := writeOutput device s ⟨firsts, lasts⟩ fs
    (∃ failure, written.result = .error failure) ∧
      written.files = created.set location (.file left.inner.accepted.toList) ∧
      Observer.recording.events written.notices =
        [.generationStarted firsts.length lasts.length] := by
  intro written
  obtain ⟨hfiles, hresult, hnotices⟩ :=
    writeOutput_of_createOutput device ⟨firsts, lasts⟩ hcreate
  rw [hfiles, hnotices]
  simp only [generate_eq_writeLines hlimit, h, true_and] at hresult ⊢
  exact ⟨hresult.exists_error, rfl⟩

theorem writeOutput_of_device_ok {lines : Nat} {left : Counted Sink}
    (h : ((Template.ofString s.format).writeLines firsts lasts).run (⟨device, 0⟩ : Counted Sink) =
      .ok lines left) :
    let written := writeOutput device s ⟨firsts, lasts⟩ fs
    let report : Report := ⟨firsts.length, lasts.length, lines, left.bytes⟩
    written.result = .ok report ∧
      written.files = created.set location (.file left.inner.accepted.toList) ∧
      Observer.recording.events written.notices =
        [.generationStarted firsts.length lasts.length, .generationFinished report] := by
  intro written report
  obtain ⟨hfiles, hresult, hnotices⟩ :=
    writeOutput_of_createOutput device ⟨firsts, lasts⟩ hcreate
  rw [hfiles, hnotices]
  simp only [generate_eq_writeLines hlimit, h, true_and] at hresult ⊢
  exact ⟨(hresult.eq_ok_iff report).2 rfl, rfl⟩

end Write

/-- A run takes the course that its inputs, its output and its device say. -/
theorem Course.eq_run {events : List Event} {result : Except Failure Report} {files : FileSystem}
    (h : Course device s fs events result files) :
    Observer.recording.events (run device s fs).notices = events ∧
      (run device s fs).result = result ∧ (run device s fs).files = files := by
  cases h with
  | lastnames h =>
    obtain ⟨hload, hevents⟩ := loadInputs_of_lastnames_fault h
    rw [run_eq_of_loadInputs_error hload]
    exact ⟨hevents, rfl, rfl⟩
  | firstnames hlasts h =>
    obtain ⟨hload, hevents⟩ := loadInputs_of_firstnames_fault hlasts h
    rw [run_eq_of_loadInputs_error hload]
    exact ⟨hevents, rfl, rfl⟩
  | limit hlasts hfirsts h =>
    obtain ⟨hload, hevents⟩ := loadInputs_of_holdsNames hlasts hfirsts
    rw [run_eq_of_limit_error hload h]
    simp only [Observer.events_append, hevents, events_formatNotices, List.append_nil, and_self]
  | output hlasts hfirsts hlimit h =>
    obtain ⟨hresult, hfiles, hevents⟩ := run_of_limit device hlasts hfirsts hlimit
    rw [hresult, hfiles, hevents]
    simp only [writeOutput, h, and_self, and_true]
    rfl
  | device hlasts hfirsts hlimit hcreate h hfailure =>
    obtain ⟨hresult, hfiles, hevents⟩ := run_of_limit device hlasts hfirsts hlimit
    obtain ⟨-, hleft, htold⟩ := writeOutput_of_device_error hlimit hcreate h
    rw [hresult, hfiles, hevents, hfailure, hleft, htold]
    exact ⟨rfl, rfl, rfl⟩
  | done hlasts hfirsts hlimit hcreate h =>
    obtain ⟨hresult, hfiles, hevents⟩ := run_of_limit device hlasts hfirsts hlimit
    obtain ⟨hreport, hleft, htold⟩ := writeOutput_of_device_ok hlimit hcreate h
    rw [hresult, hfiles, hevents, hreport, hleft, htold]
    exact ⟨rfl, rfl, rfl⟩

theorem exists_course (device : Sink) (s : Settings) (fs : FileSystem) :
    ∃ events result files, Course device s fs events result files := by
  obtain ⟨lasts, hlasts⟩ | ⟨failure, h⟩ :=
    holdsNames_or_fault fs s.loading NameField.lastname.word s.lastnames
  swap
  · exact ⟨_, _, _, .lastnames h⟩
  obtain ⟨firsts, hfirsts⟩ | ⟨failure, h⟩ :=
    holdsNames_or_fault fs s.loading NameField.firstname.word s.firstnames
  swap
  · exact ⟨_, _, _, .firstnames hlasts h⟩
  cases hlimit : checkLimit s.maxLines firsts lasts with
  | error failure => exact ⟨_, _, _, .limit hlasts hfirsts hlimit⟩
  | ok =>
    cases hcreate : fs.createOutput (Bytes.ofString s.output) with
    | mk created result =>
      cases result with
      | error cause => exact ⟨_, _, _, .output hlasts hfirsts hlimit hcreate⟩
      | ok location =>
        cases h : ((Template.ofString s.format).writeLines firsts lasts).run
            (⟨device, 0⟩ : Counted Sink) with
        | error cause left =>
          obtain ⟨⟨failure, hfailure⟩, -⟩ := writeOutput_of_device_error hlimit hcreate h
          exact ⟨_, _, _, .device hlasts hfirsts hlimit hcreate h hfailure⟩
        | ok lines left => exact ⟨_, _, _, .done hlasts hfirsts hlimit hcreate h⟩

theorem run_course (device : Sink) (s : Settings) (fs : FileSystem) :
    Course device s fs (Observer.recording.events (run device s fs).notices)
      (run device s fs).result (run device s fs).files := by
  obtain ⟨events, result, files, h⟩ := exists_course device s fs
  obtain ⟨rfl, rfl, rfl⟩ := h.eq_run
  exact h

namespace Course

variable {events : List Event} {result : Except Failure Report} {files : FileSystem}

theorem events_eq {events' : List Event} {result' : Except Failure Report} {files' : FileSystem}
    (h : Course device s fs events result files) (h' : Course device s fs events' result' files') :
    events = events' :=
  h.eq_run.1.symm.trans h'.eq_run.1

/-- What a run tells is the start of what it tells to its end, of the names that its files hold, of
    which a start of the lines is in its output, and of the report that it returns. -/
theorem exists_protocol (h : Course device s fs events result files) :
    ∃ lasts firsts report, events <+: Event.protocol lasts firsts report ∧
      (1 ≤ events.length → fs.HoldsNames s.loading s.lastnames lasts) ∧
      (2 ≤ events.length → fs.HoldsNames s.loading s.firstnames firsts) ∧
      (3 ≤ events.length → ∃ created location taken,
        fs.createOutput (Bytes.ofString s.output) = (created, .ok location) ∧
        files = created.set location (.file (device.accepted.toList ++ taken)) ∧
        taken <+: (Template.ofString s.format).output firsts lasts ∧
        (events.length = 4 → taken = (Template.ofString s.format).output firsts lasts)) ∧
      ∀ returned, result = .ok returned → returned = report := by
  -- Where a run stops early, the rest of the protocol may be of any lists and any report.
  have report : Report := ⟨0, 0, 0, 0⟩
  cases h with
  | lastnames h => exact ⟨[], [], report, List.nil_prefix, by simp⟩
  | @firstnames lasts _ hlasts h => exact ⟨lasts, [], report, ⟨_, rfl⟩, by simpa using hlasts⟩
  | @limit lasts firsts _ hlasts hfirsts h =>
    exact ⟨lasts, firsts, report, ⟨_, rfl⟩, by simp [hlasts, hfirsts]⟩
  | @output lasts firsts _ _ hlasts hfirsts hlimit h =>
    exact ⟨lasts, firsts, report, ⟨_, rfl⟩, by simp [hlasts, hfirsts]⟩
  | @device lasts firsts created location _ _ _ hlasts hfirsts hlimit hcreate h =>
    obtain ⟨taken, htaken, haccepted⟩ := Template.accepted_of_writeLines_error h
    refine ⟨lasts, firsts, report, ⟨_, rfl⟩, fun _ => hlasts, fun _ => hfirsts, fun _ =>
      ⟨created, location, taken, hcreate, ?_, htaken, by simp⟩, by simp⟩
    rw [haccepted]
  | @done lasts firsts created location _ _ hlasts hfirsts hlimit hcreate h =>
    refine ⟨lasts, firsts, _, List.prefix_rfl, fun _ => hlasts, fun _ => hfirsts, fun _ =>
      ⟨created, location, _, hcreate, ?_, List.prefix_rfl, fun _ => rfl⟩, by simp⟩
    rw [Template.accepted_of_writeLines h]

theorem length_eq_four (h : Course device s fs events result files) :
    events.length = 4 ↔ ∃ report, result = .ok report := by
  cases h <;> simp

theorem length_eq_zero (h : Course device s fs events result files) :
    events.length = 0 ↔
      ∃ failure, fs.NamesFault s.loading NameField.lastname.word s.lastnames failure := by
  constructor
  · intro hlength
    cases h with
    | lastnames h => exact ⟨_, h⟩
    | firstnames | limit | output | device | done => simp at hlength
  · rintro ⟨failure, hfault⟩
    rw [h.events_eq (.lastnames hfault), List.length_nil]

theorem length_eq_one (h : Course device s fs events result files) :
    events.length = 1 ↔ ∃ lasts failure, fs.HoldsNames s.loading s.lastnames lasts ∧
      fs.NamesFault s.loading NameField.firstname.word s.firstnames failure := by
  constructor
  · intro hlength
    cases h with
    | firstnames hlasts h => exact ⟨_, _, hlasts, h⟩
    | lastnames | limit | output | device | done => simp at hlength
  · rintro ⟨lasts, failure, hlasts, hfault⟩
    rw [h.events_eq (.firstnames hlasts hfault), List.length_singleton]

theorem length_eq_two (h : Course device s fs events result files) :
    events.length = 2 ↔ ∃ lasts firsts, fs.HoldsNames s.loading s.lastnames lasts ∧
      fs.HoldsNames s.loading s.firstnames firsts ∧
      ((∃ limit, s.maxLines = some limit ∧ limit < firsts.length * lasts.length) ∨
        ∃ cause, (fs.createOutput (Bytes.ofString s.output)).2 = .error cause) := by
  constructor
  · intro hlength
    cases h with
    | limit hlasts hfirsts h =>
      obtain ⟨limit, hmax, hover, -⟩ := checkLimit_eq_error.mp h
      exact ⟨_, _, hlasts, hfirsts, .inl ⟨limit, hmax, hover⟩⟩
    | output hlasts hfirsts hlimit h => exact ⟨_, _, hlasts, hfirsts, .inr ⟨_, by rw [h]⟩⟩
    | lastnames | firstnames | device | done => simp at hlength
  · rintro ⟨lasts, firsts, hlasts, hfirsts, hstop⟩
    -- Where the limit stops the run already, the output is not tried.
    cases hlimit : checkLimit s.maxLines firsts lasts with
    | error failure =>
      rw [h.events_eq (.limit hlasts hfirsts hlimit)]
      rfl
    | ok =>
      obtain ⟨limit, hmax, hover⟩ | ⟨cause, hcreate⟩ := hstop
      · have hwithin := checkLimit_eq_ok.mp hlimit limit hmax
        omega
      · rw [h.events_eq (.output hlasts hfirsts hlimit (Prod.ext rfl hcreate))]
        rfl

theorem length_eq_three (h : Course device s fs events result files) :
    events.length = 3 ↔ ∃ lasts firsts location cause left,
      fs.HoldsNames s.loading s.lastnames lasts ∧ fs.HoldsNames s.loading s.firstnames firsts ∧
      (∀ limit, s.maxLines = some limit → firsts.length * lasts.length ≤ limit) ∧
      (fs.createOutput (Bytes.ofString s.output)).2 = .ok location ∧
      ((Template.ofString s.format).writeLines firsts lasts).run (⟨device, 0⟩ : Counted Sink) =
        .error cause left := by
  constructor
  · intro hlength
    cases h with
    | device hlasts hfirsts hlimit hcreate h =>
      exact ⟨_, _, _, _, _, hlasts, hfirsts, checkLimit_eq_ok.mp hlimit, by rw [hcreate], h⟩
    | lastnames | firstnames | limit | output | done => simp at hlength
  · rintro ⟨lasts, firsts, location, cause, left, hlasts, hfirsts, hlimit, hcreate, hwrite⟩
    have hcheck := checkLimit_eq_ok.mpr hlimit
    obtain ⟨⟨failure, hfailure⟩, -⟩ :=
      writeOutput_of_device_error hcheck (Prod.ext rfl hcreate) hwrite
    rw [h.events_eq (.device hlasts hfirsts hcheck (Prod.ext rfl hcreate) hwrite hfailure)]
    rfl

end Course

end Course

/-- A run tells an observer the start of what a run that comes to its end tells: of the lists that
    its files hold, which are the ones that its lines are made of, and of the report that it
    returns. It tells all of that exactly where it succeeds, and otherwise as much as it came to
    before the lastnames, the firstnames, the limit or the output, or the device stopped it. Its
    result and its files are the same for every observer, for that of an engine whether it monitors
    the process or not, and whatever is done with each notice. -/
theorem run_tells_protocol (device : Sink) (s : Settings) (fs : FileSystem) :
    let outcome := run device s fs
    let events := Observer.recording.events outcome.notices
    let t := Template.ofString s.format
    (∃ lasts firsts report, events <+: Event.protocol lasts firsts report ∧
      (1 ≤ events.length → fs.HoldsNames s.loading s.lastnames lasts) ∧
      (2 ≤ events.length → fs.HoldsNames s.loading s.firstnames firsts) ∧
      (3 ≤ events.length → ∃ created location taken,
        fs.createOutput (Bytes.ofString s.output) = (created, .ok location) ∧
        outcome.files = created.set location (.file (device.accepted.toList ++ taken)) ∧
        taken <+: t.output firsts lasts ∧
        (events.length = 4 → taken = t.output firsts lasts)) ∧
      ∀ returned, outcome.result = .ok returned → returned = report) ∧
    (events.length = 4 ↔ ∃ report, outcome.result = .ok report) ∧
    (events.length = 0 ↔
      ∃ failure, fs.NamesFault s.loading NameField.lastname.word s.lastnames failure) ∧
    (events.length = 1 ↔ ∃ lasts failure, fs.HoldsNames s.loading s.lastnames lasts ∧
      fs.NamesFault s.loading NameField.firstname.word s.firstnames failure) ∧
    (events.length = 2 ↔ ∃ lasts firsts, fs.HoldsNames s.loading s.lastnames lasts ∧
      fs.HoldsNames s.loading s.firstnames firsts ∧
      ((∃ limit, s.maxLines = some limit ∧ limit < firsts.length * lasts.length) ∨
        ∃ cause, (fs.createOutput (Bytes.ofString s.output)).2 = .error cause)) ∧
    (events.length = 3 ↔ ∃ lasts firsts location cause left,
      fs.HoldsNames s.loading s.lastnames lasts ∧ fs.HoldsNames s.loading s.firstnames firsts ∧
      (∀ limit, s.maxLines = some limit → firsts.length * lasts.length ≤ limit) ∧
      (fs.createOutput (Bytes.ofString s.output)).2 = .ok location ∧
      (t.writeLines firsts lasts).run (⟨device, 0⟩ : Counted Sink) = .error cause left) ∧
    (∀ (observer : Observer) (monitoring : Bool),
      runWithObserver observer device { s with monitoring } fs =
        ⟨outcome.result, outcome.files, observer.events outcome.notices,
          observer.log outcome.notices⟩) ∧
    (∀ monitoring : Bool,
      (Engine.withMonitoring { s with monitoring } monitoring).run device fs =
        ⟨outcome.result, outcome.files, [],
          (Observer.tracing (if monitoring then some { enabled := true } else none)).log
            outcome.notices⟩) ∧
    ∀ (m : Type → Type) [Monad m] [LawfulMonad m] (tell : Notice → m Unit) (monitoring : Bool),
      runTelling tell device { s with monitoring } fs =
        (do outcome.notices.forM tell
            pure (outcome.result, outcome.files)) := by
  intro outcome events t
  have hcourse := run_course device s fs
  refine ⟨hcourse.exists_protocol, hcourse.length_eq_four, hcourse.length_eq_zero,
    hcourse.length_eq_one, hcourse.length_eq_two, hcourse.length_eq_three, ?_, ?_, ?_⟩
  · intro observer monitoring
    exact runWithObserver_eq observer device { s with monitoring } fs
  · intro monitoring
    refine (Engine.run_eq (.withMonitoring { s with monitoring } monitoring) device fs).trans ?_
    cases monitoring <;> rfl
  · intro m _ _ tell monitoring
    exact runTelling_eq tell device { s with monitoring } fs

/-- A device that is full after three bytes, a file of firstnames that is not there, and a limit
    that two lines exceed; and a run that succeeds, of which a silent observer hears nothing. -/
theorem run_tells_protocol_until_stopped :
    let fs : FileSystem := ⟨[([Bytes.ofString "a"], .file (Bytes.ofString "ann\n")),
      ([Bytes.ofString "b"], .file (Bytes.ofString "weir\npo"))], []⟩
    let settings (firsts : String) (most : Nat) : Settings :=
      ⟨firsts, "b", "c", "\x7bfirstname\x7d(1)\x7blastname\x7d", some most, {}, true⟩
    let told (device : Sink) (firsts : String) (most : Nat) : List Event :=
      Observer.recording.events (run device (settings firsts most) fs).notices
    (told { limit := some 3 } "a" 2).length = 3 ∧ (told {} "q" 2).length = 1 ∧
      (told {} "a" 1).length = 2 ∧ (told {} "a" 2).length = 4 ∧
      (runWithObserver .silent {} { settings "a" 2 with monitoring := false } fs).events = [] := by
  intro fs settings told
  have hfirsts : fs.HoldsNames {} "a" [Bytes.ofString "ann"] :=
    ⟨Bytes.ofString "ann\n", by decide, by decide⟩
  have hlasts : fs.HoldsNames {} "b" [Bytes.ofString "weir", Bytes.ofString "po"] :=
    ⟨Bytes.ofString "weir\npo", by decide, by decide⟩
  have hmissing : fs.NamesFault {} NameField.firstname.word "q"
      (.fileAccess "firstnames" "q" .notFound) := .unopened (by decide)
  have hcreate : (fs.createOutput (Bytes.ofString "c")).2 = .ok [Bytes.ofString "c"] := by cbv
  have hfull : ((Template.ofString "\x7bfirstname\x7d(1)\x7blastname\x7d").writeLines
      [Bytes.ofString "ann"] [Bytes.ofString "weir", Bytes.ofString "po"]).run
        (⟨{ limit := some 3 }, 0⟩ : Counted Sink) =
      .error .writeZero ⟨{ limit := some 3, accepted := #[97, 119, 101] }, 3⟩ := by cbv
  have hdone : (run {} (settings "a" 2) fs).result = .ok ⟨1, 2, 2, 10⟩ := by cbv
  obtain ⟨-, -, -, -, -, hdevice, -⟩ := run_tells_protocol { limit := some 3 } (settings "a" 2) fs
  obtain ⟨-, -, -, hfirst, -⟩ := run_tells_protocol {} (settings "q" 2) fs
  obtain ⟨-, -, -, -, hlimit, -⟩ := run_tells_protocol {} (settings "a" 1) fs
  obtain ⟨-, hall, -, -, -, -, hobserved, -⟩ := run_tells_protocol {} (settings "a" 2) fs
  refine ⟨hdevice.mpr ⟨_, _, _, _, _, hlasts, hfirsts, ?_, hcreate, hfull⟩,
    hfirst.mpr ⟨_, _, hlasts, hmissing⟩,
    hlimit.mpr ⟨_, _, hlasts, hfirsts, .inl ⟨1, rfl, by decide⟩⟩, hall.mpr ⟨_, hdone⟩, ?_⟩
  · rintro limit ⟨⟩
    decide
  · rw [hobserved .silent false]
    rfl

end LoginNames
