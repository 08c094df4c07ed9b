import LoginNames.Run

/-! # Runs that are observed

A run tells an observer each notice when it comes to it, and then goes on. An engine that is not
given an observer has one of its own, with the engine's monitor where that is switched on. -/

set_option autoImplicit false

namespace LoginNames

/-- What an observer makes of one notice: it keeps it as an event, or puts it into the log. -/
def Observer.tell (observer : Observer) (notice : Notice) : StateM (List Event × Log) Unit :=
  modify fun (events, log) => (events ++ observer.events [notice], log ++ observer.log [notice])

section Telling

variable {m : Type → Type} [Monad m]

/-- A generation that tells each event at once, and goes on. -/
def generateTelling {σ : Type} [Writer σ] (tell : Notice → m Unit) (maxLines : Option Nat)
    (firsts lasts : NameList) (template : Template) (sink : σ) :
    m (Except Failure Report × σ) :=
  match checkLimit maxLines firsts lasts with
  | .error failure => pure (.error failure, sink)
  | .ok () => do
    tell (.event (.generationStarted firsts.length lasts.length))
    match (template.writeLines firsts lasts).run (⟨sink, 0⟩ : Counted σ) with
    | .error cause written => pure (.error (.io cause), written.inner)
    | .ok lines written => do
      let report : Report := ⟨firsts.length, lasts.length, lines, written.bytes⟩
      tell (.event (.generationFinished report))
      pure (.ok report, written.inner)

/-- A run that tells each notice at once, and goes on. -/
def runTelling (tell : Notice → m Unit) (device : Sink) (s : Settings) (fs : FileSystem) :
    m (Except Failure Report × FileSystem) := do
  let lasts := loadNames s.loading NameField.lastname.word s.lastnames fs
  (lasts.log.map Notice.entry).forM tell
  match lasts.result with
  | .error failure => pure (.error failure, fs)
  | .ok lastnames =>
    tell (.event (.namesLoaded .lastname lastnames))
    let firsts := loadNames s.loading NameField.firstname.word s.firstnames fs
    (firsts.log.map Notice.entry).forM tell
    match firsts.result with
    | .error failure => pure (.error failure, fs)
    | .ok firstnames =>
      tell (.event (.namesLoaded .firstname firstnames))
      (formatNotices s.format).forM tell
      match checkLimit s.maxLines firstnames lastnames with
      | .error failure => pure (.error failure, fs)
      | .ok () =>
        match fs.createOutput (Bytes.ofString s.output) with
        | (fs, .error cause) => pure (.error (.fileAccess outputRole s.output cause), fs)
        | (fs, .ok location) =>
          let (result, sink) ← generateTelling tell s.maxLines firstnames lastnames
            (Template.ofString s.format) (⟨device, #[]⟩ : Buffered Sink)
          let fs := fs.overwrite location sink.close.accepted.toList
          match result with
          | .error failure => pure (.error failure, fs)
          | .ok report =>
            tell (.entry ⟨.debug, "Output written to " ++ s.output⟩)
            pure (.ok report, fs)

end Telling

/-- A run that is over, with what its observer has kept of it. -/
structure Observed where
  result : Except Failure Report
  files : FileSystem
  events : List Event
  log : Log

def runWithObserver (observer : Observer) (device : Sink) (s : Settings) (fs : FileSystem) :
    Observed :=
  let ((result, files), events, log) := (runTelling observer.tell device s fs).run ([], [])
  ⟨result, files, events, log⟩

structure Engine where
  settings : Settings
  monitor : Monitor

namespace Engine

def withMonitoring (settings : Settings) (enabled : Bool) : Engine := ⟨settings, { enabled }⟩

def run (engine : Engine) (device : Sink) (fs : FileSystem) : Observed :=
  runWithObserver (.ofMonitor engine.monitor) device engine.settings fs

end Engine

end LoginNames
