import LoginNames.Log
import LoginNames.NameList
import LoginNames.Placeholder

/-! # Progress of a run

A run tells its progress as a list of notices: events, and entries for the log. An observer decides
what is seen of the events: it keeps them, puts them into words for the log, or drops them. One
that puts them into words may have a monitor, which shows figures of the process at the end of a
phase. -/

set_option autoImplicit false

namespace LoginNames

structure Report where
  firstnames : Nat
  lastnames : Nat
  lines : Nat
  bytes : Nat
deriving DecidableEq

inductive Event
  | namesLoaded (field : NameField) (names : NameList)
  | generationStarted (firstnames lastnames : Nat)
  | generationFinished (report : Report)
deriving DecidableEq

inductive Notice
  | event (event : Event)
  | entry (entry : LogEntry)
deriving DecidableEq

def Event.log : Event → Log
  | namesLoaded field names =>
    ⟨.info, s!"[+] - Loaded {names.length} {field.word}"⟩ ::
      if names.isEmpty then
        [⟨.warn, s!"⚠️ The {field.word} list is empty, no lines will be generated"⟩]
      else []
  | generationStarted f l =>
    [⟨.info, s!"🚀 Generating {f * l} combinations ({f} firstnames x {l} lastnames)"⟩]
  | generationFinished report =>
    [⟨.info, "[+] - Generating file took"⟩,
      ⟨.debug, s!"Run started wrote {report.lines} lines ({report.bytes} bytes)"⟩]

/-- A monitor that is off has no figures to show. -/
structure Monitor where
  enabled : Bool := false
deriving DecidableEq

namespace Monitor

def hasStats (m : Monitor) : Bool := m.enabled

/-- The entry for a phase, without the figures that it shows. -/
def log (m : Monitor) (phase : String) : Log :=
  if m.hasStats then [⟨.info, "📊 " ++ phase⟩] else []

end Monitor

/-- What a monitor adds to the words for an event. -/
def Event.figures (monitor : Monitor) : Event → Log
  | namesLoaded field _ => monitor.log (field.word ++ " loaded")
  | generationStarted _ _ => []
  | generationFinished _ => monitor.log "Final Stats"

inductive Observer
  | recording
  | tracing (monitor : Option Monitor)
  | silent
deriving DecidableEq

namespace Observer

/-- The observer of a run that has a monitor: it is given one only where that is switched on. -/
def ofMonitor (monitor : Monitor) : Observer :=
  if monitor.enabled then tracing (some monitor) else tracing none

/-- The entries that an observer makes of an event. -/
def logOf : Observer → Event → Log
  | tracing (some monitor), e => e.log ++ e.figures monitor
  | tracing none, e => e.log
  | recording, _ | silent, _ => []

def events (observer : Observer) (notices : List Notice) : List Event :=
  match observer with
  | recording => notices.filterMap fun
    | .event e => some e
    | .entry _ => none
  | tracing _ | silent => []

def log (observer : Observer) (notices : List Notice) : Log :=
  notices.flatMap fun
    | .entry e => [e]
    | .event e => observer.logOf e

end Observer

end LoginNames
