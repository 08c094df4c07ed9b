import LoginNames.Buffered
import LoginNames.Environment
import LoginNames.Files.Access
import LoginNames.Generator
import LoginNames.Settings

/-! # A whole run

Both name files are loaded, the lastnames first; then the number of lines is checked; only then the
output file is created and written. A failure on the way stops the run, so that a bad input leaves
an existing output as it is. -/

set_option autoImplicit false

namespace LoginNames

def loadNames (options : LoadOptions) (role path : String) (fs : FileSystem) : Loaded :=
  match fs.openRead (Bytes.ofString path) with
  | .error cause => ⟨.error (.fileAccess role path cause), []⟩
  | .ok source => load options source

/-- What a load tells: its log, and the names if it succeeds. -/
def Loaded.notices (loaded : Loaded) (field : NameField) : List Notice :=
  loaded.log.map .entry ++
    match loaded.result with
    | .ok names => [.event (.namesLoaded field names)]
    | .error _ => []

structure Inputs where
  firstnames : NameList
  lastnames : NameList

def loadInputs (s : Settings) (fs : FileSystem) : Except Failure Inputs × List Notice :=
  let lasts := loadNames s.loading NameField.lastname.word s.lastnames fs
  match lasts.result with
  | .error failure => (.error failure, lasts.notices .lastname)
  | .ok lastnames =>
    let firsts := loadNames s.loading NameField.firstname.word s.firstnames fs
    let notices := lasts.notices .lastname ++ firsts.notices .firstname
    match firsts.result with
    | .error failure => (.error failure, notices)
    | .ok firstnames => (.ok ⟨firstnames, lastnames⟩, notices)

/-- A format without placeholders is allowed, with a warning. -/
def formatNotices (format : String) : List Notice :=
  if (Template.ofString format).placeholders = [] then
    [.entry ⟨.warn,
      "⚠️ Format '" ++ format ++ "' contains no placeholders, every line will be identical"⟩]
  else []

structure RunOutcome where
  result : Except Failure Report
  files : FileSystem
  notices : List Notice

def outputRole : String := "output"

/-- Creates the output file, on a device that takes what `device` takes, and writes it through a
    buffer. -/
def writeOutput (device : Sink) (s : Settings) (inputs : Inputs) (fs : FileSystem) : RunOutcome :=
  match fs.createOutput (Bytes.ofString s.output) with
  | (fs, .error cause) => ⟨.error (.fileAccess outputRole s.output cause), fs, []⟩
  | (fs, .ok location) =>
    let generated := generate s.maxLines inputs.firstnames inputs.lastnames
      (Template.ofString s.format) (⟨device, #[]⟩ : Buffered Sink)
    let fs := fs.overwrite location generated.sink.close.accepted.toList
    match generated.result with
    | .error failure => ⟨.error failure, fs, generated.notices⟩
    | .ok report =>
      ⟨.ok report, fs, generated.notices ++ [.entry ⟨.debug, "Output written to " ++ s.output⟩]⟩

def run (device : Sink) (s : Settings) (fs : FileSystem) : RunOutcome :=
  match loadInputs s fs with
  | (.error failure, notices) => ⟨.error failure, fs, notices⟩
  | (.ok inputs, notices) =>
    let notices := notices ++ formatNotices s.format
    match checkLimit s.maxLines inputs.firstnames inputs.lastnames with
    | .error failure => ⟨.error failure, fs, notices⟩
    | .ok () =>
      let written := writeOutput device s inputs fs
      { written with notices := notices ++ written.notices }

def createWith (fs : FileSystem) (path : String) (data : Bytes) :
    FileSystem × Except Failure Unit :=
  match fs.createOutput (Bytes.ofString path) with
  | (fs, .error cause) => (fs, .error (.fileAccess outputRole path cause))
  | (fs, .ok location) => (fs.overwrite location data, .ok ())

end LoginNames
