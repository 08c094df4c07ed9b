import LoginNames.Program

/-! # The executable

The function `Program.run` decides everything. Here the files and variables that it can look at are
read beforehand, and what it changed and printed is carried out afterwards. What the device of the
output takes shows only then, and where that is not all the program is run for that device. -/

set_option autoImplicit false

namespace LoginNames.Executable

def systemPath (location : Location) : String :=
  "/" ++ Bytes.lossyText (Path.join location)

/-- A directory opens like a file and then cannot be read. -/
def isDirectoryError : IO.Error → Bool
  | .inappropriateType .. => true
  | .unsupportedOperation .. => true
  | .illegalOperation .. => true
  | .otherError code _ => code = 21
  | _ => false

def probe (location : Location) : IO (Option Node) := do
  try
    let content ← IO.FS.readBinFile (systemPath location)
    return some (.file content.toList)
  catch e =>
    return if isDirectoryError e then some .directory else none

/-- Adds what stands at a location to a file system. -/
def observe (fs : FileSystem) (location : Location) : IO FileSystem := do
  match ← probe location with
  | some node => return if location = [] then fs else fs.set location node
  | none => return fs

def observePath (fs : FileSystem) (path : Path) : IO FileSystem := do
  let mut fs := fs
  let mut here := fs.startOf path
  for name in path.names do
    if name = Path.dotDot then here := here.dropLast
    else if name ≠ Path.dot then
      here := here ++ [name]
      fs ← observe fs here
  return fs

def observeText (fs : FileSystem) (path : Option String) : IO FileSystem :=
  match path with
  | some path => observePath fs (Bytes.ofString path)
  | none => return fs

/-- The variables that a profile refers to, and the one that chooses the log level. -/
def observeVariables (text : String) : IO Environment := do
  let names := LogFilter.variableName :: (Environment.references text.toList).map String.ofList
  let values ← names.mapM fun name => do
    return (← IO.getEnv name).map fun value => (name, Bytes.ofString value)
  return Environment.ofPairs (values.filterMap id)

def systemCode? : IO.Error → Option UInt32
  | .alreadyExists _ code _ | .interrupted _ code _ | .noFileOrDirectory _ code _
  | .invalidArgument _ code _ | .permissionDenied _ code _ | .resourceExhausted _ code _
  | .inappropriateType _ code _ | .noSuchThing _ code _ | .otherError code _
  | .resourceBusy code _ | .resourceVanished code _ | .unsupportedOperation code _
  | .hardwareFault code _ | .unsatisfiedConstraints code _ | .illegalOperation code _
  | .protocolError code _ | .timeExpired code _ => some code
  | .unexpectedEof | .userError _ => none

/-- A device that takes so many bytes and then fails like a write to it did. -/
def deviceOf (taken : Nat) (e : IO.Error) : Sink :=
  let cause := (systemCode? e).elim (.custom (toString e)) fun code => IoError.system code.toNat
  if h : some cause ≠ some .interrupted then
    { limit := some taken, full := some cause, lasting := h }
  else { limit := some taken }

def takenAt (location : Location) : IO Nat := do
  try
    let content ← IO.FS.readBinFile (systemPath location)
    return content.size
  catch _ => return 0

/-- Carries out what a run changed. If the device does not take all of it, this is the device. -/
def writeBack (before after : FileSystem) : IO (Option Sink) := do
  for (location, node) in after.entries do
    if before.node? location ≠ some node then
      try
        match node with
        | .directory => IO.FS.createDir (systemPath location)
        | .file content => IO.FS.writeBinFile (systemPath location) ⟨content.toArray⟩
      catch e => return some (deviceOf (← takenAt location) e)
  return none

def observeAll (arguments : List Bytes) : IO (Environment × FileSystem) := do
  let cwd := (← IO.currentDir).toString
  let mut fs : FileSystem := { workingDirectory := Path.names (Bytes.ofString cwd) }
  for n in [1:fs.workingDirectory.length + 1] do
    fs := fs.set (fs.workingDirectory.take n) .directory
  match CommandLine.parse arguments with
  | .error _ => return (← observeVariables "", fs)
  | .ok o =>
    fs ← observeText fs o.config
    let profileText := match o.config with
      | some path => (fs.readText (Bytes.ofString path)).toOption.getD ""
      | none => ""
    let env ← observeVariables profileText
    match o.resolve env fs with
    | .error _ => return (env, fs)
    | .ok s =>
      for path in [s.firstnames, s.lastnames, s.output] do
        fs ← observePath fs (Bytes.ofString path)
      return (env, fs)

end LoginNames.Executable

open LoginNames LoginNames.Executable in
def main (args : List String) : IO UInt32 := do
  let arguments := args.map Bytes.ofString
  let (env, fs) ← observeAll arguments
  let intended := Program.run {} arguments env fs
  let outcome := (← writeBack fs intended.files).elim intended fun device =>
    Program.run { device } arguments env fs
  for line in outcome.stderr do
    IO.eprintln line.render
  IO.print outcome.stdout
  return UInt32.ofNat outcome.exitCode
