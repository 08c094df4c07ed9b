import LoginNames.CommandLine.Describe
import LoginNames.CommandLine.Help
import LoginNames.CommandLine.Parser
import LoginNames.Console
import LoginNames.Engine
import LoginNames.Profile

/-! # The program

`Program.run` is the whole program as a function: from the arguments, the environment, the file
system and the machine's part in it to what it prints, its exit code and the file system that it
leaves. -/

set_option autoImplicit false

namespace LoginNames

def configRole : String := "config"

def Profile.load (env : Environment) (fs : FileSystem) (path : Path) : Except Failure Profile :=
  match fs.readText path with
  | .error cause => .error (.fileAccess configRole (Bytes.lossyText path) cause)
  | .ok text =>
    match Profile.parse env.text? text with
    | .error fault => .error (.profile fault)
    | .ok profile => .ok profile

namespace Options

def profileEntry (path : String) : LogEntry := ⟨.info, "📁 Loading profile from: " ++ path⟩

def resolveLog (o : Options) : Log :=
  match o.config with
  | none => []
  | some path => [profileEntry path]

def resolve (env : Environment) (fs : FileSystem) (o : Options) : Except Failure Settings :=
  match o.config with
  | none => Settings.resolve o.toOverrides
  | some path => do
    let profile ← Profile.load env fs (Bytes.ofString path)
    Settings.resolve (o.toOverrides.or profile.toOverrides)

end Options

/-- What a program meets on a machine besides files and variables: the device on which its output
    comes to lie, and the reading of the text that chooses what is logged. -/
structure Host where
  device : Sink := {}
  readFilter : String → Option LogFilter := LogFilter.ofLevel?

namespace Program

structure Outcome where
  exitCode : Nat
  stdout : String
  stderr : List ConsoleLine
  files : FileSystem

def usageHint : String :=
  "No parameters specified - Restart with -h or --help for options\n"

def version : String := "1.0.0"

def banner : String :=
  "                    =====\n" ++
  "                    |@@@|\n" ++
  "        John Smith >|***|> J.Smith@dom.com\n" ++
  "   =================|===|=================\n" ++
  "    |___|___|___|___|+++|___|___|___|___|\n" ++
  "            UsernameCrafter v" ++ version ++ "\n\n"

def info (message : String) : ConsoleItem := .entry ⟨.info, message⟩

def settingsItems (s : Settings) : List ConsoleItem :=
  [info ("[+] - Output file: " ++ s.output), info ("[+] - Firstnames file: " ++ s.firstnames),
    info ("[+] - Lastnames file: " ++ s.lastnames), info ("[+] - Format: " ++ s.format)] ++
    if s.monitoring then [info "🔍 System monitoring enabled"] else []

/-- What is shown of a failure, with advice to the user. -/
def failureItems (summary : String) (failure : Failure) : List ConsoleItem :=
  [.entry ⟨.error, summary⟩, .message ("❌ " ++ failure.friendly),
    .message ("💡 " ++ failure.suggestion)]

def configurationSummary (failure : Failure) : String :=
  "❌ Configuration failed: " ++ failure.message

def generationSummary (failure : Failure) : String :=
  "❌ Generation failed: " ++ failure.message ++ " (Category: " ++ failure.category.word ++
    ", Severity: " ++ failure.severity.word ++ ")"

def successText (s : Settings) (report : Report) : String :=
  s!"✅ Wrote {report.lines} lines to " ++ s.output

/-- What comes of a command line once its options are known: the text is what follows the banner,
    and the items are what the console is told, shown or not. -/
structure Performance where
  exitCode : Nat
  text : String
  items : List ConsoleItem
  files : FileSystem

def perform (host : Host) (env : Environment) (fs : FileSystem) (o : Options) : Performance :=
  let opening := (if o.verbose then [.entry ⟨.debug, "CLI config: " ++ o.describe⟩] else []) ++
    o.resolveLog.map .entry
  match o.resolve env fs with
  | .error failure =>
    ⟨failure.exitCode, "", opening ++ failureItems (configurationSummary failure) failure, fs⟩
  | .ok s =>
    let observed := (Engine.withMonitoring s s.monitoring).run host.device fs
    let told := opening ++ settingsItems s ++ observed.log.map .entry
    match observed.result with
    | .error failure =>
      ⟨failure.exitCode, "", told ++ failureItems (generationSummary failure) failure,
        observed.files⟩
    | .ok report =>
      ⟨0, successText s report ++ "\n", told ++ [info (successText s report)], observed.files⟩

def run (host : Host) (arguments : List Bytes) (env : Environment) (fs : FileSystem) : Outcome :=
  match arguments with
  | [] => ⟨1, usageHint, [], fs⟩
  | _ :: _ =>
    match CommandLine.parse arguments with
    | .error (.help long) => ⟨0, CommandLine.help long, [], fs⟩
    | .error (.fault _) => ⟨2, "", [], fs⟩
    | .ok o =>
      if o.showVersion then ⟨0, "Version " ++ version ++ "\n", [], fs⟩
      else
        let p := perform host env fs o
        let filter := LogFilter.choose host.readFilter env o.verbose
        let shown := p.items.filter (ConsoleItem.isShown filter)
        ⟨p.exitCode, banner ++ p.text, shown.flatMap (ConsoleLine.ofItem o.jsonLogs), p.files⟩

end Program

end LoginNames
