import LoginNames.IoError

/-! # Failures

Everything that can stop a run, as a value that names the cause. The wording, the category, the
exit code and the advice to the user are functions of it. -/

set_option autoImplicit false

namespace LoginNames

inductive ProfileFault
  | malformed
  | tooManyKeys
  | unknownField (name : String) (expected : List String)
  | unknownVariant (name : String) (expected : List String)
  | missingField (name : String)
  | mismatch
deriving DecidableEq

namespace ProfileFault

def quoted (name : String) : String := "`" ++ name ++ "`"

/-- One choice, two joined by "or", or a list. -/
def choice : List String → String
  | [] => "nothing"
  | [a] => quoted a
  | [a, b] => quoted a ++ " or " ++ quoted b
  | names => "one of " ++ ", ".intercalate (names.map quoted)

def detail? : ProfileFault → Option String
  | malformed | tooManyKeys => none
  | unknownField name expected =>
    some ("unknown field " ++ quoted name ++ ", expected " ++ choice expected)
  | unknownVariant name expected =>
    some ("unknown variant " ++ quoted name ++ ", expected " ++ choice expected)
  | missingField name => some ("missing field " ++ quoted name)
  | mismatch => none

/-- Too many keys joined by dots have no place of their own in the text, and the message ends with
    the words for them on a line; what it says of another fault starts with its place. -/
def reason : ProfileFault → String
  | tooManyKeys => ": recursion limit\n"
  | _ => ""

end ProfileFault

inductive Failure
  | io (cause : IoError)
  | fileAccess (role path : String) (cause : IoError)
  | resourceExhausted (what : String)
  | nameTooLong (line length max : Nat)
  | outputLimitExceeded (requested limit : Nat)
  | config (message : String)
  | validation (field message : String)
  | profile (fault : ProfileFault)
  | invalidValue (field value reason : String)
  | missingSetting (field : String)
deriving DecidableEq

inductive Category
  | io
  | resource
  | input
  | configuration
deriving DecidableEq

def Category.word : Category → String
  | .io => "Io"
  | .resource => "Resource"
  | .input => "Input"
  | .configuration => "Configuration"

inductive Severity
  | medium
  | high
  | critical
deriving DecidableEq

namespace Severity

def word : Severity → String
  | medium => "Medium"
  | high => "High"
  | critical => "Critical"

def rank : Severity → Nat
  | medium => 0
  | high => 1
  | critical => 2

end Severity

def Category.severity : Category → Severity
  | .io => .critical
  | .resource => .critical
  | .input => .medium
  | .configuration => .high

def Severity.exitCode : Severity → Nat
  | .medium => 2
  | .high => 1
  | .critical => 3

namespace Failure

def message : Failure → String
  | io cause => "IO error: " ++ cause.message
  | fileAccess role path cause =>
    "Error opening " ++ role ++ " file '" ++ path ++ "': " ++ cause.message
  | resourceExhausted what => "Failed to allocate memory for " ++ what
  | nameTooLong line length max =>
    s!"Name on line {line} is {length} bytes long (maximum {max})"
  | outputLimitExceeded requested limit =>
    s!"Output would contain {requested} lines, exceeding the limit of {limit}"
  | config message => "Configuration error: " ++ message
  | validation field message =>
    "Configuration validation failed for '" ++ field ++ "': " ++ message
  | profile fault =>
    "Configuration validation failed for 'toml_parsing': TOML parsing error" ++ fault.reason
  | invalidValue field value reason =>
    "Invalid value '" ++ value ++ "' for '" ++ field ++ "': " ++ reason
  | missingSetting field => "Missing required setting: " ++ field

def category : Failure → Category
  | io _ | fileAccess .. => .io
  | resourceExhausted _ => .resource
  | nameTooLong .. | outputLimitExceeded .. => .input
  | config _ | validation .. | profile _ | invalidValue .. | missingSetting _ => .configuration

def severity (e : Failure) : Severity := e.category.severity

def exitCode (e : Failure) : Nat := e.severity.exitCode

def suggestion : Failure → String
  | io _ => "Check that the disk is not full and the files are accessible"
  | fileAccess role _ _ =>
    "Make sure the " ++ role ++ " file exists and you have permission to access it"
  | resourceExhausted _ => "Split the name lists into smaller files and run them separately"
  | nameTooLong _ _ max =>
    s!"Shorten the name, raise --max-name-length above {max} or use --overlong truncate"
  | outputLimitExceeded .. => "Raise --max-lines or use smaller name lists"
  | missingSetting field => "Provide '" ++ field ++ "' on the command line or in the config file"
  | config _ | validation .. | profile _ | invalidValue .. =>
    "Run with --help to see the accepted options"

def friendly : Failure → String
  | fileAccess role path cause => (fileAccess role path cause).message
  | missingSetting field => "Error: " ++ field ++ " was not specified"
  | e => "Error: " ++ e.message

def cause? : Failure → Option IoError
  | io cause | fileAccess _ _ cause => some cause
  | _ => none

end Failure

end LoginNames
