import LoginNames.CommandLine.Options
import LoginNames.Text.Quoted

/-! # Options in words

One line with the name and the value of every option, for the log. -/

set_option autoImplicit false

namespace LoginNames.Options

def describeOption {α : Type} (describe : α → String) : Option α → String
  | none => "None"
  | some value => "Some(" ++ describe value ++ ")"

def describePolicy : Overlong → String
  | .truncate => "Truncate"
  | .reject => "Reject"

def describeFlag (flag : Bool) : String := if flag then "true" else "false"

/-- The options in the order of the help text, each with its value. -/
def fields (o : Options) : List (String × String) :=
  [("firstnames", describeOption Text.quoted o.firstnames),
    ("lastnames", describeOption Text.quoted o.lastnames),
    ("output", describeOption Text.quoted o.output),
    ("format", describeOption Text.quoted o.format),
    ("config", describeOption Text.quoted o.config),
    ("max_lines", describeOption toString o.maxLines),
    ("max_name_length", describeOption toString o.maxNameLength),
    ("overlong", describeOption describePolicy o.overlong),
    ("strip_cr", describeFlag o.stripCarriageReturn),
    ("verbose", describeFlag o.verbose),
    ("json_logs", describeFlag o.jsonLogs),
    ("monitor", describeFlag o.monitor),
    ("show_version", describeFlag o.showVersion)]

def describe (o : Options) : String :=
  "CliConfig \x7b " ++ ", ".intercalate (o.fields.map fun (name, value) => name ++ ": " ++ value) ++
    " \x7d"

end LoginNames.Options
