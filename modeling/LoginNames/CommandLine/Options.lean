import LoginNames.Numeral
import LoginNames.Settings

/-! # Options of the command line

Some switches take a value and some are flags. Each has a long name, and some a letter. `Options`
is what a command line sets. -/

set_option autoImplicit false

namespace LoginNames

structure Options where
  firstnames : Option String := none
  lastnames : Option String := none
  output : Option String := none
  format : Option String := none
  config : Option String := none
  maxLines : Option Nat := none
  maxNameLength : Option Nat := none
  overlong : Option Overlong := none
  stripCarriageReturn : Bool := false
  verbose : Bool := false
  jsonLogs : Bool := false
  monitor : Bool := false
  showVersion : Bool := false
deriving DecidableEq

namespace Options

/-- A flag can switch a setting on but not off. -/
def toOverrides (o : Options) : Overrides where
  firstnames := o.firstnames
  lastnames := o.lastnames
  output := o.output
  format := o.format
  maxLines := o.maxLines
  maxNameLength := o.maxNameLength
  overlong := o.overlong
  stripCarriageReturn := if o.stripCarriageReturn then some true else none
  monitoring := if o.monitor then some true else none

end Options

inductive ValueSwitch
  | firstnames
  | lastnames
  | output
  | format
  | config
  | maxLines
  | maxNameLength
  | overlong
deriving DecidableEq

inductive FlagSwitch
  | stripCarriageReturn
  | verbose
  | jsonLogs
  | monitor
  | version
deriving DecidableEq

inductive Switch
  | value (switch : ValueSwitch)
  | flag (switch : FlagSwitch)
  | help
deriving DecidableEq

namespace Switch

def all : List Switch :=
  [value .firstnames, value .lastnames, value .output, value .format, value .config,
    value .maxLines, value .maxNameLength, value .overlong, flag .stripCarriageReturn,
    flag .verbose, flag .jsonLogs, flag .monitor, flag .version, help]

def name : Switch → String
  | value .firstnames => "firstnames"
  | value .lastnames => "lastnames"
  | value .output => "output"
  | value .format => "format"
  | value .config => "config"
  | value .maxLines => "max-lines"
  | value .maxNameLength => "max-name-length"
  | value .overlong => "overlong"
  | flag .stripCarriageReturn => "strip-cr"
  | flag .verbose => "verbose"
  | flag .jsonLogs => "json-logs"
  | flag .monitor => "monitor"
  | flag .version => "version"
  | help => "help"

def letter? : Switch → Option Char
  | value .firstnames => some 'F'
  | value .lastnames => some 'L'
  | value .output => some 'o'
  | value .format => some 'f'
  | value .config => some 'c'
  | flag .version => some 'v'
  | help => some 'h'
  | _ => none

def ofName? (name : Bytes) : Option Switch := all.find? fun s => Bytes.ofString s.name == name

def ofLetter? (letter : UInt8) : Option Switch :=
  all.find? fun s => s.letter?.map Char.toUInt8 == some letter

end Switch

end LoginNames
