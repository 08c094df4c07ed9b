import LoginNames.CommandLine.Options

/-! # Reading a command line

The arguments are read from left to right. A switch with a value takes it from the same argument or
from the next one; such a switch stays pending until the next switch, so that an argument that fits
nowhere is found before a value that is wrong. Every switch is given once. -/

set_option autoImplicit false

namespace LoginNames

inductive UsageFault
  | unknownArgument
  | invalidValue
  | valueOutOfRange
  | repeated
  | unexpectedValue
  | notUtf8
deriving DecidableEq

/-- What ends the reading of the arguments early. -/
inductive Interruption
  | help (long : Bool)
  | fault (fault : UsageFault)
deriving DecidableEq

namespace CommandLine

def hyphen : UInt8 := 45

def equals : UInt8 := 61

def text (value : Bytes) : Except UsageFault String :=
  match Bytes.text? value with
  | some s => .ok s
  | none => .error .notUtf8

/-- A plus sign may stand before the digits. -/
def number (value : Bytes) : Except UsageFault Nat := do
  let _ ← text value
  let digits := match value with
    | 43 :: digits => digits
    | digits => digits
  if digits ≠ [] ∧ digits.all Numeral.isDigit ∧ Numeral.ofBytes digits ≤ Numeral.maxWord then
    .ok (Numeral.ofBytes digits)
  else .error .valueOutOfRange

def policy (value : Bytes) : Except UsageFault Overlong :=
  match (Bytes.text? value).bind Overlong.ofWord? with
  | some policy => .ok policy
  | none => .error .invalidValue

def setValue (switch : ValueSwitch) (value : Bytes) (o : Options) : Except UsageFault Options :=
  match switch with
  | .firstnames => (text value).map fun s => { o with firstnames := some s }
  | .lastnames => (text value).map fun s => { o with lastnames := some s }
  | .output => (text value).map fun s => { o with output := some s }
  | .format => (text value).map fun s => { o with format := some s }
  | .config => (text value).map fun s => { o with config := some s }
  | .maxLines => (number value).map fun n => { o with maxLines := some n }
  | .maxNameLength => (number value).map fun n => { o with maxNameLength := some n }
  | .overlong => (policy value).map fun p => { o with overlong := some p }

def setFlag (switch : FlagSwitch) (o : Options) : Options :=
  match switch with
  | .stripCarriageReturn => { o with stripCarriageReturn := true }
  | .verbose => { o with verbose := true }
  | .jsonLogs => { o with jsonLogs := true }
  | .monitor => { o with monitor := true }
  | .version => { o with showVersion := true }

/-- What is read so far: the options set, the switches that set them, and the switch that is
    pending with its value, if it has one. -/
structure Progress where
  options : Options := {}
  seen : List Switch := []
  pending : Option (ValueSwitch × Option Bytes) := none

namespace Progress

def fail {α : Type} (fault : UsageFault) : Except Interruption α := .error (.fault fault)

def applyValue (p : Progress) (switch : ValueSwitch) (value : Bytes) :
    Except Interruption Progress :=
  if .value switch ∈ p.seen then fail .repeated
  else
    match setValue switch value p.options with
    | .error fault => fail fault
    | .ok options => .ok { p with options, seen := .value switch :: p.seen }

def settle (p : Progress) : Except Interruption Progress :=
  match p.pending with
  | none => .ok p
  | some (_, none) => fail .invalidValue
  | some (switch, some value) => { p with pending := none }.applyValue switch value

def takeFlag (p : Progress) (switch : FlagSwitch) : Except Interruption Progress := do
  let p ← p.settle
  if .flag switch ∈ p.seen then fail .repeated
  else .ok { p with options := setFlag switch p.options, seen := .flag switch :: p.seen }

def takeValue (p : Progress) (switch : ValueSwitch) (value : Bytes) :
    Except Interruption Progress := do
  let p ← p.settle
  p.applyValue switch value

def await (p : Progress) (switch : ValueSwitch) : Except Interruption Progress := do
  let p ← p.settle
  .ok { p with pending := some (switch, none) }

def askHelp (p : Progress) (long : Bool) : Except Interruption Progress := do
  let _ ← p.settle
  .error (.help long)

/-- The argument behind two hyphens: a name, perhaps with an equals sign and a value. -/
def takeLong (p : Progress) (argument : Bytes) : Except Interruption Progress :=
  let name := argument.takeWhile (· != equals)
  match Switch.ofName? name, argument.dropWhile (· != equals) with
  | none, _ => fail .unknownArgument
  | some (.value switch), [] => p.await switch
  | some (.value switch), _ :: value => p.takeValue switch value
  | some (.flag switch), [] => p.takeFlag switch
  | some .help, [] => p.askHelp true
  | some _, _ :: _ => fail .unexpectedValue

/-- The letters behind one hyphen. What follows a letter with a value is its value. -/
def takeLetters (p : Progress) : Bytes → Except Interruption Progress
  | [] => .ok p
  | letter :: rest =>
    match Switch.ofLetter? letter with
    | none => fail .unknownArgument
    | some .help => p.askHelp false
    | some (.flag switch) => do
      let p ← p.takeFlag switch
      p.takeLetters rest
    | some (.value switch) =>
      match rest with
      | [] => p.await switch
      | c :: value => p.takeValue switch (if c = equals then value else c :: value)

/-- An argument that is not a switch is the value of the pending one, if it needs it. -/
def takeOperand (p : Progress) (argument : Bytes) : Except Interruption Progress :=
  match p.pending with
  | some (switch, none) => .ok { p with pending := some (switch, some argument) }
  | _ => fail .unknownArgument

/-- Two hyphens end the switches, and nothing may follow. -/
def takeAll (p : Progress) : List Bytes → Except Interruption Progress
  | [] => p.settle
  | [45, 45] :: rest =>
    match rest with
    | [] => p.settle
    | _ :: _ => fail .unknownArgument
  | argument :: rest => do
    let p ← match argument with
      | 45 :: 45 :: long => p.takeLong long
      | 45 :: letter :: letters => p.takeLetters (letter :: letters)
      | operand => p.takeOperand operand
    p.takeAll rest

end Progress

def parse (arguments : List Bytes) : Except Interruption Options :=
  (Progress.takeAll {} arguments).map Progress.options

end CommandLine

end LoginNames
