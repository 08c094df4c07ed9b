import LoginNames.Environment
import LoginNames.Numeral
import LoginNames.Settings
import LoginNames.Toml.Document
import LoginNames.Toml.Range

/-! # Profiles

A profile is a TOML document with settings in three tables. Its text is read after the references
to environment variables in it are replaced. The entries of a table are read in the order of their
keys, and the first fault stops the reading. -/

set_option autoImplicit false

namespace LoginNames

structure ProfileInput where
  firstnames : Option String := none
  lastnames : Option String := none
  maxNameLength : Option Nat := none
  overlong : Option Overlong := none
  stripCarriageReturn : Option Bool := none
deriving DecidableEq

structure ProfileOutput where
  path : Option String := none
  format : Option String := none
  maxLines : Option Nat := none
deriving DecidableEq

structure Profile where
  input : ProfileInput := {}
  output : ProfileOutput := {}
  monitoring : Option Bool := none
deriving DecidableEq

namespace Profile

def toOverrides (p : Profile) : Overrides where
  firstnames := p.input.firstnames
  lastnames := p.input.lastnames
  output := p.output.path
  format := p.output.format
  maxLines := p.output.maxLines
  maxNameLength := p.input.maxNameLength
  overlong := p.input.overlong
  stripCarriageReturn := p.input.stripCarriageReturn
  monitoring := p.monitoring

namespace Decode

open Toml (Value Entries)

def text : Value → Except ProfileFault String
  | .string s => .ok s
  | _ => .error .mismatch

def number : Value → Except ProfileFault Nat
  | .integer (.ofNat n) => if n ≤ Numeral.maxWord then .ok n else .error .mismatch
  | _ => .error .mismatch

def truth : Value → Except ProfileFault Bool
  | .boolean b => .ok b
  | _ => .error .mismatch

def policyWords : List String := ["truncate", "reject"]

def policyWord (word : String) : Except ProfileFault Overlong :=
  match Overlong.ofWord? word with
  | some policy => .ok policy
  | none => .error (.unknownVariant word policyWords)

/-- A policy is a word, or the one key of a table with nothing in it. -/
def policy : Value → Except ProfileFault Overlong
  | .string word => policyWord word
  | .table _ [(word, content)] => do
    let policy ← policyWord word
    match content with
    | .table _ [] | .array _ [] => .ok policy
    | _ => .error .mismatch
  | _ => .error .mismatch

/-- The key under which a date or time stands where a table is expected. -/
def dateTimeKey : String := "$__toml_private_datetime"

/-- Reads a table key by key with `set`. An array holds the values of the fields in their order
    and may hold more. -/
def record {α : Type} (fields : List String) (set : String → Value → α → Except ProfileFault α)
    (start : α) : Value → Except ProfileFault α
  | .table _ entries => (Toml.Entries.sorted entries).foldlM (fun a (key, value) => set key value a) start
  | .array _ items => do
    let a ← (fields.zip items).foldlM (fun a (key, value) => set key value a) start
    if items.length < fields.length then .error .mismatch else .ok a
  | .dateTime text => set dateTimeKey (.string text) start
  | _ => .error .mismatch

def inputFields : List String :=
  ["firstnames", "lastnames", "max_name_length", "overlong", "strip_carriage_return"]

def setInput (key : String) (value : Value) (p : ProfileInput) :
    Except ProfileFault ProfileInput :=
  match key with
  | "firstnames" => (text value).map fun s => { p with firstnames := some s }
  | "lastnames" => (text value).map fun s => { p with lastnames := some s }
  | "max_name_length" => (number value).map fun n => { p with maxNameLength := some n }
  | "overlong" => (policy value).map fun o => { p with overlong := some o }
  | "strip_carriage_return" => (truth value).map fun b => { p with stripCarriageReturn := some b }
  | _ => .error (.unknownField key inputFields)

def outputFields : List String := ["path", "format", "max_lines"]

def setOutput (key : String) (value : Value) (p : ProfileOutput) :
    Except ProfileFault ProfileOutput :=
  match key with
  | "path" => (text value).map fun s => { p with path := some s }
  | "format" => (text value).map fun s => { p with format := some s }
  | "max_lines" => (number value).map fun n => { p with maxLines := some n }
  | _ => .error (.unknownField key outputFields)

/-- Other keys are passed over once their numbers are found in range. -/
def setMonitoring (key : String) (value : Value) (enabled : Option Bool) :
    Except ProfileFault (Option Bool) :=
  match key with
  | "enabled" => (truth value).map some
  | _ => if value.inRange then .ok enabled else .error .mismatch

def monitoring (value : Value) : Except ProfileFault Bool := do
  match ← record ["enabled"] setMonitoring none value with
  | some enabled => .ok enabled
  | none => .error (.missingField "enabled")

def profileFields : List String := ["input", "output", "monitoring"]

def setProfile (key : String) (value : Value) (p : Profile) : Except ProfileFault Profile :=
  match key with
  | "input" => (record inputFields setInput {} value).map fun input => { p with input }
  | "output" => (record outputFields setOutput {} value).map fun output => { p with output }
  | "monitoring" => (monitoring value).map fun b => { p with monitoring := some b }
  | _ => .error (.unknownField key profileFields)

end Decode

def ofToml (entries : Toml.Entries) : Except ProfileFault Profile :=
  (Toml.Entries.sorted entries).foldlM (fun p (key, value) => Decode.setProfile key value p) {}

def parse (lookup : String → Option String) (text : String) : Except ProfileFault Profile :=
  match Toml.parse (Environment.substitute lookup text) with
  | .error .malformed => .error .malformed
  | .error .tooManyKeys => .error .tooManyKeys
  | .ok entries => ofToml entries

end Profile

end LoginNames
