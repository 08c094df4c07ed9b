import LoginNames.Environment
import LoginNames.Log
import LoginNames.Text.Quoted

/-! # What the console shows

Log entries and messages to the user go to one stream in order. Entries that do not pass the chosen
filter are left out. An entry is shown as one line of JSON, or as plain text, where a message over
several lines takes several lines and control characters are written as escapes. -/

set_option autoImplicit false

namespace LoginNames

inductive ConsoleItem
  | entry (entry : LogEntry)
  | message (text : String)
deriving DecidableEq

namespace Threshold

/-- An entry is shown from this rank on. -/
abbrev Rank := Nat

def off : Rank := 6

def trace : Rank := 1

/-- The least rank for a level by name or by number; no name at all stands for errors only. -/
def ofText? (text : String) : Option Rank :=
  match (String.ofList (text.toList.map Char.toLower)) with
  | "" => some Level.error.rank
  | "off" | "0" => some off
  | "error" | "1" => some Level.error.rank
  | "warn" | "2" => some Level.warn.rank
  | "info" | "3" => some Level.info.rank
  | "debug" | "4" => some Level.debug.rank
  | "trace" | "5" => some trace
  | _ => none

end Threshold

/-- Which entries are shown. -/
abbrev LogFilter := LogEntry → Bool

namespace LogFilter

def atLeast (rank : Threshold.Rank) : LogFilter := fun e => rank ≤ e.level.rank

/-- A text that is a level and nothing more. -/
def ofLevel? (text : String) : Option LogFilter := (Threshold.ofText? text).map atLeast

def variableName : String := "RUST_LOG"

/-- The environment decides if its text can be read, and else whether more is asked for. -/
def choose (read : String → Option LogFilter) (env : Environment) (verbose : Bool) : LogFilter :=
  match (env.text? variableName).bind read with
  | some filter => filter
  | none => atLeast (if verbose then Level.debug.rank else Level.info.rank)

end LogFilter

namespace ConsoleItem

def isShown (filter : LogFilter) : ConsoleItem → Bool
  | entry e => filter e
  | message _ => true

end ConsoleItem

inductive ConsoleLine
  | entry (json : Bool) (entry : LogEntry)
  | text (text : String)
deriving DecidableEq

namespace ConsoleLine

def twoDigits (n : Nat) : List Char :=
  if n < 16 then '0' :: Text.hexadecimal n else Text.hexadecimal n

/-- The control characters by which a terminal could be steered. -/
def escaped (c : Char) : List Char :=
  let n := c.toNat
  if n = 0x07 ∨ n = 0x08 ∨ n = 0x0C ∨ n = 0x1B ∨ n = 0x7F then '\\' :: 'x' :: twoDigits n
  else if 0x80 ≤ n ∧ n ≤ 0x9F then '\\' :: 'u' :: '{' :: Text.hexadecimal n ++ ['}']
  else [c]

def split (text : List Char) : List (List Char) :=
  text.foldr (fun c lines =>
    if c = '\n' then [] :: lines
    else
      match lines with
      | [] => [[c]]
      | line :: rest => (c :: line) :: rest) [[]]

def ofItem (json : Bool) : ConsoleItem → List ConsoleLine
  | .entry e =>
    if json then [.entry true e]
    else
      match split (e.message.toList.flatMap escaped) with
      | [] => []
      | first :: rest =>
        .entry false ⟨e.level, String.ofList first⟩ ::
          rest.map fun line => ConsoleLine.text (String.ofList line)
  | .message m => (split m.toList).map fun line => ConsoleLine.text (String.ofList line)

def jsonChar (c : Char) : List Char :=
  match c with
  | '"' => ['\\', '"']
  | '\\' => ['\\', '\\']
  | '\n' => ['\\', 'n']
  | '\r' => ['\\', 'r']
  | '\t' => ['\\', 't']
  | c => if c < ' ' then '\\' :: 'u' :: '0' :: '0' :: twoDigits c.toNat else [c]

def jsonString (s : String) : String :=
  String.ofList ('"' :: s.toList.flatMap jsonChar ++ ['"'])

def render : ConsoleLine → String
  | .entry true e =>
    "\x7b\"level\":" ++ jsonString e.level.word ++ ",\"fields\":\x7b\"message\":" ++
      jsonString e.message ++ "\x7d\x7d"
  | .entry false e => e.level.word ++ " " ++ e.message
  | .text s => s

end ConsoleLine

end LoginNames
