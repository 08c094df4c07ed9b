import LoginNames.Failure
import LoginNames.Log
import LoginNames.NameList
import LoginNames.NameList.Reader

/-! # Loading a name list

Each line of a source is one name. A carriage return before the newline can be dropped first; a
line that is then longer than the limit is cut to it, with a log entry, or stops the load. -/

set_option autoImplicit false

namespace LoginNames

inductive Overlong
  | truncate
  | reject
deriving DecidableEq

def Overlong.word : Overlong → String
  | truncate => "truncate"
  | reject => "reject"

def Overlong.ofWord? (word : String) : Option Overlong :=
  if word = "truncate" then some .truncate
  else if word = "reject" then some .reject
  else none

def defaultMaxLength : Nat := 99

structure LoadOptions where
  maxLength : Nat := defaultMaxLength
  overlong : Overlong := .truncate
  stripCarriageReturn : Bool := false
deriving DecidableEq

/-- The length of the line and the bytes kept of it, without a stripped carriage return. -/
def LoadOptions.payload (options : LoadOptions) (line : OpenLine) : Nat × Bytes :=
  if options.stripCarriageReturn ∧ line.last = some Bytes.carriageReturn then
    (line.length - 1, line.kept.toList.take (line.length - 1))
  else (line.length, line.kept.toList)

def truncationEntry (number length max : Nat) : LogEntry :=
  ⟨.debug, s!"Line {number} is {length} bytes, truncating to {max}"⟩

def LoadOptions.name (options : LoadOptions) (number : Nat) (line : OpenLine) :
    Except Failure (Bytes × Log) :=
  let (length, kept) := options.payload line
  if length ≤ options.maxLength then .ok (kept, [])
  else
    match options.overlong with
    | .truncate =>
      .ok (kept.take options.maxLength, [truncationEntry number length options.maxLength])
    | .reject => .error (.nameTooLong number length options.maxLength)

structure Loaded where
  result : Except Failure NameList
  log : Log

/-- Continues a load that has read the given names and logged the given entries, latest first. -/
def loadFrom (options : LoadOptions) (names : List Bytes) (number : Nat) (log : Log)
    (source : Source) : Loaded :=
  match _h : readLine (options.maxLength + 1) .empty source with
  | .finished => ⟨.ok names.reverse, log.reverse⟩
  | .failed cause => ⟨.error (.io cause), log.reverse⟩
  | .line line rest =>
    match options.name number line with
    | .error failure => ⟨.error failure, log.reverse⟩
    | .ok (name, entries) => loadFrom options (name :: names) (number + 1) (entries ++ log) rest
termination_by source.weight
decreasing_by exact weight_lt_of_readLine_empty _h

def load (options : LoadOptions) (source : Source) : Loaded := loadFrom options [] 1 [] source

end LoginNames
