import LoginNames.NameList.Loader
import LoginNames.Settings.Check

/-! # Settings

Each source of settings, the command line or a profile, sets some of them. Sources are merged with
`or`, where the earlier one wins, and `resolve` fills in the defaults and checks the result. -/

set_option autoImplicit false

namespace LoginNames

structure Overrides where
  firstnames : Option String := none
  lastnames : Option String := none
  output : Option String := none
  format : Option String := none
  maxLines : Option Nat := none
  maxNameLength : Option Nat := none
  overlong : Option Overlong := none
  stripCarriageReturn : Option Bool := none
  monitoring : Option Bool := none
deriving DecidableEq

def Overrides.or (a b : Overrides) : Overrides where
  firstnames := a.firstnames.or b.firstnames
  lastnames := a.lastnames.or b.lastnames
  output := a.output.or b.output
  format := a.format.or b.format
  maxLines := a.maxLines.or b.maxLines
  maxNameLength := a.maxNameLength.or b.maxNameLength
  overlong := a.overlong.or b.overlong
  stripCarriageReturn := a.stripCarriageReturn.or b.stripCarriageReturn
  monitoring := a.monitoring.or b.monitoring

structure Settings where
  firstnames : String
  lastnames : String
  output : String
  format : String
  maxLines : Option Nat
  loading : LoadOptions
  monitoring : Bool
deriving DecidableEq

namespace Settings

def maxNameLengthLimit : Nat := 65536

/-- Paths first, then the numbers. -/
def check (s : Settings) : Except Failure Unit := do
  Check.path "firstnames" s.firstnames
  Check.path "lastnames" s.lastnames
  Check.path "output" s.output
  match s.maxLines with
  | some lines => Check.atLeast "max_lines" lines 1
  | none => .ok ()
  Check.within "max_name_length" s.loading.maxLength 1 maxNameLengthLimit

def resolve (o : Overrides) : Except Failure Settings := do
  let firstnames ← Check.required "firstnames" o.firstnames
  let lastnames ← Check.required "lastnames" o.lastnames
  let output ← Check.required "output" o.output
  let format ← Check.required "format" o.format
  let settings : Settings := {
    firstnames, lastnames, output, format
    maxLines := o.maxLines
    loading := {
      maxLength := o.maxNameLength.getD defaultMaxLength
      overlong := o.overlong.getD .truncate
      stripCarriageReturn := o.stripCarriageReturn.getD false }
    monitoring := o.monitoring.getD false }
  settings.check
  pure settings

end Settings

end LoginNames
