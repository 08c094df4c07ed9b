import LoginNames.Failure

/-! # Checks on single settings

Each check names the field that it is about and, where it fails, the value that it found. -/

set_option autoImplicit false

namespace LoginNames.Check

def path (field value : String) : Except Failure Unit :=
  if value = "" then .error (.invalidValue field value "Path cannot be empty")
  else if '\x00' ∈ value.toList then .error (.invalidValue field value "Path contains null bytes")
  else .ok ()

def atLeast (field : String) (value min : Nat) : Except Failure Unit :=
  if value < min then
    .error (.invalidValue field (toString value) s!"Value must be at least {min}")
  else .ok ()

def within (field : String) (value min max : Int) : Except Failure Unit :=
  if value < min ∨ max < value then
    .error (.invalidValue field (toString value) s!"Value must be between {min} and {max}")
  else .ok ()

def required {α : Type} (field : String) : Option α → Except Failure α
  | some value => .ok value
  | none => .error (.missingSetting field)

end LoginNames.Check
