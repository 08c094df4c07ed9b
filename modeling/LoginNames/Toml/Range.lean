import LoginNames.Toml.Value

/-! # Numbers in range

A document can spell any number. A value that is read at all has only integers of at most 128 bits
and floats below the largest double. -/

set_option autoImplicit false

namespace LoginNames.Toml

def digitCount (n : Nat) : Nat := (Nat.toDigits 10 n).length

/-- From this number on, half a unit above the largest double, a decimal rounds to infinity. -/
def firstInfinite : Nat := (Nat.pow 2 54 - 1) * Nat.pow 2 970

namespace FloatValue

/-- A number with its leading digit far above or below that of `firstInfinite` is not computed. -/
def inRange : FloatValue → Bool
  | infinity _ | notANumber _ => true
  | decimal _ mantissa exponent =>
    if mantissa = 0 then true
    else
      let places := digitCount mantissa + exponent
      if 310 < places then false
      else if places < 300 then true
      else if 0 ≤ exponent then mantissa * Nat.pow 10 exponent.toNat < firstInfinite
      else mantissa < firstInfinite * Nat.pow 10 (-exponent).toNat

end FloatValue

mutual

def Value.inRange : Value → Bool
  | .integer n => decide (-(2 ^ 127 : Int) ≤ n) && decide (n < 2 ^ 128)
  | .illegible => false
  | .float f => f.inRange
  | .array _ items => Value.allInRange items
  | .table _ entries => Value.entriesInRange entries
  | .string _ | .boolean _ | .dateTime _ => true

def Value.allInRange : List Value → Bool
  | [] => true
  | value :: rest => value.inRange && Value.allInRange rest

def Value.entriesInRange : List (String × Value) → Bool
  | [] => true
  | (_, value) :: rest => value.inRange && Value.entriesInRange rest

end

end LoginNames.Toml
