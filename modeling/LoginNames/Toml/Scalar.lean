import LoginNames.Toml.Layout
import LoginNames.Toml.Value

/-! # Scalars without quotes

Numbers, truth values, dates and times. Each reader takes the whole word. -/

set_option autoImplicit false

namespace LoginNames.Toml.Scalar

/-- The digits of a number, where an underscore may stand between two of them. -/
def ungrouped (isDigit : Char → Bool) : List Char → Option (List Char)
  | [] => none
  | [c] => if isDigit c then some [c] else none
  | c :: '_' :: rest => if isDigit c then (ungrouped isDigit rest).map (c :: ·) else none
  | c :: rest => if isDigit c then (ungrouped isDigit rest).map (c :: ·) else none

def ofDigits (base : Nat) (digits : List Char) : Nat :=
  digits.foldl (fun n c => n * base + (hexDigit? c).getD 0) 0

def isSign (c : Char) : Bool := c = '+' || c = '-'

def isNegative (text : List Char) : Bool := text.head? = some '-'

def isSigned (text : List Char) : Bool := text.head?.any isSign

def unsigned (text : List Char) : List Char := if isSigned text then text.tail else text

/-- What stands behind the sign of a number. One underscore may follow a sign. -/
def magnitude (text : List Char) : List Char :=
  match isSigned text, unsigned text with
  | true, '_' :: rest => rest
  | _, rest => rest

def withSign (text : List Char) (n : Nat) : Int := if isNegative text then -(n : Int) else n

/-- The digits of a decimal number, which does not start with a zero unless it is one digit. -/
def decimalDigits? (text : List Char) : Option (List Char) :=
  match ungrouped Char.isDigit text with
  | some ('0' :: _ :: _) => none
  | digits => digits

def integer? (text : List Char) : Option Int :=
  let based (base : Nat) (digits : List Char) : Option Int :=
    (ungrouped (fun c => (hexDigit? c).any (· < base)) digits).map fun ds => ofDigits base ds
  match text with
  | '0' :: 'x' :: digits => based 16 digits
  | '0' :: 'o' :: digits => based 8 digits
  | '0' :: 'b' :: digits => based 2 digits
  | _ => (decimalDigits? (magnitude text)).map (withSign text <| ofDigits 10 ·)

/-- Each underscore stands between two digits, which can be hexadecimal. -/
def isJoined (text : List Char) : Bool :=
  text.head? ≠ some '_' && text.getLast? ≠ some '_' &&
    (text.zip text.tail).all fun (a, b) =>
      (b ≠ '_' || (hexDigit? a).isSome) && (a ≠ '_' || (hexDigit? b).isSome)

/-- A base with no digits, or digits with an underscore in them and then anything that makes no
    float of it. A sign counts as a digit before an underscore. -/
def isIllegible (text : List Char) : Bool :=
  if text ∈ [['0', 'x'], ['0', 'o'], ['0', 'b']] then true
  else
    let digits := unsigned text
    let rest := digits.dropWhile Char.isDigit
    rest.head? = some '_' && digits.head? ≠ some '0' &&
      !rest.any (fun c => c = ' ' || c = '.' || c = 'e' || c = 'E') &&
      isJoined (if isSigned text then '0' :: digits else digits)

def isGrouped (c : Char) : Bool := c.isDigit || c = '_'

def fraction? : List Char → Option (List Char × List Char)
  | '.' :: rest =>
    (ungrouped Char.isDigit (rest.takeWhile isGrouped)).map fun digits =>
      (digits, rest.dropWhile isGrouped)
  | text => some ([], text)

def exponent? : List Char → Option Int
  | [] => some 0
  | c :: rest =>
    if c = 'e' ∨ c = 'E' then
      (ungrouped Char.isDigit (unsigned rest)).map (withSign rest <| ofDigits 10 ·)
    else none

def float? (text : List Char) : Option FloatValue :=
  let negative := isNegative text
  let rest := magnitude text
  if unsigned text = ['i', 'n', 'f'] then some (.infinity negative)
  else if unsigned text = ['n', 'a', 'n'] then some (.notANumber negative)
  else do
    let whole ← decimalDigits? (rest.takeWhile isGrouped)
    let after := rest.dropWhile isGrouped
    let (fraction, tail) ← fraction? after
    let exponent ← exponent? tail
    if after = [] then none
    else some (.decimal negative (ofDigits 10 (whole ++ fraction)) (exponent - fraction.length))

def fixed? (width : Nat) (text : List Char) : Option (Nat × List Char) :=
  let digits := text.take width
  if digits.length = width ∧ digits.all Char.isDigit then
    some (ofDigits 10 digits, text.drop width)
  else none

def isLeapYear (year : Nat) : Bool :=
  year % 4 = 0 && (year % 100 ≠ 0 || year % 400 = 0)

def daysIn (year month : Nat) : Nat :=
  if month = 2 then if isLeapYear year then 29 else 28
  else if month = 4 ∨ month = 6 ∨ month = 9 ∨ month = 11 then 30
  else 31

def date? (text : List Char) : Option (List Char) := do
  let (year, rest) ← fixed? 4 text
  let rest ← Layout.expect? '-' rest
  let (month, rest) ← fixed? 2 rest
  let rest ← Layout.expect? '-' rest
  let (day, rest) ← fixed? 2 rest
  if 1 ≤ month ∧ month ≤ 12 ∧ 1 ≤ day ∧ day ≤ daysIn year month then some rest else none

def secondFraction? : List Char → Option (List Char)
  | '.' :: rest =>
    if (rest.takeWhile Char.isDigit).isEmpty then none else some (rest.dropWhile Char.isDigit)
  | text => some text

/-- What follows a time at the start of a text. The seconds may be left out. -/
def time? (text : List Char) : Option (List Char) := do
  let (hour, rest) ← fixed? 2 text
  let rest ← Layout.expect? ':' rest
  let (minute, rest) ← fixed? 2 rest
  if 23 < hour ∨ 59 < minute then none
  else
    match rest with
    | ':' :: rest => do
      let (second, rest) ← fixed? 2 rest
      if 60 < second then none else secondFraction? rest
    | rest => some rest

def isOffset (text : List Char) : Bool :=
  match text with
  | [] => true
  | ['Z'] | ['z'] => true
  | sign :: rest =>
    (sign = '+' || sign = '-') && (do
      let (hours, rest) ← fixed? 2 rest
      let rest ← Layout.expect? ':' rest
      let (minutes, rest) ← fixed? 2 rest
      pure (rest.isEmpty && hours ≤ 23 && minutes ≤ 59)).getD false

def isDateTime (text : List Char) : Bool :=
  match date? text with
  | some [] => true
  | some (separator :: rest) =>
    (separator = 'T' || separator = 't' || separator = ' ') && (time? rest).any isOffset
  | none => time? text = some []

def value? (text : List Char) : Option Value :=
  if text = ['t', 'r', 'u', 'e'] then some (.boolean true)
  else if text = ['f', 'a', 'l', 's', 'e'] then some (.boolean false)
  else if isDateTime text then some (.dateTime (String.ofList text))
  else
    match integer? text with
    | some n => some (.integer n)
    | none => if isIllegible text then some .illegible else (float? text).map .float

end LoginNames.Toml.Scalar
