/-! # TOML values

A table remembers how it came about, and an array whether it is written out or grows by headers,
because later lines of a document may extend only some of them. -/

set_option autoImplicit false

namespace LoginNames.Toml

/-- A float as it is written; `decimal` is the mantissa times ten to the exponent. -/
inductive FloatValue
  | infinity (negative : Bool)
  | notANumber (negative : Bool)
  | decimal (negative : Bool) (mantissa : Nat) (exponent : Int)
deriving DecidableEq

inductive TableKind
  /-- A table named only on the way to another. -/
  | implied
  /-- A table that stands before a dot in a key. -/
  | dotted
  /-- A table with a header, or the document itself. -/
  | headed
  /-- A table written out in braces. -/
  | inline
deriving DecidableEq

inductive ArrayKind
  | listed
  | headed
deriving DecidableEq

inductive Value
  | string (text : String)
  | integer (value : Int)
  /-- A word that begins as an integer and stands for none. It is refused only where it is read. -/
  | illegible
  | float (value : FloatValue)
  | boolean (value : Bool)
  | dateTime (text : String)
  | array (kind : ArrayKind) (items : List Value)
  | table (kind : TableKind) (entries : List (String × Value))

/-- The entries of a table, the latest first. -/
abbrev Entries := List (String × Value)

def Entries.sorted (entries : Entries) : Entries := entries.mergeSort fun a b => !decide (b.1 < a.1)

/-- A key with the keys before its dots. -/
structure KeyPath where
  parents : List String
  last : String
deriving DecidableEq

end LoginNames.Toml
