import LoginNames.Bytes

/-! # Environment variables

The environment is a list of assignments, each a name, an equals sign and a value. `substitute`
replaces the references to variables in a text, from left to right and once: a reference is a
dollar sign and a name in braces, where the name reaches to the first closing brace and is not
empty. Inserted values are not read again, and a reference to a variable that is unset or not text
stays as it is. -/

set_option autoImplicit false

namespace LoginNames

structure Environment where
  assignments : List Bytes

namespace Environment

def equals : UInt8 := 61

def ofPairs (pairs : List (String × Bytes)) : Environment :=
  ⟨pairs.map fun (name, value) => Bytes.ofString name ++ equals :: value⟩

/-- The value of a variable. No assignment has an empty name or a NUL byte. -/
def value? (env : Environment) (name : Bytes) : Option Bytes :=
  if name = [] ∨ 0 ∈ name then none
  else env.assignments.findSome? fun assignment => (name ++ [equals]).isPrefixOf? assignment

def text? (env : Environment) (name : String) : Option String :=
  (env.value? (Bytes.ofString name)).bind Bytes.text?

/-- The name in a reference, and the text behind it, where the text before is a dollar sign and an
    opening brace. -/
def reference? (text : List Char) : Option (List Char × List Char) :=
  match text.takeWhile (· != '}'), text.dropWhile (· != '}') with
  | c :: name, _ :: rest => some (c :: name, rest)
  | _, _ => none

theorem reference?_length {text name rest : List Char} (h : reference? text = some (name, rest)) :
    rest.length < text.length := by
  have hsplit : text.takeWhile (· != '}') ++ text.dropWhile (· != '}') = text :=
    List.takeWhile_append_dropWhile
  have hlength := congrArg List.length hsplit
  rw [List.length_append] at hlength
  simp only [reference?] at h
  split at h
  · rename_i hdrop
    cases h
    rw [hdrop] at hlength
    simp only [List.length_cons] at hlength
    omega
  · cases h

/-- The text of a reference: its value where it has one, or the reference as it is spelled. -/
def expansion (lookup : String → Option String) (name : List Char) : List Char :=
  match lookup (String.ofList name) with
  | some value => value.toList
  | none => '$' :: '{' :: name ++ ['}']

def substituteChars (lookup : String → Option String) : List Char → List Char
  | [] => []
  | '$' :: '{' :: text =>
    match _h : reference? text with
    | some (name, rest) => expansion lookup name ++ substituteChars lookup rest
    | none => '$' :: substituteChars lookup ('{' :: text)
  | c :: text => c :: substituteChars lookup text
termination_by text => text.length
decreasing_by
  · have := reference?_length _h
    simp only [List.length_cons]
    omega
  · simp
  · simp

def substitute (lookup : String → Option String) (text : String) : String :=
  String.ofList (substituteChars lookup text.toList)

/-- The names in the references of a text, in the order in which they are replaced. -/
def references : List Char → List (List Char)
  | [] => []
  | '$' :: '{' :: text =>
    match _h : reference? text with
    | some (name, rest) => name :: references rest
    | none => references ('{' :: text)
  | _ :: text => references text
termination_by text => text.length
decreasing_by
  · have := reference?_length _h
    simp only [List.length_cons]
    omega
  · simp
  · simp

end Environment

end LoginNames
