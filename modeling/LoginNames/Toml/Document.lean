import LoginNames.Toml.Assembly
import LoginNames.Toml.Scalar

/-! # Reading a TOML document

`parse` gives the table that a document spells, or its first fault. A layout that is wrong anywhere
comes first; after that the lines are read in order, and in each line the keys before the value. The
elements of an array that grows by headers are added as they are complete. -/

set_option autoImplicit false

namespace LoginNames.Toml

inductive Fault
  | malformed
  | tooManyKeys
deriving DecidableEq

def Fault.check {α : Type} : Option α → Except Fault α
  | some a => .ok a
  | none => .error .malformed

def maxKeys : Nat := 80

namespace Piece

def isBare (c : Char) : Bool := c.isAlphanum || c = '_' || c = '-'

def key? : Piece → Option String
  | word text => if text ≠ [] ∧ text.all isBare then some (String.ofList text) else none
  | quoted text false => text.map String.ofList
  | quoted _ true => none

def value? : Piece → Option Value
  | word text => Scalar.value? text
  | quoted text _ => text.map (.string <| String.ofList ·)

end Piece

def KeyPath.ofPieces (pieces : List Piece) : Except Fault KeyPath := do
  let keys ← Fault.check (pieces.mapM Piece.key?)
  let last ← Fault.check keys.getLast?
  if maxKeys < keys.length then .error .tooManyKeys else .ok ⟨keys.dropLast, last⟩

mutual

def Node.value : Node → Except Fault Value
  | .scalar piece => Fault.check piece.value?
  | .array items => do
    let values ← Node.values items
    .ok (.array .listed values)
  | .table entries => do
    let made ← Node.assign [] entries
    .ok (.table .inline made)

def Node.values : List Node → Except Fault (List Value)
  | [] => .ok []
  | node :: rest => do
    let value ← node.value
    let values ← Node.values rest
    .ok (value :: values)

/-- Sets the entries of a table in braces, in order. -/
def Node.assign (made : Entries) : List (List Piece × Node) → Except Fault Entries
  | [] => .ok made
  | (keys, node) :: rest => do
    let path ← KeyPath.ofPieces keys
    let value ← node.value
    let made ← Fault.check (made.assign .inline path value)
    Node.assign made rest

end

/-- The table that the lines under a header go into. -/
inductive Opened
  | table (path : List String)
  | element (path : KeyPath) (entries : Entries)

/-- A document under way: what is complete, and what the last header opened. -/
structure Document where
  root : Entries
  opened : Opened

namespace Document

def empty : Document := ⟨[], .table []⟩

def close (d : Document) : Except Fault Entries :=
  match d.opened with
  | .table _ => .ok d.root
  | .element path entries => Fault.check (Entries.addElement path entries d.root)

def set (path : KeyPath) (value : Value) (d : Document) : Option Document :=
  match d.opened with
  | .table inside =>
    (d.root.changeOpen (Entries.assign .headed path value) inside).map fun root =>
      ⟨root, d.opened⟩
  | .element header entries =>
    (entries.assign .headed path value).map fun entries => ⟨d.root, .element header entries⟩

def apply (d : Document) : Line → Except Fault Document
  | .header keys => do
    let root ← d.close
    let path ← KeyPath.ofPieces keys
    let root ← Fault.check (root.openTable path)
    .ok ⟨root, .table (path.parents ++ [path.last])⟩
  | .elementHeader keys => do
    let root ← d.close
    let path ← KeyPath.ofPieces keys
    .ok ⟨root, .element path []⟩
  | .entry keys node => do
    let path ← KeyPath.ofPieces keys
    let value ← node.value
    Fault.check (d.set path value)

end Document

def parse (text : String) : Except Fault Entries := do
  let lines ← Fault.check (Layout.ofText? text)
  let document ← lines.foldlM Document.apply Document.empty
  document.close

end LoginNames.Toml
