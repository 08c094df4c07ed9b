import LoginNames.Toml.Value

/-! # Putting tables together

The lines of a document are put into one table in order. A key is set once. A table has one header;
the tables on the way to it need none, and may get one later. A table made by dotted keys is
extended by dotted keys only, and one written in braces not at all. A path through an array that
grows by headers leads into its last table. -/

set_option autoImplicit false

namespace LoginNames.Toml

namespace Entries

def replace (key : String) (value : Value) (entries : Entries) : Entries :=
  entries.map fun entry => if entry.1 = key then (key, value) else entry

/-- Changes the table at the end of a path by `change`, which is told how that table came about.
    A table that is missing on the way is made, as `made` says. -/
def extendAt (made : TableKind) (change : TableKind → Entries → Option Entries) :
    List String → TableKind → Entries → Option Entries
  | [], kind, entries => change kind entries
  | key :: path, _, entries =>
    match entries.lookup key with
    | none =>
      (extendAt made change path made []).map fun inner => (key, .table made inner) :: entries
    | some (.table kind inner) =>
      if kind = .inline ∨ (made = .dotted ∧ kind = .headed) then none
      else
        (extendAt made change path kind inner).map fun inner =>
          entries.replace key (.table kind inner)
    | some (.array .headed items) =>
      match items.getLast? with
      | some (.table kind inner) =>
        (extendAt made change path kind inner).map fun inner =>
          entries.replace key (.array .headed (items.dropLast ++ [.table kind inner]))
      | _ => none
    | some _ => none

def setNew (key : String) (value : Value) (entries : Entries) : Option Entries :=
  match entries.lookup key with
  | none => some ((key, value) :: entries)
  | some _ => none

/-- Sets a dotted or plain key in a table of the given kind. A plain key does not go into a table
    made by dotted keys, and a dotted key goes into no other. -/
def assign (kind : TableKind) (path : KeyPath) (value : Value) (entries : Entries) :
    Option Entries :=
  extendAt .dotted (fun kind entries =>
      if (kind == .dotted) = path.parents.isEmpty then none
      else entries.setNew path.last value)
    path.parents kind entries

def openTable (path : KeyPath) (entries : Entries) : Option Entries :=
  extendAt .implied (fun _ entries =>
      match entries.lookup path.last with
      | none => some ((path.last, .table .headed []) :: entries)
      | some (.table .implied inner) => some (entries.replace path.last (.table .headed inner))
      | some _ => none)
    path.parents .headed entries

def addElement (path : KeyPath) (element : Entries) (entries : Entries) : Option Entries :=
  extendAt .implied (fun _ entries =>
      match entries.lookup path.last with
      | none => some ((path.last, .array .headed [.table .headed element]) :: entries)
      | some (.array .headed items) =>
        some (entries.replace path.last (.array .headed (items ++ [.table .headed element])))
      | some _ => none)
    path.parents .headed entries

/-- Changes the table that the last header opened. -/
def changeOpen (change : Entries → Option Entries) : List String → Entries → Option Entries
  | [], entries => change entries
  | key :: path, entries =>
    match entries.lookup key with
    | some (.table kind inner) =>
      (changeOpen change path inner).map fun inner => entries.replace key (.table kind inner)
    | some (.array kind items) =>
      match items.getLast? with
      | some (.table tableKind inner) =>
        (changeOpen change path inner).map fun inner =>
          entries.replace key (.array kind (items.dropLast ++ [.table tableKind inner]))
      | _ => none
    | _ => none

end Entries

end LoginNames.Toml
