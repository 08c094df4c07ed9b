import LoginNames.Files.Path

/-! # File trees

A file system is a list of the directories and files in it, each under its location: the names on
the way from the root, none of which is a dot. The root is a directory and is not listed. -/

set_option autoImplicit false

namespace LoginNames

abbrev Location := List Bytes

inductive Node
  | directory
  | file (content : Bytes)
deriving DecidableEq

structure FileSystem where
  entries : List (Location × Node) := []
  workingDirectory : Location := []
deriving DecidableEq

namespace FileSystem

def node? (fs : FileSystem) (location : Location) : Option Node :=
  if location = [] then some .directory else fs.entries.lookup location

def isDirectoryAt (fs : FileSystem) (location : Location) : Bool :=
  fs.node? location = some .directory

/-- The entries with one of them set, in its old place or else at the end. -/
def setEntry (location : Location) (node : Node) :
    List (Location × Node) → List (Location × Node)
  | [] => [(location, node)]
  | (l, n) :: rest =>
    if l = location then (l, node) :: rest else (l, n) :: setEntry location node rest

def set (fs : FileSystem) (location : Location) (node : Node) : FileSystem :=
  { fs with entries := setEntry location node fs.entries }

/-- Sets nothing but missing directories on the way to a location, then the location itself. -/
def setWithParents (fs : FileSystem) (location : Location) (node : Node) : FileSystem :=
  let parents := (List.range location.length).map location.take
  let missing := parents.filter fun parent => fs.node? parent = none
  (missing.foldl (fun fs parent => fs.set parent .directory) fs).set location node

def remove (fs : FileSystem) (location : Location) : FileSystem :=
  { fs with entries := fs.entries.filter fun entry => !location.isPrefixOf entry.1 }

/-- Names in the order of their bytes, a directory before its contents. -/
def locationLe : Location → Location → Bool
  | [], _ => true
  | _ :: _, [] => false
  | a :: as, b :: bs => if a = b then locationLe as bs else decide (a < b)

/-- The entries below the working directory, each under the names that lead to it from there. -/
def tree (fs : FileSystem) : List (Location × Node) :=
  let below := fs.entries.filterMap fun entry =>
    match fs.workingDirectory.isPrefixOf? entry.1 with
    | none | some [] => none
    | some relative => some (relative, entry.2)
  below.mergeSort fun a b => locationLe a.1 b.1

end FileSystem

end LoginNames
