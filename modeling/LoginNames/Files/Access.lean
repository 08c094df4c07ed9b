import LoginNames.Files.Tree
import LoginNames.IoError
import LoginNames.NameList.Reader

/-! # Access to files

A path is followed name by name from the root or from the working directory. On the way every name
must be that of a directory; what the last name may be depends on what is done. -/

set_option autoImplicit false

namespace LoginNames

namespace FileSystem

def maxNameBytes : Nat := 255

def maxPathBytes : Nat := 4095

/-- Faults that show before anything is looked up. -/
def checkPath (path : Path) : Except IoError Unit :=
  if 0 ∈ path then .error .nulInPath
  else if path = [] then .error .notFound
  else if maxPathBytes < path.length then .error .nameTooLong
  else .ok ()

/-- The place that a name leads to from a directory, if there is anything. -/
def step (fs : FileSystem) (here : Location) (name : Bytes) : Except IoError Location :=
  if name = Path.dot then .ok here
  else if name = Path.dotDot then .ok here.dropLast
  else if maxNameBytes < name.length then .error .nameTooLong
  else
    match fs.node? (here ++ [name]) with
    | some _ => .ok (here ++ [name])
    | none => .error .notFound

def followDirectories (fs : FileSystem) (here : Location) : List Bytes → Except IoError Location
  | [] => .ok here
  | name :: rest =>
    match fs.step here name with
    | .error cause => .error cause
    | .ok there =>
      if fs.isDirectoryAt there then fs.followDirectories there rest
      else .error .notDirectory

def startOf (fs : FileSystem) (path : Path) : Location :=
  if path.isAbsolute then [] else fs.workingDirectory

def locateParent (fs : FileSystem) (path : Path) : Except IoError Location := do
  checkPath path
  fs.followDirectories (fs.startOf path) path.names.dropLast

def locate (fs : FileSystem) (path : Path) : Except IoError Location := do
  let parent ← fs.locateParent path
  match path.names.getLast? with
  | none => .ok parent
  | some name =>
    let there ← fs.step parent name
    if path.endsInSlash && !fs.isDirectoryAt there then .error .notDirectory else .ok there

def isDirectory (fs : FileSystem) (path : Path) : Bool :=
  match fs.locate path with
  | .ok location => fs.isDirectoryAt location
  | .error _ => false

/-- Opens for reading. A directory can be opened, and then fails to be read. -/
def openRead (fs : FileSystem) (path : Path) : Except IoError Source := do
  let location ← fs.locate path
  match fs.node? location with
  | some (.file content) => .ok (Source.ofBytes content)
  | _ => .ok [.failure .isDirectory (by decide)]

def readFile (fs : FileSystem) (path : Path) : Except IoError Bytes := do
  let location ← fs.locate path
  match fs.node? location with
  | some (.file content) => .ok content
  | _ => .error .isDirectory

def readText (fs : FileSystem) (path : Path) : Except IoError String := do
  let content ← fs.readFile path
  match Bytes.text? content with
  | some text => .ok text
  | none => .error .notUtf8

/-- The last name of a path, where it can be the name of a new entry. -/
def entryName? (path : Path) : Option Bytes :=
  match path.names.getLast? with
  | none => none
  | some name => if name = Path.dot ∨ name = Path.dotDot then none else some name

def makeDirectory (fs : FileSystem) (path : Path) : Except IoError FileSystem := do
  let parent ← fs.locateParent path
  match entryName? path with
  | none => .error .alreadyExists
  | some name =>
    if maxNameBytes < name.length then .error .nameTooLong
    else
      match fs.node? (parent ++ [name]) with
      | some _ => .error .alreadyExists
      | none => .ok (fs.set (parent ++ [name]) .directory)

/-- Makes the first of these directories, and the later ones first where it needs them. -/
def makeDirectories (fs : FileSystem) : List Path → FileSystem × Except IoError Unit
  | [] => (fs, .ok ())
  | path :: above =>
    match fs.makeDirectory path with
    | .ok made => (made, .ok ())
    | .error cause =>
      if cause = .notFound then
        match fs.makeDirectories above with
        | (fs, .error cause) => (fs, .error cause)
        | (fs, .ok ()) =>
          match fs.makeDirectory path with
          | .ok made => (made, .ok ())
          | .error cause => (fs, if fs.isDirectory path then .ok () else .error cause)
      else (fs, if fs.isDirectory path then .ok () else .error cause)

def createFile (fs : FileSystem) (path : Path) : Except IoError (FileSystem × Location) := do
  let parent ← fs.locateParent path
  match entryName? path with
  | none => .error .isDirectory
  | some name =>
    if path.endsInSlash then .error .isDirectory
    else if maxNameBytes < name.length then .error .nameTooLong
    else
      let location := parent ++ [name]
      if fs.isDirectoryAt location then .error .isDirectory
      else .ok (fs.set location (.file []), location)

/-- Puts bytes over the start of a file that is open. What it holds behind them, it keeps. -/
def overwrite (fs : FileSystem) (location : Location) (bytes : Bytes) : FileSystem :=
  match fs.node? location with
  | some (.file content) => fs.set location (.file (bytes ++ content.drop bytes.length))
  | _ => fs

def createOutput (fs : FileSystem) (path : Path) : FileSystem × Except IoError Location :=
  match fs.makeDirectories path.ancestors with
  | (fs, .error cause) => (fs, .error cause)
  | (fs, .ok ()) =>
    match fs.createFile path with
    | .error cause => (fs, .error cause)
    | .ok (created, location) => (created, .ok location)

end FileSystem

end LoginNames
