import LoginNames.Bytes

/-! # Paths

A path is a byte string cut by slashes. `names` are the names to follow when it is looked up, and
`ancestors` are the paths above it as they are spelled, the nearest first. -/

set_option autoImplicit false

namespace LoginNames

abbrev Path := Bytes

namespace Path

def dot : Bytes := [46]

def dotDot : Bytes := [46, 46]

/-- The pieces between slashes; there is one more of them than of slashes. -/
def pieces : Path → List Bytes
  | [] => [[]]
  | b :: rest =>
    if b = Bytes.slash then [] :: pieces rest
    else
      match pieces rest with
      | [] => [[b]]
      | piece :: more => (b :: piece) :: more

def join (pieces : List Bytes) : Path := [Bytes.slash].intercalate pieces

def isAbsolute (path : Path) : Bool := path.head? = some Bytes.slash

def endsInSlash (path : Path) : Bool := path.getLast? = some Bytes.slash

def names (path : Path) : List Bytes := path.pieces.filter (· ≠ [])

/-- A piece that spells no step: nothing between two slashes, or a dot. -/
def isIdle (piece : Bytes) : Bool := piece = [] || piece = dot

/-- The paths above the one with this first piece and these further pieces, the last one first. -/
def ancestorsFrom (first : Bytes) : List Bytes → List Path
  | [] => []
  | _ :: above =>
    let kept := above.dropWhile isIdle
    (if first = [] ∧ kept = [] then [Bytes.slash] else join (first :: kept.reverse)) ::
      ancestorsFrom first kept
termination_by above => above.length
decreasing_by
  have := (List.dropWhile_sublist (l := above) isIdle).length_le
  simp only [List.length_cons]
  omega

/-- An idle piece at the end counts only where it is the whole path. -/
def ancestors (path : Path) : List Path :=
  match path.pieces with
  | [] => []
  | first :: rest => ancestorsFrom first (rest.reverse.dropWhile isIdle)

end Path

end LoginNames
