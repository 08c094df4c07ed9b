import LoginNames.Toml.Quoted

/-! # The layout of a TOML document

The layout of a document is what its marks, blanks, line ends and comments say: which lines are
headers, which set a key, and where arrays and tables in braces start and stop. What the words and
quoted texts between the marks stand for is left open, so that a fault in one of them does not hide
the layout behind it. -/

set_option autoImplicit false

namespace LoginNames.Toml

/-- What stands for a key or a scalar: a word without quotes, or a text in quotes, which may run
    over several lines. The text is missing if it is wrong or not closed. -/
inductive Piece
  | word (text : List Char)
  | quoted (text : Option (List Char)) (lines : Bool)

inductive Node
  | scalar (piece : Piece)
  | array (items : List Node)
  | table (entries : List (List Piece × Node))

inductive Line
  | header (keys : List Piece)
  | elementHeader (keys : List Piece)
  | entry (keys : List Piece) (node : Node)

namespace Layout

def maxDepth : Nat := 80

def skipFiller (inComment : Bool) : List Char → Option (List Char)
  | [] => some []
  | '\n' :: rest => skipFiller false rest
  | '\r' :: '\n' :: rest => skipFiller false rest
  | c :: rest =>
    if inComment then if isPlain c then skipFiller true rest else none
    else if isBlank c then skipFiller false rest
    else if c = '#' then skipFiller true rest
    else some (c :: rest)

def skipBlank (text : List Char) : List Char := text.dropWhile isBlank

/-- What follows the rest of a line that holds nothing but blanks and a comment. -/
def lineEnd? (text : List Char) : Option (List Char) :=
  let rest := skipBlank text
  let rest := if rest.head? = some '#' then rest.dropWhile isPlain else rest
  match rest with
  | [] => some []
  | '\n' :: rest => some rest
  | '\r' :: '\n' :: rest => some rest
  | _ => none

def expect? (c : Char) : List Char → Option (List Char)
  | d :: rest => if c = d then some rest else none
  | [] => none

def isMark (c : Char) : Bool :=
  c = '=' || c = ',' || c = '[' || c = ']' || c = '{' || c = '}' || c = '#' || c = '\r' || c = '\n'

def quoted? : List Char → Option (Piece × List Char)
  | '"' :: '"' :: '"' :: rest =>
    let (text, rest) := Quoted.basicLines (Quoted.skipNewline rest)
    some (.quoted text true, rest)
  | '"' :: rest =>
    let (text, rest) := Quoted.basic rest
    some (.quoted text false, rest)
  | '\'' :: '\'' :: '\'' :: rest =>
    let (text, rest) := Quoted.literalLines (Quoted.skipNewline rest)
    some (.quoted text true, rest)
  | '\'' :: rest =>
    let (text, rest) := Quoted.literal rest
    some (.quoted text false, rest)
  | _ => none

def endsKey (c : Char) : Bool := isMark c || isBlank c || c = '.'

def key (text : List Char) : Piece × List Char :=
  (quoted? text).getD (.word (text.takeWhile (!endsKey ·)), text.dropWhile (!endsKey ·))

/-- Keys joined by dots, and the text behind them and the blanks after them. The number bounds the
    keys. -/
def keys? : Nat → List Char → Option (List Piece × List Char)
  | 0, _ => none
  | count + 1, text =>
    let (first, rest) := key text
    match skipBlank rest with
    | '.' :: rest => (keys? count (skipBlank rest)).map fun (keys, rest) => (first :: keys, rest)
    | rest => some ([first], rest)

/-- A word with the blanks inside it, but not those after it. -/
def word (text : List Char) : List Char × List Char :=
  let run := text.takeWhile (!isMark ·)
  let word := (run.reverse.dropWhile isBlank).reverse
  (word, text.drop word.length)

def scalar (text : List Char) : Piece × List Char :=
  (quoted? text).getD (.word (word text).1, (word text).2)

/-- Keys, an equals sign and a value; `skip` skips what may stand around the sign. -/
def assignment? (bound : Nat) (skip : List Char → Option (List Char))
    (node? : List Char → Option (Node × List Char)) (text : List Char) :
    Option ((List Piece × Node) × List Char) := do
  let (keys, rest) ← keys? bound text
  let rest ← expect? '=' (← skip rest)
  let (node, rest) ← node? (← skip rest)
  some ((keys, node), rest)

/-- Items between commas up to a closing bracket; a comma may follow the last one. The number
    bounds the items. -/
def items? {α : Type} (close : Char) (item? : List Char → Option (α × List Char)) :
    Nat → List Char → Option (List α × List Char)
  | 0, _ => none
  | count + 1, text => do
    match ← skipFiller false text with
    | [] => none
    | c :: rest =>
      if c = close then some ([], rest)
      else do
        let (item, rest) ← item? (c :: rest)
        match ← skipFiller false rest with
        | ',' :: rest => do
          let (items, rest) ← items? close item? count rest
          some (item :: items, rest)
        | d :: rest => if d = close then some ([item], rest) else none
        | [] => none

def filled? (found : Option (Node × List Char)) : Option (Node × List Char) :=
  match found with
  | some (.scalar (.word []), _) => none
  | found => found

/-- A value at the start of a text, nested at most as deep as `depth` says. -/
def node? (bound : Nat) : (depth : Nat) → List Char → Option (Node × List Char)
  | depth, '[' :: rest =>
    match depth with
    | 0 => none
    | depth + 1 =>
      (items? ']' (filled? <| node? bound depth ·) bound rest).map fun (items, rest) =>
        (.array items, rest)
  | depth, '{' :: rest =>
    match depth with
    | 0 => none
    | depth + 1 =>
      let item? := assignment? bound (skipFiller false) (filled? <| node? bound depth ·)
      (items? '}' item? bound rest).map fun (entries, rest) => (.table entries, rest)
  | _, text => some (.scalar (scalar text).1, (scalar text).2)

/-- What follows the keys and the closing bracket of a header. -/
def headerKeys? (bound : Nat) (text : List Char) : Option (List Piece × List Char) := do
  let (keys, rest) ← keys? bound (skipBlank text)
  let rest ← expect? ']' rest
  some (keys, rest)

def line? (bound : Nat) (text : List Char) : Option (Line × List Char) :=
  match text with
  | '[' :: '[' :: rest => do
    let (keys, rest) ← headerKeys? bound rest
    let rest ← expect? ']' rest
    some (.elementHeader keys, rest)
  | '[' :: rest => (headerKeys? bound rest).map fun (keys, rest) => (.header keys, rest)
  | _ =>
    (assignment? bound (some <| skipBlank ·) (node? bound maxDepth) text).map
      fun ((keys, node), rest) => (.entry keys node, rest)

/-- The lines of a document that say something. The number bounds them and, as it is never less
    than the length of the text, also what stands in one of them. -/
def lines? : Nat → List Char → Option (List Line)
  | 0, _ => none
  | count + 1, text => do
    match ← skipFiller false text with
    | [] => some []
    | c :: rest => do
      let (line, rest) ← line? (count + 1) (c :: rest)
      let rest ← lineEnd? rest
      let lines ← lines? count rest
      some (line :: lines)

def byteOrderMark : Char := Char.ofNat 0xFEFF

def ofText? (text : String) : Option (List Line) :=
  let chars := match text.toList with
    | c :: rest => if c = byteOrderMark then rest else c :: rest
    | [] => []
  lines? (chars.length + 1) chars

end Layout

end LoginNames.Toml
