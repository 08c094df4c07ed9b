/-! # Quoted text

Text between quotes. A basic string has escapes, a literal string has none, and either can run over
several lines between triple quotes. Control characters other than a tab stand in no string. Each
scan starts behind the opening quotes and finds the closing ones also where the text between them
is wrong. -/

set_option autoImplicit false

namespace LoginNames.Toml

def isBlank (c : Char) : Bool := c = ' ' || c = '\t'

/-- The characters that can stand in a comment and, unescaped, in a string on one line. -/
def isPlain (c : Char) : Bool := c = '\t' || (' ' ≤ c && c ≠ '\x7f')

def hexDigit? (c : Char) : Option Nat :=
  if '0' ≤ c ∧ c ≤ '9' then some (c.toNat - 48)
  else if 'a' ≤ c ∧ c ≤ 'f' then some (c.toNat - 87)
  else if 'A' ≤ c ∧ c ≤ 'F' then some (c.toNat - 55)
  else none

def hexNumber? (digits : List Char) : Option Nat :=
  digits.foldlM (fun n c => (hexDigit? c).map (n * 16 + ·)) 0

namespace Quoted

def simpleEscape? : Char → Option Char
  | 'b' => some '\x08'
  | 't' => some '\t'
  | 'n' => some '\n'
  | 'f' => some '\x0c'
  | 'r' => some '\r'
  | 'e' => some '\x1b'
  | '"' => some '"'
  | '\\' => some '\\'
  | _ => none

def hexWidth? : Char → Option Nat
  | 'x' => some 2
  | 'u' => some 4
  | 'U' => some 8
  | _ => none

def escape? : List Char → Option (Char × List Char)
  | [] => none
  | c :: rest =>
    match simpleEscape? c with
    | some d => some (d, rest)
    | none => do
      let width ← hexWidth? c
      let digits := rest.take width
      let n ← hexNumber? digits
      if digits.length = width ∧ n.isValidChar then some (Char.ofNat n, rest.drop width) else none

theorem escape?_length {text rest : List Char} {c : Char} (h : escape? text = some (c, rest)) :
    rest.length < text.length := by
  cases text with
  | nil => simp [escape?] at h
  | cons d text =>
    simp only [escape?] at h
    split at h
    · cases h
      simp
    · simp only [Option.bind_eq_bind, Option.bind_eq_some_iff] at h
      obtain ⟨width, -, n, -, h⟩ := h
      split at h
      · cases h
        simp only [List.length_drop, List.length_cons]
        omega
      · cases h

/-- A text and what follows it, where the text is missing if anything in it is wrong. -/
abbrev Scanned := Option (List Char) × List Char

def Scanned.push (c : Char) (s : Scanned) : Scanned := (s.1.map (c :: ·), s.2)

def Scanned.spoil (s : Scanned) : Scanned := (none, s.2)

/-- A text that is not closed ends with its line. -/
def basic : List Char → Scanned
  | [] => (none, [])
  | '"' :: rest => (some [], rest)
  | '\n' :: rest => (none, '\n' :: rest)
  | '\\' :: rest =>
    match _h : escape? rest with
    | none => (basic rest).spoil
    | some (c, rest) => (basic rest).push c
  | c :: rest => if isPlain c then (basic rest).push c else (basic rest).spoil
termination_by text => text.length
decreasing_by
  · simp
  · have := escape?_length _h
    simp only [List.length_cons]
    omega
  · simp
  · simp

def literal : List Char → Scanned
  | [] => (none, [])
  | '\'' :: rest => (some [], rest)
  | '\n' :: rest => (none, '\n' :: rest)
  | c :: rest => if isPlain c then (literal rest).push c else (literal rest).spoil

def skipNewline : List Char → List Char
  | '\n' :: rest => rest
  | '\r' :: '\n' :: rest => rest
  | text => text

def skipSpace : List Char → List Char
  | '\n' :: rest => skipSpace rest
  | '\r' :: '\n' :: rest => skipSpace rest
  | c :: rest => if isBlank c then skipSpace rest else c :: rest
  | [] => []

theorem skipSpace_length (text : List Char) : (skipSpace text).length ≤ text.length := by
  fun_induction skipSpace text with
  | case1 rest ih => exact Nat.le_succ_of_le ih
  | case2 rest ih => exact Nat.le_succ_of_le (Nat.le_succ_of_le ih)
  | case3 c rest _ _ _ ih => exact Nat.le_succ_of_le ih
  | case4 => exact Nat.le_refl _
  | case5 => exact Nat.le_refl _

/-- Behind a backslash at the end of a line, the text goes on at the next visible character. -/
def lineContinuation? (text : List Char) : Option (List Char) :=
  match text.dropWhile isBlank with
  | '\n' :: rest => some (skipSpace rest)
  | '\r' :: '\n' :: rest => some (skipSpace rest)
  | _ => none

theorem lineContinuation?_length {text rest : List Char}
    (h : lineContinuation? text = some rest) : rest.length < text.length := by
  have hdrop := (List.dropWhile_sublist (l := text) isBlank).length_le
  simp only [lineContinuation?] at h
  split at h
  · rename_i tail heq
    cases h
    have := skipSpace_length tail
    rw [heq, List.length_cons] at hdrop
    omega
  · rename_i tail heq
    cases h
    have := skipSpace_length tail
    rw [heq, List.length_cons, List.length_cons] at hdrop
    omega
  · cases h

/-- Three to five quotes close a text over several lines; those beyond three belong to it. -/
def closing? (mark : Char) (text : List Char) : Option (List Char × List Char) :=
  let count := (text.takeWhile (· == mark)).length
  if count < 3 then none
  else some (List.replicate (min (count - 3) 2) mark, text.drop (min count 5))

def basicLines : List Char → Scanned
  | [] => (none, [])
  | '"' :: rest =>
    match closing? '"' ('"' :: rest) with
    | some (text, rest) => (some text, rest)
    | none => (basicLines rest).push '"'
  | '\\' :: rest =>
    match _h : lineContinuation? rest with
    | some rest => basicLines rest
    | none =>
      match _h : escape? rest with
      | none => (basicLines rest).spoil
      | some (c, rest) => (basicLines rest).push c
  | '\r' :: '\n' :: rest => ((basicLines rest).push '\n').push '\r'
  | c :: rest =>
    if c = '\n' ∨ isPlain c then (basicLines rest).push c else (basicLines rest).spoil
termination_by text => text.length
decreasing_by
  · simp
  · have := lineContinuation?_length _h
    simp only [List.length_cons]
    omega
  · simp
  · have := escape?_length _h
    simp only [List.length_cons]
    omega
  · simp only [List.length_cons]
    omega
  · simp
  · simp

def literalLines : List Char → Scanned
  | [] => (none, [])
  | '\'' :: rest =>
    match closing? '\'' ('\'' :: rest) with
    | some (text, rest) => (some text, rest)
    | none => (literalLines rest).push '\''
  | '\r' :: '\n' :: rest => ((literalLines rest).push '\n').push '\r'
  | c :: rest =>
    if c = '\n' ∨ isPlain c then (literalLines rest).push c else (literalLines rest).spoil

end Quoted

end LoginNames.Toml
