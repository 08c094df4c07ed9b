import LoginNames.Placeholder
import LoginNames.Sink

/-! # Templates

A template is any byte string. `placeholders` and `expand` each scan it from left to right:
`placeholders` lists the marks, and `expand` writes the template with the names filled in. Literal
bytes are written in runs, a run when a placeholder or the end of the template closes it. The
names that are filled in are never scanned. -/

set_option autoImplicit false

namespace LoginNames

structure Template where
  source : Bytes
deriving DecidableEq

namespace Template

def ofString (s : String) : Template := ⟨Bytes.ofString s⟩

def match? (t : Template) (cursor : Nat) : Option PlaceholderMatch :=
  Placeholder.match? (t.source.drop cursor)

def slice (t : Template) (start stop : Nat) : Bytes := (t.source.take stop).drop start

theorem match?_width {t : Template} {cursor : Nat} {m : PlaceholderMatch}
    (h : t.match? cursor = some m) : 0 < m.width ∧ cursor + m.width ≤ t.source.length := by
  have := Placeholder.match?_width h
  simp only [List.length_drop] at this
  omega

def placeholdersFrom (t : Template) (cursor : Nat) : List Placeholder :=
  if cursor < t.source.length then
    match _h : t.match? cursor with
    | some m => m.placeholder :: t.placeholdersFrom (cursor + m.width)
    | none => t.placeholdersFrom (cursor + 1)
  else []
termination_by t.source.length - cursor
decreasing_by
  · have := match?_width _h
    omega
  · omega

def placeholders (t : Template) : List Placeholder := t.placeholdersFrom 0

/-- An expansion under way: where the literal run starts that is not written yet, and where the
    scan stands. -/
structure Cursor where
  literalStart : Nat
  position : Nat
deriving DecidableEq

namespace Cursor

def start : Cursor := ⟨0, 0⟩

/-- A placeholder is passed whole and closes the run; any other byte joins the run. -/
def next (c : Cursor) : Option PlaceholderMatch → Cursor
  | some m => ⟨c.position + m.width, c.position + m.width⟩
  | none => ⟨c.literalStart, c.position + 1⟩

end Cursor

variable {σ : Type} [Writer σ]

/-- Goes on with an expansion to the end of the template. -/
def expandFrom (t : Template) (first last : Bytes) (c : Cursor) : EStateM IoError σ Unit :=
  if _hc : c.position < t.source.length then
    match _h : t.match? c.position with
    | some m => do
      Writer.writeAll (t.slice c.literalStart c.position)
      Writer.writeAll (m.placeholder.render first last)
      t.expandFrom first last (c.next (some m))
    | none => t.expandFrom first last (c.next none)
  else Writer.writeAll (t.slice c.literalStart t.source.length)
termination_by t.source.length - c.position
decreasing_by
  · have := match?_width _h
    simp only [Cursor.next]
    omega
  · simp only [Cursor.next]
    omega

/-- Writes the template with one pair of names filled in, without a newline. -/
def expand (t : Template) (first last : Bytes) : EStateM IoError σ Unit :=
  t.expandFrom first last .start

def write (t : Template) (first last : Bytes) : Writing Unit := t.expand first last

end Template

end LoginNames
