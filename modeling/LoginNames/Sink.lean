import LoginNames.Bytes
import LoginNames.IoError

/-! # Sinks

A writer takes bytes: one write takes a start of the bytes that it is given and says how long that
start is, and `writeAll` writes until everything is taken. A `Sink` is a writer that may take only
so many bytes in one write and only so many in all; once it is full, a write fails with the sink's
own error or takes nothing. That error is no interruption, after which the write would be made
again. A `Counted` writer counts what the writer in it takes. -/

set_option autoImplicit false

namespace LoginNames

/-- Also where a write or a flush fails, the writer is what it left. -/
class Writer (σ : Type) where
  write : Bytes → EStateM IoError σ Nat
  flush : EStateM IoError σ Unit

/-- A write that takes nothing of bytes that are there is a failure. -/
def Writer.writeAll {σ : Type} [Writer σ] (bytes : Bytes) : EStateM IoError σ Unit :=
  if bytes = [] then pure ()
  else do
    let taken ← write bytes
    if taken = 0 then throw .writeZero
    else writeAll (bytes.drop taken)
termination_by bytes.length
decreasing_by
  have := List.length_pos_iff.2 ‹bytes ≠ []›
  simp only [List.length_drop]
  omega

theorem Sink.lasting_none : (none : Option IoError) ≠ some .interrupted := nofun

structure Sink where
  limit : Option Nat := none
  maxWrite : Option Nat := none
  full : Option IoError := none
  flushFailure : Option IoError := none
  accepted : Array UInt8 := #[]
  flushes : Nat := 0
  lasting : full ≠ some .interrupted := by first | exact Sink.lasting_none | decide

abbrev Writing := EStateM IoError Sink

namespace Sink

def isFull (s : Sink) : Bool := s.limit.any (· ≤ s.accepted.size)

/-- How many of so many bytes fit into one write and into the room that is left. -/
def fitting (s : Sink) (length : Nat) : Nat :=
  min length (min (s.maxWrite.getD length) ((s.limit.map (· - s.accepted.size)).getD length))

def push (s : Sink) (bytes : Bytes) : Sink := { s with accepted := s.accepted ++ bytes.toArray }

def write (bytes : Bytes) : Writing Nat := fun s =>
  if bytes ≠ [] ∧ s.isFull then
    match s.full with
    | none => .ok 0 s
    | some cause => .error cause s
  else .ok (s.fitting bytes.length) (s.push (bytes.take (s.fitting bytes.length)))

def flush : Writing Unit := fun s =>
  let flushed := { s with flushes := s.flushes + 1 }
  match s.flushFailure with
  | none => .ok () flushed
  | some cause => .error cause flushed

instance : Writer Sink := ⟨write, flush⟩

end Sink

structure Counted (σ : Type) where
  inner : σ
  bytes : Nat

namespace Counted

variable {σ : Type} [Writer σ]

def write (bytes : Bytes) : EStateM IoError (Counted σ) Nat := fun c =>
  match (Writer.write bytes).run c.inner with
  | .error cause inner => .error cause ⟨inner, c.bytes⟩
  | .ok taken inner => .ok taken ⟨inner, c.bytes + taken⟩

def flush : EStateM IoError (Counted σ) Unit := fun c =>
  match Writer.flush.run c.inner with
  | .error cause inner => .error cause ⟨inner, c.bytes⟩
  | .ok () inner => .ok () ⟨inner, c.bytes⟩

instance : Writer (Counted σ) := ⟨write, flush⟩

end Counted

end LoginNames
