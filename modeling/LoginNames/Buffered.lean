import LoginNames.Sink

/-! # Buffered writers

A `Buffered` writer holds bytes back, so that the writer in it sees few and long writes. What it
holds goes on before bytes that do not fit behind it, and in a flush. -/

set_option autoImplicit false

namespace LoginNames

structure Buffered (σ : Type) where
  inner : σ
  held : Array UInt8 := #[]

namespace Buffered

variable {σ : Type} [Writer σ]

def capacity : Nat := 8192

/-- The failure of a write that takes nothing of what is held. -/
def takesNothing : IoError := .custom "failed to write the buffered data"

/-- Hands on what is held until nothing is left of it. What has been taken is held no longer, also
    where a later write fails. -/
def drain (b : Buffered σ) : EStateM.Result IoError (Buffered σ) Unit :=
  if b.held = #[] then .ok () b
  else
    match (Writer.write b.held.toList).run b.inner with
    | .error cause inner => .error cause { b with inner }
    | .ok taken inner =>
      if taken = 0 then .error takesNothing { b with inner }
      else drain ⟨inner, b.held.drop taken⟩
termination_by b.held.size
decreasing_by
  have := Array.size_pos_iff.2 ‹b.held ≠ #[]›
  simp only [Array.size_extract]
  omega

def hold (bytes : Bytes) : EStateM IoError (Buffered σ) Nat := fun b =>
  .ok bytes.length { b with held := b.held ++ bytes.toArray }

/-- Lets the writer inside do something. -/
def within {α : Type} (x : EStateM IoError σ α) : EStateM IoError (Buffered σ) α := fun b =>
  match x.run b.inner with
  | .error cause inner => .error cause { b with inner }
  | .ok a inner => .ok a { b with inner }

/-- Bytes that would fill all that can be held are not held. -/
def place (bytes : Bytes) : EStateM IoError (Buffered σ) Nat :=
  if capacity ≤ bytes.length then within (Writer.write bytes) else hold bytes

def write (bytes : Bytes) : EStateM IoError (Buffered σ) Nat := do
  let spare := capacity - (← get).held.size
  if bytes.length < spare then hold bytes
  else
    if spare < bytes.length then drain
    place bytes

def flush : EStateM IoError (Buffered σ) Unit := do
  drain
  within Writer.flush

instance : Writer (Buffered σ) := ⟨write, flush⟩

/-- The writer inside, after a last attempt to hand on what is held. Nothing is told of how that
    ends. -/
def close (b : Buffered σ) : σ :=
  match b.drain with
  | .ok () left | .error _ left => left.inner

end Buffered

end LoginNames
