import LoginNames.Bytes
import LoginNames.IoError

/-! # Reading one line from a chunked source

A source hands out its bytes in chunks of any size, and a read may be interrupted or fail. `readLine`
takes one line from it and keeps only the start of the line, so that the memory for a line is
bounded however long the line is; its full length and its last byte are counted along. -/

set_option autoImplicit false

namespace LoginNames

/-- What one read of the source gives. An empty chunk says that the source has nothing more. -/
inductive ReadEvent
  | chunk (bytes : Bytes)
  | interrupted
  | failure (cause : IoError) (lasting : cause ≠ .interrupted)
deriving DecidableEq

/-- The reads still to come. After the last one the source is at its end. -/
abbrev Source := List ReadEvent

namespace Source

def ofBytes (data : Bytes) : Source := [.chunk data]

/-- The data as a buffer of some bytes, at least one, hands it out. -/
def ofBuffer (size : Nat) (data : Bytes) : Source :=
  if data = [] then [] else
    .chunk (data.take (max size 1)) :: ofBuffer size (data.drop (max size 1))
termination_by data.length
decreasing_by
  rename_i h
  have := List.length_pos_iff.2 h
  simp only [List.length_drop]
  omega

/-- The bytes and the reads that are left. -/
def weight : Source → Nat
  | [] => 0
  | .chunk bytes :: rest => bytes.length + 1 + weight rest
  | _ :: rest => 1 + weight rest

end Source

/-- A line of which the end has not been seen: the bytes kept of it, the length that it has so
    far, and the last byte. -/
structure OpenLine where
  kept : Array UInt8
  length : Nat
  last : Option UInt8
deriving DecidableEq

namespace OpenLine

def empty : OpenLine := ⟨#[], 0, none⟩

def extend (keep : Nat) (line : OpenLine) (payload : Bytes) : OpenLine where
  kept := line.kept ++ payload.take (keep - line.kept.size)
  length := line.length + payload.length
  last := payload.getLast?.or line.last

@[simp] theorem extend_length (keep : Nat) (line : OpenLine) (payload : Bytes) :
    (line.extend keep payload).length = line.length + payload.length := rfl

end OpenLine

inductive LineRead
  | line (line : OpenLine) (rest : Source)
  | finished
  | failed (cause : IoError)

/-- Continues the line that is open. A newline ends it; so does the end of the source, unless the
    line has no byte yet. -/
def readLine (keep : Nat) (line : OpenLine) : Source → LineRead
  | [] => if line.length = 0 then .finished else .line line []
  | .interrupted :: rest => readLine keep line rest
  | .failure cause _ :: _ => .failed cause
  | .chunk bytes :: rest =>
    if bytes = [] then
      if line.length = 0 then .finished else .line line rest
    else
      let extended := line.extend keep (bytes.takeWhile (· != Bytes.newline))
      match bytes.dropWhile (· != Bytes.newline) with
      | [] => readLine keep extended rest
      | _ :: [] => .line extended rest
      | _ :: b :: tail => .line extended (.chunk (b :: tail) :: rest)

theorem weight_lt_of_readLine {keep : Nat} {line read : OpenLine} {source rest : Source}
    (h : readLine keep line source = .line read rest) :
    rest.weight + read.length < source.weight + line.length ∨
      (rest.weight + read.length ≤ source.weight + line.length ∧ 0 < read.length) := by
  induction source generalizing line with
  | nil =>
    simp only [readLine] at h
    split at h
    · cases h
    · cases h
      exact .inr ⟨Nat.le_refl _, by omega⟩
  | cons event source ih =>
    cases event with
    | interrupted =>
      have := ih h
      simp only [Source.weight]
      omega
    | failure cause _ => cases h
    | chunk bytes =>
      simp only [readLine] at h
      have hsplit : bytes.takeWhile (· != Bytes.newline) ++ bytes.dropWhile (· != Bytes.newline) =
          bytes := List.takeWhile_append_dropWhile
      have hlength := congrArg List.length hsplit
      rw [List.length_append] at hlength
      simp only [Source.weight]
      split at h
      · split at h
        · cases h
        · cases h
          left
          omega
      · split at h
        · have := ih h
          rw [OpenLine.extend_length] at this
          omega
        · rename_i heq
          cases h
          rw [heq] at hlength
          simp only [List.length_cons, List.length_nil, OpenLine.extend_length] at hlength ⊢
          left
          omega
        · rename_i heq
          cases h
          rw [heq] at hlength
          simp only [List.length_cons, OpenLine.extend_length, Source.weight] at hlength ⊢
          left
          omega

theorem weight_lt_of_readLine_empty {keep : Nat} {read : OpenLine} {source rest : Source}
    (h : readLine keep .empty source = .line read rest) : rest.weight < source.weight := by
  have := weight_lt_of_readLine h
  simp only [OpenLine.empty] at this
  omega

end LoginNames
