import LoginNames.Failure
import LoginNames.Progress
import LoginNames.Sink
import LoginNames.Template

/-! # Generating lines

Each firstname is paired with each lastname, and the template filled in for the pair is written as
one line. The firstnames are the outer loop. -/

set_option autoImplicit false

namespace LoginNames

def checkLimit (maxLines : Option Nat) (firsts lasts : NameList) : Except Failure Unit :=
  let requested := firsts.length * lasts.length
  match maxLines with
  | some limit =>
    if limit < requested then .error (.outputLimitExceeded requested limit) else .ok ()
  | none => .ok ()

namespace Template

variable {σ : Type} [Writer σ]

/-- Writes the lines of one firstname and adds them to a count. -/
def writeRow (t : Template) (first : Bytes) (count : Nat) : NameList → EStateM IoError σ Nat
  | [] => pure count
  | last :: lasts => do
    t.expand first last
    Writer.writeAll [Bytes.newline]
    t.writeRow first (count + 1) lasts

def writeRows (t : Template) (lasts : NameList) (count : Nat) :
    NameList → EStateM IoError σ Nat
  | [] => pure count
  | first :: firsts => do
    let count ← t.writeRow first count lasts
    t.writeRows lasts count firsts

/-- Writes the lines of all pairs and flushes the writer behind them. -/
def writeLines (t : Template) (firsts lasts : NameList) : EStateM IoError σ Nat := do
  let lines ← t.writeRows lasts 0 firsts
  Writer.flush
  pure lines

end Template

structure Generated (σ : Type) where
  result : Except Failure Report
  sink : σ
  notices : List Notice

def generate {σ : Type} [Writer σ] (maxLines : Option Nat) (firsts lasts : NameList)
    (template : Template) (sink : σ) : Generated σ :=
  match checkLimit maxLines firsts lasts with
  | .error failure => ⟨.error failure, sink, []⟩
  | .ok () =>
    let started := Notice.event (.generationStarted firsts.length lasts.length)
    match (template.writeLines firsts lasts).run (⟨sink, 0⟩ : Counted σ) with
    | .error cause written => ⟨.error (.io cause), written.inner, [started]⟩
    | .ok lines written =>
      let report : Report := ⟨firsts.length, lasts.length, lines, written.bytes⟩
      ⟨.ok report, written.inner, [started, .event (.generationFinished report)]⟩

end LoginNames
