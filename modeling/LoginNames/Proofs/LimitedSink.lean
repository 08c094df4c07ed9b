import LoginNames.Proofs.Generation

/-! # Sinks that run full

A sink with a limit takes the start of what it is given, in writes of any size, and fails at the
first byte that it has no room for. An expansion and a generation each come to it as one write of
all their bytes, so that it is left with the start of what a sink without a limit gets. -/

set_option autoImplicit false

namespace LoginNames

open Writer (writeAll)

namespace Sink

/-- A sink within its limit that takes at least a byte in a write while there is room. -/
structure Willing (s : Sink) : Prop where
  maxWrite : s.maxWrite ≠ some 0
  within : s.HasRoom 0

theorem willing_of_empty {s : Sink} (hmax : s.maxWrite ≠ some 0) (hempty : s.accepted = #[]) :
    s.Willing :=
  ⟨hmax, fun limit _ => by simp [hempty]⟩

theorem Willing.writeAll_of_overflow {s : Sink} (h : s.Willing) {bytes : Bytes} {limit : Nat}
    (hlimit : s.limit = some limit) (hover : limit < s.accepted.size + bytes.length) :
    (writeAll bytes).run s = .error (s.full.getD .writeZero)
      (s.push (bytes.take (limit - s.accepted.size))) := by
  -- Nothing at all always fits, so the bytes that do not are some.
  refine Sink.writeAll_of_overflow h.maxWrite hlimit hover ?_
  rintro rfl
  have hwithin := h.within limit hlimit
  simp only [List.length_nil] at hover
  omega

end Sink

section Generate

variable {maxLines : Option Nat} {firsts lasts : NameList} {sink : Sink} (t : Template)

/-- A sink that runs full is not flushed, and nothing is told after the start. -/
theorem generate_of_overflow (hlimit : ∀ most ∈ maxLines, firsts.length * lasts.length ≤ most)
    (h : sink.Willing) {limit : Nat} (hsink : sink.limit = some limit)
    (hover : limit < sink.accepted.size + (t.output firsts lasts).length) :
    generate maxLines firsts lasts t sink =
      ⟨.error (.io (sink.full.getD .writeZero)),
        sink.push ((t.output firsts lasts).take (limit - sink.accepted.size)),
        [.event (.generationStarted firsts.length lasts.length)]⟩ := by
  rw [generate_eq_writeAll t hlimit, h.writeAll_of_overflow hsink hover]

theorem generate_of_flush_failure
    (hlimit : ∀ most ∈ maxLines, firsts.length * lasts.length ≤ most) (h : sink.Willing)
    (hroom : sink.HasRoom (t.output firsts lasts).length) {cause : IoError}
    (hflush : sink.flushFailure = some cause) :
    generate maxLines firsts lasts t sink =
      ⟨.error (.io cause), (sink.push (t.output firsts lasts)).flushed,
        [.event (.generationStarted firsts.length lasts.length)]⟩ := by
  have hflush' : (sink.push (t.output firsts lasts)).flushFailure = some cause := hflush
  rw [generate_eq_writeAll t hlimit, Sink.writeAll_of_hasRoom h.maxWrite hroom]
  simp only [hflush']

end Generate

/-- Whatever limit a sink has and however little it takes in one write, an expansion and a
    generation leave in it the start of the bytes that a sink without a limit gets. They fail
    exactly where those are more than it has room for, with the sink's own failure or because it
    took nothing; and a generation flushes it once, at the end, if it has not failed before. -/
theorem sink_gets_start (t : Template) {sink : Sink} (h : sink.Willing) :
    (∀ first last,
      let text := Scanner.scan first last t.source
      (∀ free : Sink, free.Unlimited →
        (t.write first last).run free = .ok () (free.push text)) ∧
      (sink.HasRoom text.length → (t.write first last).run sink = .ok () (sink.push text)) ∧
      ∀ limit, sink.limit = some limit → limit < sink.accepted.size + text.length →
        (t.write first last).run sink = .error (sink.full.getD .writeZero)
          (sink.push (text.take (limit - sink.accepted.size)))) ∧
    ∀ maxLines firsts lasts,
      (∀ most, maxLines = some most → firsts.length * lasts.length ≤ most) →
      let text := t.output firsts lasts
      let started := Notice.event (.generationStarted firsts.length lasts.length)
      let report : Report :=
        ⟨firsts.length, lasts.length, firsts.length * lasts.length, text.length⟩
      (∀ free : Sink, free.Unlimited → free.flushFailure = none →
        (generate maxLines firsts lasts t free).sink =
          { free.push text with flushes := free.flushes + 1 }) ∧
      (∀ limit, sink.limit = some limit → limit < sink.accepted.size + text.length →
        generate maxLines firsts lasts t sink =
          ⟨.error (.io (sink.full.getD .writeZero)),
            sink.push (text.take (limit - sink.accepted.size)), [started]⟩) ∧
      (sink.HasRoom text.length →
        (∀ cause, sink.flushFailure = some cause →
          generate maxLines firsts lasts t sink =
            ⟨.error (.io cause), { sink.push text with flushes := sink.flushes + 1 },
              [started]⟩) ∧
        (sink.flushFailure = none →
          generate maxLines firsts lasts t sink =
            ⟨.ok report, { sink.push text with flushes := sink.flushes + 1 },
              [started, .event (.generationFinished report)]⟩)) := by
  refine ⟨fun first last => ?_, fun maxLines firsts lasts hlimit => ⟨?_, ?_, ?_⟩⟩
  · simp only [Template.write, Template.expand_eq]
    exact ⟨fun free hfree => hfree.writeAll_run _,
      fun hroom => Sink.writeAll_of_hasRoom h.maxWrite hroom,
      fun limit hsink hover => h.writeAll_of_overflow hsink hover⟩
  · intro free hfree hflush
    rw [generate_of_limit t hlimit hfree hflush]
  · exact fun limit hsink hover => generate_of_overflow t hlimit h hsink hover
  · intro hroom
    have hwrite := Sink.writeAll_of_hasRoom h.maxWrite hroom
    exact ⟨fun cause hflush => generate_of_flush_failure t hlimit h hroom hflush,
      fun hflush => generate_of_writeAll t hlimit hwrite hflush⟩

/-- Writes of at most two bytes: a sink that is full in the middle of a name, one that is full at
    the start of the second line and takes nothing more, and one that has room for all but is not
    flushed. -/
theorem sink_gets_start_of_two_lines :
    let t := Template.ofString "\x7bfirstname\x7d(1)\x7blastname\x7d"
    let firsts : NameList := [Bytes.ofString "ann", []]
    let lasts : NameList := [Bytes.ofString "weir"]
    let full := IoError.custom "no space left"
    let gone := IoError.custom "gone"
    let narrow : Sink := { limit := some 3, maxWrite := some 2, full := some full }
    let idle : Sink := { limit := some 6, maxWrite := some 2 }
    let roomy : Sink := { limit := some 11, maxWrite := some 2, flushFailure := some gone }
    narrow.Willing ∧ idle.Willing ∧ roomy.Willing ∧
      (t.write (Bytes.ofString "ann") (Bytes.ofString "weir")).run narrow =
        .error full (narrow.push (Bytes.ofString "awe")) ∧
      generate (some 2) firsts lasts t idle =
        ⟨.error (.io .writeZero), idle.push (Bytes.ofString "aweir\n"),
          [.event (.generationStarted 2 1)]⟩ ∧
      IoError.writeZero.message = "failed to write whole buffer" ∧
      generate (some 2) firsts lasts t roomy =
        ⟨.error (.io gone),
          { roomy.push (Bytes.ofString "aweir\nweir\n") with flushes := 1 },
          [.event (.generationStarted 2 1)]⟩ := by
  intro t firsts lasts full gone narrow idle roomy
  have hnarrow : narrow.Willing := Sink.willing_of_empty (by decide) rfl
  have hidle : idle.Willing := Sink.willing_of_empty (by decide) rfl
  have hroomy : roomy.Willing := Sink.willing_of_empty (by decide) rfl
  have hlimit : ∀ most, some 2 = some most → firsts.length * lasts.length ≤ most := by
    rintro most ⟨⟩
    decide
  have hline : Scanner.scan (Bytes.ofString "ann") (Bytes.ofString "weir") t.source =
      Bytes.ofString "aweir" := by cbv
  have houtput : t.output firsts lasts = Bytes.ofString "aweir\nweir\n" := by cbv
  obtain ⟨-, -, hshort⟩ :=
    (sink_gets_start t hnarrow).1 (Bytes.ofString "ann") (Bytes.ofString "weir")
  obtain ⟨-, hover, -⟩ := (sink_gets_start t hidle).2 (some 2) firsts lasts hlimit
  obtain ⟨-, -, hfit⟩ := (sink_gets_start t hroomy).2 (some 2) firsts lasts hlimit
  rw [hline] at hshort
  rw [houtput] at hover hfit
  have hroom : roomy.HasRoom (Bytes.ofString "aweir\nweir\n").length := by
    rintro limit ⟨⟩
    decide
  refine ⟨hnarrow, hidle, hroomy, (hshort 3 rfl (by decide)).trans ?_,
    (hover 6 rfl (by decide)).trans ?_, rfl, (hfit hroom).1 gone rfl⟩
  · rfl
  · rfl

end LoginNames
