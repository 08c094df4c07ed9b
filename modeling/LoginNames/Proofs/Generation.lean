import LoginNames.Generator
import LoginNames.Proofs.Template.Expansion

/-! # The lines of all pairs

The generator writes the lines of all pairs, a firstname's lines together and in the order of the
lastnames. It writes them as if in one write, and counts them and their bytes on the way. -/

set_option autoImplicit false

namespace LoginNames

open Writer (writeAll)

namespace Template

/-- The line of one pair of names. -/
def line (t : Template) (first last : Bytes) : Bytes :=
  Scanner.scan first last t.source ++ [Bytes.newline]

def row (t : Template) (lasts : NameList) (first : Bytes) : List Bytes := lasts.map (t.line first)

/-- The lines of all pairs. -/
def lines (t : Template) (firsts lasts : NameList) : List Bytes := firsts.flatMap (t.row lasts)

def output (t : Template) (firsts lasts : NameList) : Bytes := (t.lines firsts lasts).flatten

@[simp] theorem row_length (t : Template) (lasts : NameList) (first : Bytes) :
    (t.row lasts first).length = lasts.length :=
  List.length_map _

theorem lines_length (t : Template) (firsts lasts : NameList) :
    (t.lines firsts lasts).length = firsts.length * lasts.length := by
  induction firsts with
  | nil => simp [lines]
  | cons first firsts ih =>
    rw [lines, List.flatMap_cons, List.length_append, row_length, ← lines, ih, List.length_cons,
      Nat.succ_mul, Nat.add_comm]

/-- The lines of the pairs stand in the order of a table whose rows are the firstnames. -/
theorem lines_getElem? (t : Template) {firsts lasts : NameList} {i j : Nat}
    (hi : i < firsts.length) (hj : j < lasts.length) :
    (t.lines firsts lasts)[i * lasts.length + j]? = some (t.line firsts[i] lasts[j]) := by
  induction firsts generalizing i with
  | nil => cases hi
  | cons first firsts ih =>
    rw [lines, List.flatMap_cons]
    cases i with
    | zero =>
      rw [Nat.zero_mul, Nat.zero_add, List.getElem?_append_left (by rwa [row_length])]
      simp [row, hj]
    | succ i =>
      have hindex : (i + 1) * lasts.length + j = lasts.length + (i * lasts.length + j) := by
        rw [Nat.succ_mul]
        omega
      rw [hindex, List.getElem?_append_right (by rw [row_length]; omega), row_length,
        Nat.add_sub_cancel_left]
      exact ih (Nat.lt_of_succ_lt_succ hi)

/-- A row of lines is written in the same pieces to every writer. -/
theorem exists_writeEach_row (t : Template) (first : Bytes) (lasts : NameList) :
    ∃ pieces : List Bytes, pieces.flatten = (t.row lasts first).flatten ∧
      ∀ (σ : Type) [Writer σ] (count : Nat),
        (t.writeRow first count lasts : EStateM IoError σ Nat) =
          (do Writer.writeEach pieces; pure (count + lasts.length)) := by
  induction lasts with
  | nil => exact ⟨[], rfl, fun σ _ count => rfl⟩
  | cons last lasts ih =>
    obtain ⟨text, htext, hexpand⟩ := t.exists_writeEach_expand first last
    obtain ⟨pieces, hpieces, hrow⟩ := ih
    refine ⟨text ++ [Bytes.newline] :: pieces, ?_, fun σ _ count => ?_⟩
    · rw [List.flatten_append, List.flatten_cons, htext, hpieces, row, row, List.map_cons,
        List.flatten_cons, line, List.append_assoc]
    · rw [writeRow, hexpand, Writer.writeEach_append, Writer.writeEach_cons, List.length_cons]
      simp only [hrow, bind_assoc, Nat.add_assoc, Nat.add_comm 1]

theorem exists_writeEach_rows (t : Template) (lasts firsts : NameList) :
    ∃ pieces : List Bytes, pieces.flatten = t.output firsts lasts ∧
      ∀ (σ : Type) [Writer σ] (count : Nat),
        (t.writeRows lasts count firsts : EStateM IoError σ Nat) =
          (do Writer.writeEach pieces; pure (count + firsts.length * lasts.length)) := by
  induction firsts with
  | nil =>
    refine ⟨[], rfl, fun σ _ count => ?_⟩
    rw [List.length_nil, Nat.zero_mul]
    rfl
  | cons first firsts ih =>
    obtain ⟨row, hrow, hwriteRow⟩ := t.exists_writeEach_row first lasts
    obtain ⟨pieces, hpieces, hwriteRows⟩ := ih
    refine ⟨row ++ pieces, ?_, fun σ _ count => ?_⟩
    · rw [List.flatten_append, hrow, hpieces, output, output, lines, lines, List.flatMap_cons,
        List.flatten_append]
    · have hcount : count + lasts.length + firsts.length * lasts.length =
          count + (first :: firsts).length * lasts.length := by
        rw [List.length_cons, Nat.succ_mul]
        omega
      rw [writeRows, hwriteRow, Writer.writeEach_append]
      simp only [hwriteRows, bind_assoc, pure_bind, hcount]

theorem writeRows_eq {σ : Type} [Writer σ] [LawfulWriter σ] (t : Template) (lasts : NameList)
    (count : Nat) (firsts : NameList) :
    (t.writeRows lasts count firsts : EStateM IoError σ Nat) =
      (do writeAll (t.output firsts lasts); pure (count + firsts.length * lasts.length)) := by
  obtain ⟨pieces, hpieces, hwrite⟩ := t.exists_writeEach_rows lasts firsts
  rw [hwrite, Writer.writeEach_eq, hpieces]

/-- The lines are one write, and the counter stands at what the sink has taken of it. -/
theorem writeLines_run (t : Template) (firsts lasts : NameList) (sink : Sink) :
    (t.writeLines firsts lasts).run (⟨sink, 0⟩ : Counted Sink) =
      match (writeAll (t.output firsts lasts)).run sink with
      | .error cause left => .error cause ⟨left, left.accepted.size - sink.accepted.size⟩
      | .ok () left =>
        match left.flushFailure with
        | some cause =>
          .error cause ⟨left.flushed, left.accepted.size - sink.accepted.size⟩
        | none =>
          .ok (firsts.length * lasts.length)
            ⟨left.flushed, left.accepted.size - sink.accepted.size⟩ := by
  simp only [writeLines, writeRows_eq, bind_assoc, pure_bind, EStateM.run_bind,
    Counted.writeAll_run, Nat.zero_add]
  cases (writeAll (t.output firsts lasts)).run sink with
  | error cause left => simp [Counted.around]
  | ok _ left =>
    simp only [Counted.around, Counted.flush_run, Sink.flush_run, Nat.zero_add]
    cases left.flushFailure <;> rfl

section Left

variable {t : Template} {firsts lasts : NameList} {sink : Sink} {written : Counted Sink}

theorem accepted_of_writeLines {lines : Nat}
    (h : (t.writeLines firsts lasts).run (⟨sink, 0⟩ : Counted Sink) = .ok lines written) :
    written.inner.accepted.toList = sink.accepted.toList ++ t.output firsts lasts := by
  rw [writeLines_run] at h
  cases hwrite : (writeAll (t.output firsts lasts)).run sink with
  | error cause left =>
    rw [hwrite] at h
    cases h
  | ok _ left =>
    rw [hwrite] at h
    obtain rfl := Sink.writeAll_eq_ok hwrite
    cases hflush : (sink.push (t.output firsts lasts)).flushFailure with
    | some cause => simp [hflush] at h
    | none =>
      simp only [hflush] at h
      cases h
      simp [Sink.flushed, Sink.push]

/-- Where the device fails, it has taken a start of the lines. -/
theorem accepted_of_writeLines_error {cause : IoError}
    (h : (t.writeLines firsts lasts).run (⟨sink, 0⟩ : Counted Sink) = .error cause written) :
    ∃ taken, taken <+: t.output firsts lasts ∧
      written.inner.accepted.toList = sink.accepted.toList ++ taken := by
  obtain ⟨taken, htaken, hwrite⟩ := sink.writeAll_left (t.output firsts lasts)
  refine ⟨taken, htaken, ?_⟩
  rw [writeLines_run] at h
  obtain hwrite | ⟨failure, hwrite⟩ := hwrite
  · rw [hwrite] at h
    cases hflush : (sink.push taken).flushFailure with
    | none => simp [hflush] at h
    | some failure =>
      simp only [hflush] at h
      cases h
      simp [Sink.flushed, Sink.push]
  · rw [hwrite] at h
    cases h
    simp [Sink.push]

end Left

end Template

theorem checkLimit_of_exceeded {limit : Nat} {firsts lasts : NameList}
    (h : limit < firsts.length * lasts.length) :
    checkLimit (some limit) firsts lasts =
      .error (.outputLimitExceeded (firsts.length * lasts.length) limit) := by
  simp only [checkLimit, if_pos h]

theorem checkLimit_eq_ok {maxLines : Option Nat} {firsts lasts : NameList} :
    checkLimit maxLines firsts lasts = .ok () ↔
      ∀ limit ∈ maxLines, firsts.length * lasts.length ≤ limit := by
  cases maxLines with
  | none => simp [checkLimit]
  | some limit =>
    by_cases h : limit < firsts.length * lasts.length
    · simp [checkLimit, h]
    · simp only [checkLimit, if_neg h, Option.mem_def, Option.some.injEq, forall_eq', true_iff]
      omega

theorem checkLimit_eq_error {maxLines : Option Nat} {firsts lasts : NameList} {failure : Failure} :
    checkLimit maxLines firsts lasts = .error failure ↔
      ∃ limit, maxLines = some limit ∧ limit < firsts.length * lasts.length ∧
        failure = .outputLimitExceeded (firsts.length * lasts.length) limit := by
  constructor
  · intro h
    cases maxLines with
    | none => cases h
    | some limit =>
      by_cases hover : limit < firsts.length * lasts.length
      · rw [checkLimit_of_exceeded hover] at h
        exact ⟨limit, rfl, hover, (Except.error.inj h).symm⟩
      · rw [checkLimit, if_neg hover] at h
        cases h
  · rintro ⟨limit, rfl, hover, rfl⟩
    exact checkLimit_of_exceeded hover

namespace Template

/-- What is told of the lines of all pairs once they are written. -/
def report (t : Template) (firsts lasts : NameList) : Report :=
  ⟨firsts.length, lasts.length, firsts.length * lasts.length, (t.output firsts lasts).length⟩

end Template

/-- Within its limit a generation writes the lines, and tells of it before and after. -/
theorem generate_eq_writeLines {maxLines : Option Nat} {firsts lasts : NameList}
    (hlimit : checkLimit maxLines firsts lasts = .ok ()) {σ : Type} [Writer σ] (t : Template)
    (sink : σ) :
    generate maxLines firsts lasts t sink =
      let started := Notice.event (.generationStarted firsts.length lasts.length)
      match (t.writeLines firsts lasts).run (⟨sink, 0⟩ : Counted σ) with
      | .error cause written => ⟨.error (.io cause), written.inner, [started]⟩
      | .ok lines written =>
        let report : Report := ⟨firsts.length, lasts.length, lines, written.bytes⟩
        ⟨.ok report, written.inner, [started, .event (.generationFinished report)]⟩ := by
  cases hwrite : (t.writeLines firsts lasts).run (⟨sink, 0⟩ : Counted σ) <;>
    simp only [generate, hlimit, hwrite]

/-- Within its limit a generation is one write of all lines and then a flush. -/
theorem generate_eq_writeAll {maxLines : Option Nat} {firsts lasts : NameList} (t : Template)
    (hlimit : ∀ limit ∈ maxLines, firsts.length * lasts.length ≤ limit) (sink : Sink) :
    generate maxLines firsts lasts t sink =
      let started := Notice.event (.generationStarted firsts.length lasts.length)
      match (writeAll (t.output firsts lasts)).run sink with
      | .error cause left => ⟨.error (.io cause), left, [started]⟩
      | .ok () left =>
        match left.flushFailure with
        | some cause => ⟨.error (.io cause), left.flushed, [started]⟩
        | none =>
          let report : Report := ⟨firsts.length, lasts.length, firsts.length * lasts.length,
            left.accepted.size - sink.accepted.size⟩
          ⟨.ok report, left.flushed, [started, .event (.generationFinished report)]⟩ := by
  rw [generate_eq_writeLines (checkLimit_eq_ok.2 hlimit), Template.writeLines_run]
  cases (writeAll (t.output firsts lasts)).run sink with
  | error cause left => rfl
  | ok _ left =>
    simp only
    cases left.flushFailure <;> rfl

/-- A sink that takes everything is flushed once, and its report counts all bytes. -/
theorem generate_of_writeAll {maxLines : Option Nat} {firsts lasts : NameList} {sink : Sink}
    (t : Template) (hlimit : ∀ limit ∈ maxLines, firsts.length * lasts.length ≤ limit)
    (hwrite : (writeAll (t.output firsts lasts)).run sink =
      .ok () (sink.push (t.output firsts lasts))) (hflush : sink.flushFailure = none) :
    generate maxLines firsts lasts t sink =
      ⟨.ok (t.report firsts lasts), (sink.push (t.output firsts lasts)).flushed,
        [.event (.generationStarted firsts.length lasts.length),
          .event (.generationFinished (t.report firsts lasts))]⟩ := by
  have hflush' : (sink.push (t.output firsts lasts)).flushFailure = none := hflush
  have hsize : (sink.push (t.output firsts lasts)).accepted.size - sink.accepted.size =
      (t.output firsts lasts).length := by
    rw [Sink.push_size, Nat.add_sub_cancel_left]
  rw [generate_eq_writeAll t hlimit, hwrite]
  simp only [hflush', hsize]
  rfl

theorem generate_of_limit {maxLines : Option Nat} {firsts lasts : NameList} {sink : Sink}
    (t : Template) (hlimit : ∀ limit ∈ maxLines, firsts.length * lasts.length ≤ limit)
    (hsink : sink.Unlimited) (hflush : sink.flushFailure = none) :
    generate maxLines firsts lasts t sink =
      ⟨.ok (t.report firsts lasts),
        { sink.push (t.output firsts lasts) with flushes := sink.flushes + 1 },
        [.event (.generationStarted firsts.length lasts.length),
          .event (.generationFinished (t.report firsts lasts))]⟩ :=
  generate_of_writeAll t hlimit (hsink.writeAll_run _) hflush

/-- Whatever the sink is, a generation that succeeds has put all lines into it. -/
theorem sink_of_generate_eq_ok {maxLines : Option Nat} {firsts lasts : NameList} {t : Template}
    {sink : Sink} {report : Report}
    (h : (generate maxLines firsts lasts t sink).result = .ok report) :
    report = t.report firsts lasts ∧ (generate maxLines firsts lasts t sink).sink.accepted.toList =
      sink.accepted.toList ++ t.output firsts lasts := by
  cases hcheck : checkLimit maxLines firsts lasts with
  | error failure =>
    rw [generate, hcheck] at h
    cases h
  | ok =>
    have hlimit := checkLimit_eq_ok.1 hcheck
    cases hwrite : (writeAll (t.output firsts lasts)).run sink with
    | error cause left =>
      rw [generate_eq_writeAll t hlimit, hwrite] at h
      cases h
    | ok _ left =>
      obtain rfl := Sink.writeAll_eq_ok hwrite
      cases hflush : sink.flushFailure with
      | some cause =>
        have hflush' : (sink.push (t.output firsts lasts)).flushFailure = some cause := hflush
        rw [generate_eq_writeAll t hlimit, hwrite] at h
        simp [hflush'] at h
      | none =>
        rw [generate_of_writeAll t hlimit hwrite hflush] at h ⊢
        cases h
        exact ⟨rfl, by simp [Sink.flushed, Sink.push]⟩

/-- A generator that may not write all lines writes none, and one that may writes each line in its
    place, flushes once, and tells how much it has written. -/
theorem generate_eq_lines (maxLines : Option Nat) (firsts lasts : NameList) (t : Template)
    {sink : Sink} (hsink : sink.Unlimited) (hflush : sink.flushFailure = none) :
    (∀ limit, maxLines = some limit → limit < firsts.length * lasts.length →
      generate maxLines firsts lasts t sink =
        ⟨.error (.outputLimitExceeded (firsts.length * lasts.length) limit), sink, []⟩) ∧
    ((∀ limit, maxLines = some limit → firsts.length * lasts.length ≤ limit) →
      generate maxLines firsts lasts t sink =
        ⟨.ok ⟨firsts.length, lasts.length, firsts.length * lasts.length,
            (t.lines firsts lasts).flatten.length⟩,
          { sink.push (t.lines firsts lasts).flatten with flushes := sink.flushes + 1 },
          [.event (.generationStarted firsts.length lasts.length),
            .event (.generationFinished ⟨firsts.length, lasts.length,
              firsts.length * lasts.length, (t.lines firsts lasts).flatten.length⟩)]⟩) ∧
    (t.lines firsts lasts).length = firsts.length * lasts.length ∧
    ∀ (i j : Nat) (hi : i < firsts.length) (hj : j < lasts.length),
      (t.lines firsts lasts)[i * lasts.length + j]? =
        some (Scanner.scan firsts[i] lasts[j] t.source ++ [Bytes.newline]) := by
  refine ⟨fun limit hlimit hover => ?_, fun hlimit => ?_, t.lines_length firsts lasts,
    fun i j hi hj => t.lines_getElem? hi hj⟩
  · subst hlimit
    rw [generate, checkLimit_of_exceeded hover]
  · exact generate_of_limit t hlimit hsink hflush

/-- Two firstnames, one of them empty, and two lastnames: four lines may be written, and where only
    three may, none is. -/
theorem generate_eq_lines_two_by_two :
    let firsts : NameList := [Bytes.ofString "ann", []]
    let lasts : NameList := [Bytes.ofString "weir", Bytes.ofString "po"]
    let t := Template.ofString "\x7bfirstname\x7d(1)\x7blastname\x7d"
    let report : Report := ⟨2, 2, 4, 18⟩
    ({ maxWrite := some 2 } : Sink).Unlimited ∧
      generate (some 3) firsts lasts t ({ maxWrite := some 2 } : Sink) =
        ⟨.error (.outputLimitExceeded 4 3), { maxWrite := some 2 }, []⟩ ∧
      generate (some 4) firsts lasts t ({ maxWrite := some 2 } : Sink) =
        ⟨.ok report, { maxWrite := some 2
                       accepted := (Bytes.ofString "aweir\napo\nweir\npo\n").toArray
                       flushes := 1 },
          [.event (.generationStarted 2 2), .event (.generationFinished report)]⟩ := by
  have hsink : ({ maxWrite := some 2 } : Sink).Unlimited := ⟨rfl, by simp⟩
  intro firsts lasts t report
  obtain ⟨hover, -, -⟩ := generate_eq_lines (some 3) firsts lasts t hsink rfl
  obtain ⟨-, hfit, -⟩ := generate_eq_lines (some 4) firsts lasts t hsink rfl
  refine ⟨hsink, hover 3 rfl (by decide), (hfit ?_).trans ?_⟩
  · rintro limit ⟨⟩
    decide
  · have hlines : (t.lines firsts lasts).flatten =
        Bytes.ofString "aweir\napo\nweir\npo\n" := by cbv
    rw [hlines]
    rfl

end LoginNames
