import LoginNames.Proofs.NameList.Lines
import LoginNames.Proofs.NameList.Stream

/-! # Loading is judging the lines

A load sees a line only piece by piece and keeps one byte more than the limit of it. That is enough
to tell what the whole line says, so that a load of any source is what its stream makes of it, and
a source that delivers some data is loaded as the lines of the data say. -/

set_option autoImplicit false

namespace LoginNames

/-- The names and entries that come after others. -/
def Loaded.after (names : NameList) (log : Log) (loaded : Loaded) : Loaded :=
  ⟨loaded.result.map (names ++ ·), log ++ loaded.log⟩

theorem Loaded.after_after (names more : NameList) (log entries : Log) (loaded : Loaded) :
    (loaded.after more entries).after names log =
      loaded.after (names ++ more) (log ++ entries) := by
  obtain ⟨result, _⟩ := loaded
  cases result <;> simp [after, Except.map]

/-- A failure of the source puts an end to a load that no line has stopped. -/
def Loaded.cutOff (loaded : Loaded) : Option IoError → Loaded
  | none => loaded
  | some cause => ⟨loaded.result.bind fun _ => .error (.io cause), loaded.log⟩

theorem Loaded.cutOff_after (names : NameList) (log : Log) (loaded : Loaded)
    (failure : Option IoError) :
    (loaded.after names log).cutOff failure = (loaded.cutOff failure).after names log := by
  obtain ⟨result, _⟩ := loaded
  cases failure <;> cases result <;> rfl

namespace LoadOptions

variable (options : LoadOptions)

theorem judge_nil : options.judge [] = ⟨.ok [], []⟩ := by
  cases hoverlong : options.overlong <;> simp [judge, hoverlong]

theorem judge_cons_fits {line : Bytes} (h : line.length ≤ options.maxLength) (number : Nat)
    (lines : List (Bytes × Nat)) :
    options.judge ((line, number) :: lines) = (options.judge lines).after [line] [] := by
  have hlong : ¬ options.maxLength < line.length := by omega
  simp only [judge, List.filter_cons, hlong, decide_false, Bool.false_eq_true, ↓reduceIte]
  cases options.overlong with
  | truncate => simp [Loaded.after, Except.map, List.take_of_length_le h]
  | reject =>
    generalize lines.filter _ = long
    cases long <;> rfl

theorem judge_cons_truncate {line : Bytes} (hoverlong : options.overlong = .truncate)
    (h : options.maxLength < line.length) (number : Nat) (lines : List (Bytes × Nat)) :
    options.judge ((line, number) :: lines) = (options.judge lines).after
      [line.take options.maxLength] [truncationEntry number line.length options.maxLength] := by
  simp only [judge, hoverlong, List.filter_cons, h, decide_true, ↓reduceIte]
  rfl

theorem judge_cons_reject {line : Bytes} (hoverlong : options.overlong = .reject)
    (h : options.maxLength < line.length) (number : Nat) (lines : List (Bytes × Nat)) :
    options.judge ((line, number) :: lines) =
      ⟨.error (.nameTooLong number line.length options.maxLength), []⟩ := by
  simp only [judge, hoverlong, List.filter_cons, h, decide_true, ↓reduceIte]

/-- One byte beyond the limit is kept of a line, and a stripped carriage return may be that byte or
    lie behind it; what is left of the line and its length come out as from the whole line. -/
theorem payload_ofPayload (line : Bytes) :
    options.payload (.ofPayload (options.maxLength + 1) line) =
      ((options.stripped line).length, (options.stripped line).take (options.maxLength + 1)) := by
  by_cases h : options.stripCarriageReturn ∧ line.getLast? = some Bytes.carriageReturn
  · have hpayload : options.payload (.ofPayload (options.maxLength + 1) line) =
        (line.length - 1, (line.take (options.maxLength + 1)).take (line.length - 1)) := if_pos h
    have hstripped : options.stripped line = line.dropLast := if_pos h
    rw [hpayload, hstripped, List.length_dropLast, List.take_take, List.dropLast_eq_take,
      List.take_take, Nat.min_comm]
  · have hpayload : options.payload (.ofPayload (options.maxLength + 1) line) =
        (line.length, line.take (options.maxLength + 1)) := if_neg h
    have hstripped : options.stripped line = line := if_neg h
    rw [hpayload, hstripped]

theorem judge_cons (line : Bytes) (number : Nat) (lines : List (Bytes × Nat)) :
    options.judge ((options.stripped line, number) :: lines) =
      match options.name number (.ofPayload (options.maxLength + 1) line) with
      | .error failure => ⟨.error failure, []⟩
      | .ok (name, entries) => (options.judge lines).after [name] entries := by
  simp only [name, payload_ofPayload]
  generalize options.stripped line = line
  by_cases h : line.length ≤ options.maxLength
  · rw [judge_cons_fits options h, if_pos h, List.take_of_length_le (by omega)]
  · rw [if_neg h]
    have hlong : options.maxLength < line.length := by omega
    cases hoverlong : options.overlong with
    | truncate =>
      rw [judge_cons_truncate options hoverlong hlong, List.take_take,
        Nat.min_eq_left (by omega)]
    | reject => rw [judge_cons_reject options hoverlong hlong]

theorem name_entries {number : Nat} {line : OpenLine} {name : Bytes} {entries : Log}
    (h : options.name number line = .ok (name, entries)) : entries.reverse = entries := by
  simp only [LoadOptions.name] at h
  split at h
  · cases h
    rfl
  · split at h <;> cases h
    rfl

end LoadOptions

/-- The lines that a load comes to: one that a failure leaves open is not among them. -/
def Stream.lines (stream : Stream) : List Bytes :=
  match stream.failure with
  | none => Lines.ofData stream.data
  | some _ => Lines.terminated stream.data

def Stream.load (options : LoadOptions) (number : Nat) (stream : Stream) : Loaded :=
  (options.judge ((stream.lines.map options.stripped).zipIdx number)).cutOff stream.failure

theorem Stream.lines_cons {line : Bytes} (h : Bytes.newline ∉ line) (after : Stream) :
    Stream.lines ⟨line ++ Bytes.newline :: after.data, after.failure⟩ = line :: after.lines := by
  obtain ⟨data, failure⟩ := after
  cases failure with
  | none => exact Lines.ofData_cons h data
  | some _ => exact Lines.terminated_cons h data

theorem Stream.load_cons (options : LoadOptions) (number : Nat) {line : Bytes}
    (h : Bytes.newline ∉ line) (after : Stream) :
    Stream.load options number ⟨line ++ Bytes.newline :: after.data, after.failure⟩ =
      match options.name number (.ofPayload (options.maxLength + 1) line) with
      | .error failure => ⟨.error failure, []⟩
      | .ok (name, entries) => (after.load options (number + 1)).after [name] entries := by
  rw [Stream.load, lines_cons h, List.map_cons, List.zipIdx_cons, LoadOptions.judge_cons]
  cases options.name number (.ofPayload (options.maxLength + 1) line) with
  | error failure => cases after.failure <;> rfl
  | ok named => exact Loaded.cutOff_after _ _ _ _

theorem Stream.load_last (options : LoadOptions) (number : Nat) {line : Bytes} (hne : line ≠ [])
    (h : Bytes.newline ∉ line) :
    Stream.load options number ⟨line, none⟩ =
      match options.name number (.ofPayload (options.maxLength + 1) line) with
      | .error failure => ⟨.error failure, []⟩
      | .ok (name, entries) => (Stream.load options (number + 1) ⟨[], none⟩).after [name] entries := by
  have hlines : Stream.lines ⟨line, none⟩ = [line] := Lines.ofData_last hne h
  rw [Stream.load, hlines, List.map_singleton, List.zipIdx_singleton, LoadOptions.judge_cons]
  rfl

theorem ReadsLine.load_line {options : LoadOptions} {stream : Stream} {line : OpenLine}
    {rest : Source} (h : ReadsLine (options.maxLength + 1) [] stream (.line line rest))
    (number : Nat) :
    stream.load options number =
      match options.name number line with
      | .error failure => ⟨.error failure, []⟩
      | .ok (name, entries) =>
        ((rest.stream false).load options (number + 1)).after [name] entries := by
  cases h with
  | newline hline hrest =>
    subst hrest
    exact Stream.load_cons options number hline _
  | last hline hne hrest =>
    rw [hrest]
    exact Stream.load_last options number hne hline

theorem ReadsLine.load_finished {keep : Nat} {options : LoadOptions} {stream : Stream}
    (h : ReadsLine keep [] stream .finished) (number : Nat) :
    stream.load options number = ⟨.ok [], []⟩ := by
  cases h
  simp [Stream.load, Stream.lines, Lines.ofData_nil, LoadOptions.judge_nil, Loaded.cutOff]

theorem ReadsLine.load_failed {keep : Nat} {options : LoadOptions} {stream : Stream}
    {cause : IoError} (h : ReadsLine keep [] stream (.failed cause)) (number : Nat) :
    stream.load options number = ⟨.error (.io cause), []⟩ := by
  cases h with
  | failed hline =>
    simp [Stream.load, Stream.lines, Lines.terminated_last hline, LoadOptions.judge_nil,
      Loaded.cutOff, Except.bind]

/-- A load under way adds to its names and its log what the stream ahead makes of it. -/
theorem loadFrom_eq (options : LoadOptions) (names : List Bytes) (number : Nat) (log : Log)
    (source : Source) :
    loadFrom options names number log source =
      ((source.stream false).load options number).after names.reverse log.reverse := by
  -- Names and entries are collected latest first, so each step adds at the front.
  have hread := readLine_reads (options.maxLength + 1) [] source
  simp only [OpenLine.ofPayload_nil, ne_eq, not_true_eq_false, decide_false] at hread
  fun_induction loadFrom options names number log source with
  | case1 names number log source h =>
    rw [h] at hread
    rw [hread.load_finished]
    simp [Loaded.after, Except.map]
  | case2 names number log source cause h =>
    rw [h] at hread
    rw [hread.load_failed]
    simp [Loaded.after, Except.map]
  | case3 names number log source line rest h failure hname =>
    rw [h] at hread
    rw [hread.load_line, hname]
    simp [Loaded.after, Except.map]
  | case4 names number log source line rest h name entries hname ih =>
    rw [h] at hread
    have hrest := readLine_reads (options.maxLength + 1) [] rest
    simp only [OpenLine.ofPayload_nil, ne_eq, not_true_eq_false, decide_false] at hrest
    rw [ih hrest, hread.load_line, hname]
    simp only [Loaded.after_after, List.reverse_cons, List.reverse_append,
      options.name_entries hname]

theorem load_eq_stream (options : LoadOptions) (source : Source) :
    load options source = (source.stream false).load options 1 := by
  rw [load, loadFrom_eq]
  generalize (source.stream false).load options 1 = loaded
  obtain ⟨result, log⟩ := loaded
  cases result <;> rfl

theorem load_ofBytes (options : LoadOptions) (data : Bytes) :
    load options (.ofBytes data) = Lines.load options data := by
  rw [load_eq_stream, Source.ofBytes_stream]
  rfl

theorem load_of_delivers {options : LoadOptions} {source : Source} {data : Bytes}
    (h : source.Delivers data) : load options source = Lines.load options data := by
  rw [load_eq_stream, h.stream]
  rfl

/-- However some data is handed out, a load gives what the lines of the data say. -/
theorem load_eq_lines (options : LoadOptions) (data : Bytes) :
    (∀ source : Source, source.Delivers data → load options source = Lines.load options data) ∧
      ∀ size, load options (.ofBuffer size data) = Lines.load options data := by
  have hload : ∀ source : Source, source.Delivers data →
      load options source = Lines.load options data := by
    intro source h
    rw [load_eq_stream, h.stream]
    rfl
  exact ⟨hload, fun size => hload _ (Source.ofBuffer_delivers size data)⟩

/-- A carriage return at the end of a chunk, its newline in the next one, and a line that is one
    byte too long without its carriage return. -/
theorem load_eq_lines_across_chunks :
    let options : LoadOptions := { maxLength := 3, stripCarriageReturn := true }
    let source : Source := [.chunk [97, 98, 13], .interrupted, .chunk [10, 97, 98, 99],
      .chunk [100, 13], .interrupted, .chunk [10, 10, 97], .chunk [98]]
    source.Delivers [97, 98, 13, 10, 97, 98, 99, 100, 13, 10, 10, 97, 98] ∧
      load options source = ⟨.ok [[97, 98], [97, 98, 99], [], [97, 98]],
        [⟨.debug, "Line 2 is 4 bytes, truncating to 3"⟩]⟩ := by
  intro options source
  have h : source.Delivers [97, 98, 13, 10, 97, 98, 99, 100, 13, 10, 10, 97, 98] :=
    .chunk (by decide) (.interrupted (.chunk (by decide) (.chunk (by decide)
      (.interrupted (.chunk (by decide) (.chunk (by decide) .ended))))))
  exact ⟨h, ((load_eq_lines options _).1 source h).trans (by cbv)⟩

end LoginNames
