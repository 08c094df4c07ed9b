import LoginNames.Proofs.NameList.Loading
import LoginNames.Proofs.Steps

/-! # A line read by read

A line is read by one read of the source after the other, until one of them ends it. Between any two
of them the line holds the start of its bytes so far and no more, counts all of them and knows the
last one. Where the last read leaves the line and the source is told from the reads alone: right
behind the newline, or behind the read that says that there is no more. -/

set_option autoImplicit false

namespace LoginNames

namespace Source

theorem step_of_drop {source rest : Source} {event : ReadEvent} {n : Nat}
    (h : source.drop n = event :: rest) :
    source.drop (n + 1) = rest ∧ source.take (n + 1) = source.take n ++ [event] := by
  have hcount : n < source.length := by
    by_contra hover
    rw [List.drop_of_length_le (Nat.le_of_not_lt hover)] at h
    cases h
  rw [List.drop_eq_getElem_cons hcount] at h
  obtain ⟨rfl, rfl⟩ := List.cons.inj h
  exact ⟨rfl, List.take_succ_eq_append_getElem hcount⟩

/-- The next read says that there is no more, and these reads are behind it. -/
inductive Ends : Source → Source → Prop
  | out : Ends [] []
  | empty (rest : Source) : Ends (.chunk [] :: rest) rest

/-- The bytes up to the first newline, and the reads that are left right behind it. -/
inductive HasLine : Source → Bytes → Source → Prop
  | intro {passed rest : Source} {before within tail : Bytes} (hpassed : passed.Delivers before)
      (h : Bytes.newline ∉ before ++ within) :
      HasLine (passed ++ .chunk (within ++ Bytes.newline :: tail) :: rest) (before ++ within)
        (unread tail rest)

/-- All the bytes up to the end, where no newline is among them, and the reads behind that end. -/
inductive RunsOut : Source → Bytes → Source → Prop
  | intro {passed ahead rest : Source} {data : Bytes} (hpassed : passed.Delivers data)
      (h : Bytes.newline ∉ data) (hends : Ends ahead rest) : RunsOut (passed ++ ahead) data rest

end Source

theorem readLine_ends (keep : Nat) (line : OpenLine) {ahead rest : Source} (h : ahead.Ends rest) :
    readLine keep line ahead = if line.length = 0 then .finished else .line line rest := by
  cases h with
  | out => rfl
  | empty => rfl

theorem readLine_of_delivers {passed : Source} {more : Bytes} (h : passed.Delivers more)
    (hmore : Bytes.newline ∉ more) (keep : Nat) (payload : Bytes) (ahead : Source) :
    readLine keep (.ofPayload keep payload) (passed ++ ahead) =
      readLine keep (.ofPayload keep (payload ++ more)) ahead := by
  induction h generalizing payload with
  | ended => rw [List.append_nil, List.nil_append]
  | interrupted _ ih => exact ih hmore payload
  | chunk hne _ ih =>
    rw [List.mem_append, not_or] at hmore
    rw [List.cons_append, readLine_chunk keep _ hne hmore.1, OpenLine.extend_ofPayload,
      ih hmore.2, List.append_assoc]

/-- A line that is open, whether any byte has come yet, and the reads to come. -/
structure LineReading where
  line : OpenLine
  begun : Bool
  ahead : Source

namespace LineReading

def start (source : Source) : LineReading := ⟨.empty, false, source⟩

/-- One read, unless it is the last one of the line. -/
def next (keep : Nat) (r : LineReading) : Option LineReading :=
  match r.ahead with
  | .interrupted :: rest => some ⟨r.line, r.begun, rest⟩
  | .chunk bytes :: rest =>
    if bytes = [] ∨ Bytes.newline ∈ bytes then none
    else some ⟨r.line.extend keep bytes, true, rest⟩
  | .failure _ _ :: _ | [] => none

variable {keep : Nat} {r r' : LineReading}

theorem next_chunk {line : OpenLine} {begun : Bool} {bytes : Bytes} (hne : bytes ≠ [])
    (h : Bytes.newline ∉ bytes) (rest : Source) :
    next keep ⟨line, begun, .chunk bytes :: rest⟩ = some ⟨line.extend keep bytes, true, rest⟩ :=
  if_neg (not_or.mpr ⟨hne, h⟩)

/-- A read that is not the last one hands out bytes without a newline, if it is not interrupted. -/
theorem next_eq_some (h : r.next keep = some r') :
    ∃ event more, r.ahead = event :: r'.ahead ∧ Source.Delivers [event] more ∧
      Bytes.newline ∉ more ∧ r'.line = r.line.extend keep more ∧
      (r'.begun = true ↔ r.begun = true ∨ more ≠ []) := by
  obtain ⟨line, begun, ahead⟩ := r
  cases ahead with
  | nil => cases h
  | cons event rest =>
    cases event with
    | interrupted =>
      cases h
      exact ⟨.interrupted, [], rfl, .interrupted .ended, List.not_mem_nil,
        (OpenLine.extend_nil keep line).symm, by simp⟩
    | failure cause _ => cases h
    | chunk bytes =>
      obtain ⟨hmore, heq⟩ := Option.ite_none_left_eq_some.mp h
      cases heq
      obtain ⟨hne, hmem⟩ := not_or.mp hmore
      have hdelivers := Source.Delivers.chunk hne .ended
      rw [List.append_nil] at hdelivers
      exact ⟨.chunk bytes, bytes, rfl, hdelivers, hmem, rfl, by simp [hne]⟩

/-- The last read of a line hands out its newline, says that there is no more, or fails. -/
theorem next_eq_none (h : r.next keep = none) :
    (∃ within tail rest, Bytes.newline ∉ within ∧
        r.ahead = .chunk (within ++ Bytes.newline :: tail) :: rest) ∨
      (∃ rest, r.ahead.Ends rest) ∨ 
        ∃ cause lasting rest, r.ahead = .failure cause lasting :: rest := by
  obtain ⟨line, begun, ahead⟩ := r
  cases ahead with
  | nil => exact .inr (.inl ⟨[], .out⟩)
  | cons event rest =>
    cases event with
    | interrupted => cases h
    | failure cause lasting => exact .inr (.inr ⟨cause, lasting, rest, rfl⟩)
    | chunk bytes =>
      by_cases hne : bytes = []
      · subst bytes
        exact .inr (.inl ⟨rest, .empty rest⟩)
      by_cases hmem : Bytes.newline ∈ bytes
      · obtain ⟨within, tail, rfl, hwithin⟩ := List.eq_append_cons_of_mem hmem
        exact .inl ⟨within, tail, rest, hwithin, rfl⟩
      · rw [next_chunk hne hmem] at h
        cases h

theorem next_shorter (h : r.next keep = some r') : r'.ahead.length < r.ahead.length := by
  obtain ⟨event, more, hahead, -⟩ := next_eq_some h
  rw [hahead]
  exact Nat.lt_succ_self _

/-- Where a reading of the source is after reads that have delivered these bytes of a line. -/
structure At (keep : Nat) (source : Source) (n : Nat) (payload : Bytes) (r : LineReading) :
    Prop where
  ahead_eq : r.ahead = source.drop n
  delivers : Source.Delivers (source.take n) payload
  not_mem : Bytes.newline ∉ payload
  line_eq : r.line = .ofPayload keep payload
  begun_iff : r.begun = true ↔ payload ≠ []

variable {source : Source} {n : Nat} {payload : Bytes}

theorem At.start (keep : Nat) (source : Source) : (start source).At keep source 0 [] where
  ahead_eq := rfl
  delivers := .ended
  not_mem := List.not_mem_nil
  line_eq := (OpenLine.ofPayload_nil keep).symm
  begun_iff := by simp [LineReading.start]

theorem At.next (h : r.At keep source n payload) (hnext : r.next keep = some r') :
    ∃ more, r'.At keep source (n + 1) (payload ++ more) := by
  obtain ⟨event, more, hahead, hdelivers, hmem, hline, hbegun⟩ := next_eq_some hnext
  obtain ⟨hdrop, htake⟩ := Source.step_of_drop (h.ahead_eq.symm.trans hahead)
  refine ⟨more, hdrop.symm, ?_, ?_, ?_, ?_⟩
  · rw [htake]
    exact h.delivers.append hdelivers
  · rw [List.mem_append, not_or]
    exact ⟨h.not_mem, hmem⟩
  · rw [hline, h.line_eq, OpenLine.extend_ofPayload]
  · simp only [hbegun, h.begun_iff, ne_eq, List.append_eq_nil_iff, not_and_or]

theorem exists_at (h : Steps (LineReading.next keep) n (.start source) r) :
    ∃ payload, r.At keep source n payload := by
  have hstep (n : Nat) (a b : LineReading) :
      (∃ payload, a.At keep source n payload) → a.next keep = some b →
        ∃ payload, b.At keep source (n + 1) payload := by
    rintro ⟨payload, hat⟩ hnext
    obtain ⟨more, hmore⟩ := hat.next hnext
    exact ⟨payload ++ more, hmore⟩
  simpa only [Nat.zero_add] using h.invariant hstep ⟨[], .start keep source⟩

theorem At.split (h : r.At keep source n payload) : source.take n ++ r.ahead = source := by
  rw [h.ahead_eq, List.take_append_drop]

/-- What the line comes to is not changed by the reads. -/
theorem At.readLine_eq (h : r.At keep source n payload) :
    readLine keep r.line r.ahead = readLine keep .empty source := by
  have hpassed := readLine_of_delivers h.delivers h.not_mem keep [] r.ahead
  rw [OpenLine.ofPayload_nil, h.split, List.nil_append] at hpassed
  rw [hpassed, h.line_eq]

/-- Reads that deliver bytes without a newline leave the line open. -/
theorem steps_of_delivers {passed : Source} {more : Bytes} (h : passed.Delivers more)
    (hmore : Bytes.newline ∉ more) (keep : Nat) (payload : Bytes) (ahead : Source) :
    Steps (LineReading.next keep) passed.length
      ⟨.ofPayload keep payload, payload ≠ [], passed ++ ahead⟩
      ⟨.ofPayload keep (payload ++ more), payload ++ more ≠ [], ahead⟩ := by
  induction h generalizing payload with
  | ended =>
    rw [List.append_nil]
    exact .refl _
  | interrupted _ ih => exact .next rfl (ih hmore payload)
  | @chunk bytes rest data hne _ ih =>
    rw [List.mem_append, not_or] at hmore
    have hbegun : decide (payload ++ bytes ≠ []) = true := by simp [hne]
    have hrest := ih hmore.2 (payload ++ bytes)
    rw [← OpenLine.extend_ofPayload, hbegun, List.append_assoc] at hrest
    exact .next (next_chunk hne hmore.1 _) hrest

end LineReading

namespace Source

variable {source rest : Source} {payload : Bytes}

theorem Delivers.readLine_eq {passed : Source} (h : passed.Delivers payload)
    (hpayload : Bytes.newline ∉ payload) (keep : Nat) (ahead : Source) :
    readLine keep .empty (passed ++ ahead) = readLine keep (.ofPayload keep payload) ahead := by
  rw [← OpenLine.ofPayload_nil keep, readLine_of_delivers h hpayload, List.nil_append]

theorem HasLine.readLine_eq (h : source.HasLine payload rest) (keep : Nat) :
    readLine keep .empty source = .line (.ofPayload keep payload) rest := by
  obtain ⟨hpassed, hmem⟩ := h
  rw [List.mem_append, not_or] at hmem
  rw [hpassed.readLine_eq hmem.1, readLine_within _ _ hmem.2, OpenLine.extend_ofPayload]

theorem RunsOut.readLine_eq (h : source.RunsOut payload rest) (keep : Nat) :
    readLine keep .empty source =
      if payload = [] then .finished else .line (.ofPayload keep payload) rest := by
  obtain ⟨hpassed, hmem, hends⟩ := h
  rw [hpassed.readLine_eq hmem, readLine_ends _ _ hends]
  simp only [OpenLine.ofPayload, List.length_eq_zero_iff]

end Source

/-- A line that has its newline or any bytes is read, none is at an end that comes first, and a
    failure comes before either. -/
theorem readLine_cases (keep : Nat) (source : Source) :
    (∃ payload rest, (source.HasLine payload rest ∨ payload ≠ [] ∧ source.RunsOut payload rest) ∧
        readLine keep .empty source = .line (.ofPayload keep payload) rest) ∨
      (∃ rest, source.RunsOut [] rest ∧ readLine keep .empty source = .finished) ∨
      ∃ cause, readLine keep .empty source = .failed cause := by
  have hshorter (a b : LineReading) (h : a.next keep = some b) : b.ahead.length < a.ahead.length :=
    LineReading.next_shorter h
  obtain ⟨n, r, hsteps, hlast⟩ := exists_last_step hshorter (.start source)
  obtain ⟨payload, hat⟩ := LineReading.exists_at hsteps
  have hsplit := hat.split
  obtain ⟨within, tail, rest, hwithin, hahead⟩ | ⟨rest, hends⟩ | ⟨cause, _, rest, hahead⟩ :=
    LineReading.next_eq_none hlast
  · rw [hahead] at hsplit
    have hmem : Bytes.newline ∉ payload ++ within := by
      rw [List.mem_append, not_or]
      exact ⟨hat.not_mem, hwithin⟩
    have hline : source.HasLine (payload ++ within) (Source.unread tail rest) :=
      hsplit ▸ .intro hat.delivers hmem
    exact .inl ⟨_, _, .inl hline, hline.readLine_eq keep⟩
  · have hout : source.RunsOut payload rest := hsplit ▸ .intro hat.delivers hat.not_mem hends
    by_cases hne : payload = []
    · subst payload
      exact .inr (.inl ⟨rest, hout, hout.readLine_eq keep⟩)
    · refine .inl ⟨payload, rest, .inr ⟨hne, hout⟩, ?_⟩
      rw [hout.readLine_eq, if_neg hne]
  · rw [hahead] at hsplit
    refine .inr (.inr ⟨cause, ?_⟩)
    rw [← hsplit, hat.delivers.readLine_eq hat.not_mem]
    rfl

theorem readLine_eq_line {keep : Nat} {source rest : Source} {line : OpenLine} :
    readLine keep .empty source = .line line rest ↔
      ∃ payload, line = .ofPayload keep payload ∧
        (source.HasLine payload rest ∨ payload ≠ [] ∧ source.RunsOut payload rest) := by
  constructor
  · intro h
    obtain ⟨payload, left, hline, hread⟩ | ⟨left, -, hread⟩ | ⟨cause, hread⟩ :=
      readLine_cases keep source
    · cases hread.symm.trans h
      exact ⟨payload, rfl, hline⟩
    · cases hread.symm.trans h
    · cases hread.symm.trans h
  · rintro ⟨payload, rfl, hline | ⟨hne, hout⟩⟩
    · exact hline.readLine_eq keep
    · rw [hout.readLine_eq, if_neg hne]

theorem readLine_eq_finished {keep : Nat} {source : Source} :
    readLine keep .empty source = .finished ↔ ∃ rest, source.RunsOut [] rest := by
  constructor
  · intro h
    obtain ⟨payload, left, -, hread⟩ | ⟨left, hout, -⟩ | ⟨cause, hread⟩ :=
      readLine_cases keep source
    · cases hread.symm.trans h
    · exact ⟨left, hout⟩
    · cases hread.symm.trans h
  · rintro ⟨rest, hout⟩
    exact hout.readLine_eq keep

namespace LoadOptions

variable (options : LoadOptions)

theorem payload_length (line : Bytes) :
    let payload := options.payload (.ofPayload (options.maxLength + 1) line)
    payload.2.length = min (options.maxLength + 1) payload.1 := by
  rw [payload_ofPayload]
  exact List.length_take

/-- A line that ends with a carriage return is one byte longer than without it. -/
theorem payload_stripped (hstrip : options.stripCarriageReturn = true) {keep : Nat} {line : Bytes}
    (hlast : (OpenLine.ofPayload keep line).last = some Bytes.carriageReturn) :
    (options.payload (.ofPayload keep line)).1 + 1 = (OpenLine.ofPayload keep line).length := by
  have hpayload : options.payload (.ofPayload keep line) =
      (line.length - 1, (line.take keep).take (line.length - 1)) := if_pos ⟨hstrip, hlast⟩
  have hpos : 0 < line.length := List.length_pos_of_mem (List.mem_of_getLast? hlast)
  rw [hpayload]
  exact Nat.sub_add_cancel hpos

end LoadOptions

/-- A line is read on as long as reads hand out bytes without a newline or are interrupted. After
    each of them the line holds the start of the bytes that have come, of which it keeps no more
    than it may, counts all of them and knows the last one. The last read leaves the source right
    behind the newline or behind its end, and there is no line just where that end comes before any
    byte. A carriage return that is the last byte can be taken off the length of a line, and as much
    is kept of what is left as may be kept. -/
theorem readLine_keeps_start (keep : Nat) (source : Source) :
    (∀ n payload, n ≤ source.length → Source.Delivers (source.take n) payload →
      Bytes.newline ∉ payload →
      Steps (LineReading.next keep) n (.start source)
        ⟨.ofPayload keep payload, payload ≠ [], source.drop n⟩) ∧
    (∀ n r, Steps (LineReading.next keep) n (.start source) r →
      (∃ payload, Source.Delivers (source.take n) payload ∧ Bytes.newline ∉ payload ∧
        r.ahead = source.drop n ∧ r.line.kept.toList = payload.take keep ∧
        r.line.kept.size = min keep payload.length ∧ r.line.length = payload.length ∧
        r.line.last = payload.getLast? ∧ (r.line.last = none ↔ payload = []) ∧
        (r.begun = true ↔ payload ≠ [])) ∧
      readLine keep r.line r.ahead = readLine keep .empty source ∧
      ∀ rest, r.ahead.Ends rest →
        readLine keep .empty source = if r.begun then .line r.line rest else .finished) ∧
    (∀ line rest, readLine keep .empty source = .line line rest ↔
      ∃ payload, line = .ofPayload keep payload ∧
        (source.HasLine payload rest ∨ payload ≠ [] ∧ source.RunsOut payload rest)) ∧
    (readLine keep .empty source = .finished ↔ ∃ rest, source.RunsOut [] rest) ∧
    ∀ (options : LoadOptions) line rest, options.maxLength + 1 = keep →
      readLine keep .empty source = .line line rest →
      (options.stripCarriageReturn = true → line.last = some Bytes.carriageReturn →
        (options.payload line).1 + 1 = line.length) ∧
      (options.payload line).2.length = min keep (options.payload line).1 := by
  refine ⟨fun n payload hcount hdelivers hmem => ?_, fun n r hsteps => ?_,
    fun line rest => readLine_eq_line, readLine_eq_finished, ?_⟩
  · have hsteps := LineReading.steps_of_delivers hdelivers hmem keep [] (source.drop n)
    rw [List.length_take_of_le hcount, List.take_append_drop, OpenLine.ofPayload_nil] at hsteps
    exact hsteps
  · obtain ⟨payload, hat⟩ := LineReading.exists_at hsteps
    refine ⟨⟨payload, hat.delivers, hat.not_mem, hat.ahead_eq, ?_⟩, hat.readLine_eq,
      fun rest hends => ?_⟩
    · rw [hat.line_eq, hat.begun_iff]
      simp [OpenLine.ofPayload]
    · have hlength : r.line.length = 0 ↔ ¬ r.begun = true := by
        rw [hat.line_eq, hat.begun_iff, not_not]
        exact List.length_eq_zero_iff
      rw [← hat.readLine_eq, readLine_ends keep r.line hends]
      simp only [hlength, ite_not]
  · rintro options line rest rfl hline
    obtain ⟨payload, rfl, -⟩ := readLine_eq_line.mp hline
    exact ⟨fun hstrip => options.payload_stripped hstrip, options.payload_length payload⟩

/-- The carriage return lies beyond the bytes that are kept, and its newline comes with the next
    chunk, the rest of which is left; and a source that is interrupted and then at its end. -/
theorem readLine_keeps_start_across_chunks :
    let options : LoadOptions := { maxLength := 2, stripCarriageReturn := true }
    let source : Source := [.chunk [97, 98], .interrupted, .chunk [99, 100, 13], .chunk [10, 120]]
    let line : OpenLine := ⟨#[97, 98, 99], 5, some Bytes.carriageReturn⟩
    Steps (LineReading.next 3) 3 (.start source) ⟨line, true, [.chunk [10, 120]]⟩ ∧
      line.kept.size = min 3 line.length ∧
      readLine 3 .empty source = .line line [.chunk [120]] ∧
      (options.payload line).1 + 1 = 5 ∧
      (options.payload line).2.length = min 3 (options.payload line).1 ∧
      readLine 3 .empty [.interrupted, .chunk [], .failure .notFound (by decide)] = .finished := by
  intro options source line
  obtain ⟨hreach, hreached, hline, -, hpayload⟩ := readLine_keeps_start 3 source
  obtain ⟨-, -, -, hfinished, -⟩ :=
    readLine_keeps_start 3 [.interrupted, .chunk [], .failure .notFound (by decide)]
  have hdelivers : Source.Delivers (source.take 3) [97, 98, 99, 100, 13] :=
    .chunk (by decide) (.interrupted (.chunk (by decide) .ended))
  have hsteps := hreach 3 [97, 98, 99, 100, 13] (by decide) hdelivers (by decide)
  obtain ⟨⟨payload, -, -, -, -, hsize, hlength, -⟩, -⟩ := hreached 3 _ hsteps
  have hhas : source.HasLine [97, 98, 99, 100, 13] [.chunk [120]] :=
    @Source.HasLine.intro (source.take 3) [] _ [] [120] hdelivers (by decide)
  have hread := (hline line _).mpr ⟨_, rfl, .inl hhas⟩
  obtain ⟨hstripped, hkept⟩ := hpayload options _ _ rfl hread
  refine ⟨hsteps, hsize.trans (congrArg (min 3) hlength.symm), hread, hstripped rfl rfl, hkept,
    hfinished.mpr ⟨[.failure .notFound (by decide)], ?_⟩⟩
  exact .intro (.interrupted .ended) List.not_mem_nil (.empty _)

end LoginNames
