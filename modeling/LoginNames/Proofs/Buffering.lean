import LoginNames.Buffered
import LoginNames.Proofs.Generation

/-! # Writing through a buffer

A buffer hands bytes on later and in other pieces, and all of them in the end. So a sink is left
with what it would be left with if it were written to at once; only the words for a failure may
differ, where the sink takes nothing of what it is given. -/

set_option autoImplicit false

namespace LoginNames

open Writer (writeAll writeEach)

namespace LawfulWriter

variable {σ : Type} [Writer σ] [LawfulWriter σ] {s left : σ} {a : Bytes}

theorem run_append_of_ok (h : (writeAll a).run s = .ok () left) (b : Bytes) :
    (writeAll (a ++ b)).run s = (writeAll b).run left := by
  rw [← writeAll_append, EStateM.run_bind, h]

theorem run_append_of_error {cause : IoError} (h : (writeAll a).run s = .error cause left)
    (b : Bytes) : (writeAll (a ++ b)).run s = .error cause left := by
  rw [← writeAll_append, EStateM.run_bind, h]

end LawfulWriter

namespace Sink

variable {s left : Sink} {bytes : Bytes}

/-- What one write takes is what a write of no more than that takes. -/
theorem writeAll_taken {taken : Nat} (h : (Writer.write bytes).run s = .ok taken left) :
    (writeAll (bytes.take taken)).run s = .ok () left := by
  by_cases hne : bytes = []
  · subst hne
    cases h
    simp [push]
  cases hfull : s.isFull with
  | true =>
    rw [write_full hne hfull] at h
    cases hcause : s.full with
    | some cause => simp [hcause] at h
    | none =>
      simp only [hcause] at h
      cases h
      rw [List.take_zero, Writer.writeAll_nil]
      rfl
  | false =>
    cases (write_room bytes hfull).symm.trans h
    by_cases hmax : s.maxWrite = some 0
    · have hnone : s.fitting bytes.length = 0 := by simp [fitting, hmax]
      rw [hnone, List.take_zero, Writer.writeAll_nil, push_nil]
      rfl
    · refine writeAll_of_hasRoom hmax fun limit hlimit => ?_
      have hfit := (s.fitting_le bytes.length).2 limit hlimit
      have hroom : s.accepted.size < limit := by
        simpa [isFull, Option.mem_def.1 hlimit] using hfull
      rw [List.length_take]
      omega

theorem write_le {taken : Nat} (h : (Writer.write bytes).run s = .ok taken left) :
    taken ≤ bytes.length := by
  change Sink.write bytes s = _ at h
  unfold Sink.write at h
  split at h
  · cases hcause : s.full with
    | some cause => simp [hcause] at h
    | none =>
      simp only [hcause] at h
      cases h
      exact Nat.zero_le _
  · cases h
    exact (s.fitting_le bytes.length).1

/-- A sink that has failed takes nothing more. -/
theorem write_of_writeAll_error {cause : IoError} (h : (writeAll bytes).run s = .error cause left)
    {more : Bytes} (hmore : more ≠ []) :
    (∃ cause', (Writer.write more).run left = .error cause' left) ∨
      (Writer.write more).run left = .ok 0 left := by
  have hstuck (hfull : left.isFull = true) :
      (∃ cause', (Writer.write more).run left = .error cause' left) ∨
        (Writer.write more).run left = .ok 0 left := by
    rw [write_full hmore hfull]
    cases left.full with
    | none => exact .inr rfl
    | some cause' => exact .inl ⟨cause', rfl⟩
  by_cases hne : bytes = []
  · subst hne
    rw [Writer.writeAll_nil] at h
    cases h
  by_cases hmax : s.maxWrite = some 0
  · rw [writeAll_of_idle hmax hne] at h
    cases h
    cases hfull : s.isFull with
    | true => exact hstuck hfull
    | false => exact .inr (by simp [write_room more hfull, fitting, hmax])
  · obtain hroom | ⟨limit, hlimit, hover⟩ := s.hasRoom_or_overflow bytes.length
    · rw [writeAll_of_hasRoom hmax hroom] at h
      cases h
    · rw [writeAll_of_overflow hmax hlimit hover hne] at h
      cases h
      apply hstuck
      simp only [isFull, push, hlimit, Option.any_some, decide_eq_true_eq, Array.size_append,
        List.size_toArray, List.length_take]
      omega

end Sink

namespace Buffered

variable {s : Sink} {sent : Bytes} {b : Buffered Sink}

/-- A buffer that was sent these bytes over a sink: the sink has taken a start of them, and the rest
    is held. -/
def Sent (s : Sink) (sent : Bytes) (b : Buffered Sink) : Prop :=
  ∃ gone, gone ++ b.held.toList = sent ∧ (writeAll gone).run s = .ok () b.inner

/-- A buffer whose sink fails within these bytes. The failure is that of the sink, but that a buffer
    has its own for a sink that takes nothing. -/
def Stopped (s : Sink) (sent : Bytes) (cause : IoError) (b : Buffered Sink) : Prop :=
  ∃ cause', (writeAll sent).run s = .error cause' b.inner ∧
    (cause = cause' ∨ cause' = .writeZero ∧ cause = takesNothing)

theorem Sent.start (s : Sink) : Sent s [] ⟨s, #[]⟩ :=
  ⟨[], rfl, by rw [Writer.writeAll_nil]; rfl⟩

theorem Sent.of_held_empty (h : Sent s sent b) (hheld : b.held = #[]) :
    (writeAll sent).run s = .ok () b.inner := by
  obtain ⟨gone, rfl, hgone⟩ := h
  rw [hheld, List.append_nil]
  exact hgone

theorem Sent.hold (h : Sent s sent b) (bytes : Bytes) :
    Sent s (sent ++ bytes) { b with held := b.held ++ bytes.toArray } := by
  obtain ⟨gone, rfl, hgone⟩ := h
  exact ⟨gone, by simp, hgone⟩

theorem Stopped.append {cause : IoError} (h : Stopped s sent cause b) (more : Bytes) :
    Stopped s (sent ++ more) cause b := by
  obtain ⟨cause', hwrite, hcause⟩ := h
  exact ⟨cause', LawfulWriter.run_append_of_error hwrite more, hcause⟩

/-- A write of what is held moves a start of it to the sink. -/
theorem Sent.taken (h : Sent s sent b) {n : Nat} {inner : Sink}
    (hwrite : (Writer.write b.held.toList).run b.inner = .ok n inner) :
    Sent s sent ⟨inner, b.held.drop n⟩ := by
  obtain ⟨gone, rfl, hgone⟩ := h
  have hheld : (b.held.drop n).toList = b.held.toList.drop n := by
    simp only [Array.toList_extract, List.extract_eq_take_drop]
    exact List.take_of_length_le (by simp)
  refine ⟨gone ++ b.held.toList.take n, ?_, ?_⟩
  · rw [hheld, List.append_assoc, List.take_append_drop]
  · rw [LawfulWriter.run_append_of_ok hgone, Sink.writeAll_taken hwrite]

/-- Writing all bytes to the sink comes down to writing what is held to what it is now. -/
theorem Sent.writeAll_eq (h : Sent s sent b) :
    (writeAll sent).run s = (writeAll b.held.toList).run b.inner := by
  obtain ⟨gone, rfl, hgone⟩ := h
  exact LawfulWriter.run_append_of_ok hgone _

/-- All that is held is handed on, or the sink fails in it. -/
theorem drain_of_sent (h : Sent s sent b) :
    (∃ left, b.drain = .ok () left ∧ left.held = #[] ∧
        (writeAll sent).run s = .ok () left.inner) ∨
      ∃ cause left, b.drain = .error cause left ∧ Stopped s sent cause left := by
  induction b using drain.induct with
  | case1 b hheld =>
    rw [drain, if_pos hheld]
    exact .inl ⟨b, rfl, hheld, h.of_held_empty hheld⟩
  | case2 b hheld cause inner hwrite =>
    have hne : b.held.toList ≠ [] := by simpa using hheld
    have hall := h.writeAll_eq
    rw [Writer.writeAll_run hne, hwrite] at hall
    rw [drain, if_neg hheld, hwrite]
    exact .inr ⟨cause, _, rfl, cause, hall, .inl rfl⟩
  | case3 b hheld inner hwrite =>
    have hne : b.held.toList ≠ [] := by simpa using hheld
    have hall := h.writeAll_eq
    rw [Writer.writeAll_run hne, hwrite] at hall
    rw [drain, if_neg hheld, hwrite]
    exact .inr ⟨takesNothing, _, rfl, .writeZero, hall, .inr ⟨rfl, rfl⟩⟩
  | case4 b hheld taken inner hwrite htaken ih =>
    rw [drain, if_neg hheld, hwrite]
    simp only [htaken, if_false]
    exact ih (h.taken hwrite)

/-- Once its sink has failed, a buffer that is given up hands nothing more on. -/
theorem Stopped.close {cause : IoError} (h : Stopped s sent cause b) : b.close = b.inner := by
  obtain ⟨cause', hwrite, -⟩ := h
  unfold Buffered.close
  rw [drain]
  by_cases hheld : b.held = #[]
  · rw [if_pos hheld]
  · have hne : b.held.toList ≠ [] := by simpa using hheld
    rw [if_neg hheld]
    obtain ⟨cause'', hnext⟩ | hnext := Sink.write_of_writeAll_error hwrite hne
    · rw [hnext]
    · rw [hnext]
      rfl

/-- How a write through a buffer ends: a start of the bytes is sent, or the sink fails in them. -/
inductive Written (s : Sink) (sent bytes : Bytes) :
    EStateM.Result IoError (Buffered Sink) Nat → Prop
  | taken {n : Nat} {left : Buffered Sink} (hpos : n ≠ 0) (hle : n ≤ bytes.length)
      (h : Sent s (sent ++ bytes.take n) left) : Written s sent bytes (.ok n left)
  | nothing {left : Buffered Sink} (h : Stopped s (sent ++ bytes) .writeZero left) :
      Written s sent bytes (.ok 0 left)
  | failed {cause : IoError} {left : Buffered Sink} (h : Stopped s (sent ++ bytes) cause left) :
      Written s sent bytes (.error cause left)

variable {bytes : Bytes}

theorem hold_written (h : Sent s sent b) (hne : bytes ≠ []) :
    Written s sent bytes ((hold bytes).run b) := by
  refine .taken (by simpa using hne) (Nat.le_refl _) ?_
  rw [List.take_length]
  exact h.hold bytes

/-- Bytes that are not held go past an empty buffer. -/
theorem within_written (h : Sent s sent b) (hne : bytes ≠ []) (hheld : b.held = #[]) :
    Written s sent bytes ((within (Writer.write bytes)).run b) := by
  have hall := h.of_held_empty hheld
  have hwrite := Writer.writeAll_run hne b.inner
  rw [← LawfulWriter.run_append_of_ok hall] at hwrite
  change Written s sent bytes (within (Writer.write bytes) b)
  unfold within
  cases hone : (Writer.write bytes).run b.inner with
  | error cause inner =>
    rw [hone] at hwrite
    exact .failed ⟨cause, hwrite, .inl rfl⟩
  | ok n inner =>
    cases n with
    | zero =>
      rw [hone] at hwrite
      exact .nothing ⟨.writeZero, hwrite, .inl rfl⟩
    | succ n =>
      refine .taken (Nat.succ_ne_zero n) ?_ ⟨sent ++ bytes.take (n + 1), ?_, ?_⟩
      · exact Sink.write_le hone
      · rw [hheld, List.append_nil]
      · rw [LawfulWriter.run_append_of_ok hall, Sink.writeAll_taken hone]

theorem place_written (h : Sent s sent b) (hne : bytes ≠ [])
    (hheld : b.held = #[] ∨ bytes.length < capacity) :
    Written s sent bytes ((place bytes).run b) := by
  unfold place
  split
  · next hlong =>
    obtain hempty | hshort := hheld
    · exact within_written h hne hempty
    · omega
  · exact hold_written h hne

theorem write_written (h : Sent s sent b) (hne : bytes ≠ []) :
    Written s sent bytes ((Writer.write bytes).run b) := by
  change Written s sent bytes ((Buffered.write bytes).run b)
  unfold Buffered.write
  simp only [EStateM.run_bind, EStateM.run_get]
  by_cases hspare : bytes.length < capacity - b.held.size
  · rw [if_pos hspare]
    exact hold_written h hne
  rw [if_neg hspare]
  by_cases hroom : capacity - b.held.size < bytes.length
  · rw [if_pos hroom]
    change Written s sent bytes ((EStateM.bind drain fun _ => place bytes) b)
    unfold EStateM.bind
    obtain ⟨left, hdrain, hheld, hall⟩ | ⟨cause, left, hdrain, hstopped⟩ := drain_of_sent h
    · rw [hdrain]
      exact place_written ⟨sent, by rw [hheld, List.append_nil], hall⟩ hne (.inl hheld)
    · rw [hdrain]
      exact .failed (hstopped.append bytes)
  · -- The bytes fit exactly, so that they are long only where nothing is held.
    rw [if_neg hroom]
    refine place_written h hne ?_
    by_cases hheld : b.held = #[]
    · exact .inl hheld
    · have := Array.size_pos_iff.2 hheld
      have := List.length_pos_iff.2 hne
      exact .inr (by omega)

/-- How bytes end that are written through a buffer with a counter around it: they are sent and
    counted, or the sink fails in them. -/
inductive Ended (s : Sink) (sent : Bytes) :
    EStateM.Result IoError (Counted (Buffered Sink)) Unit → Prop
  | sent {left : Buffered Sink} (h : Sent s sent left) : Ended s sent (.ok () ⟨left, sent.length⟩)
  | stopped {cause : IoError} {left : Buffered Sink} {count : Nat}
      (h : Stopped s sent cause left) : Ended s sent (.error cause ⟨left, count⟩)

theorem writeAll_ended (h : Sent s sent b) (bytes : Bytes) :
    Ended s (sent ++ bytes)
      ((writeAll bytes).run (⟨b, sent.length⟩ : Counted (Buffered Sink))) := by
  induction bytes using Writer.writeAll.induct generalizing sent b with
  | case1 =>
    rw [Writer.writeAll_nil, List.append_nil]
    exact .sent h
  | case2 bytes hne ih =>
    rw [Writer.writeAll_run hne, Counted.write_run]
    have hwritten := write_written h hne
    generalize (Writer.write bytes).run b = written at hwritten ⊢
    cases hwritten with
    | failed hstopped => exact .stopped hstopped
    | nothing hstopped => exact .stopped hstopped
    | @taken n left hpos hle hsent =>
      obtain ⟨n, rfl⟩ := Nat.exists_eq_succ_of_ne_zero hpos
      have hrest := ih (n + 1) hpos hsent
      rw [List.append_assoc, List.take_append_drop, List.length_append, List.length_take,
        Nat.min_eq_left hle] at hrest
      exact hrest

theorem writeEach_ended (h : Sent s sent b) (pieces : List Bytes) :
    Ended s (sent ++ pieces.flatten)
      ((writeEach pieces).run (⟨b, sent.length⟩ : Counted (Buffered Sink))) := by
  induction pieces generalizing sent b with
  | nil =>
    rw [Writer.writeEach_nil, List.flatten_nil, List.append_nil]
    exact .sent h
  | cons piece pieces ih =>
    rw [Writer.writeEach_cons, List.flatten_cons, EStateM.run_bind, ← List.append_assoc]
    have hended := writeAll_ended h piece
    generalize (writeAll piece).run (⟨b, sent.length⟩ : Counted (Buffered Sink)) = ended
      at hended ⊢
    cases hended with
    | sent hsent => exact ih hsent
    | stopped hstopped => exact .stopped (hstopped.append _)

theorem close_of_held_empty (hheld : b.held = #[]) : b.close = b.inner := by
  rw [close, drain, if_pos hheld]

/-- The same end, seen at once and through a buffer that is given up then. -/
inductive SameEnd {α : Type} : EStateM.Result IoError (Counted Sink) α →
    EStateM.Result IoError (Counted (Buffered Sink)) α → Prop
  | ok {a : α} {b : Buffered Sink} {left : Sink} {count : Nat} (h : b.close = left) :
      SameEnd (.ok a ⟨left, count⟩) (.ok a ⟨b, count⟩)
  | error {cause : IoError} {b : Buffered Sink} {left : Sink} {count count' : Nat}
      (h : b.close = left) : SameEnd (.error cause ⟨left, count⟩) (.error cause ⟨b, count'⟩)
  | nothing {b : Buffered Sink} {left : Sink} {count count' : Nat} (h : b.close = left) :
      SameEnd (.error .writeZero ⟨left, count⟩) (.error takesNothing ⟨b, count'⟩)

theorem Stopped.sameEnd {α : Type} {cause : IoError} (h : Stopped s sent cause b)
    (count' : Nat) : ∃ cause' left, (writeAll sent).run s = .error cause' left ∧
      ∀ count, SameEnd (α := α) (.error cause' ⟨left, count⟩) (.error cause ⟨b, count'⟩) := by
  have hclose := h.close
  obtain ⟨cause', hwrite, hcause⟩ := h
  refine ⟨cause', b.inner, hwrite, fun count => ?_⟩
  obtain rfl | ⟨rfl, rfl⟩ := hcause
  · exact .error hclose
  · exact .nothing hclose

/-- A flush hands on what is held first, and then flushes the sink. -/
theorem flush_of_sent (h : Sent s sent b) :
    (∃ inner, (writeAll sent).run s = .ok () inner ∧
        Writer.flush.run b = match inner.flushFailure with
          | none => .ok () ⟨inner.flushed, #[]⟩
          | some cause => .error cause ⟨inner.flushed, #[]⟩) ∨
      ∃ cause left, Writer.flush.run b = .error cause left ∧ Stopped s sent cause left := by
  have hflush : Writer.flush.run b = EStateM.bind drain (fun _ => within Writer.flush) b := rfl
  rw [hflush]
  unfold EStateM.bind
  obtain ⟨left, hdrain, hheld, hall⟩ | ⟨cause, left, hdrain, hstopped⟩ := drain_of_sent h
  · obtain ⟨inner, held⟩ := left
    subst hheld
    rw [hdrain]
    refine .inl ⟨inner, hall, ?_⟩
    simp only [within, Sink.flush_run]
    cases inner.flushFailure <;> rfl
  · rw [hdrain]
    exact .inr ⟨cause, left, rfl, hstopped⟩

theorem writeLines_sameEnd (t : Template) (firsts lasts : NameList) (sink : Sink) :
    SameEnd ((t.writeLines firsts lasts).run (⟨sink, 0⟩ : Counted Sink))
      ((t.writeLines firsts lasts).run (⟨⟨sink, #[]⟩, 0⟩ : Counted (Buffered Sink))) := by
  obtain ⟨pieces, hpieces, hrows⟩ := t.exists_writeEach_rows lasts firsts
  rw [Template.writeLines_run]
  simp only [Template.writeLines, hrows, bind_assoc, pure_bind, EStateM.run_bind]
  have hended := writeEach_ended (.start sink) pieces
  rw [List.nil_append, hpieces, List.length_nil] at hended
  generalize (writeEach pieces).run (⟨⟨sink, #[]⟩, 0⟩ : Counted (Buffered Sink)) = ended
    at hended ⊢
  cases hended with
  | @stopped cause left count hstopped =>
    obtain ⟨cause', inner, hwrite, hsame⟩ := hstopped.sameEnd (α := Nat) count
    rw [hwrite]
    exact hsame _
  | @sent left hsent =>
    simp only [Counted.flush_run]
    obtain ⟨inner, hwrite, hflush⟩ | ⟨cause, after, hflush, hstopped⟩ := flush_of_sent hsent
    · have hcount : inner.accepted.size - sink.accepted.size =
          (t.output firsts lasts).length := by
        rw [Sink.writeAll_eq_ok hwrite, Sink.push_size, Nat.add_sub_cancel_left]
      rw [hwrite, hflush]
      cases hfailure : inner.flushFailure with
      | none =>
        simp only [hfailure, hcount, Nat.zero_add]
        exact .ok (close_of_held_empty rfl)
      | some cause =>
        simp only [hfailure]
        exact .error (close_of_held_empty rfl)
    · obtain ⟨cause', inner, hwrite, hsame⟩ := hstopped.sameEnd (α := Nat) _
      rw [hwrite, hflush]
      exact hsame _

/-- The same result, but that a buffer has its own words for a sink that takes nothing. -/
inductive SameResult : Except Failure Report → Except Failure Report → Prop
  | same (result : Except Failure Report) : SameResult result result
  | nothing : SameResult (.error (.io .writeZero)) (.error (.io takesNothing))

theorem SameResult.eq_ok_iff {plain held : Except Failure Report} (h : SameResult plain held)
    (report : Report) : held = .ok report ↔ plain = .ok report := by
  cases h with
  | same => rfl
  | nothing => simp

theorem SameResult.exists_error {failure : Failure} {held : Except Failure Report}
    (h : SameResult (.error failure) held) : ∃ failure', held = .error failure' := by
  cases h with
  | same => exact ⟨_, rfl⟩
  | nothing => exact ⟨_, rfl⟩

end Buffered

/-- A generation through a buffer tells what a generation without one tells, ends as that ends, and
    leaves the sink as that leaves it. -/
theorem generate_buffered (maxLines : Option Nat) (firsts lasts : NameList) (t : Template)
    (sink : Sink) :
    let plain := generate maxLines firsts lasts t sink
    let held := generate maxLines firsts lasts t (⟨sink, #[]⟩ : Buffered Sink)
    held.notices = plain.notices ∧ held.sink.close = plain.sink ∧
      Buffered.SameResult plain.result held.result := by
  cases hcheck : checkLimit maxLines firsts lasts with
  | error failure =>
    simp only [generate, hcheck, true_and]
    exact ⟨Buffered.close_of_held_empty rfl, .same _⟩
  | ok =>
    have hend := Buffered.writeLines_sameEnd t firsts lasts sink
    simp only [generate_eq_writeLines hcheck]
    generalize (t.writeLines firsts lasts).run (⟨sink, 0⟩ : Counted Sink) = plain,
      (t.writeLines firsts lasts).run (⟨⟨sink, #[]⟩, 0⟩ : Counted (Buffered Sink)) = held
      at hend ⊢
    cases hend with
    | ok h => exact ⟨rfl, h, .same _⟩
    | error h => exact ⟨rfl, h, .same _⟩
    | nothing h => exact ⟨rfl, h, .nothing⟩

end LoginNames
