import LoginNames.Proofs.Expansions
import LoginNames.Proofs.Steps

/-! # What an expansion has passed

An expansion passes its template from the front to the end, one placeholder after the other, each
with the literal run before it. What it has passed is all of the template up to the run that is
still open, each byte once and in its order, and what it has written are the same runs with what
the placeholders stand for between them. -/

set_option autoImplicit false

namespace LoginNames

open Writer (writeAll)

/-- A literal run, the placeholder that has closed it, and the bytes that this one spans. -/
structure Passage where
  run : Bytes
  placeholder : Placeholder
  span : Bytes
deriving DecidableEq

namespace Passage

def source (p : Passage) : Bytes := p.run ++ p.span

def written (first last : Bytes) (p : Passage) : Bytes :=
  p.run ++ p.placeholder.render first last

def consumed (passages : List Passage) : Nat := (passages.map (·.span.length)).sum

def rendered (first last : Bytes) (passages : List Passage) : Nat :=
  (passages.map fun p => (p.placeholder.render first last).length).sum

theorem written_length (first last : Bytes) (passages : List Passage) :
    (passages.flatMap (written first last)).length + consumed passages =
      (passages.flatMap source).length + rendered first last passages := by
  induction passages with
  | nil => rfl
  | cons p passages ih =>
    simp only [consumed, rendered] at ih
    simp only [consumed, rendered, List.flatMap_cons, List.length_append, List.map_cons,
      List.sum_cons, written, source]
    omega

theorem consumed_le (passages : List Passage) :
    consumed passages ≤ (passages.flatMap source).length := by
  induction passages with
  | nil => exact Nat.zero_le _
  | cons p passages ih =>
    simp only [consumed] at ih
    simp only [consumed, List.map_cons, List.sum_cons, List.flatMap_cons,
      List.length_append, source]
    omega

end Passage

namespace Template

def passage (t : Template) (c : Cursor) (m : PlaceholderMatch) : Passage :=
  ⟨t.slice c.literalStart c.position, m.placeholder, t.slice c.position (c.position + m.width)⟩

theorem take_append_slice (t : Template) {start stop : Nat} (h : start ≤ stop) :
    t.source.take start ++ t.slice start stop = t.source.take stop := by
  have htake : t.source.take start = (t.source.take stop).take start := by
    rw [List.take_take, Nat.min_eq_left h]
  rw [htake, slice, List.take_append_drop]

/-- An expansion under way, and what it has passed. -/
structure Trail where
  cursor : Cursor
  passages : List Passage
deriving DecidableEq

namespace Trail

def start : Trail := ⟨.start, []⟩

/-- One turn of the scan, unless it is at the end of the template. -/
def next (t : Template) (s : Trail) : Option Trail :=
  if s.cursor.position < t.source.length then
    match t.match? s.cursor.position with
    | some m => some ⟨s.cursor.next (some m), s.passages ++ [t.passage s.cursor m]⟩
    | none => some ⟨s.cursor.next none, s.passages⟩
  else none

variable {t : Template} {s s' : Trail}

theorem next_cases (h : s.next t = some s') : s.cursor.position < t.source.length ∧
    ((∃ m, t.match? s.cursor.position = some m ∧
        s' = ⟨s.cursor.next (some m), s.passages ++ [t.passage s.cursor m]⟩) ∨
      t.match? s.cursor.position = none ∧ s' = ⟨s.cursor.next none, s.passages⟩) := by
  obtain ⟨hposition, hturn⟩ := Option.ite_none_right_eq_some.mp h
  refine ⟨hposition, ?_⟩
  cases hmatch : t.match? s.cursor.position with
  | some m =>
    rw [hmatch] at hturn
    exact .inl ⟨m, rfl, (Option.some.inj hturn).symm⟩
  | none =>
    rw [hmatch] at hturn
    exact .inr ⟨rfl, (Option.some.inj hturn).symm⟩

theorem position_of_last (h : s.next t = none) : ¬s.cursor.position < t.source.length := by
  intro hposition
  rw [next, if_pos hposition] at h
  split at h <;> cases h

/-- The cursor is within the template, and what is passed is the template before the open run. -/
structure Valid (t : Template) (s : Trail) : Prop where
  cursor : s.cursor.Valid t
  covers : s.passages.flatMap Passage.source = t.source.take s.cursor.literalStart

theorem Valid.start (t : Template) : start.Valid t := ⟨.start t, rfl⟩

theorem Valid.next (h : s.Valid t) (hnext : s.next t = some s') : s'.Valid t := by
  obtain ⟨hposition, ⟨m, hmatch, rfl⟩ | ⟨hmatch, rfl⟩⟩ := next_cases hnext
  · refine ⟨h.cursor.next_match hmatch, ?_⟩
    rw [List.flatMap_append, List.flatMap_singleton, h.covers, Passage.source, ← List.append_assoc]
    simp only [passage, Cursor.next]
    rw [take_append_slice t h.cursor.start_le, take_append_slice t (Nat.le_add_right _ _)]
  · exact ⟨h.cursor.next_literal hposition, h.covers⟩

theorem next_position (hnext : s.next t = some s') : s.cursor.position < s'.cursor.position := by
  obtain ⟨-, ⟨m, hmatch, rfl⟩ | ⟨-, rfl⟩⟩ := next_cases hnext
  · exact Nat.lt_add_of_pos_right (match?_width hmatch).1
  · exact Nat.lt_succ_self _

/-- After as many turns the position is at least as far, and the trail is still valid. -/
theorem valid_of_steps {n : Nat} (h : Steps (Trail.next t) n .start s) :
    s.Valid t ∧ n ≤ s.cursor.position := by
  have hstep (n : Nat) (a b : Trail) : (a.Valid t ∧ n ≤ a.cursor.position) → a.next t = some b →
      b.Valid t ∧ n + 1 ≤ b.cursor.position := by
    rintro ⟨hvalid, hcount⟩ hnext
    exact ⟨hvalid.next hnext, Nat.succ_le_of_lt (Nat.lt_of_le_of_lt hcount (next_position hnext))⟩
  simpa only [Nat.zero_add] using h.invariant hstep ⟨.start t, Nat.zero_le _⟩

theorem exists_last (t : Template) : ∃ n s, Steps (Trail.next t) n .start s ∧ s.next t = none := by
  have hcloser (a b : Trail) (h : a.next t = some b) :
      t.source.length - b.cursor.position < t.source.length - a.cursor.position := by
    have := next_position h
    have := (next_cases h).1
    omega
  exact exists_last_step hcloser .start

end Trail

section Writer

variable {σ : Type} [Writer σ] (first last : Bytes)

/-- The writes of each run and of what its placeholder stands for. -/
def writePassages (passages : List Passage) : EStateM IoError σ Unit :=
  forM passages fun p => do
    writeAll p.run
    writeAll (p.placeholder.render first last)

/-- All the writes of an expansion, of which the first are those of what is passed. -/
def writeTrail (t : Template) (s : Trail) : EStateM IoError σ Unit := do
  writePassages first last s.passages
  t.expandFrom first last s.cursor

variable {t : Template} {s s' : Trail}

theorem writeTrail_next (h : s.next t = some s') :
    (t.writeTrail first last s' : EStateM IoError σ Unit) = t.writeTrail first last s := by
  obtain ⟨hposition, ⟨m, hmatch, rfl⟩ | ⟨hmatch, rfl⟩⟩ := Trail.next_cases h
  · simp only [writeTrail, expandFrom_of_match first last hposition hmatch, writePassages,
      List.forM_append, List.forM_cons, List.forM_nil, bind_assoc, pure_bind, passage]
  · simp only [writeTrail, expandFrom_of_literal first last hposition hmatch]

theorem writeTrail_steps {n : Nat} (h : Steps (Trail.next t) n s s') :
    (t.writeTrail first last s' : EStateM IoError σ Unit) = t.writeTrail first last s := by
  induction h with
  | refl s => rfl
  | next hfirst _ ih => rw [ih, writeTrail_next first last hfirst]

/-- What an expansion has passed is written first, and the rest from its cursor on. -/
theorem expand_eq_writeTrail {n : Nat} (h : Steps (Trail.next t) n .start s) :
    (t.expand first last : EStateM IoError σ Unit) = t.writeTrail first last s := by
  rw [writeTrail_steps first last h]
  rfl

theorem writePassages_eq [LawfulWriter σ] (passages : List Passage) :
    (writePassages first last passages : EStateM IoError σ Unit) =
      writeAll (passages.flatMap (Passage.written first last)) := by
  induction passages with
  | nil =>
    rw [List.flatMap_nil, Writer.writeAll_nil]
    rfl
  | cons p passages ih =>
    rw [writePassages] at ih
    rw [writePassages, List.forM_cons, ih, List.flatMap_cons, LawfulWriter.writeAll_append,
      LawfulWriter.writeAll_append]
    rfl

end Writer

section Last

variable {t : Template} {s : Trail} {n : Nat}

theorem expand_of_last {σ : Type} [Writer σ] (first last : Bytes)
    (h : Steps (Trail.next t) n .start s) (hlast : s.next t = none) :
    (t.expand first last : EStateM IoError σ Unit) = (do
      writePassages first last s.passages
      writeAll (t.slice s.cursor.literalStart t.source.length)) := by
  rw [expand_eq_writeTrail first last h, writeTrail,
    expandFrom_of_end first last (Trail.position_of_last hlast)]

/-- At the end the open run is all that is not passed. -/
theorem source_of_last (h : Steps (Trail.next t) n .start s) :
    s.passages.flatMap Passage.source ++ t.slice s.cursor.literalStart t.source.length =
      t.source := by
  obtain ⟨hvalid, -⟩ := Trail.valid_of_steps h
  rw [hvalid.covers, take_append_slice t (hvalid.cursor.start_le.trans hvalid.cursor.position_le),
    List.take_length]

theorem expansion_of_last (first last : Bytes) (h : Steps (Trail.next t) n .start s)
    (hlast : s.next t = none) :
    t.expansion first last = s.passages.flatMap (Passage.written first last) ++
      t.slice s.cursor.literalStart t.source.length := by
  apply expansion_of_write
  rw [write, expand_of_last first last h hlast, writePassages_eq, LawfulWriter.writeAll_append]

theorem expansion_length (first last : Bytes) (h : Steps (Trail.next t) n .start s)
    (hlast : s.next t = none) :
    (t.expansion first last).length + Passage.consumed s.passages =
      t.source.length + Passage.rendered first last s.passages := by
  have hwritten := Passage.written_length first last s.passages
  have hsource := congrArg List.length (source_of_last h)
  rw [List.length_append] at hsource
  rw [expansion_of_last first last h hlast, List.length_append]
  omega

end Last

/-- In each turn of an expansion the open run and the position are within the template, and the turn
    takes the position further. What is passed is the template before the open run, and its runs and
    what its placeholders stand for are what is written so far. So the expansion is at its end after
    no more turns than the template has bytes; what is passed and the open run are then the whole
    template, and an expansion is longer by what is filled in and shorter by what is replaced. -/
theorem expand_partitions (t : Template) :
    (∀ n s, Steps (Trail.next t) n .start s →
      s.cursor.literalStart ≤ s.cursor.position ∧ s.cursor.position ≤ t.source.length ∧
      n ≤ s.cursor.position ∧
      s.passages.flatMap Passage.source = t.source.take s.cursor.literalStart ∧
      (∀ s', s.next t = some s' →
        s.cursor.position < s'.cursor.position ∧ s'.cursor.position ≤ t.source.length) ∧
      ∀ (σ : Type) [Writer σ] (first last : Bytes),
        (t.expand first last : EStateM IoError σ Unit) = (do
          writePassages first last s.passages
          t.expandFrom first last s.cursor)) ∧
    (∃ n s, Steps (Trail.next t) n .start s ∧ s.next t = none ∧ n ≤ t.source.length) ∧
    ∀ n s, Steps (Trail.next t) n .start s → s.next t = none →
      s.passages.flatMap Passage.source ++ t.slice s.cursor.literalStart t.source.length =
        t.source ∧
      (∀ (σ : Type) [Writer σ] (first last : Bytes),
        (t.expand first last : EStateM IoError σ Unit) = (do
          writePassages first last s.passages
          writeAll (t.slice s.cursor.literalStart t.source.length))) ∧
      ∀ first last, Passage.consumed s.passages ≤ t.source.length ∧
        (t.expansion first last).length =
          t.source.length - Passage.consumed s.passages +
            Passage.rendered first last s.passages := by
  refine ⟨fun n s hsteps => ?_, ?_, fun n s hsteps hlast => ?_⟩
  · obtain ⟨hvalid, hcount⟩ := Trail.valid_of_steps hsteps
    refine ⟨hvalid.cursor.start_le, hvalid.cursor.position_le, hcount, hvalid.covers,
      fun s' hnext => ?_, fun σ _ first last => expand_eq_writeTrail first last hsteps⟩
    exact ⟨Trail.next_position hnext, (hvalid.next hnext).cursor.position_le⟩
  · obtain ⟨n, s, hsteps, hlast⟩ := Trail.exists_last t
    obtain ⟨hvalid, hcount⟩ := Trail.valid_of_steps hsteps
    exact ⟨n, s, hsteps, hlast, hcount.trans hvalid.cursor.position_le⟩
  · have hsource := source_of_last hsteps
    have hconsumed : Passage.consumed s.passages ≤ t.source.length := by
      have hlength := congrArg List.length hsource
      have := Passage.consumed_le s.passages
      rw [List.length_append] at hlength
      omega
    refine ⟨hsource, fun σ _ first last => expand_of_last first last hsteps hlast,
      fun first last => ⟨hconsumed, ?_⟩⟩
    have := expansion_length first last hsteps hlast
    omega

/-- Two literal runs of one byte, a group that is closed, and one that reaches to the end. -/
theorem expand_partitions_unclosed :
    let t := ofString "<\x7blastname\x7d(1)-\x7bfirstname\x7d(2 x"
    let s : Trail := ⟨⟨30, 30⟩,
      [⟨Bytes.ofString "<", ⟨.lastname, some 1⟩, Bytes.ofString "\x7blastname\x7d(1)"⟩,
        ⟨Bytes.ofString "-", ⟨.firstname, some 2⟩, Bytes.ofString "\x7bfirstname\x7d(2 x"⟩]⟩
    Steps (Trail.next t) 4 .start s ∧ s.next t = none ∧ 4 ≤ s.cursor.position ∧
      s.passages.flatMap Passage.source ++ t.slice 30 t.source.length = t.source ∧
      (t.expansion (Bytes.ofString "ann") (Bytes.ofString "weir")).length = 30 - 28 + 3 := by
  intro t s
  let middle : Trail := ⟨⟨14, 14⟩, s.passages.take 1⟩
  have hrest : Steps (Trail.next t) 2 middle s :=
    .next (b := ⟨⟨14, 15⟩, middle.passages⟩) (by decide +kernel)
      (.next (by decide +kernel) (.refl s))
  have hsteps : Steps (Trail.next t) 4 .start s :=
    .next (b := ⟨⟨0, 1⟩, []⟩) (by decide +kernel) (.next (by decide +kernel) hrest)
  have hlast : s.next t = none := by decide +kernel
  obtain ⟨hturn, -, hend⟩ := expand_partitions t
  obtain ⟨-, -, hcount, -⟩ := hturn 4 s hsteps
  obtain ⟨hsource, -, hlength⟩ := hend 4 s hsteps hlast
  refine ⟨hsteps, hlast, hcount, hsource, (hlength _ _).2.trans ?_⟩
  decide +kernel

end Template

end LoginNames
