import LoginNames.Sink

/-! # Writing everything

What `writeAll` leaves in a sink and whether it fails depends on the bytes as a whole. So a sink
cannot tell two writes in a row from one write of both, and neither can a counter around it. -/

set_option autoImplicit false

namespace LoginNames

open Writer (writeAll)

/-- Two writes in a row are one write of both. -/
class LawfulWriter (σ : Type) [Writer σ] : Prop where
  writeAll_append (a b : Bytes) :
    (do writeAll a; writeAll b : EStateM IoError σ Unit) = writeAll (a ++ b)

namespace Writer

variable {σ : Type} [Writer σ]

@[simp] theorem writeAll_nil : writeAll (σ := σ) [] = pure () := by
  rw [writeAll, if_pos rfl]

theorem writeAll_run {bytes : Bytes} (hne : bytes ≠ []) (s : σ) :
    (writeAll bytes).run s = match (write bytes).run s with
      | .error cause s' => .error cause s'
      | .ok 0 s' => .error .writeZero s'
      | .ok (n + 1) s' => (writeAll (bytes.drop (n + 1))).run s' := by
  rw [writeAll, if_neg hne, EStateM.run_bind]
  cases (write bytes).run s with
  | error cause s' => rfl
  | ok taken s' => cases taken <;> rfl

/-- Several writes in a row. -/
def writeEach (pieces : List Bytes) : EStateM IoError σ Unit := pieces.forM writeAll

@[simp] theorem writeEach_nil : writeEach (σ := σ) [] = pure () := rfl

@[simp] theorem writeEach_cons (piece : Bytes) (pieces : List Bytes) :
    (writeEach (piece :: pieces) : EStateM IoError σ Unit) =
      (do writeAll piece; writeEach pieces) := rfl

theorem writeEach_singleton (piece : Bytes) :
    (writeEach [piece] : EStateM IoError σ Unit) = writeAll piece := by
  rw [writeEach_cons, writeEach_nil, bind_pure_unit]

theorem writeEach_append (pieces more : List Bytes) :
    (writeEach (pieces ++ more) : EStateM IoError σ Unit) =
      (do writeEach pieces; writeEach more) :=
  List.forM_append

theorem writeEach_eq [LawfulWriter σ] (pieces : List Bytes) :
    (writeEach pieces : EStateM IoError σ Unit) = writeAll pieces.flatten := by
  induction pieces with
  | nil => exact writeAll_nil.symm
  | cons piece pieces ih =>
    rw [writeEach_cons, ih, LawfulWriter.writeAll_append, List.flatten_cons]

end Writer

namespace Sink

@[simp] theorem push_nil (s : Sink) : s.push [] = s := by simp [push]

@[simp] theorem push_push (s : Sink) (a b : Bytes) : (s.push a).push b = s.push (a ++ b) := by
  simp [push]

@[simp] theorem push_size (s : Sink) (bytes : Bytes) :
    (s.push bytes).accepted.size = s.accepted.size + bytes.length := by
  simp [push]

/-- The bytes that the sink can still take before it is over its limit. -/
def HasRoom (s : Sink) (length : Nat) : Prop :=
  ∀ limit ∈ s.limit, s.accepted.size + length ≤ limit

theorem hasRoom_or_overflow (s : Sink) (length : Nat) :
    s.HasRoom length ∨ ∃ limit, s.limit = some limit ∧ limit < s.accepted.size + length := by
  cases hlimit : s.limit with
  | none => exact .inl fun limit h => by simp [hlimit] at h
  | some limit =>
    by_cases h : s.accepted.size + length ≤ limit
    · refine .inl fun other hother => ?_
      rw [hlimit] at hother
      cases hother
      exact h
    · exact .inr ⟨limit, rfl, by omega⟩

theorem isFull_of_hasRoom {s : Sink} {length : Nat} (hpos : 0 < length)
    (hroom : s.HasRoom length) : s.isFull = false := by
  cases hlimit : s.limit with
  | none => simp [isFull, hlimit]
  | some limit =>
    have := hroom limit hlimit
    simp only [isFull, hlimit, Option.any_some, decide_eq_false_iff_not]
    omega

theorem room_of_isFull {s : Sink} {limit : Nat} (hlimit : s.limit = some limit)
    (hfull : s.isFull = true) : limit - s.accepted.size = 0 := by
  simp only [isFull, hlimit, Option.any_some, decide_eq_true_eq] at hfull
  omega

theorem fitting_pos {s : Sink} {length : Nat} (hmax : s.maxWrite ≠ some 0)
    (hfull : s.isFull = false) (hpos : 0 < length) : 0 < s.fitting length := by
  have hmost : 0 < s.maxWrite.getD length := by
    cases hm : s.maxWrite with
    | none => exact hpos
    | some most =>
      have : most ≠ 0 := fun h => hmax (h ▸ hm)
      simp only [Option.getD_some]
      omega
  have hleft : 0 < (s.limit.map (· - s.accepted.size)).getD length := by
    cases hlimit : s.limit with
    | none => exact hpos
    | some limit =>
      simp only [isFull, hlimit, Option.any_some, decide_eq_false_iff_not] at hfull
      simp only [Option.map_some, Option.getD_some]
      omega
  unfold fitting
  omega

theorem fitting_le (s : Sink) (length : Nat) :
    s.fitting length ≤ length ∧
      ∀ limit ∈ s.limit, s.fitting length ≤ limit - s.accepted.size := by
  refine ⟨Nat.min_le_left _ _, fun limit hlimit => ?_⟩
  rw [Option.mem_def] at hlimit
  simp only [fitting, hlimit, Option.map_some, Option.getD_some]
  omega

theorem write_full {s : Sink} {bytes : Bytes} (hne : bytes ≠ []) (h : s.isFull = true) :
    (Writer.write bytes).run s = match s.full with
      | none => .ok 0 s
      | some cause => .error cause s := if_pos ⟨hne, h⟩

theorem write_room {s : Sink} (bytes : Bytes) (h : s.isFull = false) :
    (Writer.write bytes).run s =
      .ok (s.fitting bytes.length) (s.push (bytes.take (s.fitting bytes.length))) :=
  if_neg fun hfull => Bool.false_ne_true (h.symm.trans hfull.2)

theorem writeAll_full {s : Sink} {bytes : Bytes} (hne : bytes ≠ []) (h : s.isFull = true) :
    (writeAll bytes).run s = .error (s.full.getD .writeZero) s := by
  rw [Writer.writeAll_run hne, write_full hne h]
  cases s.full <;> rfl

theorem writeAll_room {s : Sink} {bytes : Bytes} (hmax : s.maxWrite ≠ some 0) (hne : bytes ≠ [])
    (h : s.isFull = false) : ∃ n, n + 1 = s.fitting bytes.length ∧
      (writeAll bytes).run s =
        (writeAll (bytes.drop (n + 1))).run (s.push (bytes.take (n + 1))) := by
  obtain ⟨n, hn⟩ := Nat.exists_eq_add_one.2 (fitting_pos hmax h (List.length_pos_iff.2 hne))
  refine ⟨n, hn.symm, ?_⟩
  rw [Writer.writeAll_run hne, write_room bytes h, hn]

theorem writeAll_of_hasRoom {s : Sink} {bytes : Bytes} (hmax : s.maxWrite ≠ some 0)
    (hroom : s.HasRoom bytes.length) : (writeAll bytes).run s = .ok () (s.push bytes) := by
  induction bytes using Writer.writeAll.induct generalizing s with
  | case1 => simp
  | case2 bytes hne ih =>
    obtain ⟨n, hn, hwrite⟩ := writeAll_room hmax hne
      (isFull_of_hasRoom (List.length_pos_iff.2 hne) hroom)
    have hroom' : (s.push (bytes.take (n + 1))).HasRoom (bytes.drop (n + 1)).length := by
      intro limit hlimit
      have := hroom limit hlimit
      have := (s.fitting_le bytes.length).1
      simp only [push_size, List.length_drop, List.length_take]
      omega
    have hrest := ih (n + 1) (by omega) (s := s.push (bytes.take (n + 1))) hmax hroom'
    rw [hwrite, hrest, push_push, List.take_append_drop]

/-- A sink that takes whatever comes, be it in small writes. -/
structure Unlimited (s : Sink) : Prop where
  limit : s.limit = none
  maxWrite : s.maxWrite ≠ some 0

theorem Unlimited.writeAll_run {s : Sink} (h : s.Unlimited) (bytes : Bytes) :
    (writeAll bytes).run s = .ok () (s.push bytes) :=
  writeAll_of_hasRoom h.maxWrite fun limit hlimit => by simp [h.limit] at hlimit

/-- A sink that the bytes overflow is left with as many of them as fit. -/
theorem writeAll_of_overflow {s : Sink} {bytes : Bytes} {limit : Nat}
    (hmax : s.maxWrite ≠ some 0) (hlimit : s.limit = some limit)
    (hover : limit < s.accepted.size + bytes.length) (hne : bytes ≠ []) :
    (writeAll bytes).run s = .error (s.full.getD .writeZero)
      (s.push (bytes.take (limit - s.accepted.size))) := by
  induction bytes using Writer.writeAll.induct generalizing s with
  | case1 => exact absurd rfl hne
  | case2 bytes _ ih =>
    cases hfull : s.isFull with
    | true =>
      rw [writeAll_full hne hfull, room_of_isFull hlimit hfull, List.take_zero, push_nil]
    | false =>
      obtain ⟨n, hn, hwrite⟩ := writeAll_room hmax hne hfull
      obtain ⟨hlength, hroom⟩ := s.fitting_le bytes.length
      have hleft := hroom limit hlimit
      -- The first write takes `n + 1` bytes, and the rest of them overflow what is left.
      have hsize : (s.push (bytes.take (n + 1))).accepted.size = s.accepted.size + (n + 1) := by
        rw [push_size, List.length_take]
        omega
      have htake : bytes.take (limit - s.accepted.size) = bytes.take (n + 1) ++
          (bytes.drop (n + 1)).take (limit - (s.accepted.size + (n + 1))) := by
        rw [← List.take_add]
        congr 1
        omega
      have hover' : limit <
          (s.push (bytes.take (n + 1))).accepted.size + (bytes.drop (n + 1)).length := by
        rw [hsize, List.length_drop]
        omega
      have hne' : bytes.drop (n + 1) ≠ [] := by
        rw [Ne, List.drop_eq_nil_iff]
        omega
      have hrest := ih (n + 1) (by omega) (s := s.push (bytes.take (n + 1))) hmax hlimit hover' hne'
      rw [hwrite, hrest, push_push, hsize, htake]
      rfl

theorem writeAll_of_idle {s : Sink} {bytes : Bytes} (hmax : s.maxWrite = some 0)
    (hne : bytes ≠ []) :
    (writeAll bytes).run s =
      .error (if s.isFull then s.full.getD .writeZero else .writeZero) s := by
  cases hfull : s.isFull with
  | true => exact writeAll_full hne hfull
  | false =>
    have hzero : s.fitting bytes.length = 0 := by
      simp only [fitting, hmax, Option.getD_some]
      omega
    rw [Writer.writeAll_run hne, write_room bytes hfull, hzero]
    simp

theorem writeAll_push {s : Sink} {a : Bytes} (hmax : s.maxWrite ≠ some 0)
    (hroom : s.HasRoom a.length) (b : Bytes) :
    (writeAll b).run (s.push a) = (writeAll (a ++ b)).run s := by
  have hmax' : (s.push a).maxWrite ≠ some 0 := hmax
  obtain hfit | ⟨limit, hlimit, hover⟩ := (s.push a).hasRoom_or_overflow b.length
  · rw [writeAll_of_hasRoom hmax' hfit, push_push, writeAll_of_hasRoom hmax]
    intro limit hlimit
    have := hfit limit hlimit
    rw [push_size] at this
    rw [List.length_append]
    omega
  · have hlimit' : s.limit = some limit := hlimit
    have hsize := hroom limit hlimit'
    rw [push_size] at hover
    have hb : b ≠ [] := by
      rintro rfl
      simp only [List.length_nil] at hover
      omega
    have htake : (a ++ b).take (limit - s.accepted.size) =
        a ++ b.take (limit - (s.accepted.size + a.length)) := by
      rw [List.take_append, List.take_of_length_le (by omega)]
      congr 2
      omega
    rw [writeAll_of_overflow hmax' hlimit (by rw [push_size]; omega) hb, push_size, push_push,
      writeAll_of_overflow hmax hlimit' (by rw [List.length_append]; omega) (by simp [hb]), htake]
    rfl

instance : LawfulWriter Sink where
  writeAll_append a b := by
    funext s
    change EStateM.run _ s = EStateM.run _ s
    rw [EStateM.run_bind]
    by_cases ha : a = []
    · subst a
      rw [Writer.writeAll_nil, List.nil_append]
      rfl
    have hab : a ++ b ≠ [] := by simp [ha]
    by_cases hmax : s.maxWrite = some 0
    · rw [writeAll_of_idle hmax ha, writeAll_of_idle hmax hab]
    obtain hroom | ⟨limit, hlimit, hover⟩ := s.hasRoom_or_overflow a.length
    · rw [writeAll_of_hasRoom hmax hroom]
      exact writeAll_push hmax hroom b
    · have hover' : limit < s.accepted.size + (a ++ b).length := by
        rw [List.length_append]
        omega
      rw [writeAll_of_overflow hmax hlimit hover ha, writeAll_of_overflow hmax hlimit hover' hab,
        List.take_append_of_le_length (by omega)]

/-- The sink after a flush, whatever became of it. -/
def flushed (s : Sink) : Sink := { s with flushes := s.flushes + 1 }

theorem flush_run (s : Sink) :
    (Writer.flush : Writing Unit).run s = match s.flushFailure with
      | none => .ok () s.flushed
      | some cause => .error cause s.flushed := rfl

/-- Whatever becomes of a write, what the sink has accepted before stays, and what is added is a
    start of the bytes. -/
theorem writeAll_left (s : Sink) (bytes : Bytes) :
    ∃ taken, taken <+: bytes ∧ (((writeAll bytes).run s = .ok () (s.push taken)) ∨
      ∃ cause, (writeAll bytes).run s = .error cause (s.push taken)) := by
  by_cases hne : bytes = []
  · subst bytes
    exact ⟨[], List.nil_prefix, .inl (by simp)⟩
  by_cases hmax : s.maxWrite = some 0
  · exact ⟨[], List.nil_prefix, .inr ⟨_, by rw [writeAll_of_idle hmax hne, push_nil]⟩⟩
  obtain hroom | ⟨limit, hlimit, hover⟩ := s.hasRoom_or_overflow bytes.length
  · exact ⟨bytes, List.prefix_rfl, .inl (writeAll_of_hasRoom hmax hroom)⟩
  · exact ⟨_, List.take_prefix _ _, .inr ⟨_, writeAll_of_overflow hmax hlimit hover hne⟩⟩

theorem writeAll_eq_ok {s left : Sink} {bytes : Bytes}
    (h : (writeAll bytes).run s = .ok () left) : left = s.push bytes := by
  by_cases hne : bytes = []
  · subst bytes
    rw [Writer.writeAll_nil] at h
    cases h
    exact (push_nil s).symm
  by_cases hmax : s.maxWrite = some 0
  · rw [writeAll_of_idle hmax hne] at h
    cases h
  obtain hroom | ⟨limit, hlimit, hover⟩ := s.hasRoom_or_overflow bytes.length
  · rw [writeAll_of_hasRoom hmax hroom] at h
    cases h
    rfl
  · rw [writeAll_of_overflow hmax hlimit hover hne] at h
    cases h

end Sink

namespace Counted

/-- The end of a write to a sink, seen with a counter that stood at a number before the write. -/
def around (s : Sink) (count : Nat) :
    EStateM.Result IoError Sink Unit → EStateM.Result IoError (Counted Sink) Unit
  | .ok () s' => .ok () ⟨s', count + (s'.accepted.size - s.accepted.size)⟩
  | .error cause s' => .error cause ⟨s', count + (s'.accepted.size - s.accepted.size)⟩

theorem around_push (s : Sink) (count : Nat) (a b : Bytes) :
    around (s.push a) (count + a.length) ((writeAll b).run (s.push a)) =
      around s count ((writeAll b).run (s.push a)) := by
  have hcount (taken : Bytes) :
      count + a.length + (((s.push a).push taken).accepted.size - (s.push a).accepted.size) =
        count + (((s.push a).push taken).accepted.size - s.accepted.size) := by
    simp only [Sink.push_size]
    omega
  obtain ⟨taken, -, h | ⟨cause, h⟩⟩ := (s.push a).writeAll_left b
  · rw [h, around, around, hcount]
  · rw [h, around, around, hcount]

theorem write_run {σ : Type} [Writer σ] (s : σ) (count : Nat) (bytes : Bytes) :
    (Writer.write bytes).run (⟨s, count⟩ : Counted σ) =
      match (Writer.write bytes).run s with
      | .error cause inner => .error cause ⟨inner, count⟩
      | .ok taken inner => .ok taken ⟨inner, count + taken⟩ := by
  change Counted.write bytes ⟨s, count⟩ = _
  unfold Counted.write
  cases (Writer.write bytes).run s <;> rfl

/-- A counter changes nothing in a write, and adds what the sink has taken. -/
theorem writeAll_run (s : Sink) (count : Nat) (bytes : Bytes) :
    (writeAll bytes).run (⟨s, count⟩ : Counted Sink) =
      around s count ((writeAll bytes).run s) := by
  induction bytes using Writer.writeAll.induct generalizing s count with
  | case1 => simp [around]
  | case2 bytes hne ih =>
    rw [Writer.writeAll_run hne, Writer.writeAll_run hne, write_run]
    cases hfull : s.isFull with
    | true =>
      rw [Sink.write_full hne hfull]
      cases s.full <;> simp [around]
    | false =>
      rw [Sink.write_room bytes hfull]
      cases hn : s.fitting bytes.length with
      | zero => simp [around]
      | succ n =>
        have hlength : (bytes.take (n + 1)).length = n + 1 := by
          have := (s.fitting_le bytes.length).1
          rw [List.length_take]
          omega
        have hpush := around_push s count (bytes.take (n + 1)) (bytes.drop (n + 1))
        rw [hlength] at hpush
        exact (ih (n + 1) (by omega) _ _).trans hpush

theorem flush_run {σ : Type} [Writer σ] (s : σ) (count : Nat) :
    Writer.flush.run (⟨s, count⟩ : Counted σ) =
      match Writer.flush.run s with
      | .error cause inner => .error cause ⟨inner, count⟩
      | .ok () inner => .ok () ⟨inner, count⟩ := by
  change Counted.flush ⟨s, count⟩ = _
  unfold Counted.flush
  cases Writer.flush.run s <;> rfl

instance : LawfulWriter (Counted Sink) where
  writeAll_append a b := by
    funext ⟨s, count⟩
    change EStateM.run _ _ = EStateM.run _ _
    rw [EStateM.run_bind, writeAll_run, writeAll_run, ← LawfulWriter.writeAll_append a b,
      EStateM.run_bind]
    obtain ⟨taken, -, h | ⟨cause, h⟩⟩ := s.writeAll_left a
    · rw [h]
      have hcount : count + ((s.push taken).accepted.size - s.accepted.size) =
          count + taken.length := by
        rw [Sink.push_size]
        omega
      simp only [around, hcount, writeAll_run]
      exact around_push s count taken b
    · rw [h]
      rfl

end Counted

end LoginNames
