import LoginNames.NameList.Reader
import LoginNames.Proofs.Text.Separator
import Mathlib

/-! # What a source delivers

A source is a list of reads, and where one chunk ends and the next begins tells nothing. `stream`
joins the reads to the data that comes before the end or the first failure. `readLine_reads` says
what one line read from a source is in terms of its stream. -/

set_option autoImplicit false

namespace LoginNames

/-- The data before the end of a source, or before the failure that cuts it off. -/
structure Stream where
  data : Bytes
  failure : Option IoError

namespace Source

/-- An empty chunk ends the line that is open, and ends the source where none is. -/
def stream (isOpen : Bool) : Source → Stream
  | [] => ⟨[], none⟩
  | .interrupted :: rest => stream isOpen rest
  | .failure cause _ :: _ => ⟨[], some cause⟩
  | .chunk bytes :: rest =>
    if bytes = [] then
      if isOpen then
        let after := stream false rest
        ⟨Bytes.newline :: after.data, after.failure⟩
      else ⟨[], none⟩
    else
      let after := stream (bytes.getLast? ≠ some Bytes.newline) rest
      ⟨bytes ++ after.data, after.failure⟩

/-- The source hands out exactly the data, in chunks with at least one byte and perhaps after
    interruptions, and then ends. -/
inductive Delivers : Source → Bytes → Prop
  | ended : Delivers [] []
  | interrupted {rest : Source} {data : Bytes} (tail : Delivers rest data) :
      Delivers (.interrupted :: rest) data
  | chunk {bytes : Bytes} {rest : Source} {data : Bytes} (hne : bytes ≠ [])
      (tail : Delivers rest data) : Delivers (.chunk bytes :: rest) (bytes ++ data)

theorem Delivers.stream {source : Source} {data : Bytes} (h : source.Delivers data)
    (isOpen : Bool) : source.stream isOpen = ⟨data, none⟩ := by
  induction h generalizing isOpen with
  | ended => rfl
  | interrupted _ ih => exact ih isOpen
  | chunk hne _ ih => simp only [Source.stream, hne, ↓reduceIte, ih]

theorem Delivers.append {first second : Source} {data more : Bytes}
    (h : first.Delivers data) (hmore : second.Delivers more) :
    (first ++ second).Delivers (data ++ more) := by
  induction h with
  | ended => exact hmore
  | interrupted _ ih => exact .interrupted ih
  | chunk hne _ ih =>
    rw [List.append_assoc]
    exact .chunk hne ih

theorem ofBuffer_delivers (size : Nat) (data : Bytes) : (ofBuffer size data).Delivers data := by
  fun_induction ofBuffer size data with
  | case1 => exact .ended
  | case2 data hne ih =>
    have hchunk : data.take (max size 1) ≠ [] := by
      intro h
      obtain h | h := List.take_eq_nil_iff.1 h
      · omega
      · exact hne h
    simpa only [List.take_append_drop] using Delivers.chunk hchunk ih

theorem ofBytes_stream (data : Bytes) : (ofBytes data).stream false = ⟨data, none⟩ := by
  by_cases h : data = []
  · subst data
    rfl
  · simpa only [ofBytes, List.append_nil] using (Delivers.chunk h .ended).stream false

/-- The reads with those bytes before them that are left of a chunk. -/
def unread (tail : Bytes) (rest : Source) : Source :=
  if tail = [] then rest else .chunk tail :: rest

/-- What follows a newline in its chunk is still to come. -/
theorem stream_within (isOpen : Bool) (line tail : Bytes) (rest : Source) :
    Source.stream isOpen (.chunk (line ++ Bytes.newline :: tail) :: rest) =
      ⟨line ++ Bytes.newline :: ((unread tail rest).stream false).data,
        ((unread tail rest).stream false).failure⟩ := by
  have hne : line ++ Bytes.newline :: tail ≠ [] := by simp
  have hlast : (line ++ Bytes.newline :: tail).getLast? = (Bytes.newline :: tail).getLast? := by
    rw [List.getLast?_append, List.getLast?_cons]
    rfl
  simp only [Source.stream, hne, ↓reduceIte, hlast, List.append_assoc, List.cons_append]
  cases tail with
  | nil => simp [unread]
  | cons b tail => simp [unread, Source.stream]

end Source

namespace OpenLine

def ofPayload (keep : Nat) (payload : Bytes) : OpenLine :=
  ⟨(payload.take keep).toArray, payload.length, payload.getLast?⟩

theorem extend_nil (keep : Nat) (line : OpenLine) : line.extend keep [] = line := by
  simp [extend]

theorem ofPayload_nil (keep : Nat) : ofPayload keep [] = empty := by
  simp [ofPayload, empty]

/-- However the bytes come, the line keeps the first of them, counts all and knows the last. -/
theorem extend_ofPayload (keep : Nat) (payload more : Bytes) :
    (ofPayload keep payload).extend keep more = ofPayload keep (payload ++ more) := by
  have hkept : keep - (payload.take keep).length = keep - payload.length := by
    rw [List.length_take]
    omega
  simp only [extend, ofPayload, List.size_toArray, hkept, List.length_append, mk.injEq]
  refine ⟨?_, trivial, ?_⟩
  · rw [List.take_append]
    simp
  · rw [List.getLast?_append]

end OpenLine

section Chunk

variable (keep : Nat) (line : OpenLine)

theorem readLine_chunk {bytes : Bytes} (hne : bytes ≠ []) (h : Bytes.newline ∉ bytes)
    (rest : Source) :
    readLine keep line (.chunk bytes :: rest) = readLine keep (line.extend keep bytes) rest := by
  simp only [readLine, hne, ↓reduceIte, takeWhile_bne h, dropWhile_bne h]

theorem readLine_within {within : Bytes} (h : Bytes.newline ∉ within) (tail : Bytes)
    (rest : Source) :
    readLine keep line (.chunk (within ++ Bytes.newline :: tail) :: rest) =
      .line (line.extend keep within) (Source.unread tail rest) := by
  have hne : within ++ Bytes.newline :: tail ≠ [] := List.append_ne_nil_of_right_ne_nil _ (by simp)
  simp only [readLine, hne, ↓reduceIte, takeWhile_bne_append h, dropWhile_bne_append h]
  cases tail with
  | nil => rfl
  | cons b tail => rfl

end Chunk

/-- How reading the rest of a line ends, by the data and the failure of the stream. -/
inductive ReadsLine (keep : Nat) (payload : Bytes) : Stream → LineRead → Prop
  | newline {line : Bytes} {after : Stream} {rest : Source} (h : Bytes.newline ∉ line)
      (hrest : rest.stream false = after) :
      ReadsLine keep payload ⟨line ++ Bytes.newline :: after.data, after.failure⟩
        (.line (.ofPayload keep (payload ++ line)) rest)
  | last {line : Bytes} {rest : Source} (h : Bytes.newline ∉ line) (hne : payload ++ line ≠ [])
      (hrest : rest.stream false = ⟨[], none⟩) :
      ReadsLine keep payload ⟨line, none⟩ (.line (.ofPayload keep (payload ++ line)) rest)
  | finished (h : payload = []) : ReadsLine keep payload ⟨[], none⟩ .finished
  | failed {line : Bytes} {cause : IoError} (h : Bytes.newline ∉ line) :
      ReadsLine keep payload ⟨line, some cause⟩ (.failed cause)

theorem ReadsLine.prepend {keep : Nat} {payload more : Bytes} {after : Stream} {read : LineRead}
    (hmore : Bytes.newline ∉ more) (hne : more ≠ [])
    (h : ReadsLine keep (payload ++ more) after read) :
    ReadsLine keep payload ⟨more ++ after.data, after.failure⟩ read := by
  cases h with
  | newline h hrest =>
    have hline : Bytes.newline ∉ more ++ _ := fun hmem => (List.mem_append.1 hmem).elim hmore h
    simpa only [List.append_assoc] using @ReadsLine.newline keep payload _ _ _ hline hrest
  | last h hnil hrest =>
    have hline : Bytes.newline ∉ more ++ _ := fun hmem => (List.mem_append.1 hmem).elim hmore h
    rw [List.append_assoc] at hnil ⊢
    exact .last hline hnil hrest
  | finished hnil => exact absurd (List.append_eq_nil_iff.1 hnil).2 hne
  | failed h => exact .failed fun hmem => (List.mem_append.1 hmem).elim hmore h

theorem readLine_emptyChunk (keep : Nat) (payload : Bytes) (rest : Source) :
    ReadsLine keep payload (Source.stream (payload ≠ []) (.chunk [] :: rest))
      (readLine keep (.ofPayload keep payload) (.chunk [] :: rest)) := by
  by_cases h : payload = []
  · subst payload
    exact .finished rfl
  · have hline : readLine keep (.ofPayload keep payload) (.chunk [] :: rest) =
        .line (.ofPayload keep (payload ++ [])) rest := by
      simp [readLine, OpenLine.ofPayload, h]
    rw [hline]
    simp only [Source.stream, h, ne_eq, not_false_eq_true, decide_true, ↓reduceIte]
    exact .newline List.not_mem_nil rfl

theorem readLine_newline (keep : Nat) (payload : Bytes) {line : Bytes} (h : Bytes.newline ∉ line)
    (tail : Bytes) (rest : Source) (isOpen : Bool) :
    ReadsLine keep payload
      (Source.stream isOpen (.chunk (line ++ Bytes.newline :: tail) :: rest))
      (readLine keep (.ofPayload keep payload)
        (.chunk (line ++ Bytes.newline :: tail) :: rest)) := by
  rw [readLine_within keep _ h, OpenLine.extend_ofPayload, Source.stream_within]
  exact .newline h rfl

/-- A line that is read ends at the first newline of the stream, or with the stream. -/
theorem readLine_reads (keep : Nat) (payload : Bytes) (source : Source) :
    ReadsLine keep payload (source.stream (payload ≠ []))
      (readLine keep (.ofPayload keep payload) source) := by
  induction source generalizing payload with
  | nil =>
    by_cases h : payload = []
    · subst payload
      exact .finished rfl
    · have hline : readLine keep (.ofPayload keep payload) [] =
          .line (.ofPayload keep (payload ++ [])) [] := by
        simp [readLine, OpenLine.ofPayload, h]
      rw [hline]
      exact .last List.not_mem_nil (by simpa using h) rfl
  | cons event rest ih =>
    cases event with
    | interrupted => exact ih payload
    | failure cause _ => exact .failed List.not_mem_nil
    | chunk bytes =>
      by_cases hne : bytes = []
      · subst bytes
        exact readLine_emptyChunk keep payload rest
      by_cases hmem : Bytes.newline ∈ bytes
      · obtain ⟨line, tail, rfl, hline⟩ := List.eq_append_cons_of_mem hmem
        exact readLine_newline keep payload hline tail rest _
      · have hlast : bytes.getLast? ≠ some Bytes.newline :=
          fun h => hmem (List.mem_of_getLast? h)
        have hopen : payload ++ bytes ≠ [] := by simp [hne]
        have := ih (payload ++ bytes)
        rw [readLine_chunk keep _ hne hmem, OpenLine.extend_ofPayload]
        simp only [Source.stream, hne, ↓reduceIte]
        simp only [hlast, hopen, ne_eq, not_false_eq_true, decide_true] at this ⊢
        exact this.prepend hmem hne

end LoginNames
