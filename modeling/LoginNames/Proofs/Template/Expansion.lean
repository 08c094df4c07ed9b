import LoginNames.Proofs.Template.Scanner
import LoginNames.Proofs.Writing

/-! # Expanding a template

An expansion holds literal bytes back until a placeholder or the end of the template. The bytes held
back, and behind them what the scanner makes of the rest, are what is still to be written. No step
of the expansion changes what is written already and still to be written together, so that in the
end the scanner's bytes are written and no others. -/

set_option autoImplicit false

namespace LoginNames.Template

open Writer (writeAll)

/-- The run that is held back lies before the position, and both are within the template. -/
structure Cursor.Valid (t : Template) (c : Cursor) : Prop where
  start_le : c.literalStart ≤ c.position
  position_le : c.position ≤ t.source.length

namespace Cursor.Valid

variable {t : Template} {c : Cursor}

theorem start (t : Template) : Cursor.start.Valid t := ⟨Nat.le_refl _, Nat.zero_le _⟩

theorem next_match {m : PlaceholderMatch} (hmatch : t.match? c.position = some m)
    (_h : c.Valid t) : (c.next (some m)).Valid t :=
  ⟨Nat.le_refl _, (match?_width hmatch).2⟩

theorem next_literal (hposition : c.position < t.source.length) (h : c.Valid t) :
    (c.next none).Valid t :=
  ⟨Nat.le_succ_of_le h.start_le, hposition⟩

end Cursor.Valid

/-- What an expansion under way has still to write. -/
def outstanding (t : Template) (first last : Bytes) (c : Cursor) : Bytes :=
  t.slice c.literalStart c.position ++ Scanner.scan first last (t.source.drop c.position)

section Outstanding

variable {t : Template} {c : Cursor} (first last : Bytes)

@[simp] theorem slice_self (t : Template) (position : Nat) : t.slice position position = [] := by
  rw [slice, List.drop_eq_nil_iff, List.length_take]
  exact Nat.min_le_left _ _

theorem slice_succ (hstart : c.literalStart ≤ c.position)
    (hposition : c.position < t.source.length) :
    t.slice c.literalStart (c.position + 1) =
      t.slice c.literalStart c.position ++ [t.source[c.position]] := by
  have hlength : c.literalStart ≤ (t.source.take c.position).length := by
    rw [List.length_take]
    omega
  rw [slice, List.take_succ_eq_append_getElem hposition, List.drop_append_of_le_length hlength,
    slice]

theorem outstanding_start (t : Template) :
    t.outstanding first last .start = Scanner.scan first last t.source := by
  simp [outstanding, Cursor.start]

theorem outstanding_match {m : PlaceholderMatch} (hmatch : t.match? c.position = some m) :
    t.outstanding first last c =
      t.slice c.literalStart c.position ++ m.placeholder.render first last ++
        t.outstanding first last (c.next (some m)) := by
  rw [outstanding, Scanner.scan_of_match first last hmatch, List.drop_drop, outstanding]
  simp only [Cursor.next, slice_self, List.nil_append, List.append_assoc]

theorem outstanding_literal (hc : c.Valid t) (hposition : c.position < t.source.length)
    (hmatch : t.match? c.position = none) :
    t.outstanding first last c = t.outstanding first last (c.next none) := by
  have hdrop : t.source.drop c.position =
      t.source[c.position] :: t.source.drop (c.position + 1) :=
    List.drop_eq_getElem_cons hposition
  rw [match?, hdrop] at hmatch
  rw [outstanding, hdrop, Scanner.scan_of_literal first last hmatch, outstanding]
  simp only [Cursor.next, slice_succ hc.start_le hposition, List.append_assoc,
    List.singleton_append]

theorem outstanding_end (hc : c.Valid t) (hposition : ¬c.position < t.source.length) :
    t.outstanding first last c = t.slice c.literalStart t.source.length := by
  have heq : c.position = t.source.length := by
    have := hc.position_le
    omega
  rw [outstanding, heq, List.drop_length, Scanner.scan_nil, List.append_nil]

end Outstanding

section Writer

variable {σ : Type} [Writer σ]

/-- A placeholder has the run that it closes written, and then what it stands for. -/
theorem expandFrom_of_match (first last : Bytes) {t : Template} {c : Cursor} {m : PlaceholderMatch}
    (hposition : c.position < t.source.length) (hmatch : t.match? c.position = some m) :
    (t.expandFrom first last c : EStateM IoError σ Unit) = (do
      writeAll (t.slice c.literalStart c.position)
      writeAll (m.placeholder.render first last)
      t.expandFrom first last (c.next (some m))) := by
  rw [expandFrom, dif_pos hposition]
  split
  · rename_i m' hmatch'
    cases hmatch.symm.trans hmatch'
    rfl
  · rename_i hnone
    cases hmatch.symm.trans hnone

theorem expandFrom_of_literal (first last : Bytes) {t : Template} {c : Cursor}
    (hposition : c.position < t.source.length) (hmatch : t.match? c.position = none) :
    (t.expandFrom first last c : EStateM IoError σ Unit) =
      t.expandFrom first last (c.next none) := by
  rw [expandFrom, dif_pos hposition]
  split
  · rename_i m hsome
    cases hmatch.symm.trans hsome
  · rfl

theorem expandFrom_of_end (first last : Bytes) {t : Template} {c : Cursor}
    (hposition : ¬c.position < t.source.length) :
    (t.expandFrom first last c : EStateM IoError σ Unit) =
      writeAll (t.slice c.literalStart t.source.length) := by
  rw [expandFrom, dif_neg hposition]

end Writer

/-- From any cursor on, an expansion writes what is outstanding there, in the same pieces to every
    writer. -/
theorem exists_writeEach_expandFrom (t : Template) (first last : Bytes) {c : Cursor}
    (hc : c.Valid t) :
    ∃ pieces : List Bytes, pieces.flatten = t.outstanding first last c ∧
      ∀ (σ : Type) [Writer σ],
        (t.expandFrom first last c : EStateM IoError σ Unit) = Writer.writeEach pieces := by
  -- A step writes the front of what is outstanding, or only moves the position.
  induction c using expandFrom.induct t with
  | case1 c hposition m hmatch ih =>
    obtain ⟨pieces, hpieces, hwrite⟩ := ih (hc.next_match hmatch)
    refine ⟨t.slice c.literalStart c.position :: m.placeholder.render first last :: pieces, ?_,
      fun σ _ => ?_⟩
    · rw [outstanding_match first last hmatch, ← hpieces, List.flatten_cons, List.flatten_cons,
        List.append_assoc]
    · rw [expandFrom_of_match first last hposition hmatch, hwrite, Writer.writeEach_cons,
        Writer.writeEach_cons]
  | case2 c hposition hmatch ih =>
    obtain ⟨pieces, hpieces, hwrite⟩ := ih (hc.next_literal hposition)
    refine ⟨pieces, ?_, fun σ _ => ?_⟩
    · rw [hpieces, outstanding_literal first last hc hposition hmatch]
    · rw [expandFrom_of_literal first last hposition hmatch, hwrite]
  | case3 c hposition =>
    refine ⟨[t.slice c.literalStart t.source.length], ?_, fun σ _ => ?_⟩
    · rw [outstanding_end first last hc hposition, List.flatten_singleton]
    · rw [expandFrom_of_end first last hposition, Writer.writeEach_singleton]

theorem exists_writeEach_expand (t : Template) (first last : Bytes) :
    ∃ pieces : List Bytes, pieces.flatten = Scanner.scan first last t.source ∧
      ∀ (σ : Type) [Writer σ],
        (t.expand first last : EStateM IoError σ Unit) = Writer.writeEach pieces := by
  rw [← outstanding_start]
  exact exists_writeEach_expandFrom t first last (.start t)

/-- Where a row of writes is like one write, an expansion is one write of what the scanner says. -/
theorem expand_eq {σ : Type} [Writer σ] [LawfulWriter σ] (t : Template) (first last : Bytes) :
    (t.expand first last : EStateM IoError σ Unit) =
      writeAll (Scanner.scan first last t.source) := by
  obtain ⟨pieces, hpieces, hwrite⟩ := exists_writeEach_expand t first last
  rw [hwrite, Writer.writeEach_eq, hpieces]

/-- A template is filled in as the scanner says, byte for byte: whatever the template is, and
    whatever the names hold. -/
theorem write_eq_scan (t : Template) (first last : Bytes) {sink : Sink} (h : sink.Unlimited) :
    (t.write first last).run sink =
      .ok () (sink.push (Scanner.scan first last t.source)) := by
  rw [write, expand_eq, h.writeAll_run]

/-- A firstname that holds the other token, a limit beyond its length, and a group that nothing
    closes, in writes of at most three bytes. -/
theorem write_eq_scan_unterminated :
    ({ maxWrite := some 3 } : Sink).Unlimited ∧
      ((ofString "<\x7bfirstname\x7d(20) x)\x7blastname\x7d()\x7blastname\x7d(2 y").write
          (Bytes.ofString "\x7blastname\x7d") (Bytes.ofString "weir")).run
          { maxWrite := some 3 } =
        .ok () { maxWrite := some 3
                 accepted := (Bytes.ofString "<\x7blastname\x7d x)weir()we").toArray } := by
  have h : ({ maxWrite := some 3 } : Sink).Unlimited := ⟨rfl, by simp⟩
  refine ⟨h, ?_⟩
  rw [write_eq_scan _ _ _ h]
  cbv

end LoginNames.Template
