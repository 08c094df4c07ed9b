import LoginNames.Proofs.Generation
import LoginNames.Proofs.NameList.Written

/-! # The expansions of all pairs

What a generator writes is a name list written out, that of the expansions of all pairs. None of
them holds a newline that stands neither in the template nor in a name. -/

set_option autoImplicit false

namespace LoginNames

namespace Template

/-- The bytes that an expansion writes to a sink that takes everything. -/
def expansion (t : Template) (first last : Bytes) : Bytes :=
  match (t.write first last).run {} with
  | .ok _ sink | .error _ sink => sink.accepted.toList

theorem expansion_of_write {t : Template} {first last bytes : Bytes}
    (h : (t.write first last : EStateM IoError Sink Unit) = Writer.writeAll bytes) :
    t.expansion first last = bytes := by
  have hfree : ({} : Sink).Unlimited := ⟨rfl, by simp⟩
  rw [expansion, h, hfree.writeAll_run]
  simp [Sink.push]

theorem expansion_eq_scan (t : Template) (first last : Bytes) :
    t.expansion first last = Scanner.scan first last t.source :=
  expansion_of_write (expand_eq t first last)

/-- The expansions of all pairs in the order in which they are written. -/
def expansions (t : Template) (firsts lasts : NameList) : NameList :=
  firsts.flatMap fun first => lasts.map (t.expansion first)

theorem lines_eq_expansions (t : Template) (firsts lasts : NameList) :
    t.lines firsts lasts = (t.expansions firsts lasts).map (· ++ [Bytes.newline]) := by
  simp only [lines, expansions, List.map_flatMap, List.map_map]
  refine congrArg (List.flatMap · firsts) (funext fun first => List.map_congr_left fun last _ => ?_)
  rw [line, Function.comp_apply, expansion_eq_scan]

theorem output_eq_written (t : Template) (firsts lasts : NameList) :
    t.output firsts lasts = (t.expansions firsts lasts).written := by
  rw [output, lines_eq_expansions, NameList.written, List.flatMap_def]

theorem expansions_length (t : Template) (firsts lasts : NameList) :
    (t.expansions firsts lasts).length = firsts.length * lasts.length := by
  have hlines := t.lines_length firsts lasts
  rwa [lines_eq_expansions, List.length_map] at hlines

theorem expansions_getElem? (t : Template) {firsts lasts : NameList} {i j : Nat}
    (hi : i < firsts.length) (hj : j < lasts.length) :
    (t.expansions firsts lasts)[i * lasts.length + j]? =
      some (t.expansion firsts[i] lasts[j]) := by
  have hline := t.lines_getElem? hi hj
  rw [lines_eq_expansions, List.getElem?_map, Option.map_eq_some_iff] at hline
  obtain ⟨name, hname, hline⟩ := hline
  rw [hname, expansion_eq_scan, List.append_cancel_right hline]

theorem mem_expansions {t : Template} {firsts lasts : NameList} {name : Bytes} :
    name ∈ t.expansions firsts lasts ↔
      ∃ first ∈ firsts, ∃ last ∈ lasts, t.expansion first last = name := by
  simp [expansions]

end Template

theorem Placeholder.mem_of_mem_render {p : Placeholder} {first last : Bytes} {b : UInt8}
    (h : b ∈ p.render first last) : b ∈ first ∨ b ∈ last := by
  have hpick : b ∈ p.field.pick first last := by
    unfold render at h
    split at h
    · exact h
    · exact List.mem_of_mem_take h
  cases hfield : p.field with
  | firstname => exact .inl (by rwa [hfield] at hpick)
  | lastname => exact .inr (by rwa [hfield] at hpick)

/-- A scan writes no byte that stands neither in the text nor in a name. -/
theorem Scanner.mem_of_mem_scan {first last text : Bytes} {b : UInt8}
    (h : b ∈ scan first last text) : b ∈ text ∨ b ∈ first ∨ b ∈ last := by
  induction hlength : text.length using Nat.strong_induction_on generalizing text with
  | _ length ih =>
    cases hmatch : Placeholder.match? text with
    | some m =>
      have hwidth := Placeholder.match?_width hmatch
      rw [scan_of_match first last hmatch, List.mem_append] at h
      obtain hname | hrest := h
      · exact .inr (Placeholder.mem_of_mem_render hname)
      · have hshorter : (text.drop m.width).length < length := by
          rw [List.length_drop]
          omega
        exact (ih _ hshorter hrest rfl).imp_left List.mem_of_mem_drop
    | none =>
      cases text with
      | nil => simp at h
      | cons c tail =>
        rw [scan_of_literal first last hmatch, List.mem_cons] at h
        obtain rfl | hrest := h
        · exact .inl List.mem_cons_self
        · have hshorter : tail.length < length := by
            rw [← hlength, List.length_cons]
            omega
          exact (ih _ hshorter hrest rfl).imp_left (List.mem_cons_of_mem c)

theorem Template.expansions_oneLine {t : Template} {firsts lasts : NameList}
    (ht : Bytes.newline ∉ t.source) (hfirsts : firsts.OneLine) (hlasts : lasts.OneLine) :
    (t.expansions firsts lasts).OneLine := by
  intro name hname
  obtain ⟨first, hfirst, last, hlast, rfl⟩ := mem_expansions.1 hname
  rw [expansion_eq_scan]
  intro hmem
  obtain h | h | h := Scanner.mem_of_mem_scan hmem
  · exact ht h
  · exact hfirsts first hfirst h
  · exact hlasts last hlast h

end LoginNames
