import Mathlib

/-! # Patterns in a text

A pattern is a run of characters of one class between an opening and a closing text. At a position
the longest run is tried first and then the shorter ones. All its matches in a text are replaced
from left to right, where each search starts behind the match before it. -/

set_option autoImplicit false

namespace LoginNames

structure Pattern where
  opening : List Char
  inside : Char → Bool
  closing : List Char

namespace Pattern

/-- The runs of a class that a text starts with, the longest first, and what is behind each. -/
def runs (inside : Char → Bool) : List Char → List (List Char × List Char)
  | [] => []
  | c :: text =>
    if inside c then
      (runs inside text).map (fun (run, behind) => (c :: run, behind)) ++ [([c], text)]
    else []

/-- The run of a match at the start of a text, and what is behind the match. -/
def match? (p : Pattern) (text : List Char) : Option (List Char × List Char) :=
  (text.dropPrefix? p.opening).bind fun text =>
    (runs p.inside text).findSome? fun (run, behind) =>
      (behind.dropPrefix? p.closing).map fun behind => (run, behind)

variable {p : Pattern} {text run behind : List Char}

theorem dropPrefix?_eq_some {a b : List Char} : text.dropPrefix? a = some b ↔ text = a ++ b := by
  rw [List.dropPrefix?_eq_some_iff]
  simp

theorem mem_runs {inside : Char → Bool} :
    (run, behind) ∈ runs inside text ↔
      run ≠ [] ∧ (∀ c ∈ run, inside c = true) ∧ text = run ++ behind := by
  induction text generalizing run with
  | nil =>
    simp only [runs, List.not_mem_nil, false_iff]
    rintro ⟨hne, -, heq⟩
    exact hne (List.append_eq_nil_iff.mp heq.symm).1
  | cons c text ih =>
    cases run with
    | nil => by_cases hc : inside c <;> simp [runs, hc]
    | cons d run =>
      by_cases hd : c = d
      · subst hd
        by_cases hc : inside c = true
        · cases run with
          | nil =>
            have hshort : ([], behind) ∉ runs inside text := fun h => (ih.mp h).1 rfl
            simpa [runs, hc, hshort] using eq_comm
          | cons e run => simp [runs, hc, ih, and_assoc]
        · simp [runs, hc]
      · have hne : d ≠ c := Ne.symm hd
        by_cases hc : inside c = true <;> simp [runs, hc, hd, hne]

theorem of_match? (h : p.match? text = some (run, behind)) :
    run ≠ [] ∧ (∀ c ∈ run, p.inside c = true) ∧
      text = p.opening ++ (run ++ (p.closing ++ behind)) := by
  obtain ⟨rest, hrest, hrun⟩ := Option.bind_eq_some_iff.mp h
  obtain ⟨⟨run', behind'⟩, hmem, hclosing⟩ := List.exists_of_findSome?_eq_some hrun
  obtain ⟨closed, hclosed, heq⟩ := Option.map_eq_some_iff.mp hclosing
  cases heq
  rw [dropPrefix?_eq_some] at hrest hclosed
  obtain ⟨hne, hinside, rfl⟩ := mem_runs.mp hmem
  exact ⟨hne, hinside, by rw [hrest, hclosed]⟩

theorem match?_ne_none (hne : run ≠ []) (hinside : ∀ c ∈ run, p.inside c = true)
    (behind : List Char) :
    p.match? (p.opening ++ (run ++ (p.closing ++ behind))) ≠ none := by
  intro hnone
  rw [match?, dropPrefix?_eq_some.mpr rfl, Option.bind_some, List.findSome?_eq_none_iff] at hnone
  have hrun := hnone (run, p.closing ++ behind) (mem_runs.mpr ⟨hne, hinside, rfl⟩)
  simp only [dropPrefix?_eq_some.mpr rfl, Option.map_some, reduceCtorEq] at hrun

/-- Only one run of a class is closed by a character outside of it, so the order in which the runs
    are tried does not matter. -/
theorem match?_eq_some {c : Char} (hclosing : p.closing = [c]) (hc : p.inside c = false) :
    p.match? text = some (run, behind) ↔
      run ≠ [] ∧ (∀ d ∈ run, p.inside d = true) ∧ text = p.opening ++ (run ++ c :: behind) := by
  have htake {run : List Char} (h : ∀ d ∈ run, p.inside d = true) (behind : List Char) :
      (run ++ c :: behind).takeWhile p.inside = run := by
    rw [List.takeWhile_append_of_pos h, List.takeWhile_cons_of_neg (by simp [hc]),
      List.append_nil]
  constructor
  · intro h
    have hspelled := of_match? h
    rwa [hclosing] at hspelled
  · rintro ⟨hne, hinside, rfl⟩
    have hsome := match?_ne_none hne hinside behind
    rw [hclosing] at hsome
    obtain ⟨⟨run', behind'⟩, hfound⟩ := Option.ne_none_iff_exists'.mp hsome
    obtain ⟨-, hinside', heq⟩ := of_match? hfound
    rw [hclosing] at heq
    have hsame : run ++ c :: behind = run' ++ c :: behind' := List.append_cancel_left heq
    obtain rfl : run = run' := by rw [← htake hinside behind, hsame, htake hinside' behind']
    cases List.append_cancel_left hsame
    exact hfound

theorem match?_length (h : p.match? text = some (run, behind)) : behind.length < text.length := by
  obtain ⟨hne, -, rfl⟩ := of_match? h
  have := List.length_pos_iff.mpr hne
  simp only [List.length_append]
  omega

/-- Replaces all matches of a pattern by what is made of their runs. -/
def replace (p : Pattern) (made : List Char → List Char) : List Char → List Char
  | [] => []
  | c :: text =>
    match _h : p.match? (c :: text) with
    | some (run, behind) => made run ++ replace p made behind
    | none => c :: replace p made text
termination_by text => text.length
decreasing_by
  · exact match?_length _h
  · simp

theorem replace_of_match (made : List Char → List Char) (h : p.match? text = some (run, behind)) :
    p.replace made text = made run ++ p.replace made behind := by
  cases text with
  | nil => exact absurd (match?_length h) (Nat.not_lt_zero _)
  | cons c text =>
    rw [replace]
    split
    next found => rw [h] at found; cases found; rfl
    next none => rw [h] at none; cases none

theorem replace_of_none (made : List Char → List Char) {c : Char}
    (h : p.match? (c :: text) = none) :
    p.replace made (c :: text) = c :: p.replace made text := by
  rw [replace]
  split
  next found => rw [h] at found; cases found
  next => rfl

end Pattern

end LoginNames
