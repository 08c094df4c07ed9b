/-! # Steps of a loop

The step of a loop leads from each state to another one, except from those in which the loop ends.
What every step keeps holds wherever the loop comes to, and where every step lessens a measure the
loop ends. -/

set_option autoImplicit false

namespace LoginNames

/-- So many steps lead from one state to another. -/
inductive Steps {α : Type} (step : α → Option α) : Nat → α → α → Prop
  | refl (a : α) : Steps step 0 a a
  | next {n : Nat} {a b c : α} (h : step a = some b) (tail : Steps step n b c) :
      Steps step (n + 1) a c

variable {α : Type} {step : α → Option α}

/-- What each step keeps, and may say of the number of steps so far, holds after any of them. -/
theorem Steps.invariant {Invariant : Nat → α → Prop}
    (hstep : ∀ n a b, Invariant n a → step a = some b → Invariant (n + 1) b) {m n : Nat} {a b : α}
    (h : Steps step n a b) (ha : Invariant m a) : Invariant (m + n) b := by
  induction h generalizing m with
  | refl a => exact ha
  | @next n _ _ _ hfirst _ ih =>
    have hcount : m + (n + 1) = m + 1 + n := by omega
    rw [hcount]
    exact ih (hstep _ _ _ ha hfirst)

theorem exists_last_step {measure : α → Nat}
    (hstep : ∀ a b, step a = some b → measure b < measure a) (a : α) :
    ∃ n b, Steps step n a b ∧ step b = none := by
  induction hmeasure : measure a using Nat.strongRecOn generalizing a with
  | ind size ih =>
    cases hnext : step a with
    | none => exact ⟨0, a, .refl a, hnext⟩
    | some b =>
      have hless : measure b < size := hmeasure ▸ hstep a b hnext
      obtain ⟨n, c, hsteps, hlast⟩ := ih _ hless b rfl
      exact ⟨n + 1, c, .next hnext hsteps, hlast⟩

end LoginNames
