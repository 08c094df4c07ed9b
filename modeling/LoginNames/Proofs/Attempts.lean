/-! # Attempts

What it takes for an attempt in steps to succeed, and what holds at its end. -/

set_option autoImplicit false

namespace LoginNames

variable {ε α β : Type}

/-- An attempt in two steps succeeds when both do. -/
theorem bind_eq_ok {attempt : Except ε α} {next : α → Except ε β} {b : β} :
    attempt >>= next = .ok b ↔ ∃ a, attempt = .ok a ∧ next a = .ok b := by
  cases attempt with
  | error cause => simp [bind, Except.bind]
  | ok a => simp [bind, Except.bind]

theorem map_eq_ok {attempt : Except ε α} {f : α → β} {b : β} :
    attempt.map f = .ok b ↔ ∃ a, attempt = .ok a ∧ f a = b := by
  cases attempt <;> simp [Except.map]

/-- What each step of a successful attempt keeps holds at its end. -/
theorem foldlM_invariant {Invariant : β → Prop} {step : β → α → Except ε β}
    (hstep : ∀ b a b', Invariant b → step b a = .ok b' → Invariant b') {b b' : β} {steps : List α}
    (h : Invariant b) (hok : steps.foldlM step b = .ok b') : Invariant b' := by
  induction steps generalizing b with
  | nil => exact Except.ok.inj hok ▸ h
  | cons a rest ih =>
    obtain ⟨middle, hfirst, hrest⟩ := bind_eq_ok.mp hok
    exact ih (hstep b a middle h hfirst) hrest

end LoginNames
