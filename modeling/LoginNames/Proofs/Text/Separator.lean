import Mathlib.Data.List.TakeWhile

/-! # Up to a separator

A list without a separator, and whatever stands behind it and the separator, are what a scan for
the separator takes and leaves. -/

set_option autoImplicit false

namespace LoginNames

variable {α : Type} [BEq α] [LawfulBEq α] {a : α} {before : List α}

theorem forall_bne : (∀ b ∈ before, (b != a) = true) ↔ a ∉ before := by
  simp only [bne_iff_ne]
  exact List.forall_mem_ne'

theorem takeWhile_bne (h : a ∉ before) : before.takeWhile (· != a) = before :=
  List.takeWhile_eq_self_iff.mpr (forall_bne.mpr h)

theorem dropWhile_bne (h : a ∉ before) : before.dropWhile (· != a) = [] :=
  List.dropWhile_eq_nil_iff.mpr (forall_bne.mpr h)

theorem takeWhile_bne_append (h : a ∉ before) (after : List α) :
    (before ++ a :: after).takeWhile (· != a) = before := by
  rw [List.takeWhile_append_of_pos (forall_bne.mpr h), List.takeWhile_cons_of_neg (by simp),
    List.append_nil]

theorem dropWhile_bne_append (h : a ∉ before) (after : List α) :
    (before ++ a :: after).dropWhile (· != a) = a :: after := by
  rw [List.dropWhile_append_of_pos (forall_bne.mpr h), List.dropWhile_cons_of_neg (by simp)]

end LoginNames
