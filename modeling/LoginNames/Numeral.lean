import LoginNames.Bytes

/-! # Decimal numbers

Counts and limits are natural numbers written in decimal. The largest one that a template, a
command line or a profile can hold is `maxWord`. A reader that `saturates` holds no larger number
on the way either, and still reads the least of the number and `maxWord`. -/

set_option autoImplicit false

namespace LoginNames.Numeral

def maxWord : Nat := UInt64.size - 1

def isDigit (b : UInt8) : Bool := 48 ≤ b && b ≤ 57

def ofBytes (digits : Bytes) : Nat := Nat.ofDigitChars 10 (digits.map Char.ofUInt8) 0

/-- Reads one more digit, where each operation stops at the largest word. -/
def saturateDigit (n : Nat) (digit : UInt8) : Nat :=
  min (min (n * 10) maxWord + (digit.toNat - 48)) maxWord

def saturating (digits : Bytes) : Nat := digits.foldl saturateDigit 0

def toBytes (n : Nat) : Bytes := (Nat.toDigits 10 n).map Char.toUInt8

theorem digitByte_cases {c : Char} (h : c.isDigit = true) :
    isDigit c.toUInt8 = true ∧ Char.ofUInt8 c.toUInt8 = c := by
  have hc : 48 ≤ c.toNat ∧ c.toNat ≤ 57 := by
    simp only [Char.isDigit, ge_iff_le, Bool.and_eq_true, decide_eq_true_eq] at h
    exact ⟨h.1, h.2⟩
  obtain ⟨h1, h2⟩ := hc
  have hn : c = Char.ofNat c.toNat := (Char.ofNat_toNat c).symm
  generalize c.toNat = n at *
  subst hn
  have : n = 48 ∨ n = 49 ∨ n = 50 ∨ n = 51 ∨ n = 52 ∨ n = 53 ∨ n = 54 ∨ n = 55 ∨ n = 56 ∨
    n = 57 := by omega
  rcases this with h | h | h | h | h | h | h | h | h | h <;> subst h <;> decide

theorem ofBytes_eq_foldl (digits : Bytes) :
    ofBytes digits = digits.foldl (fun n d => n * 10 + (d.toNat - 48)) 0 := by
  rw [ofBytes, Nat.ofDigitChars_eq_foldl, List.foldl_map]
  congr 1
  funext n d
  rw [Nat.mul_comm]
  rfl

theorem saturateDigit_min (n : Nat) (d : UInt8) :
    saturateDigit (min n maxWord) d = min (n * 10 + (d.toNat - 48)) maxWord := by
  unfold saturateDigit maxWord
  omega

/-- To stop at the largest word at each digit is to stop there once at the end. -/
theorem saturating_eq (digits : Bytes) : saturating digits = min (ofBytes digits) maxWord := by
  have h : ∀ n, digits.foldl saturateDigit (min n maxWord) =
      min (digits.foldl (fun n d => n * 10 + (d.toNat - 48)) n) maxWord := by
    induction digits with
    | nil => intro n; rfl
    | cons d digits ih =>
      intro n
      rw [List.foldl_cons, List.foldl_cons, saturateDigit_min, ih]
  rw [saturating, ofBytes_eq_foldl]
  exact h 0

theorem isDigit_of_mem_toBytes {n : Nat} {b : UInt8} (h : b ∈ toBytes n) : isDigit b = true := by
  obtain ⟨c, hc, rfl⟩ := List.mem_map.1 h
  exact (digitByte_cases (Nat.isDigit_of_mem_toDigits (by decide) (by decide) hc)).1

theorem toBytes_ne_nil (n : Nat) : toBytes n ≠ [] := by
  simp [toBytes, Nat.toDigits_ne_nil]

theorem ofBytes_toBytes (n : Nat) : ofBytes (toBytes n) = n := by
  have h : ((Nat.toDigits 10 n).map Char.toUInt8).map Char.ofUInt8 = Nat.toDigits 10 n := by
    rw [List.map_map]
    refine (List.map_congr_left fun c hc => ?_).trans (List.map_id _)
    exact (digitByte_cases (Nat.isDigit_of_mem_toDigits (by decide) (by decide) hc)).2
  rw [ofBytes, toBytes, h, Nat.ofDigitChars_toDigits (by decide) (by decide)]

end LoginNames.Numeral
