import LoginNames.Proofs.Toml.Quoted
import LoginNames.Toml.Document

/-! # Values written on a line

A text in quotes, a number in decimal or a truth value is written behind the equals sign of a line.
The layout finds it where it ends with the line, and it stands for the value that was written. -/

set_option autoImplicit false

namespace LoginNames.Toml

inductive Literal
  | text (s : String)
  | number (n : Nat)
  | truth (b : Bool)
deriving DecidableEq

def truthWord : Bool → List Char
  | true => ['t', 'r', 'u', 'e']
  | false => ['f', 'a', 'l', 's', 'e']

namespace Literal

def value : Literal → Value
  | text s => .string s
  | number n => .integer n
  | truth b => .boolean b

def piece : Literal → Piece
  | text s => .quoted (some s.toList) false
  | number n => .word (Nat.toDigits 10 n)
  | truth b => .word (truthWord b)

def print (e : Quoted.Escaping) : Literal → List Char
  | text s => '"' :: (e.body s.toList ++ ['"'])
  | number n => Nat.toDigits 10 n
  | truth b => truthWord b

end Literal

namespace Scalar

def IsDigits (text : List Char) : Prop := text ≠ [] ∧ ∀ c ∈ text, c.isDigit = true

theorem isDigits_toDigits (n : Nat) : IsDigits (Nat.toDigits 10 n) :=
  ⟨Nat.toDigits_ne_nil, fun _ hc => Nat.isDigit_of_mem_toDigits (by decide) (by decide) hc⟩

theorem ne_of_isDigit {c d : Char} (hc : c.isDigit = true) (hd : d.isDigit = false) : c ≠ d := by
  rintro rfl
  rw [hc] at hd
  cases hd

/-- The first digit of a number that is not zero is not zero. -/
theorem head?_toDigits {n : Nat} (h : (Nat.toDigits 10 n).head? = some '0') : n = 0 := by
  induction n using Nat.strong_induction_on with
  | _ n ih =>
    by_cases hn : n < 10
    · rw [Nat.toDigits_of_lt_base hn] at h
      have hsmall : ∀ m < 10, [Nat.digitChar m].head? = some '0' → m = 0 := by decide
      exact hsmall n hn h
    · rw [Nat.toDigits_of_base_le (by decide) (Nat.le_of_not_lt hn),
        List.head?_append_of_ne_nil _ Nat.toDigits_ne_nil] at h
      have hzero := ih (n / 10) (by omega) h
      omega

theorem ungrouped_digits {text : List Char} (h : IsDigits text) :
    ungrouped Char.isDigit text = some text := by
  obtain ⟨hne, hdigits⟩ := h
  induction text with
  | nil => exact absurd rfl hne
  | cons c text ih =>
    have hc := hdigits c List.mem_cons_self
    cases text with
    | nil => simp [ungrouped, hc]
    | cons d text =>
      have hd := hdigits d (List.mem_cons_of_mem c List.mem_cons_self)
      have hjoint : d ≠ '_' := ne_of_isDigit hd (by decide)
      have hrest := ih (List.cons_ne_nil d text) fun x hx => hdigits x (List.mem_cons_of_mem c hx)
      rw [ungrouped]
      · simp [hc, hrest]
      · rintro ⟨⟩
      · rintro rest ⟨⟩
        exact hjoint rfl

theorem decimalDigits?_toDigits (n : Nat) :
    decimalDigits? (Nat.toDigits 10 n) = some (Nat.toDigits 10 n) := by
  rw [decimalDigits?, ungrouped_digits (isDigits_toDigits n)]
  split
  next c rest heq =>
    have hdigits := Option.some.inj heq
    obtain rfl := head?_toDigits (by rw [hdigits]; rfl)
    cases hdigits
  next => rfl

theorem hexDigit?_digit {c : Char} (h : c.isDigit = true) : hexDigit? c = some (c.toNat - 48) := by
  have hrange : '0' ≤ c ∧ c ≤ '9' := by
    simp only [Char.isDigit, ge_iff_le, Bool.and_eq_true, decide_eq_true_eq] at h
    exact h
  rw [hexDigit?, if_pos hrange]

theorem ofDigits_toDigits (n : Nat) : ofDigits 10 (Nat.toDigits 10 n) = n := by
  have hstep : ∀ (m : Nat), ∀ c ∈ Nat.toDigits 10 n,
      m * 10 + (hexDigit? c).getD 0 = 10 * m + (c.toNat - '0'.toNat) := by
    intro m c hc
    rw [hexDigit?_digit ((isDigits_toDigits n).2 c hc), Nat.mul_comm]
    rfl
  calc ofDigits 10 (Nat.toDigits 10 n) = Nat.ofDigitChars 10 (Nat.toDigits 10 n) 0 := by
        rw [ofDigits, Nat.ofDigitChars_eq_foldl]
        exact List.foldl_ext _ _ _ hstep
    _ = n := Nat.ofDigitChars_ten_toDigits

theorem head?_digits_ne {text : List Char} {c : Char} (h : IsDigits text)
    (hc : c.isDigit = false) : text.head? ≠ some c := by
  intro hhead
  exact absurd (h.2 c (List.mem_of_mem_head? hhead)) (by simp [hc])

theorem isNegative_digits {text : List Char} (h : IsDigits text) : isNegative text = false := by
  rw [isNegative, decide_eq_false_iff_not]
  exact head?_digits_ne h (by decide)

theorem isSigned_digits {text : List Char} (h : IsDigits text) : isSigned text = false := by
  obtain ⟨c, text, rfl⟩ := List.exists_cons_of_ne_nil h.1
  have hc := h.2 c List.mem_cons_self
  have hplus : c ≠ '+' := ne_of_isDigit hc (by decide)
  have hminus : c ≠ '-' := ne_of_isDigit hc (by decide)
  simp [isSigned, isSign, hplus, hminus]

theorem expect?_digits {c : Char} {text : List Char} (hc : c.isDigit = false)
    (h : ∀ d ∈ text, d.isDigit = true) : Layout.expect? c text = none := by
  cases text with
  | nil => rfl
  | cons d text => exact if_neg (ne_of_isDigit (h d List.mem_cons_self) hc).symm

/-- A date has a hyphen behind its year, and a time a colon behind its hour. -/
theorem isDateTime_digits {text : List Char} (h : IsDigits text) : isDateTime text = false := by
  have hdrop (width : Nat) (c : Char) (hc : c.isDigit = false) {n : Nat} {rest : List Char}
      (hfixed : fixed? width text = some (n, rest)) : Layout.expect? c rest = none := by
    simp only [fixed?] at hfixed
    split at hfixed
    · cases hfixed
      exact expect?_digits hc fun d hd => h.2 d (List.mem_of_mem_drop hd)
    · cases hfixed
  have hdate : date? text = none := by
    unfold date?
    cases hfixed : fixed? 4 text with
    | none => rfl
    | some found => simp [hdrop 4 '-' (by decide) hfixed]
  have htime : time? text = none := by
    unfold time?
    cases hfixed : fixed? 2 text with
    | none => rfl
    | some found => simp [hdrop 2 ':' (by decide) hfixed]
  simp [isDateTime, hdate, htime]

theorem integer?_toDigits (n : Nat) : integer? (Nat.toDigits 10 n) = some (n : Int) := by
  have hdigits := isDigits_toDigits n
  have hbase (c : Char) (hc : c.isDigit = false) (rest : List Char) :
      Nat.toDigits 10 n ≠ '0' :: c :: rest := by
    intro heq
    have hmem : c ∈ Nat.toDigits 10 n := by simp [heq]
    exact ne_of_isDigit (hdigits.2 c hmem) hc rfl
  have hmagnitude : magnitude (Nat.toDigits 10 n) = Nat.toDigits 10 n := by
    simp [magnitude, unsigned, isSigned_digits hdigits]
  unfold integer?
  split
  next heq => exact absurd heq (hbase 'x' (by decide) _)
  next heq => exact absurd heq (hbase 'o' (by decide) _)
  next heq => exact absurd heq (hbase 'b' (by decide) _)
  next =>
    rw [hmagnitude, decimalDigits?_toDigits, Option.map_some, ofDigits_toDigits, withSign,
      isNegative_digits hdigits]
    rfl

theorem value?_toDigits (n : Nat) : value? (Nat.toDigits 10 n) = some (.integer n) := by
  have hdigits := isDigits_toDigits n
  have hword (b : Bool) : Nat.toDigits 10 n ≠ truthWord b := by
    intro heq
    have hmem : 'e' ∈ Nat.toDigits 10 n := by
      rw [heq]
      cases b <;> decide
    exact absurd (hdigits.2 'e' hmem) (by decide)
  have htrue : Nat.toDigits 10 n ≠ ['t', 'r', 'u', 'e'] := hword true
  have hfalse : Nat.toDigits 10 n ≠ ['f', 'a', 'l', 's', 'e'] := hword false
  rw [value?, if_neg htrue, if_neg hfalse, isDateTime_digits hdigits, integer?_toDigits]
  rfl

theorem value?_truthWord (b : Bool) : value? (truthWord b) = some (.boolean b) := by
  cases b <;> rfl

end Scalar

theorem Literal.piece_value? (l : Literal) : l.piece.value? = some l.value := by
  cases l with
  | text s => simp [piece, Piece.value?, value]
  | number n => exact Scalar.value?_toDigits n
  | truth b => exact Scalar.value?_truthWord b

end LoginNames.Toml
