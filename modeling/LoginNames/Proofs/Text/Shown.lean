import LoginNames.Bytes
import Mathlib

/-! # Showing the bytes of a text

Bytes are shown as text whatever they are, with a replacement character for what is no text. The
bytes of a text are shown as that text: each of its characters comes back from its own bytes. -/

set_option autoImplicit false

namespace LoginNames.Bytes

theorem ofString_eq_flatMap (s : String) :
    ofString s = s.toList.flatMap String.utf8EncodeChar := by
  rw [ofString, String.toUTF8_eq_toByteArray, ← String.utf8Encode_toList, List.utf8Encode]
  simp

theorem toNat_ofNat {n : Nat} (h : n < 256) : (UInt8.ofNat n).toNat = n :=
  UInt8.toNat_ofNat_of_lt' h

theorem tailWidth_ofNat {n : Nat} (h : n < 256) :
    tailWidth (UInt8.ofNat n) =
      if 0xC2 ≤ n ∧ n ≤ 0xDF then 1
      else if 0xE0 ≤ n ∧ n ≤ 0xEF then 2
      else if 0xF0 ≤ n ∧ n ≤ 0xF4 then 3
      else 0 := by
  simp only [tailWidth, UInt8.le_iff_toNat_le, toNat_ofNat h, Bool.and_eq_true, decide_eq_true_eq,
    UInt8.reduceToNat]

theorem isContinuation_ofNat {n : Nat} (h : n < 64) :
    isContinuation (UInt8.ofNat (n + 128)) = true := by
  have hn : (UInt8.ofNat (n + 128)).toNat = n + 128 := toNat_ofNat (by omega)
  simp only [isContinuation, UInt8.le_iff_toNat_le, hn, Bool.and_eq_true, decide_eq_true_eq,
    UInt8.reduceToNat]
  omega

/-- Where the second byte may stand: not so low that fewer bytes would do, and not so high that a
    surrogate or too great a number would come of it. -/
theorem isSecond_ofNat {lead n : Nat} (hlead : lead < 256) (h : n < 64)
    (hE0 : lead = 0xE0 → 0x20 ≤ n) (hED : lead = 0xED → n < 0x20)
    (hF0 : lead = 0xF0 → 0x10 ≤ n) (hF4 : lead = 0xF4 → n < 0x10) :
    isSecond (UInt8.ofNat lead) (UInt8.ofNat (n + 128)) = true := by
  have hn : (UInt8.ofNat (n + 128)).toNat = n + 128 := toNat_ofNat (by omega)
  simp only [isSecond, isContinuation, ← UInt8.toNat_inj, UInt8.le_iff_toNat_le, hn,
    toNat_ofNat hlead, UInt8.reduceToNat]
  split_ifs <;> simp only [Bool.and_eq_true, decide_eq_true_eq] <;> omega

variable {n : Nat} (rest : Bytes)

theorem lossyChars_one (h : n ≤ 0x7F) :
    lossyChars (UInt8.ofNat n :: rest) = Char.ofNat n :: lossyChars rest := by
  have hn : (UInt8.ofNat n).toNat = n := toNat_ofNat (by omega)
  have htail : characterTail (UInt8.ofNat n) rest = [] := by
    have hwidth : tailWidth (UInt8.ofNat n) = 0 := by
      rw [tailWidth_ofNat (by omega)]
      split_ifs <;> omega
    simp only [characterTail, hwidth]
  rw [lossyChars, htail]
  simp only [character, UInt8.lt_iff_toNat_lt, hn, UInt8.reduceToNat, List.length_nil,
    List.drop_zero]
  rw [if_pos (by omega)]

theorem lossyChars_two (hlow : 0x7F < n) (hhigh : n ≤ 0x7FF) :
    lossyChars (UInt8.ofNat (n / 64 % 32 + 192) :: UInt8.ofNat (n % 64 + 128) :: rest) =
      Char.ofNat n :: lossyChars rest := by
  have hwidth : tailWidth (UInt8.ofNat (n / 64 % 32 + 192)) = 1 := by
    rw [tailWidth_ofNat (by omega), if_pos (by omega)]
  have hsecond : isSecond (UInt8.ofNat (n / 64 % 32 + 192)) (UInt8.ofNat (n % 64 + 128)) = true :=
    isSecond_ofNat (by omega) (by omega) (by omega) (by omega) (by omega) (by omega)
  have htail : characterTail (UInt8.ofNat (n / 64 % 32 + 192))
      (UInt8.ofNat (n % 64 + 128) :: rest) = [UInt8.ofNat (n % 64 + 128)] := by
    simp only [characterTail, hwidth, hsecond, if_true, List.take_zero, List.takeWhile_nil]
  have hvalue : n / 64 % 32 + 192 = 192 + n / 64 := by omega
  rw [lossyChars, htail]
  simp only [character, hwidth, if_true, toNat_ofNat (show n / 64 % 32 + 192 < 256 by omega),
    toNat_ofNat (show n % 64 + 128 < 256 by omega), List.length_singleton, List.drop_one,
    List.tail_cons]
  congr 2
  omega

theorem lossyChars_three (hlow : 0x7FF < n) (hhigh : n ≤ 0xFFFF)
    (hvalid : n < 0xD800 ∨ 0xDFFF < n) :
    lossyChars (UInt8.ofNat (n / 4096 % 16 + 224) :: UInt8.ofNat (n / 64 % 64 + 128) ::
        UInt8.ofNat (n % 64 + 128) :: rest) =
      Char.ofNat n :: lossyChars rest := by
  have hwidth : tailWidth (UInt8.ofNat (n / 4096 % 16 + 224)) = 2 := by
    rw [tailWidth_ofNat (by omega), if_neg (by omega), if_pos (by omega)]
  have hsecond : isSecond (UInt8.ofNat (n / 4096 % 16 + 224))
      (UInt8.ofNat (n / 64 % 64 + 128)) = true :=
    isSecond_ofNat (by omega) (by omega) (by omega) (by omega) (by omega) (by omega)
  have hthird : isContinuation (UInt8.ofNat (n % 64 + 128)) = true :=
    isContinuation_ofNat (by omega)
  have htail : characterTail (UInt8.ofNat (n / 4096 % 16 + 224))
      (UInt8.ofNat (n / 64 % 64 + 128) :: UInt8.ofNat (n % 64 + 128) :: rest) =
      [UInt8.ofNat (n / 64 % 64 + 128), UInt8.ofNat (n % 64 + 128)] := by
    simp only [characterTail, hwidth, hsecond, hthird, if_true, List.take_succ_cons,
      List.take_zero, List.takeWhile_cons, List.takeWhile_nil]
  rw [lossyChars, htail]
  simp only [character, hwidth, if_true, toNat_ofNat (show n / 4096 % 16 + 224 < 256 by omega),
    toNat_ofNat (show n / 64 % 64 + 128 < 256 by omega),
    toNat_ofNat (show n % 64 + 128 < 256 by omega), List.length_cons, List.length_nil,
    List.drop_succ_cons, List.drop_zero]
  congr 2
  omega

theorem lossyChars_four (hlow : 0xFFFF < n) (hhigh : n < 0x110000) :
    lossyChars (UInt8.ofNat (n / 262144 % 8 + 240) :: UInt8.ofNat (n / 4096 % 64 + 128) ::
        UInt8.ofNat (n / 64 % 64 + 128) :: UInt8.ofNat (n % 64 + 128) :: rest) =
      Char.ofNat n :: lossyChars rest := by
  have hwidth : tailWidth (UInt8.ofNat (n / 262144 % 8 + 240)) = 3 := by
    rw [tailWidth_ofNat (by omega), if_neg (by omega), if_neg (by omega), if_pos (by omega)]
  have hsecond : isSecond (UInt8.ofNat (n / 262144 % 8 + 240))
      (UInt8.ofNat (n / 4096 % 64 + 128)) = true :=
    isSecond_ofNat (by omega) (by omega) (by omega) (by omega) (by omega) (by omega)
  have hthird : isContinuation (UInt8.ofNat (n / 64 % 64 + 128)) = true :=
    isContinuation_ofNat (by omega)
  have hfourth : isContinuation (UInt8.ofNat (n % 64 + 128)) = true :=
    isContinuation_ofNat (by omega)
  have htail : characterTail (UInt8.ofNat (n / 262144 % 8 + 240))
      (UInt8.ofNat (n / 4096 % 64 + 128) :: UInt8.ofNat (n / 64 % 64 + 128) ::
        UInt8.ofNat (n % 64 + 128) :: rest) =
      [UInt8.ofNat (n / 4096 % 64 + 128), UInt8.ofNat (n / 64 % 64 + 128),
        UInt8.ofNat (n % 64 + 128)] := by
    simp only [characterTail, hwidth, hsecond, hthird, hfourth, if_true, List.take_succ_cons,
      List.take_zero, List.takeWhile_cons, List.takeWhile_nil]
  rw [lossyChars, htail]
  simp only [character, toNat_ofNat (show n / 262144 % 8 + 240 < 256 by omega),
    toNat_ofNat (show n / 4096 % 64 + 128 < 256 by omega),
    toNat_ofNat (show n / 64 % 64 + 128 < 256 by omega),
    toNat_ofNat (show n % 64 + 128 < 256 by omega), List.length_cons, List.length_nil,
    List.drop_succ_cons, List.drop_zero]
  congr 2
  omega

theorem lossyChars_utf8EncodeChar (c : Char) :
    lossyChars (String.utf8EncodeChar c ++ rest) = c :: lossyChars rest := by
  have hvalid : c.val.toNat < 0xD800 ∨ (0xDFFF < c.val.toNat ∧ c.val.toNat < 0x110000) := c.valid
  have hchar : Char.ofNat c.val.toNat = c := Char.ofNat_toNat c
  unfold String.utf8EncodeChar
  generalize c.val.toNat = n at hvalid hchar ⊢
  subst hchar
  simp only
  split_ifs with hone htwo hthree
  · exact lossyChars_one rest hone
  · exact lossyChars_two rest (by omega) htwo
  · exact lossyChars_three rest (by omega) hthree (by omega)
  · exact lossyChars_four rest (by omega) (by omega)

theorem lossyText_ofString (s : String) : lossyText (ofString s) = s := by
  have hchars (text : List Char) : lossyChars (text.flatMap String.utf8EncodeChar) = text := by
    induction text with
    | nil => rw [List.flatMap_nil, lossyChars]
    | cons c text ih => rw [List.flatMap_cons, lossyChars_utf8EncodeChar, ih]
  rw [lossyText, ofString_eq_flatMap, hchars, String.ofList_toList]

end LoginNames.Bytes
