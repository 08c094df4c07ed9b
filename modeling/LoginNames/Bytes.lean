/-! # Byte strings

Name files and templates are byte strings and need not be text. `ofString` gives the UTF-8 form of
a text, `text?` reads it back, and `lossyText` shows any bytes as text. -/

set_option autoImplicit false

namespace LoginNames

abbrev Bytes := List UInt8

namespace Bytes

def newline : UInt8 := 10

def carriageReturn : UInt8 := 13

def slash : UInt8 := 47

def ofString (s : String) : Bytes := s.toUTF8.data.toList

def text? (bs : Bytes) : Option String := String.fromUTF8? ⟨bs.toArray⟩

theorem text?_ofString (s : String) : text? (ofString s) = some s := by
  have h : (⟨(ofString s).toArray⟩ : ByteArray) = s.toByteArray := by simp [ofString]
  rw [text?, h, String.fromUTF8?, dif_pos s.isValidUTF8]
  rfl

def isContinuation (b : UInt8) : Bool := 0x80 ≤ b && b ≤ 0xBF

/-- How many bytes follow a leading byte; none follow a byte that leads nothing. -/
def tailWidth (lead : UInt8) : Nat :=
  if 0xC2 ≤ lead && lead ≤ 0xDF then 1
  else if 0xE0 ≤ lead && lead ≤ 0xEF then 2
  else if 0xF0 ≤ lead && lead ≤ 0xF4 then 3
  else 0

/-- The byte after the leading one is narrower than a continuation where a shorter form, a
    surrogate or a number above the last character would arise. -/
def isSecond (lead b : UInt8) : Bool :=
  if lead = 0xE0 then 0xA0 ≤ b && b ≤ 0xBF
  else if lead = 0xED then 0x80 ≤ b && b ≤ 0x9F
  else if lead = 0xF0 then 0x90 ≤ b && b ≤ 0xBF
  else if lead = 0xF4 then 0x80 ≤ b && b ≤ 0x8F
  else isContinuation b

def characterTail (lead : UInt8) (rest : Bytes) : Bytes :=
  match tailWidth lead, rest with
  | width + 1, b :: after =>
    if isSecond lead b then b :: (after.take width).takeWhile isContinuation else []
  | _, _ => []

def character (lead : UInt8) (tail : Bytes) : Char :=
  let low (b : UInt8) : Nat := b.toNat % 64
  match tail with
  | [] => if lead < 0x80 then Char.ofNat lead.toNat else Char.ofNat 0xFFFD
  | [b] => if tailWidth lead = 1 then Char.ofNat (lead.toNat % 32 * 64 + low b)
      else Char.ofNat 0xFFFD
  | [b, c] => if tailWidth lead = 2 then Char.ofNat (lead.toNat % 16 * 4096 + low b * 64 + low c)
      else Char.ofNat 0xFFFD
  | b :: c :: d :: _ =>
    Char.ofNat (lead.toNat % 8 * 262144 + low b * 4096 + low c * 64 + low d)

/-- Each malformed sequence, as long as it could still be the start of a character, is shown as
    one replacement character. -/
def lossyChars : Bytes → List Char
  | [] => []
  | lead :: rest =>
    let tail := characterTail lead rest
    character lead tail :: lossyChars (rest.drop tail.length)
termination_by bs => bs.length
decreasing_by simp only [List.length_drop, List.length_cons]; omega

def lossyText (bs : Bytes) : String := String.ofList (lossyChars bs)

end Bytes

end LoginNames
