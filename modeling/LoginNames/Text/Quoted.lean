import LoginNames.Text.Invisible

/-! # Quoted text

A text shown between double quotes on one line: quotes, backslashes and characters without a form
of their own are written as escapes. -/

set_option autoImplicit false

namespace LoginNames.Text

def hexadecimal (n : Nat) : List Char := Nat.toDigits 16 n

def quotedChar (c : Char) : List Char :=
  match c with
  | '\x00' => ['\\', '0']
  | '\t' => ['\\', 't']
  | '\n' => ['\\', 'n']
  | '\r' => ['\\', 'r']
  | '\\' => ['\\', '\\']
  | '"' => ['\\', '"']
  | c => if isInvisible c then '\\' :: 'u' :: '{' :: hexadecimal c.toNat ++ ['}'] else [c]

def quoted (s : String) : String :=
  String.ofList ('"' :: s.toList.flatMap quotedChar ++ ['"'])

end LoginNames.Text
