import MailSubmission.Text.Legible

set_option autoImplicit false

/-!
# Text: quoted form

A text quoted for a message: between double quotes, with a backslash before a
double quote and before a backslash, short escapes for NUL, tab, line feed and
carriage return, and every other character that is not legible as its number in
lower-case hexadecimal between braces.
-/

namespace MailSubmission.Text.Quoted

/-- One character inside the quotes. -/
def encodeChar (c : Char) : List Char :=
  match c with
  | '\x00' => ['\\', '0']
  | '\t' => ['\\', 't']
  | '\n' => ['\\', 'n']
  | '\r' => ['\\', 'r']
  | '"' => ['\\', '"']
  | '\\' => ['\\', '\\']
  | _ =>
    if isLegible c then [c]
    else ['\\', 'u', '\x7b'] ++ Nat.toDigits 16 c.toNat ++ ['\x7d']

/-- The text in quotes. -/
def encode (s : String) : String :=
  String.ofList ('"' :: s.toList.flatMap encodeChar ++ ['"'])

end MailSubmission.Text.Quoted
