import MailSubmission.Text.Blank

set_option autoImplicit false

/-!
# Extension: what a server offers

A server names its extensions one a line: a keyword in letters of any case, and
what belongs to it behind white space.
-/

namespace MailSubmission

/-- An extension of the protocol. -/
inductive Extension where
  | startTls
  | auth (mechanisms : List String)
  | size (limit : Option Nat)
  | eightBitMime
  | pipelining
  | chunking
  | smtpUtf8
  | dsn
  | enhancedStatusCodes
  | unknown (line : String)
  deriving DecidableEq, Repr, Inhabited

namespace Extension

/-- The least number too large for a message size. -/
def sizeBound : Nat := Nat.pow 2 64

/-- A number with a decimal digit behind it, if it is not too large. -/
def withDigit? (n : Nat) (c : Char) : Option Nat :=
  let m := n * 10 + (c.toNat - 48)
  if m < sizeBound then some m else none

/-- A number in decimal digits only that is not too large. -/
def digits? (cs : List Char) : Option Nat :=
  if cs.isEmpty || !cs.all Char.isDigit then none else cs.foldlM withDigit? 0

/-- A message size: a number in decimal digits, after a plus sign or not. -/
def parseSize? (word : String) : Option Nat :=
  match word.toList with
  | '+' :: ds => digits? ds
  | ds => digits? ds

/-- Read a line of the server's offer. -/
def parse (line : String) : Extension :=
  match Text.words line with
  | [] => .unknown line
  | keyword :: rest =>
    match Text.upper keyword with
    | "STARTTLS" => .startTls
    | "AUTH" => .auth (rest.map Text.upper)
    | "SIZE" => .size (rest.head?.bind parseSize?)
    | "8BITMIME" => .eightBitMime
    | "PIPELINING" => .pipelining
    | "CHUNKING" => .chunking
    | "SMTPUTF8" => .smtpUtf8
    | "DSN" => .dsn
    | "ENHANCEDSTATUSCODES" => .enhancedStatusCodes
    | _ => .unknown line

/-- The extension in words. -/
def render : Extension → String
  | .startTls => "StartTls"
  | .auth mechanisms => "Auth(" ++ " ".intercalate mechanisms ++ ")"
  | .size none => "Size(none)"
  | .size (some n) => "Size(" ++ toString n ++ ")"
  | .eightBitMime => "EightBitMime"
  | .pipelining => "Pipelining"
  | .chunking => "Chunking"
  | .smtpUtf8 => "SmtpUtf8"
  | .dsn => "Dsn"
  | .enhancedStatusCodes => "EnhancedStatusCodes"
  | .unknown line => "Unknown(" ++ line ++ ")"

end Extension

end MailSubmission
