set_option autoImplicit false

/-!
# Json: writing

A text in quotes, and records laid out over several lines: each member on a line of
its own, two blanks further in than the braces around it.
-/

namespace MailSubmission.Json

/-- One character of a text in quotes: the quote, the backslash and control characters
are escaped. -/
def quoteChar (c : Char) : List Char :=
  match c with
  | '"' => ['\\', '"']
  | '\\' => ['\\', '\\']
  | '\x08' => ['\\', 'b']
  | '\x0c' => ['\\', 'f']
  | '\n' => ['\\', 'n']
  | '\r' => ['\\', 'r']
  | '\t' => ['\\', 't']
  | _ =>
    if c.toNat < 0x20 then
      let digits := Nat.toDigits 16 c.toNat
      ['\\', 'u'] ++ List.replicate (4 - digits.length) '0' ++ digits
    else [c]

/-- A text in quotes. -/
def quote (s : String) : String :=
  String.ofList ('"' :: s.toList.flatMap quoteChar ++ ['"'])

/-- A member of a record that is a text or a number. -/
inductive Scalar where
  | text (s : String)
  | number (n : Nat)
  deriving DecidableEq, Repr, Inhabited

/-- The scalar as it is written. -/
def Scalar.render : Scalar → String
  | .text s => quote s
  | .number n => toString n

/-- A member of a record: a scalar, or a record of scalars. -/
inductive Field where
  | scalar (s : Scalar)
  | record (members : List (String × Scalar))
  deriving DecidableEq, Repr, Inhabited

/-- Members between braces, where the closing brace stands behind `indent`. -/
def layOut (indent : String) (members : List (String × String)) : String :=
  if members.isEmpty then "\x7b\x7d"
  else
    "\x7b\n" ++
      ",\n".intercalate (members.map fun (key, value) => indent ++ "  " ++ quote key ++ ": " ++ value) ++
      "\n" ++ indent ++ "\x7d"

/-- The member as it is written inside a record. -/
def Field.render : Field → String
  | .scalar s => s.render
  | .record members => layOut "  " (members.map fun (key, s) => (key, s.render))

/-- A record. -/
def renderRecord (members : List (String × Field)) : String :=
  layOut "" (members.map fun (key, f) => (key, f.render))

end MailSubmission.Json
