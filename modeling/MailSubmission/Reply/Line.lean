import MailSubmission.Reply

set_option autoImplicit false

/-!
# Reply: the lines of a reply

A reply arrives as one or more lines.  They are read either together, as one reply
with the last line's code, or each as a reply of its own.
-/

namespace MailSubmission

/-- One line of a reply. -/
structure ReplyLine where
  /-- The code in the first three columns. -/
  code : Nat := 0
  /-- What follows the code and its separator. -/
  text : String := ""
  /-- The line did not keep to the grammar. -/
  broken : Bool := false
  /-- No line of the same reply follows. -/
  last : Bool := false
  deriving DecidableEq, Repr, Inhabited

namespace ReplyLine

/-- The line as a reply. -/
def toReply (l : ReplyLine) : Reply := { code := l.code, text := l.text, broken := l.broken }

/-- The lines as one reply: the code of the last one, the texts joined by line feeds,
broken if a line is or if the codes differ. -/
def collapse (lines : List ReplyLine) : Reply :=
  match lines.getLast? with
  | none => {}
  | some final =>
    { code := final.code
      text := "\n".intercalate (lines.map (·.text))
      broken := lines.any fun l => l.broken || l.code != final.code }

/-- The lines as one reply each. -/
def expand (lines : List ReplyLine) : List Reply := lines.map toReply

end ReplyLine

end MailSubmission
