set_option autoImplicit false

/-!
# Body: dot-stuffing

A message body ends at a line that is a single dot.  So that no line of the body is
taken for it, a dot that begins a line is doubled.  Lines end at carriage return and
line feed together; a body may come in pieces of any size.
-/

namespace MailSubmission.Body

/-- Where in a line the next octet of a body stands. -/
inductive Position where
  /-- at the start of a line -/
  | lineStart
  /-- behind a carriage return -/
  | afterReturn
  /-- elsewhere in a line -/
  | inside
  deriving DecidableEq, Repr, Inhabited

/-- The full stop. -/
def dot : UInt8 := 46

/-- The position behind an octet. -/
def Position.advance (p : Position) (b : UInt8) : Position :=
  if b = 13 then .afterReturn
  else if b = 10 && p = .afterReturn then .lineStart
  else .inside

/-- The octets put on the wire for one octet of a body. -/
def stuffOctet (p : Position) (b : UInt8) : List UInt8 :=
  if b = dot && p = .lineStart then [dot, dot] else [b]

/-- The stuffed form of a piece of a body that begins at `p`. -/
def stuff : Position → List UInt8 → List UInt8
  | _, [] => []
  | p, b :: rest => stuffOctet p b ++ stuff (p.advance b) rest

/-- The position behind a piece of a body that begins at `p`. -/
def Position.behind (p : Position) (piece : List UInt8) : Position := piece.foldl advance p

/-- What ends a body: the end of its last line, a dot, and the end of that line. -/
def terminator : List UInt8 := [13, 10, dot, 13, 10]

end MailSubmission.Body
