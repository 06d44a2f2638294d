set_option autoImplicit false

/-!
# Reply: what a server answers

A reply carries a status code, the text after it, a mark that the server did not
keep to the reply grammar, and, once a message body has been handed over, the
number of octets that took.

Codes are natural numbers: three digits on the wire, hence at most 999 in a decoded
reply, but a reply made by hand may carry any.
-/

namespace MailSubmission

/-! ## Status codes -/

namespace Code

/-- The least code that counts as a failure. -/
def failThreshold : Nat := 421

/-- `250`: the request was carried out. -/
def ok : Nat := 250

/-- `354`: the message body may follow. -/
def startData : Nat := 354

/-- A code of the two hundreds. -/
def isSuccess (code : Nat) : Bool := 200 ≤ code && code < 300

/-- A code of the four hundreds. -/
def isTransient (code : Nat) : Bool := 400 ≤ code && code < 500

/-- A code of the five hundreds. -/
def isPermanent (code : Nat) : Bool := 500 ≤ code && code < 600

/-- A code from the threshold on, or below the least that a server may send. -/
def isFailure (code : Nat) : Bool := failThreshold ≤ code || code < 100

/-- The digits of a code in its three columns; higher places are dropped. -/
def columns (code : Nat) : List Nat := [code / 100 % 10, code / 10 % 10, code % 10]

/-- The code in at least three digits. -/
def render (code : Nat) : String :=
  let digits := toString code
  String.ofList (List.replicate (3 - digits.length) '0') ++ digits

end Code

/-! ## Replies -/

/-- A server's answer. -/
structure Reply where
  /-- The status code. -/
  code : Nat := 0
  /-- The text behind the code; the lines of a longer reply are joined by line feeds. -/
  text : String := ""
  /-- The server did not keep to the reply grammar. -/
  broken : Bool := false
  /-- Octets of the message body that this reply answers. -/
  size : Option Nat := none
  deriving DecidableEq, Repr, Inhabited

namespace Reply

/-- The reply with the octets of the body it answers. -/
def withSize (r : Reply) (octets : Nat) : Reply := { r with size := some octets }

/-- The transaction cannot go on. -/
def isFailure (r : Reply) : Bool := Code.isFailure r.code

/-- The server took over a message body. -/
def isDelivered (r : Reply) : Bool := r.size.isSome && !r.isFailure

/-- The code, a space, the text. -/
def render (r : Reply) : String := Code.render r.code ++ " " ++ r.text

end Reply

end MailSubmission
