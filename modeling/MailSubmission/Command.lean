import MailSubmission.Address
import MailSubmission.Text.Utf8

set_option autoImplicit false

/-!
# Command: what a client says

A command is one line.  The commands that name a sender and a recipient carry a path
in angle brackets and, behind a space, parameters that are already rendered.
-/

namespace MailSubmission

/-- A command of the protocol. -/
inductive Command where
  /-- introduce the client -/
  | helo (host : String)
  /-- introduce the client and ask for extensions -/
  | ehlo (host : String)
  /-- begin a transaction -/
  | mailFrom (sender : Address) (params : Option String)
  /-- name the recipient -/
  | rcptTo (recipient : Address) (params : Option String)
  /-- announce a message body -/
  | data
  /-- give a transaction up -/
  | rset
  /-- say goodbye -/
  | quit
  deriving DecidableEq, Repr

instance : Inhabited Command := ⟨.quit⟩

namespace Command

/-- Parameters behind a path; nothing for none and for an empty text. -/
def paramText : Option String → String
  | none => ""
  | some params => if params.isEmpty then "" else " " ++ params

/-- The command line without its end. -/
def text : Command → String
  | .helo host => "HELO " ++ host
  | .ehlo host => "EHLO " ++ host
  | .mailFrom sender params => "MAIL FROM:" ++ sender.render ++ paramText params
  | .rcptTo recipient params => "RCPT TO:" ++ recipient.render ++ paramText params
  | .data => "DATA"
  | .rset => "RSET"
  | .quit => "QUIT"

/-- The command line on the wire. -/
def wire (c : Command) : List UInt8 := Text.Utf8.encode (c.text ++ "\r\n")

/-- The command for a reader: its line without the white space at its end. -/
def render (c : Command) : String := Text.trimEnd (c.text ++ "\r\n")

end Command

end MailSubmission
