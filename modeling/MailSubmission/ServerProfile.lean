import MailSubmission.Extension
import MailSubmission.Reply.Line

set_option autoImplicit false

/-!
# ServerProfile: what a client has learned about its server

The greeting gives the server's name, and the answer to the login its extensions.
Extensions are a set; it is kept as a list without repetitions, in the order in
which the server named them.
-/

namespace MailSubmission

/-- What is known about a server. -/
structure ServerProfile where
  /-- The name in the greeting; empty before there was one. -/
  hostname : String := ""
  /-- The extensions offered, without repetitions. -/
  extensions : List Extension := []
  deriving DecidableEq, Repr, Inhabited

namespace ServerProfile

/-- What a greeting says: the first word is the server's name. -/
def ofGreeting (greeting : Reply) : ServerProfile :=
  { hostname := (Text.words greeting.text).head?.getD "unknown" }

/-- Add an extension to those known. -/
def insert (p : ServerProfile) (e : Extension) : ServerProfile :=
  if p.extensions.contains e then p else { p with extensions := p.extensions ++ [e] }

/-- The profile with exactly the extensions that the lines of a login reply offer; the
first line is a welcome and offers none. -/
def learn (p : ServerProfile) (lines : List ReplyLine) : ServerProfile :=
  (lines.drop 1).foldl (fun p l => p.insert (Extension.parse l.text)) { p with extensions := [] }

/-- The server offers the extension. -/
def supports (p : ServerProfile) (e : Extension) : Bool := p.extensions.contains e

/-- The message sizes offered, in the order of the extensions. -/
def sizes (p : ServerProfile) : List (Option Nat) :=
  p.extensions.filterMap fun
    | .size limit => some limit
    | _ => none

/-- The largest message that the server takes, by the first extension that says so. -/
def maxMessageSize (p : ServerProfile) : Option Nat := p.sizes.head?.join

end ServerProfile

end MailSubmission
