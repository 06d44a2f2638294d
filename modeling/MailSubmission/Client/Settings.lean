set_option autoImplicit false

/-!
# Client: settings

How a client speaks and how patient it is.  The settings hold for a connection from
its opening to its end.
-/

namespace MailSubmission

/-- The settings of a client. -/
structure ClientSettings where
  /-- The limit of every wait, in milliseconds. -/
  timeout : Nat := 180000
  /-- How often a reply is waited for again after the limit. -/
  readRetries : Nat := 0
  /-- What the client's name begins with. -/
  name : String := "smtp"
  /-- Ask for extensions, and use them. -/
  extensions : Bool := false
  /-- The host the client introduces itself as. -/
  heloHost : String := "localhost"
  /-- Deviations allowed in one reply. -/
  tolerance : Nat := 5
  deriving DecidableEq, Repr, Inhabited

end MailSubmission
