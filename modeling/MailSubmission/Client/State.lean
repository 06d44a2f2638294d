set_option autoImplicit false

/-!
# Client: the states of a session

A session goes from a fresh client over a greeting and a login to an envelope, whose
recipient is the last thing before a message.  `bad` is where it ends up when the
octet stream can no longer be trusted.
-/

namespace MailSubmission

/-- Where a client is in its session. -/
inductive SessionState where
  /-- no connection -/
  | fresh
  /-- greeted by the server -/
  | connected
  /-- the login was accepted -/
  | loginComplete
  /-- the sender was accepted -/
  | mailFromDone
  /-- the recipient was accepted -/
  | rcptToDone
  /-- the octet stream was interrupted or is out of step -/
  | bad
  deriving DecidableEq, Repr, Inhabited

namespace SessionState

/-- There is a connection to the server. -/
def isLive : SessionState → Bool
  | .fresh | .bad => false
  | _ => true

/-- A transaction may be reset. -/
def inSession : SessionState → Bool
  | .loginComplete | .mailFromDone | .rcptToDone => true
  | _ => false

/-- The name in messages. -/
def render : SessionState → String
  | .fresh => "FRESH"
  | .connected => "CONNECTED"
  | .loginComplete => "LOGIN_COMPLETE"
  | .mailFromDone => "MAILFROM_DONE"
  | .rcptToDone => "RCPTTO_DONE"
  | .bad => "BAD"

end SessionState

end MailSubmission
