import MailSubmission.Client.Settings
import MailSubmission.Dsn

set_option autoImplicit false

/-!
# Submission: settings

Where mail is handed in, how often a refusal is answered with another attempt, and
how many messages go over one connection.
-/

namespace MailSubmission

/-- What a submitter does about a refusal. -/
inductive RetryPolicy where
  /-- connect anew and try again -/
  | tolerant
  /-- hand the refusal to the caller -/
  | touchy
  deriving DecidableEq, Repr, Inhabited

namespace RetryPolicy

/-- The policy's name in settings. -/
def word : RetryPolicy → String
  | .tolerant => "tolerant"
  | .touchy => "touchy"

/-- The policy of a name. -/
def ofWord? : String → Option RetryPolicy
  | "tolerant" => some .tolerant
  | "touchy" => some .touchy
  | _ => none

/-- The policy in words. -/
def describe : RetryPolicy → String
  | .tolerant => "Tolerant"
  | .touchy => "Touchy"

end RetryPolicy

/-- The settings of a submitter. -/
structure SubmitSettings where
  /-- The server's host. -/
  host : String := "localhost"
  /-- The server's port. -/
  port : Nat := 25
  /-- Send several messages over one connection. -/
  streaming : Bool := false
  /-- The most messages for one connection. -/
  streamMax : Nat := 1000
  /-- The notification request for every message. -/
  dsn : Option Dsn := none
  /-- What to do about a refusal. -/
  policy : RetryPolicy := .tolerant
  /-- How often to connect anew for one message. -/
  connectRetries : Nat := 3
  /-- The pause before connecting anew, in milliseconds. -/
  retryDelay : Nat := 1000
  /-- The settings of the client. -/
  client : ClientSettings := {}
  deriving DecidableEq, Repr, Inhabited

namespace SubmitSettings

/-- What is wrong with the settings, by the first thing that is. -/
def defect? (s : SubmitSettings) : Option String :=
  if (Text.trim s.host).isEmpty then some "host must not be empty"
  else if s.streamMax = 0 then some "stream_max must be at least 1"
  else if s.client.timeout = 0 then some "timeout_ms must be positive"
  else none

end SubmitSettings

end MailSubmission
