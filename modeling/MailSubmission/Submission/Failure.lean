import MailSubmission.Fault
import MailSubmission.Reply

set_option autoImplicit false

/-!
# Submission: failures

A submission fails when its client does; the failure then names the client and the
last reply it had.  Settings that cannot be used are a failure as well.
-/

namespace MailSubmission

/-- Why a submission failed. -/
inductive SubmitFailure where
  /-- the client failed -/
  | client (name : String) (lastReply : Option Reply) (fault : Fault)
  /-- the settings cannot be used -/
  | settings (text : String)
  deriving DecidableEq, Repr, Inhabited

namespace SubmitFailure

/-- The client's fault. -/
def fault? : SubmitFailure → Option Fault
  | .client _ _ fault => some fault
  | .settings _ => none

/-- The last reply the client had. -/
def lastReply? : SubmitFailure → Option Reply
  | .client _ lastReply _ => lastReply
  | .settings _ => none

/-- The submission was cancelled. -/
def isCancelled (f : SubmitFailure) : Bool := f.fault?.any Fault.isCancelled

/-- The failure in words. -/
def message : SubmitFailure → String
  | .client name none fault => name ++ ": " ++ fault.message
  | .client name (some reply) fault =>
    name ++ ": " ++ fault.message ++ " (last reply: " ++ reply.render ++ ")"
  | .settings text => "Configuration error: " ++ text

end SubmitFailure

end MailSubmission
