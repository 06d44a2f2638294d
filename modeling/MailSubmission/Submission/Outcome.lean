import MailSubmission.Submission.Failure

set_option autoImplicit false

/-!
# Submission: outcomes

What became of a measured submission: it passed, the server refused it, or something
else went wrong; with the octets of message body that were sent.
-/

namespace MailSubmission

/-- What became of a submission. -/
inductive OutcomeKind where
  /-- the server took the message -/
  | pass
  /-- the server refused it -/
  | fail
  /-- anything else went wrong -/
  | exception
  deriving DecidableEq, Repr, Inhabited

/-- The kind in records. -/
def OutcomeKind.word : OutcomeKind → String
  | .pass => "pass"
  | .fail => "fail"
  | .exception => "exception"

/-- The record of a submission. -/
structure Outcome where
  kind : OutcomeKind
  /-- Octets of message body sent. -/
  bytes : Nat
  /-- What the submission is known by. -/
  correlationId : String
  /-- The code of the final reply. -/
  status : Option Nat := none
  /-- The text of a refusal. -/
  serverText : Option String := none
  /-- What went wrong. -/
  error : Option String := none
  deriving DecidableEq, Repr, Inhabited

namespace Outcome

/-- One if the outcome is of that kind, and nothing otherwise. -/
def count (o : Outcome) (kind : OutcomeKind) : Nat := if o.kind = kind then 1 else 0

/-- The message was taken. -/
def isPass (o : Outcome) : Bool := o.kind == .pass

/-- The outcome of a submission that ended with a reply. -/
def ofReply (correlationId : String) (reply : Reply) : Outcome :=
  { kind := if reply.isDelivered then .pass else .fail
    bytes := reply.size.getD 0
    correlationId
    status := some reply.code
    serverText := if reply.isDelivered then none else some reply.text }

/-- The octets of a body that were sent before a fault: a timeout during the body or
after it says so. -/
def bytesBefore : Fault → Nat
  | .timeout .body transferred | .timeout .dataReply transferred => transferred
  | _ => 0

/-- The outcome of a submission that failed. -/
def ofFailure (correlationId : String) (failure : SubmitFailure) : Outcome :=
  { kind := .exception
    bytes := (failure.fault?.map bytesBefore).getD 0
    correlationId
    status := failure.lastReply?.map (·.code)
    error := some failure.message }

end Outcome

end MailSubmission
