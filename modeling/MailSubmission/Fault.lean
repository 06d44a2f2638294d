import MailSubmission.Client.State

set_option autoImplicit false

/-!
# Fault: what can go wrong with a client

A refusal by the server is an answer and no fault.  A fault is a call that was not
allowed, a connection that failed, or a cancellation; only the first kind leaves
the connection usable.
-/

namespace MailSubmission

/-- What a client was doing when its time ran out. -/
inductive Phase where
  /-- opening the connection -/
  | connect
  /-- sending a command or awaiting its reply -/
  | reply
  /-- sending a message body -/
  | body
  /-- awaiting the reply to a message body -/
  | dataReply
  deriving DecidableEq, Repr, Inhabited

/-- The phase in messages. -/
def Phase.render : Phase → String
  | .connect => "connect"
  | .reply => "reply"
  | .body => "message body"
  | .dataReply => "post-DATA reply"

/-- Why a call on a client failed. -/
inductive Fault where
  /-- the network reports an error -/
  | network (text : String)
  /-- the state does not allow the operation -/
  | invalidState (operation : String) (state : SessionState)
  /-- the connection ended inside a reply -/
  | connectionClosed
  /-- a reply held so many deviations from the grammar -/
  | replyThrashing (deviations : Nat)
  /-- the time ran out, after so many octets -/
  | timeout (phase : Phase) (transferred : Nat)
  /-- the call was cancelled while it waited -/
  | cancelled
  /-- the server greeted with a failing code -/
  | greeting (code : Nat) (text : String)
  /-- the server refused to reset the transaction -/
  | resetFailed (code : Nat) (text : String)
  /-- a delivery notification request cannot be read -/
  | invalidDsn (text : String)
  /-- an address is not acceptable -/
  | invalidAddress (text : String)
  deriving DecidableEq, Repr, Inhabited

namespace Fault

/-- What a fault means for the connection. -/
inductive Kind where
  /-- the caller asked for what is not allowed -/
  | precondition
  /-- the connection is unusable -/
  | transport
  /-- the call was cancelled -/
  | cancelled
  deriving DecidableEq, Repr, Inhabited

/-- What the fault means for the connection. -/
def kind : Fault → Kind
  | .invalidState .. | .invalidDsn _ | .invalidAddress _ => .precondition
  | .cancelled => .cancelled
  | _ => .transport

/-- The fault is a cancellation. -/
def isCancelled : Fault → Bool
  | .cancelled => true
  | _ => false

/-- The connection can no longer be used. -/
def isFatal (f : Fault) : Bool := f.kind != .precondition

/-- The fault in words. -/
def message : Fault → String
  | .network text => "I/O error: " ++ text
  | .invalidState operation state => operation ++ " not allowed in state " ++ state.render
  | .connectionClosed => "Connection closed mid-reply"
  | .replyThrashing n => "Reply thrashing: " ++ toString n ++ " protocol deviations"
  | .timeout phase n =>
    "Timed out during " ++ phase.render ++ " after " ++ toString n ++ " bytes"
  | .cancelled => "Operation cancelled"
  | .greeting code text => "Server greeting rejected: " ++ toString code ++ " " ++ text
  | .resetFailed code text => "RSET failed: " ++ toString code ++ " " ++ text
  | .invalidDsn text => "Invalid DSN: " ++ text
  | .invalidAddress text => "Invalid email address: " ++ text

end Fault

end MailSubmission
