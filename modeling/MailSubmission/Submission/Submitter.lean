import MailSubmission.Client
import MailSubmission.Submission.Outcome
import MailSubmission.Submission.Settings

set_option autoImplicit false

/-!
# Submission: the submitter

A submitter hands messages to a server through one client.  It connects and logs in
when needed, names sender and recipient, and sends the message.  Afterwards it
resets the session for the next message or lets go of the connection.

A tolerant submitter answers a refusal of the login, the sender or the recipient by
connecting anew, a limited number of times.  By then no source of the message has
been read.

A submitter is given its token when it is made, and so is its client.  Giving another one
to a submitter that is in use is not modelled.
-/

namespace MailSubmission

/-- The step of a submission that a refusal answers. -/
inductive Stage where
  | login
  | sender
  | recipient
  /-- the message itself -/
  | data
  deriving DecidableEq, Repr, Inhabited

/-- Another attempt may follow a refusal: no source has been read. -/
def Stage.isRetryable : Stage → Bool
  | .data => false
  | _ => true

/-- How one attempt ended. -/
inductive Attempt where
  /-- the message was taken -/
  | delivered (reply : Reply)
  /-- the server refused a step -/
  | rejected (stage : Stage) (reply : Reply)
  deriving DecidableEq, Repr, Inhabited

/-- The reply that an attempt ended with. -/
def Attempt.reply : Attempt → Reply
  | .delivered reply => reply
  | .rejected _ reply => reply

/-- A message to be handed in. -/
structure Message where
  sender : Address
  recipient : Address
  /-- What the body is read from, in order; empty places are passed over. -/
  sources : List (Option Script)
  deriving DecidableEq, Repr

/-- Hands in messages. -/
structure Submitter where
  settings : SubmitSettings := {}
  client : Client := {}
  /-- What cancels its pauses; its client has the same. -/
  token : Token := {}
  /-- Messages counted against the connection. -/
  streamSent : Nat := 0
  /-- Submissions begun.  It stands for a counter of 64 bits.  That such a counter wraps is not
  modelled: each submission adds one, and no process lives to begin `2 ^ 64` of them. -/
  submissions : Nat := 0
  deriving DecidableEq, Repr, Inhabited

namespace Submitter

/-- A submitter with a new client, unless the settings cannot be used. -/
def new (id : Nat) (settings : SubmitSettings) (token : Token) (net : Network) :
    Except SubmitFailure Submitter :=
  match settings.defect? with
  | some text => .error (.settings text)
  | none => .ok { settings, token, client := .new id settings.client token net }

/-- A fault of the client, as a failure. -/
def failure (s : Submitter) (fault : Fault) : SubmitFailure :=
  .client s.client.name s.client.lastReply fault

/-- Work with the client, leaving its faults as values. -/
def tryClient {α : Type} (act : Run Fault Client α) :
    Run SubmitFailure Submitter (Except Fault α) :=
  Run.within (·.client) (fun c s => { s with client := c }) (Run.attempt act)

/-- Work with the client. -/
def onClient {α : Type} (act : Run Fault Client α) : Run SubmitFailure Submitter α := do
  match ← tryClient act with
  | .ok a => return a
  | .error fault => Run.fail ((← get).failure fault)

/-- Let go of the connection and count anew. -/
def disconnect (s : Submitter) : Submitter :=
  { s with client := s.client.disconnect, streamSent := 0 }

/-! ## One attempt -/

/-- See that the client is logged in; the reply if the server refuses. -/
def ensureSession : Run SubmitFailure Submitter (Option Reply) := do
  let s ← get
  if s.client.state = .loginComplete then return none
  if s.client.state ≠ .fresh then modify disconnect
  let _ ← onClient (Client.connect s.settings.host s.settings.port)
  let replies ← onClient Client.login
  if (← get).client.state = .loginComplete then return none
  else return some (replies.getLast?.getD {})

/-- One pass through the protocol. -/
def attempt (m : Message) : Run SubmitFailure Submitter Attempt := do
  if let some reply ← ensureSession then return .rejected .login reply
  let dsn := (← get).settings.dsn
  let reply ← onClient (Client.sender m.sender dsn)
  if reply.isFailure then return .rejected .sender reply
  let reply ← onClient (Client.recipient m.recipient dsn)
  if reply.isFailure then return .rejected .recipient reply
  let reply ← onClient (Client.sendData m.sources)
  if reply.isDelivered then return .delivered reply else return .rejected .data reply

/-! ## Attempts in a row -/

/-- Wait before the next attempt. -/
def pause : Run SubmitFailure Submitter Unit := fun s =>
  let set (net : Network) : Submitter := { s with client := { s.client with net } }
  let net := s.client.net
  match net.pause s.token s.settings.retryDelay with
  | (none, net) => .ok () (set net)
  | (some .abandoned, net) => .error .abandoned (set net)
  | (some _, net) => .error (.failed (s.failure .cancelled)) (set net)

/-- Attempts until one is not refused at a step that may be tried again, with so many
left besides the first. -/
def attempts (m : Message) : Nat → Run SubmitFailure Submitter Reply
  | 0 => return (← attempt m).reply
  | left + 1 => do
    match ← attempt m with
    | .rejected stage reply =>
      if stage.isRetryable then
        modify fun s => { s with client := s.client.disconnect }
        pause
        attempts m left
      else return reply
    | .delivered reply => return reply

/-- The attempts that the policy allows besides the first. -/
def retries (s : SubmitSettings) : Nat :=
  match s.policy with
  | .tolerant => s.connectRetries
  | .touchy => 0

/-! ## Submissions -/

/-- Count the message, and keep the connection for the next one or let go of it. -/
def finish : Run SubmitFailure Submitter Unit := do
  modify fun s => { s with streamSent := s.streamSent + 1 }
  let s ← get
  if s.settings.streaming && s.streamSent < s.settings.streamMax && s.client.state.inSession then
    match ← tryClient Client.reset with
    | .ok _ => return ()
    | .error _ => modify disconnect
  else modify disconnect

/-- Hand in a message; the last reply that matters.  After a cancellation nothing more
is done. -/
def submit (m : Message) : Run SubmitFailure Submitter Reply := do
  modify fun s => { s with submissions := s.submissions + 1 }
  match ← Run.attempt (attempts m (retries (← get).settings)) with
  | .ok reply =>
    finish
    return reply
  | .error failure =>
    if !failure.isCancelled then finish
    Run.fail failure

/-- What the current submission is known by: the envelope's identifier, or the client's
name and the number of the submission. -/
def correlationId (s : Submitter) : String :=
  match s.settings.dsn.bind (·.envid) with
  | some envid => envid
  | none => s.client.name ++ "#" ++ toString s.submissions

/-- Hand in a message and record what became of it.  Only a cancellation is a failure. -/
def measuredSubmit (m : Message) : Run SubmitFailure Submitter Outcome := do
  match ← Run.attempt (submit m) with
  | .ok reply => return .ofReply (← get).correlationId reply
  | .error failure =>
    if failure.isCancelled then Run.fail failure
    else return .ofFailure (← get).correlationId failure

/-- Say goodbye if there is a connection, and let go of it. -/
def quit : Run SubmitFailure Submitter Unit := do
  if (← get).client.state.isLive then
    let _ ← tryClient Client.done
  modify disconnect

/-- The submitter in one line, with a given text for its client's name. -/
def describe (name : String) (s : Submitter) : String :=
  "Submitter \x7b client: " ++ s.client.describe name ++ ", policy: " ++ s.settings.policy.describe ++
    ", stream_sent: " ++ toString s.streamSent ++ ", submissions: " ++ toString s.submissions ++
    ", .. \x7d"

end Submitter

end MailSubmission
