import MailSubmission.Connection
import MailSubmission.Dsn
import MailSubmission.ServerProfile
import MailSubmission.Text.Quoted

set_option autoImplicit false

/-!
# Client: one session after another

A client opens a connection, logs in, names sender and recipient, sends a message
and says goodbye.  Each operation is allowed in certain states only.

A refusal by the server comes back as a reply and leaves the state as it is.  A fault
that is fatal lets go of the connection and leaves the client in the state `bad`.  A
call that was dropped leaves its mark, `inFlight`; the next one finds it and treats
the connection as broken.

A client is given its token when it is made, and another one only by `configure`, which
refuses while a connection is open; a connection keeps the token that it was opened with.
Giving a client in use another token past `configure` is not modelled.
-/

namespace MailSubmission

/-- An SMTP client. -/
structure Client where
  /-- What tells clients apart. -/
  id : Nat := 1
  /-- The client's name in messages. -/
  name : String := ""
  /-- How it speaks and how patient it is. -/
  settings : ClientSettings := {}
  /-- What cancels its waits. -/
  token : Token := {}
  /-- The open connection. -/
  connection : Option Connection := none
  /-- Where it is in its session. -/
  state : SessionState := .fresh
  /-- What it knows about the server. -/
  server : ServerProfile := {}
  /-- A call is under way, or was dropped. -/
  inFlight : Bool := false
  /-- The most recent reply that a call came back with. -/
  lastReply : Option Reply := none
  /-- The network it finds. -/
  net : Network := {}
  deriving DecidableEq, Repr, Inhabited

namespace Client

/-! ## Names -/

/-- A name unlike that of any client with another number. -/
def nameFor (stem : String) (id : Nat) : String := stem ++ "-" ++ toString id

/-- A client that has not been used. -/
def new (id : Nat) (settings : ClientSettings) (token : Token) (net : Network) : Client :=
  { id, name := nameFor settings.name id, settings, token, net }

/-- The names of clients made one after another, numbered from `first`. -/
def namesFrom (first : Nat) : List String → List String
  | [] => []
  | stem :: rest => nameFor stem first :: namesFrom (first + 1) rest

/-! ## Letting go -/

/-- The network, with the connection that is let go of noted. -/
def releasedNet (c : Client) : Network :=
  match c.connection with
  | some conn => c.net.note (.released conn.socket.number)
  | none => c.net

/-- Let go of a connection that cannot be trusted. -/
def abandon (c : Client) : Client :=
  { c with connection := none, inFlight := false, state := .bad, net := c.releasedNet }

/-- Let go of the connection without a goodbye. -/
def disconnect (c : Client) : Client :=
  { c with connection := none, inFlight := false, state := .fresh, server := {}, net := c.releasedNet }

/-! ## Calls -/

/-- Begin an operation: a dropped call before it breaks the connection, and the state
must allow the operation. -/
def enter (operation : String) (allowed : SessionState → Bool) : Run Fault Client Unit := do
  modify fun c => if c.inFlight then c.abandon else c
  let c ← get
  if allowed c.state then return () else Run.fail (.invalidState operation c.state)

/-- Carry out what uses the connection, marking the client meanwhile. -/
def marked {α : Type} (act : Run Fault Client α) : Run Fault Client (Except Fault α) := do
  modify fun c => { c with inFlight := true }
  let result ← Run.attempt act
  modify fun c => { c with inFlight := false }
  return result

/-- Carry out what uses the connection.  A fatal fault breaks it. -/
def settled {α : Type} (act : Run Fault Client α) : Run Fault Client α := do
  match ← marked act with
  | .ok a => return a
  | .error fault =>
    if fault.isFatal then modify abandon
    Run.fail fault

/-- Work on the connection. -/
def onLink {α : Type} (act : Run Fault Link α) : Run Fault Client α := fun c =>
  match c.connection with
  | none => .error (.failed .connectionClosed) c
  | some connection =>
    match act { connection, net := c.net } with
    | .ok a l => .ok a { c with connection := some l.connection, net := l.net }
    | .error halt l => .error halt { c with connection := some l.connection, net := l.net }

/-- Send a command and read the lines of the reply. -/
def exchange (command : Command) : Run Fault Client (List ReplyLine) :=
  onLink do
    modify fun l => l.note (.issued l.connection.socket.number command)
    Link.writeLine command.wire
    Link.readReply .reply

/-- Keep a reply as the most recent one. -/
def keep (reply : Reply) : Run Fault Client Unit :=
  modify fun c => { c with lastReply := some reply }

/-- Send a command and read the reply. -/
def transact (command : Command) : Run Fault Client Reply := do
  let reply := ReplyLine.collapse (← settled (exchange command))
  keep reply
  return reply

/-- Move on to a state. -/
def moveTo (state : SessionState) : Run Fault Client Unit := modify fun c => { c with state }

/-! ## Operations -/

/-- Use other settings and another token from now on. -/
def configure (settings : ClientSettings) (token : Token) : Run Fault Client Unit := do
  enter "configure" fun s => !s.isLive
  modify fun c => { c with name := nameFor settings.name c.id, settings, token }

/-- Open a connection. -/
def openConnection (host : String) (port : Nat) : Run Fault Client Unit := fun c =>
  let (socket, net) := c.net.dial host port
  let r := net.bounded c.token c.settings.timeout 0 socket.opening
  match Link.conclude { c with net := r.2.2 } r.1 with
  | .error halt c => .error halt c
  | .ok none c => .error (.failed (.timeout .connect 0)) c
  | .ok (some _) c =>
    .ok () { c with
      connection := some (.ofSocket socket c.settings c.token)
      net := c.net.note (.opened socket.number) }

/-- Open a connection and read the greeting. -/
def greet (host : String) (port : Nat) : Run Fault Client Reply := do
  openConnection host port
  let greeting := ReplyLine.collapse (← onLink (Link.readReply .reply))
  if greeting.isFailure then Run.fail (.greeting greeting.code greeting.text) else return greeting

/-- Open a connection; the greeting. -/
def connect (host : String) (port : Nat) : Run Fault Client Reply := do
  enter "connect" (· == .fresh)
  let greeting ← settled (greet host port)
  modify fun c => { c with server := .ofGreeting greeting }
  moveTo .connected
  keep greeting
  return greeting

/-- Introduce the client.  When extensions are asked for, the reply's lines say which the
server has, and each is a reply of its own. -/
def login : Run Fault Client (List Reply) := do
  enter "login" (· == .connected)
  let settings := (← get).settings
  let lines ← settled (exchange
    (if settings.extensions then .ehlo settings.heloHost else .helo settings.heloHost))
  let reply := ReplyLine.collapse lines
  if settings.extensions then modify fun c => { c with server := c.server.learn lines }
  if reply.code == Code.ok then moveTo .loginComplete
  keep reply
  return if settings.extensions then ReplyLine.expand lines else [reply]

/-- Notification requests will be sent: extensions are in use and the server has this
one. -/
def dsnEnabled (c : Client) : Bool := c.settings.extensions && c.server.supports .dsn

/-- The parameters to send for a notification request; none if there is nothing to say. -/
def params (c : Client) (dsn : Option Dsn) (render : Dsn → String) : Option String :=
  if c.dsnEnabled then (dsn.map render).filter (!·.isEmpty) else none

/-- Name the sender. -/
def sender (address : Address) (dsn : Option Dsn) : Run Fault Client Reply := do
  enter "sender" (· == .loginComplete)
  let reply ← transact (.mailFrom address ((← get).params dsn Dsn.senderParams))
  if !reply.isFailure then moveTo .mailFromDone
  return reply

/-- Name the recipient. -/
def recipient (address : Address) (dsn : Option Dsn) : Run Fault Client Reply := do
  enter "recipient" (· == .mailFromDone)
  let reply ← transact (.rcptTo address ((← get).params dsn Dsn.recipientParams))
  if !reply.isFailure then moveTo .rcptToDone
  return reply

/-- Ask the server to forget the transaction. -/
def askReset : Run Fault Client Reply := do
  let reply := ReplyLine.collapse (← exchange .rset)
  if reply.isFailure then Run.fail (.resetFailed reply.code reply.text) else return reply

/-- Give the transaction up.  A refusal is fatal, as the session cannot be trusted. -/
def reset : Run Fault Client Reply := do
  enter "reset" SessionState.inSession
  let reply ← settled askReset
  moveTo .loginComplete
  keep reply
  return reply

/-- Announce a message body and, if the server will have it, send it. -/
def handOver (sources : List (Option Script)) : Run Fault Client Reply := do
  let goAhead := ReplyLine.collapse (← exchange .data)
  if goAhead.code == Code.startData then
    onLink do
      let sent ← Link.writeBody sources
      return (ReplyLine.collapse (← Link.readReply .dataReply)).withSize sent
  else return goAhead

/-- Send a message.  The reply carries the octets that took, if the server would have
the body. -/
def sendData (sources : List (Option Script)) : Run Fault Client Reply := do
  enter "send_data" (· == .rcptToDone)
  let reply ← settled (handOver sources)
  keep reply
  return reply

/-- Say goodbye and let go of the connection; nothing if there is none.  Only a
cancellation leaves the client in the state `bad`. -/
def done : Run Fault Client (Option Reply) := do
  enter "done" (· != .bad)
  if !(← get).state.isLive then
    modify disconnect
    return none
  match ← marked (exchange .quit) with
  | .ok lines =>
    modify disconnect
    return some (ReplyLine.collapse lines)
  | .error .cancelled =>
    modify abandon
    Run.fail .cancelled
  | .error fault =>
    modify disconnect
    Run.fail fault

/-! ## Views -/

/-- The state in words. -/
def describeState : SessionState → String
  | .fresh => "Fresh"
  | .connected => "Connected"
  | .loginComplete => "LoginComplete"
  | .mailFromDone => "MailFromDone"
  | .rcptToDone => "RcptToDone"
  | .bad => "Bad"

/-- The client in one line, with a given text for its name. -/
def describe (name : String) (c : Client) : String :=
  "Client \x7b name: " ++ name ++ ", state: " ++ describeState c.state ++
    ", server_info: ServerInfo \x7b hostname: " ++ Text.Quoted.encode c.server.hostname ++
    ", extensions: \x7b" ++ ", ".intercalate (c.server.extensions.map Extension.render) ++
    "\x7d \x7d, in_flight: " ++ toString c.inFlight ++ ", .. \x7d"

end Client

end MailSubmission
