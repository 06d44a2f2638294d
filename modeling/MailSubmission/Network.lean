import MailSubmission.Command
import MailSubmission.Network.Script
import MailSubmission.Network.Signal
import MailSubmission.Reply.Line

set_option autoImplicit false

/-!
# Network: waiting

The network hands out connections, keeps the time and knows which cancellation
signals have fired.  Time moves only while everything waits, and then straight to
the next thing that happens.

Every wait is bounded by a time limit, by a cancellation token and by the patience
of the caller.  The token is looked at first, whenever a wait begins or is taken up
again; then what is waited for, which still counts when it comes at the very limit;
then the limit; last the caller, who may have lost interest.

The journal records what passed between the client and the network.
-/

namespace MailSubmission

/-- What the journal records. -/
inductive Entry where
  /-- a connection was asked for -/
  | dialled (host : String) (port : Nat)
  /-- a connection was opened -/
  | opened (connection : Nat)
  /-- a command was begun on a connection -/
  | issued (connection : Nat) (command : Command)
  /-- octets were taken by a connection -/
  | sent (connection : Nat) (bytes : List UInt8)
  /-- what was sent on a connection has left -/
  | flushed (connection : Nat)
  /-- a connection was read; no octets at its end -/
  | received (connection : Nat) (bytes : List UInt8)
  /-- a reply was complete on a connection -/
  | heard (connection : Nat) (lines : List ReplyLine)
  /-- a message source was read -/
  | fed (bytes : List UInt8)
  /-- a connection was let go of -/
  | released (connection : Nat)
  /-- a pause was made to its end -/
  | paused (ms : Nat)
  /-- a wait was cut off by a cancellation -/
  | interrupted
  deriving DecidableEq, Repr

instance : Inhabited Entry := ⟨.interrupted⟩

/-- A signal that will be fired at a time. -/
structure Alarm where
  time : Nat
  canceller : Canceller
  deriving DecidableEq, Repr, Inhabited

/-- The network as one client finds it. -/
structure Network where
  /-- The time in milliseconds. -/
  now : Nat := 0
  /-- The cancellation signals. -/
  signals : Switchboard := {}
  /-- What the cancellations in scripts fire. -/
  trigger : Canceller := {}
  /-- Signals to be fired later. -/
  alarms : List Alarm := []
  /-- When the caller of the current call drops it. -/
  deadline : Option Nat := none
  /-- The connections to be handed out, in order. -/
  sockets : List Socket := []
  /-- The number of connections asked for. -/
  dialled : Nat := 0
  /-- The error when no connection is left. -/
  refusal : String := "refused"
  /-- What has happened, last entry first. -/
  journal : List Entry := []
  deriving DecidableEq, Repr, Inhabited

namespace Network

/-! ## Time and signals -/

/-- Add an entry to the journal. -/
def note (net : Network) (e : Entry) : Network := { net with journal := e :: net.journal }

/-- Fire a signal. -/
def fire (net : Network) (c : Canceller) : Network := { net with signals := net.signals.fire c }

/-- The token's signal has fired. -/
def isFired (net : Network) (t : Token) : Bool := net.signals.isFired t

/-- Let the time move on to `t`, firing the signals that are due by then. -/
def advance (net : Network) (t : Nat) : Network :=
  { net with
    now := max net.now t
    signals := (net.alarms.filter (·.time ≤ t)).foldl (fun s a => s.fire a.canceller) net.signals
    alarms := net.alarms.filter (fun a => !(a.time ≤ t)) }

/-- When a token's signal will be fired. -/
def alarmFor (net : Network) (token : Token) : Option Nat :=
  ((net.alarms.filter (·.canceller.signal == token.signal)).map (·.time)).min?

/-- The time `t` comes no later than the caller drops the call. -/
def comesInTime (net : Network) (t : Nat) : Bool := net.deadline.all (t ≤ ·)

/-- Why a wait was cut off. -/
inductive Cut where
  /-- the token's signal fired -/
  | cancelled
  /-- the time limit came -/
  | timedOut
  /-- the caller dropped the call -/
  | abandoned
  deriving DecidableEq, Repr, Inhabited

/-- Sleep until `t`, or until cut off by the caller or the token.  Whoever has to sleep is
seen by the caller at once, and sees its own token only when it is taken up again. -/
def sleepUntil (net : Network) (token : Token) (t : Nat) : Option Cut × Network :=
  if t ≤ net.now then (none, net)
  else if net.deadline.any (· ≤ net.now) then (some .abandoned, net)
  else if net.isFired token then (some .cancelled, net)
  else
    match (net.alarmFor token).filter (fun a => a ≤ t && net.comesInTime a) with
    | some a => (some .cancelled, net.advance a)
    | none =>
      match net.deadline.filter (· < t) with
      | some d => (some .abandoned, net.advance d)
      | none => (none, net.advance t)

/-- Sleep until `t`, or until cut off, if not otherwise then by the limit. -/
def sleepWithin (net : Network) (token : Token) (limit t : Nat) : Option Cut × Network :=
  if t ≤ max limit net.now then net.sleepUntil token t
  else
    match net.sleepUntil token limit with
    | (none, net) => (some .timedOut, net)
    | cutOff => cutOff

/-! ## Waiting for a source -/

/-- What a wait leads to. -/
inductive Arrival where
  /-- octets, none at the end of the source -/
  | ready (bytes : List UInt8)
  /-- an error -/
  | failed (text : String)
  /-- nothing, as the wait was cut off -/
  | cutOff (cut : Cut)
  deriving DecidableEq, Repr, Inhabited

/-- Read at most `room` octets from a source until `limit`; also what is left of the
source. -/
def await (token : Token) (limit room : Nat) : Script → Network → Arrival × Script × Network
  | [], net => (.ready [], [], net)
  | .data bs :: rest, net =>
    if bs.length ≤ room then (.ready bs, rest, net)
    else (.ready (bs.take room), .data (bs.drop room) :: rest, net)
  | .error text :: rest, net => (.failed text, rest, net)
  | .cancel :: rest, net => await token limit room rest (net.fire net.trigger)
  | .hang :: rest, net =>
    match net.sleepUntil token limit with
    | (none, net) => (.cutOff .timedOut, .hang :: rest, net)
    | (some cut, net) => (.cutOff cut, .hang :: rest, net)
  | .due t :: rest, net =>
    match net.sleepWithin token limit t with
    | (none, net) => await token limit room rest net
    | (some cut, net) => (.cutOff cut, .due t :: rest, net)
  | .delay ms :: rest, net =>
    match net.sleepWithin token limit (net.now + ms) with
    | (none, net) => await token limit room rest net
    | (some cut, after) => (.cutOff cut, .due (net.now + ms) :: rest, after)

/-- The octets that have arrived. -/
def Arrival.bytes : Arrival → List UInt8
  | .ready bs => bs
  | _ => []

/-- What is read is gone from the source. -/
theorem weight_await_le (token : Token) (limit room : Nat) (source : Script) (net : Network) :
    (await token limit room source net).1.bytes.length
      + (await token limit room source net).2.1.weight ≤ source.weight := by
  induction source generalizing net with
  | nil => simp [await, Arrival.bytes, Script.weight]
  | cons e rest ih =>
    cases e with
    | data bs =>
      by_cases h : bs.length ≤ room
      · simp only [await, if_pos h, Arrival.bytes, Script.weight, Event.bytes]
        omega
      · simp only [await, if_neg h, Arrival.bytes, Script.weight, Event.bytes, List.length_take,
          List.length_drop]
        omega
    | error text => simp [await, Arrival.bytes, Script.weight]
    | cancel =>
      have := ih (net.fire net.trigger)
      simp only [await, Script.weight]
      omega
    | hang =>
      simp only [await]
      split <;> simp [Arrival.bytes, Script.weight]
    | due t =>
      simp only [await]
      split
      · rename_i later _
        have := ih later
        simp only [Script.weight]
        omega
      · simp [Arrival.bytes, Script.weight, Event.bytes]
    | delay ms =>
      simp only [await]
      split
      · rename_i later _
        have := ih later
        simp only [Script.weight]
        omega
      · simp [Arrival.bytes, Script.weight, Event.bytes]

/-- Note an interruption. -/
def noteCut (net : Network) : Arrival → Network
  | .cutOff .cancelled => net.note .interrupted
  | _ => net

/-- Note what was read from a connection. -/
def noteReceived (net : Network) (connection : Nat) : Arrival → Network
  | .ready bs => net.note (.received connection bs)
  | _ => net

/-- Read at most `room` octets from a source, for at most `timeout`, unless the token's
signal has fired. -/
def bounded (net : Network) (token : Token) (timeout room : Nat) (source : Script) :
    Arrival × Script × Network :=
  if net.isFired token then (.cutOff .cancelled, source, net.note .interrupted)
  else
    let (arrival, rest, net) := await token (net.now + timeout) room source net
    (arrival, rest, net.noteCut arrival)

/-- What is read is gone from the source, with a bound on the wait as well. -/
theorem weight_bounded_le (net : Network) (token : Token) (timeout room : Nat) (source : Script) :
    (net.bounded token timeout room source).1.bytes.length
      + (net.bounded token timeout room source).2.1.weight ≤ source.weight := by
  unfold bounded
  split
  · simp [Arrival.bytes]
  · exact weight_await_le token (net.now + timeout) room source net

/-- Make a pause, unless the token's signal has fired. -/
def pause (net : Network) (token : Token) (ms : Nat) : Option Cut × Network :=
  if net.isFired token then (some .cancelled, net.note .interrupted)
  else
    match net.sleepUntil token (net.now + ms) with
    | (none, net) => (none, net.note (.paused ms))
    | (some .cancelled, net) => (some .cancelled, net.note .interrupted)
    | cutOff => cutOff

/-! ## Connections -/

/-- Ask for a connection: the next one, or one that fails to open if none is left. -/
def dial (net : Network) (host : String) (port : Nat) : Socket × Network :=
  let net' := { net.note (.dialled host port) with dialled := net.dialled + 1 }
  match net.sockets with
  | [] => ({ number := net.dialled, opening := [.error net.refusal] }, net')
  | s :: rest => ({ s with number := net.dialled }, { net' with sockets := rest })

/-! ## Views of the journal -/

/-- What has happened, in order. -/
def history (net : Network) : List Entry := net.journal.reverse

/-- The network with nothing in its journal. -/
def forgetful (net : Network) : Network := { net with journal := [] }

/-- The octets sent, by connection; what one connection took in a row is joined. -/
def wire (entries : List Entry) : List (Nat × List UInt8) :=
  let sent := entries.filterMap fun
    | .sent n bs => some (n, bs)
    | _ => none
  (sent.splitBy fun a b => a.1 == b.1).filterMap fun run =>
    run.head?.map fun first => (first.1, run.flatMap (·.2))

/-- The places that connections were asked for to. -/
def places (entries : List Entry) : List String :=
  entries.filterMap fun
    | .dialled host port => some (host ++ ":" ++ toString port)
    | _ => none

end Network

end MailSubmission
