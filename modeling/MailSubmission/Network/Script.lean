set_option autoImplicit false

/-!
# Network: scripts of what comes in

What a connection or a message source will hand over is a list of events.  Each read
looks at the next ones and uses them up; when none is left, the source has ended.
Every behaviour of a peer, and every division of its octets into reads, is such a
list.
-/

namespace MailSubmission

/-- One thing that happens at the reading end of a source. -/
inductive Event where
  /-- octets arrive; none means that the source pretends to end -/
  | data (bytes : List UInt8)
  /-- nothing happens for so many milliseconds from when a reader first waits -/
  | delay (ms : Nat)
  /-- nothing happens until the given time -/
  | due (time : Nat)
  /-- nothing ever happens -/
  | hang
  /-- the read fails -/
  | error (text : String)
  /-- a cancellation is fired while the read goes on -/
  | cancel
  deriving DecidableEq, Repr, Inhabited

/-- What a source hands over, in order. -/
abbrev Script : Type := List Event

namespace Event

/-- The octets that arrive with an event. -/
def bytes : Event → List UInt8
  | .data bs => bs
  | _ => []

end Event

namespace Script

/-- The octets that a source hands over if it is read to its end. -/
def bytes (s : Script) : List UInt8 := s.flatMap Event.bytes

/-- A bound on the octets a source can hand over and the reads it can answer. -/
def weight : Script → Nat
  | [] => 0
  | e :: rest => e.bytes.length + 1 + weight rest

end Script

/-- Room that a connection will have for octets, as its peer takes some in. -/
structure Drain where
  /-- From when on it has the room. -/
  time : Nat
  /-- For how many octets. -/
  octets : Nat
  deriving DecidableEq, Repr, Inhabited

/-- A connection as the network provides it. -/
structure Socket where
  /-- Which connection of the network it is, from zero. -/
  number : Nat := 0
  /-- What happens before it is open. -/
  opening : Script := []
  /-- What the peer sends. -/
  reads : Script := []
  /-- The octets it still takes; none is no limit. -/
  writeRoom : Option Nat := none
  /-- The room that it has later on, in order. -/
  drains : List Drain := []
  /-- What happens to a write that it has no room for and none to come. -/
  writeFault : Script := [.hang]
  /-- The flushes it still carries out; none is no limit. -/
  flushRoom : Option Nat := none
  /-- What happens to a flush that it does not carry out. -/
  flushFault : Script := [.hang]
  deriving DecidableEq, Repr, Inhabited

/-- What holds up a write that there is no room for: the wait for more, or what happens if none is
to come. -/
def Socket.holdUp (s : Socket) : List Drain → Script
  | [] => s.writeFault
  | drain :: _ => [.due drain.time]

/-- The connection when it has drained, with the room that is still to come. -/
def Socket.drained (s : Socket) (drain : Drain) (later : List Drain) : Socket :=
  { s with writeRoom := s.writeRoom.map (· + drain.octets), drains := later }

end MailSubmission
