import MailSubmission.CommandLine
import Std.Async.DNS
import Std.Async.TCP
import Std.Time

set_option autoImplicit false

/-!
# Main: the program

A submission is a function of what the network does.  The program carries it out again
and again on a record of what the network has done so far: what came in, at which
millisecond, stays on record for good, and behind it the network is silent.  A round
ends where the submission waits.  Then the octets it has sent and that have not yet
left are passed on, a connection it has asked for is opened, and whatever comes in
next is added to the record.
-/

namespace MailSubmission.CommandLine

open Std.Async

/-! ## The system's errors -/

/-- The number and the text of a system error. -/
def systemError? : IO.Error → Option (UInt32 × String)
  | .otherError n text | .resourceBusy n text | .resourceVanished n text
  | .unsupportedOperation n text | .hardwareFault n text | .unsatisfiedConstraints n text
  | .illegalOperation n text | .protocolError n text | .timeExpired n text
  | .alreadyExists _ n text | .interrupted _ n text | .noFileOrDirectory _ n text
  | .invalidArgument _ n text | .permissionDenied _ n text | .resourceExhausted _ n text
  | .inappropriateType _ n text | .noSuchThing _ n text => some (n, text)
  | .unexpectedEof | .userError _ => none

/-- A system error in words.  The network's errors have negative numbers. -/
def describeError (e : IO.Error) : String :=
  match systemError? e with
  | some (n, text) =>
    let code := if n.toInt32 < 0 then (-n.toInt32).toNatClampNeg else n.toNat
    text.capitalize ++ " (os error " ++ toString code ++ ")"
  | none => toString e

/-! ## Files -/

/-- What an action comes to, or the system's error in words. -/
def reported {α : Type} (act : IO α) : IO (Except String α) := do
  match ← act.toBaseIO with
  | .ok a => return .ok a
  | .error e => return .error (describeError e)

/-- Open a file and read it. -/
def loadFile (path : String) : IO (Except String Content) := do
  match ← reported (IO.FS.Handle.mk path .read) with
  | .error text => return .error text
  | .ok file =>
    match ← reported file.readBinToEnd with
    | .ok bytes => return .ok (.octets bytes.toList)
    | .error text => return .ok (.unreadable text)

/-- The files that the arguments name. -/
def loadFiles (args : List String) : IO Files := do
  let names :=
    match Arguments.ofList? args with
    | some a => a.settings :: a.bodies
    | none => []
  let loaded ← names.mapM fun name => return (name, ← loadFile name)
  return fun name => (loaded.lookup name).getD (.error "not a file among the arguments")

/-! ## Connections -/

/-- A connection, as it has gone so far. -/
structure Peer where
  /-- The connection; none if it could not be opened or has been let go of. -/
  handle : Option TCP.Socket.Client
  /-- What happened before it was open. -/
  opening : Script
  /-- What has come in. -/
  reads : Script := []
  /-- Octets that have been passed on. -/
  sent : Nat := 0
  /-- Why no more octets can be passed on. -/
  fault : Option Script := none
  /-- The read that is under way. -/
  incoming : Option (AsyncTask (Option ByteArray)) := none

/-- The connection on record, with silence behind it. -/
def Peer.socket (p : Peer) : Socket :=
  { opening := p.opening
    reads := p.reads ++ [.hang]
    writeRoom := p.fault.map fun _ => p.sent
    writeFault := p.fault.getD [] }

/-- The milliseconds between two looks at what is under way. -/
def tick : UInt32 := 2

/-- What becomes of a task within so many milliseconds. -/
def await? {α : Type} (task : AsyncTask α) (ms : Nat) : IO (Option (Except String α)) := do
  let limit := (← IO.monoMsNow) + ms
  while (← task.getState) != .finished && (← IO.monoMsNow) < limit do
    IO.sleep tick
  if (← task.getState) != .finished then return none
  return some (← reported task.block)

/-- Open a connection to one of several addresses. -/
def openOne (port : UInt16) : List Std.Net.IPAddr → Async (Option TCP.Socket.Client)
  | [] => return none
  | address :: rest => do
    let handle ← TCP.Socket.Client.mk
    let place : Std.Net.SocketAddress :=
      match address with
      | .v4 a => .v4 ⟨a, port⟩
      | .v6 a => .v6 ⟨a, port⟩
    try
      handle.connect place
      handle.noDelay
      return some handle
    catch e => if rest.isEmpty then throw e else openOne port rest

/-- Look up a host and open a connection to it. -/
def openPeer (host : String) (port timeout : Nat) : IO (Except Script TCP.Socket.Client) := do
  let task ← (do openOne port.toUInt16 (← DNS.getAddrInfo host (toString port)).toList : Async _).toIO
  match ← await? task timeout with
  | some (.ok (some handle)) => return .ok handle
  | some (.ok none) => return .error [.error "no address for the host"]
  | some (.error text) => return .error [.error text]
  | none => return .error [.hang]

/-! ## Rounds -/

/-- The octets that a connection has taken. -/
def sentOn (number : Nat) (entries : List Entry) : List UInt8 :=
  (Network.wire entries).flatMap fun (n, bytes) => if n = number then bytes else []

/-- Pass on what the submission has sent and let go of the connection if it has. -/
def Peer.deliver (timeout : Nat) (entries : List Entry) (number : Nat) (p : Peer) : IO Peer := do
  let some handle := p.handle | return p
  let mut p := p
  let bytes := (sentOn number entries).drop p.sent
  if !bytes.isEmpty then
    match ← await? (← (handle.send ⟨bytes.toArray⟩).toIO) timeout with
    | some (.ok ()) => p := { p with sent := p.sent + bytes.length }
    | some (.error text) => p := { p with fault := some [.error text] }
    | none => p := { p with fault := some [.hang] }
  if entries.contains (.released number) then p := { p with handle := none, incoming := none }
  return p

/-- Wait a while for octets, or for the connection's end, and put them on record. -/
def Peer.listen (stamp : IO Nat) (ms : Nat) (p : Peer) : IO Peer := do
  let some handle := p.handle
    | IO.sleep ms.toUInt32
      return p
  let task ←
    match p.incoming with
    | some task => pure task
    | none => (handle.recv? Link.readRoom.toUInt64).toIO
  match ← await? task ms with
  | none => return { p with incoming := some task }
  | some arrived =>
    let due := Event.due (← stamp)
    let ended (events : Script) : Peer := { p with handle := none, reads := p.reads ++ due :: events }
    match arrived with
    | .ok (some bytes) =>
      return { p with incoming := none, reads := p.reads ++ [due, .data bytes.toList] }
    | .ok none => return ended [.data []]
    | .error text => return ended [.error text]

/-- The milliseconds after which a round is made although nothing has come in. -/
def patience : Nat := 50

/-- Carry out a job over the network; the report. -/
def perform (startedAt : String) (job : Job) : IO Report := do
  let start ← IO.monoMsNow
  let timeout := job.settings.client.timeout
  let mut peers : Array Peer := #[]
  repeat
    let now := (← IO.monoMsNow) - start
    let stamp : IO Nat := return max (now + 1) ((← IO.monoMsNow) - start)
    let sockets := peers.toList.map Peer.socket ++ [{ opening := [.hang] }]
    let (report, after) := carryOut startedAt job { sockets, deadline := some now }
    let entries := after.history
    peers ← peers.mapIdxM fun number p => p.deliver timeout entries number
    if let some report := report then return report
    if peers.size < after.dialled then
      let opened ← openPeer job.settings.host job.settings.port timeout
      let due := Event.due (← stamp)
      peers := peers.push <|
        match opened with
        | .ok handle => { handle := some handle, opening := [due] }
        | .error events => { handle := none, opening := due :: events }
    else
      match peers.back? with
      | some p => peers := peers.set! (peers.size - 1) (← p.listen stamp patience)
      | none => IO.sleep patience.toUInt32
  return { exitCode := 1 }

/-- The present time in records. -/
def timestamp : IO String := do
  let now ← Std.Time.Timestamp.now
  let here := Std.Time.PlainDateTime.ofWallTime (now.toWallTime .zero)
  return here.format "uuuu-MM-dd'T'HH:mm:ss.SSSSSSSSS'Z'"

/-- Do what the arguments ask for; the report. -/
def run (args : List String) : IO Report := do
  match prepare args (← loadFiles args) with
  | .error mishap => return .ofMishap mishap
  | .ok job => perform (← timestamp) job

end MailSubmission.CommandLine

/-- Submit one message and print the outcome. -/
def main (args : List String) : IO UInt32 := do
  let report ← MailSubmission.CommandLine.run args
  IO.print report.output
  IO.eprint report.errors
  return report.exitCode.toUInt32
