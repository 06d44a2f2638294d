import MailSubmission.Body.Stuffing
import MailSubmission.Client.Settings
import MailSubmission.Network
import MailSubmission.Reply.Decoder
import MailSubmission.Run

set_option autoImplicit false

/-!
# Connection: replies, commands and bodies on the wire

A connection reads replies through a buffer and writes commands and message bodies.
What it works on is a `Link`: the connection together with the network it belongs
to.

A reply that is followed, in the buffer, by a line of the same code goes on with
that line.  What is written goes out as the peer makes room for it: a write that finds
too little waits, goes on with what is left, and fails only when its time is over or no
more room is to come.  A body is sent piece by piece as its source is read; its end is
sent only when every source has been read to its end.
-/

namespace MailSubmission

/-- An open connection. -/
structure Connection where
  /-- The network's end of it. -/
  socket : Socket := {}
  /-- Octets read and not yet used. -/
  buffer : List UInt8 := []
  /-- The reply decoder. -/
  decoder : Decoder := {}
  /-- What cancels its waits. -/
  token : Token := {}
  /-- The limit of its waits. -/
  timeout : Nat := 180000
  /-- How often a read is tried again. -/
  readRetries : Nat := 0
  deriving DecidableEq, Repr, Inhabited

/-- A connection over a socket that has just been opened. -/
def Connection.ofSocket (socket : Socket) (settings : ClientSettings) (token : Token) : Connection :=
  { socket, token, decoder := .ofTolerance settings.tolerance,
    timeout := settings.timeout, readRetries := settings.readRetries }

/-- A connection and its network. -/
structure Link where
  connection : Connection
  net : Network
  deriving DecidableEq, Repr, Inhabited

namespace Link

/-- The most octets that one read of a connection yields. -/
def readRoom : Nat := 8192

/-- The most octets of a message source that are sent at once. -/
def bodyRoom : Nat := 16384

/-! ## Waits -/

/-- The link with something noted. -/
def note (l : Link) (e : Entry) : Link := { l with net := l.net.note e }

/-- The link with a different socket. -/
def withSocket (l : Link) (s : Socket) : Link :=
  { l with connection := { l.connection with socket := s } }

/-- How a call goes on after a wait: with the octets that arrived, with nothing at the
limit, or not at all. -/
def conclude {σ : Type} (s : σ) : Network.Arrival → EStateM.Result (Halt Fault) σ (Option (List UInt8))
  | .ready bs => .ok (some bs) s
  | .failed text => .error (.failed (.network text)) s
  | .cutOff .timedOut => .ok none s
  | .cutOff .cancelled => .error (.failed .cancelled) s
  | .cutOff .abandoned => .error .abandoned s

/-- Wait through an obstacle for so long; nothing at the limit. -/
def waitFor (timeout : Nat) (obstacle : Script) : Run Fault Link (Option (List UInt8)) := fun l =>
  let r := l.net.bounded l.connection.token timeout 0 obstacle
  conclude { l with net := r.2.2 } r.1

/-- Wait through an obstacle; nothing at the limit. -/
def wait (obstacle : Script) : Run Fault Link (Option (List UInt8)) := fun l =>
  waitFor l.connection.timeout obstacle l

/-- One read of the connection; nothing at the limit. -/
def read : Run Fault Link (Option (List UInt8)) := fun l =>
  let c := l.connection
  let r := l.net.bounded c.token c.timeout readRoom c.socket.reads
  let later : Link :=
    { connection := { c with socket := { c.socket with reads := r.2.1 } }
      net := r.2.2.noteReceived c.socket.number r.1 }
  conclude later r.1

/-- Octets of the connection, trying again as often as given; no octets at its end. -/
def fill (phase : Phase) (transferred : Nat) : Nat → Run Fault Link (List UInt8)
  | 0 => do
    match ← read with
    | some bs => return bs
    | none => Run.fail (.timeout phase transferred)
  | retries + 1 => do
    match ← read with
    | some bs => return bs
    | none => fill phase transferred retries

/-- What is left to be read. -/
def weight (l : Link) : Nat := l.connection.socket.reads.weight

theorem conclude_eq_ok {σ : Type} {s s' : σ} {arrival : Network.Arrival}
    {o : Option (List UInt8)} (h : conclude s arrival = .ok o s') :
    o.getD [] = arrival.bytes ∧ s' = s := by
  cases arrival with
  | ready bs =>
    simp only [conclude, EStateM.Result.ok.injEq] at h
    obtain ⟨rfl, rfl⟩ := h
    exact ⟨rfl, rfl⟩
  | failed text => simp [conclude] at h
  | cutOff cut =>
    cases cut with
    | timedOut =>
      simp only [conclude, EStateM.Result.ok.injEq] at h
      obtain ⟨rfl, rfl⟩ := h
      exact ⟨rfl, rfl⟩
    | cancelled => simp [conclude] at h
    | abandoned => simp [conclude] at h

theorem weight_read {l l' : Link} {o : Option (List UInt8)} (h : read l = .ok o l') :
    (o.getD []).length + l'.weight ≤ l.weight := by
  obtain ⟨ho, rfl⟩ := conclude_eq_ok h
  rw [ho]
  exact Network.weight_bounded_le l.net l.connection.token l.connection.timeout readRoom
    l.connection.socket.reads

theorem weight_fill {phase : Phase} {transferred retries : Nat} {l l' : Link} {bs : List UInt8}
    (h : fill phase transferred retries l = .ok bs l') : bs.length + l'.weight ≤ l.weight := by
  induction retries generalizing l with
  | zero =>
    simp only [fill, bind, EStateM.bind] at h
    split at h
    · rename_i o mid hr
      have := weight_read hr
      cases o with
      | some got =>
        simp only [pure, EStateM.pure, EStateM.Result.ok.injEq] at h
        obtain ⟨rfl, rfl⟩ := h
        exact this
      | none => simp [Run.fail_apply] at h
    · simp at h
  | succ n ih =>
    simp only [fill, bind, EStateM.bind] at h
    split at h
    · rename_i o mid hr
      have hw := weight_read hr
      cases o with
      | some got =>
        simp only [pure, EStateM.pure, EStateM.Result.ok.injEq] at h
        obtain ⟨rfl, rfl⟩ := h
        exact hw
      | none =>
        have := ih h
        simp only [Option.getD_none, List.length_nil] at hw
        omega
    · simp at h

/-! ## Replies -/

/-- The link with a decoder and a buffer that have moved on. -/
def withInput (l : Link) (decoder : Decoder) (buffer : List UInt8) : Link :=
  { l with connection := { l.connection with decoder, buffer } }

/-- The lines of a reply, where `lines` are those before, last one first, and
`transferred` octets of the reply have been read. -/
def readLines (phase : Phase) (transferred : Nat) (lines : List ReplyLine) (l : Link) :
    EStateM.Result (Halt Fault) Link (List ReplyLine) :=
  match l.connection.decoder.scan lines l.connection.buffer with
  | .complete lines decoder buffer =>
    .ok lines ((l.withInput decoder buffer).note (.heard l.connection.socket.number lines))
  | .thrashing seen decoder buffer =>
    .error (.failed (.replyThrashing seen)) (l.withInput decoder buffer)
  | .more lines decoder =>
    let transferred := transferred + l.connection.buffer.length
    match _h : fill phase transferred l.connection.readRetries (l.withInput decoder []) with
    | .error halt later => .error halt later
    | .ok [] later => .error (.failed .connectionClosed) later
    | .ok (b :: bs) later =>
      readLines phase transferred lines (later.withInput later.connection.decoder (b :: bs))
  termination_by l.weight
  decreasing_by
    have := weight_fill _h
    simp only [weight, withInput, List.length_cons] at this ⊢
    omega

/-- Read the lines of one reply. -/
def readReply (phase : Phase) : Run Fault Link (List ReplyLine) := fun l =>
  readLines phase 0 [] (l.withInput l.connection.decoder.reset l.connection.buffer)

/-! ## Writing -/

/-- Hand over octets that the connection has room for; also those it has none for. -/
def put (bytes : List UInt8) (l : Link) : List UInt8 × Link :=
  let s := l.connection.socket
  match s.writeRoom with
  | none => ([], if bytes.isEmpty then l else l.note (.sent s.number bytes))
  | some room =>
    let taken := bytes.take room
    let l := if taken.isEmpty then l else l.note (.sent s.number taken)
    (bytes.drop room, l.withSocket { s with writeRoom := some (room - bytes.length) })

/-- Write what there is room for, and what is left whenever there is more.  All waits of one write
are over at `limit`; `drains` is the room that is still to come. -/
def writeOn (phase : Phase) (sent limit : Nat) (drains : List Drain) (bytes : List UInt8) (l : Link) :
    EStateM.Result (Halt Fault) Link Unit :=
  match put bytes l with
  | ([], l) => .ok () l
  | (b :: rest, l) =>
    match waitFor (limit - l.net.now) (l.connection.socket.holdUp drains) l, drains with
    | .ok (some _) l, [] => .error (.failed (.network "write zero")) l
    | .ok (some _) l, drain :: later =>
      writeOn phase sent limit later (b :: rest)
        (l.withSocket (l.connection.socket.drained drain later))
    | .ok none l, _ => .error (.failed (.timeout phase sent)) l
    | .error halt l, _ => .error halt l

/-- Write octets in full; `sent` is the tally to report if the time runs out. -/
def writeAll (bytes : List UInt8) (phase : Phase) (sent : Nat) : Run Fault Link Unit := fun l =>
  if l.net.isFired l.connection.token then .error (.failed .cancelled) (l.note .interrupted)
  else writeOn phase sent (l.net.now + l.connection.timeout) l.connection.socket.drains bytes l

/-- See that what was written leaves; `sent` is the tally to report if the time runs
out. -/
def flush (phase : Phase) (sent : Nat) : Run Fault Link Unit := fun l =>
  let s := l.connection.socket
  let obstacle := if s.flushRoom = some 0 then s.flushFault else []
  match wait obstacle l with
  | .ok (some _) l =>
    .ok () ((l.withSocket { s with flushRoom := s.flushRoom.map (· - 1) }).note (.flushed s.number))
  | .ok none l => .error (.failed (.timeout phase sent)) l
  | .error halt l => .error halt l

/-- Write a line and see that it leaves. -/
def writeLine (bytes : List UInt8) : Run Fault Link Unit := do
  writeAll bytes .reply 0
  flush .reply bytes.length

/-! ## Message bodies -/

/-- One read of a message source. -/
def feed (source : Script) (l : Link) : Network.Arrival × Script × Network :=
  l.net.bounded l.connection.token l.connection.timeout bodyRoom source

/-- Send what is left of one source.  The tally of octets sent and the position in the
line are those before and behind it. -/
def writeSource (sent : Nat) (p : Body.Position) (source : Script) (l : Link) :
    EStateM.Result (Halt Fault) Link (Nat × Body.Position) :=
  let fed : Link := { l with net := (feed source l).2.2 }
  match _h : (feed source l).1 with
  | .ready [] => .ok (sent, p) (fed.note (.fed []))
  | .ready (b :: bs) =>
    let out := Body.stuff p (b :: bs)
    match writeAll out .body sent (fed.note (.fed (b :: bs))) with
    | .error halt later => .error halt later
    | .ok () later => writeSource (sent + out.length) (p.behind (b :: bs)) (feed source l).2.1 later
  | arrival =>
    match conclude fed arrival with
    | .ok _ later => .error (.failed (.timeout .body sent)) later
    | .error halt later => .error halt later
  termination_by source.weight
  decreasing_by
    have := Network.weight_bounded_le l.net l.connection.token l.connection.timeout bodyRoom source
    simp only [feed] at _h
    rw [_h] at this
    simp only [Network.Arrival.bytes, List.length_cons] at this
    simp only [feed]
    omega

/-- Send several sources as one body. -/
def writeSources (sent : Nat) (p : Body.Position) : List Script → Run Fault Link Nat
  | [] => return sent
  | source :: rest => do
    let (sent, p) ← writeSource sent p source
    writeSources sent p rest

/-- Send a message body and its end; the octets that took.  Empty places among the
sources are passed over. -/
def writeBody (sources : List (Option Script)) : Run Fault Link Nat := do
  let sent ← writeSources 0 .lineStart (sources.filterMap id)
  writeAll Body.terminator .body sent
  let sent := sent + Body.terminator.length
  flush .body sent
  return sent

end Link

end MailSubmission
