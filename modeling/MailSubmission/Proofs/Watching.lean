import MailSubmission.Client

set_option autoImplicit false

/-!
# Watching a client at work

The journal keeps what was done, not what was looked at before it was done.  To speak of the
moments at which a client waits, and of the connection that it finds whenever it turns to it, its
work is put together once more from parts that are watched: a watched call (`Watched`) is a call,
together with what is to be seen of it.  Watching changes nothing (`run_greet`, `run_askReset`,
`run_handOver`).  A wait is seen when it starts and whenever it is taken up again, each time with
the network as it is found then.

The parts are few.  What a client does with the connection that it has is put together from
commands, greetings and bodies, and from refusals that are failures (`Watched.Drives`); so what is
known of these is known of all its work, by induction.
-/

namespace MailSubmission

open Run

/-! ## Watched calls -/

/-- A call, and what is to be seen of it when it is carried out. -/
structure Watched (ε σ μ α : Type) where
  /-- the call -/
  run : Run ε σ α
  /-- what is seen, in order -/
  seen : σ → List μ

namespace Watched

variable {ε σ μ α β : Type}

/-- A call of which nothing is to be seen. -/
def quiet (act : Run ε σ α) : Watched ε σ μ α := ⟨act, fun _ => []⟩

/-- What is seen of a call comes first, and then, if it returns, what is seen of what follows. -/
def andThen (w : Watched ε σ μ α) (next : α → Watched ε σ μ β) : Watched ε σ μ β where
  run := w.run >>= fun a => (next a).run
  seen s := w.seen s ++
    match w.run s with
    | .ok a s' => (next a).seen s'
    | .error _ _ => []

instance : Monad (Watched ε σ μ) where
  pure a := quiet (pure a)
  bind := andThen

@[simp] theorem run_quiet (act : Run ε σ α) : (quiet act : Watched ε σ μ α).run = act := rfl

@[simp] theorem seen_quiet (act : Run ε σ α) (s : σ) : (quiet act : Watched ε σ μ α).seen s = [] := rfl

@[simp] theorem run_pure (a : α) : (pure a : Watched ε σ μ α).run = pure a := rfl

@[simp] theorem seen_pure (a : α) (s : σ) : (pure a : Watched ε σ μ α).seen s = [] := rfl

@[simp] theorem run_bind (w : Watched ε σ μ α) (next : α → Watched ε σ μ β) :
    (w >>= next).run = w.run >>= fun a => (next a).run := rfl

theorem seen_bind (w : Watched ε σ μ α) (next : α → Watched ε σ μ β) (s : σ) :
    (w >>= next).seen s = w.seen s ++
      match w.run s with
      | .ok a s' => (next a).seen s'
      | .error _ _ => [] := rfl

/-- Nothing is seen of returning. -/
theorem bind_quiet (w : Watched ε σ μ α) : w >>= pure = w := by
  have hrun : (w >>= pure).run = w.run := bind_pure w.run
  have hseen : (w >>= pure).seen = w.seen := by
    funext s
    rw [seen_bind]
    cases w.run s with
    | ok a s' => exact List.append_nil _
    | error e s' => exact List.append_nil _
  cases w
  exact (Watched.mk.injEq ..).mpr ⟨hrun, hseen⟩

/-- What is seen of two calls, one after the other, is seen of one of them. -/
theorem mem_seen_bind {w : Watched ε σ μ α} {next : α → Watched ε σ μ β} {s : σ} {m : μ} :
    m ∈ (w >>= next).seen s ↔
      m ∈ w.seen s ∨ ∃ a s', w.run s = .ok a s' ∧ m ∈ (next a).seen s' := by
  rw [seen_bind, List.mem_append]
  refine or_congr_right ?_
  cases w.run s with
  | ok a s' =>
    constructor
    · exact fun hm => ⟨a, s', rfl, hm⟩
    · rintro ⟨_, _, heq, hm⟩
      cases heq
      exact hm
  | error e s' =>
    constructor
    · exact fun hm => absurd hm List.not_mem_nil
    · rintro ⟨_, _, heq, -⟩
      cases heq

theorem run_ite {p : Prop} [Decidable p] (w w' : Watched ε σ μ α) :
    (if p then w else w').run = if p then w.run else w'.run := by
  split
  · rfl
  · rfl

end Watched

/-! ## Waiting -/

namespace Network

/-- The moments at which a sleep until `t` is taken up again: none if it is over at once, and none
if the caller drops it; else one, when it is over or the token has fired. -/
def wakings (net : Network) (token : Token) (t : Nat) : List Network :=
  if t ≤ net.now then []
  else
    match net.sleepUntil token t with
    | (some .abandoned, _) => []
    | (_, later) => [later]

/-- The moments at which a sleep is taken up again that lasts until `t`, or until the limit. -/
def wakingsWithin (net : Network) (token : Token) (limit t : Nat) : List Network :=
  net.wakings token (if t ≤ max limit net.now then t else limit)

/-- The moments at which a wait for a source is taken up again. -/
def resumptions (token : Token) (limit : Nat) : Script → Network → List Network
  | [], _ => []
  | .data _ :: _, _ => []
  | .error _ :: _, _ => []
  | .cancel :: rest, net => resumptions token limit rest (net.fire net.trigger)
  | .hang :: _, net => net.wakings token limit
  | .due t :: rest, net =>
    net.wakingsWithin token limit t ++
      match net.sleepWithin token limit t with
      | (none, later) => resumptions token limit rest later
      | (some _, _) => []
  | .delay ms :: rest, net =>
    net.wakingsWithin token limit (net.now + ms) ++
      match net.sleepWithin token limit (net.now + ms) with
      | (none, later) => resumptions token limit rest later
      | (some _, _) => []

/-- The moments at which a wait is started and taken up again. -/
def moments (net : Network) (token : Token) (timeout : Nat) (source : Script) : List Network :=
  net :: if net.isFired token then [] else resumptions token (net.now + timeout) source net

end Network

/-! ## On a link -/

namespace Watched

open Link

/-- Work on a link, of which the moments of its waits are seen. -/
abbrev OnLink (α : Type) : Type := Watched Fault Link Network α

def waitFor (timeout : Nat) (obstacle : Script) : OnLink (Option (List UInt8)) where
  run := Link.waitFor timeout obstacle
  seen l := l.net.moments l.connection.token timeout obstacle

def wait (obstacle : Script) : OnLink (Option (List UInt8)) where
  run := Link.wait obstacle
  seen l := (waitFor l.connection.timeout obstacle).seen l

def read : OnLink (Option (List UInt8)) where
  run := Link.read
  seen l := l.net.moments l.connection.token l.connection.timeout l.connection.socket.reads

def fill (phase : Phase) (transferred : Nat) : Nat → OnLink (List UInt8)
  | 0 => do
    match ← read with
    | some bs => return bs
    | none => quiet (Run.fail (.timeout phase transferred))
  | retries + 1 => do
    match ← read with
    | some bs => return bs
    | none => fill phase transferred retries

theorem run_fill (phase : Phase) (transferred retries : Nat) :
    (fill phase transferred retries).run = Link.fill phase transferred retries := by
  induction retries with
  | zero =>
    rw [fill, run_bind, Link.fill]
    congr 1
    funext o
    cases o with
    | some bs => rfl
    | none => rfl
  | succ n ih =>
    rw [fill, run_bind, Link.fill]
    congr 1
    funext o
    cases o with
    | some bs => rfl
    | none => exact ih

/-- What is seen while the lines of a reply are read. -/
def readLinesSeen (phase : Phase) (transferred : Nat) (lines : List ReplyLine) (l : Link) :
    List Network :=
  match l.connection.decoder.scan lines l.connection.buffer with
  | .complete .. => []
  | .thrashing .. => []
  | .more lines decoder =>
    let transferred := transferred + l.connection.buffer.length
    (fill phase transferred l.connection.readRetries).seen (l.withInput decoder []) ++
      match _h : Link.fill phase transferred l.connection.readRetries (l.withInput decoder []) with
      | .error _ _ => []
      | .ok [] _ => []
      | .ok (b :: bs) later =>
        readLinesSeen phase transferred lines (later.withInput later.connection.decoder (b :: bs))
  termination_by l.weight
  decreasing_by
    have := weight_fill _h
    simp only [weight, withInput, List.length_cons] at this ⊢
    omega

/-- What is seen while lines are read is seen while the buffer is filled, or after that. -/
theorem mem_readLinesSeen {phase : Phase} {transferred : Nat} {lines lines' : List ReplyLine}
    {decoder : Decoder} {l : Link} {m : Network}
    (hscan : l.connection.decoder.scan lines l.connection.buffer = .more lines' decoder) :
    m ∈ readLinesSeen phase transferred lines l ↔
      m ∈ (fill phase (transferred + l.connection.buffer.length) l.connection.readRetries).seen
        (l.withInput decoder []) ∨
      ∃ b bs later,
        Link.fill phase (transferred + l.connection.buffer.length) l.connection.readRetries
          (l.withInput decoder []) = .ok (b :: bs) later ∧
        m ∈ readLinesSeen phase (transferred + l.connection.buffer.length) lines'
          (later.withInput later.connection.decoder (b :: bs)) := by
  rw [readLinesSeen, hscan, List.mem_append]
  refine or_congr_right ?_
  split
  · rename_i hfill
    constructor
    · exact fun hm => absurd hm List.not_mem_nil
    · rintro ⟨b, bs, later, hfill', -⟩
      cases hfill.symm.trans hfill'
  · rename_i hfill
    constructor
    · exact fun hm => absurd hm List.not_mem_nil
    · rintro ⟨b, bs, later, hfill', -⟩
      cases hfill.symm.trans hfill'
  · rename_i b bs later hfill
    constructor
    · exact fun hm => ⟨b, bs, later, hfill, hm⟩
    · rintro ⟨b', bs', later', hfill', hm⟩
      cases hfill.symm.trans hfill'
      exact hm

def readLines (phase : Phase) (transferred : Nat) (lines : List ReplyLine) : OnLink (List ReplyLine) where
  run := Link.readLines phase transferred lines
  seen := readLinesSeen phase transferred lines

def readReply (phase : Phase) : OnLink (List ReplyLine) where
  run := Link.readReply phase
  seen l := (readLines phase 0 []).seen (l.withInput l.connection.decoder.reset l.connection.buffer)

/-- What is seen while octets are written for which there may be no room yet. -/
def writeOnSeen (limit : Nat) (drains : List Drain) (bytes : List UInt8) (l : Link) : List Network :=
  match put bytes l with
  | ([], _) => []
  | (b :: rest, l) =>
    (waitFor (limit - l.net.now) (l.connection.socket.holdUp drains)).seen l ++
      match Link.waitFor (limit - l.net.now) (l.connection.socket.holdUp drains) l, drains with
      | .ok (some _) l, drain :: later =>
        writeOnSeen limit later (b :: rest) (l.withSocket (l.connection.socket.drained drain later))
      | _, _ => []

/-- What is seen of a write that is held up is seen while it waits for room, or after that. -/
theorem mem_writeOnSeen {limit : Nat} {drains : List Drain} {bytes rest : List UInt8} {b : UInt8}
    {l mid : Link} {m : Network} (hput : put bytes l = (b :: rest, mid)) :
    m ∈ writeOnSeen limit drains bytes l ↔
      m ∈ (waitFor (limit - mid.net.now) (mid.connection.socket.holdUp drains)).seen mid ∨
      ∃ drain later bs woken, drains = drain :: later ∧
        Link.waitFor (limit - mid.net.now) (mid.connection.socket.holdUp drains) mid =
          .ok (some bs) woken ∧
        m ∈ writeOnSeen limit later (b :: rest)
          (woken.withSocket (woken.connection.socket.drained drain later)) := by
  rw [writeOnSeen.eq_def, hput]
  dsimp only
  rw [List.mem_append]
  refine or_congr_right ?_
  split
  · rename_i bs woken drain later hw
    constructor
    · exact fun hm => ⟨drain, later, bs, woken, rfl, hw, hm⟩
    · rintro ⟨_, _, _, _, heq, hw', hm⟩
      cases heq
      cases hw.symm.trans hw'
      exact hm
  · rename_i hnone
    constructor
    · exact fun hm => absurd hm List.not_mem_nil
    · rintro ⟨drain, later, bs, woken, rfl, hw, -⟩
      exact (hnone bs woken drain later hw rfl).elim

/-- Octets that are written go out in waits of their own, as far as there is room for them. -/
def writeAll (bytes : List UInt8) (phase : Phase) (sent : Nat) : OnLink Unit where
  run := Link.writeAll bytes phase sent
  seen l := l.net ::
    if l.net.isFired l.connection.token then []
    else writeOnSeen (l.net.now + l.connection.timeout) l.connection.socket.drains bytes l

def flush (phase : Phase) (sent : Nat) : OnLink Unit where
  run := Link.flush phase sent
  seen l := (wait (if l.connection.socket.flushRoom = some 0 then l.connection.socket.flushFault
    else [])).seen l

def writeLine (bytes : List UInt8) : OnLink Unit := do
  writeAll bytes .reply 0
  flush .reply bytes.length

/-- What is seen while one source is sent. -/
def writeSourceSeen (sent : Nat) (p : Body.Position) (source : Script) (l : Link) : List Network :=
  let fed : Link := { l with net := (feed source l).2.2 }
  l.net.moments l.connection.token l.connection.timeout source ++
    match _h : (feed source l).1 with
    | .ready (b :: bs) =>
      let out := Body.stuff p (b :: bs)
      (writeAll out .body sent).seen (fed.note (.fed (b :: bs))) ++
        match Link.writeAll out .body sent (fed.note (.fed (b :: bs))) with
        | .error _ _ => []
        | .ok () later =>
          writeSourceSeen (sent + out.length) (p.behind (b :: bs)) (feed source l).2.1 later
    | _ => []
  termination_by source.weight
  decreasing_by
    have := Network.weight_bounded_le l.net l.connection.token l.connection.timeout bodyRoom source
    simp only [feed] at _h
    rw [_h] at this
    simp only [Network.Arrival.bytes, List.length_cons] at this
    simp only [feed]
    omega

/-- What is seen while a source is sent is seen while it is read, while what was read is written,
or after that. -/
theorem mem_writeSourceSeen {sent : Nat} {p : Body.Position} {source : Script} {l : Link} {m : Network} :
    m ∈ writeSourceSeen sent p source l ↔
      m ∈ l.net.moments l.connection.token l.connection.timeout source ∨
      ∃ b bs, (feed source l).1 = .ready (b :: bs) ∧
        (m ∈ (writeAll (Body.stuff p (b :: bs)) .body sent).seen
            (Link.note { l with net := (feed source l).2.2 } (.fed (b :: bs))) ∨
          ∃ later, Link.writeAll (Body.stuff p (b :: bs)) .body sent
              (Link.note { l with net := (feed source l).2.2 } (.fed (b :: bs))) = .ok () later ∧
            m ∈ writeSourceSeen (sent + (Body.stuff p (b :: bs)).length) (p.behind (b :: bs))
              (feed source l).2.1 later) := by
  rw [writeSourceSeen, List.mem_append]
  refine or_congr_right ?_
  split
  · rename_i b bs hfed
    rw [List.mem_append, hfed]
    simp only [Network.Arrival.ready.injEq, List.cons.injEq]
    constructor
    · intro hm
      refine ⟨b, bs, ⟨rfl, rfl⟩, hm.imp_right fun hm => ?_⟩
      split at hm
      · cases hm
      · rename_i later hwritten
        exact ⟨later, hwritten, hm⟩
    · rintro ⟨_, _, ⟨rfl, rfl⟩, hm⟩
      refine hm.imp_right ?_
      rintro ⟨later, hwritten, hm⟩
      rw [hwritten]
      exact hm
  · rename_i hnone
    constructor
    · exact fun hm => absurd hm List.not_mem_nil
    · rintro ⟨b, bs, hfed, -⟩
      exact absurd hfed (hnone b bs)

def writeSource (sent : Nat) (p : Body.Position) (source : Script) : OnLink (Nat × Body.Position) where
  run := Link.writeSource sent p source
  seen := writeSourceSeen sent p source

def writeSources (sent : Nat) (p : Body.Position) : List Script → OnLink Nat
  | [] => return sent
  | source :: rest => do
    let (sent, p) ← writeSource sent p source
    writeSources sent p rest

theorem run_writeSources (sent : Nat) (p : Body.Position) (sources : List Script) :
    (writeSources sent p sources).run = Link.writeSources sent p sources := by
  induction sources generalizing sent p with
  | nil => rfl
  | cons source rest ih =>
    rw [writeSources, run_bind, Link.writeSources]
    congr 1
    funext r
    exact ih r.1 r.2

def writeBody (sources : List (Option Script)) : OnLink Nat := do
  let sent ← writeSources 0 .lineStart (sources.filterMap id)
  writeAll Body.terminator .body sent
  let sent := sent + Body.terminator.length
  flush .body sent
  return sent

theorem run_writeBody (sources : List (Option Script)) :
    (writeBody sources).run = Link.writeBody sources := by
  rw [writeBody, run_bind, run_writeSources, Link.writeBody]
  rfl

/-! ## On a client -/

end Watched

/-- What is seen of the work of a client. -/
inductive Glimpse where
  /-- a wait is started or taken up again -/
  | wait (net : Network)
  /-- something is to be done on the connection, if there is one -/
  | drive (connection : Option Connection)

/-- The fault is a reply that refuses. -/
def Fault.refuses : Fault → Bool
  | .greeting .. | .resetFailed .. => true
  | _ => false

/-- Such a failure breaks the connection, and is no cancellation. -/
theorem Fault.facts_of_refuses {fault : Fault} (h : fault.refuses = true) :
    fault.isFatal = true ∧ fault.isCancelled = false ∧ fault ≠ .cancelled := by
  cases fault with
  | greeting code text => exact ⟨rfl, rfl, nofun⟩
  | resetFailed code text => exact ⟨rfl, rfl, nofun⟩
  | _ => cases h

namespace Watched

/-- Work of a client. -/
abbrev OnClient (α : Type) : Type := Watched Fault Client Glimpse α

def onLink {α : Type} (w : OnLink α) : OnClient α where
  run := Client.onLink w.run
  seen c := .drive c.connection ::
    match c.connection with
    | none => []
    | some connection => (w.seen { connection, net := c.net }).map .wait

def exchange (command : Command) : OnClient (List ReplyLine) :=
  onLink do
    quiet (modify fun l => l.note (.issued l.connection.socket.number command))
    writeLine command.wire
    readReply .reply

def openConnection (host : String) (port : Nat) : OnClient Unit where
  run := Client.openConnection host port
  seen c :=
    ((c.net.dial host port).2.moments c.token c.settings.timeout (c.net.dial host port).1.opening).map
      .wait

def greet (host : String) (port : Nat) : OnClient Reply := do
  openConnection host port
  let greeting := ReplyLine.collapse (← onLink (readReply .reply))
  if greeting.isFailure then quiet (Run.fail (.greeting greeting.code greeting.text)) else return greeting

def askReset : OnClient Reply := do
  let reply := ReplyLine.collapse (← exchange .rset)
  if reply.isFailure then quiet (Run.fail (.resetFailed reply.code reply.text)) else return reply

def deliver (sources : List (Option Script)) : OnClient Reply :=
  onLink do
    let sent ← writeBody sources
    return (ReplyLine.collapse (← readReply .dataReply)).withSize sent

def handOver (sources : List (Option Script)) : OnClient Reply := do
  let goAhead := ReplyLine.collapse (← exchange .data)
  if goAhead.code == Code.startData then deliver sources else return goAhead

theorem run_exchange (command : Command) : (exchange command).run = Client.exchange command := rfl

theorem run_greet (host : String) (port : Nat) : (greet host port).run = Client.greet host port := by
  simp only [greet, run_bind, run_ite]
  rfl

theorem run_askReset : askReset.run = Client.askReset := by
  simp only [askReset, run_bind, run_ite, run_exchange]
  rfl

theorem run_handOver (sources : List (Option Script)) :
    (handOver sources).run = Client.handOver sources := by
  simp only [handOver, deliver, run_bind, run_ite, run_exchange, onLink, run_writeBody]
  rfl

/-! ## Work on the connection that there is -/

/-- The work uses the connection that the client has and opens none.  It is put together from
commands, greetings and the bodies that `gives` allows; a reply that refuses may be a failure. -/
inductive Drives (gives : List (Option Script) → Prop) : {α : Type} → OnClient α → Prop where
  | pure {α : Type} (a : α) : Drives gives (pure a)
  | refuse {α : Type} {fault : Fault} (h : fault.refuses = true) :
      Drives gives (quiet (Run.fail fault : Run Fault Client α))
  | exchange (command : Command) : Drives gives (exchange command)
  | greeting : Drives gives (onLink (readReply .reply))
  | deliver {sources : List (Option Script)} (h : gives sources) : Drives gives (deliver sources)
  | bind {α β : Type} {w : OnClient α} {next : α → OnClient β} (h : Drives gives w)
      (g : ∀ a, Drives gives (next a)) : Drives gives (w >>= next)

section

variable {gives : List (Option Script) → Prop}

theorem drives_ite {α : Type} {p : Prop} [Decidable p] {w w' : OnClient α} (h : Drives gives w)
    (h' : Drives gives w') : Drives gives (if p then w else w') := by
  split
  · exact h
  · exact h'

/-- The work begins with `first`, and goes on with the connection that there is then. -/
def BeginsWith (gives : List (Option Script) → Prop) {α β : Type} (first : OnClient β)
    (w : OnClient α) : Prop := ∃ next, w = first >>= next ∧ ∀ b, Drives gives (next b)

theorem BeginsWith.drives {α β : Type} {first : OnClient β} {w : OnClient α}
    (h : BeginsWith gives first w) (hfirst : Drives gives first) : Drives gives w := by
  obtain ⟨next, rfl, hnext⟩ := h
  exact hfirst.bind hnext

theorem begins_self {α : Type} (first : OnClient α) : BeginsWith gives first first :=
  ⟨pure, first.bind_quiet.symm, fun b => .pure b⟩

theorem begins_askReset : BeginsWith gives (exchange .rset) askReset :=
  ⟨_, rfl, fun _ => drives_ite (.refuse rfl) (.pure _)⟩

theorem begins_handOver {sources : List (Option Script)} (h : gives sources) :
    BeginsWith gives (exchange .data) (handOver sources) :=
  ⟨_, rfl, fun _ => drives_ite (.deliver h) (.pure _)⟩

theorem begins_greet (host : String) (port : Nat) :
    BeginsWith gives (openConnection host port) (greet host port) :=
  ⟨_, rfl, fun _ => Drives.greeting.bind fun _ => drives_ite (.refuse rfl) (.pure _)⟩

end

end Watched

end MailSubmission
