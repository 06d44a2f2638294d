import MailSubmission.Proofs.Attempts
import MailSubmission.Proofs.Bookkeeping

set_option autoImplicit false

/-!
# Accounts of calls

An account says what a call does to its state, whether it returns or comes to a halt, and can be
put together as calls are.  A call that does so keeps to the account (`Account.Keeps`).

What a client is asked to do is work on its connection and bookkeeping.  An account of clients that
covers what such work is put together from (`Account.CoversWork`) is kept to by the work of each
operation (`Operation.keeps_work`).  An account of the network (`Account.Covers`) is kept to by the
operations as a whole (`Operation.keeps_carryOut`), and with it an account of submitters
(`Account.Lifts`) by each transaction.
-/

namespace MailSubmission

open Run

/-- What is said of calls on a state `σ`: of one that returns, and of one that comes to a halt. -/
structure Account (ε σ : Type) where
  returns : σ → σ → Prop
  halts : Halt ε → σ → σ → Prop
  refl (s : σ) : returns s s
  trans {s mid later : σ} (h : returns s mid) (g : returns mid later) : returns s later
  trans_halts {e : Halt ε} {s mid later : σ} (h : returns s mid) (g : halts e mid later) :
    halts e s later
  /-- A halt may be followed by what clears up after it. -/
  halts_trans {e : Halt ε} {s mid later : σ} (h : halts e s mid) (g : returns mid later) :
    halts e s later

namespace Account

variable {ε σ τ α β : Type}

/-- The account of a part of the state. -/
def along (A : Account ε σ) (view : τ → σ) : Account ε τ where
  returns t later := A.returns (view t) (view later)
  halts e t later := A.halts e (view t) (view later)
  refl t := A.refl (view t)
  trans h g := A.trans h g
  trans_halts h g := A.trans_halts h g
  halts_trans h g := A.halts_trans h g

/-- Something is counted: it stays as it is, and a halt adds what it tells of. -/
def counting (count : σ → Nat) (told : Halt ε → Nat) : Account ε σ where
  returns s later := count later = count s
  halts e s later := count later = count s + told e
  refl _ := rfl
  trans h g := Eq.trans g h
  trans_halts h g := h ▸ g
  halts_trans h g := Eq.trans g h

/-- Carried out on `s`, the call does what the account says. -/
def Keeps (A : Account ε σ) (act : Run ε σ α) (s : σ) : Prop :=
  Ends act s (fun _ s' => A.returns s s') fun e s' => A.halts e s s'

section

variable {A : Account ε σ} {act : Run ε σ α} {next : α → Run ε σ β} {s t : σ}

theorem keeps_pure (a : α) (s : σ) : A.Keeps (pure a) s := A.refl s

theorem keeps_get (s : σ) : A.Keeps get s := A.refl s

theorem keeps_modify {f : σ → σ} (h : A.returns s (f s)) : A.Keeps (modify f) s := h

theorem keeps_fail {fault : ε} (h : A.halts (.failed fault) s s) :
    A.Keeps (fail fault : Run ε σ α) s := h

theorem keeps_ite {p : Prop} [Decidable p] {act' : Run ε σ α} (h : A.Keeps act s)
    (h' : A.Keeps act' s) : A.Keeps (if p then act else act') s := by
  split
  · exact h
  · exact h'

/-- What was done before counts as well. -/
theorem Keeps.since (h : A.Keeps act s) (hbefore : A.returns t s) :
    Ends act s (fun _ s' => A.returns t s') fun e s' => A.halts e t s' :=
  Ends.mono h (fun _ _ hreturns => A.trans hbefore hreturns)
    fun _ _ hhalts => A.trans_halts hbefore hhalts

theorem Keeps.bind (h : A.Keeps act s) (g : ∀ a s', A.Keeps (next a) s') :
    A.Keeps (act >>= next) s :=
  ends_bind.mpr (Ends.mono h (fun a mid hmid => (g a mid).since hmid) fun _ _ hhalts => hhalts)

end

/-- The account speaks of what work on the connection that there is is put together from. -/
structure CoversWork (A : Account Fault Client) (gives : List (Option Script) → Prop) : Prop where
  refused {fault : Fault} (h : fault.refuses = true) (c : Client) : A.halts (.failed fault) c c
  exchange (command : Command) (c : Client) : A.Keeps (Client.exchange command) c
  greeting (c : Client) : A.Keeps (Client.onLink (Link.readReply .reply)) c
  deliver {sources : List (Option Script)} (h : gives sources) (c : Client) :
    A.Keeps (Watched.deliver sources).run c

/-- The account speaks of all work on a connection, and of letting go of it.  A failure by itself
changes nothing in its view, unless it is a cancellation. -/
structure Covers (A : Account Fault Network) : Prop where
  released (n : Nat) (net : Network) : A.returns net (net.note (.released n))
  issued (n : Nat) (command : Command) (net : Network) : A.returns net (net.note (.issued n command))
  failed {fault : Fault} (h : fault.isCancelled = false) (net : Network) : A.halts (.failed fault) net net
  writeLine (bytes : List UInt8) (l : Link) : (A.along Link.net).Keeps (Link.writeLine bytes) l
  readReply (phase : Phase) (l : Link) : (A.along Link.net).Keeps (Link.readReply phase) l
  writeBody (sources : List (Option Script)) (l : Link) :
    (A.along Link.net).Keeps (Link.writeBody sources) l

end Account

/-! ## On a client -/

namespace Client

variable {α : Type}

/-- Work on the connection that there is keeps to the account. -/
theorem keeps_of_drives {A : Account Fault Client} {gives : List (Option Script) → Prop}
    {w : Watched.OnClient α} (h : A.CoversWork gives) (hw : Watched.Drives gives w) (c : Client) :
    A.Keeps w.run c := by
  induction hw generalizing c with
  | pure a => exact Account.keeps_pure a c
  | refuse hrefuses => exact Account.keeps_fail (h.refused hrefuses c)
  | exchange command => exact h.exchange command c
  | greeting => exact h.greeting c
  | deliver hgives => exact h.deliver hgives c
  | bind _ _ ih ihnext => exact (ih c).bind ihnext

variable {A : Account Fault Network}

/-- Letting go of the connection is covered. -/
theorem returns_releasedNet (h : A.Covers) (c : Client) : A.returns c.net c.releasedNet := by
  unfold releasedNet
  cases c.connection with
  | none => exact A.refl c.net
  | some conn => exact h.released conn.socket.number c.net

/-- So is clearing up after a call dropped before. -/
theorem returns_cleared (h : A.Covers) (c : Client) : A.returns c.net c.cleared.net := by
  unfold cleared
  split
  · exact returns_releasedNet h c
  · exact A.refl c.net

theorem keeps_onLink (h : A.Covers) {act : Run Fault Link α}
    (hact : ∀ l, (A.along Link.net).Keeps act l) (c : Client) :
    (A.along Client.net).Keeps (onLink act) c := by
  cases hc : c.connection with
  | none =>
    unfold Account.Keeps Ends onLink
    rw [hc]
    exact h.failed rfl c.net
  | some conn => exact ends_onLink hc (hact ⟨conn, c.net⟩)

/-- What is covered on a connection is covered on a client. -/
theorem coversWork_along (h : A.Covers) : (A.along Client.net).CoversWork fun _ => True where
  refused hrefuses c := h.failed (Fault.facts_of_refuses hrefuses).2.1 c.net
  exchange command c := by
    refine keeps_onLink h (fun l => ?_) c
    refine (Account.keeps_modify ?_).bind fun _ l' => (h.writeLine command.wire l').bind fun _ l'' =>
      h.readReply .reply l''
    exact h.issued l.connection.socket.number command l.net
  greeting := keeps_onLink h (h.readReply .reply)
  deliver {sources} _ := by
    refine keeps_onLink h fun l => ?_
    rw [Watched.run_bind, Watched.run_writeBody]
    exact (h.writeBody sources l).bind fun sent l' =>
      (h.readReply .dataReply l').bind fun lines l'' => Account.keeps_pure _ l''

/-- A call that is settled ends as it would, but that a connection may be let go of. -/
theorem ends_settled_net {act : Run Fault Client α} {c : Client} (ok : α → Network → Prop)
    (halt : Halt Fault → Network → Prop)
    (h : Ends act { c with inFlight := true } (fun a c' => ok a c'.net) fun e c' => halt e c'.net)
    (hrelease : ∀ (e : Halt Fault) (c' : Client), halt e c'.net → halt e c'.releasedNet) :
    Ends (settled act) c (fun a c' => ok a c'.net) fun e c' => halt e c'.net := by
  simp only [settled, marked, ends_bind, ends_modify, ends_attempt]
  apply h.mono
  · intro a c' hc'
    exact hc'
  · intro e c' hc'
    cases e with
    | abandoned => exact hc'
    | failed fault =>
      refine ends_ite.mpr ?_
      split
      · exact hrelease (.failed fault) { c' with inFlight := false } hc'
      · exact hc'

end Client

/-! ## Operations -/

namespace Operation

/-- An operation keeps to an account with its work, if opening a connection does. -/
theorem keeps_work {A : Account Fault Client} {gives : List (Option Script) → Prop}
    (h : A.CoversWork gives) (op : Operation) (hgives : ∀ sources, op = sendData sources → gives sources)
    (hopen : ∀ host port, op = connect host port → ∀ c, A.Keeps (Client.openConnection host port) c)
    (start c : Client) : A.Keeps (op.work start) c := by
  rcases op.connects_or_drives start hgives with ⟨host, port, rfl⟩ | hdrives
  · obtain ⟨next, hgreet, hnext⟩ : Watched.BeginsWith gives _ _ := Watched.begins_greet host port
    rw [← run_watched, watched, Watched.run_bind, hgreet]
    exact ((hopen host port rfl c).bind fun u => Client.keeps_of_drives h (hnext u)).bind
      fun _ => Account.keeps_pure ()
  · exact op.run_watched start ▸ Client.keeps_of_drives h hdrives c

/-- It keeps to an account of the network as a whole: bookkeeping lets go of a connection at most. -/
theorem keeps_carryOut {A : Account Fault Network} (h : A.Covers) (op : Operation)
    (hopen : ∀ host port, op = connect host port →
      ∀ c, (A.along Client.net).Keeps (Client.openConnection host port) c)
    (c : Client) : (A.along Client.net).Keeps op.carryOut c := by
  have hcleared := Client.returns_cleared h c
  cases hallows : op.allows c.cleared.state with
  | false =>
    unfold Account.Keeps Ends
    rw [op.carryOut_of_not_allows c hallows]
    exact A.trans_halts hcleared (h.failed rfl c.cleared.net)
  | true =>
    have hwork : (A.along Client.net).Keeps (op.work c.cleared) { c.cleared with inFlight := true } :=
      op.keeps_work (Client.coversWork_along h) (fun _ _ => trivial) hopen _ _
    have hcarried : Ends op.carryOut c.cleared (fun _ later => A.returns c.net later.net)
        (fun e later => A.halts e c.net later.net) := by
      apply (ends_carryOut_of_work c.idle_cleared hallows hwork).mono
      · rintro answer later ⟨mid, hreturns, hbooks⟩
        have hmid : A.returns c.net mid.net := A.trans hcleared hreturns
        rcases hbooks.net_eq with ⟨hnet, -⟩ | ⟨hnet, -⟩
        · rw [hnet]
          exact hmid
        · rw [hnet]
          exact A.trans hmid (Client.returns_releasedNet h mid)
      · rintro e later ⟨mid, hhalts, rfl⟩
        have hmid : A.halts e c.net mid.net := A.trans_halts hcleared hhalts
        rcases op.net_halted { mid with inFlight := false } e with ⟨hnet, -⟩ | ⟨hnet, -⟩
        · rw [hnet]
          exact hmid
        · rw [hnet]
          exact A.halts_trans hmid (Client.returns_releasedNet h mid)
    unfold Ends at hcarried
    rwa [op.carryOut_cleared] at hcarried

end Operation

/-! ## On a submitter -/

namespace Account

variable {α : Type} {A : Account Fault Network} {B : Account SubmitFailure Submitter} {s : Submitter}

/-- Where a client keeps to the account of the network, its submitter keeps to the other. -/
structure Lifts (A : Account Fault Network) (B : Account SubmitFailure Submitter) : Prop where
  covers : A.Covers
  returns {s : Submitter} {c : Client} (h : A.returns s.client.net c.net) :
    B.returns s { s with client := c }
  halts {e : Halt Fault} {s : Submitter} {c : Client} (h : A.halts e s.client.net c.net) :
    B.halts (Submitter.failed { s with client := c } e) s { s with client := c }

theorem Lifts.onClient (h : A.Lifts B) {act : Run Fault Client α}
    (hact : ∀ c, (A.along Client.net).Keeps act c) (s : Submitter) :
    B.Keeps (Submitter.onClient act) s :=
  Submitter.ends_onClient.mpr
    (Ends.mono (hact s.client) (fun _ _ hr => h.returns hr) fun _ _ hh => h.halts hh)

/-- What follows the connecting, when a session is opened. -/
theorem Lifts.introduce (h : A.Lifts B) (s : Submitter) : B.Keeps (do
      let replies ← Submitter.onClient Client.login
      if (← get).client.state = .loginComplete then return none
      else return some (replies.getLast?.getD {})) s := by
  have hlogin : ∀ c, (A.along Client.net).Keeps Client.login c := fun c =>
    ends_bind.mp (Operation.login.keeps_carryOut h.covers nofun c)
  refine (h.onClient hlogin s).bind fun replies s' => ?_
  refine (keeps_get s').bind fun s₀ s'' => ends_ite.mpr ?_
  split
  · exact B.refl s''
  · exact B.refl s''

theorem Lifts.giveMessage (h : A.Lifts B) (m : Message) (s : Submitter) :
    B.Keeps (Submitter.giveMessage m) s := by
  have hsend : ∀ c, (A.along Client.net).Keeps (Client.sendData m.sources) c := fun c =>
    ends_bind.mp ((Operation.sendData m.sources).keeps_carryOut h.covers nofun c)
  exact (h.onClient hsend s).bind fun _ s' => keeps_ite (keeps_pure _ s') (keeps_pure _ s')

theorem Lifts.giveRecipient (h : A.Lifts B) (m : Message) (dsn : Option Dsn) (s : Submitter) :
    B.Keeps (Submitter.giveRecipient m dsn) s := by
  have hname : ∀ c, (A.along Client.net).Keeps (Client.recipient m.recipient dsn) c := fun c =>
    ends_bind.mp ((Operation.recipient m.recipient dsn).keeps_carryOut h.covers nofun c)
  exact (h.onClient hname s).bind fun _ s' => keeps_ite (keeps_pure _ s') (h.giveMessage m s')

/-- A transaction keeps to what its commands keep to. -/
theorem Lifts.giveSender (h : A.Lifts B) (m : Message) (dsn : Option Dsn) (s : Submitter) :
    B.Keeps (Submitter.giveSender m dsn) s := by
  have hname : ∀ c, (A.along Client.net).Keeps (Client.sender m.sender dsn) c := fun c =>
    ends_bind.mp ((Operation.sender m.sender dsn).keeps_carryOut h.covers nofun c)
  exact (h.onClient hname s).bind fun _ s' => keeps_ite (keeps_pure _ s') (h.giveRecipient m dsn s')

end Account

end MailSubmission
