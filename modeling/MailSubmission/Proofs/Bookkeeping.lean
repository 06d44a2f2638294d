import MailSubmission.Proofs.Operations

set_option autoImplicit false

/-!
# Work and bookkeeping

An operation that is allowed does one piece of work on the network (`Operation.work`).  The rest
of it is bookkeeping, and there is little of that: an operation that returns sets the state, the
last reply and, when it was told, what is known of the server; saying goodbye lets go of the
connection (`Operation.Books`).  What comes to a halt leaves what `Operation.halted` says.

So whatever is known of the work of an operation is known of the operation
(`Operation.ends_carryOut_of_work`).
-/

namespace MailSubmission

open Run Client

/-- The command by which the client introduces itself. -/
def Client.hello (c : Client) : Command :=
  if c.settings.extensions then .ehlo c.settings.heloHost else .helo c.settings.heloHost

namespace Operation

/-- What an operation does on the network, if the client `c` begins it. -/
def work (op : Operation) (c : Client) : Run Fault Client Unit :=
  match op with
  | connect host port => do let _ ← greet host port
  | login => do let _ ← exchange c.hello
  | sender address dsn => do let _ ← exchange (.mailFrom address (c.params dsn Dsn.senderParams))
  | recipient address dsn => do let _ ← exchange (.rcptTo address (c.params dsn Dsn.recipientParams))
  | reset => do let _ ← askReset
  | sendData sources => do let _ ← handOver sources
  | done => if c.state.isLive then do let _ ← exchange .quit else return ()

/-- The operation is one of those by which the client learns about its server. -/
def learns : Operation → Bool
  | connect .. | login => true
  | _ => false

/-- `later` is the client after an operation that returned, having been at work as `mid`. -/
structure Books (op : Operation) (mid later : Client) : Prop where
  away : op = .done → later = disconnect { mid with inFlight := false }
  same : op ≠ .done → later = { mid with
    inFlight := false, state := later.state, server := later.server, lastReply := later.lastReply }
  server : op ≠ .done → op.learns = false → later.server = mid.server

variable {op : Operation} {c mid later : Client}

/-- Anything but a goodbye leaves the connection to the client. -/
theorem Books.stays (hop : op ≠ .done)
    (hsame : later = { mid with
      inFlight := false, state := later.state, server := later.server, lastReply := later.lastReply })
    (hserver : op.learns = false → later.server = mid.server) : op.Books mid later :=
  ⟨fun h => absurd h hop, fun _ => hsame, fun _ => hserver⟩

theorem Books.leaves : done.Books mid (disconnect { mid with inFlight := false }) :=
  ⟨fun _ => rfl, fun h => absurd rfl h, fun h => absurd rfl h⟩

/-- Work that is settled ends as the work does. -/
theorem ends_settled_work {α : Type} {act : Run Fault Client α} (h : Connects act) (c : Client) :
    Ends (settled act) c
      (fun _ later => ∃ mid, (do let _ ← act) { c with inFlight := true } = .ok () mid ∧
        later = { mid with inFlight := false })
      (fun e later => ∃ mid, (do let _ ← act) { c with inFlight := true } = .error e mid ∧
        later = Client.halted { mid with inFlight := false } e) := by
  refine ends_settled (((ends_self act _).and (h { c with inFlight := true })).mono ?_ ?_)
  · rintro a mid ⟨hact, -⟩
    exact ⟨mid, bind_of_ok hact, rfl⟩
  · rintro e mid ⟨hact, ⟨es, hes⟩, hfatal⟩
    have hmark : mid.inFlight = true := by rw [hes.same]
    refine ⟨hfatal, hmark, mid, bind_of_error hact, ?_⟩
    cases e with
    | failed fault => rfl
    | abandoned => rfl

/-- A command that moves the session on, unless the server refuses. -/
theorem ends_transact_moveTo_work (command : Command) (state : SessionState) (c : Client) :
    Ends (do
        let reply ← transact command
        if !reply.isFailure then moveTo state
        return reply) c
      (fun _ later => ∃ mid,
        (do let _ ← exchange command) { c with inFlight := true } = .ok () mid ∧
        later = { mid with
          inFlight := false, state := later.state, server := later.server,
          lastReply := later.lastReply } ∧ later.server = mid.server)
      (fun e later => ∃ mid,
        (do let _ ← exchange command) { c with inFlight := true } = .error e mid ∧
        later = Client.halted { mid with inFlight := false } e) := by
  simp only [transact, ends_bind]
  refine (ends_settled_work (connects_exchange command) c).mono ?_ fun _ _ hhalt => hhalt
  rintro lines _ ⟨mid, hmid, rfl⟩
  simp only [keep, moveTo, ends_modify, ends_pure, ends_ite, ends_bind]
  split
  · exact ⟨mid, hmid, rfl, rfl⟩
  · exact ⟨mid, hmid, rfl, rfl⟩

/-- An operation that the state allows does its work, and then its bookkeeping. -/
theorem ends_carryOut_work (hidle : c.inFlight = false) (hallowed : op.allows c.state = true) :
    Ends op.carryOut c
      (fun _ later => ∃ mid, op.work c { c with inFlight := true } = .ok () mid ∧ op.Books mid later)
      (fun e later => ∃ mid, op.work c { c with inFlight := true } = .error e mid ∧
        later = op.halted { mid with inFlight := false } e) := by
  cases op with
  | connect host port =>
    simp only [carryOut, Client.connect, ends_bind]
    refine (ends_enter hidle hallowed).mpr ?_
    refine (ends_settled_work (connects_greet host port) c).mono ?_ fun _ _ hhalt => hhalt
    rintro greeting _ ⟨mid, hmid, rfl⟩
    exact ⟨mid, hmid, .stays (by simp) rfl (by simp [learns])⟩
  | login =>
    simp only [carryOut, Client.login, ends_bind]
    refine (ends_enter hidle hallowed).mpr (ends_get.mpr ?_)
    refine (ends_settled_work (connects_exchange c.hello) c).mono ?_ fun _ _ hhalt => hhalt
    rintro lines _ ⟨mid, hmid, rfl⟩
    simp only [keep, moveTo, ends_modify, ends_pure, ends_ite, ends_bind]
    split
    · split
      · exact ⟨mid, hmid, .stays (by simp) rfl (by simp [learns])⟩
      · exact ⟨mid, hmid, .stays (by simp) rfl (by simp [learns])⟩
    · split
      · exact ⟨mid, hmid, .stays (by simp) rfl (by simp [learns])⟩
      · exact ⟨mid, hmid, .stays (by simp) rfl (by simp [learns])⟩
  | sender address dsn =>
    refine ends_bind.mpr (ends_bind.mpr ((ends_enter hidle hallowed).mpr ?_))
    refine ends_bind.mpr (ends_get.mpr ?_)
    refine (ends_transact_moveTo_work _ .mailFromDone c).mono ?_ fun _ _ hhalt => hhalt
    rintro reply later ⟨mid, hmid, hsame, hserver⟩
    exact ⟨mid, hmid, .stays (by simp) hsame fun _ => hserver⟩
  | recipient address dsn =>
    refine ends_bind.mpr (ends_bind.mpr ((ends_enter hidle hallowed).mpr ?_))
    refine ends_bind.mpr (ends_get.mpr ?_)
    refine (ends_transact_moveTo_work _ .rcptToDone c).mono ?_ fun _ _ hhalt => hhalt
    rintro reply later ⟨mid, hmid, hsame, hserver⟩
    exact ⟨mid, hmid, .stays (by simp) hsame fun _ => hserver⟩
  | reset =>
    simp only [carryOut, Client.reset, ends_bind]
    refine (ends_enter hidle hallowed).mpr ?_
    refine (ends_settled_work connects_askReset c).mono ?_ fun _ _ hhalt => hhalt
    rintro reply _ ⟨mid, hmid, rfl⟩
    exact ⟨mid, hmid, .stays (by simp) rfl fun _ => rfl⟩
  | sendData sources =>
    simp only [carryOut, Client.sendData, ends_bind]
    refine (ends_enter hidle hallowed).mpr ?_
    refine (ends_settled_work (connects_handOver sources) c).mono ?_ fun _ _ hhalt => hhalt
    rintro reply _ ⟨mid, hmid, rfl⟩
    exact ⟨mid, hmid, .stays (by simp) rfl fun _ => rfl⟩
  | done =>
    simp only [carryOut, Client.done, marked, ends_bind]
    refine (ends_enter hidle hallowed).mpr (ends_get.mpr ?_)
    simp only [work, ends_modify, ends_pure, ends_ite, ends_bind, ends_attempt]
    cases hlive : c.state.isLive with
    | false => exact ⟨_, rfl, .leaves⟩
    | true =>
      refine ((ends_self (exchange .quit) { c with inFlight := true }).and
        (connects_exchange .quit { c with inFlight := true })).mono ?_ ?_
      · rintro lines mid ⟨hact, -⟩
        exact ⟨mid, bind_of_ok hact, .leaves⟩
      · rintro e mid ⟨hact, ⟨es, hes⟩, -⟩
        have hleft : mid = { { mid with inFlight := false } with inFlight := true } := by
          rw [hes.same]
        cases e with
        | failed fault => cases fault <;> exact ⟨mid, bind_of_error hact, rfl⟩
        | abandoned => exact ⟨mid, bind_of_error hact, hleft⟩

/-- Whatever holds of the work of an operation, however it ends, holds of what its bookkeeping
started from. -/
theorem ends_carryOut_of_work {ok : Client → Prop} {halt : Halt Fault → Client → Prop}
    (hidle : c.inFlight = false) (hallowed : op.allows c.state = true)
    (h : Ends (op.work c) { c with inFlight := true } (fun _ mid => ok mid) halt) :
    Ends op.carryOut c (fun _ later => ∃ mid, ok mid ∧ op.Books mid later)
      (fun e later => ∃ mid, halt e mid ∧ later = op.halted { mid with inFlight := false } e) := by
  apply (ends_carryOut_work hidle hallowed).mono
  · rintro answer later ⟨mid, hmid, hbooks⟩
    exact ⟨mid, h.of_ok hmid, hbooks⟩
  · rintro e later ⟨mid, hmid, hlater⟩
    exact ⟨mid, h.of_error hmid, hlater⟩

/-- An operation comes to a halt if its work does. -/
theorem carryOut_of_work_error {e : Halt Fault} (hidle : c.inFlight = false)
    (hallowed : op.allows c.state = true)
    (h : op.work c { c with inFlight := true } = .error e mid) :
    op.carryOut c = .error e (op.halted { mid with inFlight := false } e) := by
  have hends := ends_carryOut_work hidle hallowed
  cases hr : op.carryOut c with
  | ok answer later =>
    obtain ⟨mid', hmid', -⟩ := hends.of_ok hr
    rw [h] at hmid'
    cases hmid'
  | error e' later =>
    obtain ⟨mid', hmid', rfl⟩ := hends.of_error hr
    rw [h] at hmid'
    cases hmid'
    rfl

/-- Bookkeeping leaves the network as it was, or lets go of the connection. -/
theorem Books.net_eq (h : op.Books mid later) :
    later.net = mid.net ∧ later.connection = mid.connection ∨
      later.net = mid.releasedNet ∧ later.connection = none := by
  by_cases hop : op = .done
  · rw [h.away hop]
    exact .inr ⟨rfl, rfl⟩
  · rw [h.same hop]
    exact .inl ⟨rfl, rfl⟩

/-- So does what an operation leaves when it comes to a halt. -/
theorem net_halted (op : Operation) (c : Client) (e : Halt Fault) :
    (op.halted c e).net = c.net ∧ (op.halted c e).connection = c.connection ∨
      (op.halted c e).net = c.releasedNet ∧ (op.halted c e).connection = none := by
  cases e with
  | abandoned =>
    rw [op.halted_abandoned]
    exact .inl ⟨rfl, rfl⟩
  | failed fault =>
    obtain ⟨hnone, hnet, -⟩ := op.halted_failed c fault
    exact .inr ⟨hnet, hnone⟩

/-! ## Watching an operation -/

/-- The work of an operation, watched. -/
def watched (op : Operation) (c : Client) : Watched.OnClient Unit :=
  match op with
  | connect host port => do let _ ← Watched.greet host port
  | login => do let _ ← Watched.exchange c.hello
  | sender address dsn => do
    let _ ← Watched.exchange (.mailFrom address (c.params dsn Dsn.senderParams))
  | recipient address dsn => do
    let _ ← Watched.exchange (.rcptTo address (c.params dsn Dsn.recipientParams))
  | reset => do let _ ← Watched.askReset
  | sendData sources => do let _ ← Watched.handOver sources
  | done => if c.state.isLive then do let _ ← Watched.exchange .quit else return ()

/-- Watching changes nothing. -/
theorem run_watched (op : Operation) (c : Client) : (op.watched c).run = op.work c := by
  cases op with
  | connect host port => simp only [watched, work, Watched.run_bind, Watched.run_greet, Watched.run_pure]
  | reset => simp only [watched, work, Watched.run_bind, Watched.run_askReset, Watched.run_pure]
  | sendData sources =>
    simp only [watched, work, Watched.run_bind, Watched.run_handOver, Watched.run_pure]
  | done =>
    simp only [watched, work, Watched.run_ite]
    rfl
  | _ => rfl

/-- What is seen of an operation that a client carries out: nothing if it is not allowed. -/
def glimpses (op : Operation) (c : Client) : List Glimpse :=
  if op.allows c.cleared.state then (op.watched c.cleared).seen { c.cleared with inFlight := true } else []

/-- Every operation but one works on the connection that there is. -/
theorem connects_or_drives {gives : List (Option Script) → Prop} (op : Operation) (c : Client)
    (hgives : ∀ sources, op = sendData sources → gives sources) :
    (∃ host port, op = connect host port) ∨ Watched.Drives gives (op.watched c) := by
  cases op with
  | connect host port => exact .inl ⟨host, port, rfl⟩
  | reset => exact .inr ((Watched.begins_askReset.drives (.exchange .rset)).bind fun _ => .pure ())
  | sendData sources =>
    have hbegins := Watched.begins_handOver (hgives sources rfl)
    exact .inr ((hbegins.drives (.exchange .data)).bind fun _ => .pure ())
  | done =>
    exact .inr (Watched.drives_ite ((Watched.Drives.exchange .quit).bind fun _ => .pure ()) (.pure ()))
  | _ => exact .inr ((Watched.Drives.exchange _).bind fun _ => .pure ())

/-! ## What an operation does not touch -/

theorem worksOnly_work (op : Operation) (c : Client) : WorksOnly (op.work c) := by
  rcases op.connects_or_drives c fun _ _ => trivial with ⟨host, port, rfl⟩ | hdrives
  · exact ((connects_greet host port).bind fun _ => worksOnly_pure ()).worksOnly
  · exact op.run_watched c ▸ worksOnly_of_drives hdrives

/-- An operation that returns has left the settings and the token as they were, and what is known
of the server, if it is not one of those that learn about it. -/
theorem ends_carryOut_remembers (hidle : c.inFlight = false) (hallowed : op.allows c.state = true)
    (hop : op ≠ .done) :
    Ends op.carryOut c
      (fun _ later => later.settings = c.settings ∧ later.token = c.token ∧
        (op.learns = false → later.server = c.server))
      (fun _ _ => True) := by
  refine (ends_carryOut_of_work hidle hallowed (op.worksOnly_work c _)).mono ?_ fun _ _ _ => trivial
  rintro answer later ⟨mid, ⟨es, hes⟩, hbooks⟩
  refine ⟨?_, ?_, fun hlearns => ?_⟩
  · rw [hbooks.same hop, hes.same]
  · rw [hbooks.same hop, hes.same]
  · rw [hbooks.server hop hlearns, hes.same]

end Operation

end MailSubmission
