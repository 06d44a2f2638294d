import MailSubmission.Proofs.ClientConduct

set_option autoImplicit false

/-!
# The operations of a session

The seven operations that speak with a server are taken together here: which states each
is allowed in, which state its answer leads to, and what it leaves behind when it comes to
a halt.  An operation that is not allowed does nothing at all; one that is allowed returns
or breaks the connection, and nothing else is possible.
-/

namespace MailSubmission

open Run Client

/-- An operation of a session, with what it is given. -/
inductive Operation where
  | connect (host : String) (port : Nat)
  | login
  | sender (address : Address) (dsn : Option Dsn)
  | recipient (address : Address) (dsn : Option Dsn)
  | reset
  | sendData (sources : List (Option Script))
  | done
  deriving DecidableEq, Repr, Inhabited

/-- What an operation returns. -/
inductive Answer where
  | reply (reply : Reply)
  | replies (replies : List Reply)
  | farewell (reply : Option Reply)
  deriving DecidableEq, Repr

namespace Client

/-- `later` is the client after an operation that returned: no call is under way, and a
session that is live has its connection. -/
structure Rests (c later : Client) : Prop where
  idle : later.inFlight = false
  isOpen : later.state.isLive = true → later.connection.isSome = true
  moves : ∃ es, c.Moves later es

/-- Bookkeeping touches neither the connection nor the network. -/
theorem Works.rests {c mid later : Client} {es : List Entry} (h : c.Works mid es)
    (hidle : c.inFlight = false) (hopen : mid.connection.isSome = true)
    (hmark : later.inFlight = mid.inFlight) (hconnection : later.connection = mid.connection)
    (hnet : later.net = mid.net) : c.Rests later where
  idle := by rw [hmark, h.same, hidle]
  isOpen _ := hconnection ▸ hopen
  moves := ⟨es, h.toMoves.congr hconnection hnet⟩

/-- So does letting go of it without a goodbye. -/
theorem Moves.rests_disconnect {c mid : Client} {es : List Entry} (h : c.Moves mid es) :
    c.Rests mid.disconnect where
  idle := rfl
  isOpen hlive := by cases hlive
  moves := ⟨_, h.trans (moves_release mid rfl rfl)⟩

end Client

namespace Operation

/-- The name in messages. -/
def name : Operation → String
  | connect .. => "connect"
  | login => "login"
  | sender .. => "sender"
  | recipient .. => "recipient"
  | reset => "reset"
  | sendData _ => "send_data"
  | done => "done"

/-- The states that allow the operation. -/
def allows : Operation → SessionState → Bool
  | connect .., state => state == .fresh
  | login, state => state == .connected
  | sender .., state => state == .loginComplete
  | recipient .., state => state == .mailFromDone
  | reset, state => state.inSession
  | sendData _, state => state == .rcptToDone
  | done, state => state != .bad

/-- Carry out the operation. -/
def carryOut : Operation → Run Fault Client Answer
  | connect host port => return .reply (← Client.connect host port)
  | login => return .replies (← Client.login)
  | sender address dsn => return .reply (← Client.sender address dsn)
  | recipient address dsn => return .reply (← Client.recipient address dsn)
  | reset => return .reply (← Client.reset)
  | sendData sources => return .reply (← Client.sendData sources)
  | done => return .farewell (← Client.done)

/-- The state that the operation leads to by its answer.  A server that does not agree
leaves the state as it is. -/
def next : Operation → SessionState → Answer → SessionState
  | connect .., _, _ => .connected
  | login, state, .replies replies =>
    if replies.getLast?.any (·.code == Code.ok) then .loginComplete else state
  | sender .., state, .reply reply => if reply.isFailure then state else .mailFromDone
  | recipient .., state, .reply reply => if reply.isFailure then state else .rcptToDone
  | reset, _, _ => .loginComplete
  | done, _, _ => .fresh
  | _, state, _ => state

/-- The client that the operation leaves when it comes to a halt, having been at work as `c`.
Saying goodbye lets go of the connection in any case; only a cancellation counts as a
break. -/
def halted : Operation → Client → Halt Fault → Client
  | done, c, .failed .cancelled => c.abandon
  | done, c, .failed _ => c.disconnect
  | _, c, halt => c.halted halt

/-! ## What is not allowed -/

/-- An operation that the state does not allow does nothing, apart from clearing up after a
call dropped before. -/
theorem carryOut_of_not_allows (op : Operation) (c : Client)
    (h : op.allows c.cleared.state = false) :
    op.carryOut c = .error (.failed (.invalidState op.name c.cleared.state)) c.cleared := by
  have hnot := Bool.eq_false_iff.mp h
  have henter : Client.enter op.name op.allows c =
      .error (.failed (.invalidState op.name c.cleared.state)) c.cleared := by
    rw [enter_apply, if_neg hnot]
  cases op <;> exact bind_of_error (bind_of_error henter)

/-! ## What is allowed -/

/-- A command that moves the session on, unless the server refuses. -/
theorem ends_transact_moveTo {c : Client} (command : Command) (state : SessionState)
    (hidle : c.inFlight = false) :
    Ends (do
        let reply ← transact command
        if !reply.isFailure then moveTo state
        return reply) c
      (fun reply c' => c'.state = (if reply.isFailure then c.state else state) ∧ c.Rests c')
      fun e c' => e.Fatal ∧ ∃ mid es, c.Works mid es ∧ c' = mid.halted e := by
  simp only [transact, ends_bind]
  refine ((connects_exchange command).ends_settled hidle).mono ?_ fun _ _ hhalt => hhalt
  intro lines mid hmid
  obtain ⟨⟨es, hes⟩, hopen⟩ := hmid
  simp only [keep, moveTo, ends_modify, ends_pure, ends_ite, ends_bind]
  cases hfailure : (ReplyLine.collapse lines).isFailure with
  | true => exact ⟨hes.state_eq, hes.rests hidle hopen rfl rfl rfl⟩
  | false => exact ⟨rfl, hes.rests hidle hopen rfl rfl rfl⟩

/-- The last of the lines decides, whether they are read together or each for itself. -/
theorem any_getLast?_expand (lines : List ReplyLine) :
    (ReplyLine.expand lines).getLast?.any (·.code == Code.ok) =
      ((ReplyLine.collapse lines).code == Code.ok) := by
  unfold ReplyLine.expand ReplyLine.collapse
  rw [List.getLast?_map]
  cases lines.getLast? with
  | none => rfl
  | some final => rfl

/-- Whether it is asked for extensions or not, a login is accepted by the code of its last
line. -/
theorem next_login (extensions : Bool) (state : SessionState) (lines : List ReplyLine) :
    login.next state (.replies
        (if extensions then ReplyLine.expand lines else [ReplyLine.collapse lines])) =
      if (ReplyLine.collapse lines).code == Code.ok then .loginComplete else state := by
  cases extensions with
  | false => rfl
  | true =>
    rw [← any_getLast?_expand]
    rfl

/-- An operation that the state allows returns, and then its answer decides where it leads
to, or comes to a halt that breaks the connection. -/
theorem ends_carryOut {op : Operation} {c : Client} (hidle : c.inFlight = false)
    (hallowed : op.allows c.state = true) :
    Ends op.carryOut c (fun answer c' => c'.state = op.next c.state answer ∧ c.Rests c')
      fun e c' => e.Fatal ∧ ∃ mid es, c.Works mid es ∧ c' = op.halted mid e := by
  cases op with
  | connect host port =>
    simp only [carryOut, Client.connect, ends_bind]
    refine (ends_enter hidle hallowed).mpr ?_
    refine ((connects_greet host port).ends_settled hidle).mono ?_ fun _ _ hhalt => hhalt
    intro greeting mid hmid
    obtain ⟨⟨es, hes⟩, hopen⟩ := hmid
    exact ⟨rfl, hes.rests hidle hopen rfl rfl rfl⟩
  | login =>
    simp only [carryOut, Client.login, ends_bind]
    refine (ends_enter hidle hallowed).mpr (ends_get.mpr ?_)
    refine ((connects_exchange _).ends_settled hidle).mono ?_ fun _ _ hhalt => hhalt
    intro lines mid hmid
    obtain ⟨⟨es, hes⟩, hopen⟩ := hmid
    simp only [keep, moveTo, ends_modify, ends_pure, ends_ite, ends_bind, next_login]
    cases hcode : (ReplyLine.collapse lines).code == Code.ok with
    | true =>
      cases hextensions : c.settings.extensions with
      | true => exact ⟨rfl, hes.rests hidle hopen rfl rfl rfl⟩
      | false => exact ⟨rfl, hes.rests hidle hopen rfl rfl rfl⟩
    | false =>
      cases hextensions : c.settings.extensions with
      | true => exact ⟨hes.state_eq, hes.rests hidle hopen rfl rfl rfl⟩
      | false => exact ⟨hes.state_eq, hes.rests hidle hopen rfl rfl rfl⟩
  | sender address dsn =>
    refine ends_bind.mpr (ends_bind.mpr ((ends_enter hidle hallowed).mpr ?_))
    refine ends_bind.mpr (ends_get.mpr ?_)
    refine (ends_transact_moveTo _ .mailFromDone hidle).mono ?_ fun _ _ hhalt => hhalt
    intro reply c' hc'
    exact hc'
  | recipient address dsn =>
    refine ends_bind.mpr (ends_bind.mpr ((ends_enter hidle hallowed).mpr ?_))
    refine ends_bind.mpr (ends_get.mpr ?_)
    refine (ends_transact_moveTo _ .rcptToDone hidle).mono ?_ fun _ _ hhalt => hhalt
    intro reply c' hc'
    exact hc'
  | reset =>
    simp only [carryOut, Client.reset, ends_bind]
    refine (ends_enter hidle hallowed).mpr ?_
    refine (connects_askReset.ends_settled hidle).mono ?_ fun _ _ hhalt => hhalt
    intro reply mid hmid
    obtain ⟨⟨es, hes⟩, hopen⟩ := hmid
    exact ⟨rfl, hes.rests hidle hopen rfl rfl rfl⟩
  | sendData sources =>
    simp only [carryOut, Client.sendData, ends_bind]
    refine (ends_enter hidle hallowed).mpr ?_
    refine ((connects_handOver sources).ends_settled hidle).mono ?_ fun _ _ hhalt => hhalt
    intro reply mid hmid
    obtain ⟨⟨es, hes⟩, hopen⟩ := hmid
    exact ⟨hes.state_eq, hes.rests hidle hopen rfl rfl rfl⟩
  | done =>
    simp only [carryOut, Client.done, marked, ends_bind]
    refine (ends_enter hidle hallowed).mpr (ends_get.mpr ?_)
    simp only [ends_modify, ends_pure, ends_ite, ends_bind, ends_attempt]
    cases hlive : c.state.isLive with
    | false => exact ⟨rfl, (Moves.refl c).rests_disconnect⟩
    | true =>
      apply (connects_exchange .quit { c with inFlight := true }).mono
      · intro lines mid hmid
        obtain ⟨⟨es, hes⟩, -⟩ := hmid
        exact ⟨rfl, (hes.unmarked hidle).rests_disconnect⟩
      · intro e mid hmid
        obtain ⟨⟨es, hes⟩, hfatal⟩ := hmid
        have hleft : mid = { { mid with inFlight := false } with inFlight := true } := by
          rw [hes.same]
        cases e with
        | failed fault =>
          cases fault <;> exact ⟨hfatal, _, es, hes.unmarked hidle, rfl⟩
        | abandoned => exact ⟨hfatal, _, es, hes.unmarked hidle, hleft⟩

/-! ## Transitions -/

/-- What breaks a connection leaves the client without it: after a goodbye that was not
cancelled in the state `fresh`, else in the state `bad`. -/
theorem halted_failed (op : Operation) (c : Client) (fault : Fault) :
    (op.halted c (.failed fault)).connection = none ∧
      (op.halted c (.failed fault)).net = c.releasedNet ∧
      (op.halted c (.failed fault)).state =
        if op = .done ∧ fault ≠ .cancelled then .fresh else .bad := by
  cases op with
  | done => cases fault <;> exact ⟨rfl, rfl, rfl⟩
  | _ => exact ⟨rfl, rfl, rfl⟩

/-- A dropped call leaves the client where it was, with its mark. -/
theorem halted_abandoned (op : Operation) (c : Client) :
    op.halted c .abandoned = { c with inFlight := true } := by
  cases op <;> rfl

/-- The transitions of a client that has no dropped call behind it.  An operation that the
state does not allow is refused, and nothing changes.  One that returns was allowed and leads
where its answer says.  Any other failure is one of the connection or a cancellation; it lets
go of the connection and leaves the client bad or, after a goodbye that was not cancelled,
fresh.  A call that is dropped leaves the state as it was, and its mark. -/
theorem carryOut_transitions (op : Operation) (c : Client) (hidle : c.inFlight = false) :
    (op.allows c.state = false →
      op.carryOut c = .error (.failed (.invalidState op.name c.state)) c) ∧
    (∀ answer c', op.carryOut c = .ok answer c' →
      op.allows c.state = true ∧ c'.state = op.next c.state answer) ∧
    (∀ fault c', op.carryOut c = .error (.failed fault) c' → op.allows c.state = true →
      (fault.kind = .transport ∨ fault.kind = .cancelled) ∧ c'.connection = none ∧
        c'.state = if op = .done ∧ fault ≠ .cancelled then .fresh else .bad) ∧
    (∀ c', op.carryOut c = .error .abandoned c' →
      op.allows c.state = true ∧ c'.inFlight = true ∧ c'.state = c.state) := by
  have hrefused : op.allows c.state = false →
      op.carryOut c = .error (.failed (.invalidState op.name c.state)) c := by
    intro hnot
    have h := carryOut_of_not_allows op c
    rw [cleared_of_idle hidle] at h
    exact h hnot
  refine ⟨hrefused, ?_, ?_, ?_⟩
  · intro answer c' hr
    cases hallowed : op.allows c.state with
    | false =>
      rw [hrefused hallowed] at hr
      cases hr
    | true => exact ⟨rfl, ((ends_carryOut hidle hallowed).of_ok hr).1⟩
  · intro fault c' hr hallowed
    obtain ⟨hfatal, mid, es, -, rfl⟩ := (ends_carryOut hidle hallowed).of_error hr
    obtain ⟨hnone, -, hstate⟩ := op.halted_failed mid fault
    refine ⟨?_, hnone, hstate⟩
    cases fault <;> first | exact .inl rfl | exact .inr rfl | cases hfatal
  · intro c' hr
    cases hallowed : op.allows c.state with
    | false =>
      rw [hrefused hallowed] at hr
      cases hr
    | true =>
      obtain ⟨-, mid, es, hes, rfl⟩ := (ends_carryOut hidle hallowed).of_error hr
      rw [halted_abandoned]
      exact ⟨rfl, rfl, hes.state_eq⟩

/-- A connection that is refused leaves a fresh client bad. -/
theorem carryOut_transitions_refused :
    let c := Client.new 1 {} {} {}
    c.inFlight = false ∧ ∃ c', (connect "mx" 25).carryOut c =
      .error (.failed (.network "refused")) c' ∧ c'.connection = none ∧ c'.state = .bad := by
  intro c
  refine ⟨rfl, _, rfl, ?_⟩
  exact ((carryOut_transitions (connect "mx" 25) c rfl).2.2.1 _ _ rfl rfl).2

end Operation

end MailSubmission
