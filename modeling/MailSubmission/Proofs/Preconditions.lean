import MailSubmission.Proofs.Milestones

set_option autoImplicit false

/-!
# Preconditions of a submission

A submission picks its way by the state of the client alone.  A session that stands is gone on
with, a fresh client connects, and in any other state the connection is let go of first.  From
there on every operation is asked for in a state that allows it, so that a submission fails with
its connection or by a cancellation (`Halt.Outward`) and never for want of a precondition.

Only the mark of a call that was dropped can spoil that (`Submitter.Stale`): while the client was
connecting, or between two transactions, the state is one that the submission takes as it is, and
the first operation finds the mark.
-/

namespace MailSubmission

open Run

/-- The failure is that the state did not allow an operation. -/
def SubmitFailure.isPrecondition (f : SubmitFailure) : Bool := f.fault?.any (·.kind == .precondition)

/-- A failure, if it is one, is not for want of a precondition. -/
def Halt.Outward (e : Halt SubmitFailure) : Prop :=
  ∀ failure, e = .failed failure → failure.isPrecondition = false

namespace Submitter

variable {α : Type} {m : Message} {s later : Submitter}

theorem outward_abandoned : Halt.Outward .abandoned := nofun

/-- A fault that breaks the connection is not one of a precondition. -/
theorem outward_failed {e : Halt Fault} (h : e.Fatal) (s : Submitter) : (s.failed e).Outward := by
  cases e with
  | abandoned => exact outward_abandoned
  | failed fault =>
    have hfatal : (fault.kind != .precondition) = true := h
    intro failure heq
    injection heq with hfailure
    subst hfailure
    exact beq_eq_false_iff_ne.mpr (bne_iff_ne.mp hfatal)

/-! ## Operations in their turn -/

/-- The client is idle and in this state. -/
structure Poised (s : Submitter) (state : SessionState) : Prop where
  idle : s.client.inFlight = false
  state : s.client.state = state

/-- The call is an operation of the client, told by its answer. -/
def CarriesOut (act : Run Fault Client α) (op : Operation) (told : α → Answer) : Prop :=
  op.carryOut = (do return told (← act))

/-- An operation that the state allows leads where its answer says, or fails outwardly. -/
theorem ends_onClient_operation {act : Run Fault Client α} (op : Operation) {told : α → Answer}
    {state : SessionState} (hact : CarriesOut act op told) (hpoised : s.Poised state)
    (hallowed : op.allows state = true) :
    Ends (onClient act) s (fun a s' => s'.Poised (op.next state (told a))) (fun e _ => e.Outward) := by
  obtain ⟨hidle, rfl⟩ := hpoised
  have hends := Operation.ends_carryOut hidle hallowed
  rw [hact] at hends
  refine ends_onClient.mpr ((ends_bind.mp hends).mono ?_ ?_)
  · intro a c hc
    exact ⟨hc.2.idle, hc.1⟩
  · intro e c hc
    exact outward_failed hc.1 _

/-! ## One attempt -/

theorem ends_giveMessage_outward (h : s.Poised .rcptToDone) :
    Ends (giveMessage m) s (fun _ _ => True) (fun e _ => e.Outward) := by
  have hsend := ends_onClient_operation (.sendData m.sources) rfl h rfl
  refine ends_bind.mpr (hsend.mono ?_ fun _ _ houtward => houtward)
  intro reply s' _
  refine ends_ite.mpr ?_
  split
  · exact trivial
  · exact trivial

theorem ends_giveRecipient_outward (dsn : Option Dsn) (h : s.Poised .mailFromDone) :
    Ends (giveRecipient m dsn) s (fun _ _ => True) (fun e _ => e.Outward) := by
  have hrecipient := ends_onClient_operation (.recipient m.recipient dsn) rfl h rfl
  refine ends_bind.mpr (hrecipient.mono ?_ fun _ _ houtward => houtward)
  intro reply s' hs'
  refine ends_ite.mpr ?_
  split
  · exact trivial
  · rename_i haccepted
    exact ends_giveMessage_outward ⟨hs'.idle, hs'.state.trans (if_neg haccepted)⟩

theorem ends_giveSender_outward (dsn : Option Dsn) (h : s.Poised .loginComplete) :
    Ends (giveSender m dsn) s (fun _ _ => True) (fun e _ => e.Outward) := by
  have hsender := ends_onClient_operation (.sender m.sender dsn) rfl h rfl
  refine ends_bind.mpr (hsender.mono ?_ fun _ _ houtward => houtward)
  intro reply s' hs'
  refine ends_ite.mpr ?_
  split
  · exact trivial
  · rename_i haccepted
    exact ends_giveRecipient_outward dsn ⟨hs'.idle, hs'.state.trans (if_neg haccepted)⟩

/-- A session that is opened without a refusal stands. -/
theorem ends_openSession_outward (host : String) (port : Nat) (h : s.Poised .fresh) :
    Ends (openSession host port) s (fun refusal s' => refusal = none → s'.Poised .loginComplete)
      (fun e _ => e.Outward) := by
  have hconnect := ends_onClient_operation (.connect host port) rfl h rfl
  refine ends_bind.mpr (hconnect.mono ?_ fun _ _ houtward => houtward)
  intro greeting mid hmid
  have hlogin := ends_onClient_operation .login rfl hmid rfl
  refine ends_bind.mpr (hlogin.mono ?_ fun _ _ houtward => houtward)
  intro replies s' hs'
  refine ends_bind.mpr (ends_get.mpr (ends_ite.mpr ?_))
  split
  · rename_i hstate
    exact fun _ => ⟨hs'.idle, hstate⟩
  · exact nofun

/-- A call was dropped in a state that a submission goes on from. -/
def Stale (s : Submitter) : Prop :=
  s.client.inFlight = true ∧ (s.client.state = .fresh ∨ s.client.state = .loginComplete)

instance (s : Submitter) : Decidable s.Stale := inferInstanceAs (Decidable (_ ∧ _))

/-- Without such a mark the client is poised. -/
theorem poised_of_not_stale (h : ¬ s.Stale) {state : SessionState} (hstate : s.client.state = state)
    (htaken : state = .fresh ∨ state = .loginComplete) : s.Poised state where
  idle := Bool.eq_false_iff.mpr fun hmark => h ⟨hmark, hstate ▸ htaken⟩
  state := hstate

theorem ends_ensureSession_outward (h : ¬ s.Stale) :
    Ends ensureSession s (fun refusal s' => refusal = none → s'.Poised .loginComplete)
      (fun e _ => e.Outward) := by
  rw [ensureSession_eq]
  refine ends_bind.mpr (ends_get.mpr (ends_ite.mpr ?_))
  split
  · rename_i hstate
    exact fun _ => poised_of_not_stale h hstate (.inr rfl)
  · refine ends_ite.mpr ?_
    split
    · have hgone : s.disconnect.Poised .fresh := ⟨rfl, rfl⟩
      exact ends_bind.mpr (ends_modify.mpr (ends_openSession_outward _ _ hgone))
    · rename_i hfresh
      exact ends_openSession_outward _ _ (poised_of_not_stale h (Classical.not_not.mp hfresh) (.inl rfl))

theorem ends_attempt_outward (m : Message) (h : ¬ s.Stale) :
    Ends (attempt m) s (fun _ _ => True) (fun e _ => e.Outward) := by
  refine ends_attempt_iff.mpr ((ends_ensureSession_outward h).mono ?_ fun _ _ houtward => houtward)
  intro refusal mid hmid
  cases refusal with
  | some reply => exact trivial
  | none => exact ends_giveSender_outward _ (hmid rfl)

/-! ## A submission -/

theorem not_stale_of_idle (h : s.client.inFlight = false) : ¬ s.Stale := by
  intro hstale
  rw [hstale.1] at h
  cases h

theorem ends_attempts_outward (m : Message) (left : Nat) (h : ¬ s.Stale) :
    Ends (attempts m left) s (fun _ _ => True) (fun e _ => e.Outward) := by
  refine ends_attempts (fun s => ¬ s.Stale) m left ?_ ?_ h
  · intro s' hs'
    exact ends_attempt_outward m hs'
  · intro s' mid stage reply _ _ _
    apply (ends_pause_disconnected mid).mono
    · intro _ next hnext
      exact not_stale_of_idle hnext.1.idle
    · intro e next hnext
      obtain ⟨-, halt, rfl, hhalt, -⟩ := hnext
      have hfatal : halt.Fatal := by
        rcases hhalt with rfl | rfl
        · exact trivial
        · exact rfl
      exact outward_failed hfatal next

/-- What is done afterwards can only be dropped. -/
theorem ends_finish_outward (s : Submitter) : Ends finish s (fun _ _ => True) (fun e _ => e.Outward) := by
  refine ends_finish_iff.mpr ?_
  split
  · apply (ends_self Client.reset s.client).mono
    · exact fun _ _ _ => trivial
    · intro e c _
      cases e with
      | failed fault => exact trivial
      | abandoned => exact outward_abandoned
  · exact trivial

theorem ends_submit_outward (m : Message) (h : ¬ s.Stale) :
    Ends (submit m) s (fun _ _ => True) (fun e _ => e.Outward) := by
  have hbegun : ¬ Stale { s with submissions := s.submissions + 1 } := h
  refine ends_submit_iff.mpr ((ends_attempts_outward m _ hbegun).mono ?_ ?_)
  · intro reply mid _
    exact ends_finish_outward mid
  · intro e mid houtward
    cases e with
    | abandoned => exact houtward
    | failed failure =>
      dsimp only
      split
      · exact houtward
      · exact (ends_finish_outward mid).mono (fun _ _ _ => houtward) fun _ _ hfinish => hfinish

/-! ## Connecting anew -/

end Submitter

namespace Network

variable {host : String} {port : Nat} {net mid later : Network}

/-- `later` is `net` after something more has happened. -/
def Extends (net later : Network) : Prop := ∃ es : List Entry, later.journal = es.reverse ++ net.journal

/-- The first that was done, apart from letting go of connections, was to ask for one. -/
def AsksFirst (host : String) (port : Nat) (net later : Network) : Prop :=
  ∃ es rest : List Entry, later.journal = (es ++ .dialled host port :: rest).reverse ++ net.journal ∧
    ∀ e ∈ es, ∃ n, e = .released n

theorem Extends.trans (h : net.Extends mid) (g : mid.Extends later) : net.Extends later := by
  obtain ⟨es, hes⟩ := h
  obtain ⟨fs, hfs⟩ := g
  exact ⟨es ++ fs, by rw [hfs, hes, List.reverse_append, List.append_assoc]⟩

theorem Stays.extends (h : net.Stays later) : net.Extends later := by
  obtain ⟨es, hes, -⟩ := h
  exact ⟨es, hes⟩

theorem Dials.extends (h : net.Dials host port later) : net.Extends later := by
  obtain ⟨es, -, hes, -⟩ := h
  exact ⟨es, hes⟩

theorem Asks.asksFirst (h : net.Asks host port later) : net.AsksFirst host port later := by
  obtain ⟨es, -, hes, -⟩ := h
  exact ⟨[], es, hes, by simp⟩

theorem AsksFirst.extends (h : net.AsksFirst host port mid) (g : mid.Extends later) :
    net.AsksFirst host port later := by
  obtain ⟨es, rest, hmid, hreleased⟩ := h
  obtain ⟨fs, hfs⟩ := g
  refine ⟨es, rest ++ fs, ?_, hreleased⟩
  have hall : es ++ .dialled host port :: (rest ++ fs) = (es ++ .dialled host port :: rest) ++ fs := by
    rw [List.append_assoc, List.cons_append]
  rw [hall, List.reverse_append, List.append_assoc, hfs, hmid]

end Network

/-- A client that lets go of its connection and asks for another. -/
theorem Client.asksFirst_of_disconnect {host : String} {port : Nat} {c : Client} {later : Network}
    (h : c.disconnect.net.Asks host port later) : c.net.AsksFirst host port later := by
  obtain ⟨es, -, hes, -⟩ := h
  refine ⟨c.release, es, ?_, ?_⟩
  · rw [hes, (moves_release c rfl rfl : c.Moves c.disconnect _).journal, List.reverse_append,
      List.append_assoc]
  · intro e he
    obtain ⟨n, -, rfl⟩ : ∃ n, c.held = some n ∧ Entry.released n = e := by simpa [release] using he
    exact ⟨n, rfl⟩

namespace Submitter

variable {α : Type} {m : Message} {s mid later : Submitter}

/-- `later` is the submitter `s` after a connection to its host was asked for, before anything else
but that it let go of what it had. -/
def AsksFirst (s later : Submitter) : Prop :=
  s.client.net.AsksFirst s.settings.host s.settings.port later.client.net

theorem AsksFirst.extends (h : s.AsksFirst mid) (g : mid.client.net.Extends later.client.net) :
    s.AsksFirst later := Network.AsksFirst.extends h g

theorem ends_openSession_asks (h : s.Poised .fresh) :
    Ends (openSession s.settings.host s.settings.port) s
      (fun _ s' => s.client.net.Asks s.settings.host s.settings.port s'.client.net)
      (fun _ s' => s.client.net.Asks s.settings.host s.settings.port s'.client.net) := by
  have hconnect := Client.ends_connect_asks s.settings.host s.settings.port s.client
  refine ends_bind.mpr (ends_onClient.mpr (hconnect.mono ?_ ?_))
  · intro greeting c hc
    have hasks := hc.2 h.idle h.state
    exact Ends.mono (lifts_staying.introduce { s with client := c })
      (fun _ _ hstays => hasks.stays hstays.2) fun _ _ hstays => hasks.stays hstays.2
  · intro e c hc
    exact hc.2 h.idle h.state

/-- Where no session stands, one is opened on a new connection first of all. -/
theorem ends_attempt_asksFirst (m : Message) (h : ¬ s.Stale) (hlogin : s.client.state ≠ .loginComplete) :
    Ends (attempt m) s (fun _ => s.AsksFirst) fun _ => s.AsksFirst := by
  have hsession : Ends ensureSession s (fun _ => s.AsksFirst) fun _ => s.AsksFirst := by
    rw [ensureSession_eq]
    refine ends_bind.mpr (ends_get.mpr (ends_ite.mpr ?_))
    rw [if_neg hlogin]
    refine ends_ite.mpr ?_
    split
    · have hgone : s.disconnect.Poised .fresh := ⟨rfl, rfl⟩
      exact ends_bind.mpr (ends_modify.mpr ((ends_openSession_asks hgone).mono
        (fun _ _ hasks => Client.asksFirst_of_disconnect hasks)
        fun _ _ hasks => Client.asksFirst_of_disconnect hasks))
    · rename_i hfresh
      have hpoised := poised_of_not_stale h (Classical.not_not.mp hfresh) (.inl rfl)
      exact (ends_openSession_asks hpoised).mono (fun _ _ hasks => hasks.asksFirst)
        fun _ _ hasks => hasks.asksFirst
  refine ends_attempt_iff.mpr (hsession.mono ?_ fun _ _ hasks => hasks)
  intro refusal mid hasks
  cases refusal with
  | some reply => exact hasks
  | none =>
    exact Ends.mono (lifts_staying.giveSender m mid.settings.dsn mid)
      (fun _ _ hstays => hasks.extends hstays.2.extends) fun _ _ hstays => hasks.extends hstays.2.extends

/-- The pause between two attempts, behind the connection that is let go of. -/
theorem ends_pause_extends (s : Submitter) :
    Ends pause { s with client := s.client.disconnect }
      (fun _ s' => s.client.net.Extends s'.client.net) (fun _ s' => s.client.net.Extends s'.client.net) := by
  apply (ends_pause_disconnected s).mono
  · intro _ s' hs'
    exact ⟨_, hs'.2.2.journal⟩
  · intro e s' hs'
    obtain ⟨-, halt, -, -, hm⟩ := hs'
    exact ⟨_, hm.journal⟩

theorem ends_attempts_extends (m : Message) (left : Nat) (s : Submitter) :
    Ends (attempts m left) s (fun _ s' => s.client.net.Extends s'.client.net)
      (fun _ s' => s.client.net.Extends s'.client.net) := by
  have hattempt : ∀ t : Submitter, s.client.net.Extends t.client.net → Ends (attempt m) t
      (fun _ s' => s.client.net.Extends s'.client.net) (fun _ s' => s.client.net.Extends s'.client.net) := by
    intro t ht
    exact (ends_attempt_passes m t).mono (fun _ _ hpasses => ht.trans hpasses.dials.extends)
      fun _ _ hpasses => ht.trans hpasses.dials.extends
  refine ends_attempts (fun t => s.client.net.Extends t.client.net) m left hattempt ?_ ⟨[], rfl⟩
  intro t mid stage reply ht hr _
  have hmid : s.client.net.Extends mid.client.net := (hattempt t ht).of_ok hr
  exact (ends_pause_extends mid).mono (fun _ _ hnext => hmid.trans hnext)
    fun _ _ hnext => hmid.trans hnext

theorem ends_attempts_asksFirst (m : Message) (left : Nat) (h : ¬ s.Stale)
    (hlogin : s.client.state ≠ .loginComplete) :
    Ends (attempts m left) s (fun _ => s.AsksFirst) fun _ => s.AsksFirst := by
  have hfirst := ends_attempt_asksFirst m h hlogin
  cases left with
  | zero => exact ends_attempts_zero.mpr hfirst
  | succ left =>
    refine ends_attempts_succ.mpr (hfirst.mono ?_ fun _ _ hasks => hasks)
    intro a mid hasks
    split
    · apply (ends_pause_extends mid).mono
      · intro _ next hnext
        have hgoes := hasks.extends hnext
        exact (ends_attempts_extends m left next).mono (fun _ _ hlater => hgoes.extends hlater)
          fun _ _ hlater => hgoes.extends hlater
      · intro e next hnext
        exact hasks.extends hnext
    · exact hasks

theorem ends_submit_asksFirst (m : Message) (h : ¬ s.Stale) (hlogin : s.client.state ≠ .loginComplete) :
    Ends (submit m) s (fun _ => s.AsksFirst) fun _ => s.AsksFirst := by
  have hbegun : ¬ Stale { s with submissions := s.submissions + 1 } := h
  have hfinish : ∀ mid, s.AsksFirst mid →
      Ends finish mid (fun _ => s.AsksFirst) fun _ => s.AsksFirst := by
    intro mid hasks
    exact (ends_finish_stays mid).mono (fun _ _ hstays => hasks.extends hstays.extends)
      fun _ _ hstays => hasks.extends hstays.extends
  refine ends_submit_iff.mpr ((ends_attempts_asksFirst m _ hbegun hlogin).mono ?_ ?_)
  · intro reply mid hasks
    exact hfinish mid hasks
  · intro e mid hasks
    cases e with
    | abandoned => exact hasks
    | failed failure =>
      dsimp only
      split
      · exact hasks
      · exact hfinish mid hasks

/-! ## A mark that the state does not tell of -/

/-- The operation that finds the mark. -/
def firstOperation (m : Message) (s : Submitter) : Operation :=
  if s.client.state = .fresh then .connect s.settings.host s.settings.port
  else .sender m.sender s.settings.dsn

/-- What a submission fails with that finds a dropped call. -/
def staleFailure (m : Message) (s : Submitter) : SubmitFailure :=
  .client s.client.name s.client.lastReply (.invalidState (s.firstOperation m).name .bad)

/-- Asked for an operation, a client with the mark fails and lets go of its connection. -/
theorem ends_onClient_of_inFlight {act : Run Fault Client α} (op : Operation) {told : α → Answer}
    (hact : CarriesOut act op told) (hmark : s.client.inFlight = true) :
    Ends (onClient act) s (fun _ _ => False) (fun e s' => s' = { s with client := s.client.abandon } ∧
      e = .failed (.client s.client.name s.client.lastReply (.invalidState op.name .bad))) := by
  have hcleared : s.client.cleared = s.client.abandon := by
    unfold Client.cleared
    rw [if_pos hmark]
  have hends : Ends op.carryOut s.client (fun _ _ => False)
      (fun e c => e = .failed (.invalidState op.name .bad) ∧ c = s.client.abandon) := by
    unfold Ends
    rw [Client.IsBad.carryOut (.inr hmark) op, hcleared]
    exact ⟨rfl, rfl⟩
  rw [hact] at hends
  refine ends_onClient.mpr ((ends_bind.mp hends).mono (fun _ _ hnever => hnever) ?_)
  rintro e c ⟨rfl, rfl⟩
  exact ⟨rfl, rfl⟩

theorem ends_attempt_stale (m : Message) (h : s.Stale) :
    Ends (attempt m) s (fun _ _ => False)
      (fun e s' => s' = { s with client := s.client.abandon } ∧ e = .failed (s.staleFailure m)) := by
  obtain ⟨hmark, hstate⟩ := h
  unfold staleFailure firstOperation
  refine ends_attempt_iff.mpr ?_
  by_cases hfresh : s.client.state = .fresh
  · rw [if_pos hfresh, ensureSession_eq]
    refine ends_bind.mpr (ends_get.mpr (ends_ite.mpr ?_))
    rw [if_neg (by simp [hfresh])]
    refine ends_ite.mpr ?_
    rw [if_neg (by simp [hfresh])]
    have hconnect := ends_onClient_of_inFlight (.connect s.settings.host s.settings.port) rfl hmark
    exact ends_bind.mpr (hconnect.mono (fun _ _ hnever => hnever.elim) fun _ _ hrefused => hrefused)
  · rw [if_neg hfresh]
    unfold Ends
    rw [ensureSession_of_loginComplete (hstate.resolve_left hfresh)]
    have hsender := ends_onClient_of_inFlight (.sender m.sender s.settings.dsn) rfl hmark
    have hgive : Ends (giveSender m s.settings.dsn) s (fun _ _ => False) _ :=
      ends_bind.mpr (hsender.mono (fun _ _ hnever => hnever.elim) fun _ _ hrefused => hrefused)
    exact hgive

/-- Nothing comes of a submission on a client with such a mark, but that it is cleared up. -/
theorem ends_submit_stale (m : Message) (h : s.Stale) :
    Ends (submit m) s (fun _ _ => False) (fun e s' => e = .failed (s.staleFailure m) ∧
      s' = { s with
        client := s.client.abandon.disconnect, streamSent := 0, submissions := s.submissions + 1 }) := by
  let begun : Submitter := { s with submissions := s.submissions + 1 }
  have hattempt := ends_attempt_stale (s := begun) m h
  have hattempts : ∀ left, Ends (attempts m left) begun (fun _ _ => False) (fun e s' =>
      s' = { begun with client := s.client.abandon } ∧ e = .failed (s.staleFailure m)) := by
    intro left
    cases left with
    | zero => exact ends_attempts_zero.mpr hattempt
    | succ left =>
      exact ends_attempts_succ.mpr
        (hattempt.mono (fun _ _ hnever => hnever.elim) fun _ _ hrefused => hrefused)
  refine ends_submit_iff.mpr ((hattempts _).mono (fun _ _ hnever => hnever.elim) ?_)
  rintro e mid ⟨rfl, rfl⟩
  have hover : SessionState.inSession s.client.abandon.state = false := rfl
  exact (ends_finish_of_not_inSession hover).mpr ⟨rfl, rfl⟩

/-! ## When a submission fails for want of a precondition -/

/-- For every submitter and every message handed in on it.  Unless a call was dropped in a state
that a submission goes on from, the submission never fails for want of a precondition, and where no
session stands it asks for a new connection first of all.  If a call was dropped in such a state,
the submission fails for want of a precondition and does nothing but let go of the connection; what
it leaves is as new. -/
theorem submission_fails_on_precondition_iff_stale (m : Message) (s : Submitter) :
    (¬ s.Stale →
      (∀ failure later, submit m s = .error (.failed failure) later → failure.isPrecondition = false) ∧
      (s.client.state ≠ .loginComplete → s.AsksFirst ((Call.submit m).after s))) ∧
    (s.Stale → (s.staleFailure m).isPrecondition = true ∧
      ∃ later, submit m s = .error (.failed (s.staleFailure m)) later ∧ later.client.Vacant ∧
        later.streamSent = 0 ∧ later.client.net = s.client.releasedNet) := by
  refine ⟨fun hnot => ⟨?_, fun hlogin => ?_⟩, fun hstale => ⟨rfl, ?_⟩⟩
  · intro failure later hr
    exact (ends_submit_outward m hnot).of_error hr failure rfl
  · have hasks : Ends (Call.submit m).carryOut s (fun _ => s.AsksFirst) fun _ => s.AsksFirst :=
      ends_bind.mpr (ends_submit_asksFirst m hnot hlogin)
    exact Call.after_of_ends hasks
  · have hsubmit := ends_submit_stale m hstale
    cases hr : submit m s with
    | ok reply later => exact (hsubmit.of_ok hr).elim
    | error e later =>
      obtain ⟨rfl, rfl⟩ := hsubmit.of_error hr
      exact ⟨_, rfl, ⟨rfl, rfl, rfl⟩, rfl, rfl⟩

/-- A network whose first server falls silent when it is told the sender, and whose second one
takes a message.  The first call is dropped meanwhile. -/
def silentThenTaking : Network :=
  { sockets := (serverSending ["220 mx", "250 mx"] [.hang]).sockets ++ (serverSending takingLines []).sockets,
    deadline := some 500 }

/-- A submitter that will wait for the first one. -/
def beforeDrop : Submitter := { client := .new 1 {} {} silentThenTaking }

theorem new_beforeDrop : Submitter.new 1 {} {} silentThenTaking = .ok beforeDrop := rfl

/-- What its first call leaves, and the caller does not mean to drop the next one. -/
def afterDrop : Submitter :=
  let dropped := (Call.submit shortMessage).after beforeDrop
  { dropped with client := { dropped.client with net := { dropped.client.net with deadline := none } } }

theorem runs_afterDrop : Runs beforeDrop [.submit shortMessage] afterDrop := by
  have hwait : ((Call.submit shortMessage).after beforeDrop).client.Meanwhile afterDrop.client :=
    ⟨rfl, rfl, rfl, rfl, Nat.le_refl _, fun _ h => h⟩
  exact .call (.meanwhile hwait (.nil afterDrop))

theorem stale_afterDrop : afterDrop.Stale := by decide +kernel

theorem submission_fails_on_precondition_iff_stale_afterDrop :
    (¬ beforeDrop.Stale ∧ beforeDrop.AsksFirst ((Call.submit shortMessage).after beforeDrop)) ∧
    afterDrop.Stale ∧ (afterDrop.staleFailure shortMessage).isPrecondition = true ∧
      ∃ later,
        submit shortMessage afterDrop = .error (.failed (afterDrop.staleFailure shortMessage)) later ∧
        later.client.Vacant ∧ later.streamSent = 0 ∧ later.client.net = afterDrop.client.releasedNet := by
  have hnot : ¬ beforeDrop.Stale := by decide
  have hbefore := (submission_fails_on_precondition_iff_stale shortMessage beforeDrop).1 hnot
  exact ⟨⟨hnot, hbefore.2 nofun⟩, stale_afterDrop,
    (submission_fails_on_precondition_iff_stale shortMessage afterDrop).2 stale_afterDrop⟩

/-- So a submission on a submitter that anyone may have can fail for want of a precondition. -/
theorem submission_may_fail_on_precondition :
    ¬ ∀ (id : Nat) (settings : SubmitSettings) (token : Token) (net : Network) (s₀ s later : Submitter)
        (calls : List Call) (m : Message) (failure : SubmitFailure),
      Submitter.new id settings token net = .ok s₀ → Runs s₀ calls s →
        submit m s = .error (.failed failure) later → failure.isPrecondition = false := by
  intro hnever
  cases hr : submit shortMessage afterDrop with
  | ok reply later => exact (ends_submit_stale shortMessage stale_afterDrop).of_ok hr
  | error e later =>
    obtain ⟨rfl, -⟩ := (ends_submit_stale shortMessage stale_afterDrop).of_error hr
    have hnot := hnever _ _ _ _ _ _ _ _ _ _ new_beforeDrop runs_afterDrop hr
    cases hnot

end Submitter

end MailSubmission
