import MailSubmission.Proofs.Interruptions
import MailSubmission.Proofs.Verdict

set_option autoImplicit false

/-!
# Cancellation of a submission

The attempts of a submission heed interruptions: a wait or a pause that is cut off by the token
ends the submission with a cancellation.  What is done after the attempts catches every failure,
so an interruption of the closing reset is lost.

A cancelled submission leaves no connection.  The client is bad, unless the pause before another
attempt was cut off, for which it had been made fresh.
-/

namespace MailSubmission

open Run

namespace Submitter

variable {α : Type} {m : Message} {n : Nat} {s later : Submitter}

/-! ## Attempts heed interruptions -/

/-- How many waits have been cut off by a cancellation. -/
def interruptions (s : Submitter) : Nat := s.client.net.interruptions

/-- How many cancellations a call ends with: one or none. -/
def cancellations : Halt SubmitFailure → Nat
  | .failed failure => if failure.isCancelled then 1 else 0
  | .abandoned => 0

/-- The call heeds interruptions. -/
abbrev Heeds (act : Run SubmitFailure Submitter α) (s : Submitter) : Prop :=
  Run.Heeds interruptions cancellations act s

/-- A failure is a cancellation as the client's fault is one. -/
theorem cancellations_failed (s : Submitter) (e : Halt Fault) :
    cancellations (s.failed e) = e.cancellations := by
  cases e with
  | failed fault => cases fault <;> rfl
  | abandoned => rfl

theorem cancellations_ne_zero_iff {e : Halt SubmitFailure} :
    cancellations e ≠ 0 ↔ ∃ failure, e = .failed failure ∧ failure.isCancelled = true := by
  constructor
  · intro hne
    cases e with
    | abandoned => exact absurd rfl hne
    | failed failure => exact ⟨failure, rfl, Classical.byContradiction fun hnot => hne (if_neg hnot)⟩
  · intro h
    obtain ⟨failure, rfl, hcancelled⟩ := h
    have hone : cancellations (.failed failure) = 1 := if_pos hcancelled
    rw [hone]
    exact Nat.one_ne_zero

/-- The submitter's network is interrupted as often as a call on it ends with a cancellation. -/
def heeding : Account SubmitFailure Submitter := .counting interruptions cancellations

theorem lifts_heeding : Network.heeding.Lifts heeding where
  covers := Network.covers_heeding
  returns h := h
  halts {e s c} h :=
    Eq.trans h (congrArg (s.interruptions + ·) (cancellations_failed { s with client := c } e).symm)

theorem heeds_openSession (host : String) (port : Nat) (s : Submitter) :
    Heeds (openSession host port) s :=
  (lifts_heeding.onClient (Client.heeds_connect host port) s).bind fun _ s' =>
    lifts_heeding.introduce s'

theorem heeds_ensureSession (s : Submitter) : Heeds ensureSession s := by
  rw [ensureSession_eq]
  refine Run.Heeds.bind (heeds_get s) fun s₀ s' => ends_ite.mpr ?_
  split
  · rfl
  · refine ends_ite.mpr ?_
    split
    · refine Run.Heeds.bind (heeds_modify ?_) fun _ s'' => heeds_openSession _ _ s''
      exact Client.interruptions_releasedNet s'.client
    · exact heeds_openSession _ _ s'

theorem heeds_attempt (m : Message) (s : Submitter) : Heeds (attempt m) s := by
  refine ends_attempt_iff.mpr (Ends.mono (heeds_ensureSession s) ?_ fun _ _ hs' => hs')
  intro refusal mid hmid
  cases refusal with
  | some reply => exact hmid
  | none => exact (lifts_heeding.giveSender m mid.settings.dsn mid).since hmid

theorem heeds_pause (s : Submitter) : Heeds pause s := by
  apply (ends_pause s).mono
  · intro _ s' hs'
    obtain ⟨net, rfl, hw⟩ := hs'
    exact hw.interruptions_eq
  · intro e s' hs'
    obtain ⟨net, halt, rfl, rfl, -, hw⟩ := hs'
    rw [cancellations_failed, ← halt.count_trace]
    exact hw.interruptions_eq

theorem heeds_attempts (m : Message) (left : Nat) (s : Submitter) : Heeds (attempts m left) s := by
  refine ends_attempts (fun s' => s'.interruptions = s.interruptions) m left ?_ ?_ rfl
  · intro s' hs'
    exact (heeds_attempt m s').since hs'
  · intro s' mid stage reply hs' hr _
    have hmid : mid.interruptions = s'.interruptions := (heeds_attempt m s').of_ok hr
    have hdisconnected : interruptions { mid with client := mid.client.disconnect } = s.interruptions :=
      (Client.interruptions_releasedNet mid.client).trans (hmid.trans hs')
    exact (heeds_pause { mid with client := mid.client.disconnect }).since hdisconnected

/-! ## The closing reset -/

/-- In `es` a wait was cut off, and that came only when the attempts were over and a reset was
being asked for.  The connection is gone. -/
def LostInReset (es : List Entry) (later : Submitter) : Prop :=
  later.client.Vacant ∧ ∃ early late n rs lines, es = early ++ late ∧ .interrupted ∉ early ∧
    Spoken n late rs ∧ .said .rset ∈ rs ∧ rs <+: Command.rset.answered lines

/-- What follows the attempts loses an interruption of the reset, and else heeds interruptions. -/
theorem ends_finish_interruptions (s : Submitter)
    (hsession : s.client.state.inSession = true → s.client.Holds n) :
    Ends finish s
      (fun _ s' => s'.interruptions = s.interruptions ∨ s'.client.Vacant ∧
        ∃ rs lines, s.client.Speaks n s'.client rs ∧ .said .rset ∈ rs ∧
          rs <+: Command.rset.answered lines)
      (fun e s' => e = .abandoned ∧ s'.interruptions = s.interruptions) := by
  refine ends_finish_iff.mpr ?_
  split
  · rename_i hkeeps
    have hfits : s.client.state.inSession = true := (Bool.and_eq_true_iff.mp hkeeps).2
    apply ((Client.ends_reset (hsession hfits) hfits).and (Client.heeds_reset s.client)).mono
    · intro reply c hc
      exact .inl hc.2
    · intro e c hc
      obtain ⟨⟨rs, lines, hspeaks, -, hmem, hcut⟩, hheeds⟩ := hc
      cases e with
      | failed fault =>
        have hgone := hspeaks.trans (speaks_disconnect n c)
        rw [List.append_nil] at hgone
        exact .inr ⟨vacant_disconnect c, rs, lines, hgone, hmem, hcut⟩
      | abandoned => exact ⟨rfl, hheeds⟩
  · exact .inl (Client.interruptions_releasedNet s.client)

/-- What the journal has gained tells how many waits were cut off. -/
theorem mem_interrupted_iff {es : List Entry}
    (hjournal : later.client.net.journal = es.reverse ++ s.client.net.journal) :
    .interrupted ∈ es ↔ later.interruptions ≠ s.interruptions := by
  have hcount : later.interruptions = es.count .interrupted + s.interruptions := by
    unfold interruptions Network.interruptions
    rw [hjournal, List.count_append, List.count_reverse]
  rw [hcount, ← List.count_pos_iff]
  omega

/-- What has happened since `before` up to `s`, where a call came to a halt, tells of an
interruption just if that was by a cancellation. -/
def Heeded (before : Submitter) (e : Halt SubmitFailure) (s : Submitter) : Prop :=
  ∃ es : List Entry, s.client.net.journal = es.reverse ++ before.client.net.journal ∧
    (.interrupted ∈ es ↔ cancellations e ≠ 0)

theorem heeded_of_interruptions {e : Halt SubmitFailure} {es : List Entry}
    (hjournal : later.client.net.journal = es.reverse ++ s.client.net.journal)
    (hheeds : later.interruptions = s.interruptions + cancellations e) : Heeded s e later := by
  refine ⟨es, hjournal, ?_⟩
  rw [mem_interrupted_iff hjournal, hheeds]
  omega

/-- Letting go of the connection interrupts nothing. -/
theorem Heeded.disconnect {before : Submitter} {e : Halt SubmitFailure} (h : Heeded before e s) :
    Heeded before e s.disconnect := by
  obtain ⟨es, hjournal, hiff⟩ := h
  have hm : s.client.Moves s.disconnect.client s.client.release :=
    Client.moves_release s.client rfl rfl
  have hlater := hm.journal_append hjournal
  have hsame : s.disconnect.interruptions = s.interruptions :=
    Client.interruptions_releasedNet s.client
  refine ⟨_, hlater, ?_⟩
  rw [mem_interrupted_iff hlater, hsame, ← mem_interrupted_iff hjournal]
  exact hiff

/-- A submission that does not return a cancellation was interrupted, if at all, in its closing
reset. -/
theorem ends_submit_interruptions (m : Message) (hready : s.Ready) :
    Ends (submit m) s
      (fun _ s' => ∃ es : List Entry, s'.client.net.journal = es.reverse ++ s.client.net.journal ∧
        (.interrupted ∈ es → LostInReset es s'))
      (Heeded s) := by
  let begun : Submitter := { s with submissions := s.submissions + 1 }
  have hstart : Searching s.client.net.journal begun := ⟨hready, [], rfl, bodiless_nil⟩
  have hattempts := (hstart.attempts m (retries s.settings)).and (heeds_attempts m _ begun)
  refine ends_submit (hattempts.mono (fun _ _ htried => htried) ?_) ?_ ?_
  · intro e mid hmid
    obtain ⟨⟨⟨early, last, n, rs, hjournal, -⟩, hover⟩, hheeds⟩ := hmid
    exact ⟨heeded_of_interruptions hjournal hheeds, hover⟩
  · intro reply mid hmid
    obtain ⟨⟨early, last, n, rs, hjournal, -, -, hholds, -⟩, hheeds⟩ := hmid
    have hquiet : .interrupted ∉ early ++ last := fun hmem =>
      (mem_interrupted_iff hjournal).mp hmem hheeds
    refine ((ends_finish mid fun _ => hholds).and
      (ends_finish_interruptions mid fun _ => hholds)).mono ?_ ?_
    · intro _ s' hs'
      obtain ⟨⟨rs', hc, -⟩, hclosing⟩ := hs'
      rcases hclosing with hsame | ⟨hvacant, rs', lines, ⟨late, hm, hspoken⟩, hmem, hcut⟩
      · obtain ⟨late, hm, -⟩ := hc.speaks
        have hlater := hm.journal_append hjournal
        refine ⟨_, hlater, fun hmem => ?_⟩
        exact absurd (hsame.trans hheeds) ((mem_interrupted_iff hlater).mp hmem)
      · exact ⟨_, hm.journal_append hjournal, fun _ =>
          ⟨hvacant, _, late, n, rs', lines, rfl, hquiet, hspoken, hmem, hcut⟩⟩
    · intro e s' hs'
      obtain ⟨⟨rfl, -, rs', hc⟩, -, hsame⟩ := hs'
      obtain ⟨late, hm, -⟩ := hc.speaks
      exact heeded_of_interruptions (hm.journal_append hjournal) (hsame.trans hheeds)
  · intro failure mid _ hheeded
    exact hheeded.disconnect

/-- For every submitter there can be, and every message handed in on it, measured or not: if a
wait or a pause in the call was cut off by the token, then the call returns a cancellation, or
else it was only when the attempts were over, while the closing reset was being asked for.  Then
the call returns as if nothing had happened, and the connection is gone.  A call that returns a
cancellation was interrupted. -/
theorem interruption_lost_only_in_closing_reset {id : Nat} {settings : SubmitSettings}
    {token : Token} {net : Network} {s₀ : Submitter} {calls : List Call}
    (hnew : Submitter.new id settings token net = .ok s₀) (hruns : Runs s₀ calls s) (m : Message) :
    ∃ es : List Entry,
      ((Call.submit m).after s).client.net.journal = es.reverse ++ s.client.net.journal ∧
      (.interrupted ∈ es →
        (∃ failure, failure.isCancelled = true ∧
          submit m s = .error (.failed failure) ((Call.submit m).after s) ∧
          measuredSubmit m s = .error (.failed failure) ((Call.submit m).after s)) ∨
        (∃ reply outcome, submit m s = .ok reply ((Call.submit m).after s) ∧
          measuredSubmit m s = .ok outcome ((Call.submit m).after s) ∧
          LostInReset es ((Call.submit m).after s))) ∧
      ∀ failure later, submit m s = .error (.failed failure) later → failure.isCancelled = true →
        .interrupted ∈ es := by
  have hends := ends_submit_interruptions m (hruns.ready hnew)
  have hmeasured := measuredSubmit_apply m s
  cases hr : submit m s with
  | ok reply later =>
    rw [hr] at hmeasured
    have hafter : (Call.submit m).after s = later := Call.after_of_ok (bind_of_ok hr)
    rw [hafter]
    obtain ⟨es, hjournal, hlost⟩ := hends.of_ok hr
    refine ⟨es, hjournal, fun hmem => .inr ⟨reply, _, rfl, hmeasured, hlost hmem⟩, ?_⟩
    intro failure later' heq
    cases heq
  | error e later =>
    rw [hr] at hmeasured
    have hafter : (Call.submit m).after s = later := Call.after_of_error (bind_of_error hr)
    rw [hafter]
    obtain ⟨es, hjournal, hiff⟩ := hends.of_error hr
    refine ⟨es, hjournal, fun hmem => .inl ?_, ?_⟩
    · obtain ⟨failure, rfl, hcancelled⟩ := cancellations_ne_zero_iff.mp (hiff.mp hmem)
      refine ⟨failure, hcancelled, rfl, hmeasured.trans ?_⟩
      dsimp only
      rw [if_pos hcancelled]
    · intro failure later' heq hcancelled
      cases heq
      exact hiff.mpr (cancellations_ne_zero_iff.mpr ⟨failure, rfl, hcancelled⟩)

/-- The server takes a message, and while the closing reset is being asked for, the token fires. -/
def cancelledInReset : Submitter :=
  { settings := { streaming := true },
    client := .new 1 {} {} (serverSending takingLines [.cancel, .hang]) }

theorem new_cancelledInReset :
    Submitter.new 1 { streaming := true } {} (serverSending takingLines [.cancel, .hang]) =
      .ok cancelledInReset := rfl

theorem submit_cancelledInReset : ∃ reply later,
    submit shortMessage cancelledInReset = .ok reply later ∧
      .interrupted ∈ later.client.net.journal := by
  have hreturns : (match submit shortMessage cancelledInReset with
      | .ok _ later => later.client.net.journal.contains .interrupted
      | .error _ _ => false) = true := by decide +kernel
  split at hreturns
  · rename_i reply later hr
    exact ⟨reply, later, hr, List.contains_iff_mem.mp hreturns⟩
  · cases hreturns

theorem interruption_lost_only_in_closing_reset_taken :
    ∃ reply later, submit shortMessage cancelledInReset = .ok reply later ∧
      ∃ es : List Entry, later.client.net.journal = es.reverse ∧ .interrupted ∈ es ∧
        LostInReset es later := by
  obtain ⟨reply, later, hr, hmem⟩ := submit_cancelledInReset
  have hafter : (Call.submit shortMessage).after cancelledInReset = later :=
    Call.after_of_ok (bind_of_ok hr)
  obtain ⟨es, hjournal, hlost, -⟩ := interruption_lost_only_in_closing_reset new_cancelledInReset
    (.nil cancelledInReset) shortMessage
  rw [hafter] at hjournal hlost
  have hjournal : later.client.net.journal = es.reverse := hjournal.trans (List.append_nil _)
  have hmem : .interrupted ∈ es := List.mem_reverse.mp (hjournal ▸ hmem)
  rcases hlost hmem with ⟨failure, -, hfailed, -⟩ | ⟨_, _, -, -, hlost⟩
  · rw [hr] at hfailed
    cases hfailed
  · exact ⟨reply, later, hr, es, hjournal, hmem, hlost⟩

/-- So a submission that returns a reply may have been interrupted. -/
theorem interruption_not_always_returned :
    ¬ ∀ (settings : SubmitSettings) (token : Token) (net : Network) (s later : Submitter)
        (m : Message) (reply : Reply),
      Submitter.new 1 settings token net = .ok s → submit m s = .ok reply later →
        ∃ es : List Entry, later.client.net.journal = es.reverse ++ net.journal ∧
          .interrupted ∉ es := by
  intro hreturned
  obtain ⟨reply, later, hr, hmem⟩ := submit_cancelledInReset
  obtain ⟨es, hjournal, hquiet⟩ :=
    hreturned _ _ _ cancelledInReset later shortMessage reply new_cancelledInReset hr
  have hjournal : later.client.net.journal = es.reverse := hjournal.trans (List.append_nil _)
  exact hquiet (List.mem_reverse.mp (hjournal ▸ hmem))

/-! ## What a cancelled submission leaves -/

/-- The last that happened was that the connection was let go of and a pause was cut off, and
the client is as new. -/
def LeftInPause (s : Submitter) : Prop :=
  s.client.state = .fresh ∧ ∃ n es, s.client.net.journal = .interrupted :: .released n :: es

/-- The client is bad.  Where there is another attempt `left`, the pause before it may have been
cut off instead.  In no case is there a connection. -/
structure CutOff (left : Nat) (s : Submitter) : Prop where
  connection : s.client.connection = none
  idle : s.client.inFlight = false
  state : s.client.state = .bad ∨ 0 < left ∧ s.LeftInPause

theorem Broken.cutOff {e : Halt SubmitFailure} (h : s.Broken e) (left : Nat) :
    e = .abandoned ∨ CutOff left s := by
  obtain ⟨halt, rfl, hbroken⟩ := h
  cases halt with
  | failed fault => exact .inr ⟨hbroken.1, hbroken.2.2, .inl hbroken.2.1⟩
  | abandoned => exact .inl rfl

theorem CutOff.inSession {left : Nat} (h : CutOff left s) : s.client.state.inSession = false := by
  rcases h.state with hbad | ⟨-, hfresh, -⟩
  · rw [hbad]
    rfl
  · rw [hfresh]
    rfl

/-- A failure of an attempt leaves a bad client. -/
theorem ends_attempt_cutOff (m : Message) (left : Nat) (hready : s.Ready) :
    Ends (attempt m) s (fun _ s' => ∃ n, s'.client.Holds n)
      (fun e s' => e = .abandoned ∨ CutOff left s') := by
  apply (ends_attempt_said m s hready).mono
  · intro a s' hs'
    obtain ⟨n, rs, -, hholds, -⟩ := hs'
    exact ⟨n, hholds⟩
  · intro e s' hs'
    obtain ⟨n, rs, -, hbroken, -⟩ := hs'
    exact hbroken.cutOff left

/-- A pause that is cut off leaves the client as new, without the connection of the attempt
before. -/
theorem ends_pause_cutOff {left : Nat} (hleft : 0 < left) (hholds : s.client.Holds n) :
    Ends pause { s with client := s.client.disconnect } (fun _ next => next.Ready)
      (fun e s' => e = .abandoned ∨ CutOff left s') := by
  apply (ends_pause_disconnected s).mono
  · intro _ next hnext hidle hstate
    rw [hnext.1.state] at hstate
    cases hstate
  · intro e s' hs'
    obtain ⟨hvacant, halt, rfl, hhalt, hm⟩ := hs'
    rcases hhalt with rfl | rfl
    · exact .inl rfl
    · rw [hholds.release] at hm
      exact .inr ⟨hvacant.connection, hvacant.idle, .inr ⟨hleft, hvacant.state, n, _, hm.journal⟩⟩

theorem ends_attempts_cutOff (m : Message) (left : Nat) (hready : s.Ready) :
    Ends (attempts m left) s (fun _ s' => ∃ n, s'.client.Holds n)
      (fun e s' => e = .abandoned ∨ CutOff left s') := by
  cases left with
  | zero => exact ends_bind.mpr (ends_attempt_cutOff m 0 hready)
  | succ left =>
    refine ends_attempts Ready m (left + 1) ?_ ?_ hready
    · intro s' hs'
      exact ends_attempt_cutOff m (left + 1) hs'
    · intro s' mid stage reply hs' hr _
      obtain ⟨n, hholds⟩ := (ends_attempt_cutOff m (left + 1) hs').of_ok hr
      exact ends_pause_cutOff (Nat.succ_pos left) hholds

theorem ends_submit_cutOff (m : Message) (hready : s.Ready) :
    Ends (submit m) s (fun _ _ => True)
      (fun e s' => cancellations e ≠ 0 → CutOff (retries s.settings) s') := by
  have hattempts := ends_attempts_cutOff m (retries s.settings)
    (s := { s with submissions := s.submissions + 1 }) hready
  refine ends_submit (hattempts.mono (fun _ _ hholds => hholds) ?_) ?_ ?_
  · intro e mid hmid
    refine ⟨fun hcancelled => hmid.resolve_left ?_, fun hfailed => (hmid.resolve_left hfailed).inSession⟩
    rintro rfl
    exact hcancelled rfl
  · intro reply mid hmid
    obtain ⟨n, hholds⟩ := hmid
    apply (ends_finish mid fun _ => hholds).mono
    · intro _ s' _
      trivial
    · intro e s' hs' hcancelled
      obtain ⟨rfl, -⟩ := hs'
      exact absurd rfl hcancelled
  · intro failure mid hnot _ hcancelled
    exact absurd (if_neg (Bool.eq_false_iff.mp hnot)) hcancelled

/-- For every submitter there can be, and every message handed in on it, measured or not: if the
call returns a cancellation, then the client has no connection.  It is bad, unless there were
attempts left and the pause before one was cut off: for that pause the connection of a refused
attempt had been let go of, and the client is as new. -/
theorem cancelled_submission_leaves_no_connection {id : Nat} {settings : SubmitSettings}
    {token : Token} {net : Network} {s₀ : Submitter} {calls : List Call} {failure : SubmitFailure}
    (hnew : Submitter.new id settings token net = .ok s₀) (hruns : Runs s₀ calls s)
    (hcancelled : failure.isCancelled = true)
    (hr : submit m s = .error (.failed failure) later ∨
      measuredSubmit m s = .error (.failed failure) later) :
    later.client.connection = none ∧ later.client.inFlight = false ∧
      (later.client.state = .bad ∨ 0 < retries s.settings ∧ later.LeftInPause) := by
  have hsubmit : submit m s = .error (.failed failure) later :=
    hr.elim (fun h => h) fun h => (measuredSubmit_eq_error_iff.mp h).1
  have hne : cancellations (.failed failure) ≠ 0 :=
    cancellations_ne_zero_iff.mpr ⟨failure, rfl, hcancelled⟩
  have hleft : CutOff (retries s.settings) later :=
    (ends_submit_cutOff m (hruns.ready hnew)).of_error hsubmit hne
  exact ⟨hleft.connection, hleft.idle, hleft.state⟩

/-- A server refuses the login, and half a second later the token fires. -/
def refusingServer : Network :=
  { serverSending ["220 mx", "550 no"] [] with alarms := [{ time := 500, canceller := {} }] }

/-- The token fires in the pause before the next attempt. -/
def cancelledInPause : Submitter := { client := .new 1 {} {} refusingServer }

theorem new_cancelledInPause : Submitter.new 1 {} {} refusingServer = .ok cancelledInPause := rfl

theorem submit_cancelledInPause : ∃ failure later, failure.isCancelled = true ∧
    submit shortMessage cancelledInPause = .error (.failed failure) later ∧
      later.client.state = .fresh := by
  have hreturns : (match submit shortMessage cancelledInPause with
      | .ok _ _ => false
      | .error .abandoned _ => false
      | .error (.failed failure) later =>
        failure.isCancelled && (later.client.state == .fresh)) = true := by decide +kernel
  split at hreturns
  · cases hreturns
  · cases hreturns
  · rename_i failure later hr
    rw [Bool.and_eq_true, beq_iff_eq] at hreturns
    exact ⟨failure, later, hreturns.1, hr, hreturns.2⟩

theorem cancelled_submission_leaves_no_connection_fresh :
    ∃ failure later, failure.isCancelled = true ∧
      submit shortMessage cancelledInPause = .error (.failed failure) later ∧
      later.client.connection = none ∧ later.client.inFlight = false ∧ later.LeftInPause := by
  obtain ⟨failure, later, hcancelled, hr, hfresh⟩ := submit_cancelledInPause
  obtain ⟨hnone, hidle, hstate⟩ := cancelled_submission_leaves_no_connection new_cancelledInPause
    (.nil cancelledInPause) hcancelled (.inl hr)
  refine ⟨failure, later, hcancelled, hr, hnone, hidle, ?_⟩
  rcases hstate with hbad | ⟨-, hpause⟩
  · rw [hfresh] at hbad
    cases hbad
  · exact hpause

/-- So a cancelled submission does not always leave a bad client. -/
theorem cancelled_submission_not_always_bad :
    ¬ ∀ (settings : SubmitSettings) (token : Token) (net : Network) (s later : Submitter)
        (m : Message) (failure : SubmitFailure),
      Submitter.new 1 settings token net = .ok s → submit m s = .error (.failed failure) later →
        failure.isCancelled = true → later.client.state = .bad := by
  intro hbad
  obtain ⟨failure, later, hcancelled, hr, hfresh⟩ := submit_cancelledInPause
  have hstate := hbad _ _ _ cancelledInPause later shortMessage failure new_cancelledInPause hr
    hcancelled
  rw [hfresh] at hstate
  cases hstate

end Submitter

end MailSubmission
