import MailSubmission.Proofs.Attempts

set_option autoImplicit false

/-!
# Submissions, one after another

A submission is attempts in a row and what is done afterwards: the session is reset for the next
message, or the connection is let go of.  After a cancellation nothing is done.  A submitter is
called again and again, and any call may be dropped; between calls the world goes on
(`Submitter.Runs`).
-/

namespace MailSubmission

open Run

namespace Submitter

variable {m : Message} {n : Nat} {s later : Submitter}

/-! ## What a submission is put together from -/

/-- A submission ends as what is done after its attempts, or after a cancellation as they do. -/
theorem ends_submit_iff {ok : Reply → Submitter → Prop}
    {halt : Halt SubmitFailure → Submitter → Prop} :
    Ends (submit m) s ok halt ↔
      Ends (attempts m (retries s.settings)) { s with submissions := s.submissions + 1 }
        (fun reply mid => Ends finish mid (fun _ s' => ok reply s') halt)
        (fun e mid =>
          match e with
          | .failed failure =>
            if failure.isCancelled then halt (.failed failure) mid
            else Ends finish mid (fun _ s' => halt (.failed failure) s') halt
          | .abandoned => halt .abandoned mid) := by
  simp only [submit, ends_bind, ends_modify, ends_get, ends_attempt]
  unfold Ends
  dsimp only
  cases attempts m (retries s.settings) { s with submissions := s.submissions + 1 } with
  | ok reply mid => cases finish mid <;> exact Iff.rfl
  | error e mid =>
    cases e with
    | abandoned => exact Iff.rfl
    | failed failure =>
      dsimp only
      cases failure.isCancelled with
      | true => exact Iff.rfl
      | false =>
        simp only [Bool.not_false, if_true, Bool.false_eq_true, if_false, bind, EStateM.bind]
        cases finish mid <;> exact Iff.rfl

/-- A measured submission records how the submission ends, unless it was cancelled or dropped. -/
theorem measuredSubmit_apply (m : Message) (s : Submitter) :
    measuredSubmit m s = match submit m s with
      | .ok reply s' => .ok (.ofReply s'.correlationId reply) s'
      | .error (.failed failure) s' =>
        if failure.isCancelled then .error (.failed failure) s'
        else .ok (.ofFailure s'.correlationId failure) s'
      | .error .abandoned s' => .error .abandoned s' := by
  unfold measuredSubmit
  simp only [bind, EStateM.bind, Run.attempt]
  cases submit m s with
  | ok reply s' => rfl
  | error e s' =>
    cases e with
    | abandoned => rfl
    | failed failure =>
      dsimp only
      split
      · rfl
      · rfl

theorem ends_measuredSubmit_iff {ok : Outcome → Submitter → Prop}
    {halt : Halt SubmitFailure → Submitter → Prop} :
    Ends (measuredSubmit m) s ok halt ↔
      Ends (submit m) s (fun reply s' => ok (.ofReply s'.correlationId reply) s')
        (fun e s' =>
          match e with
          | .failed failure =>
            if failure.isCancelled then halt (.failed failure) s'
            else ok (.ofFailure s'.correlationId failure) s'
          | .abandoned => halt .abandoned s') := by
  unfold Ends
  rw [measuredSubmit_apply]
  cases submit m s with
  | ok reply s' => exact Iff.rfl
  | error e s' =>
    cases e with
    | abandoned => exact Iff.rfl
    | failed failure =>
      dsimp only
      cases failure.isCancelled with
      | true => exact Iff.rfl
      | false => exact Iff.rfl

/-! ## What is done afterwards -/

/-- `later` is the client `c` after the command that closes a transaction or a session, or part
of it, was said.  Nothing is said where the command does not fit. -/
structure Closes (command : Command) (fits : Bool) (n : Nat) (c later : Client)
    (rs : List Remark) : Prop where
  speaks : c.Speaks n later rs
  cut : ∃ lines, rs <+: command.answered lines
  silent : fits = false → rs = []

variable {command : Command} {fits : Bool} {c mid : Client} {rs : List Remark}

theorem vacant_disconnect (c : Client) : c.disconnect.Vacant := ⟨rfl, rfl, rfl⟩

/-- Nothing more is said when the connection is let go of. -/
theorem Closes.disconnect (h : Closes command fits n c mid rs) :
    Closes command fits n c mid.disconnect rs where
  speaks := List.append_nil rs ▸ h.speaks.trans (speaks_disconnect n mid)
  cut := h.cut
  silent := h.silent

theorem closes_refl (command : Command) (fits : Bool) (n : Nat) (c : Client) :
    Closes command fits n c c [] := ⟨.refl n c, ⟨[], List.nil_prefix⟩, fun _ => rfl⟩

/-- Where the command fits, nothing speaks against it. -/
theorem closes_of_fits {lines : List ReplyLine} (hfits : fits = true) (h : c.Speaks n mid rs)
    (hcut : rs <+: command.answered lines) : Closes command fits n c mid rs where
  speaks := h
  cut := ⟨lines, hcut⟩
  silent hnot := by
    rw [hfits] at hnot
    cases hnot

/-- The connection is to be kept for the next message. -/
def keeps (s : Submitter) : Bool :=
  s.settings.streaming && s.streamSent + 1 < s.settings.streamMax && s.client.state.inSession

/-- The message is counted.  Then a connection that is to be kept is reset, and any other is let go
of, as is one that could not be reset. -/
theorem ends_finish_iff {ok : Unit → Submitter → Prop} {halt : Halt SubmitFailure → Submitter → Prop} :
    Ends finish s ok halt ↔
      if s.keeps then
        Ends Client.reset s.client
          (fun _ c => ok () { s with client := c, streamSent := s.streamSent + 1 })
          (fun e c =>
            match e with
            | .failed _ => ok () { s with client := c.disconnect, streamSent := 0 }
            | .abandoned => halt .abandoned { s with client := c, streamSent := s.streamSent + 1 })
      else ok () s.disconnect := by
  simp only [finish, ends_bind, ends_modify, ends_get]
  unfold keeps
  refine ends_ite.trans ?_
  split
  · exact ends_bind.trans ends_tryClient
  · exact Iff.rfl

/-- Afterwards the session stands for the next message, or there is no connection; unless the
call was dropped. -/
theorem ends_finish (s : Submitter) (hsession : s.client.state.inSession = true → s.client.Holds n) :
    Ends finish s
      (fun _ s' => ∃ rs, Closes .rset s.client.state.inSession n s.client s'.client rs ∧
        (s'.client.Vacant ∨ s'.client.Holds n ∧ s'.client.state = .loginComplete ∧
          ∃ lines, rs = Command.rset.answered lines))
      (fun e s' => e = .abandoned ∧ s'.client.inFlight = true ∧
        ∃ rs, Closes .rset s.client.state.inSession n s.client s'.client rs) := by
  refine ends_finish_iff.mpr ?_
  split
  · rename_i hkeeps
    have hfits : s.client.state.inSession = true := (Bool.and_eq_true_iff.mp hkeeps).2
    apply (Client.ends_reset (hsession hfits) hfits).mono
    · intro reply c hc
      obtain ⟨lines, -, hspeaks, hholds, hstate⟩ := hc
      exact ⟨_, closes_of_fits hfits hspeaks (List.prefix_refl _), .inr ⟨hholds, hstate, lines, rfl⟩⟩
    · intro e c hc
      obtain ⟨rs, lines, hspeaks, hbroken, -, hcut⟩ := hc
      have hcloses := closes_of_fits hfits hspeaks hcut
      cases e with
      | failed fault => exact ⟨rs, hcloses.disconnect, .inl (vacant_disconnect c)⟩
      | abandoned => exact ⟨rfl, hbroken, rs, hcloses⟩
  · exact ⟨[], (closes_refl _ _ n s.client).disconnect, .inl (vacant_disconnect s.client)⟩

/-- Outside a session nothing is done but that the connection is let go of. -/
theorem ends_finish_of_not_inSession {ok : Unit → Submitter → Prop}
    {halt : Halt SubmitFailure → Submitter → Prop} (hover : s.client.state.inSession = false) :
    Ends finish s ok halt ↔ ok () s.disconnect := by
  have hnot : s.keeps = false := by rw [keeps, hover, Bool.and_false]
  rw [ends_finish_iff, if_neg (Bool.eq_false_iff.mp hnot)]

/-- The rule for a submission.  What holds when the attempts return is what finishing starts from.
What holds when they fail, with no session left, must outlast letting go of the connection, which
is done unless they were cancelled. -/
theorem ends_submit {tried ok : Reply → Submitter → Prop} {halt : Halt SubmitFailure → Submitter → Prop}
    (hattempts : Ends (attempts m (retries s.settings)) { s with submissions := s.submissions + 1 }
      tried fun e mid => halt e mid ∧ (e ≠ .abandoned → mid.client.state.inSession = false))
    (hfinish : ∀ reply mid, tried reply mid → Ends finish mid (fun _ s' => ok reply s') halt)
    (hlet : ∀ failure mid, failure.isCancelled = false → halt (.failed failure) mid →
      halt (.failed failure) mid.disconnect) :
    Ends (submit m) s ok halt := by
  refine ends_submit_iff.mpr (hattempts.mono hfinish ?_)
  intro e mid hmid
  obtain ⟨hhalted, hover⟩ := hmid
  cases e with
  | abandoned => exact hhalted
  | failed failure =>
    dsimp only
    split
    · exact hhalted
    · rename_i hcancelled
      exact (ends_finish_of_not_inSession (hover nofun)).mpr
        (hlet failure mid (Bool.eq_false_iff.mpr hcancelled) hhalted)

/-- The client can say goodbye. -/
def mayQuit (s : Submitter) : Bool := !s.client.inFlight && s.client.state.isLive

/-- A goodbye is said where there is a session, and then there is no connection; unless the call
was dropped. -/
theorem ends_quit (s : Submitter) (hlive : s.mayQuit = true → s.client.Holds n) :
    Ends quit s
      (fun _ s' => s'.client.Vacant ∧ ∃ rs, Closes .quit s.mayQuit n s.client s'.client rs)
      (fun e s' => e = .abandoned ∧ s'.client.inFlight = true ∧
        ∃ rs, Closes .quit s.mayQuit n s.client s'.client rs) := by
  simp only [quit, ends_bind, ends_get]
  refine ends_ite.mpr ?_
  split
  · rename_i hstate
    refine ends_bind.mpr (ends_tryClient.mpr ?_)
    cases hmark : s.client.inFlight with
    | true =>
      have hrefused := ends_bind.mp (Client.ends_of_inFlight .done n hmark)
      apply hrefused.mono
      · intro reply c hc
        exact hc.elim
      · intro e c hc
        obtain ⟨hspeaks, -, rfl⟩ := hc
        exact ⟨vacant_disconnect c, [],
          Closes.disconnect ⟨hspeaks, ⟨[], List.nil_prefix⟩, fun _ => rfl⟩⟩
    | false =>
      have hfits : s.mayQuit = true := by rw [mayQuit, hmark, hstate, Bool.not_false, Bool.true_and]
      refine (Client.ends_done (hlive hfits) hstate).mono ?_ ?_
      · intro reply c hc
        obtain ⟨-, lines, hspeaks⟩ := hc
        exact ⟨vacant_disconnect c, _, (closes_of_fits hfits hspeaks (List.prefix_refl _)).disconnect⟩
      · intro e c hc
        obtain ⟨-, ⟨rs, hspeaks, hcut⟩, hleft⟩ := hc
        have hcloses := closes_of_fits hfits hspeaks (hcut.trans (List.prefix_append _ [Remark.heard []]))
        cases e with
        | failed fault => exact ⟨vacant_disconnect c, rs, hcloses.disconnect⟩
        | abandoned => exact ⟨rfl, hleft rfl, rs, hcloses⟩
  · exact ⟨vacant_disconnect s.client, [], (closes_refl _ _ n s.client).disconnect⟩

/-! ## Calls and runs -/

/-- A call on a submitter. -/
inductive Call where
  | submit (message : Message)
  | measuredSubmit (message : Message)
  | disconnect
  | quit
  deriving DecidableEq, Repr

instance : Inhabited Call := ⟨.quit⟩

/-- Carry out the call.  What a submission returns is for its caller alone. -/
def Call.carryOut : Call → Run SubmitFailure Submitter Unit
  | submit m => do let _ ← Submitter.submit m
  | measuredSubmit m => do let _ ← Submitter.measuredSubmit m
  | disconnect => modify Submitter.disconnect
  | quit => Submitter.quit

/-- The submitter that the call leaves, however it ends. -/
def Call.after (call : Call) (s : Submitter) : Submitter :=
  match call.carryOut s with
  | .ok _ later => later
  | .error _ later => later

theorem Call.after_of_ok {call : Call} (hr : call.carryOut s = .ok () later) :
    call.after s = later := by
  unfold after
  rw [hr]

theorem Call.after_of_error {call : Call} {e : Halt SubmitFailure}
    (hr : call.carryOut s = .error e later) : call.after s = later := by
  unfold after
  rw [hr]

/-- The message that is handed in. -/
def Call.messages : Call → List Message
  | submit m | measuredSubmit m => [m]
  | disconnect | quit => []

/-- `later` is the submitter after calls made one after another.  Between them the world may go
on, as it does for a client. -/
inductive Runs : Submitter → List Call → Submitter → Prop where
  | nil (s : Submitter) : Runs s [] s
  | meanwhile {s later : Submitter} {client : Client} {calls : List Call}
      (wait : s.client.Meanwhile client) (rest : Runs { s with client } calls later) :
      Runs s calls later
  | call {s later : Submitter} {call : Call} {calls : List Call}
      (rest : Runs (call.after s) calls later) : Runs s (call :: calls) later

/-- Whatever holds however a call ends, holds of the submitter that it leaves. -/
theorem Call.after_of_ends {call : Call} {p : Submitter → Prop}
    (h : Ends call.carryOut s (fun _ s' => p s') fun _ s' => p s') : p (call.after s) := by
  unfold Ends at h
  unfold after
  cases hr : call.carryOut s with
  | ok u later =>
    rw [hr] at h
    exact h
  | error e later =>
    rw [hr] at h
    exact h

/-- A measured submission leaves what the submission leaves. -/
theorem Call.after_measuredSubmit (m : Message) (s : Submitter) :
    (measuredSubmit m).after s = (submit m).after s := by
  unfold after carryOut
  simp only [bind, EStateM.bind, measuredSubmit_apply]
  cases Submitter.submit m s with
  | ok reply s' => rfl
  | error e s' =>
    cases e with
    | abandoned => rfl
    | failed failure =>
      dsimp only
      cases failure.isCancelled with
      | true => rfl
      | false => rfl

/-! ## A server to hand messages to -/

/-- A network with one server, which sends these lines, one at a time, and then does this. -/
def serverSending (lines : List String) (rest : Script) : Network :=
  { sockets := [{ reads := lines.map (fun line => .data (Text.Utf8.encode (line ++ "\r\n"))) ++ rest }] }

/-- The lines of a server that takes a message. -/
def takingLines : List String := ["220 mx", "250 mx", "250 ok", "250 ok", "354 go", "250 taken"]

/-- A message of two octets. -/
def shortMessage : Message := ⟨.null, .null, [some [.data (Text.Utf8.encode "hi")]]⟩

end Submitter

end MailSubmission
