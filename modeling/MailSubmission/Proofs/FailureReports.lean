import MailSubmission.Proofs.LastReply

set_option autoImplicit false

/-!
# What a failure reports

A measured submission that fails is on record as an exception, and the record says what the failure
does (`Submitter.measuredSubmit_eq_exception_iff`): it quotes the reply that the client remembers,
and states its code as the final reply code of this submission.

The client forgets nothing between two messages.  If it kept a reply in this submission, that is the
last one of these.  If not, it is one from before: then the record states the code of a message that
was handed in earlier, though no server answered this one with it
(`Submitter.exception_status_not_always_own`).
-/

namespace MailSubmission

namespace Submitter

open Run

variable {m : Message} {s later : Submitter} {outcome : Outcome}

/-- A reply is never recorded as an exception. -/
theorem kind_ofReply_ne (correlationId : String) (reply : Reply) :
    (Outcome.ofReply correlationId reply).kind ≠ .exception := by
  unfold Outcome.ofReply
  dsimp only
  split
  · decide
  · decide

/-- An exception is the record of a failure that is not a cancellation. -/
theorem measuredSubmit_eq_exception_iff :
    measuredSubmit m s = .ok outcome later ∧ outcome.kind = .exception ↔
      ∃ failure, submit m s = .error (.failed failure) later ∧ failure.isCancelled = false ∧
        outcome = .ofFailure later.correlationId failure := by
  rw [measuredSubmit_apply]
  constructor
  · rintro ⟨hr, hkind⟩
    split at hr
    · cases hr
      exact absurd hkind (kind_ofReply_ne _ _)
    · rename_i failure s' hsubmit
      split at hr
      · cases hr
      · rename_i hcancelled
        cases hr
        exact ⟨failure, hsubmit, Bool.eq_false_iff.mpr hcancelled, rfl⟩
    · cases hr
  · rintro ⟨failure, hsubmit, hcancelled, rfl⟩
    rw [hsubmit]
    exact ⟨if_neg (Bool.eq_false_iff.mp hcancelled), rfl⟩

/-- A reply that was kept was heard. -/
theorem exists_of_lastKept {hs : List Hearing} {reply : Reply} (h : lastKept hs = some reply) :
    ∃ heard ∈ hs, heard.reply = reply := by
  obtain ⟨heard, hlast, hreply⟩ := Option.map_eq_some_iff.mp h
  exact ⟨heard, (List.mem_filter.mp (List.mem_of_getLast? hlast)).1, hreply⟩

section

variable {id : Nat} {settings : SubmitSettings} {token : Token} {net : Network} {s₀ : Submitter}
  {calls : List Call}

/-- For every submitter there can be, and every message handed in on it whose record is an
exception: the error quotes the last reply that the client kept in this submission, and if it kept
none in it, the last one that it had kept `before`; the status is the code of the reply that is
quoted.  A reply that is quoted was heard in this submission where one was kept in it, or none
before; else it is the reply to a message that was over, and says nothing of this one. -/
theorem exception_quotes_last_reply_kept (hnew : Submitter.new id settings token net = .ok s₀)
    (hruns : Runs s₀ calls s) (hr : measuredSubmit m s = .ok outcome later)
    (hkind : outcome.kind = .exception) :
    ∃ (before es : List Entry) (fault : Fault),
      s.client.net.journal = before.reverse ++ net.journal ∧
      later.client.net.journal = es.reverse ++ s.client.net.journal ∧
      let own := lastKept (hearings .greeting es)
      let earlier := lastKept (hearings .greeting before)
      outcome.error =
        some (SubmitFailure.client later.client.name (own.or earlier) fault).message ∧
      outcome.status = (own.or earlier).map (·.code) ∧
      (own ≠ none ∨ earlier = none → ∀ reply, own.or earlier = some reply →
        ∃ heard ∈ hearings .greeting es, heard.reply = reply) := by
  obtain ⟨failure, hsubmit, -, rfl⟩ := measuredSubmit_eq_exception_iff.mp ⟨hr, hkind⟩
  have htold : Ends (submit m) s _ _ := (Story.recalling_lasts.follows m).ends_submit (hruns.ready hnew)
  obtain ⟨⟨es, hs, hjournal, hheard, hlast⟩, hfailed⟩ := htold.of_error hsubmit
  obtain ⟨fault, -, rfl, -⟩ := hfailed failure rfl
  rw [← hheard .greeting] at hlast
  -- What is remembered from before is what was kept since the submitter was made.
  obtain ⟨before, hs', hbefore, hheard', hearlier⟩ := Story.recalling_lasts.returns_runs hnew hruns
  rw [← hheard' .greeting] at hearlier
  rw [client_of_new hnew] at hbefore hearlier
  have hearlier : s.client.lastReply = lastKept (hearings .greeting before) :=
    hearlier.trans Option.or_none
  rw [hearlier] at hlast
  refine ⟨before, es, fault, hbefore, hjournal, ?_⟩
  intro own earlier
  rw [show own.or earlier = later.client.lastReply from hlast.symm]
  refine ⟨rfl, rfl, ?_⟩
  intro hown reply hreply
  have hquoted : later.client.lastReply = own := by
    rcases hown with hkept | hnone
    · exact hlast.trans (Option.or_of_isSome (Option.isSome_iff_ne_none.mpr hkept))
    · exact hlast.trans ((congrArg own.or hnone).trans Option.or_none)
  exact exists_of_lastKept (hquoted.symm.trans hreply)

end

/-- A server that closes the connection when the message is announced. -/
def leftAlone : Submitter :=
  { client := .new 1 {} {} (serverSending ["220 mx", "250 mx", "250 ok", "250 fine"] []) }

theorem new_leftAlone : Submitter.new 1 {} {}
    (serverSending ["220 mx", "250 mx", "250 ok", "250 fine"] []) = .ok leftAlone := rfl

/-- A record that was checked is one that was made. -/
theorem exists_measured (check : Outcome → Submitter → Bool)
    (h : (match measuredSubmit m s with
      | .ok outcome later => check outcome later
      | .error _ _ => false) = true) :
    ∃ outcome later, measuredSubmit m s = .ok outcome later ∧ check outcome later = true := by
  split at h
  · rename_i outcome later hr
    exact ⟨outcome, later, hr, h⟩
  · cases h

theorem exception_quotes_last_reply_kept_leftAlone :
    ∃ (outcome : Outcome) (later : Submitter) (es : List Entry),
      measuredSubmit shortMessage leftAlone = .ok outcome later ∧ outcome.status = some 250 ∧
      later.client.net.journal = es.reverse ∧
      ∃ heard ∈ hearings .greeting es, outcome.status = some heard.reply.code := by
  obtain ⟨outcome, later, hr, hcheck⟩ := exists_measured (m := shortMessage) (s := leftAlone)
    (fun outcome _ => outcome.kind == .exception && outcome.status == some 250) (by decide +kernel)
  simp only [Bool.and_eq_true, beq_iff_eq] at hcheck
  obtain ⟨before, es, fault, hbefore, hjournal, -, hstatus, hown⟩ :=
    exception_quotes_last_reply_kept new_leftAlone (.nil leftAlone) hr hcheck.1
  -- Nothing happened before, so the reply that is quoted was heard in this submission.
  obtain rfl : before = [] := by simpa [leftAlone, Client.new, serverSending] using hbefore
  obtain ⟨reply, hreply, -⟩ := Option.map_eq_some_iff.mp (hstatus.symm.trans hcheck.2)
  obtain ⟨heard, hmem, rfl⟩ := hown (.inr rfl) reply hreply
  refine ⟨outcome, later, es, hr, hcheck.2, hjournal.trans (List.append_nil _), heard, hmem, ?_⟩
  rw [hstatus, hreply, Option.map_some]

/-- The server is gone once a message has been taken. -/
def takenOnce : Submitter :=
  (Call.measuredSubmit shortMessage).after { client := .new 1 {} {} (serverSending takingLines []) }

/-- The next message does not reach any server, and its record has the code of the first one. -/
theorem exception_status_not_always_own :
    ¬ ∀ (settings : SubmitSettings) (token : Token) (net : Network) (s₀ s later : Submitter)
        (calls : List Call) (m : Message) (outcome : Outcome),
      Submitter.new 1 settings token net = .ok s₀ → Runs s₀ calls s →
      measuredSubmit m s = .ok outcome later → outcome.kind = .exception →
      ∃ es : List Entry, later.client.net.journal = es.reverse ++ s.client.net.journal ∧
        (outcome.status = none ∨ ∃ h ∈ hearings .greeting es, outcome.status = some h.reply.code) := by
  intro hown
  obtain ⟨outcome, later, hr, hcheck⟩ := exists_measured (m := shortMessage) (s := takenOnce)
    (fun outcome later => outcome.kind == .exception && outcome.status == some 250 &&
      later.client.net.journal == .dialled "localhost" 25 :: takenOnce.client.net.journal)
    (by decide +kernel)
  simp only [Bool.and_eq_true, beq_iff_eq] at hcheck
  obtain ⟨⟨hkind, hstatus⟩, hdialled⟩ := hcheck
  obtain ⟨es, hjournal, hstated⟩ := hown {} {} (serverSending takingLines []) _ takenOnce later
    [.measuredSubmit shortMessage] shortMessage outcome rfl (.call (.nil _)) hr hkind
  have hes : es.reverse = [.dialled "localhost" 25] :=
    List.append_cancel_right (hjournal.symm.trans hdialled)
  obtain rfl : es = [.dialled "localhost" 25] := List.reverse_eq_iff.mp hes
  rcases hstated with hnone | ⟨h, hmem, -⟩
  · rw [hstatus] at hnone
    cases hnone
  · cases hmem

end Submitter

end MailSubmission
