import MailSubmission.Proofs.ConnectionReuse

set_option autoImplicit false

/-!
# What is counted against a connection

A submitter counts the submissions that have kept a connection open, and counts anew when it lets go
of one.  Where a refusal makes it connect anew in the middle of a submission, it is the client that
lets go, and the count goes on.  So the count is the length of a row of submissions
(`Submitter.row`), and not that of the submissions on the open connection, unless none of the row
went over from one connection to another (`Submitter.streamSent_counts_row`).
-/

namespace MailSubmission

open Run

namespace Submitter

variable {m : Message} {n : Nat} {s mid later : Submitter} {es : List Entry} {call : Call}

/-! ## Calls that come to their end -/

/-- The call is neither dropped by its caller nor cancelled. -/
def Call.Finishes (call : Call) (s : Submitter) : Prop :=
  Ends call.carryOut s (fun _ _ => True) fun e _ =>
    ∃ failure, e = .failed failure ∧ failure.isCancelled = false

instance (call : Call) (s : Submitter) : Decidable (call.Finishes s) :=
  match hr : call.carryOut s with
  | .ok _ _ => isTrue (by unfold Call.Finishes Ends; rw [hr]; trivial)
  | .error .abandoned _ => isFalse (by unfold Call.Finishes Ends; rw [hr]; rintro ⟨_, ⟨⟩, _⟩)
  | .error (.failed failure) _ =>
    if hgoes : failure.isCancelled = false then
      isTrue (by unfold Call.Finishes Ends; rw [hr]; exact ⟨failure, rfl, hgoes⟩)
    else
      isFalse (by unfold Call.Finishes Ends; rw [hr]; rintro ⟨_, ⟨⟩, h⟩; exact hgoes h)

/-- What holds when a call returns or fails, but for a cancellation, holds of what a call leaves that
comes to its end. -/
theorem Call.Finishes.after {p : Submitter → Prop} (hfinishes : call.Finishes s)
    (h : Ends call.carryOut s (fun _ later => p later) fun e later =>
      ∀ failure, e = .failed failure → failure.isCancelled = false → p later) : p (call.after s) := by
  unfold Call.Finishes Ends at hfinishes
  unfold Ends at h
  unfold Call.after
  cases hr : call.carryOut s with
  | ok u later =>
    rw [hr] at h
    exact h
  | error e later =>
    rw [hr] at h hfinishes
    obtain ⟨failure, hfailed, hgoes⟩ := hfinishes
    exact h failure hfailed hgoes

/-- A measured submission comes to its end with the submission. -/
theorem Call.Finishes.submit (h : (Call.measuredSubmit m).Finishes s) : (Call.submit m).Finishes s := by
  unfold Call.Finishes Call.carryOut Ends at h ⊢
  simp only [bind, EStateM.bind, measuredSubmit_apply] at h ⊢
  cases hr : Submitter.submit m s with
  | ok reply later => trivial
  | error e later =>
    rw [hr] at h
    cases e with
    | abandoned => exact h
    | failed failure =>
      cases hcancelled : failure.isCancelled with
      | true =>
        simp only [hcancelled, if_true] at h
        obtain ⟨failure', hfailed, hgoes⟩ := h
        obtain rfl : failure = failure' := Halt.failed.inj hfailed
        rw [hcancelled] at hgoes
        cases hgoes
      | false => exact ⟨failure, rfl, hcancelled⟩

/-! ## A connection that is kept was used -/

/-- The connection that is left to go on with, if there is one, was used since `s`. -/
def Uses (s later : Submitter) : Prop :=
  ∀ n, later.client.cleared.held = some n →
    ∃ es, s.client.Moves later.client es ∧ dialogue n es ≠ []

theorem uses_of_none (h : later.client.cleared.held = none) : s.Uses later := by
  intro n hn
  rw [h] at hn
  cases hn

theorem uses_disconnect (s mid : Submitter) : s.Uses mid.disconnect :=
  uses_of_none (Client.held_cleared_of_none rfl)

/-- A connection is kept by resetting it. -/
theorem ends_finish_uses (hm : s.client.Moves mid.client es)
    (hsession : mid.client.state.inSession = true → ∃ n, mid.client.Holds n) :
    Ends finish mid (fun _ later => s.Uses later) fun e _ => e = .abandoned := by
  refine ends_finish_iff.mpr ?_
  split
  · rename_i hkeeps
    have hfits : mid.client.state.inSession = true := (Bool.and_eq_true_iff.mp hkeeps).2
    obtain ⟨k, hholds⟩ := hsession hfits
    apply (Client.ends_reset hholds hfits).mono
    · intro reply c hc
      obtain ⟨lines, -, ⟨fs, hfs, hspoken⟩, hkept, -⟩ := hc
      intro n hn
      obtain rfl : n = k := Option.some.inj (hn.symm.trans hkept.held_cleared)
      refine ⟨es ++ fs, hm.trans hfs, ?_⟩
      rw [dialogue_append, hspoken.said]
      simp [Command.answered]
    · intro e c _
      cases e with
      | failed fault => exact uses_disconnect s { mid with client := c }
      | abandoned => rfl
  · exact uses_disconnect s mid

theorem ends_submit_uses (m : Message) (hready : s.Ready) :
    Ends (submit m) s (fun _ later => s.Uses later)
      (fun e later => ∀ failure, e = .failed failure → failure.isCancelled = false → s.Uses later) := by
  have hattempts := ends_attempts_tries m (retries s.settings)
    (s := { s with submissions := s.submissions + 1 }) hready
  refine ends_submit_iff.mpr (hattempts.mono ?_ ?_)
  · rintro reply mid ⟨htries, hholds⟩
    obtain ⟨es, hreaches⟩ := htries.reaches
    refine (ends_finish_uses hreaches.toMoves fun _ => hholds).mono (fun _ _ huses => huses) ?_
    rintro e later rfl
    exact nofun
  · intro e mid hgives
    cases e with
    | abandoned => exact nofun
    | failed failure =>
      dsimp only
      split
      · rename_i hcancelled
        rintro _ ⟨⟩ hgoes
        rw [hcancelled] at hgoes
        cases hgoes
      · exact (ends_finish_of_not_inSession (hgives.ended nofun)).mpr
          fun _ _ _ => uses_disconnect s mid

/-- A call that comes to its end leaves the submitter settled; if it kept a connection, it is a
submission that used it. -/
theorem Call.Finishes.settled (h : call.Finishes s) (hready : s.Ready)
    (hlive : s.mayQuit = true → ∃ n, s.client.Holds n) :
    (call.after s).Settled s.settings ∧ s.Uses (call.after s) ∧
      (call.isSubmission = false → (call.after s).client.cleared.held = none) := by
  have hsubmit : ∀ m, (Call.submit m).Finishes s → ((Call.submit m).after s).Settled s.settings ∧
      s.Uses ((Call.submit m).after s) := by
    intro m hfinishes
    have hends := (ends_submit_leaves m hready).and (ends_submit_uses m hready)
    refine hfinishes.after (p := fun later => later.Settled s.settings ∧ s.Uses later)
      (ends_bind.mpr (hends.mono (fun _ _ hlater => ⟨hlater.1.2, hlater.2⟩) ?_))
    rintro e later ⟨⟨-, hsettled⟩, huses⟩ failure hfailed hgoes
    exact ⟨hsettled failure hfailed hgoes, huses failure hfailed hgoes⟩
  cases call with
  | submit m => exact ⟨(hsubmit m h).1, (hsubmit m h).2, nofun⟩
  | measuredSubmit m =>
    rw [Call.after_measuredSubmit]
    exact ⟨(hsubmit m h.submit).1, (hsubmit m h.submit).2, nofun⟩
  | disconnect =>
    exact ⟨.fresh (vacant_disconnect _) rfl, uses_disconnect s s,
      fun _ => Client.held_cleared_of_none rfl⟩
  | quit =>
    obtain ⟨n, hholds⟩ : ∃ n, s.mayQuit = true → s.client.Holds n := by
      cases hfits : s.mayQuit with
      | false => exact ⟨0, nofun⟩
      | true =>
        obtain ⟨n, hholds⟩ := hlive hfits
        exact ⟨n, fun _ => hholds⟩
    refine h.after (p := fun later => later.Settled s.settings ∧ s.Uses later ∧
      (Call.quit.isSubmission = false → later.client.cleared.held = none))
      (((ends_quit s hholds).and (ends_quit_same s)).mono ?_ ?_)
    · rintro _ later ⟨⟨hvacant, -⟩, hsame⟩
      have hnone := Client.held_cleared_of_none hvacant.connection
      exact ⟨.fresh hvacant (by rw [hsame]), uses_of_none hnone, fun _ => hnone⟩
    · rintro e later ⟨⟨rfl, -⟩, -⟩
      exact nofun

/-! ## Turns -/

/-- A call of a run, with what happened in it. -/
structure Turn where
  call : Call
  entries : List Entry
  /-- the connection that the call found -/
  found : Option Nat
  /-- the connection that it kept for the next one -/
  kept : Option Nat
  deriving DecidableEq, Repr

/-- What is on record of a turn. -/
def Turn.record (t : Turn) : Call × List Entry := (t.call, t.entries)

/-- The turn did not go over from one connection to another. -/
def Turn.Stays (t : Turn) : Prop := t.found = none ∨ t.found = t.kept

instance (t : Turn) : Decidable t.Stays := inferInstanceAs (Decidable (_ ∨ _))

/-- What happens in the call. -/
def Call.happening (call : Call) (s : Submitter) : List Entry :=
  let later := (call.after s).client.net.journal
  (later.take (later.length - s.client.net.journal.length)).reverse

/-- The turn that the call makes. -/
def Call.turn (call : Call) (s : Submitter) : Turn where
  call := call
  entries := call.happening s
  found := s.client.cleared.held
  kept := (call.after s).client.cleared.held

theorem Call.happening_eq (h : (call.after s).client.net.journal = es.reverse ++ s.client.net.journal) :
    call.happening s = es := by
  unfold Call.happening
  dsimp only
  rw [h, List.length_append, Nat.add_sub_cancel, List.take_left, List.reverse_reverse]

/-- `later` is the submitter after calls made one after another, each of which came to its end. -/
inductive Completes : Submitter → List Turn → Submitter → Prop where
  | nil (s : Submitter) : Completes s [] s
  | meanwhile {s later : Submitter} {client : Client} {turns : List Turn}
      (wait : s.client.Meanwhile client) (rest : Completes { s with client } turns later) :
      Completes s turns later
  | call {s later : Submitter} {call : Call} {turns : List Turn} (finishes : call.Finishes s)
      (rest : Completes (call.after s) turns later) : Completes s (call.turn s :: turns) later

/-- The turns up to now, last one first, each of which has kept a connection. -/
def row (turns : List Turn) : List Turn := turns.reverse.takeWhile (·.kept.isSome)

variable {settings : SubmitSettings} {past turns : List Turn} {t : Turn}

theorem row_of_kept (h : t.kept = some n) : row (past ++ [t]) = t :: row past := by
  simp [row, h]

theorem row_of_loose (h : t.kept = none) : row (past ++ [t]) = [] := by
  simp [row, h]

/-! ## The invariant -/

/-- The invariant between calls that come to their end, `past` being the turns so far. -/
structure Rows (settings : SubmitSettings) (past : List Turn) (s : Submitter) : Prop where
  counted : Counted settings (past.map Turn.record) s
  settled : s.Settled settings
  streamSent : s.streamSent = (row past).length
  submissions : ∀ t ∈ row past, t.call.isSubmission = true
  used : ∀ n, s.client.cleared.held = some n → 1 ≤ submissionsOn n (past.map Turn.record)
  stays : ∀ n, s.client.cleared.held = some n →
    (submissionsOn n (past.map Turn.record) = s.streamSent ↔ ∀ t ∈ row past, t.Stays)

theorem rows_new {id : Nat} {token : Token} {net : Network}
    (hnew : Submitter.new id settings token net = .ok s) : Rows settings [] s := by
  have hcounted := counted_new hnew
  unfold Submitter.new at hnew
  split at hnew
  · cases hnew
  · cases hnew
    exact ⟨hcounted, .fresh ⟨rfl, rfl, rfl⟩ rfl, rfl, nofun, nofun, nofun⟩

/-- A submission on the connection is one more. -/
theorem submissionsOn_of_spoken {records : List (Call × List Entry)} (hcall : call.isSubmission = true)
    (h : dialogue n es ≠ []) :
    submissionsOn n (records ++ [(call, es)]) = submissionsOn n records + 1 := by
  unfold submissionsOn
  rw [List.countP_append, List.countP_singleton, hcall]
  simp [h]

/-- Between calls that come to their end, nothing that was counted is forgotten. -/
theorem Settled.carried_eq (h : s.Settled settings) : s.carried = s.streamSent := by
  cases h with
  | fresh hvacant => exact if_pos (.inr hvacant.state)
  | standing _ hstate => exact if_pos (.inl hstate)

theorem Settled.streamSent_of_none (h : s.Settled settings) (hnone : s.client.cleared.held = none) :
    s.streamSent = 0 := by
  cases h with
  | fresh _ huncounted => exact huncounted
  | standing hholds => exact nomatch hnone.symm.trans hholds.held_cleared

theorem Settled.streamSent_pos (h : s.Settled settings) (hheld : s.client.cleared.held = some n) :
    1 ≤ s.streamSent := by
  cases h with
  | fresh hvacant =>
    exact nomatch (Client.held_cleared_of_none hvacant.connection).symm.trans hheld
  | standing _ _ _ hcounted => exact hcounted

/-- A connection that was not in use yet is another one than the call found. -/
theorem not_stays_turn (hnumbered : ∀ n, s.client.held = some n → n < s.client.net.dialled)
    (hnew : s.client.net.dialled ≤ n) (hkept : (call.after s).client.cleared.held = some n) :
    (call.turn s).Stays ↔ s.client.cleared.held = none := by
  constructor
  · rintro (hnone | hsame)
    · exact hnone
    · have hheld : s.client.cleared.held = some n := hsame.trans hkept
      rw [Client.held_cleared] at hheld
      split at hheld
      · cases hheld
      · exact absurd (hnumbered n hheld) (Nat.not_lt.mpr hnew)
  · exact .inl

/-- A turn keeps the invariant. -/
theorem Rows.turn (h : Rows settings past s) (hready : s.Ready)
    (hlive : s.mayQuit = true → ∃ n, s.client.Holds n)
    (hnumbered : ∀ n, s.client.held = some n → n < s.client.net.dialled)
    (hfinishes : call.Finishes s) : Rows settings (past ++ [call.turn s]) (call.after s) := by
  obtain ⟨hsettled, huses, hother⟩ := hfinishes.settled hready hlive
  rw [h.counted.same] at hsettled
  have hleaves := call.leaves hready hlive
  obtain ⟨es, hreaches⟩ := hleaves.reaches
  have hhappening := Call.happening_eq hreaches.journal
  have hrecords : (past ++ [call.turn s]).map Turn.record = past.map Turn.record ++ [(call, es)] := by
    rw [List.map_append, List.map_singleton, Turn.record, Call.turn, hhappening]
  have hcounted : Counted settings ((past ++ [call.turn s]).map Turn.record) (call.after s) :=
    hrecords ▸ h.counted.call call hleaves hnumbered hreaches.journal
  cases hkept : (call.after s).client.cleared.held with
  | none =>
    have hrow : row (past ++ [call.turn s]) = [] := row_of_loose hkept
    refine ⟨hcounted, hsettled, ?_, ?_, fun n hn => ?_, fun n hn => ?_⟩
    · rw [hrow, hsettled.streamSent_of_none hkept]
      rfl
    · rw [hrow]
      exact nofun
    · exact nomatch hkept.symm.trans hn
    · exact nomatch hkept.symm.trans hn
  | some n =>
    have hrow : row (past ++ [call.turn s]) = call.turn s :: row past := row_of_kept hkept
    have hcall : call.isSubmission = true := by
      cases hother' : call.isSubmission with
      | true => rfl
      | false => exact nomatch hkept.symm.trans (hother hother')
    have hspoken : dialogue n es ≠ [] := by
      obtain ⟨fs, hfs, hspoken⟩ := huses n hkept
      rwa [← Call.happening_eq hfs.journal, hhappening] at hspoken
    have hsent : (call.after s).streamSent = s.streamSent + 1 := by
      rw [(hleaves.kept n hkept).2.2, h.settled.carried_eq]
    have hon : submissionsOn n (past.map Turn.record ++ [(call, es)]) =
        submissionsOn n (past.map Turn.record) + 1 := submissionsOn_of_spoken hcall hspoken
    refine ⟨hcounted, hsettled, ?_, ?_, fun k hk => ?_, fun k hk => ?_⟩
    · rw [hrow, hsent, h.streamSent, List.length_cons]
    · rw [hrow]
      exact List.forall_mem_cons.mpr ⟨hcall, h.submissions⟩
    · obtain rfl : n = k := Option.some.inj (hkept.symm.trans hk)
      rw [hrecords, hon]
      exact Nat.succ_pos _
    · obtain rfl : n = k := Option.some.inj (hkept.symm.trans hk)
      rw [hrecords, hon, hsent, hrow, List.forall_mem_cons]
      rcases hreaches.inReach n (.inl hkept) with hfound | hnew
      · have hstays : (call.turn s).Stays := .inr (hfound.trans hkept.symm)
        rw [Nat.add_right_cancel_iff, h.stays n hfound]
        exact (and_iff_right hstays).symm
      · rw [h.counted.untouched n hnew, not_stays_turn hnumbered hnew hkept]
        cases hfound : s.client.cleared.held with
        | none =>
          have hnone := h.settled.streamSent_of_none hfound
          have hempty : row past = [] := List.eq_nil_of_length_eq_zero (h.streamSent.symm.trans hnone)
          simp [hnone, hempty]
        | some k =>
          have hpos := h.settled.streamSent_pos hfound
          simp
          omega

theorem Settled.meanwhile {client : Client} (h : s.Settled settings) (hw : s.client.Meanwhile client) :
    Settled settings { s with client } := by
  have hidle : client.inFlight = s.client.inFlight := by rw [hw.same]
  have hstate : client.state = s.client.state := by rw [hw.same]
  cases h with
  | fresh hvacant huncounted =>
    have hnone : client.held = none := hw.held.trans (Option.map_eq_none_iff.mpr hvacant.connection)
    exact .fresh ⟨hstate.trans hvacant.state, Option.map_eq_none_iff.mp hnone,
      hidle.trans hvacant.idle⟩ huncounted
  | standing hholds hlogin hstreaming hcounted hbelow =>
    exact .standing ⟨hidle.trans hholds.idle, hw.held.trans hholds.held⟩ (hstate.trans hlogin)
      hstreaming hcounted hbelow

/-- So does what goes on between calls. -/
theorem Rows.meanwhile {client : Client} (h : Rows settings past s) (hw : s.client.Meanwhile client) :
    Rows settings past { s with client } where
  counted := h.counted.meanwhile hw
  settled := h.settled.meanwhile hw
  streamSent := h.streamSent
  submissions := h.submissions
  used n hn := h.used n (hw.held_cleared ▸ hn)
  stays n hn := h.stays n (hw.held_cleared ▸ hn)

/-- And so does a run, from turn to turn. -/
theorem Completes.rows {before : List Entry} {ms : List Message} (hr : Completes s turns later)
    (hkept : Kept before ms ms s.client) (h : Rows settings past s) :
    Rows settings (past ++ turns) later := by
  induction hr generalizing past ms with
  | nil s => rwa [List.append_nil]
  | meanwhile wait _ ih => exact ih (hkept.meanwhile wait) (h.meanwhile wait)
  | @call s later call turns finishes _ ih =>
    have hrest := ih (Call.kept call hkept)
      (h.turn hkept.ready hkept.exists_holds (fun _ => hkept.numbered) finishes)
    rwa [List.append_assoc] at hrest

/-! ## The count of a run -/

/-- For every submitter there can be and every run of calls on it that come to their end.  The count
is the length of the row of submissions that have kept a connection up to now, and less than the
settings allow.  If a session is open, its connection was used by no more submissions than were
counted; and it was used by as many if and only if none of the row went over to it, or to one before
it, from another connection. -/
theorem streamSent_counts_row {id : Nat} {token : Token} {net : Network} {s₀ : Submitter}
    (hnew : Submitter.new id settings token net = .ok s₀) (hturns : Completes s₀ turns s) :
    s.streamSent = (row turns).length ∧ s.streamSent < settings.streamMax ∧
    (∀ t ∈ row turns, t.call.isSubmission = true) ∧
    (s.client.state = .loginComplete → ∃ n, s.client.Holds n ∧
      1 ≤ submissionsOn n (turns.map Turn.record) ∧
      submissionsOn n (turns.map Turn.record) ≤ s.streamSent ∧
      (submissionsOn n (turns.map Turn.record) = s.streamSent ↔ ∀ t ∈ row turns, t.Stays)) := by
  have hrows : Rows settings turns s := hturns.rows (kept_new hnew) (rows_new hnew)
  refine ⟨hrows.streamSent, hrows.counted.below, hrows.submissions, fun hstate => ?_⟩
  cases hrows.settled with
  | fresh hvacant => exact nomatch hstate.symm.trans hvacant.state
  | @standing n hholds =>
    have hheld := hholds.held_cleared
    exact ⟨n, hholds, hrows.used n hheld, (hrows.counted.covered n hheld).2.2, hrows.stays n hheld⟩

/-- Two servers: the first one takes a message and refuses the sender of the next, and the second one
takes a message. -/
def refusingSecond : Network :=
  { sockets := (serverSending (takingLines ++ ["250 ok", "550 no"]) []).sockets ++
      (serverSending (takingLines ++ ["250 ok"]) []).sockets }

/-- A submitter that goes over from the first server to the second. -/
def goingOver : Submitter :=
  { settings := { streaming := true }, client := .new 1 {} {} refusingSecond }

/-- The submitter after the first message. -/
def beforeRefusal : Submitter := (Call.submit shortMessage).after goingOver

/-- The submitter after the second one. -/
def afterRefusal : Submitter := (Call.submit shortMessage).after beforeRefusal

/-- The turns of the two. -/
def turnsOver : List Turn :=
  [(Call.submit shortMessage).turn goingOver, (Call.submit shortMessage).turn beforeRefusal]

theorem completes_turnsOver : Completes goingOver turnsOver afterRefusal :=
  .call (by decide +kernel) (.call (by decide +kernel) (.nil _))

/-- The second submission is counted, with the first, against a connection that the first has never
used. -/
theorem streamSent_counts_row_afterRefusal :
    Submitter.new 1 { streaming := true } {} refusingSecond = .ok goingOver ∧
      Completes goingOver turnsOver afterRefusal ∧ afterRefusal.streamSent = 2 ∧
      ∃ n, afterRefusal.client.Holds n ∧ submissionsOn n (turnsOver.map Turn.record) < 2 := by
  have hnew : Submitter.new 1 { streaming := true } {} refusingSecond = .ok goingOver := rfl
  obtain ⟨hrow, -, -, hopen⟩ := streamSent_counts_row hnew completes_turnsOver
  have hsent : afterRefusal.streamSent = 2 := hrow.trans (by decide +kernel)
  obtain ⟨n, hholds, -, hle, hstays⟩ := hopen (by decide +kernel)
  rw [hsent] at hle hstays
  have hgone : ¬ ∀ t ∈ row turnsOver, t.Stays := by decide +kernel
  exact ⟨hnew, completes_turnsOver, hsent, n, hholds,
    Nat.lt_of_le_of_ne hle fun heq => hgone (hstays.mp heq)⟩

/-- The count is not always that of the submissions on the open connection. -/
theorem streamSent_not_always_submissionsOn :
    ¬ ∀ {settings : SubmitSettings} {id : Nat} {token : Token} {net : Network} {s₀ s : Submitter}
      {turns : List Turn} {n : Nat}, Submitter.new id settings token net = .ok s₀ →
      Completes s₀ turns s → (turns.getLast?.any (·.call.isSubmission)) = true →
      s.client.state = .loginComplete → s.client.held = some n →
      s.streamSent = submissionsOn n (turns.map Turn.record) := by
  intro hall
  have hnew : Submitter.new 1 { streaming := true } {} refusingSecond = .ok goingOver := rfl
  have heq := hall (n := 1) hnew completes_turnsOver (by decide +kernel) (by decide +kernel)
    (by decide +kernel)
  exact absurd heq (by decide +kernel)

end Submitter

end MailSubmission
