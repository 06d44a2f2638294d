import MailSubmission.Proofs.MailGrammar
import MailSubmission.Proofs.Milestones

set_option autoImplicit false

/-!
# How often a connection is used again

A submitter that streams hands one message after another in over one connection, and counts them.
The count belongs to the submitter, not to the connection: it is raised when a submission is over,
taken back when the connection is let go of, and left alone by calls that are dropped.  Still no
connection ever carries more submissions than the settings allow.

The invariant is `Counted`, between calls.  It speaks of the connection that the next call finds: a
session stands on it, and no more submissions have used it than the submitter has counted.  Every
call leaves the submitter such that this goes on to hold (`Submitter.Leaves`).
-/

namespace MailSubmission

open Run

/-! ## Connections within reach -/

namespace Client

variable {c mid later : Client} {es fs : List Entry} {rs : List Remark} {k n : Nat}

/-- A call can use the connection `n`: the call finds it, or it is still to be asked for. -/
def InReach (c : Client) (n : Nat) : Prop := c.cleared.held = some n ∨ c.net.dialled ≤ n

/-- `later` is the client after `es` happened.  Nothing passed on a connection that was out of
reach, and none came into reach. -/
structure Reaches (c later : Client) (es : List Entry) : Prop extends c.Moves later es where
  spoken : ∀ n, dialogue n es ≠ [] → c.InReach n
  inReach : ∀ n, later.InReach n → c.InReach n

theorem Reaches.trans (h : c.Reaches mid es) (g : mid.Reaches later fs) :
    c.Reaches later (es ++ fs) where
  toMoves := h.toMoves.trans g.toMoves
  spoken n hn := by
    by_cases hes : dialogue n es = []
    · rw [dialogue_append, hes, List.nil_append] at hn
      exact h.inReach n (g.spoken n hn)
    · exact h.spoken n hes
  inReach n hn := h.inReach n (g.inReach n hn)

/-- What is said on a connection within reach leaves that one within reach at most. -/
theorem Speaks.reaches (h : c.Speaks k later rs) (hk : c.InReach k)
    (hheld : ∀ n, later.cleared.held = some n → n = k) : ∃ es, c.Reaches later es := by
  obtain ⟨es, hm, hspoken⟩ := h
  refine ⟨es, hm, fun n hn => ?_, fun n hn => ?_⟩
  · by_cases hnk : n = k
    · exact hnk ▸ hk
    · exact absurd (hspoken.elsewhere hnk) hn
  · rcases hn with hn | hn
    · exact hheld n hn ▸ hk
    · exact .inr (Nat.le_trans hm.dialled_le hn)

/-- Where nothing is said and no connection is left, none came into reach. -/
theorem Moves.reaches (hm : c.Moves later es) (hsilent : ∀ n, dialogue n es = [])
    (hnone : later.cleared.held = none) : c.Reaches later es where
  toMoves := hm
  spoken n hn := absurd (hsilent n) hn
  inReach n hn := by
    rcases hn with hn | hn
    · rw [hnone] at hn
      cases hn
    · exact .inr (Nat.le_trans hm.dialled_le hn)

theorem held_cleared_of_none (h : c.connection = none) : c.cleared.held = none := by
  rw [held_cleared, held, h]
  exact ite_self none

theorem held_cleared_of_inFlight (h : c.inFlight = true) : c.cleared.held = none := by
  rw [held_cleared, if_pos h]

/-- What a halt leaves is not gone on with. -/
theorem Broken.held_cleared {e : Halt Fault} (h : c.Broken e) : c.cleared.held = none := by
  cases e with
  | failed fault => exact held_cleared_of_none h.1
  | abandoned => exact held_cleared_of_inFlight h

theorem Holds.held_cleared (h : c.Holds k) : c.cleared.held = some k := by
  rw [cleared_of_idle h.idle, h.held]

theorem Speaks.reaches_holds (h : c.Speaks k later rs) (hk : c.InReach k) (hholds : later.Holds k) :
    ∃ es, c.Reaches later es :=
  h.reaches hk fun _ hn => (Option.some.inj (hholds.held_cleared.symm.trans hn)).symm

theorem Speaks.reaches_none (h : c.Speaks k later rs) (hk : c.InReach k)
    (hnone : later.cleared.held = none) : ∃ es, c.Reaches later es :=
  h.reaches hk fun _ hn => nomatch hnone.symm.trans hn

theorem reaches_disconnect (c : Client) : c.Reaches c.disconnect c.release :=
  (moves_release c rfl rfl).reaches (fun n => dialogue_release n c) (held_cleared_of_none rfl)

end Client

/-- An attempt opens its session on a connection within reach. -/
theorem Opening.inReach {c : Client} {n : Nat} {rs : List Remark} (h : Opening c n rs) :
    c.InReach n := by
  cases h with
  | standing hstate hholds => exact .inl hholds.held_cleared
  | fresh hintroduced => exact .inr (Nat.le_refl _)

theorem Tried.inReach {c : Client} {m : Message} {a : Attempt} {n : Nat} {rs : List Remark}
    (h : Tried c m a n rs) : c.InReach n := by
  cases h with
  | login hrefused hbare => exact .inr (Nat.le_refl _)
  | transaction hopening htransaction => exact hopening.inReach

theorem CutShort.inReach {c : Client} {m : Message} {n : Nat} {rs : List Remark}
    (h : CutShort c m n rs) : c.InReach n := by
  cases h with
  | opening hintroduced hcut => exact .inr (Nat.le_refl _)
  | message hopening hhanded hcut => exact hopening.inReach

namespace Submitter

variable {m : Message} {n : Nat} {s mid later : Submitter} {es : List Entry}

/-! ## Attempts -/

/-- `later` is the submitter `s` after part of a submission, before that is counted. -/
structure Tries (s later : Submitter) : Prop where
  settings : later.settings = s.settings
  streamSent : later.streamSent = s.carried
  reaches : ∃ es, s.client.Reaches later.client es

/-- What attempts that came to a halt leave: no connection that is gone on with, and no session if
they failed. -/
structure GivesUp (s : Submitter) (e : Halt SubmitFailure) (later : Submitter) : Prop
    extends s.Tries later where
  loose : later.client.cleared.held = none
  ended : e ≠ .abandoned → later.client.state.inSession = false

theorem carried_le (s : Submitter) : s.carried ≤ s.streamSent := by
  unfold carried
  split
  · exact Nat.le_refl _
  · exact Nat.zero_le _

theorem Tries.trans (h : s.Tries mid) (hcarried : mid.carried = mid.streamSent)
    (g : mid.Tries later) : s.Tries later where
  settings := g.settings.trans h.settings
  streamSent := g.streamSent.trans (hcarried.trans h.streamSent)
  reaches := by
    obtain ⟨es, hes⟩ := h.reaches
    obtain ⟨fs, hfs⟩ := g.reaches
    exact ⟨es ++ fs, hes.trans hfs⟩

/-- An attempt uses a connection within reach.  It leaves the session on that one, or comes to a
halt. -/
theorem ends_attempt_tries (m : Message) (hready : s.Ready) :
    Ends (attempt m) s (fun _ s' => s.Tries s' ∧ ∃ n, s'.client.Holds n) s.GivesUp := by
  apply ((ends_attempt_passes m s).and (ends_attempt_said m s hready)).mono
  · rintro a s' ⟨hpasses, n, rs, hspeaks, hholds, -, htried⟩
    exact ⟨⟨by rw [hpasses.same], by rw [hpasses.same],
      hspeaks.reaches_holds htried.inReach hholds⟩, n, hholds⟩
  · rintro e s' ⟨hpasses, n, rs, hspeaks, hbroken, hcut⟩
    have hnone : s'.client.cleared.held = none := by
      obtain ⟨halt, -, hhalted⟩ := hbroken
      exact hhalted.held_cleared
    exact ⟨⟨by rw [hpasses.same], by rw [hpasses.same],
      hspeaks.reaches_none hcut.inReach hnone⟩, hnone, hbroken.inSession⟩

/-- The pause after a refusal leaves no connection, whether it is cut off or not. -/
theorem Tries.pause (h : s.Tries mid) :
    Ends pause { mid with client := mid.client.disconnect }
      (fun _ next => s.Tries next ∧ next.client.Vacant) s.GivesUp := by
  obtain ⟨es, hes⟩ := h.reaches
  apply ((ends_pause_disconnected mid).and (ends_pause _)).mono
  · rintro _ next ⟨⟨hvacant, -, hm⟩, net, hsame, -⟩
    have hreaches := hm.reaches (by simp [dialogue_release, Entry.remarks])
      (Client.held_cleared_of_none hvacant.connection)
    exact ⟨⟨by rw [hsame, h.settings], by rw [hsame, h.streamSent], _, hes.trans hreaches⟩, hvacant⟩
  · rintro e next ⟨⟨hvacant, halt, -, -, hm⟩, net, -, hsame, -, -⟩
    have hnone : next.client.cleared.held = none := Client.held_cleared_of_none hvacant.connection
    have hreaches := hm.reaches (by simp [dialogue_release]) hnone
    refine ⟨⟨by rw [hsame, h.settings], by rw [hsame, h.streamSent], _, hes.trans hreaches⟩,
      hnone, ?_⟩
    intro _
    rw [hvacant.state]
    rfl

/-- Attempts in a row do no more than one does. -/
theorem ends_attempts_tries (m : Message) (left : Nat) (hready : s.Ready) :
    Ends (attempts m left) s (fun _ s' => s.Tries s' ∧ ∃ n, s'.client.Holds n) s.GivesUp := by
  -- Before each attempt: the first one starts from `s`, any other from what the pause has left.
  let held (t : Submitter) : Prop := t.Ready ∧ ∀ later, t.Tries later → s.Tries later
  have hattempt : ∀ t, held t → Ends (attempt m) t (fun _ s' => s.Tries s' ∧ ∃ n, s'.client.Holds n)
      s.GivesUp := by
    rintro t ⟨hready, hgoes⟩
    exact (ends_attempt_tries m hready).mono (fun _ _ hs' => ⟨hgoes _ hs'.1, hs'.2⟩)
      fun _ _ hs' => ⟨hgoes _ hs'.toTries, hs'.loose, hs'.ended⟩
  refine ends_attempts held m left hattempt ?_ ⟨hready, fun _ htries => htries⟩
  intro t mid stage reply ht hr _
  obtain ⟨htries, -⟩ := (hattempt t ht).of_ok hr
  refine htries.pause.mono ?_ fun _ _ hgives => hgives
  rintro _ next ⟨hnext, hvacant⟩
  refine ⟨fun _ hstate => ?_, fun later hlater => hnext.trans (if_pos (.inr hvacant.state)) hlater⟩
  rw [hvacant.state] at hstate
  cases hstate

/-! ## What calls leave -/

/-- What a submission leaves that came to an end: a fresh client and nothing counted, or a session
on a connection that is good for another message. -/
inductive Settled (settings : SubmitSettings) (s : Submitter) : Prop where
  | fresh (vacant : s.client.Vacant) (uncounted : s.streamSent = 0)
  | standing {n : Nat} (holds : s.client.Holds n) (state : s.client.state = .loginComplete)
      (streaming : settings.streaming = true) (counted : 1 ≤ s.streamSent)
      (below : s.streamSent < settings.streamMax)

/-- `later` is the submitter that a call leaves of `s`.  If there is a connection that the next
call can go on with, then a session stands on it, and the call was counted. -/
structure Leaves (s later : Submitter) : Prop where
  settings : later.settings = s.settings
  reaches : ∃ es, s.client.Reaches later.client es
  below : s.streamSent < s.settings.streamMax → later.streamSent < s.settings.streamMax
  kept : ∀ n, later.client.cleared.held = some n → later.client.state = .loginComplete ∧
    s.settings.streaming = true ∧ later.streamSent = s.carried + 1

/-- Where no connection is left to go on with, nothing has to be said of it. -/
theorem leaves_loose (hsettings : later.settings = s.settings)
    (hreaches : ∃ es, s.client.Reaches later.client es) (hcount : later.streamSent ≤ s.streamSent)
    (hnone : later.client.cleared.held = none) : s.Leaves later where
  settings := hsettings
  reaches := hreaches
  below hlt := Nat.lt_of_le_of_lt hcount hlt
  kept n hn := by
    rw [hnone] at hn
    cases hn

theorem GivesUp.leaves {e : Halt SubmitFailure} (h : s.GivesUp e later) : s.Leaves later :=
  leaves_loose h.settings h.reaches (h.streamSent ▸ s.carried_le) h.loose

theorem leaves_disconnect (s : Submitter) : s.Leaves s.disconnect :=
  leaves_loose rfl ⟨_, s.client.reaches_disconnect⟩ (Nat.zero_le _)
    (Client.held_cleared_of_none rfl)

/-- When a connection is let go of after attempts, so is what was counted. -/
theorem Tries.disconnect (h : s.Tries mid) :
    s.Leaves mid.disconnect ∧ mid.disconnect.Settled s.settings := by
  obtain ⟨es, hes⟩ := h.reaches
  exact ⟨leaves_loose h.settings ⟨_, hes.trans mid.client.reaches_disconnect⟩ (Nat.zero_le _)
    (Client.held_cleared_of_none rfl), .fresh (vacant_disconnect _) rfl⟩

/-- A submission is counted, and its connection is kept or let go of. -/
theorem Tries.finish (h : s.Tries mid)
    (hsession : mid.client.state.inSession = true → ∃ n, mid.client.Holds n) :
    Ends finish mid (fun _ later => s.Leaves later ∧ later.Settled s.settings)
      (fun e later => e = .abandoned ∧ s.Leaves later) := by
  refine ends_finish_iff.mpr ?_
  split
  · rename_i hkeeps
    obtain ⟨hroom, hfits⟩ := Bool.and_eq_true_iff.mp hkeeps
    obtain ⟨hstreaming, hbelow⟩ := Bool.and_eq_true_iff.mp hroom
    have hbelow : mid.streamSent + 1 < s.settings.streamMax := h.settings ▸ of_decide_eq_true hbelow
    have hstreaming : s.settings.streaming = true := h.settings ▸ hstreaming
    obtain ⟨n, hholds⟩ := hsession hfits
    obtain ⟨es, hes⟩ := h.reaches
    have hreach : mid.client.InReach n := .inl hholds.held_cleared
    apply (Client.ends_reset hholds hfits).mono
    · intro reply c hc
      obtain ⟨lines, -, hspeaks, hkept, hstate⟩ := hc
      obtain ⟨fs, hfs⟩ := hspeaks.reaches_holds hreach hkept
      exact ⟨⟨h.settings, ⟨_, hes.trans hfs⟩, fun _ => hbelow,
        fun _ _ => ⟨hstate, hstreaming, congrArg (· + 1) h.streamSent⟩⟩,
        .standing hkept hstate hstreaming (Nat.succ_pos _) hbelow⟩
    · intro e c hc
      obtain ⟨rs, lines, hspeaks, hbroken, -, -⟩ := hc
      obtain ⟨fs, hfs⟩ := hspeaks.reaches_none hreach hbroken.held_cleared
      cases e with
      | failed fault =>
        have htries : s.Tries { mid with client := c } := ⟨h.settings, h.streamSent, _, hes.trans hfs⟩
        exact htries.disconnect
      | abandoned =>
        refine ⟨rfl, h.settings, ⟨_, hes.trans hfs⟩, fun _ => hbelow, fun k hk => ?_⟩
        rw [hbroken.held_cleared] at hk
        cases hk
  · exact h.disconnect

/-- A submission that comes to an end without being cancelled is settled. -/
theorem ends_submit_leaves (m : Message) (hready : s.Ready) :
    Ends (submit m) s (fun _ later => s.Leaves later ∧ later.Settled s.settings)
      (fun e later => s.Leaves later ∧
        ∀ failure, e = .failed failure → failure.isCancelled = false → later.Settled s.settings) := by
  let begun : Submitter := { s with submissions := s.submissions + 1 }
  have hbegun : ∀ {later : Submitter}, begun.Leaves later → s.Leaves later :=
    fun h => ⟨h.settings, h.reaches, h.below, h.kept⟩
  have hattempts := ends_attempts_tries m (retries s.settings) (s := begun) hready
  refine ends_submit_iff.mpr (hattempts.mono ?_ ?_)
  · rintro reply mid ⟨htries, hholds⟩
    refine (htries.finish fun _ => hholds).mono (fun _ _ hlater => ⟨hbegun hlater.1, hlater.2⟩) ?_
    rintro e later ⟨rfl, hleaves⟩
    exact ⟨hbegun hleaves, nofun⟩
  · intro e mid hgives
    cases e with
    | abandoned => exact ⟨hbegun hgives.leaves, nofun⟩
    | failed failure =>
      dsimp only
      split
      · rename_i hcancelled
        refine ⟨hbegun hgives.leaves, ?_⟩
        rintro _ ⟨⟩ hgoes
        rw [hcancelled] at hgoes
        cases hgoes
      · refine (ends_finish_of_not_inSession (hgives.ended nofun)).mpr ?_
        obtain ⟨hleaves, hsettled⟩ := hgives.toTries.disconnect
        exact ⟨hbegun hleaves, fun _ _ _ => hsettled⟩

/-- A goodbye takes back what was counted, unless it was dropped. -/
theorem ends_quit_same (s : Submitter) :
    Ends quit s (fun _ s' => s' = { s with client := s'.client, streamSent := 0 })
      (fun _ s' => s' = { s with client := s'.client }) := by
  simp only [quit, ends_bind, ends_get]
  refine ends_ite.mpr ?_
  split
  · refine ends_bind.mpr (ends_tryClient.mpr ((ends_self Client.done s.client).mono ?_ ?_))
    · intro reply c _
      rfl
    · intro e c _
      cases e with
      | failed fault => rfl
      | abandoned => rfl
  · rfl

/-- A goodbye is said on a connection within reach, if it is said at all. -/
theorem ends_quit_leaves (hlive : s.mayQuit = true → ∃ n, s.client.Holds n) :
    Ends quit s (fun _ later => s.Leaves later) fun _ later => s.Leaves later := by
  obtain ⟨n, hreach, hholds⟩ : ∃ n, s.client.InReach n ∧ (s.mayQuit = true → s.client.Holds n) := by
    cases hfits : s.mayQuit with
    | false => exact ⟨s.client.net.dialled, .inr (Nat.le_refl _), nofun⟩
    | true =>
      obtain ⟨n, hholds⟩ := hlive hfits
      exact ⟨n, .inl hholds.held_cleared, fun _ => hholds⟩
  have hleaves : ∀ {later : Submitter} {rs : List Remark}, later.settings = s.settings →
      later.streamSent ≤ s.streamSent → later.client.cleared.held = none →
      Closes .quit s.mayQuit n s.client later.client rs → s.Leaves later := by
    intro later rs hsettings hcount hnone hcloses
    exact leaves_loose hsettings (hcloses.speaks.reaches_none hreach hnone) hcount hnone
  apply ((ends_quit s hholds).and (ends_quit_same s)).mono
  · rintro _ later ⟨⟨hvacant, rs, hcloses⟩, hsame⟩
    exact hleaves (by rw [hsame]) (by rw [hsame]; exact Nat.zero_le _)
      (Client.held_cleared_of_none hvacant.connection) hcloses
  · rintro e later ⟨⟨-, hmark, rs, hcloses⟩, hsame⟩
    exact hleaves (by rw [hsame]) (Nat.le_of_eq (by rw [hsame]))
      (Client.held_cleared_of_inFlight hmark) hcloses

/-- Whichever call is made, and however it ends. -/
theorem Call.leaves (call : Call) (hready : s.Ready)
    (hlive : s.mayQuit = true → ∃ n, s.client.Holds n) : s.Leaves (call.after s) := by
  have hsubmit : ∀ m, s.Leaves ((Call.submit m).after s) := fun m =>
    Call.after_of_ends (ends_bind.mpr ((ends_submit_leaves m hready).mono (fun _ _ h => h.1)
      fun _ _ h => h.1))
  cases call with
  | submit m => exact hsubmit m
  | measuredSubmit m =>
    rw [Call.after_measuredSubmit]
    exact hsubmit m
  | disconnect => exact leaves_disconnect s
  | quit => exact Call.after_of_ends (ends_quit_leaves hlive)

/-! ## Chronicles -/

/-- The call hands a message in. -/
def Call.isSubmission : Call → Bool
  | submit _ | measuredSubmit _ => true
  | disconnect | quit => false

/-- `later` is the submitter after calls made one after another, each recorded with what happened
in it. -/
inductive Chronicle : Submitter → List (Call × List Entry) → Submitter → Prop where
  | nil (s : Submitter) : Chronicle s [] s
  | meanwhile {s later : Submitter} {client : Client} {records : List (Call × List Entry)}
      (wait : s.client.Meanwhile client) (rest : Chronicle { s with client } records later) :
      Chronicle s records later
  | call {s later : Submitter} {call : Call} {es : List Entry} {records : List (Call × List Entry)}
      (happened : (call.after s).client.net.journal = es.reverse ++ s.client.net.journal)
      (rest : Chronicle (call.after s) records later) : Chronicle s ((call, es) :: records) later

/-- How many submissions there are among the calls in which something passed on the connection
`n`. -/
def submissionsOn (n : Nat) (records : List (Call × List Entry)) : Nat :=
  records.countP fun record => record.1.isSubmission && !(dialogue n record.2).isEmpty

section

variable {calls : List Call} {records past : List (Call × List Entry)} {call : Call}

/-- Every run has a chronicle. -/
theorem Runs.exists_chronicle {before : List Entry} {ms : List Message} (hr : Runs s calls later)
    (hkept : Kept before ms ms s.client) :
    ∃ records, records.map Prod.fst = calls ∧ Chronicle s records later := by
  induction hr generalizing ms with
  | nil s => exact ⟨[], rfl, .nil s⟩
  | meanwhile wait _ ih =>
    obtain ⟨records, hcalls, hrest⟩ := ih (hkept.meanwhile wait)
    exact ⟨records, hcalls, .meanwhile wait hrest⟩
  | @call s later call calls _ ih =>
    obtain ⟨es, hreaches⟩ := (call.leaves hkept.ready hkept.exists_holds).reaches
    obtain ⟨records, hcalls, hrest⟩ := ih (Call.kept call hkept)
    exact ⟨(call, es) :: records, congrArg (call :: ·) hcalls, .call hreaches.journal hrest⟩

theorem submissionsOn_le (n : Nat) (past : List (Call × List Entry)) (call : Call) (es : List Entry) :
    submissionsOn n (past ++ [(call, es)]) ≤ submissionsOn n past + 1 := by
  unfold submissionsOn
  rw [List.countP_append]
  exact Nat.add_le_add_left List.countP_le_length _

theorem submissionsOn_of_silent (h : dialogue n es = []) :
    submissionsOn n (past ++ [(call, es)]) = submissionsOn n past := by
  unfold submissionsOn
  rw [List.countP_append, List.countP_singleton, h]
  simp

end

end Submitter

/-- The most submissions that may use one connection. -/
def SubmitSettings.allowance (settings : SubmitSettings) : Nat :=
  if settings.streaming then settings.streamMax else 1

theorem SubmitSettings.allowance_of_streaming {settings : SubmitSettings}
    (h : settings.streaming = true) : settings.allowance = settings.streamMax := if_pos h

theorem SubmitSettings.allowance_pos {settings : SubmitSettings} (h : 0 < settings.streamMax) :
    0 < settings.allowance := by
  unfold allowance
  split
  · exact h
  · exact Nat.one_pos

namespace Submitter

variable {settings : SubmitSettings} {past records : List (Call × List Entry)} {s later : Submitter}
  {es : List Entry}

/-! ## The invariant -/

/-- The invariant between calls, `past` being those made so far: what the submitter has counted
covers the submissions on the connection that the next call finds, if there is one. -/
structure Counted (settings : SubmitSettings) (past : List (Call × List Entry)) (s : Submitter) :
    Prop where
  same : s.settings = settings
  below : s.streamSent < settings.streamMax
  untouched : ∀ n, s.client.net.dialled ≤ n → submissionsOn n past = 0
  covered : ∀ n, s.client.cleared.held = some n → s.client.state = .loginComplete ∧
    settings.streaming = true ∧ submissionsOn n past ≤ s.streamSent
  capped : ∀ n, submissionsOn n past ≤ settings.allowance

/-- A new submitter has counted nothing. -/
theorem counted_new {id : Nat} {token : Token} {net : Network}
    (hnew : Submitter.new id settings token net = .ok s) : Counted settings [] s := by
  unfold Submitter.new SubmitSettings.defect? at hnew
  split at hnew
  · cases hnew
  · cases hnew
    rename_i hnone
    have hpos : settings.streamMax ≠ 0 := by
      rintro hzero
      rw [if_pos hzero] at hnone
      split at hnone <;> cases hnone
    exact ⟨rfl, Nat.pos_of_ne_zero hpos, fun _ _ => rfl, nofun, fun _ => Nat.zero_le _⟩

/-- Whatever can be used has room for one more submission. -/
theorem Counted.lt_allowance {n : Nat} (h : Counted settings past s) (hn : s.client.InReach n) :
    submissionsOn n past < settings.allowance := by
  rcases hn with hn | hn
  · obtain ⟨-, hstreaming, hle⟩ := h.covered n hn
    rw [SubmitSettings.allowance_of_streaming hstreaming]
    exact Nat.lt_of_le_of_lt hle h.below
  · rw [h.untouched n hn]
    exact SubmitSettings.allowance_pos (Nat.zero_lt_of_lt h.below)

/-- What is counted against the connection of an attempt covers the submissions on it. -/
theorem Counted.le_carried {n : Nat} (h : Counted settings past s) (hn : s.client.InReach n) :
    submissionsOn n past ≤ s.carried := by
  rcases hn with hn | hn
  · obtain ⟨hstate, -, hle⟩ := h.covered n hn
    rwa [carried, if_pos (.inl hstate)]
  · rw [h.untouched n hn]
    exact Nat.zero_le _

/-- A call keeps the invariant. -/
theorem Counted.call (call : Call) (h : Counted settings past s) (hleaves : s.Leaves later)
    (hnumbered : ∀ n, s.client.held = some n → n < s.client.net.dialled)
    (happened : later.client.net.journal = es.reverse ++ s.client.net.journal) :
    Counted settings (past ++ [(call, es)]) later := by
  obtain ⟨fs, hreaches⟩ := hleaves.reaches
  obtain rfl : es = fs := by
    rw [hreaches.journal, List.append_cancel_right_eq, List.reverse_inj] at happened
    exact happened.symm
  have hsettings := h.same
  constructor
  · rw [hleaves.settings, hsettings]
  · rw [← hsettings]
    exact hleaves.below (hsettings ▸ h.below)
  · intro n hn
    have hunused : dialogue n es = [] := dialogue_eq_nil fun e he hu => by
      rcases hreaches.own e he n hu with hheld | hasked
      · have hlt := hnumbered n hheld
        have hle := hreaches.dialled_le
        omega
      · exact Nat.not_lt_of_le hn hasked.2
    rw [submissionsOn_of_silent hunused]
    exact h.untouched n (Nat.le_trans hreaches.dialled_le hn)
  · intro n hn
    obtain ⟨hstate, hstreaming, hcount⟩ := hleaves.kept n hn
    refine ⟨hstate, hsettings ▸ hstreaming, ?_⟩
    rw [hcount]
    exact Nat.le_trans (submissionsOn_le n past call es)
      (Nat.succ_le_succ (h.le_carried (hreaches.inReach n (.inl hn))))
  · intro n
    by_cases hsilent : dialogue n es = []
    · rw [submissionsOn_of_silent hsilent]
      exact h.capped n
    · exact Nat.le_trans (submissionsOn_le n past call es)
        (h.lt_allowance (hreaches.spoken n hsilent))

/-- So does what goes on between calls. -/
theorem Counted.meanwhile {client : Client} (h : Counted settings past s)
    (hw : s.client.Meanwhile client) : Counted settings past { s with client } where
  same := h.same
  below := h.below
  untouched n hn := h.untouched n (hw.dialled ▸ hn)
  covered n hn := by
    have hstate : client.state = s.client.state := by rw [hw.same]
    obtain ⟨hlogin, hcovered⟩ := h.covered n (hw.held_cleared ▸ hn)
    exact ⟨hstate.trans hlogin, hcovered⟩
  capped := h.capped

/-- And so does a run, from call to call. -/
theorem Chronicle.counted {before : List Entry} {ms : List Message} (hr : Chronicle s records later)
    (hkept : Kept before ms ms s.client) (h : Counted settings past s) :
    Counted settings (past ++ records) later := by
  induction hr generalizing past ms with
  | nil s => rwa [List.append_nil]
  | meanwhile wait _ ih => exact ih (hkept.meanwhile wait) (h.meanwhile wait)
  | @call s later call es records happened _ ih =>
    have hleaves := call.leaves hkept.ready hkept.exists_holds
    have hrest := ih (Call.kept call hkept) (h.call call hleaves (fun _ => hkept.numbered) happened)
    rwa [List.append_assoc] at hrest

/-! ## The connections of a run -/

/-- For every submitter there can be and every run of calls on it.  The submitter has always counted
less than the settings allow, also when a submission is about to be counted.  A submission that
comes to an end without being cancelled leaves the submitter settled.  And on no connection has
anything passed in more submissions than the settings allow. -/
theorem connections_reused_within_allowance {id : Nat} {token : Token} {net : Network}
    {s₀ : Submitter} {calls : List Call} (hnew : Submitter.new id settings token net = .ok s₀)
    (hruns : Runs s₀ calls s) :
    s.streamSent < settings.streamMax ∧
    (∀ m, Ends (attempts m (retries s.settings)) { s with submissions := s.submissions + 1 }
      (fun _ mid => mid.streamSent < settings.streamMax)
      (fun _ mid => mid.streamSent < settings.streamMax)) ∧
    (∀ m, Ends (submit m) s (fun _ later => later.Settled settings)
      (fun e later => ∀ failure, e = .failed failure → failure.isCancelled = false →
        later.Settled settings)) ∧
    (∀ m, Ends (measuredSubmit m) s (fun _ later => later.Settled settings)
      (fun e _ => ∀ failure, e = .failed failure → failure.isCancelled = true)) ∧
    (∃ records, records.map Prod.fst = calls ∧ Chronicle s₀ records s) ∧
    ∀ records, Chronicle s₀ records s → ∀ n, submissionsOn n records ≤ settings.allowance := by
  have hstart := kept_new hnew
  have hready : s.Ready := hruns.ready hnew
  have hcounted : ∀ records, Chronicle s₀ records s → Counted settings records s := by
    intro records hrun
    exact hrun.counted hstart (counted_new hnew)
  obtain ⟨records, hcalls, hrun⟩ := hruns.exists_chronicle hstart
  obtain ⟨hsame, hbelow, -, -, -⟩ := hcounted records hrun
  have hsubmit : ∀ m, Ends (submit m) s (fun _ later => later.Settled settings)
      (fun e later => ∀ failure, e = .failed failure → failure.isCancelled = false →
        later.Settled settings) := by
    intro m
    rw [← hsame]
    exact (ends_submit_leaves m hready).mono (fun _ _ h => h.2) fun _ _ h => h.2
  refine ⟨hbelow, fun m => ?_, hsubmit, fun m => ?_, ⟨records, hcalls, hrun⟩,
    fun records hrun => (hcounted records hrun).capped⟩
  · have hcarried : ∀ {mid : Submitter}, Tries { s with submissions := s.submissions + 1 } mid →
        mid.streamSent < settings.streamMax := by
      intro mid h
      rw [h.streamSent]
      exact Nat.lt_of_le_of_lt (carried_le _) hbelow
    exact (ends_attempts_tries m _ (s := { s with submissions := s.submissions + 1 }) hready).mono
      (fun _ _ h => hcarried h.1) fun _ _ h => hcarried h.toTries
  · refine ends_measuredSubmit_iff.mpr ((hsubmit m).mono (fun _ _ hsettled => hsettled) ?_)
    intro e later hsettled
    cases e with
    | abandoned => exact nofun
    | failed failure =>
      dsimp only
      split
      · rename_i hcancelled
        rintro _ ⟨⟩
        exact hcancelled
      · rename_i hgoes
        exact hsettled failure rfl (Bool.eq_false_iff.mpr hgoes)

/-- A network with a server that takes two messages in one session. -/
def takingTwo : Network :=
  serverSending (takingLines ++ ["250 ok", "250 ok", "250 ok", "354 go", "250 taken"]) []

/-- A submitter that hands two messages in over one connection. -/
def twoByTwo : Submitter :=
  { settings := { streaming := true, streamMax := 2 }, client := .new 1 {} {} takingTwo }

/-- The submitter after the first message. -/
def afterOne : Submitter := (Call.submit shortMessage).after twoByTwo

/-- The submitter after the second one, when the connection is let go of. -/
def afterTwo : Submitter := (Call.submit shortMessage).after afterOne

theorem connections_reused_within_allowance_afterTwo :
    Submitter.new 1 { streaming := true, streamMax := 2 } {} takingTwo = .ok twoByTwo ∧
      Runs twoByTwo [.submit shortMessage, .submit shortMessage] afterTwo ∧
      afterOne.streamSent = 1 ∧ afterTwo.streamSent < 2 ∧
      ∃ records, Chronicle twoByTwo records afterTwo ∧ submissionsOn 0 records = 2 ∧
        ∀ n, submissionsOn n records ≤ 2 := by
  have hnew : Submitter.new 1 { streaming := true, streamMax := 2 } {} takingTwo = .ok twoByTwo := rfl
  have hruns : Runs twoByTwo [.submit shortMessage, .submit shortMessage] afterTwo :=
    .call (.call (.nil _))
  obtain ⟨hbelow, -, -, -, -, hcapped⟩ := connections_reused_within_allowance hnew hruns
  let first : List Entry := afterOne.client.net.journal.reverse
  let second : List Entry :=
    (afterTwo.client.net.journal.take
      (afterTwo.client.net.journal.length - afterOne.client.net.journal.length)).reverse
  have hrun : Chronicle twoByTwo [(.submit shortMessage, first), (.submit shortMessage, second)]
      afterTwo :=
    .call (by decide +kernel) (.call (by decide +kernel) (.nil _))
  exact ⟨hnew, hruns, by decide +kernel, hbelow, _, hrun, by decide +kernel, hcapped _ hrun⟩

end Submitter

end MailSubmission
