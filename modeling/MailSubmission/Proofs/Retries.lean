import Mathlib.Data.List.Chain
import MailSubmission.Proofs.MailGrammar
import MailSubmission.Proofs.Milestones

set_option autoImplicit false

/-!
# The passes of a tolerant submission

A submission goes through the protocol in passes.  After a pass that the server ends by rejecting
the login, the sender or the recipient, a tolerant submitter lets go of the connection, makes a
pause and begins anew, as often as its settings allow; any other pass is the last.  What is done
afterwards is done once, however many passes there were.

`Submitter.Retried` says all of that of the attempts in a row.  It is put together from the last
pass towards the first, as the loop calls itself.
-/

namespace MailSubmission

open Run

/-! ## Pauses take their time -/

namespace Network

variable {net later : Network} {token : Token}

theorem now_sleepUntil {t : Nat} (h : net.sleepUntil token t = (none, later)) :
    later.now = max net.now t := by
  unfold sleepUntil at h
  split at h
  · rename_i hpast
    cases h
    exact (Nat.max_eq_left hpast).symm
  · split at h
    · cases h
    · split at h
      · cases h
      · split at h
        · cases h
        · split at h
          · cases h
          · cases h
            rfl

/-- A pause that is made to its end takes as long as it was to take. -/
theorem now_pause {ms : Nat} (h : net.pause token ms = (none, later)) : later.now = net.now + ms := by
  unfold pause at h
  split at h
  · cases h
  · cases hslept : net.sleepUntil token (net.now + ms) with
    | mk cut slept =>
      rw [hslept] at h
      cases cut with
      | none =>
        cases h
        exact (now_sleepUntil hslept).trans (Nat.max_eq_right (Nat.le_add_right ..))
      | some cut => cases cut <;> cases h

end Network

namespace Submitter

variable {m : Message} {left : Nat} {s mid next later : Submitter}

theorem ends_pause_now (s : Submitter) :
    Ends pause s (fun _ s' => s'.client.net.now = s.client.net.now + s.settings.retryDelay)
      fun _ _ => True := by
  unfold Ends pause
  dsimp only
  cases hr : s.client.net.pause s.token s.settings.retryDelay with
  | mk cut net =>
    cases cut with
    | none => exact Network.now_pause hr
    | some cut => cases cut <;> trivial

end Submitter

/-! ## What passes ask of the network -/

/-- In `es` the network was asked for as much as `passes` passes may ask for: a connection each,
and between any two of them a pause. -/
structure Spends (delay passes : Nat) (es : List Entry) : Prop where
  dialled : es.countP Entry.isDialled ≤ passes
  opened : es.countP Entry.isOpened ≤ passes
  paused : es.filter Entry.isPaused = List.replicate (passes - 1) (.paused delay)

section

variable {es fs : List Entry} {delay passes n : Nat} {host : String} {port : Nat}

/-- What one pass asks for, it asks for among these. -/
theorem filter_of_dials (h : milestones es <+: [.dialled host port, .opened n])
    {kind : Entry → Bool} (hkind : ∀ e, kind e = true → e.isMilestone = true) :
    es.filter kind <+: [Entry.dialled host port, .opened n].filter kind :=
  filter_milestones hkind ▸ h.filter kind

theorem countP_of_dials (h : milestones es <+: [.dialled host port, .opened n])
    {kind : Entry → Bool} (hkind : ∀ e, kind e = true → e.isMilestone = true) :
    es.countP kind ≤ [Entry.dialled host port, .opened n].countP kind := by
  rw [List.countP_eq_length_filter, List.countP_eq_length_filter]
  exact (filter_of_dials h hkind).length_le

theorem spends_one (h : milestones es <+: [.dialled host port, .opened n]) : Spends delay 1 es where
  dialled := countP_of_dials h Entry.isMilestone_of_isDialled
  opened := countP_of_dials h Entry.isMilestone_of_isOpened
  paused := List.prefix_nil.mp (filter_of_dials h Entry.isMilestone_of_isPaused)

/-- A pass before others, and the pause between. -/
theorem Spends.again (k : Nat) (h : Spends delay (passes + 1) fs)
    (hfirst : milestones es <+: [.dialled host port, .opened n]) :
    Spends delay (passes + 2) (es ++ .released k :: .paused delay :: fs) := by
  have hone : Spends delay 1 es := spends_one hfirst
  have hdialled := Nat.add_le_add h.dialled hone.dialled
  have hopened := Nat.add_le_add h.opened hone.opened
  constructor
  · rw [List.countP_append, Nat.add_comm]
    exact hdialled
  · rw [List.countP_append, Nat.add_comm]
    exact hopened
  · rw [List.filter_append, hone.paused]
    exact congrArg (_ :: ·) h.paused

/-- What passes no milestone spends nothing. -/
theorem Spends.stays (h : Spends delay passes es) (hnone : milestones fs = []) :
    Spends delay passes (es ++ fs) := by
  have hkind : ∀ {kind : Entry → Bool}, (∀ e, kind e = true → e.isMilestone = true) →
      fs.filter kind = [] := by
    intro kind hkind
    rw [← filter_milestones hkind, hnone]
    rfl
  constructor
  · rw [List.countP_append, List.countP_eq_length_filter (l := fs), hkind Entry.isMilestone_of_isDialled]
    exact h.dialled
  · rw [List.countP_append, List.countP_eq_length_filter (l := fs), hkind Entry.isMilestone_of_isOpened]
    exact h.opened
  · rw [List.filter_append, hkind Entry.isMilestone_of_isPaused, List.append_nil]
    exact h.paused

end

/-! ## Passes -/

/-- One pass through the protocol: what it starts from, how it ends, and what it leaves. -/
structure Pass where
  start : Submitter
  result : Except SubmitFailure Attempt
  finish : Submitter

namespace Pass

/-- The server ended the pass by rejecting the login, the sender or the recipient. -/
def isRefused (p : Pass) : Bool :=
  match p.result with
  | .ok (.rejected .login _) | .ok (.rejected .sender _) | .ok (.rejected .recipient _) => true
  | _ => false

/-- What the pass comes to as the last one. -/
def outcome (p : Pass) : Except SubmitFailure Reply := p.result.map Attempt.reply

/-- This is what a pass for the message `m` does.  If it ends with a reply, then that tells what
passed on its connection, which is still there; an error leaves none. -/
structure Made (m : Message) (p : Pass) : Prop extends p.start.Passes p.finish where
  run : (Run.attempt (Submitter.attempt m) : Run SubmitFailure Submitter _) p.start =
    .ok p.result p.finish
  told : ∀ a, p.result = .ok a → ∃ n rs, p.start.client.Speaks n p.finish.client rs ∧
    p.finish.client.Holds n ∧ p.finish.client.state = a.leaves ∧ Tried p.start.client m a n rs
  broken : ∀ failure, p.result = .error failure → p.finish.Broken (.failed failure)

/-- The pass `q` follows the pass `p`: that one was refused, its connection was let go of and one
pause was made, and then `q` starts by asking for a connection. -/
structure Precedes (settings : SubmitSettings) (p q : Pass) : Prop where
  refused : p.isRefused = true
  paused : Submitter.pause { p.finish with client := p.finish.client.disconnect } = .ok () q.start
  same : q.start = { p.finish with client := q.start.client }
  vacant : q.start.client.Vacant
  between : ∃ n, p.finish.client.held = some n ∧ q.start.client.net.journal =
    .paused settings.retryDelay :: .released n :: p.finish.client.net.journal
  waited : q.start.client.net.now = p.finish.client.net.now + settings.retryDelay
  asks : q.start.client.net.Asks settings.host settings.port q.finish.client.net

/-- After these refusals another attempt may follow, and after no other end. -/
theorem isRefused_ok (s mid : Submitter) (a : Attempt) : isRefused ⟨s, .ok a, mid⟩ = a.isRetryable := by
  cases a with
  | delivered reply => rfl
  | rejected stage reply => cases stage <;> rfl

variable {m : Message} {p : Pass}

/-- A refused pass was answered. -/
theorem exists_of_isRefused (h : p.isRefused = true) : ∃ a, p.result = .ok a := by
  unfold isRefused at h
  cases hr : p.result with
  | ok a => exact ⟨a, rfl⟩
  | error failure =>
    rw [hr] at h
    cases h

theorem Made.settings_eq (h : p.Made m) : p.finish.settings = p.start.settings := by
  rw [h.same]

end Pass

namespace Submitter

variable {m : Message} {left : Nat} {s mid next later : Submitter} {p : Pass}
  {passes : List Pass} {result : Except SubmitFailure Reply}

/-- However an attempt ends, it is a pass. -/
theorem ends_attempt_made (m : Message) (s : Submitter) (hready : s.Ready) :
    Ends (attempt m) s (fun a mid => Pass.Made m ⟨s, .ok a, mid⟩)
      (fun e mid => ∀ failure, e = .failed failure → Pass.Made m ⟨s, .error failure, mid⟩) := by
  apply (((ends_attempt_passes m s).and (ends_attempt_said m s hready)).and
    (ends_self (attempt m) s)).mono
  · rintro a mid ⟨⟨hpasses, htold⟩, hr⟩
    refine ⟨hpasses, by unfold Run.attempt; rw [hr], fun a' ha => ?_, nofun⟩
    cases ha
    exact htold
  · rintro e mid ⟨⟨hpasses, n, rs, -, hbroken, -⟩, hr⟩ failure rfl
    refine ⟨hpasses, by unfold Run.attempt; rw [hr], nofun, fun failure' hf => ?_⟩
    cases hf
    exact hbroken

/-! ## Passes in a row -/

/-- Attempts in a row, with `left` of them besides the first, are these passes: as many as there
were refusals allow, each of them following the one before it.  The last one decides. -/
structure Retried (m : Message) (left : Nat) (s : Submitter) (passes : List Pass)
    (result : Except SubmitFailure Reply) (mid : Submitter) : Prop where
  count : passes.length = 1 + min (passes.takeWhile Pass.isRefused).length left
  made : ∀ p ∈ passes, p.Made m
  first : passes.head?.map Pass.start = some s
  linked : passes.IsChain (Pass.Precedes s.settings)
  outcome : passes.getLast?.map Pass.outcome = some result
  finish : passes.getLast?.map Pass.finish = some mid
  same : mid = { s with client := mid.client, streamSent := s.carried }
  spends : ∃ es : List Entry, mid.client.net.journal = es.reverse ++ s.client.net.journal ∧
    Spends s.settings.retryDelay passes.length es

/-- A pass is the last one if it is not refused, or if there is none left. -/
theorem retried_last (hmade : p.Made m) (hover : left = 0 ∨ p.isRefused = false) :
    Retried m left p.start [p] p.outcome p.finish where
  count := by
    rcases hover with rfl | hnot
    · rw [Nat.min_zero]
      rfl
    · rw [List.takeWhile_cons_of_neg (Bool.eq_false_iff.mp hnot), List.length_nil, Nat.zero_min]
      rfl
  made := List.forall_mem_singleton.mpr hmade
  first := rfl
  linked := List.isChain_singleton p
  outcome := rfl
  finish := rfl
  same := hmade.same
  spends := by
    obtain ⟨es, n, hes, hmilestones⟩ := hmade.dials
    exact ⟨es, hes, spends_one hmilestones⟩

/-- After a refused pass another one follows, if the pause is not cut off. -/
theorem ends_pause_precedes (hmade : p.Made m) (hrefused : p.isRefused = true) :
    Ends pause { p.finish with client := p.finish.client.disconnect }
      (fun _ next => next.client.Vacant ∧
        ∀ q : Pass, q.start = next → q.Made m → p.Precedes p.start.settings q)
      (fun e _ => ∀ failure, e = .failed failure → failure.isCancelled = true) := by
  obtain ⟨a, ha⟩ := Pass.exists_of_isRefused hrefused
  obtain ⟨n, rs, -, hholds, -, -⟩ := hmade.told a ha
  have hsettings := hmade.settings_eq
  apply ((((ends_pause_disconnected p.finish).and (ends_pause _)).and (ends_pause_now _)).and
    (ends_self pause _)).mono
  · rintro _ next ⟨⟨⟨⟨hvacant, hnext, hm⟩, net, hsame, -⟩, hnow⟩, hr⟩
    rw [hholds.release, hsettings] at hm
    refine ⟨hvacant, ?_⟩
    rintro q rfl hq
    refine ⟨hrefused, hr, by rw [hsame], hvacant, ⟨n, hholds.held, hm.journal⟩, ?_, ?_⟩
    · rw [hnow, ← hsettings, Client.disconnect, Client.releasedNet_eq]
    · exact hsettings ▸ hnext ▸ hq.asks hvacant
  · rintro e next ⟨⟨⟨⟨-, halt, rfl, hhalt, -⟩, -⟩, -⟩, -⟩ failure hfailed
    rcases hhalt with rfl | rfl
    · cases hfailed
    · cases hfailed
      rfl

/-- Another pass before those that follow it. -/
theorem Retried.again {p : Pass} (h : Retried m left next passes result mid) (hmade : p.Made m)
    (hvacant : next.client.Vacant)
    (hnext : ∀ q : Pass, q.start = next → q.Made m → p.Precedes p.start.settings q) :
    Retried m (left + 1) p.start (p :: passes) result mid := by
  obtain ⟨hcount, hall, hfirst, hlinked, houtcome, hfinish, hsame, es, hjournal, hspends⟩ := h
  cases passes with
  | nil => cases hfirst
  | cons q rest =>
    have hstart : q.start = next := Option.some.inj hfirst
    have hfollows := hnext q hstart (hall q List.mem_cons_self)
    have hsettings : next.settings = p.start.settings := by
      rw [← hstart, hfollows.same, hmade.settings_eq]
    obtain ⟨n, -, hbetween⟩ := hfollows.between
    obtain ⟨fs, k, hfs, hmilestones⟩ := hmade.dials
    have hcarried : next.carried = p.start.carried := by
      rw [carried, if_pos (.inr hvacant.state), ← hstart, hfollows.same, hmade.same]
    have hsame' : next = { p.start with client := next.client, streamSent := p.start.carried } := by
      rw [← hstart, hfollows.same, hmade.same]
    rw [hsettings] at hlinked hspends
    refine ⟨?_, List.forall_mem_cons.mpr ⟨hmade, hall⟩, rfl, ?_, houtcome, hfinish, ?_, ?_⟩
    · rw [List.takeWhile_cons_of_pos hfollows.refused]
      simp only [List.length_cons] at hcount ⊢
      omega
    · exact List.isChain_cons_cons.mpr ⟨hfollows, hlinked⟩
    · refine hsame.trans ?_
      rw [hcarried, hsame']
    · refine ⟨_, ?_, hspends.again n hmilestones⟩
      rw [hjournal, ← hstart, hbetween, hfs]
      simp

/-- Attempts in a row that are neither cancelled nor dropped are passes in a row. -/
theorem ends_attempts_retried (m : Message) (left : Nat) (hready : s.Ready) :
    Ends (attempts m left) s (fun reply mid => ∃ passes, Retried m left s passes (.ok reply) mid)
      (fun e mid => ∀ failure, e = .failed failure → failure.isCancelled = false →
        ∃ passes, Retried m left s passes (.error failure) mid) := by
  induction left generalizing s with
  | zero =>
    refine ends_attempts_zero.mpr ((ends_attempt_made m s hready).mono ?_ ?_)
    · intro a mid hmade
      exact ⟨_, retried_last hmade (.inl rfl)⟩
    · intro e mid hmade failure hfailed _
      exact ⟨_, retried_last (hmade failure hfailed) (.inl rfl)⟩
  | succ left ih =>
    refine ends_attempts_succ.mpr ((ends_attempt_made m s hready).mono ?_ ?_)
    · intro a mid hmade
      have hrefused := Pass.isRefused_ok s mid a
      split
      · rename_i hretry
        apply (ends_pause_precedes hmade (hrefused.trans hretry)).mono
        · rintro _ next ⟨hvacant, hnext⟩
          have hready : next.Ready := by
            intro _ hstate
            rw [hvacant.state] at hstate
            cases hstate
          apply (ih hready).mono
          · rintro reply last ⟨passes, hpasses⟩
            exact ⟨_, hpasses.again hmade hvacant hnext⟩
          · intro e last hlast failure hfailed hgoes
            obtain ⟨passes, hpasses⟩ := hlast failure hfailed hgoes
            exact ⟨_, hpasses.again hmade hvacant hnext⟩
        · intro e next hcancelled failure hfailed hgoes
          rw [hcancelled failure hfailed] at hgoes
          cases hgoes
      · rename_i hretry
        exact ⟨_, retried_last hmade (.inr (hrefused.trans (Bool.eq_false_iff.mpr hretry)))⟩
    · intro e mid hmade failure hfailed _
      exact ⟨_, retried_last (hmade failure hfailed) (.inr rfl)⟩

/-- Where the last pass has left a session, it has left its connection. -/
theorem Retried.holds (h : Retried m left s passes result mid)
    (hsession : mid.client.state.inSession = true) : ∃ n, mid.client.Holds n := by
  obtain ⟨p, hp, hfinish⟩ := Option.map_eq_some_iff.mp h.finish
  have hmade := h.made p (List.mem_of_getLast? hp)
  rw [← hfinish] at hsession ⊢
  cases hr : p.result with
  | ok a =>
    obtain ⟨n, rs, -, hholds, -, -⟩ := hmade.told a hr
    exact ⟨n, hholds⟩
  | error failure =>
    rw [(hmade.broken failure hr).inSession nofun] at hsession
    cases hsession

/-! ## When the passes are over -/

/-- `later` is the submitter `s` after the message was counted and its connection was kept for the
next one, or let go of. -/
inductive Closed (s later : Submitter) : Prop where
  /-- The transaction was given up, and the session stands. -/
  | kept {n : Nat} {lines : List ReplyLine} (keeps : s.keeps = true)
      (answered : s.client.Speaks n later.client (Command.rset.answered lines))
      (holds : later.client.Holds n) (state : later.client.state = .loginComplete)
      (same : later = { s with client := later.client, streamSent := s.streamSent + 1 })
  /-- That was asked for in vain, and the connection was let go of after all. -/
  | broken {n : Nat} {rs : List Remark} {lines : List ReplyLine} (keeps : s.keeps = true)
      (asked : .said .rset ∈ rs) (cut : rs <+: Command.rset.answered lines)
      (speaks : s.client.Speaks n later.client rs) (vacant : later.client.Vacant)
      (same : later = { s with client := later.client, streamSent := 0 })
  /-- The connection was let go of. -/
  | released (full : s.keeps = false) (same : later = s.disconnect)

theorem ends_finish_closed (s : Submitter)
    (hsession : s.client.state.inSession = true → ∃ n, s.client.Holds n) :
    Ends finish s (fun _ s' => s.Closed s') fun e _ => e = .abandoned := by
  refine ends_finish_iff.mpr ?_
  split
  · rename_i hkeeps
    have hfits : s.client.state.inSession = true := (Bool.and_eq_true_iff.mp hkeeps).2
    obtain ⟨n, hholds⟩ := hsession hfits
    apply (Client.ends_reset hholds hfits).mono
    · intro reply c hc
      obtain ⟨lines, -, hspeaks, hholds, hstate⟩ := hc
      exact .kept hkeeps hspeaks hholds hstate rfl
    · intro e c hc
      obtain ⟨rs, lines, hspeaks, -, hmem, hcut⟩ := hc
      cases e with
      | failed fault =>
        have hgone := hspeaks.trans (speaks_disconnect n c)
        rw [List.append_nil] at hgone
        exact .broken hkeeps hmem hcut hgone (vacant_disconnect c) rfl
      | abandoned => rfl
  · rename_i hnot
    exact .released (Bool.eq_false_iff.mpr hnot) rfl

/-! ## A tolerant submission -/

/-- Handing the message `m` in on the tolerant submitter `s` came to `result` and left `later`: it
went through these passes, and then it was closed, once.  All the while no more was asked of the
network than passes ask for. -/
structure Persisted (m : Message) (s : Submitter) (passes : List Pass)
    (result : Except SubmitFailure Reply) (later : Submitter) : Prop where
  passed : ∃ mid, Retried m s.settings.connectRetries { s with submissions := s.submissions + 1 }
    passes result mid ∧ Submitter.finish mid = .ok () later ∧ mid.Closed later
  spends : ∃ es : List Entry, later.client.net.journal = es.reverse ++ s.client.net.journal ∧
    Spends s.settings.retryDelay passes.length es
  bounded : passes.length ≤ s.settings.connectRetries + 1

/-- What is left of a submission that has been through its passes is done once. -/
theorem Retried.ends_finish
    (h : Retried m s.settings.connectRetries { s with submissions := s.submissions + 1 } passes result
      mid) :
    Ends Submitter.finish mid (fun _ later => Persisted m s passes result later)
      fun e _ => e = .abandoned := by
  apply (((ends_finish_closed mid fun hsession => h.holds hsession).and
    (ends_finish_stays mid)).and (ends_self Submitter.finish mid)).mono
  · rintro _ later ⟨⟨hclosed, fs, hfs, hnone⟩, hr⟩
    obtain ⟨es, hes, hspends⟩ := h.spends
    refine ⟨⟨mid, h, hr, hclosed⟩, ⟨es ++ fs, ?_, hspends.stays hnone⟩, ?_⟩
    · rw [hfs, hes, List.reverse_append, List.append_assoc]
    · rw [h.count, Nat.add_comm]
      exact Nat.succ_le_succ (Nat.min_le_right ..)
  · rintro e later ⟨⟨hdropped, -⟩, -⟩
    exact hdropped

theorem ends_submit_persisted (m : Message) (hready : s.Ready)
    (htolerant : s.settings.policy = .tolerant) :
    Ends (submit m) s (fun reply later => ∃ passes, Persisted m s passes (.ok reply) later)
      (fun e later => ∀ failure, e = .failed failure → failure.isCancelled = false →
        ∃ passes, Persisted m s passes (.error failure) later) := by
  have hretries : retries s.settings = s.settings.connectRetries := by rw [retries, htolerant]
  let begun : Submitter := { s with submissions := s.submissions + 1 }
  have hattempts := ends_attempts_retried m s.settings.connectRetries (s := begun) hready
  refine ends_submit_iff.mpr (hretries ▸ hattempts.mono ?_ ?_)
  · rintro reply mid ⟨passes, hretried⟩
    refine hretried.ends_finish.mono (fun _ later hpersisted => ⟨passes, hpersisted⟩) ?_
    rintro e later rfl failure hfailed
    cases hfailed
  · intro e mid hretried
    cases e with
    | abandoned =>
      intro failure hfailed
      cases hfailed
    | failed failure =>
      dsimp only
      split
      · rename_i hcancelled
        rintro _ ⟨⟩ hgoes
        rw [hcancelled] at hgoes
        cases hgoes
      · rename_i hgoes
        obtain ⟨passes, hretried⟩ := hretried failure rfl (Bool.eq_false_iff.mpr hgoes)
        apply hretried.ends_finish.mono
        · rintro _ later hpersisted _ ⟨⟩ _
          exact ⟨passes, hpersisted⟩
        · rintro e later rfl failure' hfailed
          cases hfailed

/-- For every submitter there can be that is tolerant, and every message handed in on it: if the
call comes to a result and was not cancelled, then it made one pass and another after each refusal
of the login, the sender or the recipient, as far as the settings allow that, and the last pass
decided.  Every pass but the first came after the connection before was let go of and one pause was
made, and began by asking for a connection.  Then the message was counted and the connection kept
or let go of, once. -/
theorem tolerant_submission_persists {id : Nat} {settings : SubmitSettings} {token : Token}
    {net : Network} {s₀ : Submitter} {calls : List Call}
    (hnew : Submitter.new id settings token net = .ok s₀) (hruns : Runs s₀ calls s)
    (htolerant : s.settings.policy = .tolerant)
    (hcame : (Run.attempt (submit m) : Run SubmitFailure Submitter _) s = .ok result later)
    (hgoes : ∀ failure, result = .error failure → failure.isCancelled = false) :
    ∃ passes, Persisted m s passes result later := by
  have hsubmit := ends_submit_persisted m (hruns.ready hnew) htolerant
  unfold Run.attempt at hcame
  cases hr : submit m s with
  | ok reply later' =>
    rw [hr] at hcame
    cases hcame
    exact hsubmit.of_ok hr
  | error e later' =>
    rw [hr] at hcame
    cases e with
    | abandoned => cases hcame
    | failed failure =>
      cases hcame
      exact hsubmit.of_error hr failure rfl (hgoes failure rfl)

/-- A network whose first server refuses the recipient.  The second one takes the message. -/
def refusingOnce : Network :=
  { sockets := (serverSending ["220 mx", "250 mx", "250 ok", "450 later"] []).sockets ++
      (serverSending (takingLines ++ ["250 ok"]) []).sockets }

/-- A submitter that tries once more. -/
def tryingTwice : Submitter :=
  { settings := { streaming := true, connectRetries := 1 }, client := .new 1 {} {} refusingOnce }

theorem tolerant_submission_persists_refusedOnce :
    Submitter.new 1 { streaming := true, connectRetries := 1 } {} refusingOnce = .ok tryingTwice ∧
      ∃ reply later passes, submit shortMessage tryingTwice = .ok reply later ∧
        later.streamSent = 1 ∧ passes.length = 2 ∧
        Persisted shortMessage tryingTwice passes (.ok reply) later := by
  have hnew : Submitter.new 1 { streaming := true, connectRetries := 1 } {} refusingOnce =
      .ok tryingTwice := rfl
  have hreturns : (match submit shortMessage tryingTwice with
      | .ok _ later => later.streamSent == 1 && later.client.net.journal.countP Entry.isPaused == 1
      | .error _ _ => false) = true := by decide +kernel
  split at hreturns
  · rename_i reply later hr
    rw [Bool.and_eq_true, beq_iff_eq, beq_iff_eq] at hreturns
    obtain ⟨hsent, hpauses⟩ := hreturns
    have hcame : (Run.attempt (submit shortMessage) : Run SubmitFailure Submitter _) tryingTwice =
        .ok (.ok reply) later := by
      unfold Run.attempt
      rw [hr]
    obtain ⟨passes, hpersisted⟩ :=
      tolerant_submission_persists hnew (.nil tryingTwice) rfl hcame nofun
    refine ⟨hnew, reply, later, passes, hr, hsent, ?_, hpersisted⟩
    obtain ⟨-, ⟨es, hjournal, hspends⟩, -⟩ := hpersisted
    have hjournal : later.client.net.journal = es.reverse := hjournal.trans (List.append_nil _)
    have hone : passes.length - 1 = 1 := by
      rw [hjournal, List.countP_reverse, List.countP_eq_length_filter, hspends.paused,
        List.length_replicate] at hpauses
      exact hpauses
    omega
  · cases hreturns

end Submitter

end MailSubmission
