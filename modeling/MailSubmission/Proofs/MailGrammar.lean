import MailSubmission.Proofs.Submissions

set_option autoImplicit false

/-!
# The grammar of mail

Over one connection a submitter speaks a session: it introduces itself, then comes one transaction
after another, each for a message that was handed in and each given up before the next, and at the
end a goodbye (`Session`).  Whatever goes wrong, what passes on a connection is a beginning of such
a session.

The invariant is `Orderly`, of every connection at every moment.  Between calls, and before each
attempt, the client is at rest (`AtRest`): if its session is live, it stands, and nothing is left
of an earlier transaction in it.
-/

namespace MailSubmission

open Run

/-! ## Sessions -/

/-- A session that stands between two transactions, with the messages that these were for. -/
inductive Standing : List Message → List Remark → Prop where
  | login {rs : List Remark} (introduced : Introduced true rs) : Standing [] rs
  | message {ms : List Message} {rs talk : List Remark} {m : Message} {a : Attempt}
      {lines : List ReplyLine} (standing : Standing ms rs) (transaction : Transaction m a talk) :
      Standing (ms ++ [m]) (rs ++ talk ++ Command.rset.answered lines)

/-- A whole session: the login was refused, or the client said goodbye in the end. -/
inductive Session : List Message → List Remark → Prop where
  | refused {rs : List Remark} (introduced : Introduced false rs) : Session [] rs
  | left {ms : List Message} {rs : List Remark} {lines : List ReplyLine} (standing : Standing ms rs) :
      Session ms (rs ++ Command.quit.answered lines)

/-- What passed is the beginning of a session for some of the messages, in their order. -/
def Begins (ms : List Message) (rs : List Remark) : Prop :=
  ∃ sub full, List.Sublist sub ms ∧ Session sub full ∧ rs <+: full

section

variable {ms ms' sub : List Message} {rs rs' talk : List Remark} {m : Message}

theorem Begins.mono (h : Begins ms rs) (hms : List.Sublist ms ms') : Begins ms' rs := by
  obtain ⟨sub, full, hsub, hsession, hcut⟩ := h
  exact ⟨sub, full, hsub.trans hms, hsession, hcut⟩

theorem Begins.cutOff (h : Begins ms rs) (hcut : rs' <+: rs) : Begins ms rs' := by
  obtain ⟨sub, full, hsub, hsession, hrest⟩ := h
  exact ⟨sub, full, hsub, hsession, hcut.trans hrest⟩

/-- A session that stands can be left. -/
theorem Standing.begins_quit (h : Standing sub rs) (hsub : List.Sublist sub ms) {lines : List ReplyLine}
    (hcut : talk <+: Command.quit.answered lines) : Begins ms (rs ++ talk) :=
  ⟨sub, _, hsub, .left h, (List.prefix_append_right_inj _).mpr hcut⟩

theorem Standing.begins (h : Standing sub rs) (hsub : List.Sublist sub ms) : Begins ms rs :=
  ⟨sub, _, hsub, .left h, List.prefix_append _ (Command.quit.answered [])⟩

/-- A login can always be refused or accepted, so whatever introduces a client begins a session. -/
theorem Introduced.begins {accepted : Bool} (h : Introduced accepted rs) : Begins ms rs := by
  cases accepted with
  | true => exact (Standing.login h).begins (List.nil_sublist ms)
  | false => exact ⟨[], rs, List.nil_sublist ms, .refused h, List.prefix_refl rs⟩

end

/-! ## The invariant -/

/-- On every connection of the client `c` the beginning of a session has passed by now, where `es`
is what has happened, and nothing on those that are still to be asked for. -/
structure Orderly (ms : List Message) (es : List Entry) (c : Client) : Prop where
  numbered : ∀ n, c.held = some n → n < c.net.dialled
  untouched : ∀ n, c.net.dialled ≤ n → dialogue n es = []
  begun : ∀ n, Begins ms (dialogue n es)

/-- If the session of the client `c` is live and no call is under way, then it stands. -/
def AtRest (ms : List Message) (es : List Entry) (c : Client) : Prop :=
  c.inFlight = false → c.state.isLive = true → c.state = .loginComplete ∧
    ∃ n sub, c.held = some n ∧ List.Sublist sub ms ∧ Standing sub (dialogue n es)

section

variable {ms past all : List Message} {es fs : List Entry} {c later : Client} {n : Nat}
  {rs : List Remark} {m : Message}

theorem Orderly.mono (h : Orderly ms es c) (hms : List.Sublist ms all) : Orderly all es c :=
  ⟨h.numbered, h.untouched, fun n => (h.begun n).mono hms⟩

theorem orderly_iff : Orderly ms es c ↔ Recorded (Begins ms) es c :=
  ⟨fun h => ⟨h.numbered, h.untouched, h.begun⟩, fun h => ⟨h.numbered, h.untouched, h.each⟩⟩

/-- What tells of no connection keeps the order. -/
theorem Orderly.moves_silent (h : Orderly ms es c) (hm : c.Moves later fs)
    (hsilent : ∀ n, dialogue n fs = []) : Orderly ms (es ++ fs) later :=
  orderly_iff.mpr ((orderly_iff.mp h).moves_silent hm hsilent)

/-- So does what is said on a connection, if it goes on with a session there. -/
theorem Orderly.speaks (h : Orderly ms es c) (hs : c.Speaks n later rs)
    (hgoes : Begins ms (dialogue n es ++ rs)) : ∃ fs, c.Moves later fs ∧
      Orderly ms (es ++ fs) later ∧ dialogue n (es ++ fs) = dialogue n es ++ rs := by
  obtain ⟨fs, hm, hrecorded, hsaid⟩ := (orderly_iff.mp h).speaks hs hgoes
  exact ⟨fs, hm, orderly_iff.mpr hrecorded, hsaid⟩

/-- The session in which an attempt makes its transaction stands. -/
theorem Opening.exists_standing (ho : Opening c n rs) (h : Orderly all es c) (hrest : AtRest past es c) :
    ∃ sub, List.Sublist sub past ∧ Standing sub (dialogue n es ++ rs) := by
  cases ho with
  | standing hstate hholds =>
    obtain ⟨-, k, sub, hheld, hsub, hstanding⟩ := hrest hholds.idle (by rw [hstate]; rfl)
    obtain rfl : n = k := Option.some.inj (hholds.held.symm.trans hheld)
    exact ⟨sub, hsub, (List.append_nil _).symm ▸ hstanding⟩
  | fresh hintroduced =>
    rw [h.untouched _ (Nat.le_refl _), List.nil_append]
    exact ⟨[], List.nil_sublist past, .login hintroduced⟩

/-- A transaction in a session that stands can be given up, and then it stands again. -/
theorem Transaction.begins {sub : List Message} {a : Attempt} {talk : List Remark}
    (h : Transaction m a talk) (hstanding : Standing sub rs) (hall : List.Sublist (sub ++ [m]) all) :
    Begins all (rs ++ talk) :=
  ((Standing.message hstanding h).begins hall).cutOff (List.prefix_append _ (Command.rset.answered []))

/-- What an attempt said that returned goes on with a session, and if this is still fit for
messages, the transaction can be given up. -/
theorem Tried.begins {a : Attempt} (ht : Tried c m a n rs) (h : Orderly all es c)
    (hrest : AtRest past es c) (hall : List.Sublist (past ++ [m]) all) :
    Begins all (dialogue n es ++ rs) ∧
      (a.leaves.inSession = true → ∃ sub, List.Sublist sub past ∧
        ∀ lines, Standing (sub ++ [m]) (dialogue n es ++ rs ++ Command.rset.answered lines)) := by
  cases ht with
  | login hrefused hbare =>
    rw [h.untouched _ (Nat.le_refl _), List.nil_append]
    exact ⟨hrefused.begins, fun hlive => by cases hlive⟩
  | transaction hopening htransaction =>
    obtain ⟨sub, hsub, hstanding⟩ := hopening.exists_standing h hrest
    rw [← List.append_assoc]
    refine ⟨htransaction.begins hstanding ((hsub.append_right [m]).trans hall), fun _ => ?_⟩
    exact ⟨sub, hsub, fun lines => .message hstanding htransaction⟩

/-- So does what an attempt said that came to a halt. -/
theorem CutShort.begins (hcut : CutShort c m n rs) (h : Orderly all es c)
    (hrest : AtRest past es c) (hall : List.Sublist (past ++ [m]) all) :
    Begins all (dialogue n es ++ rs) := by
  cases hcut with
  | opening hintroduced hcut =>
    rw [h.untouched _ (Nat.le_refl _), List.nil_append]
    exact hintroduced.begins.cutOff hcut
  | message hopening hhanded hcut =>
    obtain ⟨sub, hsub, hstanding⟩ := hopening.exists_standing h hrest
    obtain ⟨a, htransaction⟩ := hhanded.transaction []
    rw [← List.append_assoc]
    refine (htransaction.begins hstanding ((hsub.append_right [m]).trans hall)).cutOff ?_
    exact (List.prefix_append_right_inj _).mpr (hcut.trans (List.prefix_append _ _))

end

/-! ## What submissions keep -/

/-- The invariant between calls: `c` is a client in order and at rest, if `before` had happened
when the first call was made, `all` are the messages handed in since, and those that the session
has been used for are among `past`. -/
def Kept (before : List Entry) (past all : List Message) (c : Client) : Prop :=
  ∃ es : List Entry, c.net.journal = es.reverse ++ before ∧ Orderly all es c ∧ AtRest past es c

/-- The invariant before a submission is finished: if the session is fit for messages, it stands
again once the transaction is given up. -/
def Finishable (before : List Entry) (past : List Message) (m : Message) (all : List Message)
    (c : Client) : Prop :=
  ∃ (es : List Entry) (n : Nat), c.net.journal = es.reverse ++ before ∧ Orderly all es c ∧
    (c.state.inSession = true → c.Holds n ∧ ∃ sub, List.Sublist sub past ∧
      ∀ lines, Standing (sub ++ [m]) (dialogue n es ++ Command.rset.answered lines))

section

variable {before : List Entry} {past all : List Message} {es fs : List Entry} {m : Message}
  {n : Nat} {c later : Client} {rs : List Remark}

/-- A client without a connection is at rest. -/
theorem Client.Vacant.atRest (h : c.Vacant) : AtRest past es c := by
  intro _ hlive
  rw [h.state] at hlive
  cases hlive

/-- So is one on which a call was dropped: the next call will find it broken. -/
theorem atRest_of_inFlight (h : c.inFlight = true) : AtRest past es c := by
  intro hidle
  rw [h] at hidle
  cases hidle

/-- What lets go of the connection keeps the order. -/
theorem Orderly.vacate (h : Orderly all es c) (hjournal : c.net.journal = es.reverse ++ before)
    (hm : c.Moves later fs) (hsilent : ∀ n, dialogue n fs = []) (hvacant : later.Vacant) :
    Kept before past all later :=
  ⟨es ++ fs, hm.journal_append hjournal, h.moves_silent hm hsilent, hvacant.atRest⟩

/-- What is left of attempts that came to a halt is in order and at rest; if they failed, there is
no session. -/
def Stopped (before : List Entry) (all : List Message) (e : Halt SubmitFailure) (s : Submitter) : Prop :=
  Kept before all all s.client ∧ (e ≠ .abandoned → s.client.state.inSession = false)

theorem Orderly.stopped {s : Submitter} {e : Halt SubmitFailure} (h : Orderly all es s.client)
    (hjournal : s.client.net.journal = es.reverse ++ before) (hbroken : s.Broken e) :
    Stopped before all e s := by
  obtain ⟨halt, rfl, hbroken⟩ := hbroken
  cases halt with
  | failed fault =>
    obtain ⟨-, hbad, -⟩ := hbroken
    refine ⟨⟨es, hjournal, h, ?_⟩, fun _ => by rw [hbad]; rfl⟩
    intro _ hlive
    rw [hbad] at hlive
    cases hlive
  | abandoned => exact ⟨⟨es, hjournal, h, atRest_of_inFlight hbroken⟩, fun hne => absurd rfl hne⟩

/-- At rest, an attempt can be made. -/
theorem Kept.ready {s : Submitter} (h : Kept before past all s.client) : s.Ready := by
  obtain ⟨es, -, -, hrest⟩ := h
  intro hidle hstate
  obtain ⟨-, n, sub, hheld, -⟩ := hrest hidle (by rw [hstate]; rfl)
  exact ⟨n, hheld⟩

/-- At rest, a client that can say goodbye has a connection. -/
theorem Kept.exists_holds {s : Submitter} (h : Kept before past all s.client)
    (hfits : s.mayQuit = true) : ∃ n, s.client.Holds n := by
  obtain ⟨es, -, -, hrest⟩ := h
  obtain ⟨hidle, hlive⟩ := Bool.and_eq_true_iff.mp hfits
  have hidle : s.client.inFlight = false := by rwa [Bool.not_eq_true'] at hidle
  obtain ⟨-, n, sub, hheld, -⟩ := hrest hidle hlive
  exact ⟨n, hidle, hheld⟩

/-- The connection that a client in order has is one that was asked for. -/
theorem Kept.numbered (h : Kept before past all c) (hheld : c.held = some n) : n < c.net.dialled := by
  obtain ⟨es, -, horderly, -⟩ := h
  exact horderly.numbered n hheld

/-- An attempt that returns can be finished. -/
theorem Kept.attempt {s : Submitter} (h : Kept before past all s.client)
    (hall : List.Sublist (past ++ [m]) all) :
    Ends (Submitter.attempt m) s (fun _ s' => Finishable before past m all s'.client)
      (Stopped before all) := by
  have hready := h.ready
  obtain ⟨es, hjournal, horderly, hrest⟩ := h
  apply (Submitter.ends_attempt_said m s hready).mono
  · intro a s' hs'
    obtain ⟨n, rs, hspeaks, hholds, hstate, htried⟩ := hs'
    obtain ⟨hbegins, hgiven⟩ := htried.begins horderly hrest hall
    obtain ⟨fs, hm, horderly', hsaid⟩ := horderly.speaks hspeaks hbegins
    refine ⟨es ++ fs, n, hm.journal_append hjournal, horderly', fun hsession => ⟨hholds, ?_⟩⟩
    rw [hsaid]
    exact hgiven (hstate ▸ hsession)
  · intro e s' hs'
    obtain ⟨n, rs, hspeaks, hbroken, hcut⟩ := hs'
    have hbegins := hcut.begins horderly hrest hall
    obtain ⟨fs, hm, horderly', -⟩ := horderly.speaks hspeaks hbegins
    exact horderly'.stopped (hm.journal_append hjournal) hbroken

/-- The pause between two attempts keeps the order. -/
theorem Finishable.pause {s : Submitter} (h : Finishable before past m all s.client) :
    Ends Submitter.pause { s with client := s.client.disconnect }
      (fun _ s' => Kept before past all s'.client) (Stopped before all) := by
  obtain ⟨es, n, hjournal, horderly, -⟩ := h
  apply (Submitter.ends_pause_disconnected s).mono
  · intro _ s' hs'
    obtain ⟨hvacant, -, hm⟩ := hs'
    exact horderly.vacate hjournal hm (by simp [dialogue_release, Entry.remarks]) hvacant
  · intro e s' hs'
    obtain ⟨hvacant, halt, -, -, hm⟩ := hs'
    exact ⟨horderly.vacate hjournal hm (by simp [dialogue_release]) hvacant,
      fun _ => by rw [hvacant.state]; rfl⟩

/-- Finished, a submission leaves the client at rest; its message is one of those that the
session has been used for. -/
theorem Finishable.finish {s : Submitter} (h : Finishable before past m all s.client)
    (hall : List.Sublist (past ++ [m]) all) :
    Ends Submitter.finish s (fun _ s' => Kept before all all s'.client)
      (fun _ s' => Kept before all all s'.client) := by
  obtain ⟨es, n, hjournal, horderly, hgiven⟩ := h
  -- What closes the transaction goes on with the session.
  have hcloses : ∀ {rs : List Remark} {c : Client},
      Submitter.Closes .rset s.client.state.inSession n s.client c rs →
      ∃ fs, s.client.Moves c fs ∧ Orderly all (es ++ fs) c ∧
        dialogue n (es ++ fs) = dialogue n es ++ rs := by
    intro rs c hc
    refine horderly.speaks hc.speaks ?_
    cases hsession : s.client.state.inSession with
    | false =>
      rw [hc.silent hsession, List.append_nil]
      exact horderly.begun n
    | true =>
      obtain ⟨-, sub, hsub, hstanding⟩ := hgiven hsession
      obtain ⟨lines, hcut⟩ := hc.cut
      exact ((hstanding lines).begins ((hsub.append_right [m]).trans hall)).cutOff
        ((List.prefix_append_right_inj _).mpr hcut)
  apply (Submitter.ends_finish s fun hsession => (hgiven hsession).1).mono
  · intro _ s' hs'
    obtain ⟨rs, hc, hleft⟩ := hs'
    obtain ⟨fs, hm, horderly', hsaid⟩ := hcloses hc
    refine ⟨es ++ fs, hm.journal_append hjournal, horderly', ?_⟩
    rcases hleft with hvacant | ⟨hholds, hstate, lines, rfl⟩
    · exact hvacant.atRest
    · intro _ _
      have hsession : s.client.state.inSession = true := by
        cases hsession : s.client.state.inSession with
        | true => rfl
        | false => cases hc.silent hsession
      obtain ⟨-, sub, hsub, hstanding⟩ := hgiven hsession
      refine ⟨hstate, n, sub ++ [m], hholds.held, (hsub.append_right [m]).trans hall, ?_⟩
      rw [hsaid]
      exact hstanding lines
  · intro e s' hs'
    obtain ⟨-, hmark, rs, hc⟩ := hs'
    obtain ⟨fs, hm, horderly', -⟩ := hcloses hc
    exact ⟨es ++ fs, hm.journal_append hjournal, horderly', atRest_of_inFlight hmark⟩

theorem Kept.attempts {s : Submitter} (h : Kept before past all s.client)
    (hall : List.Sublist (past ++ [m]) all) (left : Nat) :
    Ends (Submitter.attempts m left) s (fun _ s' => Finishable before past m all s'.client)
      (Stopped before all) := by
  refine Submitter.ends_attempts (fun s => Kept before past all s.client) m left ?_ ?_ h
  · intro s hs
    exact hs.attempt hall
  · intro s mid stage reply hs hr _
    exact ((hs.attempt hall).of_ok hr).pause

/-- A submission keeps the order, however it ends. -/
theorem Kept.submit {s : Submitter} (h : Kept before past past s.client) (m : Message) :
    Ends (Submitter.submit m) s (fun _ s' => Kept before (past ++ [m]) (past ++ [m]) s'.client)
      (fun _ s' => Kept before (past ++ [m]) (past ++ [m]) s'.client) := by
  have hall := List.Sublist.refl (past ++ [m])
  have hstart : Kept before past (past ++ [m]) s.client := by
    obtain ⟨es, hjournal, horderly, hrest⟩ := h
    exact ⟨es, hjournal, horderly.mono (List.sublist_append_left past [m]), hrest⟩
  have hattempts := hstart.attempts (s := { s with submissions := s.submissions + 1 }) hall
    (Submitter.retries s.settings)
  refine Submitter.ends_submit hattempts ?_ ?_
  · intro reply mid hmid
    exact hmid.finish hall
  · intro failure mid _ hkept
    obtain ⟨es, hjournal, horderly, -⟩ := hkept
    exact horderly.vacate hjournal (Client.moves_release mid.client rfl rfl)
      (fun n => dialogue_release n mid.client) (Submitter.vacant_disconnect mid.client)

/-- A goodbye ends a session that stands. -/
theorem Kept.quit {s : Submitter} (h : Kept before all all s.client) :
    Ends Submitter.quit s (fun _ s' => Kept before all all s'.client)
      (fun _ s' => Kept before all all s'.client) := by
  obtain ⟨es, hjournal, horderly, hrest⟩ := h
  -- The connection on which the goodbye is said, if there is to be one.
  obtain ⟨n, hheld, hgoes⟩ : ∃ n, (s.mayQuit = true → s.client.Holds n) ∧
      ∀ rs c, Submitter.Closes .quit s.mayQuit n s.client c rs → Begins all (dialogue n es ++ rs) := by
    cases hfits : s.mayQuit with
    | false =>
      refine ⟨0, nofun, fun rs c hc => ?_⟩
      rw [hc.silent rfl, List.append_nil]
      exact horderly.begun 0
    | true =>
      obtain ⟨hidle, hlive⟩ := Bool.and_eq_true_iff.mp hfits
      have hidle : s.client.inFlight = false := by rwa [Bool.not_eq_true'] at hidle
      obtain ⟨-, n, sub, hheld, hsub, hstanding⟩ := hrest hidle hlive
      refine ⟨n, fun _ => ⟨hidle, hheld⟩, fun rs c hc => ?_⟩
      obtain ⟨lines, hcut⟩ := hc.cut
      exact hstanding.begins_quit hsub hcut
  have hkeeps : ∀ {rs : List Remark} {c : Client},
      Submitter.Closes .quit s.mayQuit n s.client c rs → (∀ es, AtRest all es c) →
      Kept before all all c := by
    intro rs c hc hrest'
    obtain ⟨fs, hm, horderly', -⟩ := horderly.speaks hc.speaks (hgoes rs c hc)
    exact ⟨es ++ fs, hm.journal_append hjournal, horderly', hrest' _⟩
  apply (Submitter.ends_quit s hheld).mono
  · intro _ s' hs'
    obtain ⟨hvacant, rs, hc⟩ := hs'
    exact hkeeps hc fun _ => hvacant.atRest
  · intro e s' hs'
    obtain ⟨-, hmark, rs, hc⟩ := hs'
    exact hkeeps hc fun _ => atRest_of_inFlight hmark

/-- What goes on between calls keeps the order too. -/
theorem Kept.meanwhile (h : Kept before past all c) (hw : c.Meanwhile later) :
    Kept before past all later := by
  obtain ⟨es, hjournal, horderly, hrest⟩ := h
  have hm := hw.moves
  have hlater := horderly.moves_silent hm fun _ => rfl
  rw [List.append_nil] at hlater
  have hstate : later.state = c.state := by rw [hw.same]
  have hmark : later.inFlight = c.inFlight := by rw [hw.same]
  refine ⟨es, hw.journal.trans hjournal, hlater, ?_⟩
  unfold AtRest
  rw [hstate, hmark, hw.held]
  exact hrest

end

namespace Submitter

variable {before : List Entry} {past : List Message} {s later : Submitter} {calls : List Call}

/-- A call keeps the order, however it ends. -/
theorem Call.kept (call : Call) (h : Kept before past past s.client) :
    Kept before (past ++ call.messages) (past ++ call.messages) (call.after s).client := by
  have hsubmit : ∀ m, Kept before (past ++ [m]) (past ++ [m]) ((Call.submit m).after s).client :=
    fun m => Call.after_of_ends (p := fun s' => Kept before _ _ s'.client) (ends_bind.mpr (h.submit m))
  cases call with
  | submit m => exact hsubmit m
  | measuredSubmit m =>
    rw [Call.after_measuredSubmit]
    exact hsubmit m
  | disconnect =>
    obtain ⟨es, hjournal, horderly, -⟩ := h
    rw [Call.messages, List.append_nil]
    exact horderly.vacate hjournal (Client.moves_release s.client rfl rfl)
      (fun n => dialogue_release n s.client) (vacant_disconnect s.client)
  | quit =>
    rw [Call.messages, List.append_nil]
    exact Call.after_of_ends (p := fun s' => Kept before _ _ s'.client) h.quit

/-- So does a run, from call to call. -/
theorem Runs.kept (hr : Runs s calls later) (h : Kept before past past s.client) :
    Kept before (past ++ calls.flatMap Call.messages) (past ++ calls.flatMap Call.messages)
      later.client := by
  induction hr generalizing past with
  | nil s => rwa [List.flatMap_nil, List.append_nil]
  | meanwhile wait _ ih => exact ih (h.meanwhile wait)
  | call _ ih =>
    have hrest := ih (Call.kept _ h)
    rwa [List.append_assoc, ← List.flatMap_cons] at hrest

/-- A new submitter is in order. -/
theorem kept_new {id : Nat} {settings : SubmitSettings} {token : Token} {net : Network}
    (hnew : Submitter.new id settings token net = .ok s) : Kept net.journal [] [] s.client := by
  unfold Submitter.new at hnew
  split at hnew
  · cases hnew
  · cases hnew
    refine ⟨[], rfl, ⟨nofun, fun _ _ => rfl, fun n => ?_⟩, nofun⟩
    exact (introduced_refused []).begins.cutOff List.nil_prefix

/-- Whatever has been done with a submitter, an attempt can be made. -/
theorem Runs.ready {id : Nat} {settings : SubmitSettings} {token : Token} {net : Network}
    (hr : Runs s calls later) (hnew : Submitter.new id settings token net = .ok s) : later.Ready :=
  (hr.kept (kept_new hnew)).ready

/-! ## The sessions of a run -/

/-- For every submitter there can be and every run of calls on it.  What passes on each
connection is the beginning of a session for some of the messages handed in, in their order: the
client introduces itself, each of these messages makes one transaction, which goes from step to
step only as the server accepts and is given up before the next, and the client says goodbye in
the end. -/
theorem sessions_keep_to_grammar {id : Nat} {settings : SubmitSettings} {token : Token}
    {net : Network} (hnew : Submitter.new id settings token net = .ok s)
    (hruns : Runs s calls later) :
    ∃ es : List Entry, later.client.net.journal = es.reverse ++ net.journal ∧
      ∀ n, ∃ messages full, List.Sublist messages (calls.flatMap Call.messages) ∧
        Session messages full ∧ dialogue n es <+: full := by
  obtain ⟨es, hjournal, horderly, -⟩ := hruns.kept (kept_new hnew)
  rw [List.nil_append] at horderly
  exact ⟨es, hjournal, horderly.begun⟩

/-- A server takes a message and falls silent before the transaction is given up. -/
theorem sessions_keep_to_grammar_taken :
    ∃ s later, Submitter.new 1 { streaming := true } {} (serverSending takingLines [.hang]) = .ok s ∧
      Runs s [.submit shortMessage, .quit] later ∧
      ∃ es : List Entry, later.client.net.journal = es.reverse ∧
        ∀ n, ∃ messages full, List.Sublist messages [shortMessage] ∧ Session messages full ∧
          dialogue n es <+: full := by
  let s : Submitter :=
    { settings := { streaming := true }, client := .new 1 {} {} (serverSending takingLines [.hang]) }
  have hnew : Submitter.new 1 { streaming := true } {} (serverSending takingLines [.hang]) = .ok s :=
    rfl
  have hruns : Runs s [.submit shortMessage, .quit] _ := .call (.call (.nil _))
  obtain ⟨es, hjournal, hsessions⟩ := sessions_keep_to_grammar hnew hruns
  exact ⟨s, _, hnew, hruns, es, hjournal.trans (List.append_nil _), hsessions⟩

end Submitter

end MailSubmission
