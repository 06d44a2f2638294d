import MailSubmission.Proofs.ClientDialogue
import MailSubmission.Submission.Submitter

set_option autoImplicit false

/-!
# What an attempt says

An attempt to hand a message in opens a session, unless one stands already, and goes through one
transaction in it.  What passes on its connection follows from how it ends (`Transaction`,
`Tried`); if it comes to a halt, what passed is a beginning of handing the message over (`CutShort`).

Attempts in a row are said by a rule for the loop (`Submitter.ends_attempts`): what holds before
the first attempt, and before the next one after each that may be followed by another, holds
before the last.
-/

namespace MailSubmission

open Run

/-! ## The grammar of a transaction -/

/-- The server greeted, and the client introduced itself.  The server accepted that, or not. -/
def Introduced (accepted : Bool) (rs : List Remark) : Prop :=
  ∃ (greeting lines : List ReplyLine) (hello : Command), hello.isHello = true ∧
    ((ReplyLine.collapse lines).code == Code.ok) = accepted ∧
    rs = .heard greeting :: hello.answered lines

/-- Whatever the greeting, a client may introduce itself and be refused. -/
theorem introduced_refused (greeting : List ReplyLine) :
    Introduced false (.heard greeting :: (Command.helo "").answered []) :=
  ⟨greeting, [], .helo "", rfl, rfl, rfl⟩

/-- What the server has agreed to so far brings the session to this state. -/
inductive Agreed (m : Message) : SessionState → List Remark → Prop where
  | nothing : Agreed m .loginComplete []
  | sender {params : Option String} {lines : List ReplyLine}
      (accepted : (ReplyLine.collapse lines).isFailure = false) :
      Agreed m .mailFromDone ((Command.mailFrom m.sender params).answered lines)
  | recipient {rs : List Remark} {params : Option String} {lines : List ReplyLine}
      (sender : Agreed m .mailFromDone rs)
      (accepted : (ReplyLine.collapse lines).isFailure = false) :
      Agreed m .rcptToDone (rs ++ (Command.rcptTo m.recipient params).answered lines)

/-- The answer to a message decides whether it was delivered. -/
def Attempt.ofReply (reply : Reply) : Attempt :=
  if reply.isDelivered then .delivered reply else .rejected .data reply

/-- A transaction, by the attempt that it belongs to.  Each step follows when the one before it
was accepted. -/
inductive Transaction (m : Message) : Attempt → List Remark → Prop where
  | sender {params : Option String} {lines : List ReplyLine}
      (refused : (ReplyLine.collapse lines).isFailure = true) :
      Transaction m (.rejected .sender (ReplyLine.collapse lines))
        ((Command.mailFrom m.sender params).answered lines)
  | recipient {rs : List Remark} {params : Option String} {lines : List ReplyLine}
      (sender : Agreed m .mailFromDone rs)
      (refused : (ReplyLine.collapse lines).isFailure = true) :
      Transaction m (.rejected .recipient (ReplyLine.collapse lines))
        (rs ++ (Command.rcptTo m.recipient params).answered lines)
  | message {rs talk : List Remark} {reply : Reply} (envelope : Agreed m .rcptToDone rs)
      (handed : HandedOver m.sources reply talk) : Transaction m (.ofReply reply) (rs ++ talk)

/-- The whole message was handed over; the answer is still to come. -/
def Handed (m : Message) (rs : List Remark) : Prop :=
  ∃ (envelope : List Remark) (goAhead : List ReplyLine), Agreed m .rcptToDone envelope ∧
    (ReplyLine.collapse goAhead).code = Code.startData ∧
    rs = envelope ++ (Command.data.answered goAhead ++ Message.poured m.sources)

/-- The state that a refusal at a stage leaves a session in. -/
def Stage.leaves : Stage → SessionState
  | .login => .connected
  | .sender => .loginComplete
  | .recipient => .mailFromDone
  | .data => .rcptToDone

/-- The state that an attempt leaves a session in. -/
def Attempt.leaves : Attempt → SessionState
  | .delivered _ => .rcptToDone
  | .rejected stage _ => stage.leaves

/-- Another attempt may follow. -/
def Attempt.isRetryable : Attempt → Bool
  | .delivered _ => false
  | .rejected stage _ => stage.isRetryable

section

variable {m : Message} {rs : List Remark} {state : SessionState}

/-- The lines of the shortest reply that accepts. -/
def acceptLines : List ReplyLine := [{ code := Code.ok }]

/-- Whatever was agreed to, the message can still be handed over. -/
theorem Agreed.exists_handed (h : Agreed m state rs) : ∃ full, Handed m full ∧ rs <+: full := by
  have henvelope : ∀ {rs}, Agreed m .rcptToDone rs → ∃ full, Handed m full ∧ rs <+: full :=
    fun h => ⟨_, ⟨_, startLines, h, rfl, rfl⟩, List.prefix_append _ _⟩
  have hsender : ∀ {rs}, Agreed m .mailFromDone rs → ∃ full, Handed m full ∧ rs <+: full := by
    intro rs h
    have hrecipient : Agreed m .rcptToDone (rs ++ (Command.rcptTo m.recipient none).answered acceptLines) :=
      .recipient h rfl
    obtain ⟨full, hfull, hrest⟩ := henvelope hrecipient
    exact ⟨full, hfull, (List.prefix_append _ _).trans hrest⟩
  cases h with
  | nothing =>
    have hagreed : Agreed m .mailFromDone ((Command.mailFrom m.sender none).answered acceptLines) :=
      .sender rfl
    obtain ⟨full, hfull, -⟩ := hsender hagreed
    exact ⟨full, hfull, List.nil_prefix⟩
  | sender accepted => exact hsender (.sender accepted)
  | recipient sender accepted => exact henvelope (.recipient sender accepted)

/-- A beginning of the next command, had it been agreed to, is one of handing the message over. -/
theorem Agreed.exists_handed_cut {command : Command} {part : List Remark}
    (h : Agreed m state (rs ++ command.answered acceptLines)) (hcut : part <+: command.asked) :
    ∃ full, Handed m full ∧ rs ++ part <+: full := by
  obtain ⟨full, hfull, hrest⟩ := h.exists_handed
  refine ⟨full, hfull, List.IsPrefix.trans ?_ hrest⟩
  exact (List.prefix_append_right_inj _).mpr (hcut.trans (List.prefix_append _ _))

/-- A message that is handed over makes a transaction with its answer. -/
theorem Handed.transaction (h : Handed m rs) (lines : List ReplyLine) :
    ∃ a, Transaction m a (rs ++ [.heard lines]) := by
  obtain ⟨envelope, goAhead, hagreed, hcode, rfl⟩ := h
  have htransaction : Transaction m _ (envelope ++ (_ ++ [.heard lines])) :=
    .message hagreed (.poured hcode)
  rw [← List.append_assoc] at htransaction
  exact ⟨_, htransaction⟩

end

/-- The session in which an attempt makes its transaction: it stands, or it is opened on the next
connection. -/
inductive Opening (c : Client) : Nat → List Remark → Prop where
  | standing {n : Nat} (state : c.state = .loginComplete) (holds : c.Holds n) : Opening c n []
  | fresh {rs : List Remark} (introduced : Introduced true rs) : Opening c c.net.dialled rs

/-- What an attempt said that returned. -/
inductive Tried (c : Client) (m : Message) : Attempt → Nat → List Remark → Prop where
  | login {rs : List Remark} {reply : Reply} (refused : Introduced false rs)
      (bare : reply.size = none) : Tried c m (.rejected .login reply) c.net.dialled rs
  | transaction {a : Attempt} {n : Nat} {op rs : List Remark} (opening : Opening c n op)
      (transaction : Transaction m a rs) : Tried c m a n (op ++ rs)

/-- What an attempt said that came to a halt. -/
inductive CutShort (c : Client) (m : Message) : Nat → List Remark → Prop where
  | opening {accepted : Bool} {rs full : List Remark} (introduced : Introduced accepted full)
      (cut : rs <+: full) : CutShort c m c.net.dialled rs
  | message {n : Nat} {op rs full : List Remark} (opening : Opening c n op)
      (handed : Handed m full) (cut : rs <+: full) : CutShort c m n (op ++ rs)

namespace Network

/-- What a pause that ended so notes. -/
theorem waits_pause (net : Network) (token : Token) (ms : Nat) :
    match net.pause token ms with
    | (none, later) => net.Waits later [.paused ms]
    | (some .cancelled, later) => net.Waits later [.interrupted]
    | (some .abandoned, later) => net.Waits later []
    | (some .timedOut, _) => False := by
  have hw := waits_sleepUntil net token (net.now + ms)
  have hcut := sleepUntil_ne_timedOut net token (net.now + ms)
  unfold pause
  cases net.isFired token with
  | true => exact waits_note net .interrupted
  | false =>
    rw [if_neg Bool.false_ne_true]
    cases hr : net.sleepUntil token (net.now + ms) with
    | mk cut later =>
      rw [hr] at hw hcut
      cases cut with
      | none => exact hw.trans (waits_note later (.paused ms))
      | some cut =>
        cases cut with
        | cancelled => exact hw.trans (waits_note later .interrupted)
        | timedOut => exact absurd rfl hcut
        | abandoned => exact hw

end Network

namespace Client

variable {c : Client} {net : Network} {es : List Entry}

/-- The client has no connection and no call under way, as one that has not been used. -/
structure Vacant (c : Client) : Prop where
  state : c.state = .fresh
  connection : c.connection = none
  idle : c.inFlight = false

/-- Waiting touches nothing but the network. -/
theorem moves_waits (hw : c.net.Waits net es) (hes : ∀ e ∈ es, ∀ n, ¬ e.Uses n) :
    c.Moves { c with net } es where
  journal := hw.journal
  now_le := hw.now_le
  fired := hw.fired
  dialled_le := Nat.le_of_eq hw.dialled.symm
  own e he n hu := absurd hu (hes e he n)
  held _ hn := .inl hn

end Client

namespace Submitter

variable {α : Type} {m : Message} {n : Nat} {s later : Submitter} {rs : List Remark}

/-! ## Work with the client -/

/-- The halt of a client as one of its submitter. -/
def failed (s : Submitter) : Halt Fault → Halt SubmitFailure
  | .failed fault => .failed (s.failure fault)
  | .abandoned => .abandoned

/-- What a halt of the client leaves. -/
def Broken (s : Submitter) (e : Halt SubmitFailure) : Prop :=
  ∃ halt, e = s.failed halt ∧ s.client.Broken halt

/-- No session is left by a failure. -/
theorem Broken.inSession {e : Halt SubmitFailure} (h : s.Broken e) (hfailed : e ≠ .abandoned) :
    s.client.state.inSession = false := by
  obtain ⟨halt, rfl, hbroken⟩ := h
  cases halt with
  | failed fault =>
    rw [hbroken.2.1]
    rfl
  | abandoned => exact absurd rfl hfailed

theorem ends_tryClient {act : Run Fault Client α} {ok : Except Fault α → Submitter → Prop}
    {halt : Halt SubmitFailure → Submitter → Prop} :
    Ends (tryClient act) s ok halt ↔
      Ends act s.client (fun a c' => ok (.ok a) { s with client := c' }) fun e c' =>
        match e with
        | .failed fault => ok (.error fault) { s with client := c' }
        | .abandoned => halt .abandoned { s with client := c' } := by
  unfold Ends tryClient Run.within Run.attempt
  cases act s.client with
  | ok a c' => exact Iff.rfl
  | error e c' =>
    cases e with
    | failed fault => exact Iff.rfl
    | abandoned => exact Iff.rfl

theorem ends_onClient {act : Run Fault Client α} {ok : α → Submitter → Prop}
    {halt : Halt SubmitFailure → Submitter → Prop} :
    Ends (onClient act) s ok halt ↔
      Ends act s.client (fun a c' => ok a { s with client := c' }) fun e c' =>
        halt (failed { s with client := c' } e) { s with client := c' } := by
  simp only [onClient, ends_bind, ends_tryClient]
  unfold Ends
  cases act s.client with
  | ok a c' => exact Iff.rfl
  | error e c' =>
    cases e with
    | failed fault => exact Iff.rfl
    | abandoned => exact Iff.rfl

/-! ## One attempt -/

/-- A login that stands has its connection. -/
def Ready (s : Submitter) : Prop :=
  s.client.inFlight = false → s.client.state = .loginComplete → ∃ n, s.client.held = some n

/-- Within a transaction of the message `m` in which `before` has passed on the connection `n`,
the call completes the transaction, or comes to a halt with a beginning of handing `m` over. -/
def Continues (m : Message) (n : Nat) (before : List Remark)
    (act : Run SubmitFailure Submitter Attempt) (s : Submitter) : Prop :=
  Ends act s
    (fun a s' => ∃ rs, s.client.Speaks n s'.client rs ∧ s'.client.Holds n ∧
      s'.client.state = a.leaves ∧ Transaction m a (before ++ rs))
    fun e s' => ∃ rs full, s.client.Speaks n s'.client rs ∧ s'.Broken e ∧
      Handed m full ∧ before ++ rs <+: full

variable {before : List Remark}

/-- What is left of a transaction once the envelope is agreed on. -/
def giveMessage (m : Message) : Run SubmitFailure Submitter Attempt := do
  let reply ← onClient (Client.sendData m.sources)
  if reply.isDelivered then return .delivered reply else return .rejected .data reply

/-- What is left of it once the sender is agreed on. -/
def giveRecipient (m : Message) (dsn : Option Dsn) : Run SubmitFailure Submitter Attempt := do
  let reply ← onClient (Client.recipient m.recipient dsn)
  if reply.isFailure then return .rejected .recipient reply
  giveMessage m

/-- A transaction. -/
def giveSender (m : Message) (dsn : Option Dsn) : Run SubmitFailure Submitter Attempt := do
  let reply ← onClient (Client.sender m.sender dsn)
  if reply.isFailure then return .rejected .sender reply
  giveRecipient m dsn

/-- An attempt is a transaction in a session. -/
theorem ends_attempt_iff {ok : Attempt → Submitter → Prop}
    {halt : Halt SubmitFailure → Submitter → Prop} :
    Ends (attempt m) s ok halt ↔ Ends ensureSession s (fun refusal mid =>
      match refusal with
      | none => Ends (giveSender m mid.settings.dsn) mid ok halt
      | some reply => ok (.rejected .login reply) mid) halt := by
  rw [attempt, ends_bind]
  unfold Ends
  cases ensureSession s with
  | ok refusal mid => cases refusal <;> exact Iff.rfl
  | error e mid => exact Iff.rfl

theorem continues_giveMessage (hagreed : Agreed m .rcptToDone before) (hholds : s.client.Holds n)
    (hstate : s.client.state = .rcptToDone) : Continues m n before (giveMessage m) s := by
  refine ends_bind.mpr (ends_onClient.mpr
    ((Client.ends_sendData_said m.sources hholds hstate).mono ?_ ?_))
  · intro reply c hc
    obtain ⟨rs, hspeaks, hholds, hstate, hhanded⟩ := hc
    have htransaction : Transaction m (.ofReply reply) (before ++ rs) := .message hagreed hhanded
    unfold Attempt.ofReply at htransaction
    refine ends_ite.mpr ?_
    split
    · rename_i hdelivered
      rw [if_pos hdelivered] at htransaction
      exact ⟨rs, hspeaks, hholds, hstate, htransaction⟩
    · rename_i hdelivered
      rw [if_neg hdelivered] at htransaction
      exact ⟨rs, hspeaks, hholds, hstate, htransaction⟩
  · intro e c hc
    obtain ⟨rs, goAhead, hspeaks, hbroken, hcode, hcut⟩ := hc
    exact ⟨rs, _, hspeaks, ⟨e, rfl, hbroken⟩, ⟨before, goAhead, hagreed, hcode, rfl⟩,
      (List.prefix_append_right_inj _).mpr hcut⟩

/-- A command of the envelope, after which the transaction goes on unless the server refuses. -/
theorem continues_command {act : Run Fault Client Reply} {command : Command} {stage : Stage}
    {state : SessionState} {next : Run SubmitFailure Submitter Attempt}
    (hact : Ends act s.client
      (fun reply c' => ∃ lines, reply = ReplyLine.collapse lines ∧
        s.client.Speaks n c' (command.answered lines) ∧ c'.Holds n ∧
        c'.state = if (ReplyLine.collapse lines).isFailure then stage.leaves else state)
      (fun e c' => ∃ rs, s.client.Speaks n c' rs ∧ c'.Broken e ∧ rs <+: command.asked))
    (hrefused : ∀ lines, (ReplyLine.collapse lines).isFailure = true →
      Transaction m (.rejected stage (ReplyLine.collapse lines)) (before ++ command.answered lines))
    (hagreed : ∀ lines, (ReplyLine.collapse lines).isFailure = false →
      Agreed m state (before ++ command.answered lines))
    (hnext : ∀ lines c, Agreed m state (before ++ command.answered lines) → c.Holds n →
      c.state = state → Continues m n (before ++ command.answered lines) next { s with client := c }) :
    Continues m n before (do
      let reply ← onClient act
      if reply.isFailure then return .rejected stage reply
      next) s := by
  refine ends_bind.mpr (ends_onClient.mpr (hact.mono ?_ ?_))
  · intro reply c hc
    obtain ⟨lines, rfl, hspeaks, hholds, hstate⟩ := hc
    refine ends_ite.mpr ?_
    cases hfailure : (ReplyLine.collapse lines).isFailure with
    | true =>
      rw [hfailure] at hstate
      exact ⟨_, hspeaks, hholds, hstate, hrefused lines hfailure⟩
    | false =>
      rw [hfailure] at hstate
      have hgoes := hnext lines c (hagreed lines hfailure) hholds hstate
      apply hgoes.mono
      · intro a s' hs'
        obtain ⟨rs, hspeaks', hholds', hleaves, htransaction⟩ := hs'
        rw [List.append_assoc] at htransaction
        exact ⟨_, hspeaks.trans hspeaks', hholds', hleaves, htransaction⟩
      · intro e s' hs'
        obtain ⟨rs, full, hspeaks', hbroken, hfull, hcut⟩ := hs'
        rw [List.append_assoc] at hcut
        exact ⟨_, full, hspeaks.trans hspeaks', hbroken, hfull, hcut⟩
  · intro e c hc
    obtain ⟨rs, hspeaks, hbroken, hcut⟩ := hc
    obtain ⟨full, hfull, hcut⟩ := (hagreed acceptLines rfl).exists_handed_cut hcut
    exact ⟨rs, full, hspeaks, ⟨e, rfl, hbroken⟩, hfull, hcut⟩

theorem continues_giveRecipient (dsn : Option Dsn) (hagreed : Agreed m .mailFromDone before)
    (hholds : s.client.Holds n) (hstate : s.client.state = .mailFromDone) :
    Continues m n before (giveRecipient m dsn) s := by
  obtain ⟨params, hrecipient⟩ := Client.ends_recipient m.recipient dsn hholds hstate
  refine continues_command hrecipient (fun _ h => .recipient hagreed h)
    (fun _ h => .recipient hagreed h) ?_
  intro lines c hagreed hholds hstate
  exact continues_giveMessage hagreed hholds hstate

theorem continues_giveSender (m : Message) (dsn : Option Dsn) (hholds : s.client.Holds n)
    (hstate : s.client.state = .loginComplete) : Continues m n [] (giveSender m dsn) s := by
  obtain ⟨params, hsender⟩ := Client.ends_sender m.sender dsn hholds hstate
  refine continues_command hsender (fun _ h => .sender h) (fun _ h => .sender h) ?_
  intro lines c hagreed hholds hstate
  exact continues_giveRecipient dsn hagreed hholds hstate

/-- The part of an attempt that opens a session. -/
def openSession (host : String) (port : Nat) : Run SubmitFailure Submitter (Option Reply) := do
  let _ ← onClient (Client.connect host port)
  let replies ← onClient Client.login
  if (← get).client.state = .loginComplete then return none
  else return some (replies.getLast?.getD {})

theorem ensureSession_eq : ensureSession = (do
    let s ← get
    if s.client.state = .loginComplete then return none
    if s.client.state ≠ .fresh then modify disconnect
    openSession s.settings.host s.settings.port) := rfl

/-- Nothing is done for a session that stands. -/
theorem ensureSession_of_loginComplete (hstate : s.client.state = .loginComplete) :
    ensureSession s = .ok none s := by
  have hfirst : ensureSession s = (if s.client.state = .loginComplete then pure none
      else if s.client.state ≠ .fresh then (do
        modify disconnect
        openSession s.settings.host s.settings.port)
      else openSession s.settings.host s.settings.port : Run SubmitFailure Submitter _) s := rfl
  rw [hfirst, if_pos hstate]
  rfl

/-- `later` is the client after a session was opened for `c`, on the next connection that the
network hands out, and the server has accepted the login or refused it with a reply. -/
def Opens (c : Client) (refusal : Option Reply) (later : Client) : Prop :=
  ∃ rs, c.Speaks c.net.dialled later rs ∧ later.Holds c.net.dialled ∧
    match refusal with
    | none => later.state = .loginComplete ∧ Introduced true rs
    | some reply => later.state = .connected ∧ Introduced false rs ∧ reply.size = none

/-- `later` is what is left of opening a session for `c` that came to a halt. -/
def OpeningFails (c : Client) (e : Halt SubmitFailure) (later : Submitter) : Prop :=
  ∃ accepted rs full, c.Speaks c.net.dialled later.client rs ∧ later.Broken e ∧
    Introduced accepted full ∧ rs <+: full

theorem ends_openSession (host : String) (port : Nat) (hfresh : s.client.state = .fresh) :
    Ends (openSession host port) s (fun refusal s' => Opens s.client refusal s'.client)
      (OpeningFails s.client) := by
  cases hmark : s.client.inFlight with
  | true =>
    have hrefused := Client.ends_of_inFlight (.connect host port) s.client.net.dialled hmark
    refine ends_bind.mpr (ends_onClient.mpr ((ends_bind.mp hrefused).mono ?_ ?_))
    · intro greeting c hc
      exact hc.elim
    · intro e c hc
      obtain ⟨hspeaks, hbroken, -⟩ := hc
      exact ⟨_, [], _, hspeaks, ⟨e, rfl, hbroken⟩, introduced_refused [], List.nil_prefix⟩
  | false =>
    refine ends_bind.mpr (ends_onClient.mpr ((Client.ends_connect host port hmark hfresh).mono ?_ ?_))
    · intro greeting c₁ hc₁
      obtain ⟨greeted, -, hspeaks₁, hholds₁, hstate₁⟩ := hc₁
      refine ends_bind.mpr (ends_onClient.mpr ((Client.ends_login hholds₁ hstate₁).mono ?_ ?_))
      · intro replies c₂ hc₂
        obtain ⟨hello, lines, hhello, hspeaks₂, hholds₂, hstate₂, hbare⟩ := hc₂
        have hspeaks := hspeaks₁.trans hspeaks₂
        refine ends_bind.mpr (ends_get.mpr (ends_ite.mpr ?_))
        cases hcode : (ReplyLine.collapse lines).code == Code.ok with
        | true =>
          rw [if_pos (beq_iff_eq.mp hcode)] at hstate₂
          rw [if_pos hstate₂]
          exact ⟨_, hspeaks, hholds₂, hstate₂, greeted, lines, hello, hhello, hcode, rfl⟩
        | false =>
          rw [if_neg fun h => Bool.eq_false_iff.mp hcode (beq_iff_eq.mpr h)] at hstate₂
          have hlast : (replies.getLast?.getD {}).size = none := by
            cases hreplies : replies.getLast? with
            | none => rfl
            | some reply => exact hbare reply (List.mem_of_getLast? hreplies)
          rw [if_neg (by simp [hstate₂])]
          exact ⟨_, hspeaks, hholds₂, hstate₂, ⟨greeted, lines, hello, hhello, hcode, rfl⟩, hlast⟩
      · intro e c₂ hc₂
        obtain ⟨hello, rs, hhello, hspeaks₂, hbroken, hcut⟩ := hc₂
        refine ⟨_, _, _, hspeaks₁.trans hspeaks₂, ⟨e, rfl, hbroken⟩,
          ⟨greeted, [], hello, hhello, rfl, rfl⟩, ?_⟩
        exact (List.prefix_cons_inj _).mpr (hcut.trans (List.prefix_append _ _))
    · intro e c₁ hc₁
      obtain ⟨rs, greeted, hspeaks₁, hbroken, hcut⟩ := hc₁
      exact ⟨_, rs, _, hspeaks₁, ⟨e, rfl, hbroken⟩, introduced_refused greeted,
        hcut.trans (List.prefix_append [Remark.heard greeted] _)⟩

/-! A client that lets go of its connection first opens the same session. -/

theorem dialled_disconnect (c : Client) : c.disconnect.net.dialled = c.net.dialled := by
  rw [Client.disconnect, Client.releasedNet_eq]

theorem speaks_disconnect (n : Nat) (c : Client) : c.Speaks n c.disconnect [] :=
  Client.speaks_release n c rfl rfl

theorem Opens.of_disconnect {c later : Client} {refusal : Option Reply}
    (h : Opens c.disconnect refusal later) : Opens c refusal later := by
  unfold Opens at h ⊢
  rw [dialled_disconnect] at h
  obtain ⟨rs, hspeaks, hopens⟩ := h
  exact ⟨rs, (speaks_disconnect _ c).trans hspeaks, hopens⟩

theorem OpeningFails.of_disconnect {c : Client} {e : Halt SubmitFailure}
    (h : OpeningFails c.disconnect e later) : OpeningFails c e later := by
  unfold OpeningFails at h ⊢
  rw [dialled_disconnect] at h
  obtain ⟨accepted, rs, full, hspeaks, hcut⟩ := h
  exact ⟨accepted, rs, full, (speaks_disconnect _ c).trans hspeaks, hcut⟩

/-- A session stands or is opened. -/
theorem ends_ensureSession (hready : s.client.state = .loginComplete → ∃ n, s.client.Holds n) :
    Ends ensureSession s
      (fun refusal s' => (∃ n, s' = s ∧ refusal = none ∧ s.client.Holds n ∧
        s.client.state = .loginComplete) ∨ Opens s.client refusal s'.client)
      (OpeningFails s.client) := by
  rw [ensureSession_eq]
  refine ends_bind.mpr (ends_get.mpr (ends_ite.mpr ?_))
  split
  · rename_i hstate
    obtain ⟨n, hholds⟩ := hready hstate
    exact .inl ⟨n, rfl, rfl, hholds, hstate⟩
  · refine ends_ite.mpr ?_
    split
    · refine ends_bind.mpr (ends_modify.mpr ?_)
      exact (ends_openSession s.settings.host s.settings.port (s := s.disconnect) rfl).mono
        (fun _ _ hopens => .inr hopens.of_disconnect) fun _ _ hfails => hfails.of_disconnect
    · rename_i hfresh
      exact (ends_openSession s.settings.host s.settings.port (Classical.not_not.mp hfresh)).mono
        (fun _ _ hopens => .inr hopens) fun _ _ hfails => hfails

/-- A call that was dropped is all that a transaction finds. -/
theorem ends_giveSender_of_inFlight (m : Message) (dsn : Option Dsn) (n : Nat)
    (hmark : s.client.inFlight = true) :
    Ends (giveSender m dsn) s (fun _ _ => False)
      (fun e s' => s.client.Speaks n s'.client [] ∧ s'.Broken e) := by
  have hrefused := ends_bind.mp (Client.ends_of_inFlight (.sender m.sender dsn) n hmark)
  refine ends_bind.mpr (ends_onClient.mpr (hrefused.mono ?_ ?_))
  · intro reply c hc
    exact hc.elim
  · intro e c hc
    exact ⟨hc.1, e, rfl, hc.2.1⟩

/-- What an attempt says, by how it ends. -/
theorem ends_attempt_said (m : Message) (s : Submitter) (hready : s.Ready) :
    Ends (attempt m) s
      (fun a s' => ∃ n rs, s.client.Speaks n s'.client rs ∧ s'.client.Holds n ∧
        s'.client.state = a.leaves ∧ Tried s.client m a n rs)
      (fun e s' => ∃ n rs, s.client.Speaks n s'.client rs ∧ s'.Broken e ∧ CutShort s.client m n rs) := by
  -- A transaction in a session that stands by now, `mid` being the submitter.
  have htransaction : ∀ (n : Nat) (op : List Remark) (mid : Submitter), Opening s.client n op →
      s.client.Speaks n mid.client op → mid.client.Holds n → mid.client.state = .loginComplete →
      Ends (giveSender m mid.settings.dsn) mid
        (fun a s' => ∃ n rs, s.client.Speaks n s'.client rs ∧ s'.client.Holds n ∧
          s'.client.state = a.leaves ∧ Tried s.client m a n rs)
        (fun e s' => ∃ n rs, s.client.Speaks n s'.client rs ∧ s'.Broken e ∧ CutShort s.client m n rs) := by
    intro n op mid hopening hspeaks hholds hstate
    have hgoes : Ends _ _ _ _ := continues_giveSender m mid.settings.dsn hholds hstate
    apply hgoes.mono
    · intro a s' hs'
      obtain ⟨rs, hspeaks', hholds', hleaves, htransaction⟩ := hs'
      exact ⟨n, _, hspeaks.trans hspeaks', hholds', hleaves, .transaction hopening htransaction⟩
    · intro e s' hs'
      obtain ⟨rs, full, hspeaks', hbroken, hfull, hcut⟩ := hs'
      exact ⟨n, _, hspeaks.trans hspeaks', hbroken, .message hopening hfull hcut⟩
  rw [ends_attempt_iff]
  by_cases hstale : s.client.inFlight = true ∧ s.client.state = .loginComplete
  · obtain ⟨hmark, hstate⟩ := hstale
    unfold Ends
    rw [ensureSession_of_loginComplete hstate]
    apply (ends_giveSender_of_inFlight m s.settings.dsn s.client.net.dialled hmark).mono
    · intro a s' hs'
      exact hs'.elim
    · intro e s' hs'
      exact ⟨_, [], hs'.1, hs'.2, .opening (introduced_refused []) List.nil_prefix⟩
  · have hready' : s.client.state = .loginComplete → ∃ n, s.client.Holds n := by
      intro hstate
      have hidle : s.client.inFlight = false := Bool.eq_false_iff.mpr fun hmark => hstale ⟨hmark, hstate⟩
      obtain ⟨n, hheld⟩ := hready hidle hstate
      exact ⟨n, hidle, hheld⟩
    refine (ends_ensureSession hready').mono ?_ ?_
    · intro refusal mid hmid
      rcases hmid with ⟨n, rfl, rfl, hholds, hstate⟩ | ⟨rs, hspeaks, hholds, hopens⟩
      · exact htransaction n [] mid (.standing hstate hholds) (.refl n mid.client) hholds hstate
      · cases refusal with
        | none => exact htransaction _ rs mid (.fresh hopens.2) hspeaks hholds hopens.1
        | some reply =>
          exact ⟨_, rs, hspeaks, hholds, hopens.1, .login hopens.2.1 hopens.2.2⟩
    · intro e s' hs'
      obtain ⟨accepted, rs, full, hspeaks, hbroken, hintroduced, hcut⟩ := hs'
      exact ⟨_, rs, hspeaks, hbroken, .opening hintroduced hcut⟩

/-! ## Attempts in a row -/

/-- A pause is made to its end, or is cut off by the token or by the caller. -/
theorem ends_pause (s : Submitter) :
    Ends pause s
      (fun _ s' => ∃ net, s' = { s with client := { s.client with net } } ∧
        s.client.net.Waits net [.paused s.settings.retryDelay])
      (fun e s' => ∃ net halt, s' = { s with client := { s.client with net } } ∧
        e = s'.failed halt ∧ (halt = .abandoned ∨ halt = .failed .cancelled) ∧
        s.client.net.Waits net halt.trace) := by
  have hw := Network.waits_pause s.client.net s.token s.settings.retryDelay
  unfold Ends pause
  dsimp only
  cases hr : s.client.net.pause s.token s.settings.retryDelay with
  | mk cut net =>
    rw [hr] at hw
    cases cut with
    | none => exact ⟨net, rfl, hw⟩
    | some cut =>
      cases cut with
      | cancelled => exact ⟨net, .failed .cancelled, rfl, rfl, .inr rfl, hw⟩
      | timedOut => exact hw.elim
      | abandoned => exact ⟨net, .abandoned, rfl, rfl, .inl rfl, hw⟩

/-- The pause after a refusal: the connection is let go of, and nothing is said. -/
theorem ends_pause_disconnected (s : Submitter) :
    Ends pause { s with client := s.client.disconnect }
      (fun _ s' => s'.client.Vacant ∧ s'.settings = s.settings ∧
        s.client.Moves s'.client (s.client.release ++ [.paused s.settings.retryDelay]))
      (fun e s' => s'.client.Vacant ∧ ∃ halt, e = s'.failed halt ∧
        (halt = .abandoned ∨ halt = .failed .cancelled) ∧
        s.client.Moves s'.client (s.client.release ++ halt.trace)) := by
  have hreleased : s.client.Moves s.client.disconnect s.client.release :=
    Client.moves_release s.client rfl rfl
  apply (ends_pause { s with client := s.client.disconnect }).mono
  · intro _ s' hs'
    obtain ⟨net, rfl, hw⟩ := hs'
    exact ⟨⟨rfl, rfl, rfl⟩, rfl, hreleased.trans (Client.moves_waits hw (by simp [Entry.Uses]))⟩
  · intro e s' hs'
    obtain ⟨net, halt, rfl, rfl, hhalt, hw⟩ := hs'
    refine ⟨⟨rfl, rfl, rfl⟩, halt, rfl, hhalt, hreleased.trans (Client.moves_waits hw ?_)⟩
    intro e he n hu
    rw [halt.eq_of_mem_trace e he] at hu
    exact hu

/-- The last attempt is not followed by another. -/
theorem ends_attempts_zero {ok : Reply → Submitter → Prop}
    {halt : Halt SubmitFailure → Submitter → Prop} :
    Ends (attempts m 0) s ok halt ↔ Ends (attempt m) s (fun a mid => ok a.reply mid) halt :=
  ends_bind

/-- After an attempt that may be followed by another, the connection is let go of and a pause is
made; any other decides. -/
theorem ends_attempts_succ {left : Nat} {ok : Reply → Submitter → Prop}
    {halt : Halt SubmitFailure → Submitter → Prop} :
    Ends (attempts m (left + 1)) s ok halt ↔ Ends (attempt m) s
      (fun a mid =>
        if a.isRetryable then
          Ends pause { mid with client := mid.client.disconnect }
            (fun _ next => Ends (attempts m left) next ok halt) halt
        else ok a.reply mid) halt := by
  rw [attempts, ends_bind]
  unfold Ends
  cases attempt m s with
  | error e mid => exact Iff.rfl
  | ok a mid =>
    cases a with
    | delivered reply => exact Iff.rfl
    | rejected stage reply =>
      have hgoes : Ends (if stage.isRetryable then (do
            modify fun s : Submitter => { s with client := s.client.disconnect }
            pause
            attempts m left)
          else return reply) mid ok halt ↔ if stage.isRetryable then
            Ends pause { mid with client := mid.client.disconnect }
              (fun _ next => Ends (attempts m left) next ok halt) halt
          else ok reply mid := by
        refine ends_ite.trans ?_
        split
        · exact ends_bind.trans (ends_modify.trans ends_bind)
        · exact Iff.rfl
      exact hgoes

/-- The rule for attempts in a row.  What holds before the first, and again before the next one
after each refusal that another attempt may follow, holds before the last. -/
theorem ends_attempts (held : Submitter → Prop) {ok : Reply → Submitter → Prop}
    {halt : Halt SubmitFailure → Submitter → Prop} (m : Message) (left : Nat)
    (hlast : ∀ s, held s → Ends (attempt m) s (fun a s' => ok a.reply s') halt)
    (hagain : ∀ s mid stage reply, held s → attempt m s = .ok (.rejected stage reply) mid →
      stage.isRetryable = true →
      Ends pause { mid with client := mid.client.disconnect } (fun _ next => held next) halt)
    (hs : held s) : Ends (attempts m left) s ok halt := by
  induction left generalizing s with
  | zero => exact ends_attempts_zero.mpr (hlast s hs)
  | succ left ih =>
    refine ends_attempts_succ.mpr
      (((hlast s hs).and (ends_self (attempt m) s)).mono ?_ fun _ _ hhalt => hhalt.1)
    rintro a mid ⟨hreturned, hr⟩
    split
    · rename_i hretry
      cases a with
      | delivered reply => cases hretry
      | rejected stage reply =>
        exact (hagain s mid stage reply hs hr hretry).mono (fun _ _ hnext => ih hnext)
          fun _ _ hhalt => hhalt
    · exact hreturned

end Submitter

end MailSubmission
