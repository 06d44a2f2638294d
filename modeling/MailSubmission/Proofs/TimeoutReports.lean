import MailSubmission.Proofs.FailureReports
import MailSubmission.Proofs.UnreadOctets

set_option autoImplicit false

/-!
# What a timeout reports

A measured submission whose time runs out while its body goes out, or while the reply to it is
awaited, is on record with the tally of the timeout (`Submitter.timed_out_bytes`).  The two tallies
count different things.  While the body goes out, it is the octets of the pieces of the body that
went out whole.  While the reply is awaited, the whole body has gone out, but what is counted is the
octets of that reply, those that stood behind the go-ahead included; and so a submission that sent
its body to a server which then says nothing is on record with no octets at all.
-/

namespace MailSubmission

open Run

/-! ## The body that was asked for -/

/-- In `es` a message was announced on the connection `n` and the server asked for its body with
`goAhead`; `before` is what happened until then, and `after` what happened since, with no reply in
it. -/
structure BodyAsked (n : Nat) (goAhead : List ReplyLine) (es before after : List Entry) : Prop where
  announced : ∃ opening asking, before = opening ++ .issued n .data :: asking ∧ Unanswered asking
  asked : es = before ++ .heard n goAhead :: after
  code : (ReplyLine.collapse goAhead).code = Code.startData
  unanswered : Unanswered after

/-- What the tally of a timeout counts, if the time ran out in the phase: the octets of the body that
went out in whole pieces, or those of the reply to it, which begins with what had come in `early`. -/
inductive Tally (n : Nat) (sources : List (Option Script)) (early : List UInt8) (after : List Entry) :
    Phase → Nat → Prop where
  | body {k : Nat}
      (stopped : Body.StoppedAt (sources.filterMap id) (feedings after) (octetsSent n after) k) :
      Tally n sources early after .body k
  | dataReply (sent : octetsSent n after = Body.encode (Message.content sources)) :
      Tally n sources early after .dataReply (early ++ octetsReceived n after).length

/-- In `es`, which happened to the client `c`, the time ran out over a message body that was asked for,
with the tally `k`.  Early came what was left behind the go-ahead of the blocks that it was read
from. -/
def RanOut (c : Client) (sources : List (Option Script)) (phase : Phase) (k : Nat) (es : List Entry) :
    Prop :=
  ∃ n goAhead before after intake d early, BodyAsked n goAhead es before after ∧
    Intake.after n c.settings.tolerance (c.intake n) before = some intake ∧
    intake.scan = .complete goAhead d early ∧ Tally n sources early after phase k

section

variable {n : Nat} {goAhead : List ReplyLine} {es before after : List Entry}

theorem BodyAsked.behind (h : BodyAsked n goAhead es before after) (fs : List Entry) :
    BodyAsked n goAhead (fs ++ es) (fs ++ before) after := by
  obtain ⟨⟨opening, asking, rfl, hasking⟩, rfl, hcode, hafter⟩ := h
  exact ⟨⟨fs ++ opening, asking, (List.append_assoc ..).symm, hasking⟩, (List.append_assoc ..).symm,
    hcode, hafter⟩

/-- Letting go of a connection is no part of the body. -/
theorem BodyAsked.release (h : BodyAsked n goAhead es before after) (c : Client) :
    BodyAsked n goAhead (es ++ c.release) before (after ++ c.release) := by
  obtain ⟨hannounced, rfl, hcode, hafter⟩ := h
  have hrelease : Unanswered c.release := by
    simp [Unanswered, Client.release, Entry.isHeard]
  exact ⟨hannounced, List.append_assoc .., hcode, (unanswered_append _ _).mpr ⟨hafter, hrelease⟩⟩

/-- The message was announced. -/
theorem BodyAsked.countP_pos (h : BodyAsked n goAhead es before after) :
    0 < es.countP Entry.isAnnouncement := by
  obtain ⟨⟨opening, asking, rfl, -⟩, rfl, -, -⟩ := h
  exact List.countP_pos_iff.mpr ⟨.issued n .data, by simp, rfl⟩

theorem Tally.release {sources : List (Option Script)} {early : List UInt8} {phase : Phase} {k : Nat}
    (h : Tally n sources early after phase k) (c : Client) :
    Tally n sources early (after ++ c.release) phase k := by
  have hsent : octetsSent n c.release = [] := by simp [octetsSent, Client.release, Entry.sentOn]
  have hfed : feedings c.release = [] := by simp [feedings, Client.release, Entry.feeding?]
  have hreceived : octetsReceived n c.release = [] := by
    simp [octetsReceived, Client.release, Entry.receivedOn]
  cases h with
  | body hstopped =>
    refine .body ?_
    rwa [octetsSent_append, feedings_append, hsent, hfed, List.append_nil, List.append_nil]
  | dataReply hsent' =>
    have htally : (early ++ octetsReceived n after).length =
        (early ++ octetsReceived n (after ++ c.release)).length := by
      rw [octetsReceived_append, hreceived, List.append_nil]
    rw [htally]
    refine .dataReply ?_
    rwa [octetsSent_append, hsent, List.append_nil]

variable {c mid : Client} {sources : List (Option Script)} {phase : Phase} {k : Nat}

/-- What was found waiting later is what the record says that was made before. -/
theorem RanOut.behind (h : RanOut mid sources phase k es) {fs : List Entry}
    (hsettings : mid.settings = c.settings)
    (hfound : ∀ n i, mid.intake n = some i →
      Intake.after n c.settings.tolerance (c.intake n) fs = some i) :
    RanOut c sources phase k (fs ++ es) := by
  obtain ⟨n, goAhead, before, after, intake, d, early, hasked, hintake, hscan, htally⟩ := h
  refine ⟨n, goAhead, fs ++ before, after, intake, d, early, hasked.behind fs, ?_, hscan, htally⟩
  rw [hsettings] at hintake
  rw [Intake.after_append]
  exact Intake.after_of_known (hfound n) hintake

theorem RanOut.release (h : RanOut c sources phase k es) (c' : Client) :
    RanOut c sources phase k (es ++ c'.release) := by
  obtain ⟨n, goAhead, before, after, intake, d, early, hasked, hintake, hscan, htally⟩ := h
  exact ⟨n, goAhead, before, _, intake, d, early, hasked.release c', hintake, hscan, htally.release c'⟩

theorem RanOut.countP_pos (h : RanOut c sources phase k es) :
    0 < es.countP Entry.isAnnouncement := by
  obtain ⟨n, goAhead, before, after, intake, d, early, hasked, -⟩ := h
  exact hasked.countP_pos

end

/-! ## When the time runs out -/

/-- The time did not run out over a message body. -/
def Halt.SparesBody (e : Halt Fault) : Prop :=
  ∀ phase k, e = .failed (.timeout phase k) → phase ≠ .body ∧ phase ≠ .dataReply

theorem Halt.During.sparesBody {tally : Nat → Prop} {e : Halt Fault} (hd : e.During .reply tally) :
    e.SparesBody := by
  rintro phase k rfl
  obtain ⟨rfl, -⟩ := hd
  exact ⟨nofun, nofun⟩

namespace Link

/-- A body goes out and its reply comes in; if the time runs out, the tally says how far it got. -/
theorem ends_deliver_tally (sources : List (Option Script)) (l : Link) :
    Ends (do
        let sent ← writeBody sources
        return (ReplyLine.collapse (← readReply .dataReply)).withSize sent) l
      (fun _ _ => True)
      (fun e l' => ∃ es, l.Leads l' es ∧ ∀ phase k, e = .failed (.timeout phase k) →
        Unanswered es ∧ Tally l.connection.socket.number sources l.connection.buffer es phase k) := by
  have hbody := (ends_writeBody_tally sources l).and (ends_writeBody_quiet sources l)
  refine ends_bind.mpr (hbody.mono ?_ ?_)
  · rintro sent mid ⟨⟨-, reads, hdrained, es, hes, -, hwire⟩, es', hes', hunanswered, hnone, -, hbuffer⟩
    obtain rfl := hes.unique hes'
    refine ends_bind.mpr ((ends_readReply_tally .dataReply mid).mono (fun _ _ _ => trivial) ?_)
    rintro e l' ⟨chunks, hl, hd⟩
    rw [hes.number] at hl
    refine ⟨_, hes.trans hl, ?_⟩
    rintro phase k rfl
    obtain ⟨rfl, rfl⟩ := hd
    refine ⟨by simp [hunanswered], ?_⟩
    have hreceived : octetsReceived l.connection.socket.number (es ++ (chunks.map
        (.received l.connection.socket.number) ++
          (Halt.failed (.timeout .dataReply (mid.connection.buffer ++ chunks.flatten).length)).trace)) =
        chunks.flatten := by
      simp [hnone]
    rw [hbuffer, ← hreceived]
    refine .dataReply ?_
    simp [hwire, hdrained.flatten_eq, Message.content]
  · rintro e l' ⟨⟨reads, wire, -, ⟨es, hes, rfl, rfl⟩, hd⟩, es', hes', hunanswered⟩
    obtain rfl := hes.unique hes'
    refine ⟨es, hes, ?_⟩
    rintro phase k rfl
    obtain ⟨rfl, hstopped⟩ := hd
    exact ⟨hunanswered, .body hstopped⟩

end Link

namespace Client

variable {c mid later : Client} {es : List Entry}

/-- A message is handed over; if the time runs out over its body, the tally says how far it got. -/
theorem ends_handOver_tally (sources : List (Option Script)) (c : Client) :
    Ends (handOver sources) c (fun _ _ => True)
      (fun e later => ∃ es, c.Works later es ∧ ∀ phase k, e = .failed (.timeout phase k) →
        phase = .body ∨ phase = .dataReply → RanOut c sources phase k es) := by
  cases hc : c.connection with
  | none =>
    have hr : exchange .data c = .error (.failed .connectionClosed) c := by
      unfold exchange onLink
      rw [hc]
    unfold Ends
    rw [handOver, bind_of_error hr]
    exact ⟨[], .refl c, nofun⟩
  | some conn =>
    refine ends_bind.mpr (ends_onLink hc ((Link.ends_ask .data ⟨conn, c.net⟩).mono ?_ ?_))
    · rintro goAhead l ⟨asking, blocks, hl, hasking, hintake, hscan⟩
      refine ends_ite.mpr ?_
      split
      · rename_i hcode
        refine ends_onLink rfl ((Link.ends_deliver_tally sources ⟨l.connection, l.net⟩).mono
          (fun _ _ _ => trivial) ?_)
        rintro e l' ⟨after, hl', htally⟩
        refine ⟨_, works_of_leads hc (hl.trans hl'), ?_⟩
        rintro phase k rfl -
        obtain ⟨hafter, htally⟩ := htally phase k rfl
        rw [hl.number] at htally
        refine ⟨conn.socket.number, goAhead, .issued conn.socket.number .data :: asking, after, _, _, _,
          ?_, ?_, hscan, htally⟩
        · exact ⟨⟨[], asking, rfl, hasking⟩, by simp, beq_iff_eq.mp hcode, hafter⟩
        · rw [intake_of_some hc, if_pos rfl]
          exact hintake c.settings.tolerance
      · trivial
    · rintro e l ⟨⟨es, hl⟩, hd⟩
      refine ⟨es, works_of_leads hc hl, fun phase k hk hphase => ?_⟩
      obtain ⟨hbody, hreply⟩ := hd.sparesBody phase k hk
      exact absurd hphase (by simp [hbody, hreply])

/-- Time may run out, but not over a message body. -/
def sparing : Account Fault Client where
  returns _ _ := True
  halts e _ _ := e.SparesBody
  refl _ := trivial
  trans _ _ := trivial
  trans_halts _ h := h
  halts_trans h _ := h

theorem keeps_sparing_onLink {α : Type} {act : Run Fault Link α}
    (h : ∀ l, Ends act l (fun _ _ => True) fun e _ => e.During .reply fun _ => True) (c : Client) :
    sparing.Keeps (onLink act) c := by
  cases hc : c.connection with
  | none =>
    unfold Account.Keeps Ends onLink
    rw [hc]
    exact nofun
  | some conn =>
    exact ends_onLink hc ((h ⟨conn, c.net⟩).mono (fun _ _ _ => trivial) fun _ _ hd => hd.sparesBody)

theorem sparing_coversWork : sparing.CoversWork fun _ => False where
  refused hrefuses _ := by
    rintro phase k heq
    cases heq
    cases hrefuses
  exchange command := keeps_sparing_onLink fun l =>
    (Link.ends_ask command l).mono (fun _ _ _ => trivial) fun _ _ hl => hl.2
  greeting := keeps_sparing_onLink fun l =>
    (Link.ends_readReply .reply l).mono (fun _ _ _ => trivial) fun _ _ hl => hl.2
  deliver hnone := hnone.elim

theorem keeps_sparing_openConnection (host : String) (port : Nat) (c : Client) :
    sparing.Keeps (openConnection host port) c := by
  refine (ends_openConnection host port c).mono (fun _ _ _ => trivial) ?_
  rintro e c' ⟨net, -, hd, -⟩ phase k rfl
  obtain ⟨rfl, -⟩ := hd
  exact ⟨nofun, nofun⟩

end Client

/-- If the time runs out over a body in the work of an operation, then over that of the message. -/
theorem Operation.ends_work_tally {m : Message} (op : Operation) (hop : op.Serves m)
    (start c : Client) : Ends (op.work start) c (fun _ _ => True)
      (fun e later => ∃ es, c.Works later es ∧ ∀ phase k, e = .failed (.timeout phase k) →
        phase = .body ∨ phase = .dataReply → RanOut c m.sources phase k es) := by
  by_cases hgives : ∃ sources, op = .sendData sources
  · obtain ⟨sources, rfl⟩ := hgives
    obtain rfl : sources = m.sources := hop
    exact ends_bind.mpr ((Client.ends_handOver_tally m.sources c).mono (fun _ _ _ => trivial)
      fun _ _ hhalt => hhalt)
  · have hspares := op.keeps_work Client.sparing_coversWork (fun sources heq => hgives ⟨sources, heq⟩)
      (fun host port _ => Client.keeps_sparing_openConnection host port) start c
    refine ((op.worksOnly_work start c).and hspares).mono (fun _ _ _ => trivial) ?_
    rintro e later ⟨⟨⟨es, hw⟩, -⟩, hspared⟩
    refine ⟨es, hw, fun phase k hk hphase => ?_⟩
    obtain ⟨hbody, hreply⟩ := hspared phase k hk
    exact absurd hphase (by simp [hbody, hreply])

/-! ## Submissions -/

namespace Story

/-- If the time runs out over the body that these sources give, the tally says how far it got. -/
def timing (sources : List (Option Script)) : Story where
  returns := Client.Reads
  halts e c later := c.Reads later ∧ ∀ phase k, e = .failed (.timeout phase k) →
    phase = .body ∨ phase = .dataReply → ∃ es : List Entry,
      later.net.journal = es.reverse ++ c.net.journal ∧ RanOut c.cleared sources phase k es
  refl := .refl
  trans h g := h.trans g
  trans_halts := by
    rintro e c mid later h ⟨g, htally⟩
    refine ⟨h.trans g, fun phase k hk hphase => ?_⟩
    obtain ⟨es, hes, hsettings, hfound⟩ := h
    obtain ⟨fs, hfs, hran⟩ := htally phase k hk hphase
    refine ⟨es ++ fs, ?_, hran.behind ?_ ?_⟩
    · rw [hfs, hes, List.reverse_append, List.append_assoc]
    · rw [Client.settings_cleared, Client.settings_cleared, hsettings]
    · rwa [Client.settings_cleared]

theorem timing_follows (m : Message) : (timing m.sources).Follows m where
  disconnect c := Client.reads_released rfl rfl rfl
  pause hw := Client.reads_waits hw fun _ _ _ => rfl
  cutOff hw he := by
    refine ⟨Client.reads_waits hw fun n t i => Intake.after_trace n t i _, ?_⟩
    rintro phase k rfl
    rcases he with he | he
    · cases he
    · cases he
  forgiven h := h.1
  operation op hop c := by
    refine op.keeps_of_work (Client.reads_cleared c) ⟨.refl _, nofun⟩ ?_
    refine ((op.keeps_takingIn_work _ _).and (op.ends_work_tally hop _ _)).mono ?_ ?_
    · rintro _ mid ⟨hreads, -⟩ later hbooks
      exact Client.reads_books hreads c.idle_cleared hbooks
    · rintro e mid ⟨-, es, hw, htally⟩
      refine ⟨Client.reads_halted op hw e, ?_⟩
      rintro phase k rfl hphase
      obtain ⟨-, hnet, -⟩ := op.halted_failed { mid with inFlight := false } (.timeout phase k)
      refine ⟨es ++ mid.release, Client.journal_released hnet hw.journal, ?_⟩
      rw [Client.cleared_cleared]
      exact (htally phase k rfl hphase).release mid

end Story

namespace Submitter

variable {m : Message} {s later : Submitter}

/-- For every submitter there can be, and every message handed in on it.  If the submission fails
because its time ran out while its body went out or while the reply to it was awaited, it is on
record as an exception with the tally of the timeout.  Its message was announced once.  Behind the
go-ahead, the tally counts what went out of the body in whole pieces; or, if the body went out to its
end, the octets of the reply to it: what the blocks that the go-ahead was read from left behind it,
and what came in since. -/
theorem timed_out_bytes {id : Nat} {settings : SubmitSettings} {token : Token} {net : Network}
    {s₀ : Submitter} {calls : List Call} {failure : SubmitFailure} {phase : Phase} {k : Nat}
    (hnew : Submitter.new id settings token net = .ok s₀) (hruns : Runs s₀ calls s)
    (hfailed : submit m s = .error (.failed failure) later)
    (hfault : failure.fault? = some (.timeout phase k)) (hphase : phase = .body ∨ phase = .dataReply) :
    ∃ (outcome : Outcome) (es : List Entry), measuredSubmit m s = .ok outcome later ∧
      outcome.kind = .exception ∧ outcome.bytes = k ∧
      later.client.net.journal = es.reverse ++ s.client.net.journal ∧
      es.countP Entry.isAnnouncement = 1 ∧ RanOut s.client m.sources phase k es := by
  have hready := hruns.ready hnew
  have htold : Ends (submit m) s _ _ := (Story.timing_follows m).ends_submit hready
  obtain ⟨-, hhalts⟩ := htold.of_error hfailed
  obtain ⟨fault, mid, rfl, ⟨-, htally⟩, hleft⟩ := hhalts failure rfl
  obtain rfl : fault = .timeout phase k := Option.some.inj hfault
  obtain ⟨es, hjournal, hran⟩ : ∃ es : List Entry,
      later.client.net.journal = es.reverse ++ s.client.net.journal ∧
        RanOut s.client.cleared m.sources phase k es := by
    obtain ⟨es, hes, hran⟩ := htally phase k rfl hphase
    rcases hleft with hleft | hleft
    · exact ⟨es, hleft ▸ hes, hran⟩
    · exact ⟨es ++ mid.release, Client.journal_released (congrArg Client.net hleft) hes, hran.release mid⟩
  have hbytes : Outcome.bytesBefore (.timeout phase k) = k := by
    rcases hphase with rfl | rfl
    · rfl
    · rfl
  obtain ⟨hmeasured, hkind⟩ := measuredSubmit_eq_exception_iff.mpr ⟨_, hfailed, rfl, rfl⟩
  refine ⟨_, es, hmeasured, hkind, hbytes, hjournal, ?_, ?_⟩
  · have hsearching : Searching s.client.net.journal s := ⟨hready, [], rfl, bodiless_nil⟩
    obtain ⟨es', hjournal', honce, -⟩ := hsearching.once m
    rw [Call.after_measuredSubmit, Call.after_of_error (bind_of_error hfailed), hjournal] at hjournal'
    obtain rfl : es = es' := List.reverse_inj.mp (List.append_cancel_right hjournal')
    exact Nat.le_antisymm honce hran.countP_pos
  · have hall : RanOut s.client m.sources phase k ([] ++ es) :=
      hran.behind s.client.settings_cleared fun _ _ => Client.intake_of_cleared
    exact hall

/-- A fault that was computed is one that the submission failed with. -/
theorem exists_failed (fault : Fault)
    (h : (match submit m s with
      | .error (.failed failure) _ => failure.fault?
      | _ => none) = some fault) :
    ∃ failure later, submit m s = .error (.failed failure) later ∧ failure.fault? = some fault := by
  split at h
  · rename_i failure later hr
    exact ⟨failure, later, hr, h⟩
  · cases h

/-- A server that asks for a message body, does this when it has it, and falls silent. -/
def silentAfter (rest : Script) : Network := serverSending (takingLines.take 5) (rest ++ [.hang])

/-- The reply to the body begins, and its two octets are what is on record. -/
theorem timed_out_bytes_silentAfter :
    let s : Submitter := { client := .new 1 {} {} (silentAfter [.data (Text.Utf8.encode "25")]) }
    ∃ (outcome : Outcome) (later : Submitter) (es : List Entry),
      measuredSubmit shortMessage s = .ok outcome later ∧ outcome.kind = .exception ∧
      outcome.bytes = 2 ∧ later.client.net.journal = es.reverse ∧
      RanOut s.client shortMessage.sources .dataReply 2 es := by
  intro s
  have hnew : Submitter.new 1 {} {} (silentAfter [.data (Text.Utf8.encode "25")]) = .ok s := rfl
  obtain ⟨failure, later, hfailed, hfault⟩ :=
    exists_failed (m := shortMessage) (s := s) (.timeout .dataReply 2) (by decide +kernel)
  obtain ⟨outcome, es, hr, hkind, hbytes, hjournal, -, hran⟩ :=
    timed_out_bytes hnew (.nil s) hfailed hfault (.inr rfl)
  exact ⟨outcome, later, es, hr, hkind, hbytes, hjournal.trans (List.append_nil _), hran⟩

/-- What is on record is not always what went out of the body: here no reply comes, and no octets are
on record, though the body went out to its end. -/
theorem timed_out_bytes_not_always_sent :
    ¬ ∀ (settings : SubmitSettings) (token : Token) (net : Network) (s₀ s later : Submitter)
        (calls : List Call) (m : Message) (failure : SubmitFailure) (k : Nat) (outcome : Outcome),
      Submitter.new 1 settings token net = .ok s₀ → Runs s₀ calls s →
      submit m s = .error (.failed failure) later →
      failure.fault? = some (.timeout .dataReply k) → measuredSubmit m s = .ok outcome later →
      outcome.bytes = (Body.encode (Message.content m.sources)).length := by
  intro hsent
  let s : Submitter := { client := .new 1 {} {} (silentAfter []) }
  have hnew : Submitter.new 1 {} {} (silentAfter []) = .ok s := rfl
  obtain ⟨failure, later, hfailed, hfault⟩ :=
    exists_failed (m := shortMessage) (s := s) (.timeout .dataReply 0) (by decide +kernel)
  have hcancelled : failure.isCancelled = false := by
    rw [SubmitFailure.isCancelled, hfault]
    rfl
  obtain ⟨hr, -⟩ := measuredSubmit_eq_exception_iff.mpr ⟨failure, hfailed, hcancelled, rfl⟩
  have hbytes := hsent {} {} (silentAfter []) s s later [] shortMessage failure 0 _ hnew (.nil s)
    hfailed hfault hr
  have hnone : (Outcome.ofFailure later.correlationId failure).bytes = 0 := by
    rw [Outcome.ofFailure, hfault]
    rfl
  rw [hnone] at hbytes
  exact absurd hbytes (by decide +kernel)

end Submitter

end MailSubmission
