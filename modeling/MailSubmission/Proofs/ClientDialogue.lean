import MailSubmission.Proofs.Dialogue
import MailSubmission.Proofs.Lifetime

set_option autoImplicit false

/-!
# What a client says

Each operation of a client that speaks with its server is said by what passes on the client's
connection: if it returns, a command and its answer, and for a message its body and the answer to
that as well; if it comes to a halt, a beginning of these.  What a halt leaves is broken
(`Client.Broken`): the connection is gone, or the call that was dropped has left its mark.
-/

namespace MailSubmission

/-! ## What a message that is handed over comes to -/

/-- The server was asked to take a message, with the reply that this led to.  It will not have
the body; or the body goes out, and the reply is the one behind it and carries its size. -/
inductive HandedOver (sources : List (Option Script)) : Reply → List Remark → Prop where
  | declined {lines : List ReplyLine}
      (declined : (ReplyLine.collapse lines).code ≠ Code.startData) :
      HandedOver sources (ReplyLine.collapse lines) (Command.data.answered lines)
  | poured {goAhead lines : List ReplyLine}
      (asked : (ReplyLine.collapse goAhead).code = Code.startData) :
      HandedOver sources
        ((ReplyLine.collapse lines).withSize (Body.encode (Message.content sources)).length)
        (Command.data.answered goAhead ++ Message.poured sources ++ [.heard lines])

/-- The command introduces the client. -/
def Command.isHello : Command → Bool
  | .helo _ | .ehlo _ => true
  | _ => false

/-- The lines of the shortest reply that asks for a message body. -/
def startLines : List ReplyLine := [{ code := Code.startData }]

namespace ReplyLine

/-- As it is read, a reply carries no size. -/
theorem size_collapse (lines : List ReplyLine) : (collapse lines).size = none := by
  unfold collapse
  split <;> rfl

theorem size_of_mem_expand {lines : List ReplyLine} : ∀ reply ∈ expand lines, reply.size = none := by
  intro reply hreply
  obtain ⟨line, -, rfl⟩ := List.mem_map.mp hreply
  rfl

end ReplyLine

namespace Client

open Run

variable {α : Type} {n : Nat} {c mid later : Client} {es : List Entry} {rs rs' : List Remark}

/-! ## Speaking on one connection -/

/-- `later` is the client after `rs` has passed on the connection `n`, and nothing on any
other. -/
def Speaks (n : Nat) (c later : Client) (rs : List Remark) : Prop :=
  ∃ es, c.Moves later es ∧ Spoken n es rs

theorem Speaks.refl (n : Nat) (c : Client) : c.Speaks n c [] := ⟨[], .refl c, spoken_nil n⟩

theorem Speaks.trans (h : c.Speaks n mid rs) (g : mid.Speaks n later rs') :
    c.Speaks n later (rs ++ rs') := by
  obtain ⟨es, hes, hspoken⟩ := h
  obtain ⟨fs, hfs, hspoken'⟩ := g
  exact ⟨es ++ fs, hes.trans hfs, hspoken.append hspoken'⟩

/-- What the client remembers does not matter. -/
theorem Speaks.congr (h : c.Speaks n mid rs) (hconnection : later.connection = mid.connection)
    (hnet : later.net = mid.net) : c.Speaks n later rs := by
  obtain ⟨es, hes, hspoken⟩ := h
  exact ⟨es, hes.congr hconnection hnet, hspoken⟩

/-- Nothing is said when a connection is let go of. -/
theorem spoken_release (n : Nat) (c : Client) : Spoken n c.release [] := by
  refine spoken_of_plain fun e he => ?_
  obtain ⟨m, -, rfl⟩ : ∃ m, c.held = some m ∧ Entry.released m = e := by simpa [release] using he
  exact ⟨trivial, rfl, rfl⟩

theorem speaks_release (n : Nat) (c : Client) (hnone : later.connection = none)
    (hnet : later.net = c.releasedNet) : c.Speaks n later [] :=
  ⟨c.release, moves_release c hnone hnet, spoken_release n c⟩

theorem speaks_cleared (n : Nat) (c : Client) : c.Speaks n c.cleared [] := by
  unfold cleared
  split
  · exact speaks_release n c rfl rfl
  · exact .refl n c

/-- What a halt leaves: a failure has let go of the connection, and a dropped call has left its
mark. -/
def Broken (c : Client) : Halt Fault → Prop
  | .failed _ => c.connection = none ∧ c.state = .bad ∧ c.inFlight = false
  | .abandoned => c.inFlight = true

/-- No session goes on: there is none, or the call that was dropped in it has left its mark. -/
def Over (c : Client) : Prop := c.inFlight = true ∨ c.state.isLive = false

theorem Broken.over {e : Halt Fault} (h : c.Broken e) : c.Over := by
  cases e with
  | failed fault => exact .inr (congrArg SessionState.isLive h.2.1)
  | abandoned => exact .inl h

theorem broken_halted (c : Client) (e : Halt Fault) : (c.halted e).Broken e := by
  cases e with
  | failed fault => exact ⟨rfl, rfl, rfl⟩
  | abandoned => rfl

theorem Speaks.halted (h : c.Speaks n mid rs) (e : Halt Fault) : c.Speaks n (mid.halted e) rs := by
  cases e with
  | failed fault => exact List.append_nil rs ▸ h.trans (speaks_release n mid rfl rfl)
  | abandoned => exact h.congr rfl rfl

/-- The client holds the connection `n`, and no call is under way. -/
structure Holds (n : Nat) (c : Client) : Prop where
  idle : c.inFlight = false
  held : c.held = some n

theorem Holds.release (h : c.Holds n) : c.release = [.released n] := by
  rw [Client.release, h.held]
  rfl

/-! ## Work that is said by what passes -/

/-- Carried out on `c`, the call does nothing but work on the connection `n`.  What passes there
is as `said` says if it returns, and as `cut` says if it comes to a halt. -/
def Converses (n : Nat) (act : Run Fault Client α) (c : Client) (said : α → List Remark → Prop)
    (cut : List Remark → Prop) : Prop :=
  Ends act c
    (fun a c' => ∃ es rs, c.Works c' es ∧ c'.held = some n ∧ Spoken n es rs ∧ said a rs)
    fun e c' => ∃ es rs, c.Works c' es ∧ Spoken n es rs ∧ cut rs ∧ e.Fatal

/-- What is worked on the link is said by what passes on its connection. -/
theorem converses_onLink {act : Run Fault Link α} {said : α → List Remark → Prop}
    {cut : List Remark → Prop} (hheld : c.held = some n)
    (h : ∀ l : Link, l.connection.socket.number = n → Ends act l
      (fun a l' => ∃ es rs, l.Leads l' es ∧ Spoken n es rs ∧ said a rs)
      fun e l' => ∃ es rs, l.Leads l' es ∧ Spoken n es rs ∧ cut rs ∧ e.Fatal) :
    Converses n (onLink act) c said cut := by
  obtain ⟨conn, hconn, hn⟩ := Option.map_eq_some_iff.mp hheld
  refine ends_onLink hconn ((h ⟨conn, c.net⟩ hn).mono ?_ ?_)
  · rintro a l ⟨es, rs, hl, hspoken, hsaid⟩
    exact ⟨es, rs, works_of_leads hconn hl, congrArg some (hl.number.trans hn), hspoken, hsaid⟩
  · rintro e l ⟨es, rs, hl, hspoken, hcut, hfatal⟩
    exact ⟨es, rs, works_of_leads hconn hl, hspoken, hcut, hfatal⟩

theorem converses_exchange (command : Command) (hheld : c.held = some n) :
    Converses n (exchange command) c (fun lines rs => rs = command.answered lines)
      (fun rs => .said command ∈ rs ∧ rs <+: command.asked) := by
  refine converses_onLink hheld fun l hn => ?_
  subst hn
  refine (Link.ends_converse command l).mono ?_ ?_
  · rintro lines l' ⟨es, hl, hspoken⟩
    exact ⟨es, _, hl, hspoken, rfl⟩
  · rintro e l' ⟨es, rs, hl, hspoken, hmem, hcut, hfatal⟩
    exact ⟨es, rs, hl, hspoken, ⟨hmem, hcut⟩, hfatal⟩

/-- A reset is answered; short of that it was refused, or what passed is a beginning of asking it. -/
theorem converses_askReset (hheld : c.held = some n) :
    Converses n askReset c
      (fun reply rs => ∃ lines, reply = ReplyLine.collapse lines ∧
        (ReplyLine.collapse lines).isFailure = false ∧ rs = Command.rset.answered lines)
      (fun rs => .said .rset ∈ rs ∧ (rs <+: Command.rset.asked ∨
        ∃ lines, (ReplyLine.collapse lines).isFailure = true ∧ rs = Command.rset.answered lines)) := by
  refine ends_bind.mpr ((converses_exchange .rset hheld).mono ?_ ?_)
  · rintro lines mid ⟨es, rs, hw, hmid, hspoken, rfl⟩
    have hmem : Remark.said .rset ∈ Command.rset.answered lines := by
      simp [Command.answered, Command.asked]
    refine ends_ite.mpr ?_
    split
    · rename_i hrefused
      exact ⟨es, _, hw, hspoken, ⟨hmem, .inr ⟨lines, hrefused, rfl⟩⟩, rfl⟩
    · rename_i haccepted
      exact ⟨es, _, hw, hmid, hspoken, lines, rfl, Bool.eq_false_iff.mpr haccepted, rfl⟩
  · rintro e mid ⟨es, rs, hw, hspoken, ⟨hmem, hcut⟩, hfatal⟩
    exact ⟨es, rs, hw, hspoken, ⟨hmem, .inl hcut⟩, hfatal⟩

/-- A message is handed over, or what passed is a beginning of its announcement and body. -/
theorem converses_handOver (sources : List (Option Script)) (hheld : c.held = some n) :
    Converses n (handOver sources) c (HandedOver sources)
      (fun rs => ∃ goAhead, (ReplyLine.collapse goAhead).code = Code.startData ∧
        rs <+: Command.data.answered goAhead ++ Message.poured sources) := by
  refine ends_bind.mpr ((converses_exchange .data hheld).mono ?_ ?_)
  · rintro lines mid ⟨es, rs, hw, hmid, hspoken, rfl⟩
    refine ends_ite.mpr ?_
    split
    · rename_i hcode
      obtain ⟨conn, hconn, hn⟩ := Option.map_eq_some_iff.mp hmid
      have hdata : Remark.said .data ∈ Command.data.answered lines := by
        simp [Command.answered, Command.asked]
      -- What the body adds to the announcement, which came first.
      have hadd : ∀ (l : Link) (fs : List Entry) (rest : List Remark),
          Link.Leads ⟨conn, mid.net⟩ l fs → dialogue conn.socket.number fs = rest →
          Spoken n (es ++ fs) (Command.data.answered lines ++ rest) := by
        intro l fs rest hl hsaid
        refine ⟨fun e he => ?_, by rw [dialogue_append, hspoken.said, ← hn, hsaid],
          fun _ => List.mem_append_left _ hdata⟩
        rcases List.mem_append.mp he with he | he
        · exact hspoken.own e he
        · exact hn ▸ .of_staysOn (hl.own e he)
      refine ends_onLink hconn ((Link.ends_deliver_dialogue sources ⟨conn, mid.net⟩).mono ?_ ?_)
      · rintro reply l ⟨final, fs, hl, hsaid, rfl⟩
        refine ⟨es ++ fs, _, hw.trans (works_of_leads hconn hl),
          congrArg some (hl.number.trans hn), hadd l fs _ hl hsaid, ?_⟩
        rw [← List.append_assoc]
        exact .poured (beq_iff_eq.mp hcode)
      · rintro e l ⟨⟨fs, hl, hcut⟩, hfatal⟩
        exact ⟨es ++ fs, _, hw.trans (works_of_leads hconn hl), hadd l fs _ hl rfl,
          ⟨lines, beq_iff_eq.mp hcode, (List.prefix_append_right_inj _).mpr hcut⟩, hfatal⟩
    · rename_i hcode
      exact ⟨es, _, hw, hmid, hspoken, .declined fun h => hcode (beq_iff_eq.mpr h)⟩
  · rintro e mid ⟨es, rs, hw, hspoken, ⟨-, hcut⟩, hfatal⟩
    refine ⟨es, rs, hw, hspoken, ⟨startLines, rfl, ?_⟩, hfatal⟩
    exact (hcut.trans (List.prefix_append _ _)).trans (List.prefix_append _ _)

/-- A reply is read. -/
theorem converses_readReply (phase : Phase) (hheld : c.held = some n) :
    Converses n (onLink (Link.readReply phase)) c (fun lines rs => rs = [.heard lines])
      (fun rs => rs = []) := by
  refine converses_onLink hheld fun l hn => ?_
  subst hn
  refine (Link.ends_readReply phase l).mono ?_ ?_
  · rintro lines l' ⟨chunks, hl⟩
    exact ⟨_, _, hl, hl.spoken (by simp [Entry.remarks]) (by simp [Entry.feeding?]), rfl⟩
  · rintro e l' ⟨⟨chunks, hl⟩, hd⟩
    exact ⟨_, [], hl, hl.spoken (by simp) (by simp), rfl, hd.fatal⟩

/-- A connection is asked for; it is the next one that the network hands out. -/
theorem converses_openConnection (host : String) (port : Nat) (c : Client) :
    Converses c.net.dialled (openConnection host port) c (fun _ rs => rs = []) (fun rs => rs = []) := by
  obtain ⟨hnumber, -⟩ := dial_facts c.net host port
  apply (ends_openConnection host port c).mono
  · rintro _ c' ⟨net, hw, rfl⟩
    exact ⟨_, [], works_of_open hw, congrArg some hnumber,
      spoken_of_plain (by simp [Entry.KeepsTo, Entry.remarks, Entry.feeding?]), rfl⟩
  · rintro e c' ⟨net, hw, hd, rfl⟩
    refine ⟨_, [], works_of_dial hw e.eq_of_mem_trace, spoken_of_plain fun e' he' => ?_, rfl, hd.fatal⟩
    rcases List.mem_cons.mp he' with rfl | he'
    · exact ⟨trivial, rfl, rfl⟩
    · rw [e.eq_of_mem_trace e' he']
      exact ⟨trivial, rfl, rfl⟩

/-- The server greets; short of that its greeting refused, or there was none. -/
theorem converses_greet (host : String) (port : Nat) (c : Client) :
    Converses c.net.dialled (greet host port) c
      (fun reply rs => ∃ lines, reply = ReplyLine.collapse lines ∧
        (ReplyLine.collapse lines).isFailure = false ∧ rs = [.heard lines])
      (fun rs => rs = [] ∨
        ∃ lines, (ReplyLine.collapse lines).isFailure = true ∧ rs = [.heard lines]) := by
  refine ends_bind.mpr ((converses_openConnection host port c).mono ?_ ?_)
  · rintro _ mid ⟨es, rs, hw, hmid, hspoken, rfl⟩
    refine ends_bind.mpr ((converses_readReply .reply hmid).mono ?_ ?_)
    · rintro lines last ⟨fs, rs, hw', hlast, hspoken', rfl⟩
      have hall := hw.trans hw'
      have hsaid := hspoken.append hspoken'
      refine ends_ite.mpr ?_
      split
      · rename_i hrefused
        exact ⟨_, _, hall, hsaid, .inr ⟨lines, hrefused, rfl⟩, rfl⟩
      · rename_i haccepted
        exact ⟨_, _, hall, hlast, hsaid, lines, rfl, Bool.eq_false_iff.mpr haccepted, rfl⟩
    · rintro e last ⟨fs, rs, hw', hspoken', rfl, hfatal⟩
      exact ⟨_, _, hw.trans hw', hspoken.append hspoken', .inl rfl, hfatal⟩
  · rintro e mid ⟨es, rs, hw, hspoken, rfl, hfatal⟩
    exact ⟨es, [], hw, hspoken, .inl rfl, hfatal⟩

/-! ## Operations -/

/-- Work that is settled keeps the state, and what comes to a halt is broken. -/
theorem Converses.settled {act : Run Fault Client α} {said : α → List Remark → Prop}
    {cut : List Remark → Prop} (hidle : c.inFlight = false)
    (h : Converses n act { c with inFlight := true } said cut) :
    Ends (settled act) c
      (fun a c' => ∃ rs, c.Speaks n c' rs ∧ c'.Holds n ∧ c'.state = c.state ∧ said a rs)
      (fun e c' => ∃ rs, c.Speaks n c' rs ∧ c'.Broken e ∧ cut rs) := by
  refine ends_settled (Ends.mono h ?_ ?_)
  · intro a mid hmid
    obtain ⟨es, rs, hw, hheld, hspoken, hsaid⟩ := hmid
    have hw := hw.unmarked hidle
    exact ⟨rs, ⟨es, hw.toMoves, hspoken⟩, ⟨rfl, hheld⟩, hw.state_eq, hsaid⟩
  · intro e mid hmid
    obtain ⟨es, rs, hw, hspoken, hcut, hfatal⟩ := hmid
    have hspeaks : c.Speaks n { mid with inFlight := false } rs :=
      ⟨es, (hw.unmarked hidle).toMoves, hspoken⟩
    refine ⟨hfatal, by rw [hw.same], rs, ?_, mid.broken_halted e, hcut⟩
    cases e with
    | failed fault => exact hspeaks.halted (.failed fault)
    | abandoned => exact hspeaks.halted .abandoned

/-- A connection is opened and the server greets. -/
theorem ends_connect (host : String) (port : Nat) (hidle : c.inFlight = false)
    (hstate : c.state = .fresh) :
    Ends (connect host port) c
      (fun _ c' => ∃ lines, (ReplyLine.collapse lines).isFailure = false ∧
        c.Speaks c.net.dialled c' [.heard lines] ∧ c'.Holds c.net.dialled ∧ c'.state = .connected)
      (fun e c' => ∃ rs lines, c.Speaks c.net.dialled c' rs ∧ c'.Broken e ∧ rs <+: [.heard lines]) := by
  have hallowed : (c.state == .fresh) = true := beq_iff_eq.mpr hstate
  refine ends_bind.mpr ((ends_enter hidle hallowed).mpr (ends_bind.mpr ?_))
  refine ((converses_greet host port { c with inFlight := true }).settled hidle).mono ?_ ?_
  · intro greeting mid hmid
    obtain ⟨rs, hspeaks, hholds, -, lines, -, haccepted, rfl⟩ := hmid
    exact ⟨lines, haccepted, hspeaks.congr rfl rfl, ⟨hholds.idle, hholds.held⟩, rfl⟩
  · intro e c' hc'
    obtain ⟨rs, hspeaks, hbroken, hcut⟩ := hc'
    rcases hcut with rfl | ⟨lines, -, rfl⟩
    · exact ⟨[], [], hspeaks, hbroken, List.nil_prefix⟩
    · exact ⟨_, lines, hspeaks, hbroken, List.prefix_refl _⟩

/-- The client introduces itself.  No reply to that carries a size. -/
theorem ends_login (hholds : c.Holds n) (hstate : c.state = .connected) :
    Ends login c
      (fun replies c' => ∃ (hello : Command) (lines : List ReplyLine), hello.isHello = true ∧
        c.Speaks n c' (hello.answered lines) ∧ c'.Holds n ∧
        c'.state = (if (ReplyLine.collapse lines).code = Code.ok then .loginComplete else .connected) ∧
        ∀ reply ∈ replies, reply.size = none)
      (fun e c' => ∃ (hello : Command) (rs : List Remark), hello.isHello = true ∧ c.Speaks n c' rs ∧ c'.Broken e ∧
        rs <+: hello.asked) := by
  have hallowed : (c.state == .connected) = true := beq_iff_eq.mpr hstate
  refine ends_bind.mpr ((ends_enter hholds.idle hallowed).mpr (ends_bind.mpr (ends_get.mpr ?_)))
  dsimp only
  generalize hhello : (if c.settings.extensions = true then Command.ehlo c.settings.heloHost
    else Command.helo c.settings.heloHost) = hello
  have hishello : hello.isHello = true := by
    rw [← hhello]
    split <;> rfl
  refine ends_bind.mpr (((converses_exchange hello
    (c := { c with inFlight := true }) hholds.held).settled hholds.idle).mono ?_ ?_)
  · intro lines mid hmid
    obtain ⟨rs, hspeaks, hmid, hsame, rfl⟩ := hmid
    simp only [keep, moveTo, ends_modify, ends_pure, ends_ite, ends_bind]
    cases hcode : (ReplyLine.collapse lines).code == Code.ok with
    | true =>
      have hlater : (if (ReplyLine.collapse lines).code = Code.ok then SessionState.loginComplete
          else .connected) = .loginComplete := if_pos (beq_iff_eq.mp hcode)
      split
      · exact ⟨hello, lines, hishello, hspeaks.congr rfl rfl, ⟨hmid.idle, hmid.held⟩, hlater.symm,
          ReplyLine.size_of_mem_expand⟩
      · exact ⟨hello, lines, hishello, hspeaks.congr rfl rfl, ⟨hmid.idle, hmid.held⟩, hlater.symm,
          List.forall_mem_singleton.mpr (ReplyLine.size_collapse lines)⟩
    | false =>
      have hlater : (if (ReplyLine.collapse lines).code = Code.ok then SessionState.loginComplete
          else .connected) = mid.state := by
        rw [if_neg fun h => Bool.eq_false_iff.mp hcode (beq_iff_eq.mpr h), hsame]
        exact hstate.symm
      split
      · exact ⟨hello, lines, hishello, hspeaks.congr rfl rfl, ⟨hmid.idle, hmid.held⟩, hlater.symm,
          ReplyLine.size_of_mem_expand⟩
      · exact ⟨hello, lines, hishello, hspeaks.congr rfl rfl, ⟨hmid.idle, hmid.held⟩, hlater.symm,
          List.forall_mem_singleton.mpr (ReplyLine.size_collapse lines)⟩
  · intro e c' hc'
    obtain ⟨rs, hspeaks, hbroken, -, hcut⟩ := hc'
    exact ⟨hello, rs, hishello, hspeaks, hbroken, hcut⟩

/-- A command that moves the session on, unless the server refuses. -/
theorem ends_command (command : Command) (state : SessionState) (hholds : c.Holds n) :
    Ends (do
        let reply ← transact command
        if !reply.isFailure then moveTo state
        return reply) c
      (fun reply c' => ∃ lines, reply = ReplyLine.collapse lines ∧
        c.Speaks n c' (command.answered lines) ∧ c'.Holds n ∧
        c'.state = if (ReplyLine.collapse lines).isFailure then c.state else state)
      (fun e c' => ∃ rs, c.Speaks n c' rs ∧ c'.Broken e ∧ rs <+: command.asked) := by
  simp only [transact, ends_bind]
  refine ((converses_exchange command
    (c := { c with inFlight := true }) hholds.held).settled hholds.idle).mono ?_ ?_
  · intro lines mid hmid
    obtain ⟨rs, hspeaks, hmid, hsame, rfl⟩ := hmid
    simp only [keep, moveTo, ends_modify, ends_pure, ends_ite, ends_bind]
    cases hfailure : (ReplyLine.collapse lines).isFailure with
    | true =>
      refine ⟨lines, rfl, hspeaks.congr rfl rfl, ⟨hmid.idle, hmid.held⟩, ?_⟩
      rw [hfailure]
      exact hsame
    | false =>
      refine ⟨lines, rfl, hspeaks.congr rfl rfl, ⟨hmid.idle, hmid.held⟩, ?_⟩
      rw [hfailure]
      rfl
  · intro e c' hc'
    obtain ⟨rs, hspeaks, hbroken, -, hcut⟩ := hc'
    exact ⟨rs, hspeaks, hbroken, hcut⟩

/-- The client names the sender. -/
theorem ends_sender (address : Address) (dsn : Option Dsn) (hholds : c.Holds n)
    (hstate : c.state = .loginComplete) :
    ∃ params, Ends (Client.sender address dsn) c
      (fun reply c' => ∃ lines, reply = ReplyLine.collapse lines ∧
        c.Speaks n c' ((Command.mailFrom address params).answered lines) ∧ c'.Holds n ∧
        c'.state = if (ReplyLine.collapse lines).isFailure then .loginComplete else .mailFromDone)
      (fun e c' => ∃ rs, c.Speaks n c' rs ∧ c'.Broken e ∧
        rs <+: (Command.mailFrom address params).asked) := by
  have hallowed : (c.state == .loginComplete) = true := beq_iff_eq.mpr hstate
  refine ⟨c.params dsn Dsn.senderParams, ?_⟩
  refine ends_bind.mpr ((ends_enter hholds.idle hallowed).mpr (ends_bind.mpr (ends_get.mpr ?_)))
  rw [← hstate]
  exact ends_command _ .mailFromDone hholds

/-- The client names the recipient. -/
theorem ends_recipient (address : Address) (dsn : Option Dsn) (hholds : c.Holds n)
    (hstate : c.state = .mailFromDone) :
    ∃ params, Ends (Client.recipient address dsn) c
      (fun reply c' => ∃ lines, reply = ReplyLine.collapse lines ∧
        c.Speaks n c' ((Command.rcptTo address params).answered lines) ∧ c'.Holds n ∧
        c'.state = if (ReplyLine.collapse lines).isFailure then .mailFromDone else .rcptToDone)
      (fun e c' => ∃ rs, c.Speaks n c' rs ∧ c'.Broken e ∧
        rs <+: (Command.rcptTo address params).asked) := by
  have hallowed : (c.state == .mailFromDone) = true := beq_iff_eq.mpr hstate
  refine ⟨c.params dsn Dsn.recipientParams, ?_⟩
  refine ends_bind.mpr ((ends_enter hholds.idle hallowed).mpr (ends_bind.mpr (ends_get.mpr ?_)))
  rw [← hstate]
  exact ends_command _ .rcptToDone hholds

/-- The client gives the transaction up. -/
theorem ends_reset (hholds : c.Holds n) (hstate : c.state.inSession = true) :
    Ends reset c
      (fun _ c' => ∃ lines, (ReplyLine.collapse lines).isFailure = false ∧
        c.Speaks n c' (Command.rset.answered lines) ∧ c'.Holds n ∧ c'.state = .loginComplete)
      (fun e c' => ∃ rs lines, c.Speaks n c' rs ∧ c'.Broken e ∧ .said .rset ∈ rs ∧
        rs <+: Command.rset.answered lines) := by
  refine ends_bind.mpr ((ends_enter hholds.idle hstate).mpr (ends_bind.mpr ?_))
  refine ((converses_askReset (c := { c with inFlight := true }) hholds.held).settled
    hholds.idle).mono ?_ ?_
  · intro reply mid hmid
    obtain ⟨rs, hspeaks, hholds, -, lines, -, haccepted, rfl⟩ := hmid
    exact ⟨lines, haccepted, hspeaks.congr rfl rfl, ⟨hholds.idle, hholds.held⟩, rfl⟩
  · intro e c' hc'
    obtain ⟨rs, hspeaks, hbroken, hmem, hcut⟩ := hc'
    rcases hcut with hcut | ⟨lines, -, rfl⟩
    · exact ⟨rs, [], hspeaks, hbroken, hmem, hcut.trans (List.prefix_append _ _)⟩
    · exact ⟨_, lines, hspeaks, hbroken, hmem, List.prefix_refl _⟩

/-- The client sends a message. -/
theorem ends_sendData_said (sources : List (Option Script)) (hholds : c.Holds n)
    (hstate : c.state = .rcptToDone) :
    Ends (Client.sendData sources) c
      (fun reply c' => ∃ rs, c.Speaks n c' rs ∧ c'.Holds n ∧ c'.state = .rcptToDone ∧
        HandedOver sources reply rs)
      (fun e c' => ∃ rs goAhead, c.Speaks n c' rs ∧ c'.Broken e ∧
        (ReplyLine.collapse goAhead).code = Code.startData ∧
        rs <+: Command.data.answered goAhead ++ Message.poured sources) := by
  have hallowed : (c.state == .rcptToDone) = true := beq_iff_eq.mpr hstate
  refine ends_bind.mpr ((ends_enter hholds.idle hallowed).mpr (ends_bind.mpr ?_))
  refine ((converses_handOver sources (c := { c with inFlight := true }) hholds.held).settled
    hholds.idle).mono ?_ ?_
  · intro reply mid hmid
    obtain ⟨rs, hspeaks, hholds, hsame, hsaid⟩ := hmid
    exact ⟨rs, hspeaks.congr rfl rfl, ⟨hholds.idle, hholds.held⟩, hsame.trans hstate, hsaid⟩
  · intro e c' hc'
    obtain ⟨rs, hspeaks, hbroken, goAhead, hcode, hcut⟩ := hc'
    exact ⟨rs, goAhead, hspeaks, hbroken, hcode, hcut⟩

/-- The client says goodbye. -/
theorem ends_done (hholds : c.Holds n) (hlive : c.state.isLive = true) :
    Ends done c (fun _ c' => c'.Over ∧ ∃ lines, c.Speaks n c' (Command.quit.answered lines))
      (fun e c' => c'.Over ∧ (∃ rs, c.Speaks n c' rs ∧ rs <+: Command.quit.asked) ∧
        (e = .abandoned → c'.inFlight = true)) := by
  have hallowed : (c.state != .bad) = true := by
    cases hstate : c.state <;> first | rfl | (rw [hstate] at hlive; cases hlive)
  simp only [done, marked, ends_bind]
  refine (ends_enter hholds.idle hallowed).mpr (ends_get.mpr ?_)
  simp only [hlive, ends_modify, ends_pure, ends_ite, ends_bind, ends_attempt]
  apply (converses_exchange .quit (c := { c with inFlight := true }) hholds.held).mono
  · intro lines mid hmid
    obtain ⟨es, rs, hw, -, hspoken, rfl⟩ := hmid
    have hspeaks : c.Speaks n { mid with inFlight := false } _ :=
      ⟨es, (hw.unmarked hholds.idle).toMoves, hspoken⟩
    have hgone : c.Speaks n (Client.disconnect { mid with inFlight := false }) (_ ++ []) :=
      hspeaks.trans (speaks_release n _ rfl rfl)
    rw [List.append_nil] at hgone
    exact ⟨.inr rfl, lines, hgone⟩
  · intro e mid hmid
    obtain ⟨es, rs, hw, hspoken, ⟨-, hcut⟩, -⟩ := hmid
    have hspeaks : c.Speaks n { mid with inFlight := false } rs :=
      ⟨es, (hw.unmarked hholds.idle).toMoves, hspoken⟩
    have hgone : ∀ later : Client, later.connection = none →
        later.net = releasedNet { mid with inFlight := false } → c.Speaks n later rs :=
      fun later hnone hnet => List.append_nil rs ▸ hspeaks.trans (speaks_release n _ hnone hnet)
    cases e with
    | failed fault =>
      cases fault <;> exact ⟨.inr rfl, ⟨rs, hgone _ rfl rfl, hcut⟩, fun h => by cases h⟩
    | abandoned =>
      have hmark : mid.inFlight = true := by rw [hw.same]
      exact ⟨.inl hmark, ⟨rs, hspeaks.congr rfl rfl, hcut⟩, fun _ => hmark⟩

/-- A call that was dropped is all that an operation finds. -/
theorem ends_of_inFlight (op : Operation) (n : Nat) (hmark : c.inFlight = true) :
    Ends op.carryOut c (fun _ _ => False)
      (fun e c' => c.Speaks n c' [] ∧ c'.Broken e ∧
        e = .failed (.invalidState op.name .bad)) := by
  have hcleared : c.cleared = c.abandon := by
    unfold cleared
    rw [if_pos hmark]
  unfold Ends
  rw [IsBad.carryOut (.inr hmark) op]
  exact ⟨speaks_cleared n c, hcleared ▸ ⟨rfl, rfl, rfl⟩, rfl⟩

end Client

/-! ## What has passed on every connection -/

/-- On every connection what has passed by now satisfies `p`, where `es` is what has happened and
`c` is the client, and nothing has on those that are still to be asked for. -/
structure Recorded (p : List Remark → Prop) (es : List Entry) (c : Client) : Prop where
  numbered : ∀ n, c.held = some n → n < c.net.dialled
  untouched : ∀ n, c.net.dialled ≤ n → dialogue n es = []
  each : ∀ n, p (dialogue n es)

section

variable {p : List Remark → Prop} {before es fs : List Entry} {c later : Client} {n : Nat}
  {rs : List Remark}

/-- A connection that the client had is one that has been asked for. -/
theorem Recorded.had (h : Recorded p es c) (hm : c.Moves later fs) (hn : c.Had later n) :
    n < later.net.dialled := by
  rcases hn with hn | hn
  · exact Nat.lt_of_lt_of_le (h.numbered n hn) hm.dialled_le
  · exact hn.2

/-- What is done keeps to `p`, if it does so on each connection that it uses. -/
theorem Recorded.moves (h : Recorded p es c) (hm : c.Moves later fs)
    (hgoes : ∀ n, dialogue n fs ≠ [] → p (dialogue n es ++ dialogue n fs)) :
    Recorded p (es ++ fs) later where
  numbered n hn := h.had hm (hm.held n hn)
  untouched n hn := by
    have hunused : dialogue n fs = [] := dialogue_eq_nil fun e he hu =>
      Nat.not_lt_of_le hn (h.had hm (hm.own e he n hu))
    rw [dialogue_append, h.untouched n (Nat.le_trans hm.dialled_le hn), hunused, List.append_nil]
  each n := by
    rw [dialogue_append]
    by_cases hfs : dialogue n fs = []
    · rw [hfs, List.append_nil]
      exact h.each n
    · exact hgoes n hfs

/-- So does what tells of no connection. -/
theorem Recorded.moves_silent (h : Recorded p es c) (hm : c.Moves later fs)
    (hsilent : ∀ n, dialogue n fs = []) : Recorded p (es ++ fs) later :=
  h.moves hm fun n hn => absurd (hsilent n) hn

theorem Recorded.speaks (h : Recorded p es c) (hs : c.Speaks n later rs)
    (hgoes : p (dialogue n es ++ rs)) : ∃ fs, c.Moves later fs ∧
      Recorded p (es ++ fs) later ∧ dialogue n (es ++ fs) = dialogue n es ++ rs := by
  obtain ⟨fs, hm, hspoken⟩ := hs
  refine ⟨fs, hm, h.moves hm fun k hk => ?_, by rw [dialogue_append, hspoken.said]⟩
  by_cases hkn : k = n
  · subst hkn
    rw [hspoken.said]
    exact hgoes
  · exact absurd (hspoken.elsewhere hkn) hk

/-- The record of what happened goes on. -/
theorem Client.Moves.journal_append (hm : c.Moves later fs)
    (h : c.net.journal = es.reverse ++ before) :
    later.net.journal = (es ++ fs).reverse ++ before := by
  rw [hm.journal, h, List.reverse_append, List.append_assoc]

/-- What happens to a connection that is let go of tells of none. -/
theorem dialogue_release (n : Nat) (c : Client) : dialogue n c.release = [] :=
  (Client.spoken_release n c).said

end

end MailSubmission
