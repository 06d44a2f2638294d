import MailSubmission.Proofs.Lifetime

set_option autoImplicit false

/-!
# A truncated message is never completed

A message is announced, and its body follows if the server will have it.  Whatever goes
wrong on the way, what stands on the wire behind the reply to the announcement is a
beginning of the body's encoding, and its last line, the single dot, stands there only if
the whole body does.  The call that failed has let go of the connection, so nothing later
can add the missing dot.
-/

namespace MailSubmission

open Run Body

/-- What stands on the wire of a message that was handed over on the connection `n`, in the
call in which `es` happened.  The body goes out behind the reply that asks for it, as a
beginning of the encoding of what was read from its sources.  It has a line that is a single
dot only if all of it stands there and every source was read to its end. -/
structure WholeOrOpen (n : Nat) (sources : List (Option Script)) (es : List Entry) : Prop where
  own : ∀ e ∈ es, ∀ m, e.Uses m → m = n
  goAhead : octetsSent n (afterReply es) ≠ [] → ∃ reply, firstReply? es = some reply ∧
    (ReplyLine.collapse reply).code = Code.startData
  handed : (feedings (afterReply es)).flatten <+: (sources.filterMap id).flatMap Script.content
  beginning : octetsSent n (afterReply es) <+: encode (feedings (afterReply es)).flatten
  complete : [dot] ∈ lines (octetsSent n (afterReply es)) →
    Drained (sources.filterMap id) (feedings (afterReply es)) ∧
      octetsSent n (afterReply es) = encode (feedings (afterReply es)).flatten

variable {n : Nat} {sources : List (Option Script)} {es before body : List Entry}
  {reply : List ReplyLine}

/-- Short of a reply there is no body. -/
theorem wholeOrOpen_of_unanswered (hown : ∀ e ∈ es, ∀ m, e.Uses m → m = n) (h : Unanswered es) :
    WholeOrOpen n sources es := by
  have hafter : afterReply es = [] := by
    have h := afterReply_of_unanswered [] h
    rwa [List.append_nil] at h
  have honWire : OnWire (sources.filterMap id) [] [] := onWire_nil _
  refine ⟨hown, ?_, ?_, ?_, ?_⟩
  · intro hne
    rw [hafter] at hne
    exact absurd rfl hne
  all_goals rw [hafter]
  · exact honWire.handed
  · exact honWire.prefix_encode
  · exact honWire.complete_of_dot

/-- The body follows the first reply. -/
theorem wholeOrOpen_of_reply
    (hown : ∀ e ∈ before ++ .heard n reply :: body, ∀ m, e.Uses m → m = n)
    (h : Unanswered before)
    (hcode : octetsSent n body ≠ [] → (ReplyLine.collapse reply).code = Code.startData)
    (hbody : OnWire (sources.filterMap id) (feedings body) (octetsSent n body)) :
    WholeOrOpen n sources (before ++ .heard n reply :: body) := by
  have hafter : afterReply (before ++ .heard n reply :: body) = body := afterReply_of_unanswered _ h
  have hfirst : firstReply? (before ++ .heard n reply :: body) = some reply :=
    firstReply?_of_unanswered _ h
  refine ⟨hown, ?_, ?_, ?_, ?_⟩
  all_goals rw [hafter]
  · intro hne
    exact ⟨reply, hfirst, hcode hne⟩
  · exact hbody.handed
  · exact hbody.prefix_encode
  · exact hbody.complete_of_dot

/-- Letting go of a connection adds nothing to what stands on its wire. -/
theorem WholeOrOpen.release (h : WholeOrOpen n sources es) (m : Option Nat) :
    WholeOrOpen n sources (es ++ (m.map .released).toList) := by
  obtain ⟨hsent, hfed⟩ := afterReply_release n es m
  refine ⟨?_, ?_, ?_, ?_, ?_⟩
  · intro e he k hu
    rcases List.mem_append.mp he with he | he
    · exact h.own e he k hu
    · obtain ⟨j, -, rfl⟩ : ∃ j, m = some j ∧ Entry.released j = e := by simpa using he
      exact hu.elim
  · rw [hsent, firstReply?_release]
    exact h.goAhead
  · rw [hfed]
    exact h.handed
  · rw [hsent, hfed]
    exact h.beginning
  · rw [hsent, hfed]
    exact h.complete

/-- A body that streams out behind the reply that asks for it, and what comes after it. -/
theorem wholeOrOpen_of_streams {start l mid later : Link} {reads : List (List UInt8)}
    {wire : List UInt8} {rest : List Entry} (hn : start.connection.socket.number = n)
    (hreply : start.Leads l (before ++ [.heard n reply])) (h : Unanswered before)
    (hcode : (ReplyLine.collapse reply).code = Code.startData) (hbody : l.Streams mid reads wire)
    (honWire : OnWire (sources.filterMap id) reads wire) (hrest : mid.Leads later rest)
    (hsent : octetsSent n rest = []) (hfed : feedings rest = []) :
    ∃ es, start.Leads later es ∧ WholeOrOpen n sources es ∧ octetsSent n (afterReply es) = wire := by
  obtain ⟨es, hes, rfl, rfl⟩ := hbody
  rw [hreply.number, hn] at honWire ⊢
  have hall := (hreply.trans hes).trans hrest
  rw [List.append_assoc, List.append_assoc, List.singleton_append] at hall
  refine ⟨_, hall, ?_, ?_⟩
  · refine wholeOrOpen_of_reply ?_ h (fun _ => hcode) ?_
    · intro e he m hu
      exact ((hall.own e he).of_uses hu).trans hn
    · rw [feedings_append, hfed, octetsSent_append, hsent, List.append_nil, List.append_nil]
      exact honWire
  · have hafter : afterReply (before ++ .heard n reply :: (es ++ rest)) = es ++ rest :=
      afterReply_of_unanswered _ h
    rw [hafter, octetsSent_append, hsent, List.append_nil]

/-- Time that runs out in the phase `body` runs out while a body is sent. -/
theorem Halt.During.le {phase : Phase} {tally : Nat → Prop} {h : Halt Fault} {k : Nat}
    (hd : h.During phase tally) (ht : h = .failed (.timeout .body k)) : phase = .body ∧ tally k := by
  subst ht
  exact ⟨hd.1.symm, hd.2⟩

namespace Client

variable {c : Client} {conn : Connection}

/-- A message is handed over, or the call comes to a halt on the way. -/
theorem ends_handOver (sources : List (Option Script)) (hc : c.connection = some conn) :
    Ends (handOver sources) c
      (fun _ c' => ∃ es, c.Works c' es ∧ WholeOrOpen conn.socket.number sources es)
      fun h c' => ∃ es, c.Works c' es ∧ WholeOrOpen conn.socket.number sources es ∧
        h.Fatal ∧ ∀ k, h = .failed (.timeout .body k) →
          k ≤ (octetsSent conn.socket.number (afterReply es)).length := by
  refine ends_bind.mpr ((ends_exchange .data hc).mono ?_ ?_)
  · intro lines mid hmid
    obtain ⟨l, before, hl, hunanswered, rfl⟩ := hmid
    refine ends_ite.mpr ?_
    split
    · rename_i hcode
      have hcode := beq_iff_eq.mp hcode
      refine ends_onLink rfl (ends_bind.mpr ((Link.ends_writeBody sources l).mono ?_ ?_))
      · intro sent mid hmid
        obtain ⟨-, reads, hdrained, hbody⟩ := hmid
        have honWire := onWire_of_drained hdrained (List.prefix_refl _)
        refine ends_bind.mpr ((Link.ends_readReply .dataReply mid).mono ?_ ?_)
        · intro lines' l' hl'
          obtain ⟨chunks, hreply⟩ := hl'
          obtain ⟨es, hes, hhands, -⟩ := wholeOrOpen_of_streams rfl hl hunanswered hcode hbody honWire
            hreply (by simp [Entry.sentOn]) (by simp [feedings, Entry.feeding?])
          exact ⟨es, works_of_leads hc hes, hhands⟩
        · intro h l' hl'
          obtain ⟨⟨chunks, hreply⟩, hd⟩ := hl'
          obtain ⟨es, hes, hhands, -⟩ := wholeOrOpen_of_streams rfl hl hunanswered hcode hbody honWire
            hreply (by simp) (by simp)
          refine ⟨es, works_of_leads hc hes, hhands, hd.fatal, fun k hk => ?_⟩
          obtain ⟨hphase, -⟩ := hd.le hk
          cases hphase
      · intro h l' hl'
        obtain ⟨reads, wire, honWire, hbody, hd⟩ := hl'
        obtain ⟨es, hes, hhands, hwire⟩ := wholeOrOpen_of_streams rfl hl hunanswered hcode hbody
          honWire (.refl l') rfl rfl
        refine ⟨es, works_of_leads hc hes, hhands, hd.fatal, fun k hk => ?_⟩
        rw [hwire]
        exact (hd.le hk).2
    · refine ⟨_, works_of_leads hc hl, wholeOrOpen_of_reply ?_ hunanswered ?_ (onWire_nil _)⟩
      · intro e he m hu
        exact (hl.own e he).of_uses hu
      · intro hne
        exact absurd rfl hne
  · intro h c' hhalt
    obtain ⟨l, es, hl, hunanswered, rfl, hd⟩ := hhalt
    refine ⟨es, works_of_leads hc hl, ?_, hd.fatal, ?_⟩
    · exact wholeOrOpen_of_unanswered (fun e he m hu => (hl.own e he).of_uses hu) hunanswered
    · intro k hk
      obtain ⟨hphase, -⟩ := hd.le hk
      cases hphase

/-- The message is handed over, and what the halt leaves has let go of the connection. -/
theorem ends_sendData (sources : List (Option Script)) (hidle : c.inFlight = false)
    (hstate : c.state = .rcptToDone) (hc : c.connection = some conn) :
    Ends (Client.sendData sources) c
      (fun _ c' => ∃ es, c.Moves c' es ∧ WholeOrOpen conn.socket.number sources es)
      fun h c' => ∃ es, c.Moves c' es ∧ WholeOrOpen conn.socket.number sources es ∧
        h.Fatal ∧ ∀ k, h = .failed (.timeout .body k) →
          k ≤ (octetsSent conn.socket.number (afterReply es)).length := by
  have hallowed : (c.state == .rcptToDone) = true := by rw [hstate]; rfl
  simp only [Client.sendData, ends_bind]
  refine (ends_enter hidle hallowed).mpr (ends_settled ?_)
  apply (ends_handOver (c := { c with inFlight := true }) sources hc).mono
  · intro reply mid hmid
    obtain ⟨es, hes, hhands⟩ := hmid
    exact ⟨es, (hes.unmarked hidle).toMoves.congr rfl rfl, hhands⟩
  · intro h mid hmid
    obtain ⟨es, hes, hhands, hfatal, htally⟩ := hmid
    have hmoves := (hes.unmarked hidle).toMoves
    refine ⟨hfatal, by rw [hes.same], ?_⟩
    cases h with
    | failed fault =>
      refine ⟨_, hmoves.trans (moves_release _ rfl rfl), hhands.release mid.held, hfatal, ?_⟩
      intro k hk
      have hsent := (afterReply_release conn.socket.number es mid.held).1
      exact hsent ▸ htally k hk
    | abandoned => exact ⟨es, hmoves.congr rfl rfl, hhands, hfatal, htally⟩

/-- A dropped call before it is all that the call finds. -/
theorem sendData_of_inFlight (sources : List (Option Script)) (hmark : c.inFlight = true) :
    Client.sendData sources c = .error (.failed (.invalidState "send_data" .bad)) c.cleared := by
  have hbad : c.cleared.state = .bad := (isBad_iff c).mp (.inr hmark)
  have henter : enter "send_data" (· == .rcptToDone) c =
      .error (.failed (.invalidState "send_data" .bad)) c.cleared := by
    rw [enter_apply, hbad]
    rfl
  exact bind_of_error henter

/-- For every client that can send a message, whatever its sources are and whatever goes
wrong. -/
theorem truncated_message_never_completed {id : Nat} {settings : ClientSettings} {token : Token}
    {net : Network} {earlier : List Call} (sources : List (Option Script))
    (hc : Runs (Client.new id settings token net) earlier c) (hstate : c.state = .rcptToDone) :
    ∃ n, c.held = some n ∧ Ends (Client.sendData sources) c
      (fun _ c' => ∃ es, c'.net.journal = es.reverse ++ c.net.journal ∧
        WholeOrOpen n sources es)
      fun h c' => ∃ es, c'.net.journal = es.reverse ++ c.net.journal ∧
        WholeOrOpen n sources es ∧
        (∀ k, h = .failed (.timeout .body k) → k ≤ (octetsSent n (afterReply es)).length) ∧
        ∀ (calls : List Call) (later : Client), Runs c' calls later →
          ∃ fs : List Entry, later.net.journal = fs.reverse ++ c'.net.journal ∧
            ∀ f ∈ fs, ¬ f.Uses n := by
  have hsound := (sound_new id settings token net).runs hc
  have hopen := hsound.isOpen (by rw [hstate]; rfl)
  obtain ⟨conn, hconn⟩ := Option.isSome_iff_exists.mp hopen
  have hheld : c.held = some conn.socket.number := by
    rw [held, hconn]
    rfl
  have hlt : conn.socket.number < c.net.dialled := hsound.numbered _ hheld
  refine ⟨conn.socket.number, hheld, ?_⟩
  unfold Ends
  cases hmark : c.inFlight with
  | true =>
    rw [sendData_of_inFlight sources hmark]
    obtain ⟨es, hes, hreleased⟩ := c.moves_cleared
    have hspent : Spent c.net.dialled c.cleared := by
      refine ⟨hes.dialled_le, fun n hn => ?_⟩
      rw [cleared_cleared, held_cleared, hmark] at hn
      cases hn
    refine ⟨es, hes.journal, wholeOrOpen_of_unanswered ?_ ?_, ?_, ?_⟩
    · intro e he m hu
      obtain ⟨k, rfl⟩ := hreleased e he
      exact hu.elim
    · intro e he
      obtain ⟨k, rfl⟩ := hreleased e he
      rfl
    · intro k hk
      cases hk
    · intro calls later hruns
      exact hspent.unused hlt hruns
  | false =>
    have hends := ends_sendData sources hmark hstate hconn
    cases hr : Client.sendData sources c with
    | ok answer c' =>
      obtain ⟨es, hes, hwhole⟩ := hends.of_ok hr
      exact ⟨es, hes.journal, hwhole⟩
    | error h c' =>
      obtain ⟨es, hes, hwhole, hfatal, htally⟩ := hends.of_error hr
      have hcall : (Call.operation (.sendData sources)).carryOut c = .error h c' :=
        bind_of_error (bind_of_error hr)
      refine ⟨es, hes.journal, hwhole, htally, fun calls later hruns => ?_⟩
      exact (spent_of_fatal hcall hfatal).unused (Nat.lt_of_lt_of_le hlt hes.dialled_le) hruns

/-- A source that says nothing more behind a dot: the stuffed dot is on the wire, and no later
call adds to it. -/
theorem truncated_message_never_completed_hang :
    let line (code : Nat) : Event := .data (Decoder.columnOctets code ++ [10])
    let net : Network :=
      { sockets := [{ reads := [line 220, line 250, line 250, line 250, line 354] }] }
    let calls : List Call := [.operation (.connect "mx" 25), .operation .login,
      .operation (.sender .null none), .operation (.recipient .null none)]
    let c := calls.foldl (fun c call => call.after c) (Client.new 1 {} {} net)
    let sources : List (Option Script) := [some [.data [46], .hang]]
    Runs (Client.new 1 {} {} net) calls c ∧ c.state = .rcptToDone ∧
      ∃ c' es, Client.sendData sources c = .error (.failed (.timeout .body 2)) c' ∧
        c'.net.journal = es.reverse ++ c.net.journal ∧ WholeOrOpen 0 sources es ∧
        2 ≤ (octetsSent 0 (afterReply es)).length ∧
        ∀ (calls : List Call) (later : Client), Runs c' calls later →
          ∃ fs : List Entry, later.net.journal = fs.reverse ++ c'.net.journal ∧
            ∀ f ∈ fs, ¬ f.Uses 0 := by
  intro line net calls c sources
  have hruns : Runs (Client.new 1 {} {} net) calls c := runs_foldl calls _
  have hstate : c.state = .rcptToDone := by decide +kernel
  have hheld : c.held = some 0 := by decide +kernel
  have htimeout : (match Client.sendData sources c with
      | .ok _ _ => none
      | .error h _ => some h) = some (.failed (.timeout .body 2)) := by decide +kernel
  obtain ⟨n, hn, hends⟩ := truncated_message_never_completed sources hruns hstate
  obtain rfl : 0 = n := Option.some.inj (hheld.symm.trans hn)
  refine ⟨hruns, hstate, ?_⟩
  cases hr : Client.sendData sources c with
  | ok reply c' =>
    rw [hr] at htimeout
    cases htimeout
  | error h c' =>
    rw [hr] at htimeout
    obtain rfl := Option.some.inj htimeout
    obtain ⟨es, hes, hwhole, htally, hlater⟩ := hends.of_error hr
    exact ⟨c', es, rfl, hes, hwhole, htally 2 rfl, hlater⟩

end Client

end MailSubmission
