import MailSubmission.Proofs.ClientConduct

set_option autoImplicit false

/-!
# What passes on a connection

The journal keeps everything that happens.  The protocol sees, of each connection, the commands
that are begun, the octets that go out, what has left, and the replies (`Remark`): `dialogue n`
is that view of the journal for the connection `n`.

Work of a client is said by what passes on the connection it is done on (`Spoken`): a command
is answered, or it comes to a halt and what passed is a beginning of asking it.
-/

namespace MailSubmission

/-! ## Dialogues -/

/-- What passes on a connection, as far as the protocol goes. -/
inductive Remark where
  /-- a command was begun -/
  | said (command : Command)
  /-- an octet went out -/
  | octet (byte : UInt8)
  /-- what went out has left -/
  | flushed
  /-- a reply was complete -/
  | heard (lines : List ReplyLine)
  deriving DecidableEq, Repr

instance : Inhabited Remark := ⟨.flushed⟩

namespace Entry

/-- What an entry tells about the connection `n`. -/
def remarks (n : Nat) : Entry → List Remark
  | .issued m command => if m = n then [.said command] else []
  | .sent m bytes => if m = n then bytes.map .octet else []
  | .flushed m => if m = n then [.flushed] else []
  | .heard m lines => if m = n then [.heard lines] else []
  | _ => []

/-- No connection but `n` was used, and no pause was made. -/
def KeepsTo (n : Nat) : Entry → Prop
  | .issued m _ | .sent m _ | .flushed m | .received m _ | .heard m _ => m = n
  | .paused _ => False
  | _ => True

/-- A message body was announced. -/
def isAnnouncement : Entry → Bool
  | .issued _ .data => true
  | _ => false

/-- Octets went out, or a message source was read or waited for in vain. -/
def IsOutgoing : Entry → Prop
  | .sent .. | .fed _ | .interrupted => True
  | _ => False

end Entry

/-- What passed on the connection `n`, in order. -/
def dialogue (n : Nat) (es : List Entry) : List Remark := es.flatMap (Entry.remarks n)

/-- What passes when a command goes out. -/
def Command.asked (command : Command) : List Remark :=
  .said command :: command.wire.map .octet ++ [.flushed]

/-- What passes when a command goes out and is answered. -/
def Command.answered (command : Command) (lines : List ReplyLine) : List Remark :=
  command.asked ++ [.heard lines]

/-- The octets that the sources of a message hand over, one source after another. -/
def Message.content (sources : List (Option Script)) : List UInt8 :=
  (sources.filterMap id).flatMap Script.content

/-- What passes when a message body goes out. -/
def Message.poured (sources : List (Option Script)) : List Remark :=
  (Body.encode (Message.content sources)).map .octet ++ [.flushed]

section

variable (n : Nat) (es fs : List Entry)

@[simp] theorem dialogue_nil : dialogue n [] = [] := rfl

@[simp] theorem dialogue_cons (e : Entry) : dialogue n (e :: es) = e.remarks n ++ dialogue n es :=
  List.flatMap_cons

@[simp] theorem dialogue_append : dialogue n (es ++ fs) = dialogue n es ++ dialogue n fs :=
  List.flatMap_append

@[simp] theorem dialogue_takings (pieces : List (List UInt8)) :
    dialogue n (Entry.takings n pieces) = pieces.flatten.map .octet := by
  induction pieces with
  | nil => rfl
  | cons piece rest ih =>
    have htaken : dialogue n (Entry.taking n piece) = piece.map .octet := by
      cases piece <;> simp [Entry.taking, Entry.remarks]
    rw [Entry.takings_cons, dialogue_append, htaken, ih, List.flatten_cons, List.map_append]

@[simp] theorem dialogue_received (m : Nat) (chunks : List (List UInt8)) :
    dialogue n (chunks.map (.received m)) = [] := by
  induction chunks with
  | nil => rfl
  | cons bytes rest ih => exact ih

@[simp] theorem dialogue_trace (h : Halt Fault) : dialogue n h.trace = [] := by
  unfold Halt.trace
  split <;> rfl

@[simp] theorem feedings_cons (e : Entry) : feedings (e :: es) = e.feeding?.toList ++ feedings es := by
  cases e <;> rfl

end

variable {n : Nat} {es fs : List Entry}

theorem Entry.KeepsTo.of_staysOn {e : Entry} (h : e.StaysOn n) : e.KeepsTo n := by
  cases e <;> first | exact h | trivial

/-- What tells of a connection uses it. -/
theorem Entry.uses_of_remarks {e : Entry} (h : e.remarks n ≠ []) : e.Uses n := by
  cases e <;> simp_all [Entry.remarks, Entry.Uses]

theorem dialogue_eq_nil (h : ∀ e ∈ es, ¬ e.Uses n) : dialogue n es = [] :=
  List.flatMap_eq_nil_iff.mpr fun e he => Classical.byContradiction fun hne =>
    h e he (Entry.uses_of_remarks hne)

/-- Where only octets go out, they are all that passes. -/
theorem dialogue_of_isOutgoing (h : ∀ e ∈ es, e.IsOutgoing) :
    dialogue n es = (octetsSent n es).map .octet := by
  induction es with
  | nil => rfl
  | cons e rest ih =>
    obtain ⟨he, hrest⟩ := List.forall_mem_cons.mp h
    rw [dialogue_cons, octetsSent_cons, List.map_append, ih hrest]
    cases e with
    | sent m bytes =>
      simp only [Entry.remarks, Entry.sentOn]
      split <;> rfl
    | fed bytes => rfl
    | interrupted => rfl
    | _ => exact he.elim

/-! ## What is spoken on one connection -/

/-- In `es` nothing was done but on the connection `n`, where `rs` passed.  A message source is
read only where a message body was announced. -/
structure Spoken (n : Nat) (es : List Entry) (rs : List Remark) : Prop where
  own : ∀ e ∈ es, e.KeepsTo n
  said : dialogue n es = rs
  fed : feedings es ≠ [] → .said .data ∈ rs

/-- Entries that tell of no connection. -/
theorem spoken_of_plain (h : ∀ e ∈ es, e.KeepsTo n ∧ e.remarks n = [] ∧ e.feeding? = none) :
    Spoken n es [] where
  own e he := (h e he).1
  said := List.flatMap_eq_nil_iff.mpr fun e he => (h e he).2.1
  fed hne := absurd (List.filterMap_eq_nil_iff.mpr fun e he => (h e he).2.2) hne

theorem spoken_nil (n : Nat) : Spoken n [] [] := spoken_of_plain (by simp)

theorem Spoken.append {rs rs' : List Remark} (h : Spoken n es rs) (g : Spoken n fs rs') :
    Spoken n (es ++ fs) (rs ++ rs') where
  own e he := (List.mem_append.mp he).elim (h.own e) (g.own e)
  said := by rw [dialogue_append, h.said, g.said]
  fed hne := by
    by_cases hes : feedings es = []
    · rw [feedings_append, hes, List.nil_append] at hne
      exact List.mem_append_right _ (g.fed hne)
    · exact List.mem_append_left _ (h.fed hes)

/-- Nothing passed on any other connection. -/
theorem Spoken.elsewhere {rs : List Remark} {m : Nat} (h : Spoken n es rs) (hm : m ≠ n) :
    dialogue m es = [] := by
  refine dialogue_eq_nil fun e he hu => ?_
  have hown := h.own e he
  cases e with
  | issued k _ => exact hm (hu.symm.trans hown)
  | sent k _ => exact hm (hu.symm.trans hown)
  | flushed k => exact hm (hu.symm.trans hown)
  | received k _ => exact hm (hu.symm.trans hown)
  | heard k _ => exact hm (hu.symm.trans hown)
  | _ => exact hu

/-- A body is announced as often as the command is begun on the connection. -/
theorem Spoken.countP_isAnnouncement {rs : List Remark} (h : Spoken n es rs) :
    es.countP Entry.isAnnouncement = rs.count (.said .data) := by
  obtain ⟨hown, rfl, -⟩ := h
  induction es with
  | nil => rfl
  | cons e rest ih =>
    obtain ⟨he, hrest⟩ := List.forall_mem_cons.mp hown
    rw [dialogue_cons, List.count_append, List.countP_cons, ih hrest, Nat.add_comm]
    congr 1
    cases e with
    | issued m command =>
      have hm : m = n := he
      cases command <;> simp [Entry.isAnnouncement, Entry.remarks, hm]
    | sent m bytes =>
      have hm : m = n := he
      have hnone : (bytes.map Remark.octet).count (.said .data) = 0 := List.count_eq_zero.mpr (by simp)
      simp [Entry.isAnnouncement, Entry.remarks, hm, hnone]
    | flushed m =>
      have hm : m = n := he
      simp [Entry.isAnnouncement, Entry.remarks, hm]
    | heard m lines =>
      have hm : m = n := he
      simp [Entry.isAnnouncement, Entry.remarks, hm]
    | _ => rfl

/-! ## On a link -/

/-- What stands on the wire of a body is a beginning of what its sources hand over, encoded. -/
theorem Body.OnWire.prefix_content {sources : List Script} {reads : List (List UInt8)}
    {wire : List UInt8} (h : OnWire sources reads wire) :
    wire <+: encode (sources.flatMap Script.content) := by
  rcases h.sent with hsent | ⟨hdrained, hsent⟩
  · obtain ⟨rest, hrest⟩ := h.handed
    have hstuffed : stuff .lineStart reads.flatten <+: stuff .lineStart (sources.flatMap Script.content) := by
      rw [← hrest, stuff_append]
      exact List.prefix_append _ _
    exact (hsent.trans hstuffed).trans (List.prefix_append _ _)
  · exact hdrained.flatten_eq ▸ hsent

namespace Link

open Run

variable {l later : Link}

/-- The same work leaves the same record. -/
theorem Leads.unique (h : l.Leads later es) (g : l.Leads later fs) : es = fs := by
  have hsame := h.waits.journal.symm.trans g.waits.journal
  exact List.reverse_inj.mp (List.append_cancel_right hsame)

theorem Leads.spoken {rs : List Remark} (h : l.Leads later es)
    (hsaid : dialogue l.connection.socket.number es = rs) (hfed : feedings es ≠ [] → .said .data ∈ rs) :
    Spoken l.connection.socket.number es rs :=
  ⟨fun e he => .of_staysOn (h.own e he), hsaid, hfed⟩

/-- A command is answered, or what passed is a beginning of asking it. -/
theorem ends_converse (command : Command) (l : Link) :
    Ends (do
        modify fun l => l.note (.issued l.connection.socket.number command)
        writeLine command.wire
        readReply .reply) l
      (fun lines l' => ∃ es, l.Leads l' es ∧
        Spoken l.connection.socket.number es (command.answered lines))
      (fun h l' => ∃ es rs, l.Leads l' es ∧ Spoken l.connection.socket.number es rs ∧
        .said command ∈ rs ∧ rs <+: command.asked ∧ h.Fatal) := by
  have hissued := leads_note l (e := .issued l.connection.socket.number command) rfl
  simp only [ends_bind, ends_modify]
  refine (ends_writeLine command.wire _).mono ?_ ?_
  · rintro _ mid ⟨pieces, hpieces, hmid⟩
    have hsent := hissued.trans hmid
    apply (ends_readReply .reply mid).mono
    · rintro lines l' ⟨chunks, hl⟩
      rw [hsent.number] at hl
      have hall := hsent.trans hl
      refine ⟨_, hall, hall.spoken ?_ ?_⟩
      · simp [Entry.remarks, Command.answered, Command.asked, note, hpieces]
      · simp [Entry.feeding?]
    · rintro h l' ⟨⟨chunks, hl⟩, hd⟩
      have hall := hsent.trans hl
      refine ⟨_, command.asked, hall, hall.spoken ?_ ?_, ?_, List.prefix_refl _, hd.fatal⟩
      · simp [Entry.remarks, Command.asked, note, hpieces]
      · simp [Entry.feeding?]
      · simp [Command.asked]
  · rintro h l' ⟨⟨pieces, hbegun, hl⟩, hd⟩
    have hall := hissued.trans hl
    refine ⟨_, .said command :: pieces.flatten.map .octet, hall, hall.spoken ?_ ?_, ?_, ?_, hd.fatal⟩
    · simp [Entry.remarks, note]
    · simp [Entry.feeding?]
    · simp
    · exact ((List.prefix_cons_inj _).mpr (hbegun.map _)).trans (List.prefix_append _ _)

/-! ## A body on a link -/

/-- Nothing was done to the link but that octets went out and sources were read. -/
def Pours (l later : Link) : Prop := ∃ es, l.Leads later es ∧ ∀ e ∈ es, e.IsOutgoing

variable {mid : Link}

theorem Pours.trans (h : l.Pours mid) (g : mid.Pours later) : l.Pours later := by
  obtain ⟨es, hes, hout⟩ := h
  obtain ⟨fs, hfs, hout'⟩ := g
  exact ⟨es ++ fs, hes.trans hfs, fun e he => (List.mem_append.mp he).elim (hout e) (hout' e)⟩

theorem ends_writeAll_pours (bytes : List UInt8) (phase : Phase) (sent : Nat) (l : Link) :
    Ends (writeAll bytes phase sent) l (fun _ l' => l.Pours l') fun _ l' => l.Pours l' := by
  have htakings : ∀ (m : Nat) (pieces : List (List UInt8)), ∀ e ∈ Entry.takings m pieces,
      e.IsOutgoing := by
    intro m pieces e he
    obtain ⟨taken, rfl⟩ := Entry.eq_sent_of_mem_takings he
    trivial
  apply (ends_writeAll bytes phase sent l).mono
  · rintro _ l' ⟨pieces, -, hl⟩
    exact ⟨_, hl, htakings _ _⟩
  · rintro h l' ⟨⟨pieces, -, hl⟩, -⟩
    refine ⟨_, hl, fun e he => (List.mem_append.mp he).elim (htakings _ _ e) fun he => ?_⟩
    exact h.eq_of_mem_trace e he ▸ trivial

/-- Reading a source, it is only waited for. -/
theorem pours_feed (l : Link) (source : Script) : l.Pours { l with net := (feed source l).2.2 } := by
  have hw := Network.waits_bounded l.net l.connection.token l.connection.timeout bodyRoom source
  have hcut : ∀ e ∈ (feed source l).1.trace, e = .interrupted := by
    intro e he
    unfold Network.Arrival.trace at he
    split at he
    · exact List.mem_singleton.mp he
    · cases he
  exact ⟨_, leads_waits hw hcut, fun e he => hcut e he ▸ trivial⟩

theorem pours_fed (l : Link) (source : Script) (bytes : List UInt8) :
    l.Pours (Link.note { l with net := (feed source l).2.2 } (.fed bytes)) :=
  (pours_feed l source).trans ⟨_, leads_note _ trivial, by simp [Entry.IsOutgoing]⟩

theorem ends_writeSource_pours (sent : Nat) (p : Body.Position) (source : Script) (l : Link) :
    Ends (writeSource sent p source) l (fun _ l' => l.Pours l') fun _ l' => l.Pours l' := by
  unfold Ends
  fun_induction writeSource sent p source l with
  | case1 sent p source l fed hfed => exact pours_fed l source []
  | case2 sent p source l fed b bs hfed out halt later hw =>
    exact (pours_fed l source _).trans ((ends_writeAll_pours out .body sent _).of_error hw)
  | case3 sent p source l fed b bs hfed out later hw ih =>
    have hs : l.Pours later :=
      (pours_fed l source _).trans ((ends_writeAll_pours out .body sent _).of_ok hw)
    have hrest : Ends (writeSource _ _ _) later _ _ := ih
    exact hrest.mono (fun _ _ hl => hs.trans hl) fun _ _ hl => hs.trans hl
  | case4 sent p source l fed o later hn hn' hc =>
    obtain ⟨-, rfl⟩ := conclude_eq_ok hc
    exact pours_feed l source
  | case5 sent p source l fed halt later hn hn' hc =>
    obtain ⟨rfl, -, -⟩ := conclude_eq_error hc
    exact pours_feed l source

theorem ends_writeSources_pours (sent : Nat) (p : Body.Position) (sources : List Script) (l : Link) :
    Ends (writeSources sent p sources) l (fun _ l' => l.Pours l') fun _ l' => l.Pours l' := by
  induction sources generalizing sent p l with
  | nil => exact ⟨[], .refl l, by simp⟩
  | cons source rest ih =>
    rw [writeSources]
    refine ends_bind.mpr ((ends_writeSource_pours sent p source l).mono ?_ fun _ _ hl => hl)
    intro r mid hmid
    exact (ih r.1 r.2 mid).mono (fun _ _ hl => hmid.trans hl) fun _ _ hl => hmid.trans hl

/-- What streams out while nothing else is done is all that passes. -/
theorem Pours.dialogue_eq {reads : List (List UInt8)} {wire : List UInt8} (h : l.Pours later)
    (g : l.Streams later reads wire) : ∃ es, l.Leads later es ∧
      dialogue l.connection.socket.number es = wire.map .octet := by
  obtain ⟨es, hes, hout⟩ := h
  obtain ⟨fs, hfs, -, rfl⟩ := g
  obtain rfl := hes.unique hfs
  exact ⟨es, hes, dialogue_of_isOutgoing hout⟩

theorem ends_writeBody_pours (sources : List (Option Script)) (l : Link) :
    Ends (writeBody sources) l
      (fun _ l' => ∃ mid, l.Pours mid ∧ mid.Leads l' [.flushed mid.connection.socket.number])
      fun _ l' => l.Pours l' := by
  simp only [writeBody, ends_bind]
  refine (ends_writeSources_pours 0 .lineStart (sources.filterMap id) l).mono ?_ fun _ _ hl => hl
  intro sent mid hmid
  refine (ends_writeAll_pours Body.terminator .body sent mid).mono ?_ fun _ _ hl => hmid.trans hl
  intro _ last hlast
  refine (ends_flush .body _ last).mono (fun _ l' hl => ⟨last, hmid.trans hlast, hl⟩) ?_
  rintro h l' ⟨hl, -⟩
  exact (hmid.trans hlast).trans ⟨_, hl, fun e he => h.eq_of_mem_trace e he ▸ trivial⟩

/-- A body goes out whole, or what passed is a beginning of it. -/
theorem ends_writeBody_dialogue (sources : List (Option Script)) (l : Link) :
    Ends (writeBody sources) l
      (fun sent l' => sent = (Body.encode (Message.content sources)).length ∧
        ∃ es, l.Leads l' es ∧ dialogue l.connection.socket.number es = Message.poured sources)
      (fun h l' => (∃ es, l.Leads l' es ∧
        dialogue l.connection.socket.number es <+: Message.poured sources) ∧ h.Fatal) := by
  refine ((ends_writeBody sources l).and (ends_writeBody_pours sources l)).mono ?_ ?_
  · rintro sent l' ⟨⟨rfl, reads, hdrained, es, hes, -, hwire⟩, mid, ⟨fs, hfs, hout⟩, hflush⟩
    obtain rfl := hes.unique (hfs.trans hflush)
    refine ⟨rfl, _, hes, ?_⟩
    have hsent : octetsSent l.connection.socket.number fs = Body.encode (Message.content sources) := by
      rw [octetsSent_append, hdrained.flatten_eq] at hwire
      exact (List.append_nil _).symm.trans hwire
    rw [dialogue_append, dialogue_of_isOutgoing hout, hsent, hfs.number]
    simp [Entry.remarks, Message.poured]
  · rintro h l' ⟨⟨reads, wire, honWire, hs, hd⟩, hpours⟩
    obtain ⟨es, hes, hsaid⟩ := hpours.dialogue_eq hs
    refine ⟨⟨es, hes, ?_⟩, hd.fatal⟩
    rw [hsaid]
    refine List.IsPrefix.trans (List.IsPrefix.map _ ?_) (List.prefix_append _ _)
    exact honWire.prefix_content

/-- A body goes out and is answered, or what passed is a beginning of the body. -/
theorem ends_deliver_dialogue (sources : List (Option Script)) (l : Link) :
    Ends (do
        let sent ← writeBody sources
        return (ReplyLine.collapse (← readReply .dataReply)).withSize sent) l
      (fun reply l' => ∃ lines es, l.Leads l' es ∧
        dialogue l.connection.socket.number es = Message.poured sources ++ [.heard lines] ∧
        reply = (ReplyLine.collapse lines).withSize (Body.encode (Message.content sources)).length)
      (fun h l' => (∃ es, l.Leads l' es ∧
        dialogue l.connection.socket.number es <+: Message.poured sources) ∧ h.Fatal) := by
  refine ends_bind.mpr ((ends_writeBody_dialogue sources l).mono ?_ fun _ _ hhalt => hhalt)
  rintro sent mid ⟨rfl, es, hes, hsaid⟩
  refine ends_bind.mpr ((ends_readReply .dataReply mid).mono ?_ ?_)
  · rintro lines l' ⟨chunks, hl⟩
    refine ⟨lines, _, hes.trans hl, ?_, rfl⟩
    rw [dialogue_append, hsaid, hes.number]
    simp [Entry.remarks]
  · rintro h l' ⟨⟨chunks, hl⟩, hd⟩
    refine ⟨⟨_, hes.trans hl, ?_⟩, hd.fatal⟩
    rw [dialogue_append, hsaid, dialogue_append, dialogue_received, dialogue_trace]
    simp

end Link

end MailSubmission
