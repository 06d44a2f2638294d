import MailSubmission.Proofs.Accounts
import MailSubmission.Proofs.ClientStories

set_option autoImplicit false

/-!
# Octets that wait to be read

A connection may come to hold more octets than the reply that was awaited; the next reply begins with
what is left.  The record of what happened tells which octets these are: the blocks that came in since
the last reply was complete, the first of them being what that reply left (`Intake`).  What a client
has taken in on its connection is what the record says (`Client.takingIn`).
-/

namespace MailSubmission

open Run

/-! ## What came in -/

/-- The octets that a read of the connection `n` gave. -/
def Entry.receivedOn (n : Nat) : Entry → List UInt8
  | .received m bytes => if m = n then bytes else []
  | _ => []

/-- The octets that came in on the connection `n`, in order. -/
def octetsReceived (n : Nat) (es : List Entry) : List UInt8 := es.flatMap (Entry.receivedOn n)

section

variable (n : Nat) (es fs : List Entry)

@[simp] theorem octetsReceived_nil : octetsReceived n [] = [] := rfl

@[simp] theorem octetsReceived_cons (e : Entry) :
    octetsReceived n (e :: es) = e.receivedOn n ++ octetsReceived n es := List.flatMap_cons

@[simp] theorem octetsReceived_append :
    octetsReceived n (es ++ fs) = octetsReceived n es ++ octetsReceived n fs := List.flatMap_append

@[simp] theorem octetsReceived_received (chunks : List (List UInt8)) :
    octetsReceived n (chunks.map (.received n)) = chunks.flatten := by
  induction chunks with
  | nil => rfl
  | cons bytes rest ih =>
    rw [List.map_cons, octetsReceived_cons, Entry.receivedOn, if_pos rfl, ih, List.flatten_cons]

@[simp] theorem octetsReceived_takings (pieces : List (List UInt8)) :
    octetsReceived n (Entry.takings n pieces) = [] := by
  refine List.flatMap_eq_nil_iff.mpr fun e he => ?_
  obtain ⟨bytes, rfl⟩ := Entry.eq_sent_of_mem_takings he
  rfl

@[simp] theorem octetsReceived_trace (h : Halt Fault) : octetsReceived n h.trace = [] := by
  unfold Halt.trace
  split <;> rfl

end

/-- What has come in on a connection since the last reply was complete there, block by block; the
first block is what that reply left. -/
structure Intake where
  /-- the deviations that are allowed in a reply -/
  tolerance : Nat
  blocks : List (List UInt8)
  deriving DecidableEq, Repr, Inhabited

namespace Intake

/-- That of a connection that has just been opened. -/
def opened (tolerance : Nat) : Intake := ⟨tolerance, [[]]⟩

/-- The next reply, as far as it has come in. -/
def scan (i : Intake) : Decoder.Scan := (Decoder.ofTolerance i.tolerance).scanBlocks [] i.blocks

/-- The octets behind it. -/
def left (i : Intake) : List UInt8 :=
  match i.scan with
  | .complete _ _ rest | .thrashing _ _ rest => rest
  | .more .. => []

/-- What is known of the intake on the connection `n` once an entry is made, if a connection that is
opened is set up with `tolerance`: nothing, as long as it has not been opened. -/
def next (n tolerance : Nat) (i : Option Intake) : Entry → Option Intake
  | .opened m => if m = n then some (opened tolerance) else i
  | .received m bytes => if m = n then i.map fun i => { i with blocks := i.blocks ++ [bytes] } else i
  | .heard m _ => if m = n then i.map fun i => { i with blocks := [i.left] } else i
  | _ => i

/-- What is known of it behind what happened. -/
def after (n tolerance : Nat) (i : Option Intake) (es : List Entry) : Option Intake :=
  es.foldl (next n tolerance) i

section

variable (n tolerance : Nat) (i : Option Intake) (es fs : List Entry)

@[simp] theorem after_nil : after n tolerance i [] = i := rfl

@[simp] theorem after_cons (e : Entry) :
    after n tolerance i (e :: es) = after n tolerance (next n tolerance i e) es := rfl

@[simp] theorem after_append :
    after n tolerance i (es ++ fs) = after n tolerance (after n tolerance i es) fs := List.foldl_append

/-- Entries by which nothing more is known. -/
theorem after_of_idle (h : ∀ e ∈ es, next n tolerance i e = i) : after n tolerance i es = i := by
  induction es with
  | nil => rfl
  | cons e rest ih =>
    obtain ⟨he, hrest⟩ := List.forall_mem_cons.mp h
    rw [after_cons, he]
    exact ih hrest

@[simp] theorem after_takings (pieces : List (List UInt8)) :
    after n tolerance i (Entry.takings n pieces) = i := by
  refine after_of_idle n tolerance i _ fun e he => ?_
  obtain ⟨bytes, rfl⟩ := Entry.eq_sent_of_mem_takings he
  rfl

@[simp] theorem after_trace (h : Halt Fault) : after n tolerance i h.trace = i :=
  after_of_idle n tolerance i _ fun e he => by
    rw [h.eq_of_mem_trace e he]
    rfl

/-- Blocks that come in stand behind those that have. -/
theorem after_received (blocks chunks : List (List UInt8)) (allowed : Nat) :
    after n tolerance (some ⟨allowed, blocks⟩) (chunks.map (.received n)) =
      some ⟨allowed, blocks ++ chunks⟩ := by
  induction chunks generalizing blocks with
  | nil => rw [List.append_nil]; rfl
  | cons bytes rest ih =>
    rw [List.map_cons, after_cons, next, if_pos rfl, List.append_cons]
    exact ih (blocks ++ [bytes])

end

section

variable {n tolerance : Nat} {es : List Entry}

/-- A reply that is complete leaves the octets behind it. -/
theorem next_heard {i : Intake} {lines : List ReplyLine} {d : Decoder} {rest : List UInt8}
    (h : i.scan = .complete lines d rest) :
    next n tolerance (some i) (.heard n lines) = some ⟨i.tolerance, [rest]⟩ := by
  have hleft : i.left = rest := by rw [left, h]
  rw [next, if_pos rfl, Option.map_some, hleft]

/-- What is known of a connection that was opened meanwhile does not rest on what was known. -/
theorem after_of_none {i : Intake} (h : after n tolerance none es = some i) (known : Option Intake) :
    after n tolerance known es = some i := by
  have hentry : ∀ e, next n tolerance none e = none ∨
      ∀ known, next n tolerance known e = next n tolerance none e := by
    intro e
    cases e with
    | opened m =>
      by_cases hm : m = n
      · refine .inr fun known => ?_
        simp only [next, if_pos hm]
      · exact .inl (if_neg hm)
    | received m bytes => exact .inl (ite_self none)
    | heard m lines => exact .inl (ite_self none)
    | _ => exact .inl rfl
  induction es generalizing known with
  | nil => cases h
  | cons e rest ih =>
    rw [after_cons] at h ⊢
    rcases hentry e with hnone | hsame
    · rw [hnone] at h
      exact ih h _
    · rwa [hsame]

/-- What was known before may have been known better. -/
theorem after_of_known {known found : Option Intake} {i : Intake}
    (hfound : ∀ j, found = some j → known = some j) (h : after n tolerance found es = some i) :
    after n tolerance known es = some i := by
  cases found with
  | none => exact after_of_none h known
  | some j => rwa [hfound j rfl]

end

end Intake

/-- What waits to be read on a connection is all that has come in since the last reply. -/
def Connection.intake (conn : Connection) : Intake := ⟨conn.decoder.tolerance, [conn.buffer]⟩

/-- Where octets only go out, none come in and no reply is complete. -/
theorem quiet_of_isOutgoing (n : Nat) {es : List Entry} (h : ∀ e ∈ es, e.IsOutgoing) :
    Unanswered es ∧ octetsReceived n es = [] ∧ ∀ t i, Intake.after n t i es = i := by
  refine ⟨fun e he => ?_, List.flatMap_eq_nil_iff.mpr fun e he => ?_, fun t i =>
    Intake.after_of_idle n t i es fun e he => ?_⟩
  · have hout := h e he
    cases e <;> first | rfl | exact hout.elim
  · have hout := h e he
    cases e <;> first | rfl | exact hout.elim
  · have hout := h e he
    cases e <;> first | rfl | exact hout.elim

/-! ## On a link -/

namespace Link

/-- A call that returns has left the buffer as it was. -/
def buffering : Account Fault Link where
  returns l later := later.connection.buffer = l.connection.buffer
  halts _ _ _ := True
  refl _ := rfl
  trans h g := Eq.trans g h
  trans_halts _ _ := trivial
  halts_trans _ _ := trivial

theorem buffer_put (bytes : List UInt8) (l : Link) :
    (put bytes l).2.connection.buffer = l.connection.buffer := by
  have htaking : ∀ taken : List UInt8,
      (if taken.isEmpty then l else l.note (.sent l.connection.socket.number taken)).connection.buffer =
        l.connection.buffer := by
    intro taken
    split <;> rfl
  unfold put
  dsimp only
  split
  · exact htaking bytes
  · exact htaking (bytes.take _)

theorem keeps_buffering_writeOn (phase : Phase) (sent limit : Nat) (drains : List Drain)
    (bytes : List UInt8) (l : Link) :
    buffering.Keeps (writeOn phase sent limit drains bytes) l := by
  unfold Account.Keeps Ends
  fun_induction writeOn phase sent limit drains bytes l with
  | case1 drains bytes l mid hp =>
    have hput := buffer_put bytes l
    rwa [hp] at hput
  | case2 bytes l b rest mid hp bs woken hw =>
    rw [hw]
    trivial
  | case3 bytes l b rest mid hp bs woken drain later hw ih =>
    have hput := buffer_put bytes l
    rw [hp] at hput
    have hsame : woken.connection.buffer = l.connection.buffer := by
      rw [((ends_waitFor _ _ mid).of_ok hw).2]
      exact hput
    rw [hw]
    have hrest : buffering.Keeps (writeOn phase sent limit later (b :: rest)) _ := ih
    exact hrest.since hsame
  | case4 drains bytes l b rest mid hp woken hw =>
    rw [hw]
    trivial
  | case5 drains bytes l b rest mid hp halt woken hw =>
    rw [hw]
    trivial

theorem keeps_buffering_writeAll (bytes : List UInt8) (phase : Phase) (sent : Nat) (l : Link) :
    buffering.Keeps (writeAll bytes phase sent) l := by
  unfold Account.Keeps Ends writeAll
  by_cases hfired : l.net.isFired l.connection.token
  · rw [if_pos hfired]
    trivial
  · rw [if_neg hfired]
    exact keeps_buffering_writeOn phase sent _ _ bytes l

theorem keeps_buffering_flush (phase : Phase) (sent : Nat) (l : Link) :
    buffering.Keeps (flush phase sent) l := by
  let s := l.connection.socket
  have hwait := ends_wait (if s.flushRoom = some 0 then s.flushFault else []) l
  unfold Account.Keeps Ends flush
  dsimp only
  cases hw : wait (if s.flushRoom = some 0 then s.flushFault else []) l with
  | error h later => trivial
  | ok o later =>
    cases o with
    | none => trivial
    | some bs =>
      have hbuffer : later.connection.buffer = l.connection.buffer := by rw [(hwait.of_ok hw).2]
      exact hbuffer

theorem keeps_buffering_writeLine (bytes : List UInt8) (l : Link) :
    buffering.Keeps (writeLine bytes) l :=
  (keeps_buffering_writeAll bytes .reply 0 l).bind fun _ => keeps_buffering_flush .reply bytes.length

theorem keeps_buffering_writeSource (sent : Nat) (p : Body.Position) (source : Script) (l : Link) :
    buffering.Keeps (writeSource sent p source) l := by
  unfold Account.Keeps Ends
  fun_induction writeSource sent p source l with
  | case1 sent p source l fed hfed => rfl
  | case2 sent p source l fed b bs hfed out halt later hw => trivial
  | case3 sent p source l fed b bs hfed out later hw ih =>
    have hwritten : Ends (writeAll out .body sent) (fed.note (.fed (b :: bs)))
        (fun _ l' => l'.connection.buffer = l.connection.buffer) fun _ _ => True :=
      keeps_buffering_writeAll out .body sent _
    have hrest : buffering.Keeps (writeSource _ _ _) later := ih
    exact hrest.since (hwritten.of_ok hw)
  | case4 sent p source l fed o later hn hn' hc => trivial
  | case5 sent p source l fed halt later hn hn' hc => trivial

theorem keeps_buffering_writeSources (sent : Nat) (p : Body.Position) (sources : List Script)
    (l : Link) : buffering.Keeps (writeSources sent p sources) l := by
  induction sources generalizing sent p l with
  | nil => exact Account.keeps_pure sent l
  | cons source rest ih =>
    exact (keeps_buffering_writeSource sent p source l).bind fun r => ih r.1 r.2

theorem keeps_buffering_writeBody (sources : List (Option Script)) (l : Link) :
    buffering.Keeps (writeBody sources) l :=
  (keeps_buffering_writeSources 0 .lineStart _ l).bind fun sent l' =>
    (keeps_buffering_writeAll Body.terminator .body sent l').bind fun _ l'' =>
      (keeps_buffering_flush .body _ l'').bind fun _ => Account.keeps_pure _

/-- A call that returns has taken in what the record says. -/
def takingIn : Account Fault Link where
  returns l later := ∃ es, l.Leads later es ∧ ∀ t,
    Intake.after l.connection.socket.number t (some l.connection.intake) es =
      some later.connection.intake
  halts _ l later := ∃ es, l.Leads later es
  refl l := ⟨[], .refl l, fun _ => rfl⟩
  trans := by
    rintro l mid later ⟨es, hes, hmid⟩ ⟨fs, hfs, hlater⟩
    refine ⟨es ++ fs, hes.trans hfs, fun t => ?_⟩
    rw [Intake.after_append, hmid, ← hes.number]
    exact hlater t
  trans_halts := by
    rintro e l mid later ⟨es, hes, -⟩ ⟨fs, hfs⟩
    exact ⟨es ++ fs, hes.trans hfs⟩
  halts_trans := by
    rintro e l mid later ⟨es, hes⟩ ⟨fs, hfs, -⟩
    exact ⟨es ++ fs, hes.trans hfs⟩

/-- A reply is read from what there was and what comes in; what it leaves is still there. -/
theorem keeps_takingIn_readReply (phase : Phase) (l : Link) :
    takingIn.Keeps (readReply phase) l := by
  apply (ends_readReply_tally phase l).mono
  · rintro lines l' ⟨chunks, hl, hblocks⟩
    refine ⟨_, hl, fun t => ?_⟩
    have hscan : Intake.scan ⟨l.connection.decoder.tolerance, l.connection.buffer :: chunks⟩ =
        .complete lines l'.connection.decoder l'.connection.buffer := hblocks
    rw [Intake.after_append, Connection.intake, Intake.after_received, Intake.after_cons,
      List.singleton_append, Intake.next_heard hscan, Intake.after_nil, Connection.intake, hl.tolerance]
  · rintro h l' ⟨chunks, hl, -⟩
    exact ⟨_, hl⟩

/-- A command goes out, and a reply comes in, which is read from `blocks`; short of that the reply was
waited for in vain. -/
theorem ends_ask (command : Command) (l : Link) :
    Ends (do
        modify fun l => l.note (.issued l.connection.socket.number command)
        writeLine command.wire
        readReply .reply) l
      (fun lines l' => ∃ asking blocks, l.Leads l' (.issued l.connection.socket.number command ::
          (asking ++ [.heard l.connection.socket.number lines])) ∧ Unanswered asking ∧
        (∀ t, Intake.after l.connection.socket.number t (some l.connection.intake) asking =
          some ⟨l.connection.decoder.tolerance, blocks⟩) ∧
        Intake.scan ⟨l.connection.decoder.tolerance, blocks⟩ =
          .complete lines l'.connection.decoder l'.connection.buffer)
      (fun h l' => (∃ es, l.Leads l' es) ∧ h.During .reply fun _ => True) := by
  have hissued := leads_note l (e := .issued l.connection.socket.number command) rfl
  simp only [ends_bind, ends_modify]
  refine ((ends_writeLine command.wire _).and (keeps_buffering_writeLine command.wire _)).mono ?_ ?_
  · rintro _ mid ⟨⟨pieces, -, hmid⟩, hbuffer⟩
    have hsent := hissued.trans hmid
    have hkept : mid.connection.buffer = l.connection.buffer := hbuffer
    apply (ends_readReply_tally .reply mid).mono
    · rintro lines l' ⟨chunks, hl, hblocks⟩
      have hall := hsent.trans hl
      rw [List.singleton_append, List.cons_append, ← List.append_assoc, hsent.number] at hall
      refine ⟨_, l.connection.buffer :: chunks, hall, by simp [Entry.isHeard], fun t => ?_, ?_⟩
      · simp [Intake.after_received, Intake.next, Connection.intake, note]
      · rwa [hkept, Decoder.reset, hsent.tolerance] at hblocks
    · rintro h l' ⟨chunks, hl, hd⟩
      exact ⟨⟨_, hsent.trans hl⟩, hd.mono fun _ _ => trivial⟩
  · rintro h l' ⟨⟨⟨pieces, -, hl⟩, hd⟩, -⟩
    exact ⟨⟨_, hissued.trans hl⟩, hd⟩

theorem keeps_takingIn_ask (command : Command) (l : Link) :
    takingIn.Keeps (do
      modify fun l => l.note (.issued l.connection.socket.number command)
      writeLine command.wire
      readReply .reply) l := by
  apply (ends_ask command l).mono
  · rintro lines l' ⟨asking, blocks, hl, -, hasking, hscan⟩
    refine ⟨_, hl, fun t => ?_⟩
    change Intake.after _ t (some l.connection.intake) (asking ++ [.heard _ lines]) = _
    rw [Intake.after_append, hasking, Intake.after_cons, Intake.next_heard hscan, Intake.after_nil,
      Connection.intake, hl.tolerance]
  · rintro h l' ⟨hl, -⟩
    exact hl

/-- While a body goes out, nothing comes in. -/
theorem ends_writeBody_quiet (sources : List (Option Script)) (l : Link) :
    Ends (writeBody sources) l
      (fun _ l' => ∃ es, l.Leads l' es ∧ Unanswered es ∧
        octetsReceived l.connection.socket.number es = [] ∧
        (∀ t i, Intake.after l.connection.socket.number t i es = i) ∧
        l'.connection.buffer = l.connection.buffer)
      (fun _ l' => ∃ es, l.Leads l' es ∧ Unanswered es) := by
  apply ((ends_writeBody_pours sources l).and (keeps_buffering_writeBody sources l)).mono
  · rintro sent l' ⟨⟨mid, ⟨es, hes, hout⟩, hl⟩, hbuffer⟩
    obtain ⟨hunanswered, hnone, hafter⟩ := quiet_of_isOutgoing l.connection.socket.number hout
    exact ⟨_, hes.trans hl, by simpa [Entry.isHeard] using hunanswered,
      by simpa [Entry.receivedOn] using hnone, by simpa [Intake.next] using hafter, hbuffer⟩
  · rintro h l' ⟨⟨es, hes, hout⟩, -⟩
    exact ⟨es, hes, (quiet_of_isOutgoing 0 hout).1⟩

theorem keeps_takingIn_writeBody (sources : List (Option Script)) (l : Link) :
    takingIn.Keeps (writeBody sources) l := by
  apply (ends_writeBody_quiet sources l).mono
  · rintro sent l' ⟨es, hl, -, -, hafter, hbuffer⟩
    refine ⟨es, hl, fun t => ?_⟩
    rw [hafter, Connection.intake, Connection.intake, hbuffer, hl.tolerance]
  · rintro h l' ⟨es, hl, -⟩
    exact ⟨es, hl⟩

end Link

/-! ## On a client -/

namespace Client

variable {α : Type} {c mid later : Client} {es : List Entry}

/-- What waits to be read on the connection `n`; nothing is known of it if the client does not hold
the connection. -/
def intake (c : Client) (n : Nat) : Option Intake :=
  match c.connection with
  | some conn => if conn.socket.number = n then some conn.intake else none
  | none => none

theorem intake_of_some {conn : Connection} (h : c.connection = some conn) (n : Nat) :
    c.intake n = if conn.socket.number = n then some conn.intake else none := by
  rw [intake, h]

theorem intake_of_none (h : c.connection = none) (n : Nat) : c.intake n = none := by
  rw [intake, h]

theorem intake_congr (h : later.connection = c.connection) (n : Nat) : later.intake n = c.intake n := by
  rw [intake, h]
  rfl

/-- Work that returns has taken in what the record says. -/
def takingIn : Account Fault Client where
  returns c later := ∃ es, c.Works later es ∧ ∀ n i, later.intake n = some i →
    Intake.after n c.settings.tolerance (c.intake n) es = some i
  halts _ c later := ∃ es, c.Works later es
  refl c := ⟨[], .refl c, fun _ _ hi => hi⟩
  trans := by
    rintro c mid later ⟨es, hes, hmid⟩ ⟨fs, hfs, hlater⟩
    have hsettings : mid.settings = c.settings := by rw [hes.same]
    rw [hsettings] at hlater
    refine ⟨es ++ fs, hes.trans hfs, fun n i hi => ?_⟩
    rw [Intake.after_append]
    exact Intake.after_of_known (hmid n) (hlater n i hi)
  trans_halts := by
    rintro e c mid later ⟨es, hes, -⟩ ⟨fs, hfs⟩
    exact ⟨es ++ fs, hes.trans hfs⟩
  halts_trans := by
    rintro e c mid later ⟨es, hes⟩ ⟨fs, hfs, -⟩
    exact ⟨es ++ fs, hes.trans hfs⟩

theorem keeps_takingIn_onLink {act : Run Fault Link α} (h : ∀ l, Link.takingIn.Keeps act l)
    (c : Client) : takingIn.Keeps (onLink act) c := by
  cases hc : c.connection with
  | none =>
    unfold Account.Keeps Ends onLink
    rw [hc]
    exact ⟨[], .refl c⟩
  | some conn =>
    refine ends_onLink hc (Ends.mono (h ⟨conn, c.net⟩) ?_ ?_)
    · rintro a l ⟨es, hl, hafter⟩
      refine ⟨es, works_of_leads hc hl, fun n i hi => ?_⟩
      rw [intake_of_some rfl, hl.number] at hi
      split at hi
      · rename_i hn
        subst hn
        rw [intake_of_some hc, if_pos rfl]
        exact (hafter _).trans hi
      · cases hi
    · rintro e l ⟨es, hl⟩
      exact ⟨es, works_of_leads hc hl⟩

/-- A connection that has just been opened has nothing to be read. -/
theorem keeps_takingIn_openConnection (host : String) (port : Nat) (c : Client) :
    takingIn.Keeps (openConnection host port) c := by
  obtain ⟨hnumber, -⟩ := dial_facts c.net host port
  apply (ends_openConnection host port c).mono
  · rintro _ c' ⟨net, hw, rfl⟩
    refine ⟨_, works_of_open hw, fun n i hi => ?_⟩
    have hn : (Connection.ofSocket (c.net.dial host port).1 c.settings c.token).socket.number =
        c.net.dialled := hnumber
    rw [intake_of_some rfl, hn] at hi
    split at hi
    · rename_i hopened
      rw [Intake.after_cons, Intake.after_cons, Intake.next, if_pos hopened]
      exact hi
    · cases hi
  · rintro e c' ⟨net, hw, -, rfl⟩
    exact ⟨_, works_of_dial hw e.eq_of_mem_trace⟩

theorem takingIn_coversWork : takingIn.CoversWork fun _ => True where
  refused _ c := ⟨[], .refl c⟩
  exchange command := keeps_takingIn_onLink (Link.keeps_takingIn_ask command)
  greeting := keeps_takingIn_onLink (Link.keeps_takingIn_readReply .reply)
  deliver {sources} _ := by
    refine keeps_takingIn_onLink fun l => ?_
    rw [Watched.run_bind, Watched.run_writeBody]
    exact (Link.keeps_takingIn_writeBody sources l).bind fun sent l' =>
      (Link.keeps_takingIn_readReply .dataReply l').bind fun _ => Account.keeps_pure _

end Client

/-- The work of an operation takes octets in. -/
theorem Operation.keeps_takingIn_work (op : Operation) (start c : Client) :
    Client.takingIn.Keeps (op.work start) c :=
  op.keeps_work Client.takingIn_coversWork (fun _ _ => trivial)
    (fun host port _ => Client.keeps_takingIn_openConnection host port) start c

namespace Client

variable {c mid later : Client} {op : Operation}

/-- What a call finds waiting behind something that was done is what the record of it says, from what
one would have found before it. -/
def Reads (c later : Client) : Prop :=
  ∃ es : List Entry, later.net.journal = es.reverse ++ c.net.journal ∧
    later.settings = c.settings ∧ ∀ n i, later.cleared.intake n = some i →
      Intake.after n c.settings.tolerance (c.cleared.intake n) es = some i

theorem Reads.refl (c : Client) : c.Reads c := ⟨[], rfl, rfl, fun _ _ hi => hi⟩

theorem Reads.trans (h : c.Reads mid) (g : mid.Reads later) : c.Reads later := by
  obtain ⟨es, hes, hsettings, hmid⟩ := h
  obtain ⟨fs, hfs, hsettings', hlater⟩ := g
  rw [hsettings] at hlater
  refine ⟨es ++ fs, ?_, hsettings'.trans hsettings, fun n i hi => ?_⟩
  · rw [hfs, hes, List.reverse_append, List.append_assoc]
  · rw [Intake.after_append]
    exact Intake.after_of_known (hmid n) (hlater n i hi)

/-- A call finds nothing waiting where there is no connection, or where it clears one up. -/
theorem intake_cleared_of_none (h : c.connection = none ∨ c.inFlight = true) (n : Nat) :
    c.cleared.intake n = none := by
  unfold cleared
  split
  · rfl
  · rename_i hmark
    exact intake_of_none (h.resolve_right hmark) n

theorem settings_cleared (c : Client) : c.cleared.settings = c.settings := by
  unfold cleared
  split
  · rfl
  · rfl

theorem intake_of_cleared {n : Nat} {i : Intake} (h : c.cleared.intake n = some i) :
    c.intake n = some i := by
  unfold cleared at h
  split at h
  · cases h
  · exact h

/-- Where nothing is found, nothing has to be known of what was done. -/
theorem reads_of_none (es : List Entry) (hjournal : later.net.journal = es.reverse ++ c.net.journal)
    (hsettings : later.settings = c.settings)
    (h : later.connection = none ∨ later.inFlight = true) : c.Reads later := by
  refine ⟨es, hjournal, hsettings, fun n i hi => ?_⟩
  rw [intake_cleared_of_none h n] at hi
  cases hi

theorem reads_released (hnone : later.connection = none) (hnet : later.net = c.releasedNet)
    (hsettings : later.settings = c.settings) : c.Reads later :=
  reads_of_none c.release (by rw [hnet, releasedNet_eq]) hsettings (.inl hnone)

theorem reads_cleared (c : Client) : c.Reads c.cleared := by
  unfold cleared
  split
  · exact reads_released rfl rfl rfl
  · exact .refl c

/-- Waiting reads nothing. -/
theorem reads_waits {net : Network} {es : List Entry} (hw : c.net.Waits net es)
    (hidle : ∀ n t i, Intake.after n t i es = i) : c.Reads { c with net } := by
  have hsame : ∀ n, (cleared { c with net }).intake n = c.cleared.intake n := by
    intro n
    unfold cleared
    dsimp only
    split
    · rfl
    · rfl
  refine ⟨es, hw.journal, rfl, fun n i hi => ?_⟩
  rw [hidle, ← hsame n]
  exact hi

/-- The work of an operation is read, with the bookkeeping that follows. -/
theorem reads_books (h : takingIn.returns { c with inFlight := true } mid) (hidle : c.inFlight = false)
    (hbooks : op.Books mid later) : c.Reads later := by
  obtain ⟨es, hw, hafter⟩ := h
  have hsettings : later.settings = c.settings := hbooks.settings_eq.trans (by rw [hw.same])
  rcases hbooks.net_eq with ⟨hnet, hconnection⟩ | ⟨hnet, hnone⟩
  · refine ⟨es, hnet ▸ hw.journal, hsettings, fun n i hi => ?_⟩
    have hmid : mid.intake n = some i := (intake_congr hconnection n).symm.trans (intake_of_cleared hi)
    rw [cleared_of_idle hidle]
    exact hafter n i hmid
  · exact reads_of_none (es ++ mid.release) (journal_released hnet hw.journal) hsettings (.inl hnone)

/-- What an operation leaves that came to a halt has nothing to be read. -/
theorem reads_halted (op : Operation) {es : List Entry} (h : Works { c with inFlight := true } mid es)
    (e : Halt Fault) : c.Reads (op.halted { mid with inFlight := false } e) := by
  have hsettings : (op.halted { mid with inFlight := false } e).settings = c.settings :=
    (op.settings_halted _ e).trans (by rw [h.same])
  cases e with
  | failed fault =>
    obtain ⟨hnone, hnet, -⟩ := op.halted_failed { mid with inFlight := false } fault
    exact reads_of_none (es ++ mid.release) (journal_released hnet h.journal) hsettings (.inl hnone)
  | abandoned =>
    rw [op.halted_abandoned] at hsettings ⊢
    exact reads_of_none es h.journal hsettings (.inr rfl)

end Client

end MailSubmission
