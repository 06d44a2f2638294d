import MailSubmission.Proofs.FrozenWire

set_option autoImplicit false

/-!
# A cancellation freezes the wire

If an operation starts a wait, or takes one up again, when the client's token has fired, that is
the end of it: the operation is cancelled, the client is bad and has let go of its connection, and
nothing else has happened since.  It is cancelled for no other reason, and nothing is ever written
but in a wait that was started when the token had not fired.

What that leaves is quenched (`Client.Quenched`), and stays so as long as the token stays in place:
later calls are cancelled, or not allowed, or need no network, and nothing is written in them
(`Client.cancellation_freezes_the_wire`).
-/

namespace MailSubmission

open Run

/-- The waits among what is seen. -/
def Glimpse.waits (gs : List Glimpse) : List Network :=
  gs.filterMap fun
    | .wait net => some net
    | .drive _ => none

theorem Glimpse.mem_waits {gs : List Glimpse} {m : Network} : m ∈ waits gs ↔ .wait m ∈ gs := by
  unfold waits
  rw [List.mem_filterMap]
  constructor
  · rintro ⟨g, hg, heq⟩
    cases g with
    | wait net =>
      obtain rfl := Option.some.inj heq
      exact hg
    | drive connection => cases heq
  · exact fun hm => ⟨_, hm, rfl⟩

/-- Nothing has been written since. -/
def Network.Silent (net later : Network) : Prop :=
  ∃ es : List Entry, later.journal = es.reverse ++ net.journal ∧ ∀ n bytes, .sent n bytes ∉ es

theorem Network.Silent.refl (net : Network) : net.Silent net := ⟨[], rfl, nofun⟩

theorem Network.Silent.trans {net mid later : Network} (h : net.Silent mid) (g : mid.Silent later) :
    net.Silent later := by
  obtain ⟨es, hmid, hes⟩ := h
  obtain ⟨fs, hlater, hfs⟩ := g
  refine ⟨es ++ fs, ?_, fun n bytes hmem => ?_⟩
  · rw [hlater, hmid, List.reverse_append, List.append_assoc]
  · exact (List.mem_append.mp hmem).elim (hes n bytes) (hfs n bytes)

/-- The token stays in place. -/
def Call.Keeps (token : Token) : Call → Prop
  | operation _ => True
  | configure _ token' => token' = token
  | disconnect => True

namespace Client

variable {c mid later : Client} {gs gs' : List Glimpse}

/-! ## Work of a client -/

/-- `later` is the client after work in which `gs` was seen. -/
def Watches (c later : Client) (gs : List Glimpse) : Prop :=
  later.token = c.token ∧ ∃ es : List Entry, later.net.journal = es.reverse ++ c.net.journal ∧
    Guarded c.token (Glimpse.waits gs) c.net.journal es

theorem Watches.trans (h : c.Watches mid gs) (g : mid.Watches later gs') :
    c.Watches later (gs ++ gs') := by
  obtain ⟨htoken, es, hjournal, hguarded⟩ := h
  obtain ⟨htoken', fs, hjournal', hguarded'⟩ := g
  rw [htoken, hjournal] at hguarded'
  refine ⟨htoken'.trans htoken, es ++ fs, ?_, ?_⟩
  · rw [hjournal', hjournal, List.reverse_append, List.append_assoc]
  · rw [Glimpse.waits, List.filterMap_append]
    exact hguarded.append hguarded'

theorem Watches.mono (h : c.Watches later gs) (hgs : ∀ g ∈ gs, g ∈ gs') : c.Watches later gs' := by
  obtain ⟨htoken, es, hjournal, hguarded⟩ := h
  exact ⟨htoken, es, hjournal,
    hguarded.mono fun m hm => Glimpse.mem_waits.mpr (hgs _ (Glimpse.mem_waits.mp hm))⟩

/-- Where nothing is written there is nothing to guard. -/
theorem watches_of_silent (htoken : later.token = c.token) (h : c.net.Silent later.net) :
    c.Watches later gs := by
  obtain ⟨es, hjournal, hes⟩ := h
  exact ⟨htoken, es, hjournal, guarded_of_unsent hes⟩

/-- Carried out on `c`, the watched work stops where a wait finds the token fired, it is cancelled
for no other reason, its writes are guarded, and if it returns, the connection is tuned. -/
structure Freezes {α : Type} (w : Watched.OnClient α) (c : Client) : Prop where
  stops : ∀ m, .wait m ∈ w.seen c → m.isFired c.token = true →
    ∃ c', w.run c = .error (.failed .cancelled) c' ∧ c'.net = m.note .interrupted
  found : ∀ c', w.run c = .error (.failed .cancelled) c' →
    ∃ m, .wait m ∈ w.seen c ∧ m.isFired c.token = true
  ends : Ends w.run c (fun _ c' => c'.Tuned ∧ c.Watches c' (w.seen c))
    fun _ c' => c.Watches c' (w.seen c)

section

variable {α β : Type} {w : Watched.OnClient α} {next : α → Watched.OnClient β}

theorem freezes_quiet {act : Run Fault Client α}
    (h : Ends act c (fun _ c' => c'.Tuned ∧ c.Watches c' [])
      fun e c' => e ≠ .failed .cancelled ∧ c.Watches c' []) :
    Freezes (Watched.quiet act) c :=
  ⟨nofun, fun _ hr => absurd rfl (h.of_error hr).1, h.mono (fun _ _ hc => hc) fun _ _ hc => hc.2⟩

theorem freezes_pure (a : α) (htuned : c.Tuned) : Freezes (pure a) c :=
  freezes_quiet (ends_pure.mpr ⟨htuned, watches_of_silent rfl (.refl _)⟩)

theorem freezes_fail {fault : Fault} (hfault : fault ≠ .cancelled) (c : Client) :
    Freezes (Watched.quiet (fail fault : Run Fault Client α)) c :=
  freezes_quiet (ends_fail.mpr ⟨fun h => hfault (Halt.failed.inj h), watches_of_silent rfl (.refl _)⟩)

theorem Freezes.bind (h : Freezes w c) (g : ∀ a c', c'.Tuned → Freezes (next a) c') :
    Freezes (w >>= next) c where
  stops m hm hfired := by
    rcases Watched.mem_seen_bind.mp hm with hm | ⟨a, mid, hr, hm⟩
    · obtain ⟨c', hstopped, hnet⟩ := h.stops m hm hfired
      exact ⟨c', bind_of_error hstopped, hnet⟩
    · obtain ⟨htuned, htoken, -⟩ := h.ends.of_ok hr
      rw [← htoken] at hfired
      obtain ⟨c', hstopped, hnet⟩ := (g a mid htuned).stops m hm hfired
      exact ⟨c', (bind_of_ok hr).trans hstopped, hnet⟩
  found c' hr := by
    cases hw : w.run c with
    | ok a mid =>
      have hnext : (next a).run mid = .error (.failed .cancelled) c' := (bind_of_ok hw).symm.trans hr
      obtain ⟨htuned, htoken, -⟩ := h.ends.of_ok hw
      obtain ⟨m, hm, hfired⟩ := (g a mid htuned).found c' hnext
      rw [htoken] at hfired
      exact ⟨m, Watched.mem_seen_bind.mpr (.inr ⟨a, mid, hw, hm⟩), hfired⟩
    | error e mid =>
      obtain ⟨rfl, rfl⟩ := EStateM.Result.error.inj ((bind_of_error hw).symm.trans hr)
      obtain ⟨m, hm, hfired⟩ := h.found mid hw
      exact ⟨m, Watched.mem_seen_bind.mpr (.inl hm), hfired⟩
  ends := by
    refine ends_bind.mpr (((ends_self w.run c).and h.ends).mono ?_ ?_)
    · rintro a mid ⟨hr, htuned, hmid⟩
      rw [Watched.seen_bind, hr]
      exact (g a mid htuned).ends.mono (fun _ _ hc => ⟨hc.1, hmid.trans hc.2⟩) fun _ _ hc => hmid.trans hc
    · rintro e mid ⟨-, hmid⟩
      exact hmid.mono fun m hm => List.mem_append_left _ hm

/-- Work on a link is work of the client: the connection looks at the client's token. -/
theorem freezes_onLink {w : Watched.OnLink α} (h : ∀ l, Link.Freezes w l) (htuned : c.Tuned) :
    Freezes (Watched.onLink w) c := by
  cases hc : c.connection with
  | none =>
    have hrun : (Watched.onLink w).run c = .error (.failed .connectionClosed) c := by
      simp only [Watched.onLink, onLink, hc]
    refine ⟨fun m hm _ => ?_, fun c' hr => ?_, ?_⟩
    · simp [Watched.onLink, hc] at hm
    · cases hrun.symm.trans hr
    · unfold Ends
      rw [hrun]
      exact watches_of_silent rfl (.refl _)
  | some conn =>
    have htoken : conn.token = c.token := (htuned conn hc).token
    have hmem : ∀ m, .wait m ∈ (Watched.onLink w).seen c ↔ m ∈ w.seen ⟨conn, c.net⟩ := by
      simp [Watched.onLink, hc]
    have hwatches : ∀ l, Link.Watches ⟨conn, c.net⟩ l (w.seen ⟨conn, c.net⟩) →
        c.Watches { c with connection := some l.connection, net := l.net }
          ((Watched.onLink w).seen c) := by
      rintro l ⟨es, hl, hguarded⟩
      rw [show (⟨conn, c.net⟩ : Link).connection.token = c.token from htoken] at hguarded
      exact ⟨rfl, es, hl.waits.journal,
        hguarded.mono fun m hm => Glimpse.mem_waits.mpr ((hmem m).mpr hm)⟩
    refine ⟨fun m hm hfired => ?_, fun c' hr => ?_, ?_⟩
    · obtain ⟨l, hstopped, hnet⟩ := (h ⟨conn, c.net⟩).stops m ((hmem m).mp hm) (htoken.symm ▸ hfired)
      refine ⟨{ c with connection := some l.connection, net := l.net }, ?_, hnet⟩
      simp only [Watched.onLink, onLink, hc, hstopped]
    · simp only [Watched.onLink, onLink, hc] at hr
      split at hr
      · cases hr
      · rename_i halt l hw
        obtain ⟨rfl, rfl⟩ := EStateM.Result.error.inj hr
        obtain ⟨m, hm, hfired⟩ := (h ⟨conn, c.net⟩).found l hw
        exact ⟨m, (hmem m).mpr hm, htoken ▸ hfired⟩
    · refine ends_onLink hc ((h ⟨conn, c.net⟩).ends.mono ?_ fun _ l hl => hwatches l hl)
      intro a l hl
      refine ⟨fun conn' hconn' => ?_, hwatches l hl⟩
      obtain rfl := Option.some.inj hconn'
      obtain ⟨es, hleads, -⟩ := hl
      exact hleads.tuned (htuned conn hc)

end

/-- Work on the connection that there is does so, if that is tuned. -/
theorem freezes_of_drives {α : Type} {gives : List (Option Script) → Prop} {w : Watched.OnClient α}
    (h : Watched.Drives gives w) (htuned : c.Tuned) : Freezes w c := by
  induction h generalizing c with
  | pure a => exact freezes_pure a htuned
  | refuse hrefuses => exact freezes_fail (Fault.facts_of_refuses hrefuses).2.2 c
  | exchange command =>
    refine freezes_onLink (fun l => Link.Freezes.bind ?_ fun _ l₁ =>
      (Link.freezes_writeLine command.wire l₁).bind fun _ l₂ => Link.freezes_readReply .reply l₂) htuned
    exact Link.freezes_quiet (ends_modify.mpr (Link.watches_of_unsent (Link.leads_note l rfl) (by simp)))
  | greeting => exact freezes_onLink (Link.freezes_readReply .reply) htuned
  | @deliver sources _ =>
    exact freezes_onLink (fun l => (Link.freezes_writeBody sources l).bind fun sent l₁ =>
      (Link.freezes_readReply .dataReply l₁).bind fun lines l₂ => Link.freezes_pure _ l₂) htuned
  | bind _ _ ih ihnext => exact (ih htuned).bind fun a c' htuned' => ihnext a htuned'

theorem freezes_openConnection (host : String) (port : Nat) (c : Client) :
    Freezes (Watched.openConnection host port) c where
  stops m hm hfired := by
    obtain ⟨m', hmem, heq⟩ := List.mem_map.mp hm
    injection heq with heq
    subst heq
    obtain ⟨rest, hbounded⟩ := Network.bounded_of_mem_moments 0 hmem hfired
    refine ⟨{ c with net := m'.note .interrupted }, ?_, rfl⟩
    simp only [Watched.openConnection, openConnection, hbounded]
    rfl
  found c' hr := by
    change openConnection host port c = _ at hr
    unfold openConnection at hr
    dsimp only at hr
    split at hr
    · rename_i halt later hconcluded
      obtain ⟨rfl, rfl⟩ := EStateM.Result.error.inj hr
      obtain ⟨m, hm, hfired⟩ :=
        Network.exists_moment_of_cancelled (Link.eq_cutOff_of_conclude hconcluded)
      exact ⟨m, List.mem_map_of_mem hm, hfired⟩
    · cases hr
    · cases hr
  ends := by
    refine ((attached_openConnection host port c).leaves.and (ends_openConnection host port c)).mono ?_ ?_
    · rintro _ c' ⟨⟨-, htuned⟩, net, hw, rfl⟩
      exact ⟨htuned, watches_of_silent rfl ⟨_, (works_of_open hw).journal, by simp⟩⟩
    · rintro e c' ⟨-, net, hw, -, rfl⟩
      refine watches_of_silent rfl ⟨_, (works_of_dial hw e.eq_of_mem_trace).journal, fun n bytes hmem => ?_⟩
      rcases List.mem_cons.mp hmem with heq | hmem
      · cases heq
      · exact unsent_trace e n bytes hmem

theorem freezes_greet (host : String) (port : Nat) (c : Client) : Freezes (Watched.greet host port) c := by
  obtain ⟨next, hgreet, hnext⟩ : Watched.BeginsWith (fun _ => True) _ _ :=
    Watched.begins_greet host port
  rw [hgreet]
  exact (freezes_openConnection host port c).bind fun u _ => freezes_of_drives (hnext u)

/-- The work of every operation does, whatever it is begun with. -/
theorem freezes_watched (op : Operation) (c mid : Client) (htuned : mid.Tuned) :
    Freezes (op.watched c) mid := by
  rcases op.connects_or_drives c fun _ _ => trivial with ⟨host, port, rfl⟩ | hdrives
  · exact (freezes_greet host port mid).bind fun _ _ => freezes_pure ()
  · exact freezes_of_drives hdrives htuned

/-! ## Operations -/

theorem token_cleared (c : Client) : c.cleared.token = c.token := by
  unfold cleared
  split
  · rfl
  · rfl

/-- Letting go of the connection writes nothing. -/
theorem watches_of_releasedNet (htoken : later.token = c.token) (hnet : later.net = c.releasedNet) :
    c.Watches later gs := by
  refine watches_of_silent htoken ⟨c.release, ?_, fun n bytes hmem => ?_⟩
  · rw [hnet, releasedNet_eq]
  · simp [release] at hmem

theorem watches_cleared (c : Client) : c.Watches c.cleared [] := by
  unfold cleared
  split
  · exact watches_of_releasedNet rfl rfl
  · exact watches_of_silent rfl (.refl _)

theorem watches_of_books {op : Operation} (h : op.Books mid later) : mid.Watches later [] := by
  by_cases hop : op = .done
  · rw [h.away hop]
    exact watches_of_releasedNet rfl rfl
  · rw [h.same hop]
    exact watches_of_silent rfl (.refl _)

theorem watches_halted (op : Operation) (mid : Client) (e : Halt Fault) :
    mid.Watches (op.halted { mid with inFlight := false } e) [] := by
  cases e with
  | failed fault =>
    obtain ⟨-, hnet, -⟩ := op.halted_failed { mid with inFlight := false } fault
    refine watches_of_releasedNet ?_ hnet
    cases op with
    | done => cases fault <;> rfl
    | _ => rfl
  | abandoned =>
    rw [op.halted_abandoned]
    exact watches_of_silent rfl (.refl _)

/-- Whatever an operation writes, it writes in a wait that was started before the token fired. -/
theorem Tuned.watches_after (htuned : c.cleared.Tuned) (op : Operation) :
    c.Watches ((Call.operation op).after c) (op.glimpses c) := by
  refine Call.after_of_ends (p := fun later => c.Watches later (op.glimpses c)) (ends_bind.mpr ?_)
  unfold Operation.glimpses
  split
  · rename_i hallowed
    have hfreezes := freezes_watched op c.cleared { c.cleared with inFlight := true } htuned
    have hwork := hfreezes.ends.mono (fun _ _ hmid => hmid.2) fun _ _ hmid => hmid
    rw [op.run_watched] at hwork
    -- What is seen at work is all there is to see: the bookkeeping around it is quiet.
    refine (Operation.ends_carryOut_of_work c.idle_cleared hallowed hwork).mono ?_ ?_
    · rintro answer later ⟨mid, hmid, hbooks⟩
      exact ((watches_cleared c).trans (Watches.trans hmid (watches_of_books hbooks))).mono
        fun g hg => by simpa using hg
    · rintro e later ⟨mid, hmid, rfl⟩
      exact ((watches_cleared c).trans (Watches.trans hmid (watches_halted op mid e))).mono
        fun g hg => by simpa using hg
  · rename_i hallowed
    have hrefused := op.carryOut_of_not_allows c (Bool.eq_false_iff.mpr hallowed)
    unfold Ends
    rw [op.carryOut_cleared, hrefused]
    exact watches_cleared c

/-- The client has been cut off at the moment `m`: it is bad and without a connection, and all that
has happened since is that this was noted. -/
structure CutOffAt (m : Network) (c : Client) : Prop where
  state : c.state = .bad
  connection : c.connection = none
  idle : c.inFlight = false
  signals : c.net.signals = m.signals
  journal : ∃ es : List Entry, c.net.journal = es.reverse ++ m.journal ∧
    ∀ e ∈ es, e = .interrupted ∨ ∃ n, e = .released n

theorem cutOffAt_abandon {m : Network} (hnet : c.net = m.note .interrupted) : c.abandon.CutOffAt m where
  state := rfl
  connection := rfl
  idle := rfl
  signals := by
    rw [abandon, releasedNet_eq, hnet]
    rfl
  journal := by
    refine ⟨.interrupted :: c.release, ?_, fun e he => ?_⟩
    · rw [abandon, releasedNet_eq, hnet, List.reverse_cons, List.append_assoc]
      rfl
    · rcases List.mem_cons.mp he with rfl | he
      · exact .inl rfl
      · obtain ⟨n, -, rfl⟩ : ∃ n, c.held = some n ∧ Entry.released n = e := by
          simpa [release] using he
        exact .inr ⟨n, rfl⟩

/-- An operation in which a wait finds the token fired is over at that moment. -/
theorem Tuned.cutOffAt {op : Operation} {m : Network} (htuned : c.cleared.Tuned)
    (hm : .wait m ∈ op.glimpses c) (hfired : m.isFired c.token = true) :
    ∃ later, op.carryOut c = .error (.failed .cancelled) later ∧ later.token = c.token ∧
      later.CutOffAt m := by
  unfold Operation.glimpses at hm
  split at hm
  · rename_i hallowed
    have hfreezes := freezes_watched op c.cleared { c.cleared with inFlight := true } htuned
    obtain ⟨mid, hstopped, hnet⟩ := hfreezes.stops m hm (by rwa [token_cleared])
    rw [op.run_watched] at hstopped
    have hr := Operation.carryOut_of_work_error c.idle_cleared hallowed hstopped
    obtain ⟨⟨es, hworks⟩, -⟩ := (op.worksOnly_work _ _).of_error hstopped
    have hhalted : op.halted { mid with inFlight := false } (.failed .cancelled) =
        { mid with inFlight := false }.abandon := by cases op <;> rfl
    rw [op.carryOut_cleared, hhalted] at hr
    refine ⟨_, hr, ?_, cutOffAt_abandon hnet⟩
    have htoken : mid.token = c.cleared.token := by rw [hworks.same]
    exact htoken.trans c.token_cleared
  · cases hm

/-- An operation is cancelled for no other reason. -/
theorem Tuned.exists_wait {op : Operation} (htuned : c.cleared.Tuned)
    (hr : op.carryOut c = .error (.failed .cancelled) later) :
    ∃ m, .wait m ∈ op.glimpses c ∧ m.isFired c.token = true := by
  unfold Operation.glimpses
  split
  · rename_i hallowed
    rw [← op.carryOut_cleared] at hr
    obtain ⟨mid, hwork, -⟩ := (Operation.ends_carryOut_work c.idle_cleared hallowed).of_error hr
    rw [← op.run_watched] at hwork
    have hfreezes := freezes_watched op c.cleared { c.cleared with inFlight := true } htuned
    obtain ⟨m, hm, hfired⟩ := hfreezes.found mid hwork
    exact ⟨m, hm, c.token_cleared ▸ hfired⟩
  · rename_i hallowed
    rw [op.carryOut_of_not_allows c (Bool.eq_false_iff.mpr hallowed)] at hr
    cases hr

/-! ## While the token stays in place -/

variable {call : Call} {calls : List Call} {token : Token}

/-- The token has fired, and there is no connection. -/
structure Quenched (token : Token) (c : Client) : Prop where
  kept : c.token = token
  fired : c.net.isFired token = true
  idle : c.inFlight = false
  connection : c.connection = none
  state : c.state = .fresh ∨ c.state = .bad

theorem CutOffAt.quenched {m : Network} (h : c.CutOffAt m) (htoken : c.token = token)
    (hfired : m.isFired token = true) : Quenched token c where
  kept := htoken
  fired := by rwa [Network.isFired, h.signals]
  idle := h.idle
  connection := h.connection
  state := .inr h.state

/-- A call of which nothing comes: it is cancelled, or not allowed. -/
def IsFutile (e : Halt Fault) : Prop :=
  e = .failed .cancelled ∨ ∃ operation state, e = .failed (.invalidState operation state)

theorem CutOffAt.silent {net m : Network} (h : c.CutOffAt m) (hm : net.Silent m) : net.Silent c.net := by
  obtain ⟨es, hjournal, hes⟩ := h.journal
  refine hm.trans ⟨es, hjournal, fun n bytes hmem => ?_⟩
  rcases hes _ hmem with heq | ⟨k, heq⟩
  · cases heq
  · cases heq

/-- Without a connection there is nothing to let go of. -/
theorem net_disconnect (h : c.connection = none) : c.disconnect.net = c.net := by
  simp only [disconnect, releasedNet, h]

theorem Quenched.disconnect (h : Quenched token c) : Quenched token c.disconnect where
  kept := h.kept
  fired := by
    rw [net_disconnect h.connection]
    exact h.fired
  idle := rfl
  connection := rfl
  state := .inl rfl

theorem Quenched.meanwhile (h : Quenched token c) (hw : c.Meanwhile later) : Quenched token later where
  kept := by
    rw [hw.same]
    exact h.kept
  fired := hw.fired token h.fired
  idle := by
    rw [hw.same]
    exact h.idle
  connection := by
    have hheld := hw.held
    rw [held, held, h.connection] at hheld
    exact Option.map_eq_none_iff.mp hheld
  state := by
    rw [hw.same]
    exact h.state

/-- A connection is asked for, and waiting for it is cancelled at once. -/
theorem Quenched.connect (h : Quenched token c) (host : String) (port : Nat) (hfresh : c.state = .fresh) :
    ∃ later, (Operation.connect host port).carryOut c = .error (.failed .cancelled) later ∧
      Quenched token later ∧ c.net.Silent later.net := by
  obtain ⟨-, hjournal, -, hsignals, -⟩ := dial_facts c.net host port
  have hcleared : c.cleared = c := cleared_of_idle h.idle
  have hm : .wait (c.net.dial host port).2 ∈ (Operation.connect host port).glimpses c := by
    unfold Operation.glimpses
    rw [hcleared, if_pos (by rw [hfresh]; rfl)]
    exact List.mem_append_left _ (List.mem_append_left _ (List.mem_map_of_mem List.mem_cons_self))
  have hfired : (c.net.dial host port).2.isFired c.token = true := by
    rw [Network.isFired, hsignals, h.kept]
    exact h.fired
  have htuned : c.cleared.Tuned := by
    intro conn hconn
    rw [hcleared, h.connection] at hconn
    cases hconn
  obtain ⟨later, hr, htoken, hcut⟩ := htuned.cutOffAt hm hfired
  refine ⟨later, hr, hcut.quenched (htoken.trans h.kept) (h.kept ▸ hfired), hcut.silent ?_⟩
  exact ⟨[.dialled host port], hjournal, by simp⟩

/-- An operation finds the token fired at once, if it needs the network. -/
theorem Quenched.operation (h : Quenched token c) (op : Operation) :
    Ends op.carryOut c
      (fun _ later => Quenched token later ∧ c.net.Silent later.net ∧ op = .done)
      (fun e later => Quenched token later ∧ c.net.Silent later.net ∧ IsFutile e) := by
  cases hallowed : op.allows c.state with
  | false =>
    have hrefused := op.carryOut_of_not_allows c
    rw [cleared_of_idle h.idle] at hrefused
    unfold Ends
    rw [hrefused hallowed]
    exact ⟨h, .refl _, .inr ⟨_, _, rfl⟩⟩
  | true =>
    -- Of what a fresh client may do, all but a goodbye is to ask for a connection.
    have hfresh : c.state = .fresh := by
      refine h.state.resolve_right fun hbad => ?_
      rw [hbad] at hallowed
      cases op <;> cases hallowed
    cases op with
    | connect host port =>
      obtain ⟨later, hr, hlater⟩ := h.connect host port hfresh
      unfold Ends
      rw [hr]
      exact ⟨hlater.1, hlater.2, .inl rfl⟩
    | done =>
      have hwork : Ends (Operation.done.work c) { c with inFlight := true }
          (fun _ mid => mid = { c with inFlight := true }) fun _ _ => False := by
        rw [Operation.work, if_neg (by rw [hfresh]; exact Bool.false_ne_true)]
        exact ends_pure.mpr rfl
      refine (Operation.ends_carryOut_of_work h.idle hallowed hwork).mono ?_ ?_
      · rintro answer later ⟨mid, rfl, hbooks⟩
        have hidle : c = { c with inFlight := false } := by rw [← h.idle]
        have hleft : later = c.disconnect := (hbooks.away rfl).trans (congrArg Client.disconnect hidle.symm)
        rw [hleft, net_disconnect h.connection]
        exact ⟨h.disconnect, .refl _, rfl⟩
      · rintro e later ⟨mid, hnever, -⟩
        exact hnever.elim
    | _ =>
      rw [hfresh] at hallowed
      cases hallowed

/-- So it is with every call that keeps the token, and it leaves the client quenched. -/
theorem Quenched.carryOut (h : Quenched token c) (hkeeps : call.Keeps token) :
    Ends call.carryOut c
      (fun _ later => Quenched token later ∧ c.net.Silent later.net ∧
        (call = .disconnect ∨ call = .operation .done ∨ ∃ settings, call = .configure settings token))
      (fun e later => Quenched token later ∧ c.net.Silent later.net ∧ IsFutile e) := by
  cases call with
  | operation op =>
    refine ends_bind.mpr ((h.operation op).mono ?_ fun _ _ hlater => hlater)
    rintro answer later ⟨hlater, hsilent, rfl⟩
    exact ⟨hlater, hsilent, .inr (.inl rfl)⟩
  | disconnect =>
    refine ends_modify.mpr ?_
    rw [net_disconnect h.connection]
    exact ⟨h.disconnect, .refl _, .inl rfl⟩
  | configure settings token' =>
    obtain rfl : token' = token := hkeeps
    refine ends_bind.mpr (ends_enter_iff.mpr ?_)
    rw [cleared_of_idle h.idle]
    split
    · exact ⟨⟨rfl, h.fired, h.idle, h.connection, h.state⟩, .refl _, .inr (.inr ⟨settings, rfl⟩)⟩
    · exact ⟨h, .refl _, .inr ⟨_, _, rfl⟩⟩

theorem Quenched.after (h : Quenched token c) (hkeeps : call.Keeps token) :
    Quenched token (call.after c) ∧ c.net.Silent (call.after c).net := by
  have hends := h.carryOut hkeeps
  rw [← cleared_of_idle h.idle] at hends
  refine Call.after_of_ends (p := fun later => Quenched token later ∧ c.net.Silent later.net)
    (hends.mono ?_ ?_)
  · rintro _ later ⟨hlater, hsilent, -⟩
    rw [cleared_of_idle h.idle] at hsilent
    exact ⟨hlater, hsilent⟩
  · rintro _ later ⟨hlater, hsilent, -⟩
    rw [cleared_of_idle h.idle] at hsilent
    exact ⟨hlater, hsilent⟩

/-- A client that is quenched stays so, whatever calls are made, as long as the token stays in
place; and nothing is written. -/
theorem Quenched.runs (h : Quenched token c) (hr : Runs c calls later)
    (hkeeps : ∀ call ∈ calls, call.Keeps token) : Quenched token later ∧ c.net.Silent later.net := by
  induction hr with
  | nil => exact ⟨h, .refl _⟩
  | meanwhile wait _ ih =>
    obtain ⟨hlater, hsilent⟩ := ih (h.meanwhile wait) hkeeps
    exact ⟨hlater, .trans ⟨[], wait.journal, nofun⟩ hsilent⟩
  | call _ ih =>
    obtain ⟨hmid, hsilent⟩ := h.after (hkeeps _ List.mem_cons_self)
    obtain ⟨hlater, hsilent'⟩ := ih hmid fun call hcall => hkeeps call (List.mem_cons_of_mem _ hcall)
    exact ⟨hlater, hsilent.trans hsilent'⟩

/-- For every client there can be, and every operation.  Each octet that the operation writes is
written in a wait that was started before the token had fired, and the operation is cancelled only
if a wait of it is started or taken up again with the token fired.  If one is, then that is the end:
the operation is cancelled, the client is bad and without a connection, and nothing has happened
since that moment but that this was noted.

And from then on, whatever calls are made while the token stays in place, and whatever the network
has ready: each of them is cancelled or not allowed, or returns as one that needs no network, and
nothing is ever written. -/
theorem cancellation_freezes_the_wire {id : Nat} {settings : ClientSettings} {token : Token}
    {net : Network} {earlier : List Call}
    (hlives : Lives (Client.new id settings token net) earlier c) (op : Operation) :
    c.Watches ((Call.operation op).after c) (op.glimpses c) ∧
      (∀ later, op.carryOut c = .error (.failed .cancelled) later →
        ∃ m, .wait m ∈ op.glimpses c ∧ m.isFired c.token = true) ∧
      ∀ m, .wait m ∈ op.glimpses c → m.isFired c.token = true →
        ∃ later, op.carryOut c = .error (.failed .cancelled) later ∧ later.CutOffAt m ∧
          ∀ (calls : List Call) (c' : Client), Runs later calls c' →
            (∀ call ∈ calls, call.Keeps c.token) →
            later.net.Silent c'.net ∧ ∀ call : Call, call.Keeps c.token →
              Ends call.carryOut c'
                (fun _ c'' => c'.net.Silent c''.net ∧
                  (call = .disconnect ∨ (call = .operation .done ∧ c'.connection = none) ∨
                    ∃ settings, call = .configure settings c.token))
                (fun e c'' => c'.net.Silent c''.net ∧ (e = .failed .cancelled ∨
                  ∃ operation state, e = .failed (.invalidState operation state))) := by
  have hcoherent : (Client.new id settings token net).CoherentIfIdle := fun _ => coherent_new _ _ _ _
  have htuned : c.cleared.Tuned := (hcoherent.lives hlives).cleared.tuned
  refine ⟨htuned.watches_after op, fun _ hr => htuned.exists_wait hr, fun m hm hfired => ?_⟩
  obtain ⟨later, hr, htoken, hcut⟩ := htuned.cutOffAt hm hfired
  refine ⟨later, hr, hcut, fun calls c' hruns hkeeps => ?_⟩
  obtain ⟨hquenched, hsilent⟩ := (hcut.quenched htoken hfired).runs hruns hkeeps
  refine ⟨hsilent, fun call hcall => (hquenched.carryOut hcall).mono ?_ fun _ _ hc => hc.2⟩
  rintro _ c'' ⟨-, hsilent', hcall'⟩
  exact ⟨hsilent', hcall'.imp_right (Or.imp_left fun h => ⟨h, hquenched.connection⟩)⟩

/-- A server whose second reply comes in two pieces; the token fires with the first of them. -/
def splitReply : Network :=
  { sockets := [{ reads := [.data (Text.Utf8.encode "220 mx\r\n"), .cancel,
      .data (Text.Utf8.encode "250 o"), .data (Text.Utf8.encode "k\r\n")] }] }

/-- The second piece is there, but the login does not wait for it any more. -/
theorem cancellation_freezes_the_wire_splitReply :
    let c := (Call.operation (.connect "mx" 25)).after (.new 1 {} {} splitReply)
    ∃ m later, .wait m ∈ Operation.login.glimpses c ∧ m.isFired c.token = true ∧
      Operation.login.carryOut c = .error (.failed .cancelled) later ∧ later.CutOffAt m ∧
      Ends (Call.operation (.connect "mx" 25)).carryOut later.disconnect (fun _ _ => False)
        fun _ c' => later.net.Silent c'.net := by
  intro c
  have hseen : (Glimpse.waits (Operation.login.glimpses c)).any (·.isFired c.token) = true := by
    decide +kernel
  obtain ⟨m, hm, hfired⟩ := List.any_eq_true.mp hseen
  have hm : .wait m ∈ Operation.login.glimpses c := Glimpse.mem_waits.mp hm
  have hlives := lives_foldl [.operation (.connect "mx" 25)] (Client.new 1 {} {} splitReply)
  obtain ⟨later, hr, hcut, hstays⟩ := (cancellation_freezes_the_wire hlives .login).2.2 m hm hfired
  refine ⟨m, later, hm, hfired, hr, hcut, ?_⟩
  have hruns : Runs later [.disconnect] later.disconnect := .call (.nil _)
  obtain ⟨hsilent, hends⟩ := hstays [.disconnect] later.disconnect hruns fun call hcall => by
    rw [List.mem_singleton.mp hcall]
    trivial
  refine (hends (.operation (.connect "mx" 25)) trivial).mono ?_ fun _ _ hc => hsilent.trans hc.1
  rintro _ c' ⟨-, hcall⟩
  rcases hcall with hcall | ⟨hcall, -⟩ | ⟨_, hcall⟩
  · cases hcall
  · cases hcall
  · cases hcall

end Client

end MailSubmission
