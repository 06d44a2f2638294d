import MailSubmission.Proofs.BodySending
import MailSubmission.Proofs.Watching

set_option autoImplicit false

/-!
# What a client does

A client's own part in a call is its bookkeeping: state, marks and what it remembers.  The
rest is work on a connection, its own or one that it has just asked for
(`Client.Works`).  Work can only fail with a fatal fault (`Client.WorksOnly`), so the
bookkeeping of a call that fails always lets go of the connection.  What returns has an
open connection (`Client.Connects`).
-/

namespace MailSubmission

/-- A failure, if it is one, leaves the connection unusable. -/
def Halt.Fatal : Halt Fault → Prop
  | .failed fault => fault.isFatal = true
  | .abandoned => True

theorem Halt.During.fatal {phase : Phase} {tally : Nat → Prop} {h : Halt Fault}
    (hd : h.During phase tally) : h.Fatal := by
  cases h with
  | failed fault => exact hd.isFatal
  | abandoned => trivial

namespace Client

open Run

/-- The number of the connection that the client holds. -/
def held (c : Client) : Option Nat := c.connection.map (·.socket.number)

/-- The client as a call finds it: a call dropped before is cleared up. -/
def cleared (c : Client) : Client := if c.inFlight then c.abandon else c

theorem cleared_of_idle {c : Client} (hidle : c.inFlight = false) : c.cleared = c := by
  unfold cleared
  rw [hidle]
  rfl

/-! ## Moves -/

/-- The client had the connection `n` between `c` and `later`: it held it, or asked for it
meanwhile. -/
def Had (c later : Client) (n : Nat) : Prop :=
  c.held = some n ∨ c.net.dialled ≤ n ∧ n < later.net.dialled

/-- `later` is the client after a call or part of one, in which `es` happened: no connection
was used but the one it held and those asked for meanwhile. -/
structure Moves (c later : Client) (es : List Entry) : Prop where
  journal : later.net.journal = es.reverse ++ c.net.journal
  now_le : c.net.now ≤ later.net.now
  fired : ∀ t, c.net.isFired t = true → later.net.isFired t = true
  dialled_le : c.net.dialled ≤ later.net.dialled
  own : ∀ e ∈ es, ∀ n, e.Uses n → c.Had later n
  held : ∀ n, later.held = some n → c.Had later n

variable {c mid later : Client} {es fs : List Entry}

theorem Moves.refl (c : Client) : c.Moves c [] :=
  ⟨rfl, Nat.le_refl _, fun _ h => h, Nat.le_refl _, by simp, fun _ h => .inl h⟩

/-- What the client had in the first part, it had in the whole. -/
theorem Moves.had_left {n : Nat} (g : mid.Moves later fs) (hn : c.Had mid n) : c.Had later n :=
  hn.imp_right fun hn => ⟨hn.1, Nat.lt_of_lt_of_le hn.2 g.dialled_le⟩

/-- What the client had in the second part, it had in the whole. -/
theorem Moves.had_right {n : Nat} (h : c.Moves mid es) (g : mid.Moves later fs)
    (hn : mid.Had later n) : c.Had later n := by
  rcases hn with hn | hn
  · exact g.had_left (h.held n hn)
  · exact .inr ⟨Nat.le_trans h.dialled_le hn.1, hn.2⟩

theorem Moves.trans (h : c.Moves mid es) (g : mid.Moves later fs) : c.Moves later (es ++ fs) where
  journal := by rw [g.journal, h.journal, List.reverse_append, List.append_assoc]
  now_le := Nat.le_trans h.now_le g.now_le
  fired t ht := g.fired t (h.fired t ht)
  dialled_le := Nat.le_trans h.dialled_le g.dialled_le
  own e he n hu := by
    rcases List.mem_append.mp he with he | he
    · exact g.had_left (h.own e he n hu)
    · exact h.had_right g (g.own e he n hu)
  held n hn := h.had_right g (g.held n hn)

/-- What the client remembers besides its connection and the network does not matter. -/
theorem Moves.congr (h : c.Moves mid es) (hconnection : later.connection = mid.connection)
    (hnet : later.net = mid.net) : c.Moves later es where
  journal := hnet ▸ h.journal
  now_le := hnet ▸ h.now_le
  fired := hnet ▸ h.fired
  dialled_le := hnet ▸ h.dialled_le
  own e he n hu := by
    unfold Had
    exact hnet ▸ h.own e he n hu
  held n hn := by
    unfold Client.held at hn
    rw [hconnection] at hn
    unfold Had
    exact hnet ▸ h.held n hn

/-- `later` is the client after work on connections, in which `es` happened. -/
structure Works (c later : Client) (es : List Entry) : Prop extends Moves c later es where
  same : later = { c with connection := later.connection, net := later.net }
  stays : c.connection.isSome = true → later.connection.isSome = true

theorem Works.refl (c : Client) : c.Works c [] := ⟨.refl c, rfl, fun h => h⟩

theorem Works.trans (h : c.Works mid es) (g : mid.Works later fs) : c.Works later (es ++ fs) := by
  refine ⟨h.toMoves.trans g.toMoves, ?_, g.stays ∘ h.stays⟩
  rw [g.same, h.same]

theorem Works.state_eq (h : c.Works later es) : later.state = c.state := by
  rw [h.same]

/-! ## Work -/

/-- Whatever the client and its network, the call does nothing but work, and if it fails then
with a fatal fault. -/
def WorksOnly {α : Type} (act : Run Fault Client α) : Prop :=
  ∀ c, Ends act c (fun _ c' => ∃ es, c.Works c' es) fun h c' => (∃ es, c.Works c' es) ∧ h.Fatal

theorem worksOnly_pure {α : Type} (a : α) : WorksOnly (pure a) := fun c => ⟨[], .refl c⟩

/-- Likewise, and if the call returns, then with an open connection. -/
def Connects {α : Type} (act : Run Fault Client α) : Prop :=
  ∀ c, Ends act c (fun _ c' => (∃ es, c.Works c' es) ∧ c'.connection.isSome = true)
    fun h c' => (∃ es, c.Works c' es) ∧ h.Fatal

theorem Connects.worksOnly {α : Type} {act : Run Fault Client α} (h : Connects act) :
    WorksOnly act := fun c => (h c).mono (fun _ _ hok => hok.1) fun _ _ hhalt => hhalt

/-- Work that follows keeps the connection. -/
theorem Connects.bind {α β : Type} {act : Run Fault Client α} {next : α → Run Fault Client β}
    (h : Connects act) (g : ∀ a, WorksOnly (next a)) : Connects (act >>= next) := by
  intro c
  refine ends_bind.mpr ((h c).mono ?_ fun _ _ hc => hc)
  intro a mid hmid
  obtain ⟨⟨es, hes⟩, hopen⟩ := hmid
  apply (g a mid).mono
  · intro b later hlater
    obtain ⟨fs, hfs⟩ := hlater
    exact ⟨⟨es ++ fs, hes.trans hfs⟩, hfs.stays hopen⟩
  · intro e later hlater
    obtain ⟨⟨fs, hfs⟩, he⟩ := hlater
    exact ⟨⟨es ++ fs, hes.trans hfs⟩, he⟩

/-- Work on the link is work of the client. -/
theorem works_of_leads {conn : Connection} {l : Link} (hc : c.connection = some conn)
    (h : Link.Leads ⟨conn, c.net⟩ l es) :
    c.Works { c with connection := some l.connection, net := l.net } es where
  journal := h.waits.journal
  now_le := h.waits.now_le
  fired := h.waits.fired
  dialled_le := Nat.le_of_eq h.waits.dialled.symm
  own e he n hu := by
    have hn := (h.own e he).of_uses hu
    left
    rw [held, hc, hn]
    rfl
  held n hn := by
    left
    rw [held, hc, ← hn]
    exact congrArg some h.number.symm
  same := rfl
  stays _ := rfl

/-- What is carried out on the link, the client's connection being open. -/
theorem ends_onLink {α : Type} {act : Run Fault Link α} {conn : Connection}
    {ok : α → Client → Prop} {halt : Halt Fault → Client → Prop} (hc : c.connection = some conn)
    (h : Ends act ⟨conn, c.net⟩
      (fun a l => ok a { c with connection := some l.connection, net := l.net })
      fun e l => halt e { c with connection := some l.connection, net := l.net }) :
    Ends (onLink act) c ok halt := by
  unfold Ends onLink
  unfold Ends at h
  rw [hc]
  dsimp only
  cases hr : act ⟨conn, c.net⟩ with
  | ok a l => rwa [hr] at h
  | error e l => rwa [hr] at h

/-- `later` is the client after work on the connection that it has; without one nothing is done. -/
inductive LeadsOn (c : Client) : Client → Prop where
  | idle : LeadsOn c c
  | work {conn : Connection} {l : Link} {es : List Entry} (hc : c.connection = some conn)
      (h : Link.Leads ⟨conn, c.net⟩ l es) :
      LeadsOn c { c with connection := some l.connection, net := l.net }

theorem LeadsOn.trans (h : c.LeadsOn mid) (g : mid.LeadsOn later) : c.LeadsOn later := by
  cases h with
  | idle => exact g
  | work hc hl =>
    cases g with
    | idle => exact .work hc hl
    | work hc' hl' =>
      obtain rfl := Option.some.inj hc'
      exact .work hc (hl.trans hl')

/-- It is work, and stays on the connection. -/
theorem LeadsOn.works (h : c.LeadsOn later) :
    ∃ es, c.Works later es ∧ ∀ n, c.held = some n → later.held = some n ∧ ∀ e ∈ es, e.StaysOn n := by
  cases h with
  | idle => exact ⟨[], .refl c, fun n hn => ⟨hn, nofun⟩⟩
  | @work conn l es hc hl =>
    refine ⟨es, works_of_leads hc hl, fun n hn => ?_⟩
    obtain rfl : conn.socket.number = n := by
      rw [held, hc] at hn
      exact Option.some.inj hn
    exact ⟨congrArg some hl.number, hl.own⟩

/-- What only leads on, on the link, leads the client on, whether or not its connection is open. -/
theorem ends_onLink_leadsOn {α : Type} {act : Run Fault Link α}
    (h : ∀ l, Ends act l (fun _ l' => ∃ es, l.Leads l' es)
      fun e l' => (∃ es, l.Leads l' es) ∧ e.Fatal) (c : Client) :
    Ends (onLink act) c (fun _ c' => c.LeadsOn c' ∧ c'.connection.isSome = true)
      (fun e c' => c.LeadsOn c' ∧ e.Fatal) := by
  cases hc : c.connection with
  | none =>
    unfold Ends onLink
    rw [hc]
    exact ⟨.idle, rfl⟩
  | some conn =>
    refine ends_onLink hc ((h ⟨conn, c.net⟩).mono ?_ ?_)
    · rintro a l ⟨es, hl⟩
      exact ⟨.work hc hl, rfl⟩
    · rintro e l ⟨⟨es, hl⟩, he⟩
      exact ⟨.work hc hl, he⟩

/-! ## Commands and replies -/

/-- A command goes out whole and a reply comes in; short of that no reply is complete. -/
theorem ends_asking (command : Command) (l : Link) :
    Ends (do
        modify fun l => l.note (.issued l.connection.socket.number command)
        Link.writeLine command.wire
        Link.readReply .reply) l
      (fun lines l' => ∃ before, l.Leads l' (before ++ [.heard l.connection.socket.number lines]) ∧
        Unanswered before)
      (fun h l' => ∃ es, l.Leads l' es ∧ Unanswered es ∧ h.During .reply fun _ => True) := by
  have hissued := Link.leads_note l (e := .issued l.connection.socket.number command) rfl
  simp only [ends_bind, ends_modify]
  refine (Link.ends_writeLine command.wire _).mono ?_ ?_
  · rintro _ mid ⟨pieces, -, hmid⟩
    have hsent := hissued.trans hmid
    apply (Link.ends_readReply .reply mid).mono
    · rintro lines l' ⟨chunks, hl⟩
      rw [hsent.number] at hl
      have h := hsent.trans hl
      rw [← List.append_assoc] at h
      exact ⟨_, h, by simp [Entry.isHeard]⟩
    · rintro h l' ⟨⟨chunks, hl⟩, hd⟩
      exact ⟨_, hsent.trans hl, by simp [Entry.isHeard], hd⟩
  · rintro h l' ⟨⟨pieces, -, hl⟩, hd⟩
    exact ⟨_, hissued.trans hl, by simp [Entry.isHeard], hd⟩

theorem ends_exchange {c : Client} {conn : Connection} (command : Command)
    (hc : c.connection = some conn) :
    Ends (exchange command) c
      (fun lines c' => ∃ l before, Link.Leads ⟨conn, c.net⟩ l
          (before ++ [.heard conn.socket.number lines]) ∧ Unanswered before ∧
        c' = { c with connection := some l.connection, net := l.net })
      (fun h c' => ∃ l es, Link.Leads ⟨conn, c.net⟩ l es ∧ Unanswered es ∧
        c' = { c with connection := some l.connection, net := l.net } ∧
          h.During .reply fun _ => True) := by
  refine ends_onLink hc ((ends_asking command ⟨conn, c.net⟩).mono ?_ ?_)
  · rintro lines l ⟨before, hl, hbefore⟩
    exact ⟨l, before, hl, hbefore, rfl⟩
  · rintro h l ⟨es, hl, hes, hd⟩
    exact ⟨l, es, hl, hes, rfl, hd⟩

theorem ends_exchange_leadsOn (command : Command) (c : Client) :
    Ends (exchange command) c (fun _ c' => c.LeadsOn c' ∧ c'.connection.isSome = true)
      (fun e c' => c.LeadsOn c' ∧ e.Fatal) := by
  refine ends_onLink_leadsOn (fun l => (ends_asking command l).mono ?_ ?_) c
  · rintro lines l' ⟨before, hl, -⟩
    exact ⟨_, hl⟩
  · rintro h l' ⟨es, hl, -, hd⟩
    exact ⟨⟨es, hl⟩, hd.fatal⟩

theorem connects_exchange (command : Command) : Connects (exchange command) := by
  intro c
  apply (ends_exchange_leadsOn command c).mono
  · rintro lines c' ⟨hleads, hopen⟩
    obtain ⟨es, hes, -⟩ := hleads.works
    exact ⟨⟨es, hes⟩, hopen⟩
  · rintro h c' ⟨hleads, hfatal⟩
    obtain ⟨es, hes, -⟩ := hleads.works
    exact ⟨⟨es, hes⟩, hfatal⟩

/-- Asking for a connection gives one with a number of its own. -/
theorem dial_facts (net : Network) (host : String) (port : Nat) :
    (net.dial host port).1.number = net.dialled ∧
      (net.dial host port).2.journal = .dialled host port :: net.journal ∧
      (net.dial host port).2.now = net.now ∧ (net.dial host port).2.signals = net.signals ∧
      (net.dial host port).2.dialled = net.dialled + 1 := by
  unfold Network.dial
  cases net.sockets with
  | nil => exact ⟨rfl, rfl, rfl, rfl, rfl⟩
  | cons s rest => exact ⟨rfl, rfl, rfl, rfl, rfl⟩

/-- A connection is asked for and waited for. -/
theorem works_of_dial {host : String} {port : Nat} {net : Network}
    (h : (c.net.dial host port).2.Waits net es) (hes : ∀ e ∈ es, e = .interrupted) :
    c.Works { c with net } (.dialled host port :: es) := by
  obtain ⟨-, hjournal, hnow, hsignals, hdialled⟩ := dial_facts c.net host port
  refine ⟨⟨?_, ?_, fun t ht => h.fired t ?_, ?_, ?_, fun n hn => .inl hn⟩, rfl, fun hs => hs⟩
  · rw [h.journal, hjournal, List.reverse_cons, List.append_assoc]
    rfl
  · exact hnow ▸ h.now_le
  · unfold Network.isFired at ht ⊢
    rwa [hsignals]
  · rw [h.dialled, hdialled]
    exact Nat.le_succ _
  · intro e he n hu
    rcases List.mem_cons.mp he with rfl | he
    · exact hu.elim
    · rw [hes e he] at hu
      exact hu.elim

/-- A connection that was asked for is opened: it is the next one that the network hands out. -/
theorem works_of_open {host : String} {port : Nat} {net : Network}
    (h : (c.net.dial host port).2.Waits net []) :
    c.Works
      { c with
        connection := some (.ofSocket (c.net.dial host port).1 c.settings c.token)
        net := net.note (.opened c.net.dialled) }
      [.dialled host port, .opened c.net.dialled] := by
  obtain ⟨hnumber, -⟩ := dial_facts c.net host port
  have hdialled := works_of_dial h (by simp)
  refine ⟨⟨?_, hdialled.now_le, hdialled.fired, hdialled.dialled_le, by simp [Entry.Uses], ?_⟩,
    rfl, fun _ => rfl⟩
  · exact congrArg (_ :: ·) hdialled.journal
  · intro n hn
    have hsame : c.net.dialled = n := hnumber.symm.trans (Option.some.inj hn)
    have hlater : net.dialled = c.net.dialled + 1 :=
      h.dialled.trans (dial_facts c.net host port).2.2.2.2
    refine .inr ⟨Nat.le_of_eq hsame, ?_⟩
    rw [← hsame]
    exact hlater ▸ Nat.lt_succ_self _

/-- A connection is asked for and waited for, and then it is open, set up with what the client has,
or not. -/
theorem ends_openConnection (host : String) (port : Nat) (c : Client) :
    Ends (openConnection host port) c
      (fun _ c' => ∃ net, (c.net.dial host port).2.Waits net [] ∧
        c' = { c with
          connection := some (.ofSocket (c.net.dial host port).1 c.settings c.token)
          net := net.note (.opened c.net.dialled) })
      (fun e c' => ∃ net, (c.net.dial host port).2.Waits net e.trace ∧
        e.During .connect (fun _ => True) ∧ c' = { c with net }) := by
  obtain ⟨hnumber, -⟩ := dial_facts c.net host port
  have hw := Network.waits_bounded (c.net.dial host port).2 c.token c.settings.timeout 0
    (c.net.dial host port).1.opening
  unfold Ends openConnection
  dsimp only
  generalize (c.net.dial host port).2.bounded c.token c.settings.timeout 0
    (c.net.dial host port).1.opening = r at hw ⊢
  cases hc : Link.conclude { c with net := r.2.2 } r.1 with
  | error e c' =>
    obtain ⟨rfl, ht, hd⟩ := Link.conclude_eq_error hc
    rw [← ht] at hw
    exact ⟨r.2.2, hw, (hd .connect).mono (by simp), rfl⟩
  | ok o c' =>
    obtain ⟨-, rfl⟩ := Link.conclude_eq_ok hc
    rw [Link.trace_of_conclude_eq_ok hc] at hw
    cases o with
    | none => exact ⟨r.2.2, hw, ⟨rfl, trivial⟩, rfl⟩
    | some bs => exact ⟨r.2.2, hw, by rw [hnumber]⟩

theorem connects_openConnection (host : String) (port : Nat) :
    Connects (openConnection host port) := by
  intro c
  apply (ends_openConnection host port c).mono
  · rintro _ c' ⟨net, hw, rfl⟩
    exact ⟨⟨_, works_of_open hw⟩, rfl⟩
  · rintro e c' ⟨net, hw, hd, rfl⟩
    exact ⟨⟨_, works_of_dial hw e.eq_of_mem_trace⟩, hd.fatal⟩

/-! ## All of the work -/

section

variable {α β : Type} {gives : List (Option Script) → Prop} {first : Watched.OnClient β}
  {w : Watched.OnClient α}

/-- All that work on the connection that there is does is to lead on. -/
theorem ends_of_drives (h : Watched.Drives gives w) (c : Client) :
    Ends w.run c (fun _ c' => c.LeadsOn c') (fun e c' => c.LeadsOn c' ∧ e.Fatal) := by
  induction h generalizing c with
  | pure a => exact LeadsOn.idle
  | refuse hrefuses => exact ⟨LeadsOn.idle, (Fault.facts_of_refuses hrefuses).1⟩
  | exchange command => exact (ends_exchange_leadsOn command c).mono (fun _ _ hc => hc.1) fun _ _ hc => hc
  | greeting =>
    refine (ends_onLink_leadsOn (fun l => (Link.ends_readReply .reply l).mono ?_ ?_) c).mono
      (fun _ _ hc => hc.1) fun _ _ hc => hc
    · rintro lines l' ⟨chunks, hl⟩
      exact ⟨_, hl⟩
    · rintro h l' ⟨⟨chunks, hl⟩, hd⟩
      exact ⟨⟨_, hl⟩, hd.fatal⟩
  | @deliver sources _ =>
    refine (ends_onLink_leadsOn (fun l => ?_) c).mono (fun _ _ hc => hc.1) fun _ _ hc => hc
    rw [Watched.run_bind, Watched.run_writeBody]
    refine ends_bind.mpr ((Link.ends_writeBody sources l).mono ?_ ?_)
    · rintro sent mid ⟨-, reads, -, es, hmid, -, -⟩
      refine ends_bind.mpr ((Link.ends_readReply .dataReply mid).mono ?_ ?_)
      · rintro lines l' ⟨chunks, hl⟩
        exact ⟨_, hmid.trans hl⟩
      · rintro h l' ⟨⟨chunks, hl⟩, hd⟩
        exact ⟨⟨_, hmid.trans hl⟩, hd.fatal⟩
    · rintro h l' ⟨reads, wire, -, ⟨es, hl, -, -⟩, hd⟩
      exact ⟨⟨es, hl⟩, hd.fatal⟩
  | bind _ _ ih ihnext =>
    refine ends_bind.mpr ((ih c).mono ?_ fun _ _ hc => hc)
    intro a mid hmid
    exact (ihnext a mid).mono (fun _ _ hlater => hmid.trans hlater)
      fun _ _ hlater => ⟨hmid.trans hlater.1, hlater.2⟩

theorem worksOnly_of_drives (h : Watched.Drives gives w) : WorksOnly w.run := by
  intro c
  apply (ends_of_drives h c).mono
  · intro a c' hleads
    obtain ⟨es, hes, -⟩ := hleads.works
    exact ⟨es, hes⟩
  · rintro e c' ⟨hleads, hfatal⟩
    obtain ⟨es, hes, -⟩ := hleads.works
    exact ⟨⟨es, hes⟩, hfatal⟩

theorem connects_of_beginsWith (h : Watched.BeginsWith gives first w) (hfirst : Connects first.run) :
    Connects w.run := by
  obtain ⟨next, rfl, hnext⟩ := h
  exact hfirst.bind fun b => worksOnly_of_drives (hnext b)

end

theorem connects_greet (host : String) (port : Nat) : Connects (greet host port) :=
  Watched.run_greet host port ▸ connects_of_beginsWith
    (Watched.begins_greet host port : Watched.BeginsWith (fun _ => True) _ _)
    (connects_openConnection host port)

theorem connects_askReset : Connects askReset :=
  Watched.run_askReset ▸ connects_of_beginsWith
    (Watched.begins_askReset : Watched.BeginsWith (fun _ => True) _ _) (connects_exchange .rset)

theorem connects_handOver (sources : List (Option Script)) : Connects (handOver sources) :=
  Watched.run_handOver sources ▸ connects_of_beginsWith (Watched.begins_handOver rfl)
    (connects_exchange .data)

/-! ## Letting go -/

/-- What is noted when the client lets go of its connection. -/
def release (c : Client) : List Entry := (c.held.map .released).toList

/-- Letting go of a connection does nothing to the network but that it is noted. -/
theorem releasedNet_eq (c : Client) :
    c.releasedNet = { c.net with journal := c.release.reverse ++ c.net.journal } := by
  unfold releasedNet release held
  cases c.connection with
  | none => rfl
  | some conn => rfl

/-- Letting go is noted behind what happened. -/
theorem journal_released {before : List Entry} {net : Network} (hnet : net = c.releasedNet)
    (h : c.net.journal = es.reverse ++ before) :
    net.journal = (es ++ c.release).reverse ++ before := by
  rw [hnet, releasedNet_eq, List.reverse_append, List.append_assoc, ← h]

/-- The client without its connection. -/
theorem moves_release (c : Client) (hnone : later.connection = none)
    (hnet : later.net = c.releasedNet) : c.Moves later c.release where
  journal := by rw [hnet, releasedNet_eq]
  now_le := Nat.le_of_eq (by rw [hnet, releasedNet_eq])
  fired t ht := by rwa [hnet, releasedNet_eq]
  dialled_le := Nat.le_of_eq (by rw [hnet, releasedNet_eq])
  own e he n hu := by
    obtain ⟨m, -, rfl⟩ : ∃ m, c.held = some m ∧ Entry.released m = e := by
      simpa [release] using he
    exact hu.elim
  held n hn := by
    rw [held, hnone] at hn
    cases hn

/-! ## Calls that are settled -/

/-- The client that a halt leaves, having been at work as `c`: a failure lets go of the
connection, and a dropped call leaves its mark. -/
def halted (c : Client) : Halt Fault → Client
  | .failed _ => c.abandon
  | .abandoned => { c with inFlight := true }

/-- A dropped call before it is cleared up first, and then the state decides. -/
theorem enter_apply (operation : String) (allowed : SessionState → Bool) (c : Client) :
    enter operation allowed c =
      if allowed c.cleared.state = true then .ok () c.cleared
      else .error (.failed (.invalidState operation c.cleared.state)) c.cleared := by
  have h : enter operation allowed c = (if allowed c.cleared.state = true then pure ()
      else Run.fail (.invalidState operation c.cleared.state) : Run Fault Client Unit) c.cleared :=
    rfl
  rw [h]
  split
  · rfl
  · rfl

theorem ends_enter_iff {operation : String} {allowed : SessionState → Bool} {c : Client}
    {ok : Unit → Client → Prop} {halt : Halt Fault → Client → Prop} :
    Ends (enter operation allowed) c ok halt ↔ if allowed c.cleared.state then ok () c.cleared
      else halt (.failed (.invalidState operation c.cleared.state)) c.cleared := by
  unfold Ends
  rw [enter_apply]
  cases allowed c.cleared.state with
  | true => exact Iff.rfl
  | false => exact Iff.rfl

theorem ends_enter {operation : String} {allowed : SessionState → Bool} {c : Client}
    {ok : Unit → Client → Prop} {halt : Halt Fault → Client → Prop} (hidle : c.inFlight = false)
    (hallowed : allowed c.state = true) : Ends (enter operation allowed) c ok halt ↔ ok () c := by
  rw [ends_enter_iff, cleared_of_idle hidle, if_pos hallowed]

theorem ends_settled {α : Type} {act : Run Fault Client α} {c : Client}
    {ok : α → Client → Prop} {halt : Halt Fault → Client → Prop}
    (h : Ends act { c with inFlight := true } (fun a c' => ok a { c' with inFlight := false })
      fun e c' => e.Fatal ∧ c'.inFlight = true ∧ halt e (c'.halted e)) :
    Ends (settled act) c ok halt := by
  simp only [settled, marked, ends_bind, ends_modify, ends_attempt]
  refine h.mono (fun a c' hok => hok) ?_
  rintro e c' ⟨hfatal, hmark, hhalt⟩
  cases e with
  | failed fault =>
    have hfault : fault.isFatal = true := hfatal
    simp only [ends_pure, hfault, if_true]
    exact hhalt
  | abandoned =>
    have hsame : c'.halted .abandoned = c' := by
      cases c'
      cases hmark
      rfl
    rwa [hsame] at hhalt

/-- Work is the same with and without the mark. -/
theorem Works.unmarked (h : Works { c with inFlight := true } mid es) (hidle : c.inFlight = false) :
    c.Works { mid with inFlight := false } es := by
  refine ⟨⟨h.journal, h.now_le, h.fired, h.dialled_le, h.own, h.held⟩, ?_, h.stays⟩
  rw [h.same]
  cases c
  cases hidle
  rfl

/-- Work that is settled leaves the bookkeeping as it was, unless it comes to a halt. -/
theorem Connects.ends_settled {α : Type} {act : Run Fault Client α} (h : Connects act)
    (hidle : c.inFlight = false) :
    Ends (settled act) c (fun _ c' => (∃ es, c.Works c' es) ∧ c'.connection.isSome = true)
      fun e c' => e.Fatal ∧ ∃ mid es, c.Works mid es ∧ c' = mid.halted e := by
  refine Client.ends_settled ((h { c with inFlight := true }).mono ?_ ?_)
  · intro a mid hmid
    obtain ⟨⟨es, hes⟩, hopen⟩ := hmid
    exact ⟨⟨es, hes.unmarked hidle⟩, hopen⟩
  · intro e mid hmid
    obtain ⟨⟨es, hes⟩, hfatal⟩ := hmid
    refine ⟨hfatal, by rw [hes.same], hfatal, _, es, hes.unmarked hidle, ?_⟩
    cases e with
    | failed fault => rfl
    | abandoned => rfl

end Client

end MailSubmission
