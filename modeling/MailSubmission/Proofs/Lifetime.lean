import MailSubmission.Proofs.Operations

set_option autoImplicit false

/-!
# The life of a client

A client is called again and again, and any call may come to a halt.  Between calls the
world goes on: time passes, signals fire, servers send and close.  `Client.Runs` takes all
of that together.

The connections that were asked for are numbered in order, so what has been broken can be
said by a bound: once a call has broken the connection, no connection below the number then
reached is ever in reach again (`Client.Spent`).
-/

namespace MailSubmission

open Run Client

/-! ## Calls -/

/-- A call on a client. -/
inductive Call where
  | operation (op : Operation)
  | configure (settings : ClientSettings) (token : Token)
  | disconnect
  deriving DecidableEq, Repr, Inhabited

/-- Carry out the call.  What an operation returns is for its caller alone. -/
def Call.carryOut : Call → Run Fault Client Unit
  | operation op => do let _ ← op.carryOut
  | configure settings token => Client.configure settings token
  | disconnect => modify Client.disconnect

/-- The client that the call leaves, however it ends. -/
def Call.after (call : Call) (c : Client) : Client :=
  match call.carryOut c with
  | .ok _ later => later
  | .error _ later => later

theorem Call.after_of_ok {call : Call} {c later : Client} (hr : call.carryOut c = .ok () later) :
    call.after c = later := by
  unfold after
  rw [hr]

theorem Call.after_of_error {call : Call} {c later : Client} {e : Halt Fault}
    (hr : call.carryOut c = .error e later) : call.after c = later := by
  unfold after
  rw [hr]

namespace Client

theorem idle_cleared (c : Client) : c.cleared.inFlight = false := by
  unfold cleared
  split
  · rfl
  · exact Bool.eq_false_iff.mpr ‹_›

theorem cleared_cleared (c : Client) : c.cleared.cleared = c.cleared :=
  cleared_of_idle c.idle_cleared

theorem held_cleared (c : Client) : c.cleared.held = if c.inFlight then none else c.held := by
  unfold cleared
  split
  · rfl
  · rfl

theorem dialled_cleared (c : Client) : c.cleared.net.dialled = c.net.dialled := by
  unfold cleared
  split
  · rw [abandon, releasedNet_eq]
  · rfl

/-- What is cleared up for a call: the connection of one that was dropped. -/
theorem moves_cleared (c : Client) : ∃ es, c.Moves c.cleared es ∧ ∀ e ∈ es, ∃ n, e = .released n := by
  unfold cleared
  split
  · refine ⟨c.release, moves_release c rfl rfl, ?_⟩
    intro e he
    obtain ⟨n, -, rfl⟩ : ∃ n, c.held = some n ∧ Entry.released n = e := by
      simpa [release] using he
    exact ⟨n, rfl⟩
  · exact ⟨[], .refl c, by simp⟩

end Client

/-- Every call begins by clearing up after a call dropped before it. -/
theorem Operation.carryOut_cleared (op : Operation) (c : Client) :
    op.carryOut c.cleared = op.carryOut c := by
  have henter : enter op.name op.allows c.cleared = enter op.name op.allows c := by
    rw [enter_apply, enter_apply, cleared_cleared]
  cases op <;> exact bind_congr_state (bind_congr_state henter)

theorem Call.carryOut_cleared (call : Call) (c : Client) :
    call.carryOut c.cleared = call.carryOut c := by
  cases call with
  | operation op => exact bind_congr_state (op.carryOut_cleared c)
  | configure settings token =>
    have henter : enter "configure" (fun s => !s.isLive) c.cleared =
        enter "configure" (fun s => !s.isLive) c := by
      rw [enter_apply, enter_apply, cleared_cleared]
    exact bind_congr_state henter
  | disconnect =>
    unfold cleared
    split
    · rfl
    · rfl

/-- Whatever holds however a call ends on the client cleared up, holds of the client that it
leaves. -/
theorem Call.after_of_ends {call : Call} {c : Client} {p : Client → Prop}
    (h : Ends call.carryOut c.cleared (fun _ c' => p c') fun _ c' => p c') : p (call.after c) := by
  unfold Ends at h
  rw [call.carryOut_cleared] at h
  unfold after
  cases hr : call.carryOut c with
  | ok u later =>
    rw [hr] at h
    exact h
  | error e later =>
    rw [hr] at h
    exact h

namespace Client

/-- `later` is what a call that came to a halt as `e` has left of `c`. -/
structure Halts (c later : Client) (e : Halt Fault) : Prop where
  moves : ∃ es, c.Moves later es
  loose : e.Fatal → later.cleared.held = none
  mark : e = .abandoned → later.inFlight = true
  isOpen : (c.state.isLive = true → c.connection.isSome = true) →
    later.state.isLive = true → later.connection.isSome = true

/-- A call that is refused does nothing. -/
theorem halts_refused (c : Client) (operation : String) (state : SessionState) :
    c.Halts c (.failed (.invalidState operation state)) where
  moves := ⟨[], .refl c⟩
  loose hfatal := by cases hfatal
  mark h := by cases h
  isOpen h := h

theorem Works.halts {c mid : Client} {es : List Entry} (h : c.Works mid es) (op : Operation)
    (e : Halt Fault) : c.Halts (op.halted mid e) e := by
  cases e with
  | failed fault =>
    obtain ⟨hnone, hnet, hstate⟩ := op.halted_failed mid fault
    refine ⟨⟨_, h.toMoves.trans (moves_release mid hnone hnet)⟩, ?_, ?_, ?_⟩
    · intro _
      rw [held_cleared, held, hnone]
      split <;> rfl
    · intro hmark
      cases hmark
    · intro _ hlive
      rw [hstate] at hlive
      split at hlive
      · cases hlive
      · cases hlive
  | abandoned =>
    rw [op.halted_abandoned]
    refine ⟨⟨es, h.toMoves.congr rfl rfl⟩, fun _ => rfl, fun _ => rfl, ?_⟩
    intro hopen hlive
    have hstate : c.state.isLive = true := h.state_eq ▸ hlive
    exact h.stays (hopen hstate)

end Client

/-- Whatever the call and whatever happens: it returns and leaves a client at rest, or it
comes to a halt. -/
theorem Call.ends_carryOut (call : Call) {c : Client} (hidle : c.inFlight = false) :
    Ends call.carryOut c (fun _ c' => c.Rests c') fun e c' => c.Halts c' e := by
  cases call with
  | operation op =>
    refine ends_bind.mpr ?_
    cases hallowed : op.allows c.state with
    | false =>
      have hr := op.carryOut_of_not_allows c
      rw [cleared_of_idle hidle] at hr
      unfold Ends
      rw [hr hallowed]
      exact c.halts_refused _ _
    | true =>
      apply (Operation.ends_carryOut hidle hallowed).mono
      · intro answer c' hok
        exact hok.2
      · intro e c' hhalt
        obtain ⟨-, mid, es, hes, rfl⟩ := hhalt
        exact hes.halts op e
  | configure settings token =>
    refine ends_bind.mpr ?_
    unfold Ends
    rw [enter_apply, cleared_of_idle hidle]
    cases hlive : c.state.isLive with
    | true => exact c.halts_refused _ _
    | false =>
      refine ⟨hidle, fun h => ?_, ⟨[], (Moves.refl c).congr rfl rfl⟩⟩
      exact absurd (hlive.symm.trans h) (by decide)
  | disconnect => exact (Moves.refl c).rests_disconnect

theorem Call.rests_of_ok {call : Call} {c later : Client} (hr : call.carryOut c = .ok () later) :
    c.cleared.Rests later := by
  rw [← call.carryOut_cleared] at hr
  exact (call.ends_carryOut c.idle_cleared).of_ok hr

theorem Call.halts_of_error {call : Call} {c later : Client} {e : Halt Fault}
    (hr : call.carryOut c = .error e later) : c.cleared.Halts later e := by
  rw [← call.carryOut_cleared] at hr
  exact (call.ends_carryOut c.idle_cleared).of_error hr

/-- What a call leaves is a client at rest, or one on which it came to a halt. -/
theorem Call.after_cases (call : Call) (c : Client) :
    c.cleared.Rests (call.after c) ∨ ∃ e, c.cleared.Halts (call.after c) e := by
  unfold after
  cases hr : call.carryOut c with
  | ok u later => exact .inl (rests_of_ok hr)
  | error e later => exact .inr ⟨e, halts_of_error hr⟩

theorem Call.moves_after (call : Call) (c : Client) : ∃ es, c.cleared.Moves (call.after c) es := by
  rcases call.after_cases c with hrests | ⟨e, hhalts⟩
  · exact hrests.moves
  · exact hhalts.moves

namespace Client

/-! ## Runs -/

/-- What may change while no call is under way: anything in the network but what has happened
in it, and anything about the connection but which one it is. -/
structure Meanwhile (c later : Client) : Prop where
  same : later = { c with connection := later.connection, net := later.net }
  held : later.held = c.held
  journal : later.net.journal = c.net.journal
  dialled : later.net.dialled = c.net.dialled
  now_le : c.net.now ≤ later.net.now
  fired : ∀ t, c.net.isFired t = true → later.net.isFired t = true

/-- `later` is the client after calls made one after another. -/
inductive Runs : Client → List Call → Client → Prop where
  | nil (c : Client) : Runs c [] c
  | meanwhile {c mid later : Client} {calls : List Call} (wait : c.Meanwhile mid)
      (rest : Runs mid calls later) : Runs c calls later
  | call {c later : Client} {call : Call} {calls : List Call}
      (rest : Runs (call.after c) calls later) : Runs c (call :: calls) later

variable {c mid later : Client} {call : Call} {calls : List Call}

/-- Any calls can be made, one straight after another. -/
theorem runs_foldl (calls : List Call) (c : Client) :
    Runs c calls (calls.foldl (fun c call => call.after c) c) := by
  induction calls generalizing c with
  | nil => exact .nil c
  | cons call rest ih => exact .call (ih (call.after c))

theorem Meanwhile.moves (h : c.Meanwhile later) : c.Moves later [] where
  journal := h.journal
  now_le := h.now_le
  fired := h.fired
  dialled_le := Nat.le_of_eq h.dialled.symm
  own _ he := absurd he List.not_mem_nil
  held _ hn := .inl (h.held ▸ hn)

theorem Meanwhile.held_cleared (h : c.Meanwhile later) : later.cleared.held = c.cleared.held := by
  have hmark : later.inFlight = c.inFlight := by rw [h.same]
  rw [Client.held_cleared, Client.held_cleared, hmark, h.held]

/-! ## What every client keeps -/

/-- The connection that a client holds is one that it asked for, and a session that is live
has one. -/
structure Sound (c : Client) : Prop where
  numbered : ∀ n, c.held = some n → n < c.net.dialled
  isOpen : c.state.isLive = true → c.connection.isSome = true

theorem sound_new (id : Nat) (settings : ClientSettings) (token : Token) (net : Network) :
    (Client.new id settings token net).Sound where
  numbered n hn := by cases hn
  isOpen hlive := by cases hlive

/-- What a sound client had by the end of a call, it asked for by then. -/
theorem Sound.had {es : List Entry} {n : Nat} (h : c.Sound) (hm : c.Moves later es)
    (hn : c.Had later n) : n < later.net.dialled := by
  rcases hn with hn | hn
  · exact Nat.lt_of_lt_of_le (h.numbered n hn) hm.dialled_le
  · exact hn.2

theorem Sound.cleared (h : c.Sound) : c.cleared.Sound := by
  unfold Client.cleared
  split
  · refine ⟨fun _ hn => ?_, fun hlive => ?_⟩
    · cases hn
    · cases hlive
  · exact h

theorem Sound.meanwhile (h : c.Sound) (hw : c.Meanwhile later) : later.Sound where
  numbered n hn := by
    rw [hw.dialled]
    exact h.numbered n (hw.held ▸ hn)
  isOpen hlive := by
    have hstate : later.state = c.state := by rw [hw.same]
    have hsome : later.held.isSome = c.held.isSome := by rw [hw.held]
    unfold held at hsome
    rw [Option.isSome_map, Option.isSome_map] at hsome
    rw [hsome]
    exact h.isOpen (hstate ▸ hlive)

theorem Sound.after (h : c.Sound) (call : Call) : (call.after c).Sound where
  numbered n hn := by
    obtain ⟨es, hes⟩ := call.moves_after c
    exact h.cleared.had hes (hes.held n hn)
  isOpen := by
    rcases call.after_cases c with hrests | ⟨e, hhalts⟩
    · exact hrests.isOpen
    · exact hhalts.isOpen h.cleared.isOpen

theorem Sound.runs (h : c.Sound) (hr : Runs c calls later) : later.Sound := by
  induction hr with
  | nil => exact h
  | meanwhile wait _ ih => exact ih (h.meanwhile wait)
  | call _ ih => exact ih (h.after _)

/-! ## Connections that are out of reach -/

/-- No connection with a number below the bound is in reach of the client. -/
structure Spent (bound : Nat) (c : Client) : Prop where
  le : bound ≤ c.net.dialled
  beyond : ∀ n, c.cleared.held = some n → bound ≤ n

/-- What a call uses is in reach, and what it leaves in reach was so or was asked for by it. -/
theorem Spent.after {bound : Nat} (h : Spent bound c) (call : Call) :
    Spent bound (call.after c) ∧
      ∃ es, c.Moves (call.after c) es ∧ ∀ e ∈ es, ∀ n, e.Uses n → bound ≤ n := by
  obtain ⟨fs, hfs, hreleased⟩ := c.moves_cleared
  obtain ⟨es, hes⟩ := call.moves_after c
  have hbound : ∀ n, c.cleared.Had (call.after c) n → bound ≤ n := by
    intro n hn
    rcases hn with hn | hn
    · exact h.beyond n hn
    · exact Nat.le_trans h.le (Nat.le_trans hfs.dialled_le hn.1)
  refine ⟨⟨Nat.le_trans h.le (hfs.trans hes).dialled_le, ?_⟩, fs ++ es, hfs.trans hes, ?_⟩
  · intro n hn
    rw [held_cleared] at hn
    split at hn
    · cases hn
    · exact hbound n (hes.held n hn)
  · intro e he n hu
    rcases List.mem_append.mp he with he | he
    · obtain ⟨m, rfl⟩ := hreleased e he
      exact hu.elim
    · exact hbound n (hes.own e he n hu)

/-- A connection that is out of reach stays unused, whatever calls are made. -/
theorem Spent.runs {bound : Nat} (h : Spent bound c) (hr : Runs c calls later) :
    ∃ es, c.Moves later es ∧ ∀ e ∈ es, ∀ n, e.Uses n → bound ≤ n := by
  induction hr with
  | nil c => exact ⟨[], .refl c, by simp⟩
  | meanwhile wait _ ih =>
    have hspent : Spent bound _ := ⟨wait.dialled ▸ h.le, wait.held_cleared ▸ h.beyond⟩
    obtain ⟨es, hes, hbound⟩ := ih hspent
    exact ⟨[] ++ es, wait.moves.trans hes, hbound⟩
  | call _ ih =>
    obtain ⟨hspent, fs, hfs, hbound⟩ := h.after _
    obtain ⟨es, hes, hbound'⟩ := ih hspent
    refine ⟨fs ++ es, hfs.trans hes, ?_⟩
    intro e he n hu
    rcases List.mem_append.mp he with he | he
    · exact hbound e he n hu
    · exact hbound' e he n hu

theorem Spent.unused {bound n : Nat} (h : Spent bound c) (hn : n < bound)
    (hr : Runs c calls later) : ∃ es : List Entry,
      later.net.journal = es.reverse ++ c.net.journal ∧ ∀ e ∈ es, ¬ e.Uses n := by
  obtain ⟨es, hes, hbeyond⟩ := h.runs hr
  refine ⟨es, hes.journal, fun e he hu => ?_⟩
  exact Nat.lt_irrefl n (Nat.lt_of_lt_of_le hn (hbeyond e he n hu))

/-- A call that breaks the connection puts every connection so far out of reach. -/
theorem spent_of_fatal {e : Halt Fault} (hr : call.carryOut c = .error e later)
    (hfatal : e.Fatal) : Spent later.net.dialled later := by
  refine ⟨Nat.le_refl _, fun n hn => ?_⟩
  rw [(Call.halts_of_error hr).loose hfatal] at hn
  cases hn

/-! ## Bad clients -/

/-- The client is bad, or the next call will find a dropped one and make it so. -/
def IsBad (c : Client) : Prop := c.state = .bad ∨ c.inFlight = true

theorem isBad_iff (c : Client) : c.IsBad ↔ c.cleared.state = .bad := by
  unfold IsBad cleared
  split
  · simp [abandon, *]
  · simp [*]

/-- Nothing can be done with a bad client. -/
theorem IsBad.carryOut (h : c.IsBad) (op : Operation) :
    op.carryOut c = .error (.failed (.invalidState op.name .bad)) c.cleared := by
  have hbad := (isBad_iff c).mp h
  have hnot : op.allows c.cleared.state = false := by
    rw [hbad]
    cases op <;> rfl
  rw [op.carryOut_of_not_allows c hnot, hbad]

/-- No call but one that disconnects changes anything in the network for a bad client. -/
theorem IsBad.after (h : c.IsBad) (hcall : call ≠ .disconnect) :
    (call.after c).IsBad ∧ (call.after c).net = c.cleared.net := by
  have hbad := (isBad_iff c).mp h
  cases call with
  | operation op =>
    have hr : (Call.operation op).carryOut c =
        .error (.failed (.invalidState op.name .bad)) c.cleared := bind_of_error (h.carryOut op)
    rw [Call.after_of_error hr]
    exact ⟨.inl hbad, rfl⟩
  | configure settings token =>
    have henter : enter "configure" (fun s => !s.isLive) c = .ok () c.cleared := by
      rw [enter_apply, hbad]
      rfl
    have hr : (Call.configure settings token).carryOut c = .ok () { c.cleared with
        name := nameFor settings.name c.cleared.id, settings, token } := bind_of_ok henter
    unfold Call.after
    rw [hr]
    exact ⟨.inl hbad, rfl⟩
  | disconnect => exact absurd rfl hcall

theorem IsBad.meanwhile (h : c.IsBad) (hw : c.Meanwhile later) : later.IsBad := by
  have hstate : later.state = c.state := by rw [hw.same]
  have hmark : later.inFlight = c.inFlight := by rw [hw.same]
  unfold IsBad
  rw [hstate, hmark]
  exact h

/-- Unless it is told to disconnect, a bad client stays bad, and nothing happens but that it
lets go of a connection. -/
theorem IsBad.runs (h : c.IsBad) (hr : Runs c calls later) (hcalls : .disconnect ∉ calls) :
    later.IsBad ∧ later.net.dialled = c.net.dialled ∧
      ∃ es : List Entry, later.net.journal = es.reverse ++ c.net.journal ∧
        ∀ e ∈ es, ∃ n, e = .released n := by
  induction hr with
  | nil c => exact ⟨h, rfl, [], rfl, by simp⟩
  | meanwhile wait _ ih =>
    obtain ⟨hbad, hdialled, es, hes, hreleased⟩ := ih (h.meanwhile wait) hcalls
    refine ⟨hbad, hdialled.trans wait.dialled, es, ?_, hreleased⟩
    rw [hes, wait.journal]
  | @call c later call calls _ ih =>
    rw [List.mem_cons, not_or] at hcalls
    obtain ⟨hmid, hnet⟩ := h.after (Ne.symm hcalls.1)
    obtain ⟨hbad, hdialled, es, hes, hreleased⟩ := ih hmid hcalls.2
    obtain ⟨fs, hfs, hreleased'⟩ := c.moves_cleared
    refine ⟨hbad, ?_, fs ++ es, ?_, ?_⟩
    · rw [hdialled, hnet, dialled_cleared]
    · rw [hes, hnet, hfs.journal, List.reverse_append, List.append_assoc]
    · intro e he
      rcases List.mem_append.mp he with he | he
      · exact hreleased' e he
      · exact hreleased e he

/-! ## A broken connection is never used again -/

/-- For every client there can be.  A call that breaks the connection is the last to use any
connection that the client had in it.  A dropped call leaves its mark, and the call after it
goes as if the client had been made bad first, which does nothing to the network but let go
of the connection.  As long as a client is bad, every operation is refused and nothing is
asked for, sent or read, until the client is told to disconnect; then it is fresh. -/
theorem broken_connection_never_reused {id : Nat} {settings : ClientSettings} {token : Token}
    {net : Network} {earlier : List Call}
    (hc : Runs (Client.new id settings token net) earlier c) :
    (∀ (call : Call) (e : Halt Fault) (c' : Client), call.carryOut c = .error e c' → e.Fatal →
      (∃ es, c.Moves c' es) ∧
      ∀ (calls : List Call) (later : Client), Runs c' calls later →
        ∃ es : List Entry, later.net.journal = es.reverse ++ c'.net.journal ∧
          ∀ entry ∈ es, ∀ n, c.Had c' n → ¬ entry.Uses n) ∧
    (∀ (call : Call) (c' : Client), call.carryOut c = .error .abandoned c' →
      c'.inFlight = true) ∧
    (c.inFlight = true → c.abandon.state = .bad ∧
      c.abandon.net = { c.net with journal := c.release.reverse ++ c.net.journal } ∧
      ∀ call : Call, call.carryOut c = call.carryOut c.abandon) ∧
    (c.IsBad →
      (∀ op : Operation,
        op.carryOut c = .error (.failed (.invalidState op.name .bad)) c.cleared) ∧
      ∀ (calls : List Call) (later : Client), Runs c calls later → .disconnect ∉ calls →
        later.IsBad ∧ later.net.dialled = c.net.dialled ∧
          ∃ es : List Entry, later.net.journal = es.reverse ++ c.net.journal ∧
            ∀ entry ∈ es, ∃ n, entry = .released n) ∧
    ∃ c', Call.disconnect.carryOut c = .ok () c' ∧ c'.state = .fresh ∧ c'.connection = none := by
  have hsound := (sound_new id settings token net).runs hc
  refine ⟨?_, ?_, ?_, ?_, c.disconnect, rfl, rfl, rfl⟩
  · intro call e c' hr hfatal
    obtain ⟨fs, hfs, -⟩ := c.moves_cleared
    obtain ⟨gs, hgs⟩ := call.moves_after c
    rw [Call.after_of_error hr] at hgs
    have hcall : c.Moves c' (fs ++ gs) := hfs.trans hgs
    refine ⟨⟨_, hcall⟩, fun calls later hruns => ?_⟩
    obtain ⟨es, hes, hbeyond⟩ := (spent_of_fatal hr hfatal).runs hruns
    refine ⟨es, hes.journal, ?_⟩
    intro entry he n hhad hu
    have hlt : n < c'.net.dialled := hsound.had hcall hhad
    have hle : c'.net.dialled ≤ n := hbeyond entry he n hu
    exact Nat.lt_irrefl n (Nat.lt_of_lt_of_le hlt hle)
  · intro call c' hr
    exact (Call.halts_of_error hr).mark rfl
  · intro hmark
    refine ⟨rfl, c.releasedNet_eq, fun call => ?_⟩
    have hcleared : c.cleared = c.abandon := by
      unfold cleared
      rw [if_pos hmark]
    rw [← hcleared, call.carryOut_cleared]
  · intro hbad
    exact ⟨hbad.carryOut, fun calls later hruns hcalls => hbad.runs hruns hcalls⟩

/-- A call is dropped while its connection is still being opened. -/
theorem broken_connection_never_reused_half_open :
    let net : Network := { deadline := some 5, sockets := [{ opening := [.hang] }] }
    let call := Call.operation (.connect "mx" 25)
    ∃ c', call.carryOut (Client.new 1 {} {} net) = .error .abandoned c' ∧
      Runs (Client.new 1 {} {} net) [call] c' ∧ c'.inFlight = true ∧
      Operation.login.carryOut c' = .error (.failed (.invalidState "login" .bad)) c'.cleared ∧
      ∀ (calls : List Call) (later : Client), Runs c' calls later →
        ∃ es : List Entry, later.net.journal = es.reverse ++ c'.net.journal ∧
          ∀ entry ∈ es, ¬ entry.Uses 0 := by
  intro net call
  have hr : ∃ c', call.carryOut (Client.new 1 {} {} net) = .error .abandoned c' ∧
      c'.net.dialled = 1 := ⟨_, rfl, rfl⟩
  obtain ⟨c', hr, hdialled⟩ := hr
  have hruns : Runs (Client.new 1 {} {} net) [call] c' := by
    refine .call ?_
    rw [Call.after_of_error hr]
    exact .nil c'
  have hstart := broken_connection_never_reused (.nil (Client.new 1 {} {} net))
  have hmark : c'.inFlight = true := hstart.2.1 call c' hr
  have hbad := ((broken_connection_never_reused hruns).2.2.2.1 (.inr hmark)).1
  refine ⟨c', hr, hruns, hmark, hbad .login, ?_⟩
  intro calls later hlater
  obtain ⟨es, hes, hunused⟩ := (hstart.1 call .abandoned c' hr trivial).2 calls later hlater
  refine ⟨es, hes, fun entry he => hunused entry he 0 (.inr ⟨Nat.le_refl 0, ?_⟩)⟩
  rw [hdialled]
  exact Nat.one_pos

end Client

end MailSubmission
