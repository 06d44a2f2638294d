import MailSubmission.Proofs.Accounts

set_option autoImplicit false

/-!
# Interruptions

A wait that is cut off by the token is noted in the journal.  A call heeds that (`Run.Heeds`) if
it ends with a cancellation exactly when such a wait was noted in it.  Whatever is put together
from calls that heed interruptions heeds them too, unless it catches a failure.  So does everything
that a client is asked to do for a submission.
-/

namespace MailSubmission

/-- How many waits have been cut off by a cancellation. -/
def Network.interruptions (net : Network) : Nat := net.journal.count .interrupted

/-- How many cancellations a call ends with: one or none. -/
def Halt.cancellations : Halt Fault → Nat
  | .failed .cancelled => 1
  | _ => 0

theorem Halt.count_trace (h : Halt Fault) : h.trace.count .interrupted = h.cancellations := by
  cases h with
  | failed fault => cases fault <;> rfl
  | abandoned => rfl

namespace Run

variable {ε σ α β : Type} {interruptions : σ → Nat} {cancellations : Halt ε → Nat}

/-- Carried out on `s`, the call is interrupted as often as it ends with a cancellation. -/
def Heeds (interruptions : σ → Nat) (cancellations : Halt ε → Nat) (act : Run ε σ α) (s : σ) : Prop :=
  Ends act s (fun _ s' => interruptions s' = interruptions s)
    fun e s' => interruptions s' = interruptions s + cancellations e

variable {act : Run ε σ α} {next : α → Run ε σ β} {s : σ}

theorem heeds_pure (a : α) (s : σ) : Heeds interruptions cancellations (pure a) s := rfl

/-- Interruptions can be counted from an earlier state, if there was none since. -/
theorem Heeds.since {t : σ} (h : Heeds interruptions cancellations act s)
    (hsame : interruptions s = interruptions t) :
    Ends act s (fun _ s' => interruptions s' = interruptions t)
      fun e s' => interruptions s' = interruptions t + cancellations e :=
  Account.Keeps.since (A := .counting interruptions cancellations) h hsame

/-- A call that heeds interruptions can be followed by another. -/
theorem Heeds.bind (h : Heeds interruptions cancellations act s)
    (g : ∀ a s', Heeds interruptions cancellations (next a) s') :
    Heeds interruptions cancellations (act >>= next) s :=
  Account.Keeps.bind (A := .counting interruptions cancellations) h g

theorem heeds_get (s : σ) : Heeds interruptions cancellations get s := rfl

theorem heeds_modify {f : σ → σ} (h : interruptions (f s) = interruptions s) :
    Heeds interruptions cancellations (modify f) s := h

end Run

open Run

/-! ## On a link -/

namespace Network

variable {net later : Network} {es : List Entry}

/-- What happened while something was waited for. -/
theorem Waits.interruptions_eq (h : net.Waits later es) :
    later.interruptions = net.interruptions + es.count .interrupted := by
  unfold interruptions
  rw [h.journal, List.count_append, List.count_reverse, Nat.add_comm]

end Network

namespace Link

variable {α : Type}

/-- How many waits have been cut off by a cancellation. -/
def interruptions (l : Link) : Nat := l.net.interruptions

/-- The call heeds interruptions. -/
abbrev Heeds (act : Run Fault Link α) (l : Link) : Prop :=
  Run.Heeds interruptions Halt.cancellations act l

@[simp] theorem count_takings (n : Nat) (pieces : List (List UInt8)) :
    (Entry.takings n pieces).count .interrupted = 0 := by
  refine List.count_eq_zero.mpr fun he => ?_
  obtain ⟨bytes, hbytes⟩ := Entry.eq_sent_of_mem_takings he
  cases hbytes

@[simp] theorem count_received (n : Nat) (chunks : List (List UInt8)) :
    (chunks.map (Entry.received n)).count .interrupted = 0 :=
  List.count_eq_zero.mpr (by simp)

/-- It is enough to know what a call notes. -/
theorem heeds_of_leads {act : Run Fault Link α} {l : Link}
    (h : Ends act l (fun _ l' => ∃ es, l.Leads l' es ∧ es.count .interrupted = 0)
      fun e l' => ∃ es, l.Leads l' (es ++ e.trace) ∧ es.count .interrupted = 0) : Heeds act l := by
  apply h.mono
  · rintro a l' ⟨es, hl, hnone⟩
    rw [interruptions, hl.waits.interruptions_eq, hnone]
    rfl
  · rintro e l' ⟨es, hl, hnone⟩
    rw [interruptions, hl.waits.interruptions_eq, List.count_append, hnone, e.count_trace, Nat.zero_add]
    rfl

theorem heeds_writeAll (bytes : List UInt8) (phase : Phase) (sent : Nat) (l : Link) :
    Heeds (writeAll bytes phase sent) l := by
  refine heeds_of_leads ((ends_writeAll bytes phase sent l).mono ?_ ?_)
  · rintro _ l' ⟨pieces, -, hl⟩
    exact ⟨_, hl, count_takings _ _⟩
  · rintro e l' ⟨⟨pieces, -, hl⟩, -⟩
    exact ⟨_, hl, count_takings _ _⟩

theorem heeds_flush (phase : Phase) (sent : Nat) (l : Link) : Heeds (flush phase sent) l := by
  refine heeds_of_leads ((ends_flush phase sent l).mono ?_ ?_)
  · intro _ l' hl
    exact ⟨_, hl, rfl⟩
  · rintro e l' ⟨hl, -⟩
    exact ⟨[], hl, rfl⟩

theorem heeds_readReply (phase : Phase) (l : Link) : Heeds (readReply phase) l := by
  refine heeds_of_leads ((ends_readReply phase l).mono ?_ ?_)
  · rintro lines l' ⟨chunks, hl⟩
    refine ⟨_, hl, ?_⟩
    rw [List.count_append, count_received]
    rfl
  · rintro e l' ⟨⟨chunks, hl⟩, -⟩
    exact ⟨_, hl, count_received _ _⟩

theorem heeds_writeLine (bytes : List UInt8) (l : Link) : Heeds (writeLine bytes) l :=
  (heeds_writeAll bytes .reply 0 l).bind fun _ l' => heeds_flush .reply bytes.length l'

/-- Reading a source is cut off as the arrival says. -/
theorem interruptions_feed (l : Link) (source : Script) :
    (feed source l).2.2.interruptions =
      l.net.interruptions + (feed source l).1.trace.count .interrupted :=
  (Network.waits_bounded l.net l.connection.token l.connection.timeout bodyRoom
    source).interruptions_eq

/-- Octets that arrived were not cut off. -/
theorem interruptions_fed {l : Link} {source : Script} {bytes : List UInt8}
    (h : (feed source l).1 = .ready bytes) :
    (Link.note { l with net := (feed source l).2.2 } (.fed bytes)).interruptions = l.interruptions := by
  have hfeed := interruptions_feed l source
  rw [h] at hfeed
  exact hfeed

theorem heeds_writeSource (sent : Nat) (p : Body.Position) (source : Script) (l : Link) :
    Heeds (writeSource sent p source) l := by
  unfold Heeds Run.Heeds Ends
  fun_induction writeSource sent p source l with
  | case1 sent p source l fed hfed => exact interruptions_fed hfed
  | case2 sent p source l fed b bs hfed out halt later hw =>
    have hout := (heeds_writeAll out .body sent _).of_error hw
    rwa [interruptions_fed hfed] at hout
  | case3 sent p source l fed b bs hfed out later hw ih =>
    have hout := (heeds_writeAll out .body sent _).of_ok hw
    rw [interruptions_fed hfed] at hout
    have hrest : Heeds (writeSource _ _ _) later := ih
    exact hrest.since hout
  | case4 sent p source l fed o later hn hn' hc =>
    obtain ⟨-, rfl⟩ := conclude_eq_ok hc
    have hfeed := interruptions_feed l source
    rwa [trace_of_conclude_eq_ok hc] at hfeed
  | case5 sent p source l fed halt later hn hn' hc =>
    obtain ⟨rfl, htrace, -⟩ := conclude_eq_error hc
    have hfeed := interruptions_feed l source
    rwa [← htrace, halt.count_trace] at hfeed

theorem heeds_writeSources (sent : Nat) (p : Body.Position) (sources : List Script) (l : Link) :
    Heeds (writeSources sent p sources) l := by
  induction sources generalizing sent p l with
  | nil => exact heeds_pure sent l
  | cons source rest ih =>
    rw [writeSources]
    exact (heeds_writeSource sent p source l).bind fun r l' => ih r.1 r.2 l'

theorem heeds_writeBody (sources : List (Option Script)) (l : Link) : Heeds (writeBody sources) l :=
  (heeds_writeSources 0 .lineStart (sources.filterMap id) l).bind fun sent l' =>
    (heeds_writeAll Body.terminator .body sent l').bind fun _ l'' =>
      (heeds_flush .body _ l'').bind fun _ l''' => heeds_pure _ l'''

end Link

/-! ## On a client -/

namespace Network

/-- The network is interrupted as often as a call on it ends with a cancellation. -/
def heeding : Account Fault Network := .counting interruptions Halt.cancellations

theorem covers_heeding : heeding.Covers where
  released _ _ := rfl
  issued _ _ _ := rfl
  failed {fault} h _ := by
    cases fault <;> first | rfl | cases h
  writeLine bytes l := Link.heeds_writeLine bytes l
  readReply phase l := Link.heeds_readReply phase l
  writeBody sources l := Link.heeds_writeBody sources l

end Network

namespace Client

variable {α : Type}

/-- How many waits have been cut off by a cancellation. -/
def interruptions (c : Client) : Nat := c.net.interruptions

/-- The call heeds interruptions. -/
abbrev Heeds (act : Run Fault Client α) (c : Client) : Prop :=
  Run.Heeds interruptions Halt.cancellations act c

theorem interruptions_releasedNet (c : Client) : c.releasedNet.interruptions = c.net.interruptions :=
  returns_releasedNet Network.covers_heeding c

theorem heeds_openConnection (host : String) (port : Nat) (c : Client) :
    Heeds (openConnection host port) c := by
  obtain ⟨-, hjournal, -, -, -⟩ := dial_facts c.net host port
  have hdial : (c.net.dial host port).2.interruptions = c.net.interruptions := by
    unfold Network.interruptions
    rw [hjournal]
    rfl
  apply (ends_openConnection host port c).mono
  · rintro _ c' ⟨net, hw, rfl⟩
    exact hw.interruptions_eq.trans hdial
  · rintro e c' ⟨net, hw, -, rfl⟩
    rw [← e.count_trace, interruptions, hw.interruptions_eq, hdial]
    rfl

theorem heeds_connect (host : String) (port : Nat) (c : Client) : Heeds (connect host port) c :=
  ends_bind.mp ((Operation.connect host port).keeps_carryOut Network.covers_heeding
    (fun host' port' _ => heeds_openConnection host' port') c)

theorem heeds_reset (c : Client) : Heeds reset c :=
  ends_bind.mp (Operation.reset.keeps_carryOut Network.covers_heeding nofun c)

end Client

end MailSubmission
