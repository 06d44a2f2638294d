import MailSubmission.Proofs.Submissions
import MailSubmission.Proofs.Accounts

set_option autoImplicit false

/-!
# What an attempt asks of the network

A connection is asked for and opened, and a pause is made: these are the milestones of a
submission.  Work on a connection passes none of them (`Network.Stays`).  An attempt asks for one
connection at most (`Network.Dials`), and where the client has none it does so before anything
else (`Network.Asks`).
-/

namespace MailSubmission

open Run

/-! ## Milestones -/

namespace Entry

/-- A connection was asked for. -/
def isDialled : Entry → Bool
  | .dialled .. => true
  | _ => false

/-- A connection was opened. -/
def isOpened : Entry → Bool
  | .opened _ => true
  | _ => false

/-- A pause was made. -/
def isPaused : Entry → Bool
  | .paused _ => true
  | _ => false

/-- A connection was asked for or opened, or a pause was made. -/
def isMilestone (e : Entry) : Bool := e.isDialled || e.isOpened || e.isPaused

theorem isMilestone_of_isDialled (e : Entry) (h : e.isDialled = true) : e.isMilestone = true := by
  rw [isMilestone, h]
  rfl

theorem isMilestone_of_isOpened (e : Entry) (h : e.isOpened = true) : e.isMilestone = true := by
  rw [isMilestone, h, Bool.or_true]
  rfl

theorem isMilestone_of_isPaused (e : Entry) (h : e.isPaused = true) : e.isMilestone = true := by
  rw [isMilestone, h, Bool.or_true]

theorem isMilestone_of_staysOn {n : Nat} {e : Entry} (h : e.StaysOn n) : e.isMilestone = false := by
  cases e <;> first | rfl | exact h.elim

end Entry

/-- The milestones among what happened, in order. -/
def milestones (es : List Entry) : List Entry := es.filter Entry.isMilestone

section

variable {es fs : List Entry}

@[simp] theorem milestones_append (es fs : List Entry) :
    milestones (es ++ fs) = milestones es ++ milestones fs := List.filter_append ..

theorem milestones_eq_nil (h : ∀ e ∈ es, e.isMilestone = false) : milestones es = [] :=
  List.filter_eq_nil_iff.mpr fun e he => Bool.eq_false_iff.mp (h e he)

@[simp] theorem milestones_trace (h : Halt Fault) : milestones h.trace = [] :=
  milestones_eq_nil fun e he => by rw [h.eq_of_mem_trace e he]; rfl

/-- Whatever entries are milestones can be looked for among these. -/
theorem filter_milestones {kind : Entry → Bool} (h : ∀ e, kind e = true → e.isMilestone = true) :
    (milestones es).filter kind = es.filter kind := by
  refine (List.filter_filter).trans (List.filter_congr fun e _ => ?_)
  cases hkind : kind e with
  | true => exact h e hkind
  | false => rfl

end

namespace Network

variable {net mid later : Network} {es : List Entry} {host : String} {port : Nat}

/-- `later` is `net` after something happened in which no milestone was passed. -/
def Stays (net later : Network) : Prop :=
  ∃ es : List Entry, later.journal = es.reverse ++ net.journal ∧ milestones es = []

/-- `later` is `net` after a connection was asked for, and perhaps opened, and else no milestone
was passed. -/
def Asks (host : String) (port : Nat) (net later : Network) : Prop :=
  ∃ (es : List Entry) (n : Nat), later.journal = (.dialled host port :: es).reverse ++ net.journal ∧
    milestones es <+: [.opened n]

/-- `later` is `net` after one connection at most was asked for, and no pause was made. -/
def Dials (host : String) (port : Nat) (net later : Network) : Prop :=
  ∃ (es : List Entry) (n : Nat), later.journal = es.reverse ++ net.journal ∧
    milestones es <+: [.dialled host port, .opened n]

theorem Stays.refl (net : Network) : net.Stays net := ⟨[], rfl, rfl⟩

theorem Stays.trans (h : net.Stays mid) (g : mid.Stays later) : net.Stays later := by
  obtain ⟨es, hes, hnone⟩ := h
  obtain ⟨fs, hfs, hnone'⟩ := g
  refine ⟨es ++ fs, ?_, by rw [milestones_append, hnone, hnone', List.append_nil]⟩
  rw [hfs, hes, List.reverse_append, List.append_assoc]

theorem stays_note (net : Network) {e : Entry} (h : e.isMilestone = false) : net.Stays (net.note e) :=
  ⟨[e], rfl, milestones_eq_nil (List.forall_mem_singleton.mpr h)⟩

theorem Asks.stays (h : net.Asks host port mid) (g : mid.Stays later) : net.Asks host port later := by
  obtain ⟨es, n, hes, hmilestones⟩ := h
  obtain ⟨fs, hfs, hnone⟩ := g
  refine ⟨es ++ fs, n, ?_, by rwa [milestones_append, hnone, List.append_nil]⟩
  rw [hfs, hes, ← List.cons_append, List.reverse_append, List.append_assoc]

theorem Dials.stays (h : net.Dials host port mid) (g : mid.Stays later) :
    net.Dials host port later := by
  obtain ⟨es, n, hes, hmilestones⟩ := h
  obtain ⟨fs, hfs, hnone⟩ := g
  refine ⟨es ++ fs, n, ?_, by rwa [milestones_append, hnone, List.append_nil]⟩
  rw [hfs, hes, List.reverse_append, List.append_assoc]

theorem Stays.dials (h : net.Stays mid) (g : mid.Dials host port later) :
    net.Dials host port later := by
  obtain ⟨es, hes, hnone⟩ := h
  obtain ⟨fs, n, hfs, hmilestones⟩ := g
  refine ⟨es ++ fs, n, ?_, by rwa [milestones_append, hnone]⟩
  rw [hfs, hes, List.reverse_append, List.append_assoc]

theorem dials_refl (host : String) (port : Nat) (net : Network) : net.Dials host port net :=
  ⟨[], 0, rfl, List.nil_prefix⟩

theorem Asks.dials (h : net.Asks host port later) : net.Dials host port later := by
  obtain ⟨es, n, hes, hmilestones⟩ := h
  exact ⟨_, n, hes, (List.prefix_cons_inj _).mpr hmilestones⟩

end Network

/-! ## Work on a connection -/

theorem Link.Leads.stays {l later : Link} {es : List Entry} (h : l.Leads later es) :
    l.net.Stays later.net :=
  ⟨es, h.waits.journal, milestones_eq_nil fun e he => Entry.isMilestone_of_staysOn (h.own e he)⟩

namespace Network

/-- No milestone is passed. -/
def staying : Account Fault Network where
  returns := Stays
  halts _ := Stays
  refl := .refl
  trans h g := h.trans g
  trans_halts h g := h.trans g
  halts_trans h g := h.trans g

theorem covers_staying : staying.Covers where
  released _ net := stays_note net rfl
  issued _ _ net := stays_note net rfl
  failed _ net := .refl net
  writeLine bytes l := by
    apply (Link.ends_writeLine bytes l).mono
    · rintro _ l' ⟨pieces, -, hl⟩
      exact hl.stays
    · rintro e l' ⟨⟨pieces, -, hl⟩, -⟩
      exact hl.stays
  readReply phase l := by
    apply (Link.ends_readReply phase l).mono
    · rintro lines l' ⟨chunks, hl⟩
      exact hl.stays
    · rintro e l' ⟨⟨chunks, hl⟩, -⟩
      exact hl.stays
  writeBody sources l := by
    apply (Link.ends_writeBody_dialogue sources l).mono
    · rintro sent l' ⟨-, es, hl, -⟩
      exact hl.stays
    · rintro e l' ⟨⟨es, hl, -⟩, -⟩
      exact hl.stays

end Network

/-! ## Asking for a connection -/

namespace Client

variable {c : Client}

theorem stays_disconnect (c : Client) : c.net.Stays c.disconnect.net :=
  returns_releasedNet Network.covers_staying c

theorem ends_openConnection_asks (host : String) (port : Nat) (c : Client) :
    Ends (openConnection host port) c (fun _ c' => c.net.Asks host port c'.net)
      (fun _ c' => c.net.Asks host port c'.net) := by
  obtain ⟨-, hjournal, -⟩ := dial_facts c.net host port
  apply (ends_openConnection host port c).mono
  · rintro _ c' ⟨net, hw, rfl⟩
    exact ⟨[.opened c.net.dialled], c.net.dialled,
      congrArg (_ :: ·) (hw.journal.trans hjournal), List.prefix_refl _⟩
  · rintro e c' ⟨net, hw, -, rfl⟩
    refine ⟨e.trace, 0, ?_, by rw [milestones_trace]; exact List.nil_prefix⟩
    rw [hw.journal, hjournal, List.reverse_cons, List.append_assoc]
    rfl

theorem ends_greet_asks (host : String) (port : Nat) (c : Client) :
    Ends (greet host port) c (fun _ c' => c.net.Asks host port c'.net)
      (fun _ c' => c.net.Asks host port c'.net) := by
  obtain ⟨next, hgreet, hnext⟩ : Watched.BeginsWith (fun _ => True) _ _ :=
    Watched.begins_greet host port
  rw [← Watched.run_greet, hgreet]
  refine ends_bind.mpr ((ends_openConnection_asks host port c).mono ?_ fun _ _ hasks => hasks)
  intro u mid hasks
  have hstays := keeps_of_drives (coversWork_along Network.covers_staying) (hnext u) mid
  exact Ends.mono hstays (fun _ _ hstays => hasks.stays hstays) fun _ _ hstays => hasks.stays hstays

/-- A fresh client that connects asks for a connection first of all; any other is refused. -/
theorem ends_connect_asks (host : String) (port : Nat) (c : Client) :
    Ends (connect host port) c
      (fun _ c' => c.net.Dials host port c'.net ∧
        (c.inFlight = false → c.state = .fresh → c.net.Asks host port c'.net))
      (fun _ c' => c.net.Dials host port c'.net ∧
        (c.inFlight = false → c.state = .fresh → c.net.Asks host port c'.net)) := by
  have hcleared : c.net.Stays c.cleared.net := returns_cleared Network.covers_staying c
  refine ends_bind.mpr (ends_enter_iff.mpr ?_)
  split
  · -- What is asked for now, is asked for by the client that was cleared up.
    have hasked : ∀ {net : Network}, c.cleared.net.Asks host port net →
        c.net.Dials host port net ∧
          (c.inFlight = false → c.state = .fresh → c.net.Asks host port net) :=
      fun hasks => ⟨hcleared.dials hasks.dials, fun hidle _ => cleared_of_idle hidle ▸ hasks⟩
    have hsettled : Ends (settled (greet host port)) c.cleared _ _ :=
      ends_settled_net (fun _ net => c.cleared.net.Asks host port net)
        (fun _ net => c.cleared.net.Asks host port net)
        (ends_greet_asks host port { c.cleared with inFlight := true })
        fun _ c' hasks => hasks.stays (returns_releasedNet Network.covers_staying c')
    exact ends_bind.mpr (hsettled.mono (fun _ _ hasks => hasked hasks) fun _ _ hasks => hasked hasks)
  · rename_i hrefused
    refine ⟨hcleared.dials (Network.dials_refl ..), fun hidle hfresh => absurd ?_ hrefused⟩
    rw [cleared_of_idle hidle, hfresh]
    rfl

end Client

/-! ## Attempts -/

namespace Submitter

variable {m : Message} {s later : Submitter}

/-- The messages counted against the connection that an attempt will use: a session that does not
stand is not gone on with. -/
def carried (s : Submitter) : Nat :=
  if s.client.state = .loginComplete ∨ s.client.state = .fresh then s.streamSent else 0

/-- `later` is the submitter `s` after an attempt, as far as its client does not matter and the
milestones are concerned. -/
structure Passes (s later : Submitter) : Prop where
  same : later = { s with client := later.client, streamSent := s.carried }
  dials : s.client.net.Dials s.settings.host s.settings.port later.client.net
  asks : s.client.Vacant → s.client.net.Asks s.settings.host s.settings.port later.client.net

/-- Nothing is done but that the client works, passing no milestone. -/
def staying : Account SubmitFailure Submitter where
  returns s later := later = { s with client := later.client } ∧ s.client.net.Stays later.client.net
  halts _ s later := later = { s with client := later.client } ∧ s.client.net.Stays later.client.net
  refl s := ⟨rfl, .refl s.client.net⟩
  trans h g := ⟨by rw [g.1, h.1], h.2.trans g.2⟩
  trans_halts h g := ⟨by rw [g.1, h.1], h.2.trans g.2⟩
  halts_trans h g := ⟨by rw [g.1, h.1], h.2.trans g.2⟩

theorem lifts_staying : Network.staying.Lifts staying where
  covers := Network.covers_staying
  returns h := ⟨rfl, h⟩
  halts h := ⟨rfl, h⟩

theorem Passes.stays {mid : Submitter} (h : s.Passes mid) (g : staying.returns mid later) :
    s.Passes later where
  same := by rw [g.1, h.same]
  dials := h.dials.stays g.2
  asks hvacant := (h.asks hvacant).stays g.2

/-- A session is opened, as far as it gets. -/
theorem ends_openSession_passes (hfresh : s.client.state = .fresh) :
    Ends (openSession s.settings.host s.settings.port) s (fun _ s' => s.Passes s')
      (fun _ s' => s.Passes s') := by
  have hcarried : s.carried = s.streamSent := if_pos (.inr hfresh)
  refine ends_bind.mpr (ends_onClient.mpr
    ((Client.ends_connect_asks s.settings.host s.settings.port s.client).mono ?_ ?_))
  · intro greeting c hc
    have hpasses : s.Passes { s with client := c } :=
      ⟨by rw [hcarried], hc.1, fun hvacant => hc.2 hvacant.idle hvacant.state⟩
    exact Ends.mono (lifts_staying.introduce { s with client := c })
      (fun _ _ hstays => hpasses.stays hstays) fun _ _ hstays => hpasses.stays hstays
  · intro e c hc
    exact ⟨by rw [hcarried], hc.1, fun hvacant => hc.2 hvacant.idle hvacant.state⟩

/-- A session stands, or it is opened as far as it gets. -/
theorem ends_ensureSession_passes (s : Submitter) :
    Ends ensureSession s (fun _ s' => s.Passes s') (fun _ s' => s.Passes s') := by
  rw [ensureSession_eq]
  refine ends_bind.mpr (ends_get.mpr (ends_ite.mpr ?_))
  split
  · rename_i hstate
    refine ⟨by rw [carried, if_pos (.inl hstate)], Network.dials_refl .., fun hvacant => ?_⟩
    rw [hvacant.state] at hstate
    cases hstate
  · rename_i hlogin
    refine ends_ite.mpr ?_
    split
    · rename_i hstale
      -- The connection is let go of first, and with it what was counted against it.
      have hcarried : s.carried = 0 := if_neg (not_or.mpr ⟨hlogin, hstale⟩)
      refine ends_bind.mpr (ends_modify.mpr ?_)
      have hlet : ∀ later : Submitter, s.disconnect.Passes later → s.Passes later := by
        intro later h
        refine ⟨?_, (Client.stays_disconnect s.client).dials h.dials, fun hvacant => ?_⟩
        · rw [h.same, hcarried]
          rfl
        · exact absurd hvacant.state hstale
      exact (ends_openSession_passes (s := s.disconnect) rfl).mono (fun _ later h => hlet later h)
        fun _ later h => hlet later h
    · rename_i hfresh
      exact ends_openSession_passes (Classical.not_not.mp hfresh)

/-- However an attempt ends, it asks for one connection at most, and first of all where the
client has none. -/
theorem ends_attempt_passes (m : Message) (s : Submitter) :
    Ends (attempt m) s (fun _ s' => s.Passes s') (fun _ s' => s.Passes s') := by
  refine ends_attempt_iff.mpr ((ends_ensureSession_passes s).mono ?_ fun _ _ hpasses => hpasses)
  intro refusal mid hpasses
  cases refusal with
  | some reply => exact hpasses
  | none =>
    exact Ends.mono (lifts_staying.giveSender m mid.settings.dsn mid)
      (fun _ _ hstays => hpasses.stays hstays) fun _ _ hstays => hpasses.stays hstays

/-- No milestone is passed when the passes are over. -/
theorem ends_finish_stays (s : Submitter) :
    Ends finish s (fun _ s' => s.client.net.Stays s'.client.net)
      (fun _ s' => s.client.net.Stays s'.client.net) := by
  refine ends_finish_iff.mpr ?_
  split
  · apply Ends.mono (ends_bind.mp (Operation.reset.keeps_carryOut Network.covers_staying nofun s.client))
    · intro reply c hstays
      exact hstays
    · intro e c hstays
      cases e with
      | failed fault => exact Network.Stays.trans hstays (Client.stays_disconnect c)
      | abandoned => exact hstays
  · exact Client.stays_disconnect s.client

end Submitter

end MailSubmission
