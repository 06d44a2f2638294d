import MailSubmission.Network

set_option autoImplicit false

/-!
# What waiting does to the network

The journal is the record of what happened, and the properties of clients are properties
of what they add to it.  This module says what the parts of the journal mean
(`octetsSent`, `feedings`, `StaysOn`) and what a wait can do to the network: the time moves
on, signals that have fired stay fired, nothing but interruptions is noted, and all else is
as it was (`Network.Waits`).
-/

namespace MailSubmission

/-! ## Views of what happened -/

namespace Entry

/-- The octets that the connection `n` took. -/
def sentOn (n : Nat) : Entry → List UInt8
  | .sent m bytes => if m = n then bytes else []
  | _ => []

/-- The octets that a read of a message source gave. -/
def feeding? : Entry → Option (List UInt8)
  | .fed bytes => some bytes
  | _ => none

/-- A reply was complete. -/
def isHeard : Entry → Bool
  | .heard .. => true
  | _ => false

/-- The connection `n` was used: a command was begun on it, or octets went out or came in. -/
def Uses (n : Nat) : Entry → Prop
  | .issued m _ | .sent m _ | .flushed m | .received m _ | .heard m _ => m = n
  | _ => False

/-- No connection but `n` was used, and none was asked for, opened or let go of. -/
def StaysOn (n : Nat) : Entry → Prop
  | .issued m _ | .sent m _ | .flushed m | .received m _ | .heard m _ => m = n
  | .fed _ | .interrupted => True
  | _ => False

/-- The note that octets were taken; none if there were none. -/
def taking (n : Nat) (bytes : List UInt8) : List Entry :=
  if bytes.isEmpty then [] else [.sent n bytes]

/-- The notes that octets were taken piece by piece. -/
def takings (n : Nat) (pieces : List (List UInt8)) : List Entry := pieces.flatMap (taking n)

theorem takings_cons (n : Nat) (piece : List UInt8) (pieces : List (List UInt8)) :
    takings n (piece :: pieces) = taking n piece ++ takings n pieces := List.flatMap_cons

/-- What was taken so were octets. -/
theorem eq_sent_of_mem_takings {n : Nat} {pieces : List (List UInt8)} {e : Entry}
    (he : e ∈ takings n pieces) : ∃ bytes, e = .sent n bytes := by
  obtain ⟨piece, -, he⟩ := List.mem_flatMap.mp he
  unfold taking at he
  split at he
  · cases he
  · exact ⟨piece, List.mem_singleton.mp he⟩

end Entry

/-- The octets that the connection `n` took, in order. -/
def octetsSent (n : Nat) (es : List Entry) : List UInt8 := es.flatMap (Entry.sentOn n)

/-- What each read of a message source gave, in order. -/
def feedings (es : List Entry) : List (List UInt8) := es.filterMap Entry.feeding?

/-- No reply was complete. -/
def Unanswered (es : List Entry) : Prop := ∀ e ∈ es, e.isHeard = false

/-- The first reply that was complete. -/
def firstReply? : List Entry → Option (List ReplyLine)
  | [] => none
  | .heard _ lines :: _ => some lines
  | _ :: es => firstReply? es

/-- What happened after the first reply was complete. -/
def afterReply : List Entry → List Entry
  | [] => []
  | .heard _ _ :: es => es
  | _ :: es => afterReply es

section

variable (n : Nat) (es fs : List Entry)

@[simp] theorem octetsSent_nil : octetsSent n [] = [] := rfl

@[simp] theorem octetsSent_append : octetsSent n (es ++ fs) = octetsSent n es ++ octetsSent n fs :=
  List.flatMap_append

@[simp] theorem octetsSent_cons (e : Entry) :
    octetsSent n (e :: es) = e.sentOn n ++ octetsSent n es := List.flatMap_cons

@[simp] theorem feedings_nil : feedings [] = [] := rfl

@[simp] theorem feedings_append : feedings (es ++ fs) = feedings es ++ feedings fs :=
  List.filterMap_append

@[simp] theorem octetsSent_takings (pieces : List (List UInt8)) :
    octetsSent n (Entry.takings n pieces) = pieces.flatten := by
  induction pieces with
  | nil => rfl
  | cons piece rest ih =>
    have htaken : octetsSent n (Entry.taking n piece) = piece := by
      cases piece <;> simp [Entry.taking, Entry.sentOn]
    rw [Entry.takings_cons, octetsSent_append, htaken, ih, List.flatten_cons]

@[simp] theorem unanswered_nil : Unanswered [] := by
  intro e he
  cases he

@[simp] theorem unanswered_cons (e : Entry) :
    Unanswered (e :: es) ↔ e.isHeard = false ∧ Unanswered es := List.forall_mem_cons

@[simp] theorem unanswered_append : Unanswered (es ++ fs) ↔ Unanswered es ∧ Unanswered fs :=
  List.forall_mem_append

@[simp] theorem unanswered_takings (pieces : List (List UInt8)) :
    Unanswered (Entry.takings n pieces) := by
  intro e he
  obtain ⟨bytes, rfl⟩ := Entry.eq_sent_of_mem_takings he
  rfl

@[simp] theorem unanswered_received (chunks : List (List UInt8)) :
    Unanswered (chunks.map (.received n)) := by
  intro e he
  obtain ⟨bytes, -, rfl⟩ := List.mem_map.mp he
  rfl

@[simp] theorem octetsSent_received (m : Nat) (chunks : List (List UInt8)) :
    octetsSent n (chunks.map (.received m)) = [] := by
  induction chunks with
  | nil => rfl
  | cons bs rest ih => exact ih

@[simp] theorem feedings_received (chunks : List (List UInt8)) :
    feedings (chunks.map (.received n)) = [] := by
  induction chunks with
  | nil => rfl
  | cons bs rest ih => exact ih

@[simp] theorem feedings_takings (pieces : List (List UInt8)) :
    feedings (Entry.takings n pieces) = [] := by
  refine List.filterMap_eq_nil_iff.mpr fun e he => ?_
  obtain ⟨bytes, rfl⟩ := Entry.eq_sent_of_mem_takings he
  rfl

end

section

variable {es : List Entry}

/-- The reply that is heard first is the first one. -/
theorem firstReply?_of_unanswered (fs : List Entry) (h : Unanswered es) :
    firstReply? (es ++ fs) = firstReply? fs := by
  induction es with
  | nil => rfl
  | cons e rest ih =>
    obtain ⟨he, hrest⟩ := (unanswered_cons rest e).mp h
    cases e with
    | heard m lines => cases he
    | _ => exact ih hrest

theorem afterReply_of_unanswered (fs : List Entry) (h : Unanswered es) :
    afterReply (es ++ fs) = afterReply fs := by
  induction es with
  | nil => rfl
  | cons e rest ih =>
    obtain ⟨he, hrest⟩ := (unanswered_cons rest e).mp h
    cases e with
    | heard m lines => cases he
    | _ => exact ih hrest

/-- A connection that is let go of is no part of the exchange on it. -/
theorem firstReply?_release (es : List Entry) (m : Option Nat) :
    firstReply? (es ++ (m.map .released).toList) = firstReply? es := by
  induction es with
  | nil => cases m <;> rfl
  | cons e rest ih => cases e <;> first | rfl | exact ih

theorem afterReply_release (n : Nat) (es : List Entry) (m : Option Nat) :
    octetsSent n (afterReply (es ++ (m.map .released).toList)) = octetsSent n (afterReply es) ∧
      feedings (afterReply (es ++ (m.map .released).toList)) = feedings (afterReply es) := by
  induction es with
  | nil => cases m <;> exact ⟨rfl, rfl⟩
  | cons e rest ih =>
    cases e with
    | heard k lines =>
      simp only [List.cons_append, afterReply, octetsSent_append, feedings_append]
      cases m <;> exact ⟨List.append_nil _, List.append_nil _⟩
    | _ => exact ih

end

theorem Entry.StaysOn.of_uses {n m : Nat} {e : Entry} (h : e.StaysOn n) (hu : e.Uses m) : m = n := by
  cases e <;> simp_all [Entry.StaysOn, Entry.Uses]

/-! ## Waits -/

namespace Network

/-- `later` is `net` after some waiting, in which `es` happened. -/
structure Waits (net later : Network) (es : List Entry) : Prop where
  now_le : net.now ≤ later.now
  fired : ∀ t, net.isFired t = true → later.isFired t = true
  journal : later.journal = es.reverse ++ net.journal
  trigger : later.trigger = net.trigger
  deadline : later.deadline = net.deadline
  sockets : later.sockets = net.sockets
  dialled : later.dialled = net.dialled
  refusal : later.refusal = net.refusal

variable {net mid later : Network} {es fs : List Entry}

theorem Waits.refl (net : Network) : net.Waits net [] :=
  ⟨Nat.le_refl _, fun _ h => h, rfl, rfl, rfl, rfl, rfl, rfl⟩

theorem Waits.trans (h : net.Waits mid es) (g : mid.Waits later fs) :
    net.Waits later (es ++ fs) where
  now_le := Nat.le_trans h.now_le g.now_le
  fired t ht := g.fired t (h.fired t ht)
  journal := by rw [g.journal, h.journal, List.reverse_append, List.append_assoc]
  trigger := g.trigger.trans h.trigger
  deadline := g.deadline.trans h.deadline
  sockets := g.sockets.trans h.sockets
  dialled := g.dialled.trans h.dialled
  refusal := g.refusal.trans h.refusal

theorem waits_note (net : Network) (e : Entry) : net.Waits (net.note e) [e] :=
  ⟨Nat.le_refl _, fun _ h => h, rfl, rfl, rfl, rfl, rfl, rfl⟩

/-! ## Signals stay fired -/

theorem isFired_fire (s : Switchboard) (c : Canceller) (token : Token) :
    (s.fire c).isFired token = (s.isFired token || c.signal == token.signal) := by
  unfold Switchboard.fire Switchboard.isFired
  by_cases h : s.fired.contains c.signal = true
  · rw [if_pos h]
    cases hc : c.signal == token.signal with
    | true => rw [beq_iff_eq.mp hc] at h; rw [h]; rfl
    | false => rw [Bool.or_false]
  · rw [if_neg h, List.contains_cons, Bool.or_comm, BEq.comm]

theorem isFired_foldl_fire (alarms : List Alarm) (s : Switchboard) (token : Token) :
    (alarms.foldl (fun s a => s.fire a.canceller) s).isFired token =
      (s.isFired token || alarms.any (·.canceller.signal == token.signal)) := by
  induction alarms generalizing s with
  | nil => exact (Bool.or_false _).symm
  | cons a alarms ih => rw [List.foldl_cons, ih, isFired_fire, List.any_cons, Bool.or_assoc]

/-- A token has fired by the time `t` if it had before, or an alarm for it was due by then. -/
theorem isFired_advance (net : Network) (t : Nat) (token : Token) :
    (net.advance t).isFired token = (net.isFired token ||
      (net.alarms.filter (·.time ≤ t)).any (·.canceller.signal == token.signal)) :=
  isFired_foldl_fire _ _ _

theorem waits_fire (net : Network) (c : Canceller) : net.Waits (net.fire c) [] where
  now_le := Nat.le_refl _
  fired t ht := (isFired_fire _ c t).trans (Bool.or_eq_true_iff.mpr (.inl ht))
  journal := rfl
  trigger := rfl
  deadline := rfl
  sockets := rfl
  dialled := rfl
  refusal := rfl

theorem waits_advance (net : Network) (t : Nat) : net.Waits (net.advance t) [] where
  now_le := Nat.le_max_left _ _
  fired token ht := (net.isFired_advance t token).trans (Bool.or_eq_true_iff.mpr (.inl ht))
  journal := rfl
  trigger := rfl
  deadline := rfl
  sockets := rfl
  dialled := rfl
  refusal := rfl

/-! ## Sleeping and waiting for a source -/

theorem waits_sleepUntil (net : Network) (token : Token) (t : Nat) :
    net.Waits (net.sleepUntil token t).2 [] := by
  unfold sleepUntil
  split
  · exact .refl net
  · split
    · exact .refl net
    · split
      · exact .refl net
      · split
        · exact waits_advance net _
        · split
          · exact waits_advance net _
          · exact waits_advance net _

/-- Sleeping is cut off by the caller or by the token, never by a limit. -/
theorem sleepUntil_ne_timedOut (net : Network) (token : Token) (t : Nat) :
    (net.sleepUntil token t).1 ≠ some .timedOut := by
  unfold sleepUntil
  split
  · nofun
  · split
    · nofun
    · split
      · nofun
      · split
        · nofun
        · split <;> nofun

theorem waits_sleepWithin (net : Network) (token : Token) (limit t : Nat) :
    net.Waits (net.sleepWithin token limit t).2 [] := by
  have h := waits_sleepUntil net token limit
  unfold sleepWithin
  split
  · exact waits_sleepUntil net token t
  · split
    · rename_i later hs
      rw [hs] at h
      exact h
    · exact h

theorem waits_await (token : Token) (limit room : Nat) (source : Script) (net : Network) :
    net.Waits (await token limit room source net).2.2 [] := by
  induction source generalizing net with
  | nil => exact .refl net
  | cons e rest ih =>
    cases e with
    | data bs =>
      simp only [await]
      split <;> exact .refl net
    | error text => exact .refl net
    | cancel => exact (waits_fire net net.trigger).trans (ih _)
    | hang =>
      have h := waits_sleepUntil net token limit
      simp only [await]
      split
      · rename_i later hs
        rw [hs] at h
        exact h
      · rename_i cut later hs
        rw [hs] at h
        exact h
    | due t =>
      have h := waits_sleepWithin net token limit t
      simp only [await]
      split
      · rename_i later hs
        rw [hs] at h
        exact h.trans (ih later)
      · rename_i cut later hs
        rw [hs] at h
        exact h
    | delay ms =>
      have h := waits_sleepWithin net token limit (net.now + ms)
      simp only [await]
      split
      · rename_i later hs
        rw [hs] at h
        exact h.trans (ih later)
      · rename_i cut later hs
        rw [hs] at h
        exact h

/-- What a wait that came to `arrival` notes. -/
def Arrival.trace : Arrival → List Entry
  | .cutOff .cancelled => [.interrupted]
  | _ => []

theorem waits_noteCut (net : Network) (arrival : Arrival) :
    net.Waits (net.noteCut arrival) arrival.trace := by
  cases arrival with
  | ready bs => exact .refl net
  | failed text => exact .refl net
  | cutOff cut =>
    cases cut with
    | cancelled => exact waits_note net .interrupted
    | timedOut => exact .refl net
    | abandoned => exact .refl net

theorem waits_bounded (net : Network) (token : Token) (timeout room : Nat) (source : Script) :
    net.Waits (net.bounded token timeout room source).2.2
      (net.bounded token timeout room source).1.trace := by
  unfold bounded
  split
  · exact waits_note net .interrupted
  · exact (waits_await token (net.now + timeout) room source net).trans (waits_noteCut _ _)

theorem noteReceived_of_ne_ready (net : Network) (n : Nat) {arrival : Arrival}
    (h : ∀ bs, arrival ≠ .ready bs) : net.noteReceived n arrival = net := by
  cases arrival with
  | ready bs => exact absurd rfl (h bs)
  | failed text => rfl
  | cutOff cut => rfl

end Network

end MailSubmission
