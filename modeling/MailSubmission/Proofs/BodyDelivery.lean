import MailSubmission.Proofs.BodySending

set_option autoImplicit false

/-!
# A body that nothing hinders arrives whole

If every read of a source is answered in time, the connection takes every write in time, at once
or as it comes to have room, and nobody cancels or drops the call meanwhile, then a body goes out
whole (`writeBody_transparent`): on the wire stands the stuffed form of what the sources hand over
together, however they hand it over.

What comes in time is told by the scripts alone: when a read is answered (`Script.readAt?`), when a
write has been taken (`Socket.takenAt?`), and so when a source has been sent (`Body.Pours`).
-/

namespace MailSubmission

namespace Network

/-! ## Undisturbed waits -/

/-- Up to the time `t` nobody cancels the token's waits or drops the call. -/
structure Quiet (net : Network) (token : Token) (t : Nat) : Prop where
  unfired : net.isFired token = false
  alarms : ∀ a ∈ net.alarms, a.canceller.signal = token.signal → t < a.time
  patient : ∀ d, net.deadline = some d → t ≤ d

variable {net : Network} {token : Token} {t u : Nat}

theorem Quiet.note (h : net.Quiet token t) (e : Entry) : (net.note e).Quiet token t :=
  ⟨h.unfired, h.alarms, h.patient⟩

theorem Quiet.advance (h : net.Quiet token t) (hu : u ≤ t) : (net.advance u).Quiet token t where
  unfired := by
    rw [isFired_advance, h.unfired, Bool.false_or, List.any_eq_false]
    intro a ha hs
    rw [List.mem_filter] at ha
    have hlate := h.alarms a ha.1 (beq_iff_eq.mp hs)
    have hdue : a.time ≤ u := by simpa using ha.2
    omega
  alarms a ha := h.alarms a (List.mem_filter.mp ha).1
  patient := h.patient

/-- The first alarm for a token comes no later than any other alarm for it. -/
theorem exists_alarmFor {a : Alarm} (ha : a ∈ net.alarms)
    (htoken : a.canceller.signal = token.signal) :
    ∃ first, net.alarmFor token = some first ∧ first ≤ a.time := by
  have hmem : a.time ∈ (net.alarms.filter (·.canceller.signal == token.signal)).map (·.time) :=
    List.mem_map_of_mem (List.mem_filter.mpr ⟨ha, beq_iff_eq.mpr htoken⟩)
  obtain ⟨first, hfirst⟩ := Option.isSome_iff_exists.mp (List.isSome_min?_of_mem hmem)
  exact ⟨first, hfirst, (List.min?_eq_some_iff.mp hfirst).2 _ hmem⟩

theorem Quiet.alarmFor (h : net.Quiet token t) {a : Nat} (ha : net.alarmFor token = some a) :
    t < a := by
  have hmem := List.min?_mem ha
  rw [List.mem_map] at hmem
  obtain ⟨alarm, halarm, rfl⟩ := hmem
  rw [List.mem_filter] at halarm
  exact h.alarms alarm halarm.1 (by simpa using halarm.2)

/-- Nothing cuts a sleep off that ends before the quiet does. -/
theorem sleepUntil_of_quiet (h : net.Quiet token t) (hu : u ≤ t) :
    ∃ later, net.sleepUntil token u = (none, later) ∧ later.now = max net.now u ∧
      later.Quiet token t := by
  unfold sleepUntil
  by_cases hnow : u ≤ net.now
  · rw [if_pos hnow]
    exact ⟨net, rfl, (Nat.max_eq_left hnow).symm, h⟩
  · have hpatient : net.deadline.any (· ≤ net.now) = false := by
      rw [Option.any_eq_false]
      intro d hd
      have := h.patient d hd
      simpa using (by omega : net.now < d)
    have halarm : (net.alarmFor token).filter (fun a => a ≤ u && net.comesInTime a) = none := by
      rw [Option.filter_eq_none_iff]
      intro a ha
      have := h.alarmFor ha
      simp only [Bool.and_eq_true, decide_eq_true_eq, not_and]
      omega
    have hdeadline : net.deadline.filter (· < u) = none := by
      rw [Option.filter_eq_none_iff]
      intro d hd
      have := h.patient d hd
      simp only [decide_eq_true_eq]
      omega
    rw [if_neg hnow, hpatient, h.unfired, halarm, hdeadline]
    exact ⟨net.advance u, rfl, rfl, h.advance hu⟩

theorem sleepWithin_of_quiet {limit : Nat} (h : net.Quiet token t) (hu : u ≤ t)
    (hlimit : u ≤ max limit net.now) :
    ∃ later, net.sleepWithin token limit u = (none, later) ∧ later.now = max net.now u ∧
      later.Quiet token t := by
  unfold sleepWithin
  rw [if_pos hlimit]
  exact sleepUntil_of_quiet h hu

end Network

/-! ## What comes in time -/

/-- When a read of at most `room` octets is answered that is begun at `now`, with what, and what is
left of the source then; nothing if it fails, or is not answered by `limit`. -/
def Script.readAt? (room limit : Nat) : Nat → Script → Option (Nat × List UInt8 × Script)
  | now, [] => some (now, [], [])
  | now, .data bs :: rest =>
    if bs.length ≤ room then some (now, bs, rest)
    else some (now, bs.take room, .data (bs.drop room) :: rest)
  | now, .delay ms :: rest =>
    if now + ms ≤ max limit now then readAt? room limit (now + ms) rest else none
  | now, .due t :: rest =>
    if t ≤ max limit now then readAt? room limit (max now t) rest else none
  | _, _ => none

/-- The socket when so many octets have been handed to it. -/
def Socket.taking (octets : Nat) (s : Socket) : Socket :=
  { s with writeRoom := s.writeRoom.map (· - octets) }

/-- When so many octets have been taken that are written at `now`, and the socket then, where `drains`
is the room that is still to come; nothing if there is no room for all of them by `limit`. -/
def Socket.takenAt? (limit : Nat) : List Drain → Nat → Nat → Socket → Option (Nat × Socket)
  | drains, octets, now, s =>
    if s.writeRoom.all (octets ≤ ·) then some (now, s.taking octets)
    else
      match drains with
      | [] => none
      | drain :: later =>
        if drain.time ≤ max limit now then
          takenAt? limit later (octets - s.writeRoom.getD 0) (max now drain.time)
            ((s.taking octets).drained drain later)
        else none

/-- When a flush is through that is begun at `now`; nothing if it fails or takes longer than
`timeout`. -/
def Socket.flushedAt? (timeout now : Nat) (s : Socket) : Option Nat :=
  ((if s.flushRoom = some 0 then s.flushFault else []).readAt? 0 (now + timeout) now).map (·.1)

theorem Script.le_of_readAt? {room limit now t : Nat} {source rest : Script} {bs : List UInt8}
    (h : source.readAt? room limit now = some (t, bs, rest)) : now ≤ t := by
  induction source generalizing now with
  | nil =>
    simp only [readAt?, Option.some.injEq, Prod.mk.injEq] at h
    exact Nat.le_of_eq h.1
  | cons e tail ih =>
    cases e with
    | data bs =>
      simp only [readAt?] at h
      split at h
      · simp only [Option.some.injEq, Prod.mk.injEq] at h
        exact Nat.le_of_eq h.1
      · simp only [Option.some.injEq, Prod.mk.injEq] at h
        exact Nat.le_of_eq h.1
    | delay ms =>
      simp only [readAt?] at h
      split at h
      · exact Nat.le_trans (Nat.le_add_right now ms) (ih h)
      · cases h
    | due t =>
      simp only [readAt?] at h
      split at h
      · exact Nat.le_trans (Nat.le_max_left now t) (ih h)
      · cases h
    | hang => cases h
    | error text => cases h
    | cancel => cases h

theorem Socket.le_of_takenAt? {limit octets now t : Nat} {drains : List Drain} {s later : Socket}
    (h : s.takenAt? limit drains octets now = some (t, later)) : now ≤ t := by
  induction drains generalizing octets now s with
  | nil =>
    unfold takenAt? at h
    split at h
    · simp only [Option.some.injEq, Prod.mk.injEq] at h
      exact Nat.le_of_eq h.1
    · cases h
  | cons drain drains ih =>
    unfold takenAt? at h
    split at h
    · simp only [Option.some.injEq, Prod.mk.injEq] at h
      exact Nat.le_of_eq h.1
    · dsimp only at h
      split at h
      · exact Nat.le_trans (Nat.le_max_left now drain.time) (ih h)
      · cases h

namespace Network

variable {net : Network} {token : Token} {t u : Nat}

/-- A read that comes in time is answered. -/
theorem await_of_readAt? {room limit : Nat} {source rest : Script} {bs : List UInt8}
    (h : source.readAt? room limit net.now = some (u, bs, rest)) (hq : net.Quiet token t)
    (hu : u ≤ t) : ∃ later, await token limit room source net = (.ready bs, rest, later) ∧
      later.now = u ∧ later.Quiet token t := by
  induction source generalizing net with
  | nil =>
    simp only [Script.readAt?, Option.some.injEq, Prod.mk.injEq] at h
    obtain ⟨rfl, rfl, rfl⟩ := h
    exact ⟨net, rfl, rfl, hq⟩
  | cons e tail ih =>
    cases e with
    | data bs' =>
      rw [Script.readAt?] at h
      rw [await]
      split at h
      · rename_i hroom
        simp only [Option.some.injEq, Prod.mk.injEq] at h
        obtain ⟨rfl, rfl, rfl⟩ := h
        exact ⟨net, if_pos hroom, rfl, hq⟩
      · rename_i hroom
        simp only [Option.some.injEq, Prod.mk.injEq] at h
        obtain ⟨rfl, rfl, rfl⟩ := h
        exact ⟨net, if_neg hroom, rfl, hq⟩
    | delay ms =>
      simp only [Script.readAt?] at h
      split at h
      · rename_i hlimit
        have hms := Nat.le_trans (Script.le_of_readAt? h) hu
        obtain ⟨later, hslept, hnow, hquiet⟩ := sleepWithin_of_quiet hq hms hlimit
        rw [Nat.max_eq_right (Nat.le_add_right net.now ms)] at hnow
        rw [← hnow] at h
        simp only [await, hslept]
        exact ih h hquiet
      · cases h
    | due due =>
      simp only [Script.readAt?] at h
      split at h
      · rename_i hlimit
        have hdue : due ≤ t :=
          Nat.le_trans (Nat.le_max_right net.now due) (Nat.le_trans (Script.le_of_readAt? h) hu)
        obtain ⟨later, hslept, hnow, hquiet⟩ := sleepWithin_of_quiet hq hdue hlimit
        rw [← hnow] at h
        simp only [await, hslept]
        exact ih h hquiet
      · cases h
    | hang => cases h
    | error text => cases h
    | cancel => cases h

theorem bounded_of_readAt? {room timeout : Nat} {source rest : Script} {bs : List UInt8}
    (h : source.readAt? room (net.now + timeout) net.now = some (u, bs, rest))
    (hq : net.Quiet token t) (hu : u ≤ t) :
    ∃ later, net.bounded token timeout room source = (.ready bs, rest, later) ∧ later.now = u ∧
      later.Quiet token t := by
  obtain ⟨later, hawait, hnow, hquiet⟩ := await_of_readAt? h hq hu
  refine ⟨later, ?_, hnow, hquiet⟩
  unfold bounded
  rw [if_neg (by rw [hq.unfired]; exact Bool.false_ne_true), hawait]
  rfl

end Network

/-! ## Bodies that come in time -/

namespace Body

/-- How far the sending of a body has got. -/
structure Stage where
  /-- the time -/
  now : Nat
  /-- the socket that takes it -/
  socket : Socket
  /-- where the next octet stands in its line -/
  position : Position
  deriving DecidableEq, Repr, Inhabited

/-- A source is sent, read after read and write after write, none of which lasts longer than
`timeout`. -/
inductive Pours (timeout : Nat) : Stage → Script → Stage → Prop where
  | ended {a : Stage} {source rest : Script} {t : Nat}
      (read : source.readAt? Link.bodyRoom (a.now + timeout) a.now = some (t, [], rest)) :
      Pours timeout a source { a with now := t }
  | piece {a b : Stage} {source rest : Script} {t u : Nat} {byte : UInt8} {bytes : List UInt8}
      {s : Socket}
      (read : source.readAt? Link.bodyRoom (a.now + timeout) a.now = some (t, byte :: bytes, rest))
      (taken : a.socket.takenAt? (t + timeout) a.socket.drains
        (stuff a.position (byte :: bytes)).length t = some (u, s))
      (onward : Pours timeout ⟨u, s, a.position.behind (byte :: bytes)⟩ rest b) :
      Pours timeout a source b

/-- Likewise for sources one after another. -/
inductive PoursAll (timeout : Nat) : Stage → List Script → Stage → Prop where
  | nil {a : Stage} : PoursAll timeout a [] a
  | cons {a b c : Stage} {source : Script} {sources : List Script}
      (first : Pours timeout a source b) (onward : PoursAll timeout b sources c) :
      PoursAll timeout a (source :: sources) c

variable {timeout : Nat} {a b : Stage}

theorem Pours.le {source : Script} (h : Pours timeout a source b) : a.now ≤ b.now := by
  induction h with
  | ended read => exact Script.le_of_readAt? read
  | piece read taken _ ih =>
    exact Nat.le_trans (Script.le_of_readAt? read) (Nat.le_trans (Socket.le_of_takenAt? taken) ih)

theorem PoursAll.le {sources : List Script} (h : PoursAll timeout a sources b) : a.now ≤ b.now := by
  induction h with
  | nil => exact Nat.le_refl _
  | cons first _ ih => exact Nat.le_trans first.le ih

end Body

namespace Link

open Run Body

variable {l mid later : Link} {s : Socket} {t u : Nat}

/-- `later` is the link at the time `u`, with the socket `s` and otherwise as it was; up to the time
`t` nobody cancels its waits or drops the call. -/
structure Reaches (l later : Link) (u : Nat) (s : Socket) (t : Nat) : Prop where
  connection : later.connection = { l.connection with socket := s }
  now : later.net.now = u
  quiet : later.net.Quiet l.connection.token t

theorem Reaches.socket_eq (h : l.Reaches later u s t) : later.connection.socket = s := by
  rw [h.connection]

theorem Reaches.timeout_eq (h : l.Reaches later u s t) :
    later.connection.timeout = l.connection.timeout := by
  rw [h.connection]

/-- The token is the same. -/
theorem Reaches.still (h : l.Reaches later u s t) : later.net.Quiet later.connection.token t := by
  rw [h.connection]
  exact h.quiet

theorem Reaches.trans {v : Nat} {s' : Socket} (h : l.Reaches mid u s t) (g : mid.Reaches later v s' t) :
    l.Reaches later v s' t where
  connection := by rw [g.connection, h.connection]
  now := g.now
  quiet := by
    have hquiet := g.quiet
    rwa [h.connection] at hquiet

theorem Reaches.note (h : l.Reaches mid u s t) (e : Entry) : l.Reaches (mid.note e) u s t :=
  ⟨h.connection, h.now, h.quiet.note e⟩

/-- What there is room for is handed over at once. -/
theorem reaches_put (bytes : List UInt8) (hq : l.net.Quiet l.connection.token t) :
    l.Reaches (put bytes l).2 l.net.now (l.connection.socket.taking bytes.length) t ∧
      (put bytes l).1 = bytes.drop (l.connection.socket.writeRoom.getD bytes.length) := by
  have htaking : ∀ taken : List UInt8, l.Reaches
      (if taken.isEmpty then l else l.note (.sent l.connection.socket.number taken)) l.net.now
      l.connection.socket t := by
    intro taken
    have hsame : l.Reaches l l.net.now l.connection.socket t := ⟨rfl, rfl, hq⟩
    split
    · exact hsame
    · exact hsame.note _
  unfold put Socket.taking
  dsimp only
  cases hroom : l.connection.socket.writeRoom with
  | none =>
    have hsocket : { l.connection.socket with writeRoom := none } = l.connection.socket := by
      rw [← hroom]
    refine ⟨?_, List.drop_length.symm⟩
    rw [Option.map_none, hsocket]
    exact htaking bytes
  | some room =>
    obtain ⟨hconnection, hnow, hquiet⟩ := htaking (bytes.take room)
    refine ⟨⟨?_, hnow, hquiet⟩, rfl⟩
    simp only [withSocket, hconnection, Option.map_some]

/-- A wait for room that comes in time. -/
theorem waitFor_due {limit : Nat} {drain : Drain} (hq : l.net.Quiet l.connection.token t)
    (hlimit : drain.time ≤ max limit l.net.now) (ht : max l.net.now drain.time ≤ t) :
    ∃ net, waitFor (limit - l.net.now) [.due drain.time] l = .ok (some []) { l with net } ∧
      net.now = max l.net.now drain.time ∧ net.Quiet l.connection.token t := by
  have hread : Script.readAt? 0 (l.net.now + (limit - l.net.now)) l.net.now [.due drain.time] =
      some (max l.net.now drain.time, [], []) := by
    rw [Script.readAt?, if_pos (by omega), Script.readAt?]
  obtain ⟨net, hbounded, hnow, hquiet⟩ := Network.bounded_of_readAt? hread hq ht
  refine ⟨net, ?_, hnow, hquiet⟩
  unfold waitFor
  rw [hbounded]
  rfl

/-- Where there is room for all octets, they are written at once. -/
theorem writeOn_of_room {bytes : List UInt8}
    (hroom : l.connection.socket.writeRoom.all (bytes.length ≤ ·) = true)
    (hq : l.net.Quiet l.connection.token t) (phase : Phase) (sent limit : Nat) (drains : List Drain) :
    ∃ l', writeOn phase sent limit drains bytes l = .ok () l' ∧
      l.Reaches l' l.net.now (l.connection.socket.taking bytes.length) t := by
  obtain ⟨hput, hleft⟩ := reaches_put bytes hq
  have hnone : bytes.drop (l.connection.socket.writeRoom.getD bytes.length) = [] := by
    cases hwrite : l.connection.socket.writeRoom with
    | none => exact List.drop_length
    | some room =>
      rw [hwrite] at hroom
      exact List.drop_eq_nil_of_le (by simpa using hroom)
  have hp : put bytes l = ([], (put bytes l).2) := Prod.ext (hleft.trans hnone) rfl
  refine ⟨_, ?_, hput⟩
  unfold writeOn
  rw [hp]

/-- Where there is not, some octets are left. -/
theorem drop_of_not_room {bytes : List UInt8} {room : Option Nat}
    (h : ¬ room.all (bytes.length ≤ ·) = true) :
    ∃ b rest, bytes.drop (room.getD bytes.length) = b :: rest ∧
      (b :: rest).length = bytes.length - room.getD 0 := by
  cases room with
  | none => exact absurd rfl h
  | some r =>
    have hlt : r < bytes.length := by simpa using h
    have hlength : (bytes.drop r).length = bytes.length - r := List.length_drop
    obtain ⟨b, rest, hdrop⟩ := List.exists_cons_of_ne_nil (l := bytes.drop r) (by
      intro hnil
      rw [hnil, List.length_nil] at hlength
      omega)
    exact ⟨b, rest, hdrop, hdrop ▸ hlength⟩

/-- Octets that are taken in time are written. -/
theorem writeOn_of_takenAt? (phase : Phase) (sent : Nat) {limit : Nat} {drains : List Drain}
    {bytes : List UInt8}
    (h : l.connection.socket.takenAt? limit drains bytes.length l.net.now = some (u, s))
    (hq : l.net.Quiet l.connection.token t) (hu : u ≤ t) :
    ∃ l', writeOn phase sent limit drains bytes l = .ok () l' ∧ l.Reaches l' u s t := by
  induction drains generalizing l bytes with
  | nil =>
    unfold Socket.takenAt? at h
    split at h
    · rename_i hroom
      simp only [Option.some.injEq, Prod.mk.injEq] at h
      obtain ⟨rfl, rfl⟩ := h
      exact writeOn_of_room hroom hq ..
    · cases h
  | cons drain drains ih =>
    unfold Socket.takenAt? at h
    split at h
    · rename_i hroom
      simp only [Option.some.injEq, Prod.mk.injEq] at h
      obtain ⟨rfl, rfl⟩ := h
      exact writeOn_of_room hroom hq ..
    · rename_i hroom
      dsimp only at h
      split at h
      · rename_i hlimit
        -- Some octets are left, and there is room for them after a wait.
        obtain ⟨hput, hleft⟩ := reaches_put bytes hq
        obtain ⟨b, rest, hrest, hlength⟩ := drop_of_not_room hroom
        have htime := Socket.le_of_takenAt? h
        have hp : put bytes l = (b :: rest, (put bytes l).2) := Prod.ext (hleft.trans hrest) rfl
        generalize (put bytes l).2 = mid at hput hp
        rw [← hput.now] at hlimit htime h
        obtain ⟨net, hwait, hnow, hquiet⟩ := waitFor_due hput.still hlimit (Nat.le_trans htime hu)
        rw [← hlength, ← hnow] at h
        have hwoken : mid.Reaches
            (withSocket { mid with net } (mid.connection.socket.drained drain drains)) net.now
            (mid.connection.socket.drained drain drains) t := ⟨rfl, rfl, hquiet⟩
        rw [← hput.socket_eq] at h
        obtain ⟨l', hrest', hl'⟩ := ih (l := withSocket { mid with net } _) h hquiet
        refine ⟨l', ?_, (hput.trans hwoken).trans hl'⟩
        unfold writeOn
        rw [hp]
        dsimp only [Socket.holdUp]
        rw [hwait]
        exact hrest'
      · cases h

theorem writeAll_of_takenAt? (bytes : List UInt8) (phase : Phase) (sent : Nat)
    (h : l.connection.socket.takenAt? (l.net.now + l.connection.timeout) l.connection.socket.drains
      bytes.length l.net.now = some (u, s))
    (hq : l.net.Quiet l.connection.token t) (hu : u ≤ t) :
    ∃ l', writeAll bytes phase sent l = .ok () l' ∧ l.Reaches l' u s t := by
  unfold writeAll
  rw [if_neg (by rw [hq.unfired]; exact Bool.false_ne_true)]
  exact writeOn_of_takenAt? phase sent h hq hu

/-! ### Sources -/

/-- A source that has ended is sent. -/
theorem writeSource_of_ended {source rest : Script} {net : Network}
    (h : feed source l = (.ready [], rest, net)) (sent : Nat) (p : Position) :
    writeSource sent p source l = .ok (sent, p) (note { l with net } (.fed [])) := by
  rw [writeSource]
  split
  · rw [h]
  · rename_i hfed
    rw [h] at hfed
    cases hfed
  · rename_i hfed _
    rw [h] at hfed
    exact absurd rfl hfed

/-- A piece of a source is sent, and then what is left. -/
theorem writeSource_of_piece {source rest : Script} {net : Network} {b : UInt8} {bs : List UInt8}
    {sent : Nat} {p : Position} (h : feed source l = (.ready (b :: bs), rest, net))
    (hw : writeAll (stuff p (b :: bs)) .body sent (note { l with net } (.fed (b :: bs))) =
      .ok () later) :
    writeSource sent p source l =
      writeSource (sent + (stuff p (b :: bs)).length) (p.behind (b :: bs)) rest later := by
  rw [writeSource]
  split
  · rename_i hfed
    rw [h] at hfed
    cases hfed
  · rename_i hfed
    rw [h] at hfed
    cases hfed
    rw [h]
    dsimp only
    rw [hw]
  · rename_i hfed
    rw [h] at hfed
    exact absurd rfl (hfed b bs)

/-- A source is sent as it is poured. -/
theorem writeSource_of_pours (sent : Nat) {timeout : Nat} {source : Script} {a b : Stage}
    (h : Pours timeout a source b) (hnow : l.net.now = a.now)
    (hsocket : l.connection.socket = a.socket) (htimeout : l.connection.timeout = timeout)
    (hq : l.net.Quiet l.connection.token t) (hb : b.now ≤ t) :
    ∃ n l', writeSource sent a.position source l = .ok (n, b.position) l' ∧
      l.Reaches l' b.now b.socket t := by
  induction h generalizing l sent with
  | ended read =>
    rw [← hnow, ← htimeout] at read
    obtain ⟨net, hfeed, hnet, hquiet⟩ := Network.bounded_of_readAt? read hq hb
    have hl : l.Reaches { l with net } _ _ t := ⟨rfl, hnet, hquiet⟩
    exact ⟨sent, _, writeSource_of_ended hfeed _ _, hsocket ▸ hl.note _⟩
  | @piece a b source rest v u byte bytes s read taken onward ih =>
    have hu : u ≤ t := Nat.le_trans onward.le hb
    have hv : v ≤ t := Nat.le_trans (Socket.le_of_takenAt? taken) hu
    rw [← hnow, ← htimeout] at read
    obtain ⟨net, hfeed, rfl, hquiet⟩ := Network.bounded_of_readAt? read hq hv
    have hl : l.Reaches (note { l with net } (.fed (byte :: bytes))) net.now _ t :=
      ⟨rfl, rfl, hquiet.note _⟩
    rw [← htimeout, ← hsocket] at taken
    obtain ⟨mid, hw, hmid⟩ := writeAll_of_takenAt? (l := note { l with net } (.fed (byte :: bytes)))
      _ .body sent taken (hquiet.note _) hu
    have hall := hl.trans hmid
    obtain ⟨n, l', hr, hl'⟩ :=
      ih _ (l := mid) hall.now hall.socket_eq (hall.timeout_eq.trans htimeout) hall.still hb
    exact ⟨n, l', (writeSource_of_piece hfeed hw).trans hr, hall.trans hl'⟩

theorem writeSources_of_poursAll (sent : Nat) {timeout : Nat} {sources : List Script}
    {a b : Stage} (h : PoursAll timeout a sources b) (hnow : l.net.now = a.now)
    (hsocket : l.connection.socket = a.socket) (htimeout : l.connection.timeout = timeout)
    (hq : l.net.Quiet l.connection.token t) (hb : b.now ≤ t) :
    ∃ n l', writeSources sent a.position sources l = .ok n l' ∧ l.Reaches l' b.now b.socket t := by
  induction h generalizing l sent with
  | nil => exact ⟨sent, l, rfl, by rw [← hsocket], hnow, hq⟩
  | cons first onward ih =>
    obtain ⟨n, mid, hr, hmid⟩ :=
      writeSource_of_pours sent first hnow hsocket htimeout hq (Nat.le_trans onward.le hb)
    obtain ⟨n', l', hr', hl'⟩ := ih n hmid.now hmid.socket_eq
      (hmid.timeout_eq.trans htimeout) hmid.still hb
    refine ⟨n', l', ?_, hmid.trans hl'⟩
    rw [writeSources]
    exact (bind_of_ok hr).trans hr'

theorem flush_of_flushedAt? (phase : Phase) (sent : Nat)
    (h : l.connection.socket.flushedAt? l.connection.timeout l.net.now = some t)
    (hq : l.net.Quiet l.connection.token t) : ∃ l', flush phase sent l = .ok () l' := by
  obtain ⟨⟨u, bs, rest⟩, hread, rfl⟩ := Option.map_eq_some_iff.mp h
  obtain ⟨net, hbounded, -, -⟩ := Network.bounded_of_readAt? hread hq (Nat.le_refl u)
  have hwait : wait (if l.connection.socket.flushRoom = some 0 then l.connection.socket.flushFault
      else []) l = .ok (some bs) { l with net } := by
    unfold wait waitFor
    rw [hbounded]
    rfl
  unfold flush
  dsimp only
  rw [hwait]
  exact ⟨_, rfl⟩

/-! ### Bodies -/

/-- Nothing hinders the sending of a body: each read of a source is answered and each write taken
before it has lasted too long, and so is the flush; and until then nobody cancels the waits or drops
the call. -/
def Unhindered (l : Link) (sources : List Script) : Prop :=
  ∃ (read : Stage) (taken : Nat) (s : Socket) (flushed : Nat),
    PoursAll l.connection.timeout ⟨l.net.now, l.connection.socket, .lineStart⟩ sources read ∧
    read.socket.takenAt? (read.now + l.connection.timeout) read.socket.drains terminator.length
      read.now = some (taken, s) ∧
    s.flushedAt? l.connection.timeout taken = some flushed ∧
    l.net.Quiet l.connection.token flushed

theorem writeBody_of_unhindered {sources : List (Option Script)}
    (h : l.Unhindered (sources.filterMap id)) : ∃ n l', writeBody sources l = .ok n l' := by
  obtain ⟨read, taken, s, flushed, hread, htaken, hflushed, hq⟩ := h
  have hle : taken ≤ flushed := by
    obtain ⟨⟨u, bs, rest⟩, hflush, rfl⟩ := Option.map_eq_some_iff.mp hflushed
    exact Script.le_of_readAt? hflush
  obtain ⟨n, mid, hsources, hmid⟩ := writeSources_of_poursAll 0 hread rfl rfl rfl hq
    (Nat.le_trans (Socket.le_of_takenAt? htaken) hle)
  rw [← hmid.now, ← hmid.socket_eq, ← hmid.timeout_eq] at htaken
  obtain ⟨last, hend, hlast⟩ := writeAll_of_takenAt? terminator .body n htaken hmid.still hle
  have hall := hmid.trans hlast
  rw [← hall.now, ← hall.socket_eq, ← hall.timeout_eq] at hflushed
  obtain ⟨l', hl⟩ := flush_of_flushedAt? .body (n + terminator.length) hflushed hall.still
  refine ⟨n + terminator.length, l', ?_⟩
  rw [writeBody]
  exact (bind_of_ok hsources).trans ((bind_of_ok hend).trans (bind_of_ok hl))

/-- A body that is sent arrives.  If sending it returns, then what stands on the wire for it
depends on nothing but what its sources hand over together, and the octets are counted; if
nothing hinders it, it does return.  A receiver recovers the body, its last line ended, and
stops exactly behind it. -/
theorem writeBody_transparent (sources : List (Option Script)) (l : Link) :
    let body := (sources.filterMap id).flatMap Script.content
    let wire := stuff .lineStart body ++ [13, 10, 46, 13, 10]
    (∀ n l', writeBody sources l = .ok n l' → n = wire.length ∧
      ∃ es, l.Leads l' es ∧ octetsSent l.connection.socket.number es = wire) ∧
    (l.Unhindered (sources.filterMap id) → ∃ n l', writeBody sources l = .ok n l') ∧
    ∀ rest, receive (wire ++ rest) = some (body ++ [13, 10], rest) := by
  intro body wire
  refine ⟨?_, writeBody_of_unhindered, receive_encode body⟩
  intro n l' hr
  obtain ⟨rfl, reads, hreads, es, hl, -, hsent⟩ := (ends_writeBody sources l).of_ok hr
  refine ⟨rfl, es, hl, ?_⟩
  rw [hsent, hreads.flatten_eq]
  rfl

/-- A dot behind a line end that is split over two reads, and a second source; the connection has room
for four octets at once, and for the others later. -/
theorem writeBody_transparent_split :
    let socket : Socket := { writeRoom := some 4, drains := [⟨7, 20⟩] }
    let l : Link := { connection := { socket, timeout := 10 }, net := {} }
    let sources : List (Option Script) :=
      [some [.data [97, 13], .delay 5, .data [10, 46]], none, some [.data [46]]]
    l.Unhindered (sources.filterMap id) ∧
    ∃ l' es, writeBody sources l = .ok 11 l' ∧ l.Leads l' es ∧
      octetsSent 0 es = [97, 13, 10, 46, 46, 46, 13, 10, 46, 13, 10] := by
  intro socket l sources
  have h : l.Unhindered (sources.filterMap id) := by
    refine ⟨⟨7, { writeRoom := some 18 }, .inside⟩, 7, { writeRoom := some 13 }, 7, ?_, by decide,
      by decide, by decide, nofun, nofun⟩
    exact .cons (.piece rfl rfl (.piece rfl rfl (.ended rfl)))
      (.cons (.piece rfl rfl (.ended rfl)) .nil)
  obtain ⟨n, l', hr⟩ := (writeBody_transparent sources l).2.1 h
  obtain ⟨rfl, es, hl, hsent⟩ := (writeBody_transparent sources l).1 n l' hr
  exact ⟨h, l', es, hr, hl, hsent⟩

end Link

end MailSubmission
