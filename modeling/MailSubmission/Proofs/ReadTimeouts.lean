import MailSubmission.Proofs.ReadRetries
import MailSubmission.Proofs.ReplyFolding

set_option autoImplicit false

/-!
# When a read runs out of time

The time for a reply runs out exactly when the server keeps the reader waiting, in the middle of the
reply or before it, for longer than the reader's whole patience (`Link.Starves`).  What is reported
then is how much of the reply there was.

A script tells by itself what a reader comes upon and when (`Script.next?`): neither limits nor
retries play a part in that.
-/

namespace MailSubmission

namespace Script

/-- What a reader comes upon who starts to wait at `now`: when that is, what it reads, of at most
`room` octets, and what is left behind it; nothing if it waits for ever. -/
def next? (room : Nat) : Nat → Script → Option (Nat × Network.Arrival × Script)
  | now, [] => some (now, .ready [], [])
  | now, .data bs :: rest =>
    if bs.length ≤ room then some (now, .ready bs, rest)
    else some (now, .ready (bs.take room), .data (bs.drop room) :: rest)
  | now, .error text :: rest => some (now, .failed text, rest)
  | now, .cancel :: rest => next? room now rest
  | _, .hang :: _ => none
  | now, .due t :: rest => next? room (max now t) rest
  | now, .delay ms :: rest => next? room (now + ms) rest

/-- Read after read, none of which had to wait longer than `patience`, a source hands over `blocks`;
the last of them comes at `u`, and `left` is left behind it. -/
inductive Delivers (room patience : Nat) : Nat → Script → List (List UInt8) → Nat → Script → Prop where
  | nil {now : Nat} {source : Script} : Delivers room patience now source [] now source
  | cons {now t u : Nat} {source rest left : Script} {bs : List UInt8} {blocks : List (List UInt8)}
      (next : source.next? room now = some (t, .ready bs, rest)) (data : bs ≠ [])
      (gap : t ≤ now + patience) (rest : Delivers room patience t rest blocks u left) :
      Delivers room patience now source (bs :: blocks) u left

/-- Who starts to wait at `now` finds nothing for longer than `patience`. -/
def Lags (room patience now : Nat) (source : Script) : Prop :=
  ∀ t x, source.next? room now = some (t, x) → now + patience < t

variable {room now t ms : Nat} {source rest : Script} {x : Network.Arrival × Script}

theorem next?_delay (room now ms : Nat) (rest : Script) :
    next? room now (.delay ms :: rest) = next? room now (.due (now + ms) :: rest) := by
  rw [next?, next?, Nat.max_eq_right (Nat.le_add_right now ms)]

theorem le_of_next? (h : source.next? room now = some (t, x)) : now ≤ t := by
  induction source generalizing now with
  | nil =>
    simp only [next?, Option.some.injEq, Prod.mk.injEq] at h
    exact Nat.le_of_eq h.1
  | cons e rest ih =>
    cases e with
    | data bs =>
      simp only [next?] at h
      split at h
      · simp only [Option.some.injEq, Prod.mk.injEq] at h
        exact Nat.le_of_eq h.1
      · simp only [Option.some.injEq, Prod.mk.injEq] at h
        exact Nat.le_of_eq h.1
    | error text =>
      simp only [next?, Option.some.injEq, Prod.mk.injEq] at h
      exact Nat.le_of_eq h.1
    | cancel => exact ih h
    | hang => cases h
    | due t => exact Nat.le_trans (Nat.le_max_left now t) (ih h)
    | delay ms => exact Nat.le_trans (Nat.le_add_right now ms) (ih h)

/-- A reader comes upon octets or an error. -/
theorem ready_or_failed_of_next? {arrival : Network.Arrival}
    (h : source.next? room now = some (t, arrival, rest)) :
    (∃ bs, arrival = .ready bs) ∨ ∃ text, arrival = .failed text := by
  induction source generalizing now with
  | nil =>
    simp only [next?, Option.some.injEq, Prod.mk.injEq] at h
    exact .inl ⟨[], h.2.1.symm⟩
  | cons e rest ih =>
    cases e with
    | data bs =>
      simp only [next?] at h
      split at h
      · simp only [Option.some.injEq, Prod.mk.injEq] at h
        exact .inl ⟨_, h.2.1.symm⟩
      · simp only [Option.some.injEq, Prod.mk.injEq] at h
        exact .inl ⟨_, h.2.1.symm⟩
    | error text =>
      simp only [next?, Option.some.injEq, Prod.mk.injEq] at h
      exact .inr ⟨text, h.2.1.symm⟩
    | cancel => exact ih h
    | hang => cases h
    | due t => exact ih h
    | delay ms => exact ih h

end Script

/-! ## Undisturbed reads -/

namespace Network

/-- Nobody ever cancels the token's waits or drops the call. -/
def Undisturbed (net : Network) (token : Token) : Prop := ∀ t, net.Quiet token t

variable {net : Network} {token : Token} {limit room t u : Nat} {source rest : Script}
  {arrival : Arrival}

theorem Undisturbed.note (h : net.Undisturbed token) (e : Entry) : (net.note e).Undisturbed token :=
  fun t => (h t).note e

theorem Undisturbed.sleepUntil (h : net.Undisturbed token) (t : Nat) :
    ∃ later, net.sleepUntil token t = (none, later) ∧ later.now = max net.now t ∧
      later.Undisturbed token := by
  obtain ⟨later, hslept, hnow, -⟩ := sleepUntil_of_quiet (h t) (Nat.le_refl t)
  refine ⟨later, hslept, hnow, fun u => ?_⟩
  obtain ⟨later', hslept', -, hquiet⟩ := sleepUntil_of_quiet (h (max t u)) (Nat.le_max_left t u)
  obtain rfl : later = later' := (Prod.mk.inj (hslept.symm.trans hslept')).2
  exact ⟨hquiet.unfired, fun a ha htoken => by have := hquiet.alarms a ha htoken; omega,
    fun d hd => by have := hquiet.patient d hd; omega⟩

/-- A wait takes octets from the front of a source and leaves the others there. -/
theorem bytes_await (token : Token) (limit room : Nat) (source : Script) (net : Network) :
    source.bytes = (await token limit room source net).1.bytes ++
      (await token limit room source net).2.1.bytes := by
  induction source generalizing net with
  | nil => rfl
  | cons e rest ih =>
    cases e with
    | data bs =>
      simp only [await]
      split
      · rfl
      · simp only [Script.bytes, List.flatMap_cons, Event.bytes, Arrival.bytes]
        rw [← List.append_assoc, List.take_append_drop]
    | error text => rfl
    | cancel => exact ih _
    | hang =>
      simp only [await]
      split
      · rfl
      · rfl
    | due t =>
      simp only [await]
      split
      · exact ih _
      · rfl
    | delay ms =>
      simp only [await]
      split
      · exact ih _
      · rfl

theorem await_due_of_next? {tail : Script} (h : net.Undisturbed token) (hnow : net.now ≤ limit)
    (htail : ∀ {net : Network}, net.Undisturbed token → net.now ≤ limit →
      tail.next? room net.now = some (t, arrival, rest) →
      ∃ later, await token limit room tail net = (arrival, rest, later) ∧ later.now = t ∧
        later.Undisturbed token)
    (hnext : Script.next? room net.now (.due u :: tail) = some (t, arrival, rest)) (ht : t ≤ limit) :
    ∃ later, await token limit room (.due u :: tail) net = (arrival, rest, later) ∧ later.now = t ∧
      later.Undisturbed token := by
  rw [Script.next?] at hnext
  have hle := Script.le_of_next? hnext
  obtain ⟨later, hslept, hlater, hundisturbed⟩ := h.sleepUntil u
  rw [← hlater] at hnext
  rw [await, sleepWithin, if_pos (by omega), hslept]
  exact htail hundisturbed (by omega) hnext

/-- An undisturbed wait takes what the reader comes upon in time. -/
theorem await_of_next? (h : net.Undisturbed token) (hcancel : .cancel ∉ source)
    (hnow : net.now ≤ limit) (hnext : source.next? room net.now = some (t, arrival, rest))
    (ht : t ≤ limit) :
    ∃ later, await token limit room source net = (arrival, rest, later) ∧ later.now = t ∧
      later.Undisturbed token := by
  induction source generalizing net with
  | nil =>
    simp only [Script.next?, Option.some.injEq, Prod.mk.injEq] at hnext
    obtain ⟨rfl, rfl, rfl⟩ := hnext
    exact ⟨net, rfl, rfl, h⟩
  | cons e tail ih =>
    have htail : .cancel ∉ tail := fun hmem => hcancel (List.mem_cons_of_mem e hmem)
    cases e with
    | data bs =>
      simp only [Script.next?] at hnext
      rw [await]
      split at hnext
      · rename_i hroom
        simp only [Option.some.injEq, Prod.mk.injEq] at hnext
        obtain ⟨rfl, rfl, rfl⟩ := hnext
        exact ⟨net, if_pos hroom, rfl, h⟩
      · rename_i hroom
        simp only [Option.some.injEq, Prod.mk.injEq] at hnext
        obtain ⟨rfl, rfl, rfl⟩ := hnext
        exact ⟨net, if_neg hroom, rfl, h⟩
    | error text =>
      simp only [Script.next?, Option.some.injEq, Prod.mk.injEq] at hnext
      obtain ⟨rfl, rfl, rfl⟩ := hnext
      exact ⟨net, rfl, rfl, h⟩
    | cancel => exact absurd List.mem_cons_self hcancel
    | hang => cases hnext
    | due u => exact await_due_of_next? h hnow (fun h' => ih h' htail) hnext ht
    | delay ms =>
      rw [Script.next?_delay] at hnext
      exact await_due_of_next? h hnow (fun h' => ih h' htail) hnext ht

theorem await_due_of_late {tail : Script} (h : net.Undisturbed token) (hnow : net.now ≤ limit)
    (htail : ∀ {net : Network}, net.Undisturbed token → net.now ≤ limit →
      (∀ t x, tail.next? room net.now = some (t, x) → limit < t) →
      ∃ rest later, await token limit room tail net = (.cutOff .timedOut, rest, later) ∧
        later.now = limit)
    (hlate : ∀ t x, Script.next? room net.now (.due u :: tail) = some (t, x) → limit < t) :
    ∃ rest later, await token limit room (.due u :: tail) net = (.cutOff .timedOut, rest, later) ∧
      later.now = limit := by
  rw [await, sleepWithin]
  by_cases hwithin : u ≤ max limit net.now
  · obtain ⟨later, hslept, hlater, hundisturbed⟩ := h.sleepUntil u
    rw [if_pos hwithin, hslept]
    refine htail hundisturbed (by omega) ?_
    rw [hlater]
    exact hlate
  · obtain ⟨last, hlast, hlastNow, -⟩ := h.sleepUntil limit
    rw [if_neg hwithin, hlast]
    exact ⟨_, last, rfl, hlastNow.trans (Nat.max_eq_right hnow)⟩

/-- Where a reader comes upon nothing in time, an undisturbed wait lasts until its limit. -/
theorem await_of_late (room : Nat) (h : net.Undisturbed token) (hcancel : .cancel ∉ source)
    (hnow : net.now ≤ limit)
    (hlate : ∀ t x, source.next? room net.now = some (t, x) → limit < t) :
    ∃ rest later, await token limit room source net = (.cutOff .timedOut, rest, later) ∧
      later.now = limit := by
  induction source generalizing net with
  | nil =>
    have := hlate _ _ rfl
    omega
  | cons e tail ih =>
    have htail : .cancel ∉ tail := fun hmem => hcancel (List.mem_cons_of_mem e hmem)
    cases e with
    | data bs =>
      simp only [Script.next?] at hlate
      split at hlate
      · have := hlate _ _ rfl
        omega
      · have := hlate _ _ rfl
        omega
    | error text =>
      have := hlate _ _ rfl
      omega
    | cancel => exact absurd List.mem_cons_self hcancel
    | hang =>
      obtain ⟨last, hlast, hlastNow, -⟩ := h.sleepUntil limit
      rw [await, hlast]
      exact ⟨_, last, rfl, hlastNow.trans (Nat.max_eq_right hnow)⟩
    | due u => exact await_due_of_late h hnow (fun h' => ih h' htail) hlate
    | delay ms =>
      rw [Script.next?_delay] at hlate
      exact await_due_of_late h hnow (fun h' => ih h' htail) hlate

end Network

/-! ## Replies -/

namespace Link

open Run

/-- Nothing interferes with the reads of the link: nobody cancels them or drops the call. -/
structure Undisturbed (l : Link) : Prop where
  net : l.net.Undisturbed l.connection.token
  uncancelled : .cancel ∉ l.connection.socket.reads

/-- What the link reads next comes at `t`. -/
def next? (l : Link) : Option (Nat × Network.Arrival × Script) :=
  l.connection.socket.reads.next? readRoom l.net.now

variable {l : Link} {phase : Phase} {transferred : Nat}

theorem waitToRead_eq {patience : Nat} {arrival : Network.Arrival} {rest : Script} {net : Network}
    (h : l.Undisturbed) (hcut : arrival ≠ .cutOff .cancelled)
    (hawait : Network.await l.connection.token (l.net.now + patience) readRoom
      l.connection.socket.reads l.net = (arrival, rest, net)) :
    l.waitToRead patience = (arrival, rest, net) := by
  have hunfired : l.net.isFired l.connection.token = false := (h.net 0).unfired
  unfold waitToRead Network.bounded
  rw [if_neg (by simp [hunfired]), hawait]
  dsimp only
  unfold Network.noteCut
  split
  · exact absurd rfl hcut
  · rfl

theorem bytes_waitToRead (l : Link) (patience : Nat) : l.connection.socket.reads.bytes =
    (l.waitToRead patience).1.bytes ++ (l.waitToRead patience).2.1.bytes := by
  unfold waitToRead Network.bounded
  split
  · rfl
  · exact Network.bytes_await _ _ _ _ _

/-- An undisturbed read that is not tried again takes octets that come in time, or fails with an
error that does, or its time runs out. -/
theorem fill_cases (h : l.Undisturbed) (phase : Phase) (transferred : Nat) :
    (∃ t bs rest net, l.next? = some (t, .ready bs, rest) ∧ t ≤ l.net.now + l.connection.timeout ∧
        fill phase transferred 0 l = .ok bs (l.behindReads rest net) ∧ net.now = t ∧
        (l.behindReads rest net).Undisturbed) ∨
      (∃ t text rest later, l.next? = some (t, .failed text, rest) ∧
        t ≤ l.net.now + l.connection.timeout ∧
        fill phase transferred 0 l = .error (.failed (.network text)) later) ∨
      (l.connection.socket.reads.Lags readRoom l.connection.timeout l.net.now ∧ ∃ later,
        fill phase transferred 0 l = .error (.failed (.timeout phase transferred)) later ∧
        later.net.now = l.net.now + l.connection.timeout) := by
  have hrest := cancel_notMem_waitToRead h.uncancelled l.connection.timeout
  rw [fill_zero]
  by_cases hlags : l.connection.socket.reads.Lags readRoom l.connection.timeout l.net.now
  · obtain ⟨rest, net, hawait, hnow⟩ := Network.await_of_late readRoom h.net h.uncancelled
      (Nat.le_add_right _ l.connection.timeout) hlags
    rw [waitToRead_eq h (by simp) hawait]
    exact .inr (.inr ⟨hlags, _, rfl, hnow⟩)
  · unfold Script.Lags at hlags
    push Not at hlags
    obtain ⟨t, ⟨arrival, rest⟩, hnext, ht⟩ := hlags
    obtain ⟨net, hawait, hnow, hundisturbed⟩ := Network.await_of_next? h.net h.uncancelled
      (Nat.le_add_right _ l.connection.timeout) hnext ht
    rcases Script.ready_or_failed_of_next? hnext with ⟨bs, rfl⟩ | ⟨text, rfl⟩
    · have hwait := waitToRead_eq h (by simp) hawait
      rw [hwait] at hrest ⊢
      exact .inl ⟨t, bs, rest, _, hnext, ht, rfl, hnow, hundisturbed.note _, hrest⟩
    · rw [waitToRead_eq h (by simp) hawait]
      exact .inr (.inl ⟨t, text, rest, _, hnext, ht, rfl⟩)

/-- Behind what is in the buffer, the server sends `blocks` in time, the last of them at `u`, and with
them the reply is not complete; then it keeps the reader waiting for longer than `patience`. -/
structure Lapses (l : Link) (patience : Nat) (lines : List ReplyLine) (blocks : List (List UInt8))
    (u : Nat) : Prop where
  gap : ∃ left, l.connection.socket.reads.Delivers readRoom patience l.net.now blocks u left ∧
    left.Lags readRoom patience u
  unfinished : ∃ lines' d, l.connection.decoder.scanBlocks lines (l.connection.buffer :: blocks) =
    .more lines' d

section

variable {patience u t : Nat} {lines lines' : List ReplyLine} {blocks : List (List UInt8)}
  {d : Decoder} {bs : List UInt8} {rest : Script} {net : Network}

/-- With a reply that is complete, or of too many deviations, no time runs out. -/
theorem not_lapses_of_scan
    (h : ∀ lines' d, l.connection.decoder.scan lines l.connection.buffer ≠ .more lines' d) :
    ¬ l.Lapses patience lines blocks u := by
  rintro ⟨-, lines', d, hblocks⟩
  rw [Decoder.scanBlocks] at hblocks
  split at hblocks
  · rename_i hscan
    exact h _ _ hscan
  · cases hblocks
  · cases hblocks

theorem lapses_of_lags (hscan : l.connection.decoder.scan lines l.connection.buffer = .more lines' d)
    (hlags : l.connection.socket.reads.Lags readRoom patience l.net.now) :
    l.Lapses patience lines blocks u ↔ blocks = [] ∧ u = l.net.now := by
  constructor
  · rintro ⟨⟨left, hdelivers, -⟩, -⟩
    cases hdelivers with
    | nil => exact ⟨rfl, rfl⟩
    | cons hnext hdata hgap hrest =>
      have := hlags _ _ hnext
      omega
  · rintro ⟨rfl, rfl⟩
    refine ⟨⟨_, .nil, hlags⟩, lines', d, ?_⟩
    rw [Decoder.scanBlocks, hscan]
    rfl

/-- An error or the end, in time, comes before the time runs out. -/
theorem not_lapses_of_next {arrival : Network.Arrival} (hnext : l.next? = some (t, arrival, rest))
    (ht : t ≤ l.net.now + patience) (hdata : ∀ bs, arrival = .ready bs → bs = []) :
    ¬ l.Lapses patience lines blocks u := by
  rintro ⟨⟨left, hdelivers, hlags⟩, -⟩
  cases hdelivers with
  | nil =>
    have := hlags _ _ hnext
    omega
  | cons hnext' hdata' hgap hrest =>
    obtain ⟨-, harrival, -⟩ : _ ∧ arrival = _ ∧ _ := by
      simpa using hnext.symm.trans hnext'
    exact hdata' (hdata _ harrival)

theorem lapses_atOnce : l.atOnce.Lapses patience lines blocks u ↔ l.Lapses patience lines blocks u :=
  ⟨fun h => ⟨h.gap, h.unfinished⟩, fun h => ⟨h.gap, h.unfinished⟩⟩

/-- What comes in time is one of the blocks. -/
theorem lapses_of_ready (hscan : l.connection.decoder.scan lines l.connection.buffer = .more lines' d)
    (hnext : l.next? = some (t, .ready bs, rest)) (ht : t ≤ l.net.now + patience) (hdata : bs ≠ [])
    (hnow : net.now = t) :
    l.Lapses patience lines blocks u ↔ ∃ blocks', blocks = bs :: blocks' ∧
      (((l.withInput d []).behindReads rest net).withInput d bs).Lapses patience lines' blocks' u := by
  subst hnow
  constructor
  · rintro ⟨⟨left, hdelivers, hlags⟩, lines'', d', hblocks⟩
    cases hdelivers with
    | nil =>
      have := hlags _ _ hnext
      omega
    | cons hnext' hdata' hgap hrest =>
      obtain ⟨rfl, rfl, rfl⟩ : net.now = _ ∧ bs = _ ∧ rest = _ := by
        simpa using hnext.symm.trans hnext'
      rw [Decoder.scanBlocks, hscan] at hblocks
      exact ⟨_, rfl, ⟨left, hrest, hlags⟩, lines'', d', hblocks⟩
  · rintro ⟨blocks', rfl, ⟨left, hdelivers, hlags⟩, lines'', d', hblocks⟩
    refine ⟨⟨left, .cons hnext hdata ht hdelivers, hlags⟩, lines'', d', ?_⟩
    rw [Decoder.scanBlocks, hscan]
    exact hblocks

end

/-- Reading lines without retries runs out of time exactly where the server keeps it waiting for too
long. -/
theorem readLines_timeout_iff (h : l.Undisturbed) (hretries : l.connection.readRetries = 0)
    (phase : Phase) (transferred : Nat) (lines : List ReplyLine) (ph : Phase) (k v : Nat) :
    (∃ later, readLines phase transferred lines l = .error (.failed (.timeout ph k)) later ∧
        later.net.now = v) ↔
      ph = phase ∧ ∃ blocks u, l.Lapses l.connection.timeout lines blocks u ∧
        k = transferred + (l.connection.buffer ++ blocks.flatten).length ∧
        v = u + l.connection.timeout := by
  fun_induction readLines phase transferred lines l with
  | case1 transferred lines l lines' decoder buffer hscan =>
    have hnot : ∀ blocks u, ¬ l.Lapses l.connection.timeout lines blocks u :=
      fun _ _ => not_lapses_of_scan (by simp [hscan])
    simp [hnot]
  | case2 transferred lines l seen decoder buffer hscan =>
    have hnot : ∀ blocks u, ¬ l.Lapses l.connection.timeout lines blocks u :=
      fun _ _ => not_lapses_of_scan (by simp [hscan])
    simp [hnot]
  | case3 transferred lines l lines' decoder hscan transferred' halt later =>
    rename_i hfill
    rw [hretries] at hfill
    rcases fill_cases (l := l.withInput decoder []) ⟨h.net, h.uncancelled⟩ phase transferred' with
      ⟨t, bs, rest, net, -, -, hok, -⟩ | ⟨t, text, rest, later', hnext, ht, herror⟩ |
      ⟨hlags, later', herror, hnow⟩
    · exact absurd (hok.symm.trans hfill) (by simp)
    · obtain ⟨rfl, rfl⟩ := EStateM.Result.error.inj (herror.symm.trans hfill)
      have hnot : ∀ blocks u, ¬ l.Lapses l.connection.timeout lines blocks u :=
        fun _ _ => not_lapses_of_next hnext ht (by simp)
      simp [hnot]
    · obtain ⟨rfl, rfl⟩ := EStateM.Result.error.inj (herror.symm.trans hfill)
      have hlapses : ∀ blocks u, l.Lapses l.connection.timeout lines blocks u ↔
          blocks = [] ∧ u = l.net.now := fun _ _ => lapses_of_lags hscan hlags
      constructor
      · rintro ⟨last, hlast, rfl⟩
        simp only [EStateM.Result.error.injEq, Halt.failed.injEq, Fault.timeout.injEq] at hlast
        obtain ⟨⟨rfl, rfl⟩, rfl⟩ := hlast
        exact ⟨rfl, [], l.net.now, (hlapses _ _).mpr ⟨rfl, rfl⟩, by simp [transferred'], hnow⟩
      · rintro ⟨rfl, blocks, u, hin, rfl, rfl⟩
        obtain ⟨rfl, rfl⟩ := (hlapses _ _).mp hin
        exact ⟨_, by simp [transferred'], hnow⟩
  | case4 transferred lines l lines' decoder hscan transferred' later =>
    rename_i hfill
    rw [hretries] at hfill
    rcases fill_cases (l := l.withInput decoder []) ⟨h.net, h.uncancelled⟩ phase transferred' with
      ⟨t, bs, rest, net, hnext, ht, hok, -⟩ | ⟨t, text, rest, later', -, -, herror⟩ |
      ⟨-, later', herror, -⟩
    · obtain ⟨rfl, rfl⟩ := EStateM.Result.ok.inj (hok.symm.trans hfill)
      have hnot : ∀ blocks u, ¬ l.Lapses l.connection.timeout lines blocks u :=
        fun _ _ => not_lapses_of_next hnext ht (by simp)
      simp [hnot]
    · exact absurd (herror.symm.trans hfill) (by simp)
    · exact absurd (herror.symm.trans hfill) (by simp)
  | case5 transferred lines l lines' decoder hscan transferred' b bs later =>
    rename_i hfill ih
    rw [hretries] at hfill
    rcases fill_cases (l := l.withInput decoder []) ⟨h.net, h.uncancelled⟩ phase transferred' with
      ⟨t, bs', rest, net, hnext, ht, hok, hnow, hundisturbed⟩ | ⟨t, text, rest, later', -, -, herror⟩ |
      ⟨-, later', herror, -⟩
    · obtain ⟨rfl, rfl⟩ := EStateM.Result.ok.inj (hok.symm.trans hfill)
      have hready : ∀ blocks u, l.Lapses l.connection.timeout lines blocks u ↔
          ∃ blocks', blocks = (b :: bs) :: blocks' ∧
            (((l.withInput decoder []).behindReads rest net).withInput decoder (b :: bs)).Lapses
              l.connection.timeout lines' blocks' u :=
        fun _ _ => lapses_of_ready hscan hnext ht (List.cons_ne_nil b bs) hnow
      have hlength : ∀ blocks : List (List UInt8),
          transferred + (l.connection.buffer ++ ((b :: bs) :: blocks).flatten).length =
            transferred' + (b :: bs ++ blocks.flatten).length := by
        intro blocks
        rw [List.flatten_cons, List.length_append, ← Nat.add_assoc]
      refine (ih ⟨hundisturbed.net, hundisturbed.uncancelled⟩ hretries).trans (and_congr_right fun _ => ?_)
      constructor
      · rintro ⟨blocks, u, hin, rfl, rfl⟩
        exact ⟨(b :: bs) :: blocks, u, (hready _ _).mpr ⟨blocks, rfl, hin⟩, (hlength blocks).symm, rfl⟩
      · rintro ⟨blocks, u, hin, rfl, rfl⟩
        obtain ⟨blocks', rfl, hin'⟩ := (hready _ _).mp hin
        exact ⟨blocks', u, hin', hlength blocks', rfl⟩
    · exact absurd (herror.symm.trans hfill) (by simp)
    · exact absurd (herror.symm.trans hfill) (by simp)

/-! ### Nothing is lost -/

/-- The octets `bs`, and no others, were taken from the socket, and nothing from the buffer. -/
structure Takes (l later : Link) (bs : List UInt8) : Prop where
  bytes : l.connection.socket.reads.bytes = bs ++ later.connection.socket.reads.bytes
  buffer : later.connection.buffer = l.connection.buffer

theorem Takes.trans {mid later : Link} {bs cs : List UInt8} (h : l.Takes mid bs)
    (g : mid.Takes later cs) : l.Takes later (bs ++ cs) :=
  ⟨by rw [h.bytes, g.bytes, List.append_assoc], g.buffer.trans h.buffer⟩

theorem ends_read_takes (l : Link) :
    Ends read l (fun o l' => l.Takes l' (o.getD [])) (fun _ l' => l.Takes l' []) := by
  have hbytes := l.bytes_waitToRead l.connection.timeout
  refine ends_conclude l.read_eq (fun bs hb => ?_) (fun hb => ?_) fun h hn _ _ => ?_
  · rw [hb] at hbytes
    exact ⟨hbytes, rfl⟩
  · rw [hb] at hbytes
    exact ⟨hbytes, rfl⟩
  · have hnone : (l.waitToRead l.connection.timeout).1.bytes = [] := by
      unfold Network.Arrival.bytes
      split
      · rename_i bs hb
        exact absurd hb (hn bs)
      · rfl
    rw [hnone] at hbytes
    exact ⟨hbytes, rfl⟩

theorem ends_fill_takes (phase : Phase) (transferred retries : Nat) (l : Link) :
    Ends (fill phase transferred retries) l (fun bs l' => l.Takes l' bs) (fun _ l' => l.Takes l' []) := by
  induction retries generalizing l with
  | zero =>
    simp only [fill, ends_bind]
    refine (ends_read_takes l).mono (fun o l' hl => ?_) fun _ _ hl => hl
    cases o with
    | some bs => exact hl
    | none => exact hl
  | succ retries ih =>
    simp only [fill, ends_bind]
    refine (ends_read_takes l).mono (fun o l' hl => ?_) fun _ _ hl => hl
    cases o with
    | some bs => exact hl
    | none => exact (ih l').mono (fun _ _ hl' => hl.trans hl') fun _ _ hl' => hl.trans hl'

/-- What a timeout reports is how many octets were taken, of the buffer and of what came in behind
it; all others are still to be read. -/
structure Tallies (l later : Link) (k : Nat) : Prop where
  drained : later.connection.buffer = []
  consumed : ∃ consumed, k = consumed.length ∧
    l.connection.buffer ++ l.connection.socket.reads.bytes =
      consumed ++ later.connection.socket.reads.bytes

theorem tallies_readLines {lines : List ReplyLine} {ph : Phase} {n : Nat} {later : Link}
    (h : readLines phase transferred lines l = .error (.failed (.timeout ph n)) later) :
    ∃ k, n = transferred + k ∧ l.Tallies later k := by
  fun_induction readLines phase transferred lines l with
  | case1 => simp at h
  | case2 => simp at h
  | case3 transferred lines l lines' decoder hscan transferred' halt later' =>
    rename_i hfill
    obtain ⟨rfl, rfl⟩ := EStateM.Result.error.inj h
    have htakes := (ends_fill_takes phase _ _ _).of_error hfill
    obtain ⟨-, rfl⟩ : _ ∧ n = transferred' := ((ends_fill phase _ _ _).of_error hfill).2
    exact ⟨_, rfl, htakes.buffer, _, rfl, congrArg (_ ++ ·) htakes.bytes⟩
  | case4 => simp at h
  | case5 transferred lines l lines' decoder hscan transferred' b bs later' =>
    rename_i hfill ih
    have hbytes := ((ends_fill_takes phase _ _ _).of_ok hfill).bytes
    obtain ⟨k, rfl, hdrained, consumed, rfl, hconsumed⟩ := ih h
    refine ⟨(l.connection.buffer ++ consumed).length, ?_, hdrained, _, rfl, ?_⟩
    · rw [List.length_append, ← Nat.add_assoc]
    · rw [List.append_assoc, ← hconsumed]
      exact congrArg (_ ++ ·) hbytes

/-! ### Retries -/

theorem SameEnd.error_at_iff {α : Type} {x y : EStateM.Result (Halt Fault) Link α}
    (h : SameEnd Rivals x y) (e : Halt Fault) (v : Nat) :
    (∃ later, x = .error e later ∧ later.net.now = v) ↔
      ∃ later, y = .error e later ∧ later.net.now = v := by
  cases x with
  | ok a l =>
    cases y with
    | ok b l' => simp
    | error e' l' => exact h.elim
  | error e' l =>
    cases y with
    | ok b l' => exact h.elim
    | error e'' l' =>
      obtain ⟨rfl, hlater⟩ := h
      simp [hlater.net.now]

/-- Trying reads again comes to waiting longer.  A reply that nobody's cancellation is part of is
read with retries as with all the patience for each read at once: the lines are the same or the error
is, and so is the time.  If the time runs out, the tally counts the octets that were taken, and all
others are still to be read.  And undisturbed the time runs out exactly when the server, in the middle
of the reply or before it, keeps the reader waiting for longer than its whole patience; by then the
tally counts what there is of the reply. -/
theorem readReply_retries (phase : Phase) {l : Link} (hcancel : .cancel ∉ l.connection.socket.reads) :
    SameEnd Rivals (readReply phase l) (readReply phase l.atOnce) ∧
      (∀ ph k later, readReply phase l = .error (.failed (.timeout ph k)) later → l.Tallies later k) ∧
      (l.net.Undisturbed l.connection.token → ∀ ph k v,
        (∃ later, readReply phase l = .error (.failed (.timeout ph k)) later ∧ later.net.now = v) ↔
          ph = phase ∧ ∃ blocks u,
            (l.withInput l.connection.decoder.reset l.connection.buffer).Lapses l.connection.patience []
              blocks u ∧
            k = (l.connection.buffer ++ blocks.flatten).length ∧ v = u + l.connection.patience) := by
  have hsame := readReply_sameEnd phase hcancel
  refine ⟨hsame, fun ph k later hr => ?_, fun hundisturbed ph k v => ?_⟩
  · obtain ⟨k', rfl, htallies⟩ := tallies_readLines hr
    rw [Nat.zero_add]
    exact ⟨htallies.drained, htallies.consumed⟩
  · rw [hsame.error_at_iff]
    have hiff := readLines_timeout_iff
      (l := (l.withInput l.connection.decoder.reset l.connection.buffer).atOnce)
      ⟨hundisturbed, hcancel⟩ rfl phase 0 [] ph k v
    simp only [Nat.zero_add, lapses_atOnce] at hiff
    exact hiff

/-- A block that comes at the limit of a read, a line and a code that are cut, a block that comes at the
limit of the retry, and one that is a millisecond late. -/
theorem readReply_retries_late :
    let socket : Socket :=
      { reads := [.delay 10, .data [50, 53, 48, 45], .delay 20, .data [97, 13, 10, 50], .delay 21,
          .data [53, 48, 32, 98, 13, 10]] }
    let l : Link := ⟨.ofSocket socket { timeout := 10, readRetries := 1 } {}, {}⟩
    .cancel ∉ l.connection.socket.reads ∧ l.net.Undisturbed l.connection.token ∧
      SameEnd Rivals (readReply .reply l) (readReply .reply l.atOnce) ∧
      ∃ later, readReply .reply l = .error (.failed (.timeout .reply 8)) later ∧ later.net.now = 50 := by
  intro socket l
  have hcancel : .cancel ∉ l.connection.socket.reads := by decide
  have hundisturbed : l.net.Undisturbed l.connection.token := fun t =>
    ⟨by decide, fun a ha => absurd ha List.not_mem_nil, fun d hd => absurd hd (by simp [l])⟩
  obtain ⟨hsame, -, htimeout⟩ := readReply_retries .reply hcancel
  refine ⟨hcancel, hundisturbed, hsame, (htimeout hundisturbed .reply 8 50).mpr ⟨rfl, ?_⟩⟩
  refine ⟨[[50, 53, 48, 45], [97, 13, 10, 50]], 30, ⟨⟨[.delay 21, .data [53, 48, 32, 98, 13, 10]],
    ?_, ?_⟩, _, _, rfl⟩, rfl, rfl⟩
  · exact .cons rfl (by decide) (by decide) (.cons rfl (by decide) (by decide) .nil)
  · intro t x hnext
    have hlate : some (51, Network.Arrival.ready [53, 48, 32, 98, 13, 10], ([] : Script)) = some (t, x) :=
      hnext
    obtain ⟨rfl, -⟩ := Prod.mk.inj (Option.some.inj hlate)
    decide

end Link

end MailSubmission
