import MailSubmission.Proofs.BodyDelivery
import MailSubmission.Proofs.Representation

set_option autoImplicit false

/-!
# Waits that find the token fired

A token is looked at whenever a wait starts and whenever it is taken up again.  If it has fired by
then, that is the end of the work: it is cancelled, and the network stays as it was found at that
moment, but that the interruption is noted.  Work is cancelled for no other reason, and nothing is
ever written but in a wait that was started when the token had not fired (`Guarded`).

All of that is said of watched work on a link (`Link.Freezes`), and put together as it is.
-/

namespace MailSubmission

open Run

/-! ## Waits that find the token fired -/

namespace Network

variable {net m : Network} {token : Token} {t limit timeout : Nat} {source : Script}

/-- Who sleeps to the end is not woken by the token. -/
theorem isFired_advance_eq_false (hunfired : net.isFired token = false)
    (halarm : (net.alarmFor token).filter (fun a => a ≤ t && net.comesInTime a) = none)
    (hdeadline : net.deadline.filter (· < t) = none) : (net.advance t).isFired token = false := by
  rw [isFired_advance, hunfired, Bool.false_or, List.any_eq_false]
  intro a ha hsignal
  obtain ⟨halarms, hdue⟩ := List.mem_filter.mp ha
  -- The first alarm for the token would have woken it: neither `t` nor the caller comes before.
  obtain ⟨first, hfirst, hle⟩ := exists_alarmFor halarms (beq_iff_eq.mp hsignal)
  have hbefore : first ≤ t := Nat.le_trans hle (by simpa using hdue)
  rw [hfirst, Option.filter_eq_none_iff] at halarm
  refine halarm first rfl ?_
  rw [Bool.and_eq_true, decide_eq_true_eq, comesInTime, Option.all_eq_true]
  refine ⟨hbefore, fun d hd => ?_⟩
  have hlate := Option.filter_eq_none_iff.mp hdeadline d hd
  simp only [decide_eq_true_eq, Nat.not_lt] at hlate ⊢
  exact Nat.le_trans hbefore hlate

/-- The time comes at which the token's signal is to be fired. -/
theorem isFired_advance_alarmFor {a : Nat} (halarm : net.alarmFor token = some a) :
    (net.advance a).isFired token = true := by
  obtain ⟨hmem, -⟩ := List.min?_eq_some_iff.mp halarm
  obtain ⟨alarm, halarm, htime⟩ := List.mem_map.mp hmem
  obtain ⟨halarms, hsignal⟩ := List.mem_filter.mp halarm
  have hdue : decide (alarm.time ≤ a) = true := decide_eq_true (Nat.le_of_eq htime)
  rw [isFired_advance, Bool.or_eq_true, List.any_eq_true]
  exact .inr ⟨alarm, List.mem_filter.mpr ⟨halarms, hdue⟩, hsignal⟩

/-- A sleep is dropped, or cut off by the token, which has fired then, or it ends before the token
has fired. -/
theorem sleepUntil_cases (token : Token) (hnow : ¬ t ≤ net.now) :
    (∃ later, net.sleepUntil token t = (some .abandoned, later)) ∨
      (∃ later, net.sleepUntil token t = (some .cancelled, later) ∧ later.isFired token = true) ∨
      ∃ later, net.sleepUntil token t = (none, later) ∧ later.isFired token = false := by
  unfold sleepUntil
  rw [if_neg hnow]
  split
  · exact .inl ⟨_, rfl⟩
  split
  · rename_i hfired
    exact .inr (.inl ⟨_, rfl, hfired⟩)
  rename_i hunfired
  cases halarm : (net.alarmFor token).filter (fun a => a ≤ t && net.comesInTime a) with
  | some a => exact .inr (.inl ⟨_, rfl, isFired_advance_alarmFor (Option.filter_eq_some_iff.mp halarm).1⟩)
  | none =>
    cases hdeadline : net.deadline.filter (· < t) with
    | some d => exact .inl ⟨_, rfl⟩
    | none =>
      exact .inr (.inr ⟨_, rfl, isFired_advance_eq_false (Bool.eq_false_iff.mpr hunfired) halarm hdeadline⟩)

/-- A sleep that is taken up again with the token fired is cut off. -/
theorem sleepUntil_of_mem_wakings (hm : m ∈ net.wakings token t) (hfired : m.isFired token = true) :
    net.sleepUntil token t = (some .cancelled, m) := by
  unfold wakings at hm
  split at hm
  · cases hm
  rename_i hnow
  rcases sleepUntil_cases token hnow with ⟨later, hs⟩ | ⟨later, hs, -⟩ | ⟨later, hs, hunfired⟩
  · rw [hs] at hm
    cases hm
  · rw [hs] at hm
    rw [hs, List.mem_singleton.mp hm]
  · rw [hs] at hm
    rw [List.mem_singleton.mp hm, hunfired] at hfired
    cases hfired

theorem sleepWithin_of_mem_wakingsWithin (hm : m ∈ net.wakingsWithin token limit t)
    (hfired : m.isFired token = true) : net.sleepWithin token limit t = (some .cancelled, m) := by
  unfold wakingsWithin at hm
  have hsleep := sleepUntil_of_mem_wakings hm hfired
  unfold sleepWithin
  split
  · rename_i hlimit
    rwa [if_pos hlimit] at hsleep
  · rename_i hlimit
    rw [if_neg hlimit] at hsleep
    rw [hsleep]

theorem await_of_mem_resumptions (room : Nat) (hm : m ∈ resumptions token limit source net)
    (hfired : m.isFired token = true) :
    ∃ rest, await token limit room source net = (.cutOff .cancelled, rest, m) := by
  induction source generalizing net with
  | nil => cases hm
  | cons e rest ih =>
    have hdue : ∀ t, m ∈ resumptions token limit (.due t :: rest) net →
        ∃ rest', await token limit room (.due t :: rest) net = (.cutOff .cancelled, rest', m) := by
      intro t hm
      rcases List.mem_append.mp hm with hm | hm
      · refine ⟨.due t :: rest, ?_⟩
        rw [await, sleepWithin_of_mem_wakingsWithin hm hfired]
      · rcases hsleep : net.sleepWithin token limit t with ⟨cut, later⟩
        rw [hsleep] at hm
        rw [await, hsleep]
        cases cut with
        | none => exact ih hm
        | some cut => cases hm
    cases e with
    | data bs => cases hm
    | error text => cases hm
    | cancel => exact ih hm
    | hang =>
      refine ⟨.hang :: rest, ?_⟩
      rw [await, sleepUntil_of_mem_wakings hm hfired]
    | due t => exact hdue t hm
    -- A delay is over when it would be due, counted from now.
    | delay ms => exact hdue (net.now + ms) hm

/-- A wait that is started or taken up again with the token fired is cut off there. -/
theorem bounded_of_mem_moments (room : Nat) (hm : m ∈ net.moments token timeout source)
    (hfired : m.isFired token = true) :
    ∃ rest, net.bounded token timeout room source = (.cutOff .cancelled, rest, m.note .interrupted) := by
  unfold bounded
  by_cases hstart : net.isFired token = true
  · rw [moments, if_pos hstart] at hm
    obtain rfl := List.mem_singleton.mp hm
    exact ⟨source, if_pos hstart⟩
  · rw [moments, if_neg hstart] at hm
    rcases List.mem_cons.mp hm with rfl | hm
    · exact absurd hfired hstart
    · obtain ⟨rest, hawait⟩ := await_of_mem_resumptions room hm hfired
      rw [if_neg hstart, hawait]
      exact ⟨rest, rfl⟩

/-! ### What cut a wait off -/

theorem mem_wakings_of_cancelled (h : net.sleepUntil token t = (some .cancelled, m)) :
    m ∈ net.wakings token t ∧ m.isFired token = true := by
  by_cases hnow : t ≤ net.now
  · rw [sleepUntil, if_pos hnow] at h
    cases h
  refine ⟨?_, ?_⟩
  · rw [wakings, if_neg hnow, h]
    exact List.mem_singleton_self m
  · rcases sleepUntil_cases token hnow with ⟨later, hs⟩ | ⟨later, hs, hfired⟩ | ⟨later, hs, -⟩
    · cases h.symm.trans hs
    · cases h.symm.trans hs
      exact hfired
    · cases h.symm.trans hs

theorem mem_wakingsWithin_of_cancelled (h : net.sleepWithin token limit t = (some .cancelled, m)) :
    m ∈ net.wakingsWithin token limit t ∧ m.isFired token = true := by
  unfold sleepWithin at h
  unfold wakingsWithin
  split at h
  · rename_i hlimit
    rw [if_pos hlimit]
    exact mem_wakings_of_cancelled h
  · rename_i hlimit
    rw [if_neg hlimit]
    split at h
    · cases h
    · exact mem_wakings_of_cancelled h

theorem mem_resumptions_of_cancelled {room : Nat} {rest : Script}
    (h : await token limit room source net = (.cutOff .cancelled, rest, m)) :
    m ∈ resumptions token limit source net ∧ m.isFired token = true := by
  induction source generalizing net with
  | nil => cases h
  | cons e source ih =>
    have hdue : ∀ t, await token limit room (.due t :: source) net = (.cutOff .cancelled, rest, m) →
        m ∈ resumptions token limit (.due t :: source) net ∧ m.isFired token = true := by
      intro t h
      rw [await] at h
      rw [resumptions, List.mem_append]
      rcases hsleep : net.sleepWithin token limit t with ⟨cut, later⟩
      rw [hsleep] at h
      cases cut with
      | none =>
        obtain ⟨hm, hfired⟩ := ih h
        exact ⟨.inr hm, hfired⟩
      | some cut =>
        cases h
        obtain ⟨hm, hfired⟩ := mem_wakingsWithin_of_cancelled hsleep
        exact ⟨.inl hm, hfired⟩
    cases e with
    | data bs =>
      rw [await] at h
      split at h
      · cases h
      · cases h
    | error text => cases h
    | cancel => exact ih h
    | hang =>
      rw [await] at h
      rcases hsleep : net.sleepUntil token limit with ⟨cut, later⟩
      rw [hsleep] at h
      cases cut with
      | none => cases h
      | some cut =>
        cases h
        exact mem_wakings_of_cancelled hsleep
    | due t => exact hdue t h
    | delay ms => exact hdue (net.now + ms) h

/-- A wait is cancelled only if it is started or taken up again with the token fired. -/
theorem exists_moment_of_cancelled {room : Nat}
    (h : (net.bounded token timeout room source).1 = .cutOff .cancelled) :
    ∃ m ∈ net.moments token timeout source, m.isFired token = true := by
  unfold moments
  by_cases hstart : net.isFired token = true
  · exact ⟨net, List.mem_cons_self, hstart⟩
  · rw [bounded, if_neg hstart] at h
    rw [if_neg hstart]
    rcases hawait : await token (net.now + timeout) room source net with ⟨arrival, rest, m⟩
    rw [hawait] at h
    obtain rfl : arrival = .cutOff .cancelled := h
    obtain ⟨hm, hfired⟩ := mem_resumptions_of_cancelled hawait
    exact ⟨m, List.mem_cons_of_mem _ hm, hfired⟩

end Network

/-! ## Writes under a token that has not fired -/

/-- In `es`, which happened behind `before`, nothing was written but in a wait that was started
then and there, when the token had not fired; it is one of `ms`. -/
def Guarded (token : Token) (ms : List Network) (before es : List Entry) : Prop :=
  ∀ (front back : List Entry) (n : Nat) (bytes : List UInt8), es = front ++ .sent n bytes :: back →
    ∃ m ∈ ms, m.isFired token = false ∧ m.journal = front.reverse ++ before

section

variable {token : Token} {ms ms' : List Network} {before es fs : List Entry}

theorem guarded_of_unsent (h : ∀ n bytes, .sent n bytes ∉ es) : Guarded token ms before es := by
  rintro front back n bytes rfl
  exact absurd (List.mem_append_right front List.mem_cons_self) (h n bytes)

theorem Guarded.mono (h : Guarded token ms before es) (hms : ∀ m ∈ ms, m ∈ ms') :
    Guarded token ms' before es := by
  intro front back n bytes hes
  obtain ⟨m, hm, hunfired, hjournal⟩ := h front back n bytes hes
  exact ⟨m, hms m hm, hunfired, hjournal⟩

theorem Guarded.append (h : Guarded token ms before es) (g : Guarded token ms' (es.reverse ++ before) fs) :
    Guarded token (ms ++ ms') before (es ++ fs) := by
  intro front back n bytes hsplit
  rcases List.append_eq_append_iff.mp hsplit with ⟨part, rfl, hfs⟩ | ⟨part, hes, hrest⟩
  · obtain ⟨m, hm, hunfired, hjournal⟩ := g part back n bytes hfs
    refine ⟨m, List.mem_append_right ms hm, hunfired, ?_⟩
    rw [hjournal, List.reverse_append, List.append_assoc]
  · cases part with
    | nil =>
      obtain ⟨m, hm, hunfired, hjournal⟩ := g [] back n bytes hrest.symm
      refine ⟨m, List.mem_append_right ms hm, hunfired, ?_⟩
      rw [hes, List.append_nil] at hjournal
      exact hjournal
    | cons e part =>
      rw [List.cons_append] at hrest
      obtain ⟨rfl, -⟩ := List.cons.inj hrest
      obtain ⟨m, hm, hunfired, hjournal⟩ := h front part n bytes hes
      exact ⟨m, List.mem_append_left ms' hm, hunfired, hjournal⟩

theorem unsent_trace (e : Halt Fault) (n : Nat) (bytes : List UInt8) : .sent n bytes ∉ e.trace :=
  fun h => by cases e.eq_of_mem_trace _ h

/-- What is written at once is guarded by the moment before. -/
theorem guarded_taking {m : Network} (hm : m ∈ ms) (hunfired : m.isFired token = false) (n : Nat)
    (bytes : List UInt8) : Guarded token ms m.journal (Entry.taking n bytes) := by
  intro front back k bytes' hsplit
  unfold Entry.taking at hsplit
  split at hsplit
  · simp at hsplit
  · cases front with
    | nil => exact ⟨m, hm, hunfired, rfl⟩
    | cons e rest =>
      injection hsplit with _ hrest
      simp at hrest

end

/-! ## On a link -/

namespace Link

variable {l mid later : Link} {ms ms' : List Network}

/-- `later` is the link after work in which the moments `ms` were seen. -/
def Watches (l later : Link) (ms : List Network) : Prop :=
  ∃ es, l.Leads later es ∧ Guarded l.connection.token ms l.net.journal es

theorem Watches.token (h : l.Watches later ms) : later.connection.token = l.connection.token := by
  obtain ⟨es, hl, -⟩ := h
  exact hl.token

theorem Watches.mono (h : l.Watches later ms) (hms : ∀ m ∈ ms, m ∈ ms') : l.Watches later ms' := by
  obtain ⟨es, hl, hguarded⟩ := h
  exact ⟨es, hl, hguarded.mono hms⟩

theorem Watches.trans (h : l.Watches mid ms) (g : mid.Watches later ms') :
    l.Watches later (ms ++ ms') := by
  obtain ⟨es, hl, hguarded⟩ := h
  obtain ⟨fs, hl', hguarded'⟩ := g
  rw [hl.token, hl.waits.journal] at hguarded'
  exact ⟨es ++ fs, hl.trans hl', hguarded.append hguarded'⟩

/-- Where nothing is written there is nothing to guard. -/
theorem watches_of_unsent {es : List Entry} (h : l.Leads later es) (hes : ∀ n bytes, .sent n bytes ∉ es) :
    l.Watches later ms := ⟨es, h, guarded_of_unsent hes⟩

/-- Carried out on `l`, the watched work stops where a wait finds the token fired, it is cancelled
for no other reason, and its writes are guarded. -/
structure Freezes {α : Type} (w : Watched.OnLink α) (l : Link) : Prop where
  stops : ∀ m ∈ w.seen l, m.isFired l.connection.token = true →
    ∃ l', w.run l = .error (.failed .cancelled) l' ∧ l'.net = m.note .interrupted
  found : ∀ l', w.run l = .error (.failed .cancelled) l' →
    ∃ m ∈ w.seen l, m.isFired l.connection.token = true
  ends : Ends w.run l (fun _ l' => l.Watches l' (w.seen l)) fun _ l' => l.Watches l' (w.seen l)

variable {α β : Type} {w : Watched.OnLink α} {next : α → Watched.OnLink β}

theorem freezes_quiet {act : Run Fault Link α}
    (h : Ends act l (fun _ l' => l.Watches l' []) fun e l' => e ≠ .failed .cancelled ∧ l.Watches l' []) :
    Freezes (Watched.quiet act) l :=
  ⟨nofun, fun _ hr => absurd rfl (h.of_error hr).1, h.mono (fun _ _ hl => hl) fun _ _ hl => hl.2⟩

theorem freezes_pure (a : α) (l : Link) : Freezes (pure a) l :=
  freezes_quiet (ends_pure.mpr (watches_of_unsent (.refl l) nofun))

theorem freezes_fail {fault : Fault} (hfault : fault ≠ .cancelled) (l : Link) :
    Freezes (Watched.quiet (fail fault : Run Fault Link α)) l :=
  freezes_quiet (ends_fail.mpr ⟨fun h => hfault (Halt.failed.inj h), watches_of_unsent (.refl l) nofun⟩)

theorem Freezes.bind (h : Freezes w l) (g : ∀ a l', Freezes (next a) l') : Freezes (w >>= next) l where
  stops m hm hfired := by
    rcases Watched.mem_seen_bind.mp hm with hm | ⟨a, mid, hr, hm⟩
    · obtain ⟨l', hstopped, hnet⟩ := h.stops m hm hfired
      exact ⟨l', bind_of_error hstopped, hnet⟩
    · rw [← (h.ends.of_ok hr).token] at hfired
      obtain ⟨l', hstopped, hnet⟩ := (g a mid).stops m hm hfired
      exact ⟨l', (bind_of_ok hr).trans hstopped, hnet⟩
  found l' hr := by
    cases hw : w.run l with
    | ok a mid =>
      have hnext : (next a).run mid = .error (.failed .cancelled) l' := (bind_of_ok hw).symm.trans hr
      obtain ⟨m, hm, hfired⟩ := (g a mid).found l' hnext
      rw [(h.ends.of_ok hw).token] at hfired
      exact ⟨m, Watched.mem_seen_bind.mpr (.inr ⟨a, mid, hw, hm⟩), hfired⟩
    | error e mid =>
      obtain ⟨rfl, rfl⟩ := EStateM.Result.error.inj ((bind_of_error hw).symm.trans hr)
      obtain ⟨m, hm, hfired⟩ := h.found mid hw
      exact ⟨m, Watched.mem_seen_bind.mpr (.inl hm), hfired⟩
  ends := by
    refine ends_bind.mpr (((ends_self w.run l).and h.ends).mono ?_ ?_)
    · rintro a mid ⟨hr, hmid⟩
      rw [Watched.seen_bind, hr]
      exact (g a mid).ends.mono (fun _ _ hl => hmid.trans hl) fun _ _ hl => hmid.trans hl
    · rintro e mid ⟨-, hmid⟩
      exact hmid.mono fun m hm => List.mem_append_left _ hm

/-! ### Waiting and reading -/

/-- What is awaited is cancelled by the wait for it. -/
theorem eq_cutOff_of_conclude {σ : Type} {s s' : σ} {arrival : Network.Arrival}
    (h : conclude s arrival = .error (.failed .cancelled) s') : arrival = .cutOff .cancelled := by
  cases arrival with
  | cutOff cut => cases cut <;> first | rfl | cases h
  | _ => cases h

theorem freezes_waitFor (timeout : Nat) (obstacle : Script) (l : Link) :
    Freezes (Watched.waitFor timeout obstacle) l where
  stops m hm hfired := by
    obtain ⟨rest, hbounded⟩ := Network.bounded_of_mem_moments 0 hm hfired
    refine ⟨{ l with net := m.note .interrupted }, ?_, rfl⟩
    simp only [Watched.waitFor, waitFor, hbounded]
    rfl
  found l' hr := Network.exists_moment_of_cancelled (eq_cutOff_of_conclude hr)
  ends := by
    refine (ends_waitFor timeout obstacle l).mono ?_ ?_
    · rintro o l' ⟨hl, -⟩
      exact watches_of_unsent hl nofun
    · rintro e l' ⟨hl, -⟩
      exact watches_of_unsent hl (unsent_trace e)

theorem freezes_wait (obstacle : Script) (l : Link) : Freezes (Watched.wait obstacle) l :=
  have hwait := freezes_waitFor l.connection.timeout obstacle l
  ⟨hwait.stops, hwait.found, hwait.ends⟩

/-- While a wait goes on that is not cut off, the token has not fired. -/
theorem isFired_of_waitFor_eq_ok {timeout : Nat} {obstacle : Script} {o : Option (List UInt8)}
    {l later : Link} (h : waitFor timeout obstacle l = .ok o later) {m : Network}
    (hm : m ∈ (Watched.waitFor timeout obstacle).seen l) :
    m.isFired l.connection.token = false := by
  rw [Bool.eq_false_iff]
  intro hfired
  obtain ⟨l', hstopped, -⟩ := (freezes_waitFor timeout obstacle l).stops m hm hfired
  cases h.symm.trans hstopped

theorem freezes_read (l : Link) : Freezes Watched.read l where
  stops m hm hfired := by
    obtain ⟨rest, hbounded⟩ := Network.bounded_of_mem_moments readRoom hm hfired
    simp only [Watched.read, read, hbounded]
    exact ⟨_, rfl, rfl⟩
  found l' hr := Network.exists_moment_of_cancelled (eq_cutOff_of_conclude hr)
  ends := by
    refine (ends_read l).mono ?_ ?_
    · intro o l' hl
      exact watches_of_unsent hl (by cases o <;> simp)
    · rintro e l' ⟨hl, -⟩
      exact watches_of_unsent hl (unsent_trace e)

theorem freezes_fill (phase : Phase) (transferred retries : Nat) (l : Link) :
    Freezes (Watched.fill phase transferred retries) l := by
  induction retries generalizing l with
  | zero =>
    refine (freezes_read l).bind fun o l' => ?_
    cases o with
    | some bs => exact freezes_pure bs l'
    | none => exact freezes_fail (by simp) l'
  | succ n ih =>
    refine (freezes_read l).bind fun o l' => ?_
    cases o with
    | some bs => exact freezes_pure bs l'
    | none => exact ih l'

theorem stops_fill {phase : Phase} {transferred retries : Nat} {m : Network}
    (hm : m ∈ (Watched.fill phase transferred retries).seen l)
    (hfired : m.isFired l.connection.token = true) :
    ∃ l', fill phase transferred retries l = .error (.failed .cancelled) l' ∧
      l'.net = m.note .interrupted := by
  rw [← Watched.run_fill]
  exact (freezes_fill phase transferred retries l).stops m hm hfired

theorem found_fill {phase : Phase} {transferred retries : Nat}
    (hr : fill phase transferred retries l = .error (.failed .cancelled) later) :
    ∃ m ∈ (Watched.fill phase transferred retries).seen l, m.isFired l.connection.token = true := by
  rw [← Watched.run_fill] at hr
  exact (freezes_fill phase transferred retries l).found later hr

theorem freezes_readLines (phase : Phase) (transferred : Nat) (lines : List ReplyLine) (l : Link) :
    Freezes (Watched.readLines phase transferred lines) l where
  stops m hm hfired := by
    simp only [Watched.readLines] at hm ⊢
    -- What is seen in a round belongs to the filling of the buffer or to the rounds after it.
    fun_induction Link.readLines phase transferred lines l with
    | case1 transferred lines l lines' decoder buffer hs =>
      rw [Watched.readLinesSeen, hs] at hm
      cases hm
    | case2 transferred lines l seen decoder buffer hs =>
      rw [Watched.readLinesSeen, hs] at hm
      cases hm
    | case3 transferred lines l lines' decoder hs transferred' halt later hf =>
      rcases (Watched.mem_readLinesSeen hs).mp hm with hm | ⟨b, bs, later', hfill, -⟩
      · obtain ⟨l', hstopped, hnet⟩ := stops_fill hm hfired
        obtain ⟨rfl, rfl⟩ := EStateM.Result.error.inj (hf.symm.trans hstopped)
        exact ⟨later, rfl, hnet⟩
      · cases hf.symm.trans hfill
    | case4 transferred lines l lines' decoder hs transferred' later hf =>
      rcases (Watched.mem_readLinesSeen hs).mp hm with hm | ⟨b, bs, later', hfill, -⟩
      · obtain ⟨l', hstopped, -⟩ := stops_fill hm hfired
        cases hf.symm.trans hstopped
      · cases hf.symm.trans hfill
    | case5 transferred lines l lines' decoder hs transferred' b bs later hf ih =>
      rcases (Watched.mem_readLinesSeen hs).mp hm with hm | ⟨b', bs', later', hfill, hm⟩
      · obtain ⟨l', hstopped, -⟩ := stops_fill hm hfired
        cases hf.symm.trans hstopped
      · cases hf.symm.trans hfill
        have htoken : later.connection.token = l.connection.token :=
          ((ends_fill phase _ _ _).of_ok hf).token
        exact ih hm (htoken ▸ hfired)
  found := by
    simp only [Watched.readLines]
    fun_induction Link.readLines phase transferred lines l with
    | case1 transferred lines l lines' decoder buffer hs =>
      intro l' hr
      cases hr
    | case2 transferred lines l seen decoder buffer hs =>
      intro l' hr
      cases hr
    | case3 transferred lines l lines' decoder hs transferred' halt later hf =>
      intro l' hr
      obtain ⟨rfl, rfl⟩ := EStateM.Result.error.inj hr
      obtain ⟨m, hm, hfired⟩ := found_fill hf
      exact ⟨m, (Watched.mem_readLinesSeen hs).mpr (.inl hm), hfired⟩
    | case4 transferred lines l lines' decoder hs transferred' later hf =>
      intro l' hr
      cases hr
    | case5 transferred lines l lines' decoder hs transferred' b bs later hf ih =>
      intro l' hr
      obtain ⟨m, hm, hfired⟩ := ih l' hr
      have htoken : later.connection.token = l.connection.token :=
        ((ends_fill phase _ _ _).of_ok hf).token
      exact ⟨m, (Watched.mem_readLinesSeen hs).mpr (.inr ⟨b, bs, later, hf, hm⟩), htoken ▸ hfired⟩
  ends := by
    refine (ends_readLines phase transferred lines l).mono ?_ ?_
    · rintro lines' l' ⟨chunks, hl, -⟩
      exact watches_of_unsent hl (by simp)
    · rintro e l' ⟨chunks, hl, -⟩
      refine watches_of_unsent hl fun n bytes hmem => ?_
      rcases List.mem_append.mp hmem with hmem | hmem
      · simp at hmem
      · exact unsent_trace e n bytes hmem

theorem freezes_readReply (phase : Phase) (l : Link) : Freezes (Watched.readReply phase) l := by
  have hlines := freezes_readLines phase 0 []
    (l.withInput l.connection.decoder.reset l.connection.buffer)
  have hreset : l.Watches (l.withInput l.connection.decoder.reset l.connection.buffer) [] :=
    watches_of_unsent (leads_withInput l l.connection.buffer rfl) nofun
  exact ⟨hlines.stops, hlines.found,
    hlines.ends.mono (fun _ _ hl => hreset.trans hl) fun _ _ hl => hreset.trans hl⟩

/-! ### Writing -/

theorem token_of_put {bytes left : List UInt8} (hp : put bytes l = (left, mid)) :
    mid.connection.token = l.connection.token := by
  obtain ⟨taken, -, hput⟩ := leads_put bytes l
  rw [hp] at hput
  exact hput.token

/-- What is handed over at once is guarded by a moment at which nothing more was noted. -/
theorem watches_put {bytes left : List UInt8} (hp : put bytes l = (left, mid)) {m : Network}
    (hjournal : m.journal = l.net.journal) (hunfired : m.isFired l.connection.token = false) :
    l.Watches mid [m] := by
  obtain ⟨taken, -, hput⟩ := leads_put bytes l
  rw [hp] at hput
  refine ⟨_, hput, ?_⟩
  rw [← hjournal]
  exact guarded_taking List.mem_cons_self hunfired _ taken

theorem stops_writeOn (phase : Phase) (sent limit : Nat) (drains : List Drain) (bytes : List UInt8)
    (l : Link) :
    ∀ m ∈ Watched.writeOnSeen limit drains bytes l, m.isFired l.connection.token = true →
      ∃ l', writeOn phase sent limit drains bytes l = .error (.failed .cancelled) l' ∧
        l'.net = m.note .interrupted := by
  intro m hm hfired
  -- What is seen belongs to the first wait for room, or to the waits after it.
  fun_induction writeOn phase sent limit drains bytes l with
  | case1 drains bytes l mid hp =>
    rw [Watched.writeOnSeen.eq_def, hp] at hm
    cases hm
  | case2 bytes l b rest mid hp bs woken hw =>
    rcases (Watched.mem_writeOnSeen hp).mp hm with hm | ⟨drain, later, bs', woken', hdrains, -⟩
    · have hunfired := isFired_of_waitFor_eq_ok hw hm
      rw [token_of_put hp, hfired] at hunfired
      cases hunfired
    · cases hdrains
  | case3 bytes l b rest mid hp bs woken drain later hw ih =>
    rw [hw]
    rcases (Watched.mem_writeOnSeen hp).mp hm with hm | ⟨drain', later', bs', woken', hdrains, hw', hm⟩
    · have hunfired := isFired_of_waitFor_eq_ok hw hm
      rw [token_of_put hp, hfired] at hunfired
      cases hunfired
    · cases hdrains
      cases hw.symm.trans hw'
      have htoken := (leads_woken hw drain later).token.trans (token_of_put hp)
      exact ih hm (htoken ▸ hfired)
  | case4 drains bytes l b rest mid hp woken hw =>
    rcases (Watched.mem_writeOnSeen hp).mp hm with hm | ⟨drain, later, bs', woken', -, hw', -⟩
    · have hunfired := isFired_of_waitFor_eq_ok hw hm
      rw [token_of_put hp, hfired] at hunfired
      cases hunfired
    · cases hw.symm.trans hw'
  | case5 drains bytes l b rest mid hp halt woken hw =>
    rw [hw]
    rcases (Watched.mem_writeOnSeen hp).mp hm with hm | ⟨drain, later, bs', woken', -, hw', -⟩
    · obtain ⟨l', hstopped, hnet⟩ := (freezes_waitFor _ _ mid).stops m hm (token_of_put hp ▸ hfired)
      obtain ⟨rfl, rfl⟩ := EStateM.Result.error.inj (hw.symm.trans hstopped)
      exact ⟨woken, rfl, hnet⟩
    · cases hw.symm.trans hw'

theorem found_writeOn (phase : Phase) (sent limit : Nat) (drains : List Drain) (bytes : List UInt8)
    (l : Link) :
    ∀ l', writeOn phase sent limit drains bytes l = .error (.failed .cancelled) l' →
      ∃ m ∈ Watched.writeOnSeen limit drains bytes l, m.isFired l.connection.token = true := by
  fun_induction writeOn phase sent limit drains bytes l with
  | case1 drains bytes l mid hp =>
    intro l' hr
    cases hr
  | case2 bytes l b rest mid hp bs woken hw =>
    intro l' hr
    rw [hw] at hr
    cases hr
  | case3 bytes l b rest mid hp bs woken drain later hw ih =>
    intro l' hr
    rw [hw] at hr
    obtain ⟨m, hm, hfired⟩ := ih l' hr
    have htoken := (leads_woken hw drain later).token.trans (token_of_put hp)
    exact ⟨m, (Watched.mem_writeOnSeen hp).mpr (.inr ⟨drain, later, bs, woken, rfl, hw, hm⟩),
      htoken ▸ hfired⟩
  | case4 drains bytes l b rest mid hp woken hw =>
    intro l' hr
    rw [hw] at hr
    cases hr
  | case5 drains bytes l b rest mid hp halt woken hw =>
    intro l' hr
    rw [hw] at hr
    obtain ⟨rfl, rfl⟩ := EStateM.Result.error.inj hr
    obtain ⟨m, hm, hfired⟩ := (freezes_waitFor _ _ mid).found woken hw
    exact ⟨m, (Watched.mem_writeOnSeen hp).mpr (.inl hm), token_of_put hp ▸ hfired⟩

/-- The octets that go out first are guarded by a moment at which nothing more was noted, and those
that go out when there is more room by the moment at which the wait for it started. -/
theorem watches_writeOn (phase : Phase) (sent limit : Nat) (drains : List Drain) (bytes : List UInt8)
    (l : Link) :
    ∀ m : Network, m.journal = l.net.journal → m.isFired l.connection.token = false →
      Ends (writeOn phase sent limit drains bytes) l
        (fun _ l' => l.Watches l' (m :: Watched.writeOnSeen limit drains bytes l))
        (fun _ l' => l.Watches l' (m :: Watched.writeOnSeen limit drains bytes l)) := by
  intro m hjournal hunfired
  unfold Ends
  fun_induction writeOn phase sent limit drains bytes l generalizing m with
  | case1 drains bytes l mid hp =>
    exact (watches_put hp hjournal hunfired).mono (by simp)
  | case2 bytes l b rest mid hp bs woken hw =>
    rw [hw]
    have hwait : mid.Watches woken [] :=
      watches_of_unsent ((ends_waitFor _ _ mid).of_ok hw).1 fun _ _ => List.not_mem_nil
    exact ((watches_put hp hjournal hunfired).trans hwait).mono (by simp)
  | case3 bytes l b rest mid hp bs woken drain later hw ih =>
    rw [hw]
    have hdrained := leads_woken hw drain later
    have hrest : Ends (writeOn phase sent limit later (b :: rest)) _ _ _ :=
      ih mid.net hdrained.waits.journal.symm
        (hdrained.token ▸ isFired_of_waitFor_eq_ok hw List.mem_cons_self)
    have hwait : mid.Watches _ [] := watches_of_unsent hdrained fun _ _ => List.not_mem_nil
    have hsofar := (watches_put hp hjournal hunfired).trans hwait
    -- The wait for room is seen from its start.
    have hmem : ∀ m' ∈ ([m] ++ []) ++ (mid.net :: Watched.writeOnSeen limit later (b :: rest)
          (woken.withSocket (woken.connection.socket.drained drain later))),
        m' ∈ m :: Watched.writeOnSeen limit (drain :: later) bytes l := by
      intro m' hm'
      rw [List.append_nil, List.singleton_append, List.mem_cons, List.mem_cons] at hm'
      rw [List.mem_cons]
      refine hm'.imp_right fun hm' => (Watched.mem_writeOnSeen hp).mpr ?_
      rcases hm' with rfl | hm'
      · exact .inl List.mem_cons_self
      · exact .inr ⟨drain, later, bs, woken, rfl, hw, hm'⟩
    exact hrest.mono (fun _ _ hl => (hsofar.trans hl).mono hmem) fun _ _ hl => (hsofar.trans hl).mono hmem
  | case4 drains bytes l b rest mid hp woken hw =>
    rw [hw]
    have hwait : mid.Watches woken [] :=
      watches_of_unsent ((ends_waitFor _ _ mid).of_ok hw).1 fun _ _ => List.not_mem_nil
    exact ((watches_put hp hjournal hunfired).trans hwait).mono (by simp)
  | case5 drains bytes l b rest mid hp halt woken hw =>
    rw [hw]
    have hwait : mid.Watches woken [] :=
      watches_of_unsent ((ends_waitFor _ _ mid).of_error hw).1 (unsent_trace halt)
    exact ((watches_put hp hjournal hunfired).trans hwait).mono (by simp)

theorem freezes_writeAll (bytes : List UInt8) (phase : Phase) (sent : Nat) (l : Link) :
    Freezes (Watched.writeAll bytes phase sent) l := by
  by_cases hfired : l.net.isFired l.connection.token = true
  · have hrun : writeAll bytes phase sent l = .error (.failed .cancelled) (l.note .interrupted) :=
      if_pos hfired
    refine ⟨fun m hm _ => ⟨l.note .interrupted, hrun, ?_⟩,
      fun _ _ => ⟨l.net, List.mem_cons_self, hfired⟩, ?_⟩
    · simp only [Watched.writeAll, if_pos hfired, List.mem_singleton] at hm
      rw [hm]
      rfl
    · unfold Ends
      rw [show (Watched.writeAll bytes phase sent).run l = _ from hrun]
      exact watches_of_unsent (leads_note l trivial) (by simp)
  · have hunfired : l.net.isFired l.connection.token = false := Bool.eq_false_iff.mpr hfired
    have hrun : (Watched.writeAll bytes phase sent).run l = writeOn phase sent
        (l.net.now + l.connection.timeout) l.connection.socket.drains bytes l := if_neg hfired
    have hseen : (Watched.writeAll bytes phase sent).seen l = l.net :: Watched.writeOnSeen
        (l.net.now + l.connection.timeout) l.connection.socket.drains bytes l :=
      congrArg (l.net :: ·) (if_neg hfired)
    refine ⟨fun m hm hlater => ?_, fun l' hr => ?_, ?_⟩
    · rw [hseen] at hm
      rw [hrun]
      rcases List.mem_cons.mp hm with rfl | hm
      · exact absurd hlater hfired
      · exact stops_writeOn phase sent _ _ bytes l m hm hlater
    · rw [hrun] at hr
      obtain ⟨m, hm, hlater⟩ := found_writeOn phase sent _ _ bytes l l' hr
      exact ⟨m, hseen ▸ List.mem_cons_of_mem _ hm, hlater⟩
    · rw [hseen]
      unfold Ends
      rw [hrun]
      exact watches_writeOn phase sent _ _ bytes l l.net rfl hunfired

theorem freezes_flush (phase : Phase) (sent : Nat) (l : Link) :
    Freezes (Watched.flush phase sent) l where
  stops m hm hfired := by
    obtain ⟨l', hstopped, hnet⟩ := (freezes_wait _ l).stops m hm hfired
    refine ⟨l', ?_, hnet⟩
    simp only [Watched.flush, flush]
    rw [show wait _ l = _ from hstopped]
  found l' hr := by
    simp only [Watched.flush, flush] at hr
    split at hr
    · cases hr
    · cases hr
    · rename_i halt later hw
      obtain ⟨rfl, rfl⟩ := EStateM.Result.error.inj hr
      exact (freezes_wait _ l).found later hw
  ends := by
    refine (ends_flush phase sent l).mono ?_ ?_
    · intro _ l' hl
      exact watches_of_unsent hl (by simp)
    · rintro e l' ⟨hl, -⟩
      exact watches_of_unsent hl (unsent_trace e)

theorem freezes_writeLine (bytes : List UInt8) (l : Link) : Freezes (Watched.writeLine bytes) l :=
  (freezes_writeAll bytes .reply 0 l).bind fun _ l' => freezes_flush .reply bytes.length l'

/-! ### Message bodies -/

/-- Nothing is written while a source is read. -/
theorem watches_feed (source : Script) (l : Link) :
    l.Watches { l with net := (feed source l).2.2 } [] := by
  have hcut : ∀ e ∈ (feed source l).1.trace, e = .interrupted := by
    intro e he
    unfold Network.Arrival.trace at he
    split at he
    · exact List.mem_singleton.mp he
    · cases he
  refine watches_of_unsent (leads_waits (Network.waits_bounded l.net l.connection.token
    l.connection.timeout bodyRoom source) hcut) fun n bytes hmem => ?_
  cases hcut _ hmem

theorem watches_fed (source : Script) (l : Link) (bytes : List UInt8) :
    l.Watches (Link.note { l with net := (feed source l).2.2 } (.fed bytes)) [] :=
  Watches.trans (watches_feed source l) (watches_of_unsent (leads_note _ trivial) (by simp))

/-- A source that is waited for with the token fired is not read. -/
theorem feed_of_mem_moments {source : Script} {m : Network}
    (hm : m ∈ l.net.moments l.connection.token l.connection.timeout source)
    (hfired : m.isFired l.connection.token = true) :
    (feed source l).1 = .cutOff .cancelled ∧ (feed source l).2.2 = m.note .interrupted := by
  obtain ⟨rest, hbounded⟩ := Network.bounded_of_mem_moments bodyRoom hm hfired
  unfold feed
  rw [hbounded]
  exact ⟨rfl, rfl⟩

theorem stops_writeSource (sent : Nat) (p : Body.Position) (source : Script) (l : Link) :
    ∀ m ∈ Watched.writeSourceSeen sent p source l, m.isFired l.connection.token = true →
      ∃ l', writeSource sent p source l = .error (.failed .cancelled) l' ∧
        l'.net = m.note .interrupted := by
  intro m hm hfired
  -- What is seen belongs to the read, to the write of what was read, or to the rounds after it.
  fun_induction writeSource sent p source l with
  | case1 sent p source l fed hfed =>
    rcases Watched.mem_writeSourceSeen.mp hm with hm | ⟨b, bs, hfed', -⟩
    · cases hfed.symm.trans (feed_of_mem_moments hm hfired).1
    · cases hfed.symm.trans hfed'
  | case2 sent p source l fed b bs hfed out halt later hw =>
    rcases Watched.mem_writeSourceSeen.mp hm with hm | ⟨b', bs', hfed', hm⟩
    · cases hfed.symm.trans (feed_of_mem_moments hm hfired).1
    cases hfed.symm.trans hfed'
    rcases hm with hm | ⟨later', hwritten, -⟩
    · obtain ⟨l', hstopped, hnet⟩ := (freezes_writeAll out .body sent _).stops m hm hfired
      obtain ⟨rfl, rfl⟩ := EStateM.Result.error.inj (hw.symm.trans hstopped)
      exact ⟨later, rfl, hnet⟩
    · cases hw.symm.trans hwritten
  | case3 sent p source l fed b bs hfed out later hw ih =>
    rcases Watched.mem_writeSourceSeen.mp hm with hm | ⟨b', bs', hfed', hm⟩
    · cases hfed.symm.trans (feed_of_mem_moments hm hfired).1
    cases hfed.symm.trans hfed'
    rcases hm with hm | ⟨later', hwritten, hm⟩
    · obtain ⟨l', hstopped, -⟩ := (freezes_writeAll out .body sent _).stops m hm hfired
      cases hw.symm.trans hstopped
    · cases hw.symm.trans hwritten
      have htoken : later.connection.token = l.connection.token :=
        ((freezes_writeAll out .body sent _).ends.of_ok hw).token
      exact ih hm (htoken ▸ hfired)
  | case4 sent p source l fed o later hn hn' hc =>
    rcases Watched.mem_writeSourceSeen.mp hm with hm | ⟨b, bs, hfed, -⟩
    · rw [(feed_of_mem_moments hm hfired).1] at hc
      cases hc
    · exact absurd hfed (hn' b bs)
  | case5 sent p source l fed halt later hn hn' hc =>
    rcases Watched.mem_writeSourceSeen.mp hm with hm | ⟨b, bs, hfed, -⟩
    · obtain ⟨hcut, hnet⟩ := feed_of_mem_moments hm hfired
      rw [hcut] at hc
      obtain ⟨rfl, rfl⟩ := EStateM.Result.error.inj hc
      exact ⟨_, rfl, hnet⟩
    · exact absurd hfed (hn' b bs)

theorem found_writeSource (sent : Nat) (p : Body.Position) (source : Script) (l : Link) :
    ∀ l', writeSource sent p source l = .error (.failed .cancelled) l' →
      ∃ m ∈ Watched.writeSourceSeen sent p source l, m.isFired l.connection.token = true := by
  fun_induction writeSource sent p source l with
  | case1 sent p source l fed hfed =>
    intro l' hr
    cases hr
  | case2 sent p source l fed b bs hfed out halt later hw =>
    intro l' hr
    obtain ⟨rfl, rfl⟩ := EStateM.Result.error.inj hr
    obtain ⟨m, hm, hfired⟩ := (freezes_writeAll out .body sent _).found later hw
    exact ⟨m, Watched.mem_writeSourceSeen.mpr (.inr ⟨b, bs, hfed, .inl hm⟩), hfired⟩
  | case3 sent p source l fed b bs hfed out later hw ih =>
    intro l' hr
    obtain ⟨m, hm, hfired⟩ := ih l' hr
    have htoken : later.connection.token = l.connection.token :=
      ((freezes_writeAll out .body sent _).ends.of_ok hw).token
    exact ⟨m, Watched.mem_writeSourceSeen.mpr (.inr ⟨b, bs, hfed, .inr ⟨later, hw, hm⟩⟩), htoken ▸ hfired⟩
  | case4 sent p source l fed o later hn hn' hc =>
    intro l' hr
    cases hr
  | case5 sent p source l fed halt later hn hn' hc =>
    intro l' hr
    obtain ⟨rfl, rfl⟩ := EStateM.Result.error.inj hr
    obtain ⟨m, hm, hfired⟩ := Network.exists_moment_of_cancelled (eq_cutOff_of_conclude hc)
    exact ⟨m, Watched.mem_writeSourceSeen.mpr (.inl hm), hfired⟩

theorem ends_writeSource_watches (sent : Nat) (p : Body.Position) (source : Script) (l : Link) :
    Ends (writeSource sent p source) l
      (fun _ l' => l.Watches l' (Watched.writeSourceSeen sent p source l))
      (fun _ l' => l.Watches l' (Watched.writeSourceSeen sent p source l)) := by
  unfold Ends
  fun_induction writeSource sent p source l with
  | case1 sent p source l fed hfed => exact (watches_fed source l []).mono (List.forall_mem_nil _)
  | case2 sent p source l fed b bs hfed out halt later hw =>
    refine ((watches_fed source l (b :: bs)).trans
      ((freezes_writeAll out .body sent _).ends.of_error hw)).mono fun m hm => ?_
    exact Watched.mem_writeSourceSeen.mpr (.inr ⟨b, bs, hfed, .inl hm⟩)
  | case3 sent p source l fed b bs hfed out later hw ih =>
    have hsofar := (watches_fed source l (b :: bs)).trans
      ((freezes_writeAll out .body sent _).ends.of_ok hw)
    have hmem : ∀ m ∈ ([] ++ (Watched.writeAll out .body sent).seen (fed.note (.fed (b :: bs)))) ++
        Watched.writeSourceSeen (sent + out.length) (p.behind (b :: bs)) (feed source l).2.1 later,
        m ∈ Watched.writeSourceSeen sent p source l := by
      intro m hm
      refine Watched.mem_writeSourceSeen.mpr (.inr ⟨b, bs, hfed, ?_⟩)
      exact (List.mem_append.mp hm).imp_right fun hm => ⟨later, hw, hm⟩
    have hrest : Ends (writeSource _ _ _) later _ _ := ih
    exact hrest.mono (fun _ _ hl => (hsofar.trans hl).mono hmem) fun _ _ hl => (hsofar.trans hl).mono hmem
  | case4 sent p source l fed o later hn hn' hc =>
    obtain ⟨-, rfl⟩ := conclude_eq_ok hc
    exact (watches_feed source l).mono (List.forall_mem_nil _)
  | case5 sent p source l fed halt later hn hn' hc =>
    obtain ⟨rfl, -, -⟩ := conclude_eq_error hc
    exact (watches_feed source l).mono (List.forall_mem_nil _)

theorem freezes_writeSource (sent : Nat) (p : Body.Position) (source : Script) (l : Link) :
    Freezes (Watched.writeSource sent p source) l :=
  ⟨stops_writeSource sent p source l, found_writeSource sent p source l,
    ends_writeSource_watches sent p source l⟩

theorem freezes_writeSources (sent : Nat) (p : Body.Position) (sources : List Script) (l : Link) :
    Freezes (Watched.writeSources sent p sources) l := by
  induction sources generalizing sent p l with
  | nil => exact freezes_pure sent l
  | cons source rest ih =>
    exact (freezes_writeSource sent p source l).bind fun r l' => ih r.1 r.2 l'

theorem freezes_writeBody (sources : List (Option Script)) (l : Link) :
    Freezes (Watched.writeBody sources) l :=
  (freezes_writeSources 0 .lineStart (sources.filterMap id) l).bind fun sent l₁ =>
    (freezes_writeAll Body.terminator .body sent l₁).bind fun _ l₂ =>
      (freezes_flush .body _ l₂).bind fun _ l₃ => freezes_pure _ l₃

end Link

end MailSubmission
