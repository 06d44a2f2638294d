import MailSubmission.Proofs.ReplySegmentation

set_option autoImplicit false

/-!
# Trying a read again is waiting longer

A read that runs out of time is tried again, and what it waited for goes on meanwhile.  So a wait that
is cut in two comes to what one wait as long as both does: it is answered the same at the same time,
or it is cut off the same.  A connection that tries its reads again therefore reads every reply as one
that has as much patience at once (`Link.readReply_sameEnd`).

The two differ in nothing that can be seen, but signals for others may have fired in a different
order (`Network.Alike`).
-/

namespace MailSubmission

/-! ## Networks that are alike -/

/-- The same signals have been made and have fired, in whichever order. -/
def Switchboard.Alike (s other : Switchboard) : Prop :=
  s.made = other.made ∧ ∀ t, s.isFired t = other.isFired t

namespace Network

/-- `other` is `net` but for the order in which its signals have fired. -/
def Alike (net other : Network) : Prop :=
  ∃ signals, other = { net with signals } ∧ net.signals.Alike signals

variable {net other mid : Network} {token : Token} {limit t u room : Nat} {source rest : Script}

theorem Alike.refl (net : Network) : net.Alike net := ⟨net.signals, rfl, rfl, fun _ => rfl⟩

theorem Alike.trans {last : Network} (h : net.Alike other) (g : other.Alike last) :
    net.Alike last := by
  obtain ⟨signals, rfl, hmade, hfired⟩ := h
  obtain ⟨signals', rfl, hmade', hfired'⟩ := g
  exact ⟨signals', rfl, hmade.trans hmade', fun t => (hfired t).trans (hfired' t)⟩

theorem Alike.symm (h : net.Alike other) : other.Alike net := by
  obtain ⟨signals, rfl, hmade, hfired⟩ := h
  exact ⟨net.signals, rfl, hmade.symm, fun t => (hfired t).symm⟩

theorem Alike.isFired (h : net.Alike other) (t : Token) : net.isFired t = other.isFired t := by
  obtain ⟨signals, rfl, -, hfired⟩ := h
  exact hfired t

theorem Alike.now (h : net.Alike other) : other.now = net.now := by
  obtain ⟨signals, rfl, -⟩ := h
  rfl

theorem Alike.note (h : net.Alike other) (e : Entry) : (net.note e).Alike (other.note e) := by
  obtain ⟨signals, rfl, hsignals⟩ := h
  exact ⟨signals, rfl, hsignals⟩

/-! ## Firing -/

theorem made_fire (s : Switchboard) (c : Canceller) : (s.fire c).made = s.made := by
  unfold Switchboard.fire
  split
  · rfl
  · rfl

theorem made_foldl_fire (alarms : List Alarm) (s : Switchboard) :
    (alarms.foldl (fun s a => s.fire a.canceller) s).made = s.made := by
  induction alarms generalizing s with
  | nil => rfl
  | cons a alarms ih => rw [List.foldl_cons, ih, made_fire]

theorem Alike.fire (h : net.Alike other) (c : Canceller) : (net.fire c).Alike (other.fire c) := by
  obtain ⟨signals, rfl, hmade, hfired⟩ := h
  refine ⟨_, rfl, ?_, fun token => ?_⟩
  · exact (made_fire _ c).trans (hmade.trans (made_fire _ c).symm)
  · exact (isFired_fire _ c token).trans
      ((congrArg (· || _) (hfired token)).trans (isFired_fire _ c token).symm)

theorem Alike.advance (h : net.Alike other) (t : Nat) : (net.advance t).Alike (other.advance t) := by
  obtain ⟨signals, rfl, hmade, hfired⟩ := h
  refine ⟨_, rfl, ?_, fun token => ?_⟩
  · exact (made_foldl_fire _ _).trans (hmade.trans (made_foldl_fire _ _).symm)
  · exact (isFired_foldl_fire _ _ _).trans
      ((congrArg (· || _) (hfired token)).trans (isFired_foldl_fire _ _ _).symm)

/-- The time may move on in two steps. -/
theorem alike_advance_advance (net : Network) (h : t ≤ u) :
    (net.advance u).Alike ((net.advance t).advance u) := by
  have halarms : ∀ a : Alarm,
      (!decide (a.time ≤ t) && !decide (a.time ≤ u)) = !decide (a.time ≤ u) := by
    intro a
    by_cases hu : a.time ≤ u
    · simp [hu]
    · simp [hu, show ¬ a.time ≤ t by omega]
  refine ⟨((net.advance t).advance u).signals, ?_, ?_, fun token => ?_⟩
  · simp only [advance, List.filter_filter, Network.mk.injEq, and_true, true_and]
    refine ⟨by omega, List.filter_congr fun a _ => ?_⟩
    rw [Bool.and_comm]
    exact halarms a
  · exact (made_foldl_fire _ _).trans
      ((made_foldl_fire _ _).trans (made_foldl_fire _ _)).symm
  · have hone := isFired_advance net u token
    have htwo := isFired_advance (net.advance t) u token
    rw [isFired_advance net t token] at htwo
    refine hone.trans (Eq.trans ?_ htwo.symm)
    rw [Bool.or_assoc, Bool.eq_iff_iff]
    simp only [Bool.or_eq_true, List.any_eq_true, List.mem_filter, advance, decide_eq_true_eq,
      Bool.not_eq_true', decide_eq_false_iff_not]
    constructor
    · rintro (hfired | ⟨a, ⟨ha, hu⟩, htoken⟩)
      · exact .inl hfired
      · by_cases ht : a.time ≤ t
        · exact .inr (.inl ⟨a, ⟨ha, ht⟩, htoken⟩)
        · exact .inr (.inr ⟨a, ⟨⟨ha, ht⟩, hu⟩, htoken⟩)
    · rintro (hfired | ⟨a, ⟨ha, ht⟩, htoken⟩ | ⟨a, ⟨⟨ha, -⟩, hu⟩, htoken⟩)
      · exact .inl hfired
      · exact .inr ⟨a, ⟨ha, by omega⟩, htoken⟩
      · exact .inr ⟨a, ⟨ha, hu⟩, htoken⟩

/-! ## Sleeping in two parts -/

/-- Two sleeps end the same way. -/
def SameSleep (x y : Option Cut × Network) : Prop := x.1 = y.1 ∧ x.2.Alike y.2

theorem SameSleep.refl (x : Option Cut × Network) : SameSleep x x := ⟨rfl, .refl x.2⟩

theorem Alike.sleepUntil (h : net.Alike other) (token : Token) (t : Nat) :
    SameSleep (net.sleepUntil token t) (other.sleepUntil token t) := by
  have hadvance := h.advance
  have hfired := h.isFired token
  obtain ⟨signals, rfl, hsignals⟩ := h
  unfold Network.sleepUntil
  rw [← hfired]
  split
  · exact ⟨rfl, signals, rfl, hsignals⟩
  split
  · exact ⟨rfl, signals, rfl, hsignals⟩
  split
  · exact ⟨rfl, signals, rfl, hsignals⟩
  have halarm : (Network.alarmFor { net with signals } token).filter
      (fun a => a ≤ t && Network.comesInTime { net with signals } a) =
        (net.alarmFor token).filter fun a => a ≤ t && net.comesInTime a := rfl
  rw [halarm]
  cases (net.alarmFor token).filter fun a => a ≤ t && net.comesInTime a with
  | some a => exact ⟨rfl, hadvance a⟩
  | none =>
    cases hdeadline : net.deadline.filter (· < t) with
    | some d => exact ⟨rfl, hadvance d⟩
    | none => exact ⟨rfl, hadvance t⟩

theorem Alike.sleepWithin (h : net.Alike other) (token : Token) (limit t : Nat) :
    SameSleep (net.sleepWithin token limit t) (other.sleepWithin token limit t) := by
  unfold Network.sleepWithin
  rw [h.now]
  split
  · exact h.sleepUntil token t
  · obtain ⟨hcut, hlater⟩ := h.sleepUntil token limit
    cases hx : net.sleepUntil token limit with
    | mk cut later =>
      cases hy : other.sleepUntil token limit with
      | mk cut' later' =>
        rw [hx, hy] at hcut hlater
        obtain rfl : cut = cut' := hcut
        cases cut with
        | none => exact ⟨rfl, hlater⟩
        | some cut => exact ⟨rfl, hlater⟩

/-- What cuts a sleep off cuts a longer one off too. -/
theorem sleepUntil_of_cutOff {cut : Cut} (hle : limit ≤ t)
    (h : net.sleepUntil token limit = (some cut, mid)) :
    net.sleepUntil token t = (some cut, mid) := by
  unfold sleepUntil at h ⊢
  split at h
  · cases h
  rename_i hnow
  rw [if_neg (by omega)]
  split at h
  · rename_i hdeadline
    rwa [if_pos hdeadline]
  rename_i hdeadline
  rw [if_neg hdeadline]
  split at h
  · rename_i hfired
    rwa [if_pos hfired]
  rename_i hfired
  rw [if_neg hfired]
  split at h
  · rename_i a halarm
    obtain ⟨ha, hcomes⟩ := Option.filter_eq_some_iff.mp halarm
    simp only [Bool.and_eq_true, decide_eq_true_eq] at hcomes
    rw [Option.filter_eq_some_iff.mpr ⟨ha, by simp [hcomes.2, Nat.le_trans hcomes.1 hle]⟩]
    exact h
  rename_i halarm
  split at h
  · rename_i d hd
    obtain ⟨hdeadline, hlt⟩ := Option.filter_eq_some_iff.mp hd
    have hlt : d < limit := of_decide_eq_true hlt
    have halarm' : (net.alarmFor token).filter (fun a => a ≤ t && net.comesInTime a) = none := by
      rw [Option.filter_eq_none_iff] at halarm ⊢
      intro a ha hcomes
      have hnot := halarm a ha
      simp only [comesInTime, hdeadline, Option.all_some, Bool.and_eq_true,
        decide_eq_true_eq] at hcomes hnot
      omega
    have hdeadline' : net.deadline.filter (· < t) = some d :=
      Option.filter_eq_some_iff.mpr ⟨hdeadline, by simp; omega⟩
    rw [halarm', hdeadline']
    exact h
  · cases h

/-- A sleep that nothing cuts off was over when it began, or it is quiet until it is over. -/
theorem sleepUntil_eq_none (h : net.sleepUntil token limit = (none, mid)) :
    (limit ≤ net.now ∧ mid = net) ∨
      (net.now < limit ∧ mid = net.advance limit ∧ net.Quiet token limit) := by
  unfold sleepUntil at h
  split at h
  · rename_i hnow
    exact .inl ⟨hnow, (Prod.mk.inj h).2.symm⟩
  rename_i hnow
  split at h
  · cases h
  split at h
  · cases h
  rename_i hfired
  split at h
  · cases h
  rename_i halarm
  split at h
  · cases h
  rename_i hdeadline
  rw [Option.filter_eq_none_iff] at halarm hdeadline
  have hpatient : ∀ d, net.deadline = some d → limit ≤ d := by
    intro d hd
    have hnot := hdeadline d hd
    rw [decide_eq_true_eq] at hnot
    omega
  refine .inr ⟨by omega, (Prod.mk.inj h).2.symm, Bool.eq_false_iff.mpr hfired, ?_, hpatient⟩
  intro a ha htoken
  obtain ⟨m, hm, hle⟩ := exists_alarmFor ha htoken
  by_contra hlate
  refine halarm m hm ?_
  rw [comesInTime, Bool.and_eq_true, decide_eq_true_eq, Option.all_eq_true]
  refine ⟨by omega, fun d hd => ?_⟩
  have hend := hpatient d hd
  rw [decide_eq_true_eq]
  omega

theorem of_sleepUntil_eq_none (h : net.sleepUntil token limit = (none, mid)) :
    mid.now = max net.now limit ∧ mid.isFired token = net.isFired token := by
  rcases sleepUntil_eq_none h with ⟨hnow, rfl⟩ | ⟨hnow, rfl, hquiet⟩
  · exact ⟨(Nat.max_eq_left hnow).symm, rfl⟩
  · exact ⟨rfl, (hquiet.advance (Nat.le_refl limit)).unfired.trans hquiet.unfired.symm⟩

theorem alarmFor_advance (h : net.Quiet token limit) :
    (net.advance limit).alarmFor token = net.alarmFor token := by
  unfold alarmFor advance
  rw [List.filter_filter]
  congr 2
  refine List.filter_congr fun a ha => ?_
  cases htoken : a.canceller.signal == token.signal with
  | false => rfl
  | true =>
    have hlate := h.alarms a ha (beq_iff_eq.mp htoken)
    simp [show ¬ a.time ≤ limit by omega]

/-- A sleep that has to be slept, and is not cut off at once. -/
theorem sleepUntil_of_unfired (hnow : net.now < t)
    (hpatient : ∀ d, net.deadline = some d → net.now < d) (hfired : net.isFired token = false) :
    net.sleepUntil token t =
      match (net.alarmFor token).filter (fun a => a ≤ t && net.comesInTime a) with
      | some a => (some .cancelled, net.advance a)
      | none =>
        match net.deadline.filter (· < t) with
        | some d => (some .abandoned, net.advance d)
        | none => (none, net.advance t) := by
  have hbegun : net.deadline.any (· ≤ net.now) = false := by
    rw [Option.any_eq_false]
    intro d hd
    simpa using hpatient d hd
  unfold sleepUntil
  rw [if_neg (Nat.not_le.mpr hnow), hbegun, hfired]
  rfl

/-- A sleep may be taken in two parts. -/
theorem sleepUntil_again (hle : limit ≤ t) (h : net.sleepUntil token limit = (none, mid)) :
    SameSleep (net.sleepUntil token t) (mid.sleepUntil token t) := by
  rcases sleepUntil_eq_none h with ⟨-, rfl⟩ | ⟨hnow, rfl, hquiet⟩
  · exact .refl _
  have hreached : (net.advance limit).now = limit := Nat.max_eq_right (Nat.le_of_lt hnow)
  rcases Nat.eq_or_lt_of_le hle with rfl | hlt
  · have hover : (net.advance limit).sleepUntil token limit = (none, net.advance limit) :=
      if_pos (Nat.le_of_eq hreached.symm)
    rw [h, hover]
    exact .refl _
  rw [sleepUntil_of_unfired (by omega) (fun d hd => Nat.lt_of_lt_of_le hnow (hquiet.patient d hd))
    hquiet.unfired]
  by_cases hends : net.deadline = some limit
  · -- The caller drops the call just between the two parts.
    have hdropped : (net.advance limit).sleepUntil token t = (some .abandoned, net.advance limit) := by
      unfold sleepUntil
      rw [if_neg (by omega), if_pos]
      rw [show (net.advance limit).deadline = some limit from hends, hreached]
      simp
    have halarm : (net.alarmFor token).filter (fun a => a ≤ t && net.comesInTime a) = none := by
      rw [Option.filter_eq_none_iff]
      intro a ha
      have hlate := hquiet.alarmFor ha
      simp only [comesInTime, hends, Option.all_some, Bool.and_eq_true, decide_eq_true_eq]
      omega
    have hdeadline : net.deadline.filter (· < t) = some limit := by
      rw [hends, Option.filter_some_pos (by simpa using hlt)]
    rw [hdropped, halarm, hdeadline]
    exact .refl _
  · have hpatient : ∀ d, (net.advance limit).deadline = some d → (net.advance limit).now < d := by
      intro d hd
      have hle := hquiet.patient d hd
      rw [hreached]
      refine Nat.lt_of_le_of_ne hle ?_
      rintro rfl
      exact hends hd
    rw [sleepUntil_of_unfired (by omega) hpatient (hquiet.advance (Nat.le_refl limit)).unfired,
      alarmFor_advance hquiet]
    have hcomes : (net.alarmFor token).filter (fun a => a ≤ t && (net.advance limit).comesInTime a) =
        (net.alarmFor token).filter fun a => a ≤ t && net.comesInTime a := rfl
    have hdeadline : (net.advance limit).deadline = net.deadline := rfl
    rw [hcomes, hdeadline]
    cases halarm : (net.alarmFor token).filter fun a => a ≤ t && net.comesInTime a with
    | some a =>
      have hlate := hquiet.alarmFor (Option.filter_eq_some_iff.mp halarm).1
      exact ⟨rfl, alike_advance_advance net (Nat.le_of_lt hlate)⟩
    | none =>
      cases hcut : net.deadline.filter (· < t) with
      | some d =>
        have hle := hquiet.patient d (Option.filter_eq_some_iff.mp hcut).1
        exact ⟨rfl, alike_advance_advance net hle⟩
      | none => exact ⟨rfl, alike_advance_advance net hle⟩

/-- A limit that is not reached makes no difference. -/
theorem sleepWithin_longer {longer : Nat} (hle : limit ≤ longer)
    (h : (net.sleepWithin token limit t).1 ≠ some .timedOut) :
    net.sleepWithin token longer t = net.sleepWithin token limit t := by
  unfold sleepWithin at h ⊢
  by_cases hwithin : t ≤ max limit net.now
  · rw [if_pos hwithin, if_pos (by omega)]
  · rw [if_neg hwithin] at h ⊢
    cases hs : net.sleepUntil token limit with
    | mk cut mid =>
      rw [hs] at h
      cases cut with
      | none => exact absurd rfl h
      | some cut =>
        dsimp only
        split
        · exact sleepUntil_of_cutOff (by omega) hs
        · rw [sleepUntil_of_cutOff hle hs]

/-- Where a limit is reached, a longer sleep goes on. -/
theorem sleepWithin_again {longer : Nat} (hle : limit ≤ longer)
    (h : net.sleepWithin token limit t = (some .timedOut, mid)) :
    SameSleep (net.sleepWithin token longer t) (mid.sleepWithin token longer t) ∧
      mid.now = max net.now limit ∧ mid.isFired token = net.isFired token := by
  unfold sleepWithin at h ⊢
  split at h
  · exact absurd (congrArg Prod.fst h) (sleepUntil_ne_timedOut _ _ _)
  rename_i hbeyond
  cases hs : net.sleepUntil token limit with
  | mk cut later =>
    rw [hs] at h
    cases cut with
    | some cut =>
      obtain rfl : cut = .timedOut := Option.some.inj (congrArg Prod.fst h)
      exact absurd (congrArg Prod.fst hs) (sleepUntil_ne_timedOut _ _ _)
    | none =>
      obtain rfl : later = mid := congrArg Prod.snd h
      obtain ⟨hnow, hfired⟩ := of_sleepUntil_eq_none hs
      refine ⟨?_, hnow, hfired⟩
      by_cases hwithin : t ≤ longer
      · rw [if_pos (by omega), if_pos (by omega)]
        exact sleepUntil_again (by omega) hs
      · rw [if_neg (by omega), if_neg (by omega)]
        obtain ⟨hcut, hlater⟩ := sleepUntil_again hle hs
        cases hx : net.sleepUntil token longer with
        | mk cut x =>
          cases hy : later.sleepUntil token longer with
          | mk cut' y =>
            rw [hx, hy] at hcut hlater
            obtain rfl : cut = cut' := hcut
            cases cut with
            | none => exact ⟨rfl, hlater⟩
            | some cut => exact ⟨rfl, hlater⟩

/-! ## Waiting for a source in two parts -/

/-- Two waits for a source end the same way. -/
def SameWait (x y : Arrival × Script × Network) : Prop :=
  x.1 = y.1 ∧ x.2.1 = y.2.1 ∧ x.2.2.Alike y.2.2

theorem SameWait.trans {x y z : Arrival × Script × Network} (h : SameWait x y) (g : SameWait y z) :
    SameWait x z :=
  ⟨h.1.trans g.1, h.2.1.trans g.2.1, h.2.2.trans g.2.2⟩

theorem SameWait.symm {x y : Arrival × Script × Network} (h : SameWait x y) : SameWait y x :=
  ⟨h.1.symm, h.2.1.symm, h.2.2.symm⟩

/-- A delay is counted from when it is reached. -/
theorem await_delay (token : Token) (limit room ms : Nat) (rest : Script) (net : Network) :
    await token limit room (.delay ms :: rest) net =
      await token limit room (.due (net.now + ms) :: rest) net := rfl

theorem sameWait_due (hrest : ∀ {net other : Network}, net.Alike other →
      SameWait (await token limit room rest net) (await token limit room rest other))
    (h : SameSleep (net.sleepWithin token limit t) (other.sleepWithin token limit t)) :
    SameWait (await token limit room (.due t :: rest) net)
      (await token limit room (.due t :: rest) other) := by
  obtain ⟨hcut, hlater⟩ := h
  simp only [await]
  cases hx : net.sleepWithin token limit t with
  | mk cut later =>
    cases hy : other.sleepWithin token limit t with
    | mk cut' later' =>
      rw [hx, hy] at hcut hlater
      obtain rfl : cut = cut' := hcut
      cases cut with
      | none => exact hrest hlater
      | some cut => exact ⟨rfl, rfl, hlater⟩

theorem sameWait_hang
    (h : SameSleep (net.sleepUntil token limit) (other.sleepUntil token limit)) :
    SameWait (await token limit room (.hang :: rest) net)
      (await token limit room (.hang :: rest) other) := by
  obtain ⟨hcut, hlater⟩ := h
  simp only [await]
  cases hx : net.sleepUntil token limit with
  | mk cut later =>
    cases hy : other.sleepUntil token limit with
    | mk cut' later' =>
      rw [hx, hy] at hcut hlater
      obtain rfl : cut = cut' := hcut
      cases cut with
      | none => exact ⟨rfl, rfl, hlater⟩
      | some cut => exact ⟨rfl, rfl, hlater⟩

theorem Alike.await (h : net.Alike other) (token : Token) (limit room : Nat) (source : Script) :
    SameWait (await token limit room source net) (await token limit room source other) := by
  induction source generalizing net other with
  | nil => exact ⟨rfl, rfl, h⟩
  | cons e rest ih =>
    cases e with
    | data bs =>
      simp only [Network.await]
      split
      · exact ⟨rfl, rfl, h⟩
      · exact ⟨rfl, rfl, h⟩
    | error text => exact ⟨rfl, rfl, h⟩
    | cancel =>
      have htrigger : other.trigger = net.trigger := by
        obtain ⟨signals, rfl, -⟩ := h
        rfl
      simp only [Network.await, htrigger]
      exact ih (h.fire net.trigger)
    | hang => exact sameWait_hang (h.sleepUntil token limit)
    | due t => exact sameWait_due ih (h.sleepWithin token limit t)
    | delay ms =>
      rw [await_delay, await_delay, h.now]
      exact sameWait_due ih (h.sleepWithin token limit _)

theorem await_due_longer {longer : Nat} (hle : limit ≤ longer)
    (hrest : ∀ {net : Network}, (Network.await token limit room rest net).1 ≠ .cutOff .timedOut →
      Network.await token longer room rest net = Network.await token limit room rest net)
    (h : (Network.await token limit room (.due t :: rest) net).1 ≠ .cutOff .timedOut) :
    Network.await token longer room (.due t :: rest) net =
      Network.await token limit room (.due t :: rest) net := by
  have hwithin : (net.sleepWithin token limit t).1 ≠ some .timedOut := by
    intro htimedOut
    simp only [Network.await] at h
    cases hs : net.sleepWithin token limit t with
    | mk cut mid =>
      rw [hs] at h htimedOut
      obtain rfl : cut = some .timedOut := htimedOut
      exact h rfl
  simp only [Network.await, sleepWithin_longer hle hwithin] at h ⊢
  cases hs : net.sleepWithin token limit t with
  | mk cut mid =>
    rw [hs] at h
    cases cut with
    | none => exact hrest h
    | some cut => rfl

/-- A wait that its limit does not cut off is the same with a later limit. -/
theorem await_longer {longer : Nat} (hle : limit ≤ longer)
    (h : (Network.await token limit room source net).1 ≠ .cutOff .timedOut) :
    Network.await token longer room source net = Network.await token limit room source net := by
  induction source generalizing net with
  | nil => rfl
  | cons e rest ih =>
    cases e with
    | data bs => rfl
    | error text => rfl
    | cancel => exact ih h
    | hang =>
      simp only [Network.await] at h ⊢
      cases hs : net.sleepUntil token limit with
      | mk cut mid =>
        rw [hs] at h
        cases cut with
        | none => exact absurd rfl h
        | some cut => rw [sleepUntil_of_cutOff hle hs]
    | due t => exact await_due_longer hle ih h
    | delay ms =>
      rw [await_delay] at h ⊢
      exact await_due_longer hle ih h

/-- A wait for `source` that got as far as `mid`, with `rest` still to come, may go on there until
`longer`; it was cut off at `limit`. -/
structure Resumes (token : Token) (limit longer room : Nat) (source : Script) (net : Network)
    (rest : Script) (mid : Network) : Prop where
  same : SameWait (Network.await token longer room source net) (Network.await token longer room rest mid)
  now : mid.now = max net.now limit
  fired : mid.isFired token = net.isFired token

theorem resumes_due {longer : Nat} {left : Script} (hle : limit ≤ longer)
    (hrest : ∀ {net : Network}, Network.await token limit room rest net = (.cutOff .timedOut, left, mid) →
      Resumes token limit longer room rest net left mid)
    (h : Network.await token limit room (.due t :: rest) net = (.cutOff .timedOut, left, mid)) :
    Resumes token limit longer room (.due t :: rest) net left mid := by
  simp only [Network.await] at h
  cases hs : net.sleepWithin token limit t with
  | mk cut later =>
    rw [hs] at h
    cases cut with
    | none =>
      have hslept : net.sleepUntil token t = (none, later) ∧ t ≤ max limit net.now := by
        unfold sleepWithin at hs
        split at hs
        · rename_i hwithin
          exact ⟨hs, hwithin⟩
        · split at hs
          · cases hs
          · rename_i hcut
            exact absurd hs (hcut later)
      obtain ⟨hnow, hfired⟩ := of_sleepUntil_eq_none hslept.1
      have hresumes := hrest h
      refine ⟨?_, ?_, hresumes.fired.trans hfired⟩
      · have hlonger : net.sleepWithin token longer t = net.sleepWithin token limit t :=
          sleepWithin_longer hle (by simp [hs])
        have hsame := hresumes.same
        simp only [Network.await, hlonger, hs]
        exact hsame
      · have := hslept.2
        rw [hresumes.now, hnow]
        omega
    | some cut =>
      simp only [Prod.mk.injEq, Arrival.cutOff.injEq] at h
      obtain ⟨rfl, rfl, rfl⟩ := h
      obtain ⟨hsame, hnow, hfired⟩ := sleepWithin_again hle hs
      exact ⟨sameWait_due (fun h => h.await token longer room rest) hsame, hnow, hfired⟩

/-- Where the limit of a wait is reached, a longer wait goes on. -/
theorem resumes_of_timedOut {longer : Nat} {left : Script} (hle : limit ≤ longer)
    (hcancel : .cancel ∉ source)
    (h : Network.await token limit room source net = (.cutOff .timedOut, left, mid)) :
    Resumes token limit longer room source net left mid := by
  induction source generalizing net with
  | nil => simp [Network.await] at h
  | cons e rest ih =>
    have hrest : .cancel ∉ rest := fun hmem => hcancel (List.mem_cons_of_mem e hmem)
    cases e with
    | data bs =>
      simp only [Network.await] at h
      split at h
      · cases h
      · cases h
    | error text => cases h
    | cancel => exact absurd List.mem_cons_self hcancel
    | hang =>
      simp only [Network.await] at h
      cases hs : net.sleepUntil token limit with
      | mk cut later =>
        rw [hs] at h
        cases cut with
        | none =>
          simp only [Prod.mk.injEq, true_and] at h
          obtain ⟨rfl, rfl⟩ := h
          obtain ⟨hnow, hfired⟩ := of_sleepUntil_eq_none hs
          exact ⟨sameWait_hang (sleepUntil_again hle hs), hnow, hfired⟩
        | some cut =>
          simp only [Prod.mk.injEq, Arrival.cutOff.injEq] at h
          obtain ⟨rfl, -⟩ := h
          exact absurd (congrArg Prod.fst hs) (sleepUntil_ne_timedOut _ _ _)
    | due t => exact resumes_due hle (ih hrest) h
    | delay ms =>
      rw [await_delay] at h
      have hresumes := resumes_due hle (ih hrest) h
      refine ⟨?_, hresumes.now, hresumes.fired⟩
      rw [await_delay]
      exact hresumes.same

/-- A source without cancellations has none left. -/
theorem cancel_notMem_await (token : Token) (limit room : Nat) {source : Script} (net : Network)
    (h : .cancel ∉ source) : .cancel ∉ (Network.await token limit room source net).2.1 := by
  induction source generalizing net with
  | nil => exact h
  | cons e rest ih =>
    have hrest : .cancel ∉ rest := fun hmem => h (List.mem_cons_of_mem e hmem)
    cases e with
    | data bs =>
      simp only [Network.await]
      split
      · exact hrest
      · simpa using hrest
    | error text => exact hrest
    | cancel => exact absurd List.mem_cons_self h
    | hang =>
      simp only [Network.await]
      split
      · exact h
      · exact h
    | due t =>
      simp only [Network.await]
      split
      · exact ih _ hrest
      · exact h
    | delay ms =>
      simp only [Network.await]
      split
      · exact ih _ hrest
      · simpa using hrest

/-! ## Bounded waits -/

variable {timeout more : Nat}

theorem SameWait.noteCut {x y : Arrival × Script × Network} (h : SameWait x y) :
    SameWait (x.1, x.2.1, x.2.2.noteCut x.1) (y.1, y.2.1, y.2.2.noteCut y.1) := by
  obtain ⟨harrival, hrest, hlater⟩ := h
  refine ⟨harrival, hrest, ?_⟩
  rw [← harrival]
  unfold Network.noteCut
  split
  · exact hlater.note _
  · exact hlater

theorem Alike.bounded (h : net.Alike other) (token : Token) (timeout room : Nat) (source : Script) :
    SameWait (net.bounded token timeout room source) (other.bounded token timeout room source) := by
  unfold Network.bounded
  rw [← h.isFired token, h.now]
  split
  · exact ⟨rfl, rfl, h.note _⟩
  · exact (h.await token (net.now + timeout) room source).noteCut

theorem bounded_longer (hle : timeout ≤ more)
    (h : (net.bounded token timeout room source).1 ≠ .cutOff .timedOut) :
    net.bounded token more room source = net.bounded token timeout room source := by
  unfold Network.bounded at h ⊢
  split
  · rfl
  · rename_i hfired
    rw [if_neg hfired] at h
    rw [await_longer (by omega) h]

theorem bounded_again (more : Nat) (hcancel : .cancel ∉ source)
    (h : net.bounded token timeout room source = (.cutOff .timedOut, rest, mid)) :
    SameWait (net.bounded token (timeout + more) room source) (mid.bounded token more room rest) := by
  unfold Network.bounded at h ⊢
  split at h
  · cases h
  rename_i hfired
  have hawait : Network.await token (net.now + timeout) room source net =
      (.cutOff .timedOut, rest, mid) := by
    simp only [Prod.mk.injEq] at h
    obtain ⟨harrival, hrest, hmid⟩ := h
    rw [harrival] at hmid
    exact Prod.ext harrival (Prod.ext hrest hmid)
  have hresumes : Resumes token (net.now + timeout) (net.now + (timeout + more)) room source net rest mid :=
    resumes_of_timedOut (by omega) hcancel hawait
  have hlimit : mid.now + more = net.now + (timeout + more) := by
    rw [hresumes.now]
    omega
  rw [hresumes.fired, if_neg hfired, if_neg hfired, hlimit]
  exact hresumes.same.noteCut

end Network

/-! ## Replies -/

/-- The connection with all its patience for one read at once. -/
def Connection.atOnce (c : Connection) : Connection :=
  { c with timeout := c.patience, readRetries := 0 }

/-- The network in which something was received, or not. -/
theorem Network.Alike.noteReceived {net other : Network} (h : net.Alike other) (connection : Nat)
    (arrival : Network.Arrival) :
    (net.noteReceived connection arrival).Alike (other.noteReceived connection arrival) := by
  unfold Network.noteReceived
  split
  · exact h.note _
  · exact h

namespace Link

open Run

/-- The link with all its patience for one read at once. -/
def atOnce (l : Link) : Link := { l with connection := l.connection.atOnce }

/-- `other` is `l` with all its patience at once, but for the order in which signals have fired; no
read is cancelled by what is read. -/
structure Rivals (l other : Link) : Prop where
  connection : other.connection = l.connection.atOnce
  net : l.net.Alike other.net
  uncancelled : .cancel ∉ l.connection.socket.reads

/-- Two calls end the same way, with links that `R` relates. -/
def SameEnd {α : Type} (R : Link → Link → Prop) :
    EStateM.Result (Halt Fault) Link α → EStateM.Result (Halt Fault) Link α → Prop
  | .ok a l, .ok b l' => a = b ∧ R l l'
  | .error e l, .error e' l' => e = e' ∧ R l l'
  | _, _ => False

variable {l mid other : Link} {phase : Phase} {transferred : Nat}

theorem Rivals.withInput (h : l.Rivals other) (decoder : Decoder) (buffer : List UInt8) :
    (l.withInput decoder buffer).Rivals (other.withInput decoder buffer) := by
  refine ⟨?_, h.net, h.uncancelled⟩
  unfold Link.withInput
  rw [h.connection]
  rfl

theorem Rivals.note (h : l.Rivals other) (e : Entry) : (l.note e).Rivals (other.note e) :=
  ⟨h.connection, h.net.note e, h.uncancelled⟩

/-! ### Filling the buffer -/

/-- What filling the buffer comes to with a read that is not tried again, where `x` is what came of
the wait. -/
def settle (phase : Phase) (transferred : Nat) (l : Link) (x : Network.Arrival × Script × Network) :
    EStateM.Result (Halt Fault) Link (List UInt8) :=
  let later := l.behindReads x.2.1 (x.2.2.noteReceived l.connection.socket.number x.1)
  match x.1 with
  | .ready bs => .ok bs later
  | .failed text => .error (.failed (.network text)) later
  | .cutOff .timedOut => .error (.failed (.timeout phase transferred)) later
  | .cutOff .cancelled => .error (.failed .cancelled) later
  | .cutOff .abandoned => .error .abandoned later

/-- The wait of a read with so much patience. -/
def waitToRead (l : Link) (patience : Nat) : Network.Arrival × Script × Network :=
  l.net.bounded l.connection.token patience readRoom l.connection.socket.reads

theorem read_eq (l : Link) : read l =
    conclude (l.behindReads (l.waitToRead l.connection.timeout).2.1
      ((l.waitToRead l.connection.timeout).2.2.noteReceived l.connection.socket.number
        (l.waitToRead l.connection.timeout).1))
      (l.waitToRead l.connection.timeout).1 := rfl

theorem fill_of_ok (phase : Phase) (transferred retries : Nat) {later : Link} {bs : List UInt8}
    (h : read l = .ok (some bs) later) : fill phase transferred retries l = .ok bs later := by
  cases retries with
  | zero => exact bind_of_ok h
  | succ retries => exact bind_of_ok h

theorem fill_of_error (phase : Phase) (transferred retries : Nat) {later : Link} {e : Halt Fault}
    (h : read l = .error e later) : fill phase transferred retries l = .error e later := by
  cases retries with
  | zero => exact bind_of_error h
  | succ retries => exact bind_of_error h

/-- A read that is answered is not tried again. -/
theorem fill_of_answered (phase : Phase) (transferred retries : Nat) {l : Link}
    (h : (l.waitToRead l.connection.timeout).1 ≠ .cutOff .timedOut) :
    fill phase transferred retries l =
      settle phase transferred l (l.waitToRead l.connection.timeout) := by
  have hread := l.read_eq
  unfold settle
  cases harrival : (l.waitToRead l.connection.timeout).1 with
  | ready bs =>
    rw [harrival] at hread
    exact fill_of_ok phase transferred retries hread
  | failed text =>
    rw [harrival] at hread
    exact fill_of_error phase transferred retries hread
  | cutOff cut =>
    rw [harrival] at hread h
    cases cut with
    | timedOut => exact absurd rfl h
    | cancelled => exact fill_of_error phase transferred retries hread
    | abandoned => exact fill_of_error phase transferred retries hread

theorem fill_zero (phase : Phase) (transferred : Nat) (l : Link) :
    fill phase transferred 0 l = settle phase transferred l (l.waitToRead l.connection.timeout) := by
  by_cases h : (l.waitToRead l.connection.timeout).1 = .cutOff .timedOut
  · have hread := l.read_eq
    unfold settle
    rw [h] at hread ⊢
    exact bind_of_ok hread
  · exact fill_of_answered phase transferred 0 h

/-- A read whose time runs out is tried again. -/
theorem fill_succ_of_timedOut (phase : Phase) (transferred retries : Nat) {l : Link} {rest : Script}
    {net : Network} (h : l.waitToRead l.connection.timeout = (.cutOff .timedOut, rest, net)) :
    fill phase transferred (retries + 1) l = fill phase transferred retries (l.behindReads rest net) := by
  have hread := l.read_eq
  rw [h] at hread
  exact bind_of_ok hread

theorem sameEnd_settle {x y : Network.Arrival × Script × Network} (h : Network.SameWait x y)
    (hcancel : .cancel ∉ x.2.1) :
    SameEnd Rivals (settle phase transferred l x) (settle phase transferred l.atOnce y) := by
  obtain ⟨harrival, hrest, hlater⟩ := h
  have hrivals : (l.behindReads x.2.1 (x.2.2.noteReceived l.connection.socket.number x.1)).Rivals
      (l.atOnce.behindReads y.2.1 (y.2.2.noteReceived l.connection.socket.number y.1)) := by
    rw [← harrival, ← hrest]
    exact ⟨rfl, hlater.noteReceived _ _, hcancel⟩
  unfold settle
  rw [← harrival] at hrivals ⊢
  split
  · exact ⟨rfl, hrivals⟩
  · exact ⟨rfl, hrivals⟩
  · exact ⟨rfl, hrivals⟩
  · exact ⟨rfl, hrivals⟩
  · exact ⟨rfl, hrivals⟩

theorem cancel_notMem_waitToRead (hcancel : .cancel ∉ l.connection.socket.reads) (patience : Nat) :
    .cancel ∉ (l.waitToRead patience).2.1 := by
  unfold waitToRead Network.bounded
  split
  · exact hcancel
  · exact Network.cancel_notMem_await _ _ _ _ hcancel

/-- Filling the buffer comes to the same as with one read that has all the patience. -/
theorem fill_sameEnd (phase : Phase) (transferred retries : Nat) {x : Network.Arrival × Script × Network}
    (hcancel : .cancel ∉ l.connection.socket.reads)
    (hx : Network.SameWait (l.waitToRead ((retries + 1) * l.connection.timeout)) x) :
    SameEnd Rivals (fill phase transferred retries l) (settle phase transferred l.atOnce x) := by
  induction retries generalizing l with
  | zero =>
    rw [Nat.zero_add, Nat.one_mul] at hx
    rw [fill_zero]
    exact sameEnd_settle hx (cancel_notMem_waitToRead hcancel _)
  | succ retries ih =>
    have hmore : (retries + 1 + 1) * l.connection.timeout =
        l.connection.timeout + (retries + 1) * l.connection.timeout := by
      rw [Nat.add_mul, Nat.one_mul, Nat.add_comm]
    rw [hmore] at hx
    by_cases h : (l.waitToRead l.connection.timeout).1 = .cutOff .timedOut
    · cases hwait : l.waitToRead l.connection.timeout with
      | mk arrival later =>
        rw [hwait] at h
        obtain rfl : arrival = .cutOff .timedOut := h
        have hagain := Network.bounded_again ((retries + 1) * l.connection.timeout) hcancel hwait
        have hrest := cancel_notMem_waitToRead hcancel l.connection.timeout
        rw [hwait] at hrest
        rw [fill_succ_of_timedOut phase transferred retries hwait]
        exact ih hrest (hagain.symm.trans hx)
    · rw [fill_of_answered phase transferred _ h]
      refine sameEnd_settle ?_ (cancel_notMem_waitToRead hcancel _)
      have hlonger := Network.bounded_longer
        (Nat.le_add_right l.connection.timeout ((retries + 1) * l.connection.timeout)) h
      unfold waitToRead at hx ⊢
      rwa [hlonger] at hx

theorem Rivals.fill (h : l.Rivals other) (phase : Phase) (transferred : Nat) :
    SameEnd Rivals (Link.fill phase transferred l.connection.readRetries l)
      (Link.fill phase transferred other.connection.readRetries other) := by
  have hretries : other.connection.readRetries = 0 := by
    rw [h.connection]
    rfl
  have hsettle : settle phase transferred other (other.waitToRead other.connection.timeout) =
      settle phase transferred l.atOnce (other.waitToRead l.connection.patience) := by
    unfold settle behindReads waitToRead
    rw [h.connection]
    rfl
  rw [hretries, fill_zero, hsettle]
  refine fill_sameEnd phase transferred _ h.uncancelled ?_
  have hwait := h.net.bounded l.connection.token l.connection.patience readRoom
    l.connection.socket.reads
  unfold waitToRead
  rw [h.connection]
  exact hwait

/-! ### Reading a reply -/

/-- Reading lines, where no measure is needed. -/
theorem readLines_eq (phase : Phase) (transferred : Nat) (lines : List ReplyLine) (l : Link) :
    readLines phase transferred lines l =
      match l.connection.decoder.scan lines l.connection.buffer with
      | .complete lines decoder buffer =>
        .ok lines ((l.withInput decoder buffer).note (.heard l.connection.socket.number lines))
      | .thrashing seen decoder buffer =>
        .error (.failed (.replyThrashing seen)) (l.withInput decoder buffer)
      | .more lines decoder =>
        match Link.fill phase (transferred + l.connection.buffer.length) l.connection.readRetries
            (l.withInput decoder []) with
        | .error halt later => .error halt later
        | .ok [] later => .error (.failed .connectionClosed) later
        | .ok (b :: bs) later =>
          readLines phase (transferred + l.connection.buffer.length) lines
            (later.withInput later.connection.decoder (b :: bs)) := by
  fun_cases readLines phase transferred lines l with
  | case1 lines' decoder buffer hscan => simp only [hscan]
  | case2 seen decoder buffer hscan => simp only [hscan]
  | case3 lines' decoder hscan transferred' halt later =>
    rename_i hfill
    simp only [transferred'] at hfill
    simp only [hscan, hfill]
  | case4 lines' decoder hscan transferred' later =>
    rename_i hfill
    simp only [transferred'] at hfill
    simp only [hscan, hfill]
  | case5 lines' decoder hscan transferred' b bs later =>
    rename_i hfill
    simp only [transferred'] at hfill
    simp only [hscan, hfill, transferred']

theorem Rivals.scan (h : l.Rivals other) (lines : List ReplyLine) :
    other.connection.decoder.scan lines other.connection.buffer =
      l.connection.decoder.scan lines l.connection.buffer := by
  rw [h.connection]
  rfl

theorem SameEnd.error {α : Type} {R : Link → Link → Prop} {e : Halt Fault} {later : Link}
    {x y : EStateM.Result (Halt Fault) Link α} (h : SameEnd R x y) (hx : x = .error e later) :
    ∃ later', y = .error e later' ∧ R later later' := by
  subst hx
  cases y with
  | ok a later' => exact h.elim
  | error e' later' =>
    obtain ⟨rfl, hlater⟩ := h
    exact ⟨later', rfl, hlater⟩

theorem SameEnd.ok {α : Type} {R : Link → Link → Prop} {a : α} {later : Link}
    {x y : EStateM.Result (Halt Fault) Link α} (h : SameEnd R x y) (hx : x = .ok a later) :
    ∃ later', y = .ok a later' ∧ R later later' := by
  subst hx
  cases y with
  | ok b later' =>
    obtain ⟨rfl, hlater⟩ := h
    exact ⟨later', rfl, hlater⟩
  | error e' later' => exact h.elim

/-- Where more octets are wanted, both go on filling the buffer to the same end. -/
theorem Rivals.fill_more (h : l.Rivals other) (phase : Phase) (transferred : Nat)
    (decoder : Decoder) :
    SameEnd Rivals
      (Link.fill phase (transferred + l.connection.buffer.length) l.connection.readRetries
        (l.withInput decoder []))
      (Link.fill phase (transferred + other.connection.buffer.length) other.connection.readRetries
        (other.withInput decoder [])) := by
  have hbuffer : other.connection.buffer = l.connection.buffer := by
    rw [h.connection]
    rfl
  rw [hbuffer]
  exact (h.withInput decoder []).fill phase _

theorem Rivals.readLines (h : l.Rivals other) (phase : Phase) (transferred : Nat)
    (lines : List ReplyLine) :
    SameEnd Rivals (Link.readLines phase transferred lines l)
      (Link.readLines phase transferred lines other) := by
  fun_induction Link.readLines phase transferred lines l generalizing other with
  | case1 transferred lines l lines' decoder buffer hscan =>
    rw [readLines_eq phase transferred lines other, h.scan]
    simp only [hscan, show other.connection.socket = l.connection.socket by rw [h.connection]; rfl]
    exact ⟨rfl, (h.withInput decoder buffer).note _⟩
  | case2 transferred lines l seen decoder buffer hscan =>
    rw [readLines_eq phase transferred lines other, h.scan]
    simp only [hscan]
    exact ⟨rfl, h.withInput decoder buffer⟩
  | case3 transferred lines l lines' decoder hscan transferred' halt later =>
    rename_i hfill
    obtain ⟨later', hother, hlater⟩ := (h.fill_more phase transferred decoder).error hfill
    rw [readLines_eq phase transferred lines other, h.scan]
    simp only [hscan, hother]
    exact ⟨rfl, hlater⟩
  | case4 transferred lines l lines' decoder hscan transferred' later =>
    rename_i hfill
    obtain ⟨later', hother, hlater⟩ := (h.fill_more phase transferred decoder).ok hfill
    rw [readLines_eq phase transferred lines other, h.scan]
    simp only [hscan, hother]
    exact ⟨rfl, hlater⟩
  | case5 transferred lines l lines' decoder hscan transferred' b bs later =>
    rename_i hfill ih
    obtain ⟨later', hother, hlater⟩ := (h.fill_more phase transferred decoder).ok hfill
    have hbuffer : other.connection.buffer = l.connection.buffer := by
      rw [h.connection]
      rfl
    have hdecoder : later'.connection.decoder = later.connection.decoder := by
      rw [hlater.connection]
      rfl
    rw [readLines_eq phase transferred lines other, h.scan]
    simp only [hscan, hother]
    rw [hbuffer, hdecoder]
    exact ih (hlater.withInput later.connection.decoder (b :: bs))

/-- Trying a read again comes to waiting longer: a reply is read the same, at the same time, as with
all the patience for each read at once. -/
theorem readReply_sameEnd (phase : Phase) {l : Link} (hcancel : .cancel ∉ l.connection.socket.reads) :
    SameEnd Rivals (readReply phase l) (readReply phase l.atOnce) := by
  have hrivals : l.Rivals l.atOnce := ⟨rfl, .refl _, hcancel⟩
  exact (hrivals.withInput _ _).readLines phase 0 []

end Link

end MailSubmission
