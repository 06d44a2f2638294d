import MailSubmission.Proofs.MailGrammar

set_option autoImplicit false

/-!
# The verdict on a message

What is reported of a message is what became of it: it counts as taken exactly if, during the
call, it was handed over whole on one connection and the next reply accepted it.

The command that announces a message body occurs at most once in a call.  What passes on its
connection from there on (`announced`) settles both directions: a message that was handed over is
the one announced, and the reply behind it is the one reported.
-/

namespace MailSubmission

open Run

/-! ## From the announcement on -/

/-- What passed from the announcement of a message body on. -/
def announced (rs : List Remark) : List Remark := rs.dropWhile (· != .said .data)

/-- In `rs` the message `m` was handed over whole, and the next reply was `lines`. -/
def TakenIn (m : Message) (lines : List ReplyLine) (rs : List Remark) : Prop :=
  ∃ before talk after, Handed m talk ∧ rs = before ++ (talk ++ .heard lines :: after)

section

variable {rs rs' : List Remark} {m : Message} {lines : List ReplyLine}

theorem announced_append (h : .said .data ∉ rs) (rs' : List Remark) :
    announced (rs ++ rs') = announced rs' := by
  refine List.dropWhile_append_of_pos fun r hr => ?_
  exact bne_iff_ne.mpr fun heq => h (heq ▸ hr)

theorem announced_of_notMem (h : .said .data ∉ rs) : announced rs = [] := by
  rw [← List.append_nil rs, announced_append h]
  rfl

@[simp] theorem announced_answered (lines : List ReplyLine) (rs : List Remark) :
    announced (Command.data.answered lines ++ rs) = Command.data.answered lines ++ rs := rfl

theorem announced_prefix (h : rs <+: rs') : announced rs <+: announced rs' := by
  obtain ⟨rest, rfl⟩ := h
  induction rs with
  | nil => exact List.nil_prefix
  | cons r rs ih =>
    unfold announced
    rw [List.cons_append, List.dropWhile_cons, List.dropWhile_cons]
    split
    · exact ih
    · exact List.prefix_append (r :: rs) rest

/-- All announcements are from the first one on. -/
theorem count_announced (rs : List Remark) :
    (announced rs).count (.said .data) = rs.count (.said .data) := by
  induction rs with
  | nil => rfl
  | cons r rs ih =>
    unfold announced
    rw [List.dropWhile_cons]
    split
    · rename_i hne
      rw [List.count_cons_of_ne (bne_iff_ne.mp hne)]
      exact ih
    · rfl

@[simp] theorem said_mem_answered {command command' : Command} {lines : List ReplyLine} :
    .said command ∈ command'.answered lines ↔ command = command' := by
  simp [Command.answered, Command.asked]

@[simp] theorem said_notMem_poured (command : Command) (sources : List (Option Script)) :
    .said command ∉ Message.poured sources := by
  simp [Message.poured]

/-- What passes when a command is answered tells the answer. -/
theorem answered_append_inj {command : Command} {lines' : List ReplyLine}
    (h : command.answered lines ++ rs = command.answered lines' ++ rs') : lines = lines' ∧ rs = rs' := by
  unfold Command.answered at h
  rw [List.append_assoc, List.append_assoc] at h
  obtain ⟨hheard, hrest⟩ := List.cons.inj (List.append_cancel_left h)
  exact ⟨Remark.heard.inj hheard, hrest⟩

theorem count_said_answered (command : Command) (lines : List ReplyLine) :
    (command.answered lines).count (.said command) = 1 := by
  have hoctets : (command.wire.map Remark.octet).count (.said command) = 0 :=
    List.count_eq_zero.mpr (by simp)
  simp [Command.answered, Command.asked, hoctets]

theorem Introduced.notMem_data {accepted : Bool} (h : Introduced accepted rs) :
    .said .data ∉ rs := by
  obtain ⟨greeting, lines, hello, hhello, -, rfl⟩ := h
  have hne : Command.data ≠ hello := by
    rintro rfl
    cases hhello
  simp [hne]

theorem Agreed.notMem_data {state : SessionState} (h : Agreed m state rs) : .said .data ∉ rs := by
  induction h with
  | nothing => exact List.not_mem_nil
  | sender => simp
  | recipient _ _ ih => simp [ih]

theorem Opening.notMem_data {c : Client} {n : Nat} (h : Opening c n rs) : .said .data ∉ rs := by
  cases h with
  | standing => exact List.not_mem_nil
  | fresh hintroduced => exact hintroduced.notMem_data

/-- What a message that was handed over announces is the message itself. -/
theorem Handed.announced (h : Handed m rs) (rest : List Remark) :
    ∃ goAhead, (ReplyLine.collapse goAhead).code = Code.startData ∧
      announced (rs ++ rest) = Command.data.answered goAhead ++ (Message.poured m.sources ++ rest) := by
  obtain ⟨envelope, goAhead, hagreed, hcode, rfl⟩ := h
  refine ⟨goAhead, hcode, ?_⟩
  rw [List.append_assoc, announced_append hagreed.notMem_data, List.append_assoc, announced_answered]

theorem count_data_poured (goAhead : List ReplyLine) (sources : List (Option Script)) :
    (Command.data.answered goAhead ++ Message.poured sources).count (.said .data) = 1 := by
  have hpoured := List.count_eq_zero.mpr (said_notMem_poured .data sources)
  rw [List.count_append, hpoured, count_said_answered]

/-- Where a body was announced at most once, a message that was handed over is the one announced,
and its reply comes behind it. -/
theorem TakenIn.announced (h : TakenIn m lines rs) (honce : rs.count (.said .data) ≤ 1) :
    ∃ goAhead after, (ReplyLine.collapse goAhead).code = Code.startData ∧
      announced rs = Command.data.answered goAhead ++ (Message.poured m.sources ++ .heard lines :: after) := by
  obtain ⟨before, talk, after, hhanded, rfl⟩ := h
  obtain ⟨goAhead, hcode, hrest⟩ := hhanded.announced (.heard lines :: after)
  have htalk : 1 ≤ (talk ++ .heard lines :: after).count (.said .data) := by
    rw [← count_announced, hrest, ← List.append_assoc, List.count_append, count_data_poured]
    exact Nat.le_add_right _ _
  have hbefore : .said .data ∉ before := by
    rw [List.count_append] at honce
    exact List.count_eq_zero.mp (by omega)
  exact ⟨goAhead, after, hcode, by rw [announced_append hbefore, hrest]⟩

/-! ## What an attempt announces -/

variable {c : Client} {n : Nat}

/-- What a server was asked to take is announced once. -/
theorem HandedOver.count_data {sources : List (Option Script)} {reply : Reply}
    (h : HandedOver sources reply rs) : rs.count (.said .data) = 1 := by
  cases h with
  | declined => exact count_said_answered .data _
  | poured =>
    rw [List.count_append, count_data_poured]
    rfl

theorem HandedOver.announced_eq {sources : List (Option Script)} {reply : Reply}
    (h : HandedOver sources reply rs) (rest : List Remark) : announced (rs ++ rest) = rs ++ rest := by
  cases h with
  | declined => rfl
  | poured => rfl

/-- An attempt that returned announced nothing, and then its reply carries no size, or it handed
its message over, and then the reply is the answer to that. -/
theorem Tried.announced {a : Attempt} (h : Tried c m a n rs) :
    (.said .data ∉ rs ∧ a.reply.size = none) ∨
      (∃ op envelope talk, .said .data ∉ op ∧ Agreed m .rcptToDone envelope ∧
        HandedOver m.sources a.reply talk ∧ rs = op ++ (envelope ++ talk)) ∧
      a.isRetryable = false := by
  cases h with
  | login hrefused hbare => exact .inl ⟨hrefused.notMem_data, hbare⟩
  | @transaction a n op rs hopening htransaction =>
    have hop := hopening.notMem_data
    cases htransaction with
    | @sender params lines hrefused =>
      exact .inl ⟨by simp [hop], ReplyLine.size_collapse lines⟩
    | @recipient rs params lines hsender hrefused =>
      exact .inl ⟨by simp [hop, hsender.notMem_data], ReplyLine.size_collapse lines⟩
    | @message rs talk reply henvelope hhanded =>
      right
      have hreply : (Attempt.ofReply reply).reply = reply ∧
          (Attempt.ofReply reply).isRetryable = false := by
        unfold Attempt.ofReply
        split
        · exact ⟨rfl, rfl⟩
        · exact ⟨rfl, rfl⟩
      rw [hreply.1]
      exact ⟨⟨op, rs, talk, hop, henvelope, hhanded, rfl⟩, hreply.2⟩

/-- What an attempt announced that came to a halt is a beginning of handing its message over. -/
theorem CutShort.announced (h : CutShort c m n rs) :
    ∃ goAhead, announced rs <+: Command.data.answered goAhead ++ Message.poured m.sources := by
  cases h with
  | opening hintroduced hcut =>
    have hnot : .said .data ∉ rs := fun hmem => hintroduced.notMem_data (hcut.subset hmem)
    exact ⟨[], announced_of_notMem hnot ▸ List.nil_prefix⟩
  | message hopening hhanded hcut =>
    obtain ⟨goAhead, -, hfull⟩ := hhanded.announced []
    refine ⟨goAhead, ?_⟩
    rw [announced_append hopening.notMem_data]
    rw [List.append_nil, List.append_nil] at hfull
    exact hfull ▸ announced_prefix hcut

/-- An attempt announces a body at most once. -/
theorem Tried.count_data {a : Attempt} (h : Tried c m a n rs) : rs.count (.said .data) ≤ 1 := by
  rcases h.announced with ⟨hnot, -⟩ | ⟨⟨op, envelope, talk, hop, henvelope, hhanded, rfl⟩, -⟩
  · rw [List.count_eq_zero.mpr hnot]
    exact Nat.zero_le 1
  · have hop := List.count_eq_zero.mpr hop
    have henvelope := List.count_eq_zero.mpr henvelope.notMem_data
    have hhanded := hhanded.count_data
    rw [List.count_append, List.count_append]
    omega

theorem CutShort.count_data (h : CutShort c m n rs) : rs.count (.said .data) ≤ 1 := by
  obtain ⟨goAhead, hcut⟩ := h.announced
  have hle := hcut.sublist.count_le (Remark.said .data)
  rwa [count_announced, count_data_poured] at hle

/-- If the message was taken in what passed, then the attempt that returned reports the reply to
it. -/
theorem Tried.reply_of_takenIn {a : Attempt} {before after : List Remark} (h : Tried c m a n rs)
    (hbefore : .said .data ∉ before) (hafter : .said .data ∉ after)
    (ht : TakenIn m lines (before ++ (rs ++ after))) :
    a.reply = (ReplyLine.collapse lines).withSize (Body.encode (Message.content m.sources)).length := by
  have honce : (before ++ (rs ++ after)).count (.said .data) ≤ 1 := by
    rw [List.count_append, List.count_append, List.count_eq_zero.mpr hbefore,
      List.count_eq_zero.mpr hafter, Nat.zero_add]
    exact h.count_data
  obtain ⟨goAhead, rest, hcode, htaken⟩ := ht.announced honce
  rw [announced_append hbefore] at htaken
  rcases h.announced with ⟨hnot, -⟩ | ⟨⟨op, envelope, talk, hop, henvelope, hhanded, rfl⟩, -⟩
  · rw [announced_append hnot, announced_of_notMem hafter] at htaken
    cases htaken
  · rw [List.append_assoc, announced_append hop, List.append_assoc,
      announced_append henvelope.notMem_data, hhanded.announced_eq] at htaken
    generalize a.reply = reply at hhanded ⊢
    cases hhanded with
    | @declined answered hdeclined =>
      -- The reply to the announcement is the same one, and it does not ask for the body.
      obtain ⟨rfl, -⟩ := answered_append_inj htaken
      exact absurd hcode hdeclined
    | @poured asked answered hasked =>
      rw [List.append_assoc, List.append_assoc] at htaken
      obtain ⟨-, hsame⟩ := answered_append_inj htaken
      have hheard : Remark.heard answered = .heard lines :=
        (List.cons.inj (List.append_cancel_left hsame)).1
      rw [Remark.heard.inj hheard]

/-- An attempt that reports a delivery had its message taken, by a reply that is no failure. -/
theorem Tried.takenIn_of_isDelivered {a : Attempt} (h : Tried c m a n rs)
    (hdelivered : a.reply.isDelivered = true) (before after : List Remark) :
    a.reply.size = some (Body.encode (Message.content m.sources)).length ∧
      ∃ lines, TakenIn m lines (before ++ (rs ++ after)) ∧
        (ReplyLine.collapse lines).isFailure = false := by
  obtain ⟨hsize, haccepted⟩ := Bool.and_eq_true_iff.mp hdelivered
  rcases h.announced with ⟨-, hbare⟩ | ⟨⟨op, envelope, talk, hop, henvelope, hhanded, rfl⟩, -⟩
  · rw [hbare] at hsize
    cases hsize
  · generalize a.reply = reply at hhanded hsize haccepted ⊢
    cases hhanded with
    | @declined answered =>
      rw [ReplyLine.size_collapse] at hsize
      cases hsize
    | @poured goAhead lines hasked =>
      refine ⟨rfl, lines, ⟨before ++ op, _, after, ⟨envelope, goAhead, henvelope, hasked, rfl⟩, ?_⟩, ?_⟩
      · simp only [List.append_assoc, List.cons_append, List.nil_append]
      · rwa [Bool.not_eq_true'] at haccepted

/-- An attempt that came to a halt did not come to know that the message was taken. -/
theorem CutShort.not_takenIn {before : List Remark} (h : CutShort c m n rs)
    (hbefore : .said .data ∉ before) : ¬ TakenIn m lines (before ++ rs) := by
  intro ht
  have honce : (before ++ rs).count (.said .data) ≤ 1 := by
    rw [List.count_append, List.count_eq_zero.mpr hbefore, Nat.zero_add]
    exact h.count_data
  obtain ⟨goAhead, rest, hcode, htaken⟩ := ht.announced honce
  obtain ⟨asked, hcut⟩ := h.announced
  rw [announced_append hbefore] at htaken
  have hlength := hcut.length_le
  rw [htaken] at hlength
  simp only [Command.answered, List.length_append, List.length_cons] at hlength
  omega

/-- Where nothing was announced, nothing was taken. -/
theorem TakenIn.mem_data (h : TakenIn m lines rs) : .said .data ∈ rs := by
  obtain ⟨before, talk, after, ⟨envelope, goAhead, -, -, rfl⟩, rfl⟩ := h
  simp

end

/-! ## What a submission announces -/

/-- Nothing was announced and no source was read. -/
structure Bodiless (es : List Entry) : Prop where
  unannounced : es.countP Entry.isAnnouncement = 0
  unfed : feedings es = []

section

variable {es fs : List Entry} {rs : List Remark} {n : Nat}

theorem Bodiless.append (h : Bodiless es) (g : Bodiless fs) : Bodiless (es ++ fs) where
  unannounced := by rw [List.countP_append, h.unannounced, g.unannounced]
  unfed := by rw [feedings_append, h.unfed, g.unfed]; rfl

theorem Spoken.bodiless (h : Spoken n es rs) (hnot : .said .data ∉ rs) : Bodiless es where
  unannounced := by rw [h.countP_isAnnouncement, List.count_eq_zero.mpr hnot]
  unfed := Classical.byContradiction fun hfed => hnot (h.fed hfed)

theorem bodiless_nil : Bodiless [] := ⟨rfl, rfl⟩

theorem bodiless_paused (ms : Nat) : Bodiless [.paused ms] := ⟨rfl, rfl⟩

theorem bodiless_trace (h : Halt Fault) : Bodiless h.trace := by
  unfold Halt.trace
  split
  · exact ⟨rfl, rfl⟩
  · exact bodiless_nil

/-- A connection does not tell of more announcements than there were. -/
theorem count_dialogue_le (n : Nat) (es : List Entry) :
    (dialogue n es).count (.said .data) ≤ es.countP Entry.isAnnouncement := by
  induction es with
  | nil => exact Nat.le_refl 0
  | cons e rest ih =>
    rw [dialogue_cons, List.count_append, List.countP_cons, Nat.add_comm]
    refine Nat.add_le_add ih ?_
    cases e with
    | issued m command => cases command <;> simp [Entry.remarks, Entry.isAnnouncement] <;> split <;> simp
    | sent m bytes =>
      have hnone : (bytes.map Remark.octet).count (.said .data) = 0 := List.count_eq_zero.mpr (by simp)
      simp only [Entry.remarks]
      split
      · exact Nat.le_trans (Nat.le_of_eq hnone) (Nat.zero_le _)
      · exact Nat.zero_le _
    | flushed m => simp only [Entry.remarks]; split <;> exact Nat.zero_le _
    | heard m lines => simp only [Entry.remarks]; split <;> exact Nat.zero_le _
    | _ => exact Nat.zero_le _

theorem Bodiless.notMem_data (h : Bodiless es) (n : Nat) : .said .data ∉ dialogue n es :=
  List.count_eq_zero.mp (Nat.le_zero.mp (h.unannounced ▸ count_dialogue_le n es))

end

namespace Submitter

variable {before : List Entry} {said said' : Nat → List Remark → Prop} {s : Submitter} {m : Message}

/-- Since `before`, nothing was announced and no source was read until the last attempt; in that
and what followed it, this passed on its connection. -/
def Ended (before : List Entry) (said : Nat → List Remark → Prop) (s : Submitter) : Prop :=
  ∃ early last n rs, s.client.net.journal = (early ++ last).reverse ++ before ∧ Bodiless early ∧
    Spoken n last rs ∧ said n rs

theorem Ended.mono (h : Ended before said s) (himp : ∀ n rs, said n rs → said' n rs) :
    Ended before said' s := by
  obtain ⟨early, last, n, rs, hjournal, hearly, hspoken, hsaid⟩ := h
  exact ⟨early, last, n, rs, hjournal, hearly, hspoken, himp n rs hsaid⟩

/-- Since `before`, nothing was announced and no source was read, and an attempt can be made. -/
def Searching (before : List Entry) (s : Submitter) : Prop :=
  s.Ready ∧ ∃ early : List Entry, s.client.net.journal = early.reverse ++ before ∧ Bodiless early

theorem Searching.speaks {n : Nat} {rs : List Remark} {later : Submitter} (h : Searching before s)
    (hs : s.client.Speaks n later.client rs) (hsaid : said n rs) : Ended before said later := by
  obtain ⟨-, early, hjournal, hearly⟩ := h
  obtain ⟨last, hm, hspoken⟩ := hs
  exact ⟨early, last, n, rs, hm.journal_append hjournal, hearly, hspoken, hsaid⟩

/-- One attempt, after attempts that announced nothing. -/
theorem Searching.attempt (h : Searching before s) (m : Message) :
    Ends (attempt m) s
      (fun a s' => Ended before (fun n rs => s'.client.Holds n ∧ ∃ c, Tried c m a n rs) s')
      (fun e s' => Ended before (fun n rs => ∃ c, CutShort c m n rs) s' ∧
        (e ≠ .abandoned → s'.client.state.inSession = false)) := by
  apply (ends_attempt_said m s h.1).mono
  · intro a s' hs'
    obtain ⟨n, rs, hspeaks, hholds, -, htried⟩ := hs'
    exact h.speaks hspeaks ⟨hholds, s.client, htried⟩
  · intro e s' hs'
    obtain ⟨n, rs, hspeaks, hbroken, hcut⟩ := hs'
    exact ⟨h.speaks hspeaks ⟨s.client, hcut⟩, hbroken.inSession⟩

/-- The pause before the next attempt. -/
theorem Ended.pause {stage : Stage} {reply : Reply} (hretry : stage.isRetryable = true)
    (h : Ended before (fun n rs => s.client.Holds n ∧ ∃ c, Tried c m (.rejected stage reply) n rs) s) :
    Ends Submitter.pause { s with client := s.client.disconnect } (fun _ s' => Searching before s')
      (fun e s' => Ended before (fun n rs => ∃ c, CutShort c m n rs) s' ∧
        (e ≠ .abandoned → s'.client.state.inSession = false)) := by
  obtain ⟨early, last, n, rs, hjournal, hearly, hspoken, -, c, htried⟩ := h
  have hlast : Bodiless last := by
    rcases htried.announced with ⟨hnot, -⟩ | ⟨-, hfinal⟩
    · exact hspoken.bodiless hnot
    · exact absurd hretry (Bool.eq_false_iff.mp hfinal)
  have hrelease : Bodiless s.client.release := (Client.spoken_release n s.client).bodiless nofun
  have hsofar := hearly.append hlast
  apply (ends_pause_disconnected s).mono
  · intro _ s' hs'
    obtain ⟨hvacant, -, hm⟩ := hs'
    refine ⟨?_, _, hm.journal_append hjournal, hsofar.append (hrelease.append (bodiless_paused _))⟩
    intro _ hstate
    rw [hvacant.state] at hstate
    cases hstate
  · intro e s' hs'
    obtain ⟨hvacant, halt, -, -, hm⟩ := hs'
    have hall := hsofar.append (hrelease.append (bodiless_trace halt))
    refine ⟨⟨_, [], s.client.net.dialled, [], ?_, hall, spoken_nil _, s.client, ?_⟩,
      fun _ => by rw [hvacant.state]; rfl⟩
    · rw [List.append_nil]
      exact hm.journal_append hjournal
    · exact .opening (introduced_refused []) List.nil_prefix

/-- Attempts in a row announce nothing but in the last one. -/
theorem Searching.attempts (h : Searching before s) (m : Message) (left : Nat) :
    Ends (attempts m left) s
      (fun reply s' => Ended before (fun n rs => s'.client.Holds n ∧
        ∃ c a, Tried c m a n rs ∧ a.reply = reply) s')
      (fun e s' => Ended before (fun n rs => ∃ c, CutShort c m n rs) s' ∧
        (e ≠ .abandoned → s'.client.state.inSession = false)) := by
  refine ends_attempts (Searching before) m left ?_ ?_ h
  · intro s hs
    refine (hs.attempt m).mono (fun a s' hs' => hs'.mono ?_) fun _ _ hs' => hs'
    intro n rs hsaid
    obtain ⟨hholds, c, htried⟩ := hsaid
    exact ⟨hholds, c, a, htried, rfl⟩
  · intro s mid stage reply hs hr hretry
    exact ((hs.attempt m).of_ok hr).pause hretry

/-- What a submission said in the end: in its last attempt, and in closing the transaction. -/
def Concluded (m : Message) (reply : Reply) (rs : List Remark) : Prop :=
  ∃ c a n talk closing, Tried c m a n talk ∧ a.reply = reply ∧ .said .data ∉ closing ∧
    rs = talk ++ closing

/-- What is said after the last attempt is said on its connection. -/
theorem Ended.goes_on {later : Submitter} (h : Ended before said s)
    (hgoes : ∀ n rs, said n rs → ∃ rs', s.client.Speaks n later.client rs' ∧ said' n (rs ++ rs')) :
    Ended before said' later := by
  obtain ⟨early, last, n, rs, hjournal, hearly, hspoken, hsaid⟩ := h
  obtain ⟨rs', ⟨fs, hm, hspoken'⟩, hsaid'⟩ := hgoes n rs hsaid
  refine ⟨early, last ++ fs, n, rs ++ rs', ?_, hearly, hspoken.append hspoken', hsaid'⟩
  rw [← List.append_assoc]
  exact hm.journal_append hjournal

theorem Ended.disconnect (h : Ended before said s) : Ended before said s.disconnect :=
  h.goes_on fun n rs hsaid => ⟨[], speaks_disconnect n s.client, (List.append_nil rs).symm ▸ hsaid⟩

theorem Closes.notMem_data {n : Nat} {fits : Bool} {c later : Client} {rs : List Remark}
    (h : Closes .rset fits n c later rs) : .said .data ∉ rs := by
  obtain ⟨lines, hcut⟩ := h.cut
  intro hmem
  have hmem' := hcut.subset hmem
  simp at hmem'

/-- How a submission ends, by what it said. -/
theorem Searching.submit (h : Searching before s) (m : Message) :
    Ends (submit m) s (fun reply s' => Ended before (fun _ rs => Concluded m reply rs) s')
      (fun e s' => Ended before (fun n rs => (∃ c, CutShort c m n rs) ∨
        e = .abandoned ∧ ∃ reply, Concluded m reply rs) s') := by
  have hstart : Searching before { s with submissions := s.submissions + 1 } := h
  refine ends_submit ((hstart.attempts m _).mono (fun _ _ htried => htried) ?_) ?_ ?_
  · intro e mid hmid
    exact ⟨hmid.1.mono fun _ _ => .inl, hmid.2⟩
  · intro reply mid hmid
    obtain ⟨early, last, n, rs, hjournal, hearly, hspoken, hholds, c, a, htried, hreply⟩ := hmid
    have hended : Ended before (fun k rs' => k = n ∧ rs' = rs) mid :=
      ⟨early, last, n, rs, hjournal, hearly, hspoken, rfl, rfl⟩
    have hconcluded : ∀ rs' s', Closes .rset mid.client.state.inSession n mid.client s' rs' →
        Concluded m reply (rs ++ rs') :=
      fun rs' s' hc => ⟨c, a, n, rs, rs', htried, hreply, hc.notMem_data, rfl⟩
    refine (ends_finish mid fun _ => hholds).mono ?_ ?_
    · intro _ s' hs'
      obtain ⟨rs', hc, -⟩ := hs'
      refine hended.goes_on ?_
      rintro k rs'' ⟨rfl, rfl⟩
      exact ⟨rs', hc.speaks, hconcluded rs' _ hc⟩
    · intro e s' hs'
      obtain ⟨rfl, -, rs', hc⟩ := hs'
      refine hended.goes_on ?_
      rintro k rs'' ⟨rfl, rfl⟩
      exact ⟨rs', hc.speaks, .inr ⟨rfl, reply, hconcluded rs' _ hc⟩⟩
  · intro failure mid _ hended
    exact hended.disconnect

/-! ## The verdict -/

/-- What was taken was taken in the last attempt. -/
theorem takenIn_last {early last : List Entry} {n k : Nat} {rs : List Remark} {lines : List ReplyLine}
    (hearly : Bodiless early) (hspoken : Spoken n last rs)
    (h : TakenIn m lines (dialogue k (early ++ last))) : TakenIn m lines (dialogue n early ++ rs) := by
  rw [dialogue_append] at h
  by_cases hk : k = n
  · subst hk
    rwa [hspoken.said] at h
  · rw [hspoken.elsewhere hk, List.append_nil] at h
    exact absurd h.mem_data (hearly.notMem_data k)

theorem Concluded.count_data {reply : Reply} {rs : List Remark} (h : Concluded m reply rs) :
    rs.count (.said .data) ≤ 1 := by
  obtain ⟨c, a, n, talk, closing, htried, -, hclosing, rfl⟩ := h
  rw [List.count_append, List.count_eq_zero.mpr hclosing]
  exact htried.count_data

/-- A submission that returns a reply reports a delivery exactly if the message was taken. -/
theorem Ended.isDelivered_iff {reply : Reply} (h : Ended before (fun _ rs => Concluded m reply rs) s) :
    ∃ es : List Entry, s.client.net.journal = es.reverse ++ before ∧
      (reply.isDelivered = true ↔ ∃ n lines, TakenIn m lines (dialogue n es) ∧
        (ReplyLine.collapse lines).isFailure = false) ∧
      (reply.isDelivered = true →
        reply.size = some (Body.encode (Message.content m.sources)).length) := by
  obtain ⟨early, last, n, rs, hjournal, hearly, hspoken, c, a, k, talk, closing, htried, rfl,
    hclosing, rfl⟩ := h
  have htaken := fun hdelivered =>
    htried.takenIn_of_isDelivered hdelivered (dialogue n early) closing
  refine ⟨early ++ last, hjournal, ⟨fun hdelivered => ?_, ?_⟩, fun hdelivered => (htaken hdelivered).1⟩
  · obtain ⟨-, lines, htaken, haccepted⟩ := htaken hdelivered
    refine ⟨n, lines, ?_, haccepted⟩
    rwa [dialogue_append, hspoken.said]
  · intro hsomewhere
    obtain ⟨k, lines, htaken, haccepted⟩ := hsomewhere
    have hreply := htried.reply_of_takenIn (hearly.notMem_data n) hclosing
      (takenIn_last hearly hspoken htaken)
    rw [hreply, Reply.isDelivered, Bool.and_eq_true_iff]
    exact ⟨rfl, by rw [Bool.not_eq_true']; exact haccepted⟩

/-- In a submission that was cut short the message was not taken, as far as it came to know. -/
theorem Ended.not_takenIn (h : Ended before (fun n rs => ∃ c, CutShort c m n rs) s) :
    ∃ es : List Entry, s.client.net.journal = es.reverse ++ before ∧
      ∀ n lines, ¬ TakenIn m lines (dialogue n es) := by
  obtain ⟨early, last, n, rs, hjournal, hearly, hspoken, c, hcut⟩ := h
  refine ⟨early ++ last, hjournal, fun k lines htaken => ?_⟩
  exact hcut.not_takenIn (hearly.notMem_data n) (takenIn_last hearly hspoken htaken)

/-- However a submission ends, a body was announced at most once, and the sources were read in at
most one attempt. -/
theorem Ended.once (h : Ended before said s) (honce : ∀ n rs, said n rs → rs.count (.said .data) ≤ 1) :
    ∃ es : List Entry, s.client.net.journal = es.reverse ++ before ∧
      es.countP Entry.isAnnouncement ≤ 1 ∧
      ∃ early last, es = early ++ last ∧ Bodiless early ∧ ∀ ms, .paused ms ∉ last := by
  obtain ⟨early, last, n, rs, hjournal, hearly, hspoken, hsaid⟩ := h
  refine ⟨early ++ last, hjournal, ?_, early, last, rfl, hearly, fun ms hms => ?_⟩
  · rw [List.countP_append, hearly.unannounced, Nat.zero_add, hspoken.countP_isAnnouncement]
    exact honce n rs hsaid
  · exact hspoken.own _ hms

/-- A measured submission fails exactly as the submission was cancelled. -/
theorem measuredSubmit_eq_error_iff {failure : SubmitFailure} {later : Submitter} :
    measuredSubmit m s = .error (.failed failure) later ↔
      submit m s = .error (.failed failure) later ∧ failure.isCancelled = true := by
  rw [measuredSubmit_apply]
  cases submit m s with
  | ok reply s' => simp
  | error e s' =>
    cases e with
    | abandoned => simp
    | failed failure' =>
      dsimp only
      split
      · rename_i hcancelled
        simp only [EStateM.Result.error.injEq, Halt.failed.injEq]
        exact ⟨fun heq => ⟨heq, heq.1 ▸ hcancelled⟩, fun h => h.1⟩
      · rename_i hcancelled
        simp only [EStateM.Result.error.injEq, Halt.failed.injEq, reduceCtorEq, false_iff]
        rintro ⟨⟨rfl, -⟩, hcancelled'⟩
        exact hcancelled hcancelled'

/-- Of the three kinds, one counts once and the others not at all. -/
theorem count_kind (outcome : Outcome) :
    outcome.count outcome.kind = 1 ∧ ∀ kind, kind ≠ outcome.kind → outcome.count kind = 0 := by
  refine ⟨if_pos rfl, fun kind hkind => if_neg fun heq => hkind heq.symm⟩

/-- The outcome that a measured submission returns is a pass exactly if the message was taken. -/
theorem Searching.measuredSubmit (h : Searching before s) (m : Message) :
    Ends (measuredSubmit m) s
      (fun outcome s' => ∃ es : List Entry, s'.client.net.journal = es.reverse ++ before ∧
        (outcome.kind = .pass ↔ ∃ n lines, TakenIn m lines (dialogue n es) ∧
          (ReplyLine.collapse lines).isFailure = false) ∧
        (outcome.kind = .pass →
          outcome.bytes = (Body.encode (Message.content m.sources)).length))
      (fun _ _ => True) := by
  refine ends_measuredSubmit_iff.mpr ((h.submit m).mono ?_ ?_)
  · intro reply s' hs'
    obtain ⟨es, hjournal, hiff, hsize⟩ := hs'.isDelivered_iff
    have hkind : (Outcome.ofReply s'.correlationId reply).kind = .pass ↔ reply.isDelivered = true := by
      unfold Outcome.ofReply
      cases reply.isDelivered <;> simp
    refine ⟨es, hjournal, hkind.trans hiff, fun hpass => ?_⟩
    exact congrArg (·.getD 0) (hsize (hkind.mp hpass))
  · intro e s' hs'
    cases e with
    | abandoned => trivial
    | failed failure =>
      dsimp only
      split
      · trivial
      · have hcut : Ended before (fun n rs => ∃ c, CutShort c m n rs) s' :=
          hs'.mono fun n rs hsaid => hsaid.resolve_right fun habandoned => nomatch habandoned.1
        obtain ⟨es, hjournal, hnot⟩ := hcut.not_takenIn
        refine ⟨es, hjournal, ⟨nofun, fun hsomewhere => ?_⟩, nofun⟩
        obtain ⟨n, lines, htaken, -⟩ := hsomewhere
        exact absurd htaken (hnot n lines)

/-- However a measured submission ends, its message was announced at most once, and its sources
were read in at most one attempt. -/
theorem Searching.once (h : Searching before s) (m : Message) :
    ∃ es : List Entry, ((Call.measuredSubmit m).after s).client.net.journal = es.reverse ++ before ∧
      es.countP Entry.isAnnouncement ≤ 1 ∧
      ∃ early last, es = early ++ last ∧ Bodiless early ∧ ∀ ms, .paused ms ∉ last := by
  have hended : Ends (Submitter.submit m) s
      (fun _ s' => Ended before (fun _ rs => rs.count (.said .data) ≤ 1) s')
      (fun _ s' => Ended before (fun _ rs => rs.count (.said .data) ≤ 1) s') := by
    apply (h.submit m).mono
    · intro reply s' hs'
      exact hs'.mono fun n rs hsaid => hsaid.count_data
    · intro e s' hs'
      refine hs'.mono fun n rs hsaid => ?_
      rcases hsaid with ⟨c, hcut⟩ | ⟨-, reply, hconcluded⟩
      · exact hcut.count_data
      · exact hconcluded.count_data
  rw [Call.after_measuredSubmit]
  have hafter : Ended before (fun _ rs => rs.count (.said .data) ≤ 1) ((Call.submit m).after s) :=
    Call.after_of_ends (ends_bind.mpr hended)
  exact hafter.once fun n rs hsaid => hsaid

/-- For every submitter there can be, and every message measured on it.  The call fails exactly
as the submission was cancelled.  If it returns, one of the three kinds counts once and the others
not at all; the kind is a pass exactly if during the call, on one connection, sender and recipient
were accepted, the body was asked for, went out whole and left, and the reply read next is no
failure; and then the octets are those of that body.  However the call ends, a body was announced
at most once over all its attempts, and the sources of the message were read in at most one: from
one attempt to the next there is a pause, and before the last pause nothing was announced and no
source was read. -/
theorem verdict_matches_delivery {id : Nat} {settings : SubmitSettings} {token : Token}
    {net : Network} {s₀ : Submitter} {calls : List Call}
    (hnew : Submitter.new id settings token net = .ok s₀) (hruns : Runs s₀ calls s) (m : Message) :
    (∀ failure later, measuredSubmit m s = .error (.failed failure) later ↔
      submit m s = .error (.failed failure) later ∧ failure.isCancelled = true) ∧
    (∀ outcome later, measuredSubmit m s = .ok outcome later →
      (∃ kind, outcome.count kind = 1 ∧ ∀ other, other ≠ kind → outcome.count other = 0) ∧
      ∃ es : List Entry, later.client.net.journal = es.reverse ++ s.client.net.journal ∧
        (outcome.count .pass = 1 ↔ ∃ n lines, TakenIn m lines (dialogue n es) ∧
          (ReplyLine.collapse lines).isFailure = false) ∧
        (outcome.count .pass = 1 →
          outcome.bytes = (Body.encode (Message.content m.sources)).length)) ∧
    ∃ es : List Entry,
      ((Call.measuredSubmit m).after s).client.net.journal = es.reverse ++ s.client.net.journal ∧
      es.countP Entry.isAnnouncement ≤ 1 ∧
      ∃ early last, es = early ++ last ∧ Bodiless early ∧ ∀ ms, .paused ms ∉ last := by
  have hsearching : Searching s.client.net.journal s := ⟨hruns.ready hnew, [], rfl, bodiless_nil⟩
  refine ⟨fun failure later => measuredSubmit_eq_error_iff, ?_, hsearching.once m⟩
  intro outcome later hr
  obtain ⟨es, hjournal, hiff, hbytes⟩ := (hsearching.measuredSubmit m).of_ok hr
  have hcount : outcome.count .pass = 1 ↔ outcome.kind = .pass := by
    unfold Outcome.count
    split <;> simp_all
  exact ⟨⟨outcome.kind, count_kind outcome⟩, es, hjournal, hcount.trans hiff,
    fun hpass => hbytes (hcount.mp hpass)⟩

/-- A server takes a message of two octets. -/
theorem verdict_matches_delivery_taken :
    ∃ s outcome later, Submitter.new 1 {} {} (serverSending takingLines []) = .ok s ∧
      measuredSubmit shortMessage s = .ok outcome later ∧
      outcome.count .pass = 1 ∧ outcome.count .fail = 0 ∧ outcome.count .exception = 0 ∧
      outcome.bytes = 7 ∧
      ∃ es n lines, later.client.net.journal = es.reverse ∧
        TakenIn shortMessage lines (dialogue n es) := by
  let s : Submitter := { client := .new 1 {} {} (serverSending takingLines []) }
  have hnew : Submitter.new 1 {} {} (serverSending takingLines []) = .ok s := rfl
  obtain ⟨outcome, later, hr, hpass⟩ : ∃ outcome later,
      measuredSubmit shortMessage s = .ok outcome later ∧ outcome.count .pass = 1 := by
    have hreturns : (match measuredSubmit shortMessage s with
        | .ok outcome _ => outcome.count .pass == 1
        | .error _ _ => false) = true := by decide +kernel
    split at hreturns
    · rename_i outcome later hr
      exact ⟨outcome, later, hr, beq_iff_eq.mp hreturns⟩
    · cases hreturns
  obtain ⟨-, hreturned, -⟩ := verdict_matches_delivery hnew (.nil s) shortMessage
  obtain ⟨⟨kind, hkind, hothers⟩, es, hjournal, htaken, hbytes⟩ := hreturned outcome later hr
  have hsame : kind = .pass := Classical.byContradiction fun hne =>
    absurd (hpass.symm.trans (hothers .pass fun heq => hne heq.symm)) (by decide)
  subst hsame
  obtain ⟨n, lines, htaken, -⟩ := htaken.mp hpass
  exact ⟨s, outcome, later, hnew, hr, hpass, hothers .fail nofun, hothers .exception nofun,
    hbytes hpass, es, n, lines, hjournal.trans (List.append_nil _), htaken⟩

end Submitter

end MailSubmission
