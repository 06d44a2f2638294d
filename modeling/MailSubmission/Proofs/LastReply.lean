import MailSubmission.Proofs.ClientStories

set_option autoImplicit false

/-!
# The reply that is remembered

A reply is heard on an occasion: a connection was opened and the server greets, a command is
answered, or a message body is.  The record of what happened tells all the replies that were heard,
each with its occasion (`hearings`).

A client keeps some of them (`Hearing.isKept`), and what it remembers is the last one that it kept
(`Client.last_reply_recalled`).  Four it does not keep: a greeting that refuses, a reset that is
refused, the request to go on with a message body, and the answer to a goodbye.  So it does not
always remember the most recent reply.
-/

namespace MailSubmission

open Run

/-! ## Replies and what they answer -/

/-- What the server was last given occasion to reply to. -/
inductive Occasion where
  /-- a connection was opened -/
  | greeting
  /-- a command was begun -/
  | answer (command : Command)
  /-- a message body was asked for, and so many octets of it have gone out -/
  | body (octets : Nat)
  deriving DecidableEq, Repr

instance : Inhabited Occasion := ⟨.greeting⟩

/-- The occasion that is left by what passes on a connection. -/
def Occasion.next (o : Occasion) : Remark → Occasion
  | .said command => .answer command
  | .octet _ =>
    match o with
    | .body octets => .body (octets + 1)
    | _ => o
  | .flushed => o
  | .heard lines =>
    if o = .answer .data ∧ (ReplyLine.collapse lines).code = Code.startData then .body 0 else o

/-- A reply that was complete, with its occasion. -/
structure Hearing where
  occasion : Occasion
  lines : List ReplyLine
  deriving DecidableEq, Repr, Inhabited

namespace Hearing

/-- The lines as one reply; that to a message body carries its size. -/
def reply (h : Hearing) : Reply :=
  match h.occasion with
  | .body octets => (ReplyLine.collapse h.lines).withSize octets
  | _ => ReplyLine.collapse h.lines

/-- The reply is one that a client keeps. -/
def isKept (h : Hearing) : Bool :=
  match h.occasion with
  | .greeting | .answer .rset => !h.reply.isFailure
  | .answer .data => h.reply.code != Code.startData
  | .answer .quit => false
  | _ => true

end Hearing

/-- The replies in what passes on a connection. -/
def heardIn (o : Occasion) : List Remark → List Hearing
  | [] => []
  | .heard lines :: rs => ⟨o, lines⟩ :: heardIn (o.next (.heard lines)) rs
  | .said command :: rs => heardIn (o.next (.said command)) rs
  | .octet b :: rs => heardIn (o.next (.octet b)) rs
  | .flushed :: rs => heardIn (o.next .flushed) rs

/-- What an entry tells about the connection that it is about. -/
def Entry.told : Entry → List Remark
  | .issued _ command => [.said command]
  | .sent _ bytes => bytes.map .octet
  | .flushed _ => [.flushed]
  | .heard _ lines => [.heard lines]
  | _ => []

/-- The occasion that is left by what happens. -/
def Occasion.turn (o : Occasion) : Entry → Occasion
  | .opened _ => .greeting
  | e => e.told.foldl next o

/-- All the replies in what happened. -/
def hearings (o : Occasion) : List Entry → List Hearing
  | [] => []
  | e :: es => heardIn o e.told ++ hearings (o.turn e) es

/-- The last of the replies that a client keeps. -/
def lastKept (hs : List Hearing) : Option Reply := (hs.filter Hearing.isKept).getLast?.map Hearing.reply

section

variable {n : Nat} {o : Occasion} {rs rs' : List Remark} {es fs : List Entry} {hs hs' : List Hearing}
  {command : Command} {lines : List ReplyLine}

theorem heardIn_append (o : Occasion) (rs rs' : List Remark) :
    heardIn o (rs ++ rs') = heardIn o rs ++ heardIn (rs.foldl Occasion.next o) rs' := by
  induction rs generalizing o with
  | nil => rfl
  | cons r rest ih =>
    cases r with
    | heard lines => exact congrArg (_ :: ·) (ih _)
    | said command => exact ih _
    | octet b => exact ih _
    | flushed => exact ih _

theorem hearings_append (o : Occasion) (es fs : List Entry) :
    hearings o (es ++ fs) = hearings o es ++ hearings (es.foldl Occasion.turn o) fs := by
  induction es generalizing o with
  | nil => rfl
  | cons e rest ih =>
    rw [List.cons_append, hearings, hearings, ih, List.append_assoc, List.foldl_cons]

/-- Where no reply was complete, none is heard. -/
theorem heardIn_eq_nil (o : Occasion) (h : ∀ lines, .heard lines ∉ rs) : heardIn o rs = [] := by
  induction rs generalizing o with
  | nil => rfl
  | cons r rest ih =>
    have hrest : ∀ lines, .heard lines ∉ rest := fun lines hmem => h lines (List.mem_cons_of_mem r hmem)
    cases r with
    | heard lines => exact absurd List.mem_cons_self (h lines)
    | said command => exact ih _ hrest
    | octet b => exact ih _ hrest
    | flushed => exact ih _ hrest

/-- On one connection, what is heard is heard in what passes there. -/
theorem hearings_of_staysOn (o : Occasion) (h : ∀ e ∈ es, e.StaysOn n) :
    hearings o es = heardIn o (dialogue n es) ∧
      es.foldl Occasion.turn o = (dialogue n es).foldl Occasion.next o := by
  induction es generalizing o with
  | nil => exact ⟨rfl, rfl⟩
  | cons e rest ih =>
    obtain ⟨he, hrest⟩ := List.forall_mem_cons.mp h
    have htold : e.told = e.remarks n ∧ o.turn e = (e.remarks n).foldl Occasion.next o := by
      cases e <;> first
        | exact he.elim
        | simp_all [Entry.told, Entry.remarks, Entry.StaysOn, Occasion.turn]
    obtain ⟨ih, ih'⟩ := ih (o.turn e) hrest
    rw [dialogue_cons, hearings, heardIn_append, List.foldl_append, List.foldl_cons, ih, ih', htold.1,
      htold.2]
    exact ⟨rfl, rfl⟩

theorem lastKept_append (hs hs' : List Hearing) :
    lastKept (hs ++ hs') = (lastKept hs').or (lastKept hs) := by
  unfold lastKept
  rw [List.filter_append, List.getLast?_append, Option.map_or]

theorem lastKept_singleton (h : Hearing) : lastKept [h] = if h.isKept then some h.reply else none := by
  unfold lastKept
  cases hkept : h.isKept <;> simp [hkept]

/-- If the last reply of all is kept, it is remembered. -/
theorem lastKept_of_isKept {h : Hearing} (hlast : hs.getLast? = some h) (hkept : h.isKept = true) :
    lastKept hs = some h.reply := by
  obtain ⟨before, rfl⟩ := List.getLast?_eq_some_iff.mp hlast
  rw [lastKept_append, lastKept_singleton, if_pos hkept, Option.some_or]

/-! ### Commands and bodies -/

/-- Octets that go out count for a body only. -/
theorem foldl_next_octets (octets : Nat) (bytes : List UInt8) :
    (bytes.map Remark.octet).foldl Occasion.next (.body octets) = .body (octets + bytes.length) := by
  induction bytes generalizing octets with
  | nil => rfl
  | cons b rest ih =>
    rw [List.map_cons, List.foldl_cons, Occasion.next, ih, List.length_cons, Nat.add_assoc,
      Nat.add_comm 1]

theorem foldl_next_asked (o : Occasion) (command : Command) :
    command.asked.foldl Occasion.next o = .answer command := by
  have hoctets : ∀ bytes : List UInt8,
      (bytes.map Remark.octet).foldl Occasion.next (.answer command) = .answer command := by
    intro bytes
    induction bytes with
    | nil => rfl
    | cons b rest ih => exact ih
  rw [Command.asked, List.cons_append, List.foldl_cons, List.foldl_append, Occasion.next, hoctets]
  rfl

/-- Nothing is heard while a command is asked. -/
theorem heardIn_of_asked (o : Occasion) (h : rs <+: command.asked) : heardIn o rs = [] :=
  heardIn_eq_nil o fun lines hmem => by simpa [Command.asked] using h.subset hmem

theorem heardIn_answered (o : Occasion) (command : Command) (lines : List ReplyLine) :
    heardIn o (command.answered lines) = [⟨.answer command, lines⟩] := by
  rw [Command.answered, heardIn_append, heardIn_of_asked o (List.prefix_refl _), foldl_next_asked]
  rfl

theorem foldl_next_answered (o : Occasion) (command : Command) (lines : List ReplyLine) :
    (command.answered lines).foldl Occasion.next o = (Occasion.answer command).next (.heard lines) := by
  rw [Command.answered, List.foldl_append, foldl_next_asked]
  rfl

/-- Nothing is heard while a body goes out. -/
theorem heardIn_of_poured (o : Occasion) {sources : List (Option Script)}
    (h : rs <+: Message.poured sources) : heardIn o rs = [] :=
  heardIn_eq_nil o fun lines hmem => by simpa [Message.poured] using h.subset hmem

theorem heardIn_poured (sources : List (Option Script)) (lines : List ReplyLine) :
    heardIn (.body 0) (Message.poured sources ++ [.heard lines]) =
      [⟨.body (Body.encode (Message.content sources)).length, lines⟩] := by
  rw [heardIn_append, heardIn_of_poured _ (List.prefix_refl _), Message.poured, List.foldl_append,
    foldl_next_octets, Nat.zero_add]
  rfl

/-! ### What a dialogue teaches -/

/-- Whatever passed before, the same replies are heard in it, and the last that is kept is `r`. -/
def Teaches (rs : List Remark) (r : Option Reply) : Prop :=
  ∃ hs, (∀ o, heardIn o rs = hs) ∧ lastKept hs = r

theorem teaches_asked (h : rs <+: command.asked) : Teaches rs none :=
  ⟨[], fun o => heardIn_of_asked o h, rfl⟩

theorem teaches_answered (command : Command) (lines : List ReplyLine) :
    Teaches (command.answered lines) (lastKept [⟨.answer command, lines⟩]) :=
  ⟨_, fun o => heardIn_answered o command lines, rfl⟩

/-- A reset is kept unless it is refused. -/
theorem teaches_reset (lines : List ReplyLine) : Teaches (Command.rset.answered lines)
    (if (ReplyLine.collapse lines).isFailure then none else some (ReplyLine.collapse lines)) := by
  have hkept : lastKept [⟨.answer .rset, lines⟩] =
      if !(ReplyLine.collapse lines).isFailure then some (ReplyLine.collapse lines) else none :=
    lastKept_singleton _
  have hteaches := teaches_answered .rset lines
  rw [hkept] at hteaches
  cases hrefused : (ReplyLine.collapse lines).isFailure with
  | false => rwa [hrefused] at hteaches
  | true => rwa [hrefused] at hteaches

/-- The request to go on with a message body is not kept. -/
theorem lastKept_goAhead {goAhead : List ReplyLine}
    (h : (ReplyLine.collapse goAhead).code = Code.startData) :
    lastKept [⟨.answer .data, goAhead⟩] = none :=
  (lastKept_singleton _).trans (if_neg fun hkept => bne_iff_ne.mp hkept h)

/-- What passes behind the request to go on is about a message body. -/
theorem heardIn_goAhead {goAhead : List ReplyLine}
    (h : (ReplyLine.collapse goAhead).code = Code.startData) (o : Occasion) (rs : List Remark) :
    heardIn o (Command.data.answered goAhead ++ rs) =
      ⟨.answer .data, goAhead⟩ :: heardIn (.body 0) rs := by
  rw [heardIn_append, heardIn_answered, foldl_next_answered, Occasion.next, if_pos ⟨rfl, h⟩]
  rfl

/-- While a message is handed over, nothing is kept. -/
theorem teaches_of_prefix {sources : List (Option Script)} {goAhead : List ReplyLine}
    (hasked : (ReplyLine.collapse goAhead).code = Code.startData)
    (h : rs <+: Command.data.answered goAhead ++ Message.poured sources) : Teaches rs none := by
  rcases List.prefix_or_prefix_of_prefix h (List.prefix_append _ _) with hcut | ⟨poured, rfl⟩
  · rcases List.prefix_concat_iff.mp hcut with rfl | hcut
    · exact lastKept_goAhead hasked ▸ teaches_answered .data goAhead
    · exact teaches_asked hcut
  · have hpoured := (List.prefix_append_right_inj _).mp h
    refine ⟨[⟨.answer .data, goAhead⟩], fun o => ?_, lastKept_goAhead hasked⟩
    rw [heardIn_goAhead hasked, heardIn_of_poured _ hpoured]

/-- What answers the message, or its announcement, is kept. -/
theorem HandedOver.teaches {sources : List (Option Script)} {reply : Reply}
    (h : HandedOver sources reply rs) : Teaches rs (some reply) := by
  cases h with
  | @declined lines hdeclined =>
    have hkept : lastKept [⟨.answer .data, lines⟩] = some (ReplyLine.collapse lines) :=
      (lastKept_singleton _).trans (if_pos (bne_iff_ne.mpr hdeclined))
    exact hkept ▸ teaches_answered .data lines
  | @poured goAhead lines hasked =>
    let answer : Hearing := ⟨.body (Body.encode (Message.content sources)).length, lines⟩
    have hlast : [⟨.answer .data, goAhead⟩, answer].getLast? = some answer := rfl
    refine ⟨[⟨.answer .data, goAhead⟩, answer], fun o => ?_, lastKept_of_isKept hlast rfl⟩
    rw [List.append_assoc, heardIn_goAhead hasked, heardIn_poured]

end

/-- These are the replies in what happened, whatever happened before. -/
def Overheard (es : List Entry) (hs : List Hearing) : Prop := ∀ o, hearings o es = hs

theorem overheard_nil : Overheard [] [] := fun _ => rfl

theorem Overheard.append {es fs : List Entry} {hs hs' : List Hearing} (h : Overheard es hs)
    (g : Overheard fs hs') : Overheard (es ++ fs) (hs ++ hs') := fun o => by
  rw [hearings_append, h, g]

/-- What tells of no connection, and opens none, is no occasion. -/
theorem overheard_of_silent {es : List Entry} (h : ∀ e ∈ es, e.told = []) : Overheard es [] := by
  induction es with
  | nil => exact overheard_nil
  | cons e rest ih =>
    obtain ⟨he, hrest⟩ := List.forall_mem_cons.mp h
    intro o
    rw [hearings, he, ih hrest]
    rfl

/-! ## What a client keeps -/

namespace Client

variable {α : Type} {c mid later : Client} {es fs : List Entry} {hs : List Hearing}

/-- `later` is the client after something in which the last reply to be kept was `r`, and which has
not been remembered yet. -/
structure Learns (c later : Client) (r : Option Reply) : Prop where
  lastReply : later.lastReply = c.lastReply
  heard : ∃ es hs, later.net.journal = es.reverse ++ c.net.journal ∧ Overheard es hs ∧ lastKept hs = r

theorem learns_of_works (hw : c.Works later es) (hheard : Overheard es hs) :
    c.Learns later (lastKept hs) :=
  ⟨by rw [hw.same], es, hs, hw.journal, hheard, rfl⟩

/-- Carried out on `c`, the call learns the reply that it returns, and none if it comes to a halt. -/
def Reports (act : Run Fault Client α) (r : α → Option Reply) (c : Client) : Prop :=
  Ends act c (fun a c' => c.Learns c' (r a)) (fun _ c' => c.Learns c' none)

/-- The same call leaves one record. -/
theorem Works.unique (h : c.Works later es) (g : c.Works later fs) : es = fs :=
  List.reverse_inj.mp (List.append_cancel_right (h.journal.symm.trans g.journal))

/-- Work that begins with a command reports what its dialogue teaches.  Without a connection
nothing is done. -/
theorem reports_of_begins {gives : List (Option Script) → Prop} {w : Watched.OnClient α}
    {said : α → List Remark → Prop} {cut : List Remark → Prop} {r : α → Option Reply}
    {command : Command} (hbegins : Watched.BeginsWith gives (Watched.exchange command) w)
    (hconverses : ∀ n, c.held = some n → Converses n w.run c said cut)
    (hsaid : ∀ a rs, said a rs → Teaches rs (r a)) (hcut : ∀ rs, cut rs → Teaches rs none) :
    Reports w.run r c := by
  cases hheld : c.held with
  | none =>
    obtain ⟨next, rfl, -⟩ := hbegins
    have hclosed : exchange command c = .error (.failed .connectionClosed) c := by
      unfold exchange onLink
      rw [Option.map_eq_none_iff.mp hheld]
    unfold Reports Ends
    rw [Watched.run_bind, Watched.run_exchange, bind_of_error hclosed]
    exact learns_of_works (.refl c) overheard_nil
  | some n =>
    -- All that happened stays on the connection, so what passed there is all that was heard.
    have hlearns : ∀ {c' : Client} {es : List Entry} {rs : List Remark} {r : Option Reply},
        c.LeadsOn c' → c.Works c' es → Spoken n es rs → Teaches rs r → c.Learns c' r := by
      rintro c' es rs _ hleads hw hspoken ⟨hs, hheard, rfl⟩
      obtain ⟨fs, hfs, hstays⟩ := hleads.works
      obtain rfl := hfs.unique hw
      refine learns_of_works hw fun o => ?_
      rw [(hearings_of_staysOn o (hstays n hheld).2).1, hspoken.said, hheard]
    apply ((ends_of_drives (hbegins.drives (.exchange command)) c).and (hconverses n hheld)).mono
    · rintro a c' ⟨hleads, es, rs, hw, -, hspoken, hrs⟩
      exact hlearns hleads hw hspoken (hsaid a rs hrs)
    · rintro e c' ⟨⟨hleads, -⟩, es, rs, hw, hspoken, hrs, -⟩
      exact hlearns hleads hw hspoken (hcut rs hrs)

theorem reports_exchange (command : Command) (c : Client) :
    Reports (exchange command) (fun lines => lastKept [⟨.answer command, lines⟩]) c := by
  have hbegins : Watched.BeginsWith (fun _ => True) (Watched.exchange command)
      (Watched.exchange command) := Watched.begins_self _
  refine reports_of_begins hbegins (fun n hheld => converses_exchange command hheld) ?_ ?_
  · rintro lines _ rfl
    exact teaches_answered command lines
  · rintro rs ⟨-, hcut⟩
    exact teaches_asked hcut

/-- A reset that is refused is not kept. -/
theorem reports_askReset (c : Client) : Reports askReset some c := by
  have hbegins : Watched.BeginsWith (fun _ => True) _ _ := Watched.begins_askReset
  rw [← Watched.run_askReset]
  refine reports_of_begins hbegins
    (fun n hheld => Watched.run_askReset ▸ converses_askReset hheld) ?_ ?_
  · rintro _ _ ⟨lines, rfl, haccepted, rfl⟩
    have hteaches := teaches_reset lines
    rwa [haccepted] at hteaches
  · rintro rs ⟨-, hcut | ⟨lines, hrefused, rfl⟩⟩
    · exact teaches_asked hcut
    · have hteaches := teaches_reset lines
      rwa [hrefused] at hteaches

/-- The request to go on with a message body is not kept; what answers the body is. -/
theorem reports_handOver (sources : List (Option Script)) (c : Client) :
    Reports (handOver sources) some c := by
  have hbegins : Watched.BeginsWith (fun _ => True) (Watched.exchange .data)
      (Watched.handOver sources) := Watched.begins_handOver trivial
  rw [← Watched.run_handOver]
  refine reports_of_begins hbegins
    (fun n hheld => Watched.run_handOver sources ▸ converses_handOver sources hheld) ?_ ?_
  · exact fun reply rs hhanded => hhanded.teaches
  · rintro rs ⟨goAhead, hasked, hcut⟩
    exact teaches_of_prefix hasked hcut

/-- A connection that was opened is the occasion for a greeting, and for what follows on it. -/
theorem overheard_opened {n : Nat} (host : String) (port : Nat) (h : ∀ e ∈ fs, e.StaysOn n) :
    Overheard (.dialled host port :: .opened n :: fs) (heardIn .greeting (dialogue n fs)) :=
  fun _ => (hearings_of_staysOn .greeting h).1

/-- Either no connection was opened, and nothing was heard; or the one that was asked for is opened,
and all that follows stays on it. -/
theorem ends_greet_opened (host : String) (port : Nat) (c : Client) :
    Ends (greet host port) c
      (fun _ c' => ∃ fs, (∀ e ∈ fs, e.StaysOn c.net.dialled) ∧
        c.Works c' (.dialled host port :: .opened c.net.dialled :: fs))
      (fun _ c' => (∃ es, c.Works c' es ∧ Overheard es []) ∨
        ∃ fs, (∀ e ∈ fs, e.StaysOn c.net.dialled) ∧
          c.Works c' (.dialled host port :: .opened c.net.dialled :: fs)) := by
  obtain ⟨next, hgreet, hnext⟩ : Watched.BeginsWith (fun _ => True) _ _ :=
    Watched.begins_greet host port
  obtain ⟨hnumber, -⟩ := dial_facts c.net host port
  rw [← Watched.run_greet, hgreet]
  refine ends_bind.mpr ((ends_openConnection host port c).mono ?_ ?_)
  · rintro u mid ⟨net, hw, rfl⟩
    have hopened := works_of_open hw
    apply (ends_of_drives (hnext u) _).mono
    · intro reply c' hleads
      obtain ⟨fs, hfs, hstays⟩ := hleads.works
      exact ⟨fs, (hstays _ (congrArg some hnumber)).2, hopened.trans hfs⟩
    · rintro e c' ⟨hleads, -⟩
      obtain ⟨fs, hfs, hstays⟩ := hleads.works
      exact .inr ⟨fs, (hstays _ (congrArg some hnumber)).2, hopened.trans hfs⟩
  · rintro e mid ⟨net, hw, -, rfl⟩
    refine .inl ⟨_, works_of_dial hw e.eq_of_mem_trace, overheard_of_silent fun e' he' => ?_⟩
    rcases List.mem_cons.mp he' with rfl | he'
    · rfl
    · rw [e.eq_of_mem_trace e' he']
      rfl

/-- A greeting that refuses is not kept. -/
theorem reports_greet (host : String) (port : Nat) (c : Client) :
    Reports (greet host port) some c := by
  have hkept : ∀ lines, lastKept (heardIn .greeting [.heard lines]) =
      if !(ReplyLine.collapse lines).isFailure then some (ReplyLine.collapse lines) else none :=
    fun lines => lastKept_singleton ⟨.greeting, lines⟩
  -- What passed on the connection is what was heard of its greeting.
  have hlearns : ∀ {c' : Client} {es fs : List Entry} {rs : List Remark},
      (∀ e ∈ fs, e.StaysOn c.net.dialled) →
      c.Works c' (.dialled host port :: .opened c.net.dialled :: fs) → c.Works c' es →
      Spoken c.net.dialled es rs → c.Learns c' (lastKept (heardIn .greeting rs)) := by
    intro c' es fs rs hstays hw hw' hspoken
    obtain rfl := hw'.unique hw
    rw [← hspoken.said]
    exact learns_of_works hw (overheard_opened host port hstays)
  apply ((ends_greet_opened host port c).and (converses_greet host port c)).mono
  · rintro _ c' ⟨⟨fs, hstays, hw⟩, es, _, hw', -, hspoken, lines, rfl, haccepted, rfl⟩
    have h := hlearns hstays hw hw' hspoken
    rwa [hkept, haccepted] at h
  · rintro e c' ⟨⟨es, hw, hheard⟩ | ⟨fs, hstays, hw⟩, es', rs, hw', hspoken, hrs, -⟩
    · exact learns_of_works hw hheard
    · have h := hlearns hstays hw hw' hspoken
      rcases hrs with rfl | ⟨lines, hrefused, rfl⟩
      · exact h
      · rwa [hkept, hrefused] at h

/-! ### Operations -/

/-- Letting go of the connection teaches nothing. -/
theorem Learns.released {r : Option Reply} (h : c.Learns mid r) (later : Client)
    (hlast : later.lastReply = mid.lastReply) (hnet : later.net = mid.releasedNet) :
    c.Learns later r := by
  obtain ⟨hsame, es, hs, hjournal, hheard, hrecall⟩ := h
  have hsilent : Overheard mid.release [] := overheard_of_silent (by simp [release, Entry.told])
  refine ⟨hlast.trans hsame, es ++ mid.release, hs ++ [], journal_released hnet hjournal,
    hheard.append hsilent, ?_⟩
  rwa [List.append_nil]

theorem Learns.congr {r : Option Reply} (h : c.Learns mid r) (later : Client)
    (hlast : later.lastReply = mid.lastReply) (hnet : later.net = mid.net) : c.Learns later r := by
  obtain ⟨hsame, hheard⟩ := h
  exact ⟨hlast.trans hsame, hnet ▸ hheard⟩

/-- A call that is settled learns what it does unsettled. -/
theorem Reports.settled {act : Run Fault Client α} {r : α → Option Reply}
    (h : Reports act r { c with inFlight := true }) : Reports (settled act) r c := by
  unfold Reports
  simp only [Client.settled, marked, ends_bind, ends_modify, ends_attempt]
  have hunmarked : ∀ {mid : Client} {r : Option Reply}, Learns { c with inFlight := true } mid r →
      c.Learns mid r := fun hmid => ⟨hmid.lastReply, hmid.heard⟩
  apply Ends.mono h
  · intro a mid hmid
    exact (hunmarked hmid).congr { mid with inFlight := false } rfl rfl
  · intro e mid hmid
    have hmid := hunmarked hmid
    cases e with
    | abandoned => exact hmid
    | failed fault =>
      refine ends_ite.mpr ?_
      split
      · exact hmid.released (abandon { mid with inFlight := false }) rfl rfl
      · exact hmid.congr { mid with inFlight := false } rfl rfl

/-- `later` is the client after something was done to `c`, and remembers the last reply that was
kept in it; if none was, the one from before. -/
def Recalls (c later : Client) : Prop :=
  ∃ es hs, later.net.journal = es.reverse ++ c.net.journal ∧ Overheard es hs ∧
    later.lastReply = (lastKept hs).or c.lastReply

/-- What was learnt is kept. -/
theorem Learns.recalls {reply : Reply} (h : c.Learns mid (some reply))
    (hlast : later.lastReply = some reply) (hnet : later.net = mid.net) : c.Recalls later := by
  obtain ⟨-, es, hs, hjournal, hheard, hrecall⟩ := h
  refine ⟨es, hs, hnet ▸ hjournal, hheard, ?_⟩
  rw [hlast, hrecall, Option.some_or]

/-- Where nothing was learnt, nothing is forgotten. -/
theorem Learns.recalls_none (h : c.Learns later none) : c.Recalls later := by
  obtain ⟨hsame, es, hs, hjournal, hheard, hrecall⟩ := h
  refine ⟨es, hs, hjournal, hheard, ?_⟩
  rw [hsame, hrecall, Option.none_or]

theorem Recalls.trans (h : c.Recalls mid) (g : mid.Recalls later) : c.Recalls later := by
  obtain ⟨es, hs, hes, hheard, hlast⟩ := h
  obtain ⟨fs, hs', hfs, hheard', hlast'⟩ := g
  refine ⟨es ++ fs, hs ++ hs', ?_, hheard.append hheard', ?_⟩
  · rw [hfs, hes, List.reverse_append, List.append_assoc]
  · rw [hlast', hlast, lastKept_append, Option.or_assoc]

/-- What makes no reply heard, and has the client remember what it did, changes nothing. -/
theorem recalls_of_silent (es : List Entry) (hjournal : later.net.journal = es.reverse ++ c.net.journal)
    (hlast : later.lastReply = c.lastReply) (hsilent : ∀ e ∈ es, e.told = []) : c.Recalls later :=
  ⟨es, [], hjournal, overheard_of_silent hsilent, hlast⟩

theorem recalls_released (hlast : later.lastReply = c.lastReply) (hnet : later.net = c.releasedNet) :
    c.Recalls later :=
  recalls_of_silent c.release (by rw [hnet, releasedNet_eq]) hlast (by simp [release, Entry.told])

theorem Recalls.congr (h : c.Recalls mid) (hlast : later.lastReply = mid.lastReply)
    (hnet : later.net = mid.net) : c.Recalls later := by
  unfold Recalls
  rw [hlast, hnet]
  exact h

end Client

/-- The client remembers the last reply that it kept. -/
def Story.recalling : Story :=
  .always Client.Recalls (fun _ => Client.recalls_of_silent [] rfl rfl nofun) fun h g => h.trans g

namespace Client

open Story

/-- A command whose answer is kept as it is. -/
theorem recalls_transact {command : Command} (state : SessionState)
    (hkept : ∀ lines, Hearing.isKept ⟨.answer command, lines⟩ = true) (c : Client) :
    recalling.Keeps (do
        let reply ← transact command
        if !reply.isFailure then moveTo state
        return reply) c := by
  unfold Keeps
  simp only [transact, ends_bind]
  refine ((reports_exchange command { c with inFlight := true }).settled).mono ?_
    fun _ _ hlearns => hlearns.recalls_none
  intro lines mid hlearns
  dsimp only at hlearns
  rw [lastKept_singleton, if_pos (hkept lines)] at hlearns
  simp only [keep, moveTo, ends_modify, ends_pure, ends_ite, ends_bind]
  split
  · exact hlearns.recalls rfl rfl
  · exact hlearns.recalls rfl rfl

end Client

/-- An operation that is allowed remembers the last reply that it keeps. -/
theorem Operation.keeps_recalling {c : Client} (op : Operation) (hidle : c.inFlight = false)
    (hallowed : op.allows c.state = true) : Story.recalling.Keeps op.carryOut c := by
  unfold Story.Keeps
  cases op with
  | connect host port =>
    simp only [carryOut, Client.connect, ends_bind]
    refine (Client.ends_enter hidle hallowed).mpr ?_
    refine ((Client.reports_greet host port _).settled).mono ?_ fun _ _ hlearns => hlearns.recalls_none
    intro greeting mid hlearns
    exact hlearns.recalls rfl rfl
  | login =>
    have hkept : ∀ lines, Hearing.isKept ⟨.answer c.hello, lines⟩ = true := by
      intro lines
      unfold Client.hello
      split <;> rfl
    have hreply : ∀ lines, Hearing.reply ⟨.answer c.hello, lines⟩ = ReplyLine.collapse lines :=
      fun _ => rfl
    simp only [carryOut, Client.login, ends_bind]
    refine (Client.ends_enter hidle hallowed).mpr (ends_get.mpr ?_)
    refine ((Client.reports_exchange c.hello _).settled).mono ?_ fun _ _ hlearns => hlearns.recalls_none
    intro lines mid hlearns
    dsimp only at hlearns
    rw [lastKept_singleton, if_pos (hkept lines), hreply] at hlearns
    simp only [Client.keep, Client.moveTo, ends_modify, ends_pure, ends_ite, ends_bind]
    split
    · split
      · exact hlearns.recalls rfl rfl
      · exact hlearns.recalls rfl rfl
    · split
      · exact hlearns.recalls rfl rfl
      · exact hlearns.recalls rfl rfl
  | sender address dsn =>
    refine ends_bind.mpr (ends_bind.mpr ((Client.ends_enter hidle hallowed).mpr ?_))
    exact ends_bind.mpr (ends_get.mpr (Client.recalls_transact .mailFromDone (fun _ => rfl) c))
  | recipient address dsn =>
    refine ends_bind.mpr (ends_bind.mpr ((Client.ends_enter hidle hallowed).mpr ?_))
    exact ends_bind.mpr (ends_get.mpr (Client.recalls_transact .rcptToDone (fun _ => rfl) c))
  | reset =>
    simp only [carryOut, Client.reset, ends_bind]
    refine (Client.ends_enter hidle hallowed).mpr ?_
    refine ((Client.reports_askReset _).settled).mono ?_ fun _ _ hlearns => hlearns.recalls_none
    intro reply mid hlearns
    exact hlearns.recalls rfl rfl
  | sendData sources =>
    simp only [carryOut, Client.sendData, ends_bind]
    refine (Client.ends_enter hidle hallowed).mpr ?_
    refine ((Client.reports_handOver sources _).settled).mono ?_ fun _ _ hlearns => hlearns.recalls_none
    intro reply mid hlearns
    exact hlearns.recalls rfl rfl
  | done =>
    simp only [carryOut, Client.done, Client.marked, ends_bind]
    refine (Client.ends_enter hidle hallowed).mpr (ends_get.mpr ?_)
    simp only [ends_modify, ends_pure, ends_ite, ends_bind, ends_attempt]
    split
    · exact Client.recalls_released rfl rfl
    · -- The answer to a goodbye is not kept.
      have hquit : ∀ {mid : Client}, Client.Learns { c with inFlight := true } mid none →
          c.Recalls { mid with inFlight := false } := fun hlearns =>
        (hlearns.congr _ rfl rfl).recalls_none
      apply Ends.mono (Client.reports_exchange .quit { c with inFlight := true })
      · intro lines mid hlearns
        exact (hquit hlearns).trans (Client.recalls_released rfl rfl)
      · intro e mid hlearns
        cases e with
        | failed fault => cases fault <;> exact (hquit hlearns).trans (Client.recalls_released rfl rfl)
        | abandoned => exact (hquit hlearns).congr rfl rfl

namespace Story

theorem recalling_lasts : recalling.Lasts where
  operation op c := by
    refine op.keeps_of_allowed ?_ (recalling.refl c.cleared) fun hallowed =>
      op.keeps_recalling c.idle_cleared hallowed
    unfold Client.cleared
    split
    · exact Client.recalls_released rfl rfl
    · exact recalling.refl c
  disconnect c := Client.recalls_released rfl rfl
  abandon c := Client.recalls_released rfl rfl
  meanwhile wait := Client.recalls_of_silent [] wait.journal (by rw [wait.same]) nofun
  pause hw := Client.recalls_of_silent _ hw.journal rfl (by simp [Entry.told])
  cutOff hw _ := Client.recalls_of_silent _ hw.journal rfl fun entry hentry => by
    rw [Halt.eq_of_mem_trace _ entry hentry]
    rfl
  forgiven h := h

end Story

namespace Client

/-! ## The reply that is remembered -/

variable {id : Nat} {settings : ClientSettings} {token : Token} {net : Network} {calls : List Call}
  {c : Client}

/-- Whatever calls a client gets, and whatever becomes of them: at every point between calls it
remembers the last of the replies that it kept.  That is the most recent reply of all, unless that
one is a greeting that refuses, a reset that is refused, a request to go on with a message body, or
the answer to a goodbye. -/
theorem last_reply_recalled (hruns : Runs (Client.new id settings token net) calls c) :
    ∃ es : List Entry, c.net.journal = es.reverse ++ net.journal ∧
      c.lastReply = lastKept (hearings .greeting es) ∧
      ∀ h, (hearings .greeting es).getLast? = some h → h.isKept = true → c.lastReply = some h.reply := by
  have hrecalls : (Client.new id settings token net).Recalls c :=
    Story.recalling_lasts.returns_client_runs hruns fun _ _ _ _ =>
      recalls_of_silent [] rfl rfl nofun
  obtain ⟨es, hs, hjournal, hheard, hlast⟩ := hrecalls
  have hlast : c.lastReply = lastKept (hearings .greeting es) := by
    rw [hlast, hheard]
    exact Option.or_none
  exact ⟨es, hjournal, hlast, fun h hh hkept => hlast.trans (lastKept_of_isKept hh hkept)⟩

/-- A client that has handed a message over and said goodbye. -/
def saidGoodbye : Client :=
  let calls : List Call := [.operation (.connect "mx" 25), .operation .login,
    .operation (.sender .null none), .operation (.recipient .null none),
    .operation (.sendData Submitter.shortMessage.sources), .operation .done]
  calls.foldl (fun c call => call.after c)
    (.new 1 {} {} (Submitter.serverSending (Submitter.takingLines ++ ["221 bye"]) []))

/-- It remembers what the server said of the message. -/
theorem last_reply_recalled_saidGoodbye :
    ∃ es : List Entry, saidGoodbye.net.journal = es.reverse ∧
      (hearings .greeting es).getLast? =
        some ⟨.answer .quit, [{ code := 221, text := "bye", last := true }]⟩ ∧
      lastKept (hearings .greeting es) = some { code := 250, text := "taken", size := some 7 } := by
  obtain ⟨es, hjournal, hlast, -⟩ := last_reply_recalled (runs_foldl _ (.new 1 {} {}
    (Submitter.serverSending (Submitter.takingLines ++ ["221 bye"]) []))) (c := saidGoodbye)
  have hes : es = saidGoodbye.net.journal.reverse := by
    rw [hjournal.trans (List.append_nil _), List.reverse_reverse]
  refine ⟨es, hjournal.trans (List.append_nil _), ?_, hlast.symm.trans ?_⟩
  · rw [hes]
    decide +kernel
  · decide +kernel

/-- So the client does not always remember the most recent reply: here it is a greeting that
refuses. -/
theorem last_reply_not_always_most_recent :
    ¬ ∀ (id : Nat) (settings : ClientSettings) (token : Token) (net : Network) (calls : List Call)
      (c : Client), Runs (Client.new id settings token net) calls c →
      ∃ es : List Entry, c.net.journal = es.reverse ++ net.journal ∧
        c.lastReply = (hearings .greeting es).getLast?.map Hearing.reply := by
  intro hall
  let refusing : Client := Call.after (.operation (.connect "mx" 25))
    (.new 1 {} {} (Submitter.serverSending ["554 go away"] []))
  obtain ⟨es, hjournal, hlast⟩ := hall 1 {} {} (Submitter.serverSending ["554 go away"] [])
    [.operation (.connect "mx" 25)] refusing (.call (.nil _))
  have hes : es = refusing.net.journal.reverse := by
    rw [hjournal.trans (List.append_nil _), List.reverse_reverse]
  rw [hes] at hlast
  have hforgotten : refusing.lastReply = none := by decide +kernel
  have hheard : (hearings .greeting refusing.net.journal.reverse).getLast?.map Hearing.reply =
      some { code := 554, text := "go away" } := by decide +kernel
  rw [hforgotten, hheard] at hlast
  cases hlast

end Client

end MailSubmission
