import Mathlib.Algebra.Ring.Nat
import Mathlib.Data.List.Nodup
import MailSubmission.Proofs.AddressReading
import MailSubmission.Proofs.ClientStories
import MailSubmission.Proofs.Milestones

set_option autoImplicit false

/-!
# Names that tell apart

A client is numbered when it is made, and its name ends in that number.  A submitter's messages are
known by the name of its client and the number of the message.  Whatever text stands in front, the
number is found behind the last separator, since no digit is one (`numbered_inj`).

All clients of a process take their numbers from one counter (`Process`).  What happens to them
there keeps what tells them apart (`Process.Distinct`): each step does, and so does every run.
-/

namespace MailSubmission

open Run

/-! ## A number behind a text -/

theorem isDigit_of_mem_toString {n : Nat} {c : Char} (h : c ∈ (toString n).toList) :
    c.isDigit = true := by
  rw [Nat.toString_eq_repr, Nat.toList_repr] at h
  exact Nat.isDigit_of_mem_toDigits (by decide) (by decide) h

theorem toString_inj {m n : Nat} (h : toString m = toString n) : m = n := by
  rw [Nat.toString_eq_repr, Nat.toString_eq_repr, ← String.toList_inj, Nat.toList_repr,
    Nat.toList_repr] at h
  rw [← Nat.ofDigitChars_ten_toDigits (n := m), h, Nat.ofDigitChars_ten_toDigits]

/-- Text and number are found in what they are put together to, whatever the text. -/
theorem numbered_inj {separator : String} {a : Char} (hseparator : separator.toList = [a])
    (ha : a.isDigit = false) {text text' : String} {m n : Nat}
    (h : text ++ separator ++ toString m = text' ++ separator ++ toString n) :
    text = text' ∧ m = n := by
  have hsplit : ∀ (text : String) (k : Nat),
      splitLast? a (text ++ separator ++ toString k).toList =
        some (text.toList, (toString k).toList) := by
    intro text k
    have hnotMem : a ∉ (toString k).toList := by
      intro hmem
      rw [isDigit_of_mem_toString hmem] at ha
      cases ha
    rw [String.toList_append, String.toList_append, hseparator, List.append_assoc]
    exact splitLast?_append hnotMem
  have hparts := hsplit text m
  rw [h, hsplit text' n, Option.some_inj, Prod.mk.injEq] at hparts
  exact ⟨String.toList_inj.mp hparts.1.symm, toString_inj (String.toList_inj.mp hparts.2.symm)⟩

theorem Client.nameFor_inj {stem stem' : String} {id id' : Nat}
    (h : Client.nameFor stem id = Client.nameFor stem' id') : id = id' :=
  (numbered_inj (a := '-') rfl rfl h).2

/-! ## What a call keeps of a client -/

/-- `later` is the client `c` with the same number and the same name. -/
structure Client.Alike (c later : Client) : Prop where
  id : later.id = c.id
  name : later.name = c.name

theorem Client.Alike.trans {c mid later : Client} (h : c.Alike mid) (g : mid.Alike later) :
    c.Alike later := ⟨g.id.trans h.id, g.name.trans h.name⟩

theorem Client.Works.alike {c later : Client} {es : List Entry} (h : c.Works later es) :
    c.Alike later := by
  rw [h.same]
  exact ⟨rfl, rfl⟩

theorem Operation.Books.alike {op : Operation} {mid later : Client} (h : op.Books mid later) :
    mid.Alike later := by
  by_cases hop : op = .done
  · rw [h.away hop]
    exact ⟨rfl, rfl⟩
  · rw [h.same hop]
    exact ⟨rfl, rfl⟩

theorem Operation.alike_halted (op : Operation) (c : Client) (e : Halt Fault) :
    c.Alike (op.halted c e) := by
  cases e with
  | abandoned =>
    rw [op.halted_abandoned]
    exact ⟨rfl, rfl⟩
  | failed fault => cases op <;> first | exact ⟨rfl, rfl⟩ | (cases fault <;> exact ⟨rfl, rfl⟩)

namespace Story

/-- The client keeps its number and its name. -/
def naming : Story := .always Client.Alike (fun _ => ⟨rfl, rfl⟩) fun h g => h.trans g

theorem naming_lasts : naming.Lasts where
  operation op c := by
    refine op.keeps_of_work ?_ ⟨rfl, rfl⟩ ?_
    · unfold Client.cleared
      split <;> exact ⟨rfl, rfl⟩
    · apply (op.worksOnly_work c.cleared _).mono
      · rintro _ mid ⟨es, hworks⟩ later hbooks
        have hmid : c.cleared.Alike mid := ⟨hworks.alike.id, hworks.alike.name⟩
        exact hmid.trans hbooks.alike
      · rintro e mid ⟨⟨es, hworks⟩, -⟩
        have hmid : c.cleared.Alike { mid with inFlight := false } :=
          ⟨hworks.alike.id, hworks.alike.name⟩
        exact hmid.trans (op.alike_halted _ e)
  disconnect _ := ⟨rfl, rfl⟩
  abandon _ := ⟨rfl, rfl⟩
  meanwhile wait := by
    rw [wait.same]
    exact ⟨rfl, rfl⟩
  pause _ := ⟨rfl, rfl⟩
  cutOff _ _ := ⟨rfl, rfl⟩
  forgiven h := h

end Story

/-- The name ends in the client's number. -/
def Client.IsNumbered (c : Client) : Prop := ∃ stem, c.name = Client.nameFor stem c.id

theorem Client.Alike.isNumbered {c later : Client} (h : c.Alike later) (hc : c.IsNumbered) :
    later.IsNumbered := by
  unfold Client.IsNumbered
  rw [h.id, h.name]
  exact hc

/-- A call may give the client a new name, but one with the old number. -/
theorem Call.after_isNumbered (call : Call) {c : Client} (hc : c.IsNumbered) :
    (call.after c).id = c.id ∧ (call.after c).IsNumbered := by
  have hkept : (∀ settings token, call ≠ .configure settings token) → c.Alike (call.after c) :=
    fun hnot => Story.naming_lasts.returns_call_after fun settings token hcall =>
      absurd hcall (hnot settings token)
  cases call with
  | operation op => exact ⟨(hkept nofun).id, (hkept nofun).isNumbered hc⟩
  | disconnect => exact ⟨(hkept nofun).id, (hkept nofun).isNumbered hc⟩
  | configure settings token =>
    have hcleared : c.Alike c.cleared := Story.naming_lasts.returns_cleared c
    refine Call.after_of_ends (p := fun later => later.id = c.id ∧ later.IsNumbered) ?_
    refine ends_bind.mpr (Client.ends_enter_iff.mpr ?_)
    rw [Client.cleared_cleared]
    split
    · exact ⟨hcleared.id, settings.name, rfl⟩
    · exact ⟨hcleared.id, hcleared.isNumbered hc⟩

/-! ## What a call keeps of a submitter -/

namespace Submitter

variable {m : Message} {s mid later : Submitter}

/-- `later` is the submitter `s` as far as it tells what a message is known by. -/
structure Alike (s later : Submitter) : Prop where
  settings : later.settings = s.settings
  submissions : later.submissions = s.submissions
  client : s.client.Alike later.client

theorem Alike.trans (h : s.Alike mid) (g : mid.Alike later) : s.Alike later :=
  ⟨g.settings.trans h.settings, g.submissions.trans h.submissions, h.client.trans g.client⟩

/-- Whatever becomes of the client and of what is counted against its connection. -/
theorem alike_of_client {client : Client} {streamSent : Nat} (h : s.client.Alike client) :
    s.Alike { s with client, streamSent } := ⟨rfl, rfl, h⟩

theorem ends_attempt_alike (m : Message) (s : Submitter) :
    Ends (attempt m) s (fun _ later => s.Alike later) (fun _ later => s.Alike later) := by
  apply ((ends_attempt_passes m s).and ((Story.naming_lasts.follows m).tells_attempt s)).mono
  · rintro a later ⟨hpasses, hclient⟩
    rw [hpasses.same]
    exact alike_of_client hclient
  · rintro e later ⟨hpasses, halt, -, hclient⟩
    rw [hpasses.same]
    exact alike_of_client hclient

theorem ends_attempts_alike (m : Message) (left : Nat) (s : Submitter) :
    Ends (attempts m left) s (fun _ later => s.Alike later) (fun _ later => s.Alike later) := by
  have hattempt : ∀ t, s.Alike t →
      Ends (attempt m) t (fun _ later => s.Alike later) (fun _ later => s.Alike later) := by
    intro t ht
    exact (ends_attempt_alike m t).mono (fun _ _ h => ht.trans h) fun _ _ h => ht.trans h
  refine ends_attempts (fun t => s.Alike t) m left hattempt ?_ ⟨rfl, rfl, rfl, rfl⟩
  intro t mid stage reply ht hr _
  have hmid : s.Alike mid := (hattempt t ht).of_ok hr
  apply (ends_pause { mid with client := mid.client.disconnect }).mono
  · rintro _ later ⟨net, rfl, -⟩
    exact hmid.trans (alike_of_client ⟨rfl, rfl⟩)
  · rintro e later ⟨net, halt, rfl, -⟩
    exact hmid.trans (alike_of_client ⟨rfl, rfl⟩)

theorem ends_finish_alike (s : Submitter) :
    Ends finish s (fun _ later => s.Alike later) (fun _ later => s.Alike later) := by
  refine ends_finish_iff.mpr ?_
  split
  · apply Ends.mono (ends_bind.mp (Story.naming_lasts.operation .reset s.client))
    · intro reply c hc
      exact alike_of_client hc
    · intro e c hc
      cases e with
      | failed fault => exact alike_of_client (Client.Alike.trans hc ⟨rfl, rfl⟩)
      | abandoned => exact alike_of_client hc
  · exact alike_of_client ⟨rfl, rfl⟩

/-- A submission is counted, however it ends. -/
theorem ends_submit_alike (m : Message) (s : Submitter) :
    Ends (submit m) s (fun _ later => Alike { s with submissions := s.submissions + 1 } later)
      (fun _ later => Alike { s with submissions := s.submissions + 1 } later) := by
  have hfinish : ∀ mid, Alike { s with submissions := s.submissions + 1 } mid →
      Ends finish mid (fun _ later => Alike { s with submissions := s.submissions + 1 } later)
        (fun _ later => Alike { s with submissions := s.submissions + 1 } later) := fun mid hmid =>
    (ends_finish_alike mid).mono (fun _ _ h => hmid.trans h) fun _ _ h => hmid.trans h
  refine ends_submit_iff.mpr
    ((ends_attempts_alike m _ _).mono (fun _ mid hmid => hfinish mid hmid) ?_)
  intro e mid hmid
  cases e with
  | abandoned => exact hmid
  | failed failure =>
    dsimp only
    split
    · exact hmid
    · exact hfinish mid hmid

theorem ends_quit_alike (s : Submitter) :
    Ends quit s (fun _ later => s.Alike later) (fun _ later => s.Alike later) := by
  simp only [quit, ends_bind, ends_get]
  refine ends_ite.mpr ?_
  split
  · refine ends_bind.mpr (ends_tryClient.mpr
      (Ends.mono (ends_bind.mp (Story.naming_lasts.operation .done s.client)) ?_ ?_))
    · intro reply c hc
      exact alike_of_client (Client.Alike.trans hc ⟨rfl, rfl⟩)
    · intro e c hc
      cases e with
      | failed fault => exact alike_of_client (Client.Alike.trans hc ⟨rfl, rfl⟩)
      | abandoned => exact alike_of_client hc
  · exact alike_of_client ⟨rfl, rfl⟩

/-! ## What a message is known by -/

/-- The envelope has no identifier that the message could be known by. -/
def HasNoEnvid (settings : SubmitSettings) : Prop := settings.dsn.bind (·.envid) = none

instance (settings : SubmitSettings) : Decidable (HasNoEnvid settings) :=
  inferInstanceAs (Decidable (_ = _))

theorem correlationId_of_hasNoEnvid (h : HasNoEnvid s.settings) :
    s.correlationId = s.client.name ++ "#" ++ toString s.submissions := by
  unfold correlationId
  rw [h]

theorem Call.after_alike (call : Call) (s : Submitter) :
    Alike { s with submissions := s.submissions + call.messages.length } (call.after s) := by
  cases call with
  | submit m => exact Call.after_of_ends (ends_bind.mpr (ends_submit_alike m s))
  | measuredSubmit m =>
    rw [Call.after_measuredSubmit]
    exact Call.after_of_ends (ends_bind.mpr (ends_submit_alike m s))
  | disconnect => exact alike_of_client (s := s) ⟨rfl, rfl⟩
  | quit => exact Call.after_of_ends (ends_quit_alike s)

/-- The record that a call makes, if it measures a submission that is neither cancelled nor
dropped. -/
def Call.outcome? (call : Call) (s : Submitter) : Option Outcome :=
  match call with
  | measuredSubmit m =>
    match Submitter.measuredSubmit m s with
    | .ok outcome _ => some outcome
    | .error _ _ => none
  | submit _ | disconnect | quit => none

/-- A record is made of the submission that was counted last. -/
theorem Call.of_outcome? {call : Call} {outcome : Outcome} (h : call.outcome? s = some outcome)
    (hnone : HasNoEnvid s.settings) :
    call.messages.length = 1 ∧
      outcome.correlationId = s.client.name ++ "#" ++ toString (s.submissions + 1) := by
  cases call with
  | measuredSubmit m =>
    refine ⟨rfl, ?_⟩
    have hends : Ends (Submitter.measuredSubmit m) s (fun outcome later =>
        outcome.correlationId = later.correlationId ∧
          Alike { s with submissions := s.submissions + 1 } later) fun _ _ => True := by
      refine ends_measuredSubmit_iff.mpr ((ends_submit_alike m s).mono
        (fun reply later hlater => ⟨rfl, hlater⟩) ?_)
      intro e later hlater
      cases e with
      | abandoned => trivial
      | failed failure =>
        dsimp only
        split
        · trivial
        · exact ⟨rfl, hlater⟩
    unfold outcome? at h
    cases hr : Submitter.measuredSubmit m s with
    | ok outcome' later =>
      simp only [hr, Option.some_inj] at h
      obtain ⟨hid, halike⟩ := hends.of_ok hr
      rw [← h, hid, correlationId_of_hasNoEnvid (halike.settings ▸ hnone), halike.client.name,
        halike.submissions]
    | error e later =>
      simp only [hr] at h
      cases h
  | submit | disconnect | quit => cases h

end Submitter

/-! ## All that a process makes -/

/-- What a process makes: a client that is used by itself, or a submitter with a client of its
own. -/
inductive Agent where
  | client (c : Client)
  | submitter (s : Submitter)
  deriving DecidableEq, Repr

/-- The record of a measured submission, and the settings of the submitter that it was handed to. -/
structure Record where
  settings : SubmitSettings
  outcome : Outcome
  deriving DecidableEq, Repr

/-- What submissions are known by that have no identifier of their own. -/
def Record.given (records : List Record) : List String :=
  (records.filter fun r => Submitter.HasNoEnvid r.settings).map (·.outcome.correlationId)

theorem Record.given_append (records more : List Record) :
    given (records ++ more) = given records ++ given more := by
  rw [given, List.filter_append, List.map_append]
  rfl

theorem Record.given_singleton_of_hasNoEnvid {r : Record} (h : Submitter.HasNoEnvid r.settings) :
    given [r] = [r.outcome.correlationId] := by
  simp [given, h]

theorem Record.given_singleton_of_not_hasNoEnvid {r : Record}
    (h : ¬ Submitter.HasNoEnvid r.settings) : given [r] = [] := by
  simp [given, h]

namespace Agent

/-- The client that is used. -/
def self : Agent → Client
  | client c => c
  | submitter s => s.client

/-- A call on an agent, with the records that it makes, or the world goes on between calls. -/
inductive Acts : Agent → List Record → Agent → Prop where
  | call (c : Client) (call : Call) : Acts (client c) [] (client (call.after c))
  | meanwhile {c later : Client} (wait : c.Meanwhile later) : Acts (client c) [] (client later)
  | submitterCall (s : Submitter) (call : Submitter.Call) :
    Acts (submitter s) ((call.outcome? s).map (Record.mk s.settings)).toList
      (submitter (call.after s))
  | submitterMeanwhile {s : Submitter} {later : Client} (wait : s.client.Meanwhile later) :
    Acts (submitter s) [] (submitter { s with client := later })

variable {a b : Agent} {rs : List Record}

/-- Whatever an agent does, its client keeps its number, and its name ends in it. -/
theorem Acts.isNumbered (h : a.Acts rs b) (ha : a.self.IsNumbered) :
    b.self.id = a.self.id ∧ b.self.IsNumbered := by
  have hwait : ∀ {c later : Client}, c.Meanwhile later → c.Alike later := fun wait =>
    Story.naming_lasts.meanwhile wait
  cases h with
  | call c call => exact call.after_isNumbered ha
  | meanwhile wait => exact ⟨(hwait wait).id, (hwait wait).isNumbered ha⟩
  | submitterCall s call =>
    have halike := (call.after_alike s).client
    exact ⟨halike.id, halike.isNumbered ha⟩
  | submitterMeanwhile wait => exact ⟨(hwait wait).id, (hwait wait).isNumbered ha⟩

/-- The submitter that it was counts no less than before, under the same name. -/
theorem Acts.counts {s : Submitter} (h : (submitter s).Acts rs b) :
    ∃ later, b = submitter later ∧ later.client.name = s.client.name ∧
      s.submissions ≤ later.submissions := by
  cases h with
  | submitterCall s call =>
    have halike := call.after_alike s
    exact ⟨_, rfl, halike.client.name, halike.submissions ▸ Nat.le_add_right _ _⟩
  | submitterMeanwhile wait =>
    exact ⟨_, rfl, (Story.naming_lasts.meanwhile wait : Client.Alike _ _).name, Nat.le_refl _⟩

/-- One record is made at most, and if the envelope has no identifier, it is known by the name of
the client and by a number that was not reached before. -/
theorem Acts.records (h : a.Acts rs b) : rs = [] ∨
    ∃ s later r, a = submitter s ∧ b = submitter later ∧ rs = [r] ∧
      (Submitter.HasNoEnvid r.settings → later.client.name = s.client.name ∧
        later.submissions = s.submissions + 1 ∧
        r.outcome.correlationId = s.client.name ++ "#" ++ toString (s.submissions + 1)) := by
  cases h with
  | call | meanwhile | submitterMeanwhile => exact .inl rfl
  | submitterCall s call =>
    cases hr : call.outcome? s with
    | none => exact .inl rfl
    | some outcome =>
      refine .inr ⟨s, call.after s, ⟨s.settings, outcome⟩, rfl, rfl, rfl, fun hnone => ?_⟩
      obtain ⟨hcounted, hid⟩ := Submitter.Call.of_outcome? hr hnone
      have halike := call.after_alike s
      exact ⟨halike.client.name, hcounted ▸ halike.submissions, hid⟩

end Agent

/-- All that a process has made, in order; the counter that the next client takes its number from,
a word of 64 bits; and the records of measured submissions. -/
structure Process where
  next : UInt64 := 1
  agents : List Agent := []
  records : List Record := []

namespace Process

variable {p q : Process} {a b : Agent}

/-- The process after it has made an agent. -/
def made (p : Process) (a : Agent) : Process :=
  { p with next := p.next + 1, agents := p.agents ++ [a] }

/-- What a process can do: make a client or a submitter, or have one of them act.  A submitter whose
settings cannot be used takes no number. -/
inductive Step : Process → Process → Prop where
  | client (p : Process) (settings : ClientSettings) (token : Token) (net : Network) :
    Step p (p.made (.client (.new p.next.toNat settings token net)))
  | submitter (p : Process) {settings : SubmitSettings} {token : Token} {net : Network}
    {s : Submitter} (hnew : Submitter.new p.next.toNat settings token net = .ok s) :
    Step p (p.made (.submitter s))
  | act {p : Process} {a b : Agent} {rs : List Record} {before behind : List Agent}
    (hagents : p.agents = before ++ a :: behind) (hact : a.Acts rs b) :
    Step p { p with agents := before ++ b :: behind, records := p.records ++ rs }

/-- A process that began with nothing can come to this. -/
inductive Reached : Process → Prop where
  | start : Reached {}
  | step {p q : Process} (h : Reached p) (hstep : Step p q) : Reached q

/-- The invariant: the clients are numbered one after another, their names end in these numbers, and
what a message is known by is the name of a submitter's client and a number that it has reached. -/
structure Distinct (p : Process) : Prop where
  next : p.next = UInt64.ofNat (p.agents.length + 1)
  ids : p.agents.map (·.self.id) = List.range' 1 p.agents.length
  numbered : ∀ a ∈ p.agents, a.self.IsNumbered
  known : ∀ id ∈ Record.given p.records, ∃ s n, .submitter s ∈ p.agents ∧ n ≤ s.submissions ∧
    id = s.client.name ++ "#" ++ toString n
  apart : (Record.given p.records).Nodup

theorem Distinct.ids_nodup (h : p.Distinct) : (p.agents.map (·.self.id)).Nodup :=
  h.ids ▸ List.nodup_range'

/-- Two agents of one name are one. -/
theorem Distinct.eq_of_name_eq (h : p.Distinct) (ha : a ∈ p.agents) (hb : b ∈ p.agents)
    (hname : a.self.name = b.self.name) : a = b := by
  refine List.inj_on_of_nodup_map h.ids_nodup ha hb ?_
  obtain ⟨stem, hstem⟩ := h.numbered a ha
  obtain ⟨stem', hstem'⟩ := h.numbered b hb
  rw [hstem, hstem'] at hname
  exact Client.nameFor_inj hname

theorem Distinct.names_nodup (h : p.Distinct) : (p.agents.map (·.self.name)).Nodup :=
  List.Nodup.map_on (fun _ ha _ hb hname => h.eq_of_name_eq ha hb hname) (.of_map _ h.ids_nodup)

theorem distinct_start : Distinct {} where
  next := rfl
  ids := rfl
  numbered _ ha := absurd ha List.not_mem_nil
  known _ hid := absurd hid List.not_mem_nil
  apart := List.nodup_nil

/-- What is made gets the next number. -/
theorem Distinct.made (h : p.Distinct) (hid : a.self.id = p.next.toNat) (ha : a.self.IsNumbered)
    (hfew : p.agents.length + 1 < 2 ^ 64) : (p.made a).Distinct where
  next := by
    rw [Process.made, h.next, List.length_append, List.length_singleton, UInt64.ofNat_add (_ + 1)]
    rfl
  ids := by
    have hnext : a.self.id = 1 + p.agents.length := by
      rw [hid, h.next, UInt64.toNat_ofNat_of_lt' hfew, Nat.add_comm]
    rw [Process.made, List.map_append, h.ids, List.length_append, List.map_singleton, hnext,
      List.length_singleton, List.range'_1_concat]
  numbered := by
    rw [Process.made, List.forall_mem_append, List.forall_mem_singleton]
    exact ⟨h.numbered, ha⟩
  known id hmem := by
    obtain ⟨s, n, hs, hn⟩ := h.known id hmem
    exact ⟨s, n, List.mem_append_left _ hs, hn⟩
  apart := h.apart

section

variable {rs : List Record} {before behind : List Agent}

/-- Every submitter is still there when an agent has acted. -/
theorem exists_after_act (hagents : p.agents = before ++ a :: behind) (hact : a.Acts rs b)
    {s : Submitter} (hs : .submitter s ∈ p.agents) :
    ∃ later, .submitter later ∈ before ++ b :: behind ∧ later.client.name = s.client.name ∧
      s.submissions ≤ later.submissions := by
  rw [hagents, List.mem_append, List.mem_cons] at hs
  rcases hs with hs | rfl | hs
  · exact ⟨s, List.mem_append_left _ hs, rfl, Nat.le_refl _⟩
  · obtain ⟨later, rfl, hlater⟩ := hact.counts
    exact ⟨later, List.mem_append_right _ List.mem_cons_self, hlater⟩
  · exact ⟨s, List.mem_append_right _ (List.mem_cons_of_mem _ hs), rfl, Nat.le_refl _⟩

/-- What a new record is known by has not been given before. -/
theorem Distinct.notMem_given (h : p.Distinct) {s : Submitter} (hs : .submitter s ∈ p.agents) :
    s.client.name ++ "#" ++ toString (s.submissions + 1) ∉ Record.given p.records := by
  intro hmem
  obtain ⟨s', n, hs', hn, heq⟩ := h.known _ hmem
  obtain ⟨hname, rfl⟩ := numbered_inj (a := '#') rfl rfl heq
  have hsame : Agent.submitter s = .submitter s' := h.eq_of_name_eq hs hs' hname
  obtain rfl := Agent.submitter.inj hsame
  exact Nat.not_succ_le_self _ hn

theorem Distinct.act (h : p.Distinct) (hagents : p.agents = before ++ a :: behind)
    (hact : a.Acts rs b) :
    Distinct { p with agents := before ++ b :: behind, records := p.records ++ rs } := by
  have hnumbered := h.numbered
  rw [hagents, List.forall_mem_append, List.forall_mem_cons] at hnumbered
  obtain ⟨hid, hb⟩ := hact.isNumbered hnumbered.2.1
  have hlength : (before ++ b :: behind).length = p.agents.length := by
    rw [hagents, List.length_append, List.length_append, List.length_cons, List.length_cons]
  have hold : ∀ id ∈ Record.given p.records, ∃ s n, .submitter s ∈ before ++ b :: behind ∧
      n ≤ s.submissions ∧ id = s.client.name ++ "#" ++ toString n := by
    intro id hmem
    obtain ⟨s, n, hs, hn, rfl⟩ := h.known id hmem
    obtain ⟨later, hlater, hname, hcount⟩ := exists_after_act hagents hact hs
    exact ⟨later, n, hlater, Nat.le_trans hn hcount, by rw [hname]⟩
  have hgiven : (∀ id ∈ Record.given (p.records ++ rs), ∃ s n,
      .submitter s ∈ before ++ b :: behind ∧ n ≤ s.submissions ∧
        id = s.client.name ++ "#" ++ toString n) ∧ (Record.given (p.records ++ rs)).Nodup := by
    rw [Record.given_append, List.forall_mem_append]
    rcases hact.records with rfl | ⟨s, later, r, rfl, rfl, rfl, hknown⟩
    · exact ⟨⟨hold, nofun⟩, (List.append_nil _).symm ▸ h.apart⟩
    · by_cases hnone : Submitter.HasNoEnvid r.settings
      · obtain ⟨hname, hcount, hid⟩ := hknown hnone
        rw [Record.given_singleton_of_hasNoEnvid hnone, hid, List.forall_mem_singleton]
        refine ⟨⟨hold, later, _, List.mem_append_right _ List.mem_cons_self,
          Nat.le_of_eq hcount.symm, by rw [hname]⟩, ?_⟩
        refine h.apart.append (List.nodup_singleton _) (List.disjoint_singleton.mpr ?_)
        exact h.notMem_given (hagents ▸ List.mem_append_right _ List.mem_cons_self)
      · rw [Record.given_singleton_of_not_hasNoEnvid hnone, List.append_nil]
        exact ⟨⟨hold, nofun⟩, h.apart⟩
  exact
    { next := by rw [hlength]; exact h.next
      ids := by
        rw [hlength, ← h.ids, hagents, List.map_append, List.map_append, List.map_cons,
          List.map_cons, hid]
      numbered := by
        rw [List.forall_mem_append, List.forall_mem_cons]
        exact ⟨hnumbered.1, hb, hnumbered.2.2⟩
      known := hgiven.1
      apart := hgiven.2 }

end

/-- One step. -/
theorem Distinct.step (h : p.Distinct) (hstep : Step p q) (hfew : q.agents.length < 2 ^ 64) :
    q.Distinct := by
  have hmade : ∀ a : Agent, (p.made a).agents.length = p.agents.length + 1 := fun a =>
    List.length_append
  cases hstep with
  | client settings token net => exact h.made rfl ⟨settings.name, rfl⟩ (hmade _ ▸ hfew)
  | @submitter settings token net s hnew =>
    have hclient : (Agent.submitter s).self = .new p.next.toNat settings.client token net :=
      Submitter.client_of_new hnew
    refine h.made (congrArg Client.id hclient) ?_ (hmade _ ▸ hfew)
    rw [hclient]
    exact ⟨settings.client.name, rfl⟩
  | act hagents hact => exact h.act hagents hact

/-- Nothing that was made is gone. -/
theorem Step.length_le (h : Step p q) : p.agents.length ≤ q.agents.length := by
  cases h with
  | client | submitter =>
    rw [Process.made, List.length_append]
    exact Nat.le_add_right _ _
  | act hagents => simp [hagents]

/-- Any number of steps. -/
theorem Reached.distinct (h : p.Reached) (hfew : p.agents.length < 2 ^ 64) : p.Distinct := by
  induction h with
  | start => exact distinct_start
  | step h hstep ih => exact (ih (Nat.lt_of_le_of_lt hstep.length_le hfew)).step hstep hfew

/-- Whatever a process does that has made fewer than 2 ^ 64 clients and submitters, with whatever
prefixes of their names and whatever other names they are given later: no two clients have the same
name, those of submitters among them; and no two measured submissions of which a record was made are
known by the same text, if the envelope has no identifier. -/
theorem names_tell_apart (h : p.Reached) (hfew : p.agents.length < 2 ^ 64) :
    (p.agents.map (·.self.name)).Nodup ∧
    ((p.records.filter fun r => Submitter.HasNoEnvid r.settings).map
      (·.outcome.correlationId)).Nodup := by
  have hdistinct := h.distinct hfew
  exact ⟨hdistinct.names_nodup, hdistinct.apart⟩

/-- A client that is given the prefix of another one. -/
def renamed : Client := .new 1 { name := "a" } {} {}

/-- Settings by which messages are known by a name that looks like another message's. -/
def lookalikeSettings : SubmitSettings := { client := { name := "a#1-" } }

/-- A server for one message. -/
def oneMessage : Network := Submitter.serverSending Submitter.takingLines []

/-- A submitter with these settings, and that server. -/
def lookalike : Submitter :=
  { settings := lookalikeSettings, client := .new 3 lookalikeSettings.client {} oneMessage }

/-- A message is handed in. -/
def handIn : Submitter.Call := .measuredSubmit Submitter.shortMessage

/-- The submitter after one message. -/
def lookalikeLater : Submitter := handIn.after lookalike

/-- The record that is made of a message. -/
def measured (s : Submitter) : Option Record := (handIn.outcome? s).map (.mk s.settings)

/-- A process with names that look alike: one client is given another name, and two messages are
handed in, the second one in vain. -/
def lookalikes : Process where
  next := 4
  agents := [.client ((Call.configure { name := "a-1" } {}).after renamed),
    .client (.new 2 { name := "a-1" } {} {}),
    .submitter (handIn.after lookalikeLater)]
  records := (measured lookalike).toList ++ (measured lookalikeLater).toList

theorem reached_lookalikes : lookalikes.Reached := by
  have hnew : Submitter.new 3 lookalikeSettings {} oneMessage = .ok lookalike := rfl
  have hmade := ((Reached.start.step (.client _ { name := "a" } {} {})).step
    (.client _ { name := "a-1" } {} {})).step (.submitter _ hnew)
  have hrenamed := hmade.step (.act (show _ = [] ++ Agent.client renamed :: _ from rfl)
    (.call renamed (.configure { name := "a-1" } {})))
  have hfirst := hrenamed.step (.act (show _ = [_, _] ++ Agent.submitter lookalike :: [] from rfl)
    (.submitterCall lookalike handIn))
  have hsecond := hfirst.step
    (.act (show _ = [_, _] ++ Agent.submitter lookalikeLater :: [] from rfl)
      (.submitterCall lookalikeLater handIn))
  exact hsecond

theorem names_tell_apart_lookalikes :
    lookalikes.Reached ∧ lookalikes.agents.length < 2 ^ 64 ∧
    lookalikes.agents.map (·.self.name) = ["a-1-1", "a-1-2", "a#1--3"] ∧
    (lookalikes.records.filter fun r => Submitter.HasNoEnvid r.settings).map
      (·.outcome.correlationId) = ["a#1--3#1", "a#1--3#2"] ∧
    (lookalikes.agents.map (·.self.name)).Nodup ∧
    ((lookalikes.records.filter fun r => Submitter.HasNoEnvid r.settings).map
      (·.outcome.correlationId)).Nodup := by
  have hfew : lookalikes.agents.length < 2 ^ 64 := by decide
  exact ⟨reached_lookalikes, hfew, by decide +kernel, by decide +kernel,
    names_tell_apart reached_lookalikes hfew⟩

end Process

end MailSubmission
