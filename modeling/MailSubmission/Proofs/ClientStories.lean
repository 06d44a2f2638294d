import MailSubmission.Proofs.Bookkeeping
import MailSubmission.Proofs.Lifetime
import MailSubmission.Proofs.Verdict

set_option autoImplicit false

/-!
# Stories of clients

An account of the network speaks of every piece of work alike.  What depends on the operation that
the work belongs to, or on what the client keeps of it, is a story of the client (`Story`): it is
kept to by each operation as a whole (`Operation.keeps_of_work`).  Nothing need come after a halt in
it, so a story can say exactly what the halt left.

A submitter does nothing with its client but carry out operations, let go of the connection and
make pauses.  So a story that follows a client through these (`Story.Follows`) tells what the handing
in of a message does to the client, and if that fails it tells of the halt that it failed with
(`Story.Follows.ends_submit`).  A story that goes on between calls (`Story.Lasts`) tells as well what
any run of calls does, on a client and on a submitter.
-/

namespace MailSubmission

open Run

/-- Letting go of a connection twice is letting go of it once. -/
theorem Client.disconnect_disconnect (c : Client) : c.disconnect.disconnect = c.disconnect := rfl

/-- What is said of a client after a call on it that returned, or that came to a halt. -/
structure Story where
  returns : Client → Client → Prop
  halts : Halt Fault → Client → Client → Prop
  refl (c : Client) : returns c c
  trans {c mid later : Client} (h : returns c mid) (g : returns mid later) : returns c later
  trans_halts {e : Halt Fault} {c mid later : Client} (h : returns c mid) (g : halts e mid later) :
    halts e c later

namespace Story

/-- A story in which it does not matter how calls end. -/
def always (tells : Client → Client → Prop) (refl : ∀ c, tells c c)
    (trans : ∀ {c mid later : Client}, tells c mid → tells mid later → tells c later) : Story where
  returns := tells
  halts _ := tells
  refl := refl
  trans := trans
  trans_halts := trans

/-- Carried out on `c`, the call does what the story says. -/
def Keeps {α : Type} (A : Story) (act : Run Fault Client α) (c : Client) : Prop :=
  Ends act c (fun _ later => A.returns c later) fun e later => A.halts e c later

/-- What was done before counts as well. -/
theorem Keeps.since {α : Type} {A : Story} {act : Run Fault Client α} {c earlier : Client}
    (h : A.Keeps act c) (hbefore : A.returns earlier c) :
    Ends act c (fun _ later => A.returns earlier later) fun e later => A.halts e earlier later :=
  Ends.mono h (fun _ _ hreturns => A.trans hbefore hreturns)
    fun _ _ hhalts => A.trans_halts hbefore hhalts

end Story

/-! ## Operations -/

namespace Operation

variable {A : Story} {c : Client}

/-- What is not allowed is refused, once a call dropped before has been cleared up after. -/
theorem keeps_of_allowed (op : Operation) (hcleared : A.returns c c.cleared)
    (hrefused : A.halts (.failed (.invalidState op.name c.cleared.state)) c.cleared c.cleared)
    (hallowed : op.allows c.cleared.state = true → A.Keeps op.carryOut c.cleared) :
    A.Keeps op.carryOut c := by
  cases hallows : op.allows c.cleared.state with
  | true =>
    have hcarried := (hallowed hallows).since hcleared
    unfold Ends at hcarried
    rwa [op.carryOut_cleared] at hcarried
  | false =>
    unfold Story.Keeps Ends
    rw [op.carryOut_of_not_allows c hallows]
    exact A.trans_halts hcleared hrefused

/-- An operation keeps to a story if its work does, the bookkeeping counted in. -/
theorem keeps_of_work (op : Operation) (hcleared : A.returns c c.cleared)
    (hrefused : A.halts (.failed (.invalidState op.name c.cleared.state)) c.cleared c.cleared)
    (hwork : Ends (op.work c.cleared) { c.cleared with inFlight := true }
      (fun _ mid => ∀ later, op.Books mid later → A.returns c.cleared later)
      (fun e mid => A.halts e c.cleared (op.halted { mid with inFlight := false } e))) :
    A.Keeps op.carryOut c := by
  refine op.keeps_of_allowed hcleared hrefused fun hallowed => ?_
  apply (ends_carryOut_of_work c.idle_cleared hallowed hwork).mono
  · rintro answer later ⟨mid, hreturns, hbooks⟩
    exact hreturns later hbooks
  · rintro e later ⟨mid, hhalts, rfl⟩
    exact hhalts

variable {op : Operation} {mid later : Client}

/-- No operation touches the settings. -/
theorem Books.settings_eq (h : op.Books mid later) : later.settings = mid.settings := by
  by_cases hop : op = .done
  · rw [h.away hop]
    rfl
  · rw [h.same hop]

theorem settings_halted (op : Operation) (c : Client) (e : Halt Fault) :
    (op.halted c e).settings = c.settings := by
  cases e with
  | abandoned => rw [op.halted_abandoned]
  | failed fault => cases op <;> first | rfl | (cases fault <;> rfl)

end Operation

/-! ## Submissions -/

/-- The operation may be part of handing the message in: no other message is given to the
connection. -/
def Operation.Serves (m : Message) : Operation → Prop
  | sendData sources => sources = m.sources
  | _ => True

/-- A new submitter has a new client. -/
theorem Submitter.client_of_new {id : Nat} {settings : SubmitSettings} {token : Token} {net : Network}
    {s : Submitter} (hnew : Submitter.new id settings token net = .ok s) :
    s.client = .new id settings.client token net := by
  unfold Submitter.new at hnew
  split at hnew
  · cases hnew
  · cases hnew
    rfl

namespace Story

/-- The story goes on through what a submitter does with its client besides its operations. -/
structure GoesOn (A : Story) : Prop where
  disconnect (c : Client) : A.returns c c.disconnect
  pause {c : Client} {net : Network} {ms : Nat} (hw : c.net.Waits net [.paused ms]) :
    A.returns c { c with net }
  cutOff {c : Client} {net : Network} {e : Halt Fault} (hw : c.net.Waits net e.trace)
    (he : e = .abandoned ∨ e = .failed .cancelled) : A.halts e c { c with net }
  /-- A failure may be passed over. -/
  forgiven {c later : Client} {e : Halt Fault} (h : A.halts e c later) : A.returns c later

/-- It follows a client through the handing in of the message. -/
structure Follows (A : Story) (m : Message) : Prop extends GoesOn A where
  operation (op : Operation) (hop : op.Serves m) (c : Client) : A.Keeps op.carryOut c

/-- It goes on through all operations, and between calls. -/
structure Lasts (A : Story) : Prop extends GoesOn A where
  operation (op : Operation) (c : Client) : A.Keeps op.carryOut c
  abandon (c : Client) : A.returns c c.abandon
  meanwhile {c later : Client} (wait : c.Meanwhile later) : A.returns c later

theorem Lasts.follows {A : Story} (h : A.Lasts) (m : Message) : A.Follows m where
  toGoesOn := h.toGoesOn
  operation op _ := h.operation op

/-- Carried out on `s`, the call does to the client what the story says, and a failure tells of
the halt that the client came to. -/
def Tells {α : Type} (A : Story) (act : Run SubmitFailure Submitter α) (s : Submitter) :
    Prop :=
  Ends act s (fun _ s' => A.returns s.client s'.client)
    fun e s' => ∃ halt, e = s'.failed halt ∧ A.halts halt s.client s'.client

section

variable {α β : Type} {A : Story} {act : Run SubmitFailure Submitter α}
  {next : α → Run SubmitFailure Submitter β} {s t : Submitter}

theorem tells_pure (a : α) (s : Submitter) : A.Tells (pure a) s := A.refl s.client

theorem tells_ite {p : Prop} [Decidable p] {act' : Run SubmitFailure Submitter α}
    (h : A.Tells act s) (h' : A.Tells act' s) : A.Tells (if p then act else act') s := by
  split
  · exact h
  · exact h'

theorem Tells.since (h : A.Tells act s) (hbefore : A.returns t.client s.client) :
    Ends act s (fun _ s' => A.returns t.client s'.client)
      fun e s' => ∃ halt, e = s'.failed halt ∧ A.halts halt t.client s'.client := by
  apply Ends.mono h
  · intro a s' hs'
    exact A.trans hbefore hs'
  · rintro e s' ⟨halt, rfl, hhalts⟩
    exact ⟨halt, rfl, A.trans_halts hbefore hhalts⟩

theorem Tells.bind (h : A.Tells act s) (g : ∀ a s', A.Tells (next a) s') :
    A.Tells (act >>= next) s :=
  ends_bind.mpr (Ends.mono h (fun a mid hmid => (g a mid).since hmid) fun _ _ hhalts => hhalts)

end

namespace Follows

variable {α : Type} {A : Story} {s : Submitter} {m : Message}

theorem tells_onClient {act : Run Fault Client α} (hact : ∀ c, A.Keeps act c) (s : Submitter) :
    A.Tells (Submitter.onClient act) s :=
  Submitter.ends_onClient.mpr
    (Ends.mono (hact s.client) (fun _ _ hr => hr) fun e _ hh => ⟨e, rfl, hh⟩)

/-- A session is opened by two operations. -/
theorem tells_openSession (h : A.Follows m) (host : String) (port : Nat) (s : Submitter) :
    A.Tells (Submitter.openSession host port) s := by
  refine (tells_onClient (fun c => ends_bind.mp (h.operation (.connect host port) trivial c)) s).bind ?_
  intro greeting s'
  refine (tells_onClient (fun c => ends_bind.mp (h.operation .login trivial c)) s').bind
    fun replies s'' => ?_
  exact Ends.mono (ends_bind.mpr (ends_get.mpr (tells_ite (tells_pure _ s'') (tells_pure _ s''))))
    (fun _ _ hs => hs) fun _ _ hs => hs

theorem tells_ensureSession (h : A.Follows m) (s : Submitter) : A.Tells Submitter.ensureSession s := by
  rw [Submitter.ensureSession_eq]
  refine ends_bind.mpr (ends_get.mpr (tells_ite (tells_pure _ s) (tells_ite ?_ ?_)))
  · exact ends_bind.mpr (ends_modify.mpr
      ((h.tells_openSession _ _ s.disconnect).since (h.disconnect s.client)))
  · exact h.tells_openSession _ _ s

theorem tells_giveMessage (h : A.Follows m) (s : Submitter) :
    A.Tells (Submitter.giveMessage m) s :=
  (tells_onClient (fun c => ends_bind.mp (h.operation (.sendData m.sources) rfl c)) s).bind fun _ s' =>
    tells_ite (tells_pure _ s') (tells_pure _ s')

theorem tells_giveRecipient (h : A.Follows m) (dsn : Option Dsn) (s : Submitter) :
    A.Tells (Submitter.giveRecipient m dsn) s :=
  (tells_onClient (fun c => ends_bind.mp (h.operation (.recipient m.recipient dsn) trivial c)) s).bind
    fun _ s' => tells_ite (tells_pure _ s') (h.tells_giveMessage s')

theorem tells_giveSender (h : A.Follows m) (dsn : Option Dsn) (s : Submitter) :
    A.Tells (Submitter.giveSender m dsn) s :=
  (tells_onClient (fun c => ends_bind.mp (h.operation (.sender m.sender dsn) trivial c)) s).bind
    fun _ s' => tells_ite (tells_pure _ s') (h.tells_giveRecipient dsn s')

theorem tells_attempt (h : A.Follows m) (s : Submitter) :
    A.Tells (Submitter.attempt m) s := by
  refine Submitter.ends_attempt_iff.mpr (Ends.mono (h.tells_ensureSession s) ?_ fun _ _ hs' => hs')
  intro refusal mid hmid
  cases refusal with
  | some reply => exact hmid
  | none => exact (h.tells_giveSender mid.settings.dsn mid).since hmid

theorem tells_pause (h : A.Follows m) (s : Submitter) : A.Tells Submitter.pause s := by
  apply (Submitter.ends_pause s).mono
  · rintro _ s' ⟨net, rfl, hw⟩
    exact h.pause hw
  · rintro e s' ⟨net, halt, rfl, rfl, hhalt, hw⟩
    exact ⟨halt, rfl, h.cutOff hw hhalt⟩

theorem tells_attempts (h : A.Follows m) (left : Nat) (s : Submitter) :
    A.Tells (Submitter.attempts m left) s := by
  refine Submitter.ends_attempts (fun s' => A.returns s.client s'.client) m left ?_ ?_ (A.refl s.client)
  · intro s' hs'
    exact (h.tells_attempt s').since hs'
  · intro s' mid stage reply hs' hr _
    have htried : Ends (Submitter.attempt m) s' _ _ := h.tells_attempt s'
    have hmid : A.returns s'.client mid.client := htried.of_ok hr
    exact (h.tells_pause { mid with client := mid.client.disconnect }).since
      (A.trans (A.trans hs' hmid) (h.disconnect mid.client))

/-- What is done afterwards forgives every failure. -/
theorem ends_finish (h : A.Follows m) (s : Submitter) :
    Ends Submitter.finish s (fun _ s' => A.returns s.client s'.client)
      (fun e s' => e = .abandoned ∧ A.returns s.client s'.client) := by
  refine Submitter.ends_finish_iff.mpr ?_
  split
  · apply Ends.mono (ends_bind.mp (h.operation .reset trivial s.client))
    · intro reply c hc
      exact hc
    · intro e c hc
      cases e with
      | failed fault => exact A.trans (h.forgiven hc) (h.disconnect c)
      | abandoned => exact ⟨rfl, h.forgiven hc⟩
  · exact h.disconnect s.client

/-- What a submission does to the client.  If it fails, then with the halt that its attempts came
to; all that is done afterwards is that the connection is let go of. -/
theorem ends_submit (h : A.Follows m) (hready : s.Ready) :
    Ends (Submitter.submit m) s (fun _ s' => A.returns s.client s'.client)
      (fun e s' => A.returns s.client s'.client ∧ ∀ failure, e = .failed failure →
        ∃ fault mid, failure = s'.failure fault ∧ A.halts (.failed fault) s.client mid ∧
          (s'.client = mid ∨ s'.client = mid.disconnect)) := by
  let begun : Submitter := { s with submissions := s.submissions + 1 }
  have hstart : Submitter.Searching s.client.net.journal begun := ⟨hready, [], rfl, bodiless_nil⟩
  refine Submitter.ends_submit (Ends.mono ((hstart.attempts m _).and
    (h.tells_attempts (Submitter.retries s.settings) begun)) (fun _ _ hok => hok.2) ?_) ?_ ?_
  · rintro e mid ⟨⟨-, hover⟩, halt, rfl, hhalts⟩
    refine ⟨⟨h.forgiven hhalts, ?_⟩, hover⟩
    intro failure hfailed
    cases halt with
    | failed fault =>
      cases hfailed
      exact ⟨fault, mid.client, rfl, hhalts, .inl rfl⟩
    | abandoned => cases hfailed
  · intro reply mid hmid
    apply (h.ends_finish mid).mono
    · intro _ s' hs'
      exact A.trans hmid hs'
    · rintro e s' ⟨rfl, hs'⟩
      exact ⟨A.trans hmid hs', nofun⟩
  · rintro failure mid - ⟨hreturns, hfailed⟩
    refine ⟨A.trans hreturns (h.disconnect mid.client), ?_⟩
    intro failure' hsame
    obtain ⟨fault, before, rfl, hhalts, hleft⟩ := hfailed failure' hsame
    refine ⟨fault, before, rfl, hhalts, .inr ?_⟩
    rcases hleft with hleft | hleft
    · exact congrArg Client.disconnect hleft
    · exact (congrArg Client.disconnect hleft).trans before.disconnect_disconnect

end Follows

/-! ## Runs -/

namespace Lasts

variable {A : Story} {s : Submitter}

theorem returns_cleared (h : A.Lasts) (c : Client) : A.returns c c.cleared := by
  unfold Client.cleared
  split
  · exact h.abandon c
  · exact A.refl c

/-- A call on a client does what the story says, if it says so of the settings that are given. -/
theorem returns_call_after (h : A.Lasts) {call : MailSubmission.Call} {c : Client}
    (hgiven : ∀ settings token, call = .configure settings token → ∀ c : Client,
      A.returns c { c with name := Client.nameFor settings.name c.id, settings, token }) :
    A.returns c (call.after c) := by
  refine MailSubmission.Call.after_of_ends (p := fun c' => A.returns c c') ?_
  have hcleared := h.returns_cleared c
  cases call with
  | operation op =>
    refine ends_bind.mpr (Ends.mono (h.operation op c.cleared) ?_ ?_)
    · intro answer c' hc'
      exact A.trans hcleared hc'
    · intro e c' hc'
      exact A.trans hcleared (h.forgiven hc')
  | configure settings token =>
    refine ends_bind.mpr (Client.ends_enter_iff.mpr ?_)
    rw [Client.cleared_cleared]
    split
    · exact A.trans hcleared (hgiven settings token rfl c.cleared)
    · exact hcleared
  | disconnect => exact A.trans hcleared (h.disconnect c.cleared)

/-- So does a run of calls. -/
theorem returns_client_runs (h : A.Lasts) {calls : List MailSubmission.Call} {c later : Client}
    (hr : Client.Runs c calls later)
    (hgiven : ∀ settings token, .configure settings token ∈ calls → ∀ c : Client,
      A.returns c { c with name := Client.nameFor settings.name c.id, settings, token }) :
    A.returns c later := by
  induction hr with
  | nil c => exact A.refl c
  | meanwhile wait _ ih => exact A.trans (h.meanwhile wait) (ih hgiven)
  | call _ ih =>
    refine A.trans (h.returns_call_after fun settings token hcall => ?_)
      (ih fun settings token hmem => ?_)
    · exact hgiven settings token (hcall ▸ List.mem_cons_self)
    · exact hgiven settings token (List.mem_cons_of_mem _ hmem)

/-- A goodbye is an operation, if it is said at all. -/
theorem ends_quit (h : A.Lasts) (s : Submitter) :
    Ends Submitter.quit s (fun _ s' => A.returns s.client s'.client)
      (fun _ s' => A.returns s.client s'.client) := by
  simp only [Submitter.quit, ends_bind, ends_get]
  refine ends_ite.mpr ?_
  split
  · refine ends_bind.mpr (Submitter.ends_tryClient.mpr
      (Ends.mono (ends_bind.mp (h.operation .done s.client)) ?_ ?_))
    · intro reply c hc
      exact A.trans hc (h.disconnect c)
    · intro e c hc
      cases e with
      | failed fault => exact A.trans (h.forgiven hc) (h.disconnect c)
      | abandoned => exact h.forgiven hc
  · exact h.disconnect s.client

/-- A call on a submitter does to its client what the story says. -/
theorem returns_after (h : A.Lasts) (call : Submitter.Call) (hready : s.Ready) :
    A.returns s.client (call.after s).client := by
  have hsubmit : ∀ m, A.returns s.client ((Submitter.Call.submit m).after s).client := fun m =>
    Submitter.Call.after_of_ends (p := fun s' => A.returns s.client s'.client)
      (ends_bind.mpr (Ends.mono ((h.follows m).ends_submit hready) (fun _ _ hs' => hs')
        fun _ _ hs' => hs'.1))
  cases call with
  | submit m => exact hsubmit m
  | measuredSubmit m =>
    rw [Submitter.Call.after_measuredSubmit]
    exact hsubmit m
  | disconnect => exact h.disconnect s.client
  | quit =>
    exact Submitter.Call.after_of_ends (p := fun s' => A.returns s.client s'.client) (h.ends_quit s)

/-- So does a run of calls. -/
theorem returns_runs (h : A.Lasts) {id : Nat} {settings : SubmitSettings} {token : Token}
    {net : Network} {calls : List Submitter.Call} {later : Submitter}
    (hnew : Submitter.new id settings token net = .ok s) (hr : Submitter.Runs s calls later) :
    A.returns s.client later.client := by
  have hkept := Submitter.kept_new hnew
  clear hnew
  generalize hpast : ([] : List Message) = past at hkept
  clear hpast
  induction hr generalizing past with
  | nil s => exact A.refl s.client
  | meanwhile wait _ ih => exact A.trans (h.meanwhile wait) (ih _ (hkept.meanwhile wait))
  | @call s later call calls _ ih =>
    exact A.trans (h.returns_after call hkept.ready) (ih _ (Submitter.Call.kept call hkept))

end Lasts

end Story

end MailSubmission
