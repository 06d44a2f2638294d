import MailSubmission.Proofs.Bookkeeping
import MailSubmission.Proofs.CommandOrder
import MailSubmission.Proofs.EnvelopeLines

set_option autoImplicit false

/-!
# Notifications are asked for where they were offered

A server offers notifications in its answer to the login, and from then on the lines that name
sender and recipient may ask for them.  The client remembers the offer, but it lives longer than
its connections: it may log in more than once, break, connect again and be configured anew.

The invariant (`Client.Informed`) says what the client remembers by what has passed on the
connection that it holds: of the login that was accepted there it knows whether extensions were
asked for and whether notifications were offered, whatever it knew before
(`Client.dsn_params_sent_iff_offered`).
-/

namespace MailSubmission

/-! ## Offers -/

/-- The line offers notifications: its first word is that keyword, in letters of any case. -/
def ReplyLine.OffersDsn (line : ReplyLine) : Prop :=
  ∃ keyword, (Text.words line.text).head? = some keyword ∧ Text.upper keyword = "DSN"

/-- The command asks for extensions, and a line of its answer, not the first one, offers
notifications. -/
def Exchange.OffersDsn (x : Exchange) : Prop :=
  (∃ host, x.command = .ehlo host) ∧ ∃ line ∈ x.lines.drop 1, line.OffersDsn

theorem Extension.parse_eq_dsn_iff (line : ReplyLine) : parse line.text = .dsn ↔ line.OffersDsn := by
  unfold parse ReplyLine.OffersDsn
  cases hwords : Text.words line.text with
  | nil => simp
  | cons keyword rest =>
    simp only [List.head?_cons, Option.some.injEq, exists_eq_left']
    constructor
    · intro hparse
      split at hparse <;> first | assumption | cases hparse
    · intro hkeyword
      rw [hkeyword]
      rfl

namespace ServerProfile

theorem supports_insert (p : ServerProfile) (e e' : Extension) :
    (p.insert e).supports e' = true ↔ p.supports e' = true ∨ e = e' := by
  unfold insert supports
  split
  · rename_i hknown
    constructor
    · exact .inl
    · rintro (h | rfl)
      · exact h
      · exact hknown
  · simp only [List.contains_eq_mem, decide_eq_true_eq, List.mem_append, List.mem_singleton]
    exact or_congr_right eq_comm

theorem supports_foldl (lines : List ReplyLine) (p : ServerProfile) (e : Extension) :
    (lines.foldl (fun p l => p.insert (Extension.parse l.text)) p).supports e = true ↔
      p.supports e = true ∨ ∃ line ∈ lines, Extension.parse line.text = e := by
  induction lines generalizing p with
  | nil => simp
  | cons line rest ih => rw [List.foldl_cons, ih, supports_insert, List.exists_mem_cons_iff, or_assoc]

/-- What was known before does not count. -/
theorem supports_learn (p : ServerProfile) (lines : List ReplyLine) (e : Extension) :
    (p.learn lines).supports e = true ↔ ∃ line ∈ lines.drop 1, Extension.parse line.text = e := by
  have hnothing : ({ p with extensions := [] } : ServerProfile).supports e = false := rfl
  rw [learn, supports_foldl, hnothing]
  simp

theorem supports_dsn_learn (p : ServerProfile) (lines : List ReplyLine) :
    (p.learn lines).supports .dsn = true ↔ ∃ line ∈ lines.drop 1, line.OffersDsn := by
  simp only [supports_learn, Extension.parse_eq_dsn_iff]

end ServerProfile

/-! ## Parameters on a line -/

/-- Something stands between the first `>` and the end of the line. -/
def EnvelopeLine.HasParams (octets : List UInt8) : Prop :=
  ∃ front part, cut? 62 octets = some (front, part ++ [13, 10]) ∧ part ≠ []

/-- The two that an envelope names. -/
inductive Party where
  | sender
  | recipient
  deriving DecidableEq, Repr

instance : Inhabited Party := ⟨.sender⟩

namespace Party

/-- The operation that names the party. -/
def operation : Party → Address → Option Dsn → Operation
  | sender => .sender
  | recipient => .recipient

/-- The command that names the party. -/
def command : Party → Address → Option String → Command
  | sender => .mailFrom
  | recipient => .rcptTo

/-- What that command says of a request for notifications. -/
def render : Party → Dsn → String
  | sender => Dsn.senderParams
  | recipient => Dsn.recipientParams

open Text EnvelopeLine

/-- The line carries parameters if there are any and they are not empty. -/
theorem hasParams_wire (p : Party) (address : Address) (params : Option String) :
    HasParams (p.command address params).wire ↔ ∃ text, params = some text ∧ text ≠ "" := by
  obtain ⟨verb, hverb, hwire⟩ : ∃ verb : List UInt8, 62 ∉ verb ∧ (p.command address params).wire =
      verb ++ (60 :: (Utf8.encode address.text ++ [62])) ++
        (Utf8.encode (Command.paramText params) ++ [13, 10]) := by
    have hend : Utf8.encode "\r\n" = [13, 10] := rfl
    cases p with
    | sender =>
      refine ⟨Utf8.encode "MAIL FROM:", by decide, ?_⟩
      simp [command, Command.wire, Command.text, Utf8.encode_append, address.encode_render, hend]
    | recipient =>
      refine ⟨Utf8.encode "RCPT TO:", by decide, ?_⟩
      simp [command, Command.wire, Command.text, Utf8.encode_append, address.encode_render, hend]
  have hcut : cut? 62 (p.command address params).wire =
      some (verb ++ 60 :: Utf8.encode address.text,
        Utf8.encode (Command.paramText params) ++ [13, 10]) := by
    have hfront : (62 : UInt8) ∉ verb ++ 60 :: Utf8.encode address.text := by
      intro hmem
      rcases List.mem_append.mp hmem with hmem | hmem
      · exact hverb hmem
      · rcases List.mem_cons.mp hmem with h | hmem
        · cases h
        · exact (of_mem_address hmem).2.2 rfl
    rw [hwire, ← cut?_append hfront]
    simp
  have hparts : HasParams (p.command address params).wire ↔
      Utf8.encode (Command.paramText params) ≠ [] := by
    unfold HasParams
    rw [hcut]
    constructor
    · rintro ⟨front, part, heq, hne⟩
      obtain ⟨-, hpart⟩ := Prod.mk.inj (Option.some.inj heq)
      rwa [List.append_cancel_right hpart]
    · exact fun hne => ⟨_, _, rfl, hne⟩
  rw [hparts]
  cases params with
  | none => simp [Command.paramText, Utf8.encode]
  | some text =>
    by_cases hempty : text = ""
    · simp [Command.paramText, Utf8.encode, hempty]
    · have hspace : Utf8.encode " " = [32] := rfl
      simp [Command.paramText, Utf8.encode_append, hempty, hspace]

end Party

/-! ## What a client knows of its server -/

/-- Apart from the goodbye, what does not learn of the server belongs behind the login. -/
theorem Operation.isLive_of_unlearned (op : Operation) {state : SessionState}
    (hallowed : op.allows state = true) (hlearns : op.learns = false) (hop : op ≠ .done) :
    state.isLive = true ∧ state ≠ .connected := by
  cases op with
  | sender => exact beq_iff_eq.mp hallowed ▸ ⟨rfl, nofun⟩
  | recipient => exact beq_iff_eq.mp hallowed ▸ ⟨rfl, nofun⟩
  | sendData => exact beq_iff_eq.mp hallowed ▸ ⟨rfl, nofun⟩
  | reset =>
    cases state with
    | loginComplete => exact ⟨rfl, nofun⟩
    | mailFromDone => exact ⟨rfl, nofun⟩
    | rcptToDone => exact ⟨rfl, nofun⟩
    | _ => cases hallowed
  | done => exact absurd rfl hop
  | _ => cases hlearns

namespace Client

open Run

variable {n : Nat} {c later : Client} {before es fs : List Entry} {xs : List Exchange}
  {x : Exchange} {lines : List ReplyLine} {rs : List Remark} {call : Call} {calls : List Call}

/-- What the client knows is what the login `x` has told: whether extensions were asked for, and
whether notifications were offered then. -/
structure Told (c : Client) (x : Exchange) : Prop where
  asked : (∃ host, x.command = .ehlo host) ↔ c.settings.extensions = true
  offered : c.settings.extensions = true →
    (c.server.supports .dsn = true ↔ ∃ line ∈ x.lines.drop 1, line.OffersDsn)

/-- Notifications are in use if extensions are and the login offered them. -/
theorem Told.dsnEnabled_iff (h : c.Told x) :
    c.dsnEnabled = true ↔ c.settings.extensions = true ∧ x.OffersDsn := by
  unfold dsnEnabled Exchange.OffersDsn
  rw [Bool.and_eq_true]
  constructor
  · rintro ⟨hextensions, hsupports⟩
    exact ⟨hextensions, h.asked.mpr hextensions, (h.offered hextensions).mp hsupports⟩
  · rintro ⟨hextensions, -, hoffers⟩
    exact ⟨hextensions, (h.offered hextensions).mpr hoffers⟩

theorem Told.congr (h : c.Told x) (hsettings : later.settings = c.settings)
    (hserver : later.server = c.server) : later.Told x := by
  refine ⟨?_, ?_⟩
  · rw [hsettings]
    exact h.asked
  · rw [hsettings, hserver]
    exact h.offered

/-- The invariant, if `before` had happened when the client was new: in a session that goes on,
the client knows what the login that was accepted on its connection has told. -/
def Informed (before : List Entry) (c : Client) : Prop :=
  ∀ es : List Entry, c.net.journal = es.reverse ++ before → c.Over ∨
    ∀ n, c.held = some n → ∀ x ∈ exchanges (dialogue n es), x.isLogin = true → c.Told x

theorem informed_of_over (h : c.Over) : Informed before c := fun _ _ => .inl h

theorem ehlo_eq_hello_iff (c : Client) :
    (∃ host, c.hello = .ehlo host) ↔ c.settings.extensions = true := by
  unfold hello
  cases c.settings.extensions <;> simp

/-- A login sets what is known of the server by the lines of its answer. -/
theorem ends_login_told (hholds : c.Holds n) (hstate : c.state = .connected) :
    Ends login c
      (fun _ later => ∃ lines, c.Speaks n later (c.hello.answered lines) ∧ later.held = some n ∧
        later.Told ⟨c.hello, lines⟩)
      (fun _ later => later.Over) := by
  have hallowed : (c.state == .connected) = true := beq_iff_eq.mpr hstate
  refine ends_bind.mpr ((ends_enter hholds.idle hallowed).mpr (ends_bind.mpr (ends_get.mpr ?_)))
  refine ends_bind.mpr ((((converses_exchange c.hello
    (c := { c with inFlight := true }) hholds.held).settled hholds.idle).and
    ((connects_exchange c.hello).ends_settled hholds.idle)).mono ?_ ?_)
  · rintro lines mid ⟨⟨rs, hspeaks, hmid, -, rfl⟩, ⟨es, hes⟩, -⟩
    have hsettings : mid.settings = c.settings := by rw [hes.same]
    have hasked := c.ehlo_eq_hello_iff
    simp only [keep, moveTo, ends_modify, ends_pure, ends_ite, ends_bind]
    split
    · have hoffered := mid.server.supports_dsn_learn lines
      split
      · exact ⟨lines, hspeaks.congr rfl rfl, hmid.held, hsettings ▸ hasked, fun _ => hoffered⟩
      · exact ⟨lines, hspeaks.congr rfl rfl, hmid.held, hsettings ▸ hasked, fun _ => hoffered⟩
    · rename_i hextensions
      have hnot : mid.settings.extensions ≠ true := hsettings ▸ hextensions
      split
      · exact ⟨lines, hspeaks.congr rfl rfl, hmid.held, hsettings ▸ hasked, fun h => absurd h hnot⟩
      · exact ⟨lines, hspeaks.congr rfl rfl, hmid.held, hsettings ▸ hasked, fun h => absurd h hnot⟩
  · rintro e later ⟨⟨rs, -, hbroken, -⟩, -⟩
    exact hbroken.over

/-! ### What each operation does to that -/

/-- What has happened is told by the journal. -/
theorem informed_of_speaks (hjournal : c.net.journal = es.reverse ++ before)
    (hspeaks : c.Speaks n later rs) (hheld : later.held = some n)
    (htold : ∀ x ∈ exchanges (dialogue n es ++ rs), x.isLogin = true → later.Told x) :
    Informed before later := by
  obtain ⟨fs, hm, hspoken⟩ := hspeaks
  intro es' hes'
  obtain rfl : es ++ fs = es' :=
    List.reverse_inj.mp (List.append_cancel_right ((hm.journal_append hjournal).symm.trans hes'))
  refine .inr fun n' hn' => ?_
  obtain rfl : n = n' := Option.some.inj (hheld.symm.trans hn')
  rwa [dialogue_append, hspoken.said]

/-- Only a session that has not been logged in takes a login. -/
theorem eq_connected_of_isLogin {state : SessionState} (hlogin : x.isLogin = true)
    (hfits : x.command.fits state = true) : state = .connected := by
  have hhello : x.command.isHello = true := (Bool.and_eq_true_iff.mp hlogin).1
  obtain ⟨command, lines⟩ := x
  cases command <;> first | exact beq_iff_eq.mp hfits | cases hhello

theorem loggedIn_eq_false_iff : loggedIn xs = false ↔ ∀ x ∈ xs, x.isLogin = false := by
  simp [loggedIn]

theorem Informed.connect (h : InStep before c) (host : String) (port : Nat)
    (hidle : c.inFlight = false) (hfresh : c.state = .fresh) :
    Ends (connect host port) c (fun _ later => Informed before later)
      (fun _ later => Informed before later) := by
  obtain ⟨es, hjournal, hrecorded, -⟩ := h
  apply (ends_connect host port hidle hfresh).mono
  · rintro greeting later ⟨lines, -, hspeaks, hholds, -⟩
    refine informed_of_speaks hjournal hspeaks hholds.held ?_
    -- Nothing has been said on a connection that is new.
    rw [hrecorded.untouched _ (Nat.le_refl _)]
    exact fun x hx => absurd hx List.not_mem_nil
  · rintro e later ⟨rs, lines, -, hbroken, -⟩
    exact informed_of_over hbroken.over

theorem Informed.login (h : InStep before c) (hidle : c.inFlight = false)
    (hstate : c.state = .connected) :
    Ends login c (fun _ later => Informed before later) (fun _ later => Informed before later) := by
  obtain ⟨es, hjournal, hrecorded, hcourse⟩ := h
  have hgoes : ¬ c.Over := by simp [Over, hidle, hstate, SessionState.isLive]
  obtain ⟨n, xs, hholds, hcourse, hreached⟩ := hcourse.resolve_left hgoes
  refine (ends_login_told hholds hstate).mono ?_ fun _ _ hover => informed_of_over hover
  rintro replies later ⟨lines, hspeaks, hheld, htold⟩
  have hturn : Turn ⟨c.hello, lines⟩ (c.hello.answered lines) := .answered ⟨c.hello, lines⟩
  refine informed_of_speaks hjournal hspeaks hheld ?_
  rw [hturn.exchanges_append, hcourse.exchanges_eq]
  intro x hx hlogin
  have hnone : loggedIn xs = false := by
    have hagrees := agrees_reached hcourse.permitted
    rwa [hreached, hstate] at hagrees
  rcases List.mem_append.mp hx with hx | hx
  · exact absurd ((loggedIn_eq_false_iff.mp hnone x hx).symm.trans hlogin) (by decide)
  · exact List.mem_singleton.mp hx ▸ htold

/-- Any other operation leaves what is known as it is, and no login is said in it. -/
theorem Informed.unlearned {op : Operation} (h : InStep before c) (k : Informed before c)
    (hidle : c.inFlight = false) (hallowed : op.allows c.state = true) (hlearns : op.learns = false)
    (hop : op ≠ .done) :
    Ends op.carryOut c (fun _ later => Informed before later) (fun _ _ => True) := by
  obtain ⟨es, hjournal, hrecorded, hcourse⟩ := h
  have hstate := op.isLive_of_unlearned hallowed hlearns hop
  have hgoes : ¬ c.Over := by simp [Over, hidle, hstate.1]
  obtain ⟨n, xs, hholds, hcourse, hreached⟩ := hcourse.resolve_left hgoes
  refine ((ends_carryOut_turn op hholds hstate.1 hallowed).and
    (Operation.ends_carryOut_remembers hidle hallowed hop)).mono ?_ fun _ _ _ => trivial
  rintro answer later ⟨⟨x, talk, rs, hfits, hturn, -, hspeaks, hleft⟩, hsettings, -, hserver⟩
  rcases hleft with hover | ⟨rfl, hholds', -⟩
  · exact informed_of_over hover
  refine informed_of_speaks hjournal hspeaks hholds'.held ?_
  rw [hturn.exchanges_append]
  intro y hy hlogin
  rcases List.mem_append.mp hy with hy | hy
  · exact ((k es hjournal).resolve_left hgoes n hholds.held y hy hlogin).congr hsettings
      (hserver hlearns)
  · obtain rfl := List.mem_singleton.mp hy
    exact absurd (eq_connected_of_isLogin hlogin hfits) hstate.2

/-- What comes to a halt ends the session. -/
theorem over_halted (op : Operation) (c : Client) (e : Halt Fault) : (op.halted c e).Over := by
  cases e with
  | failed fault =>
    obtain ⟨-, -, hstate⟩ := op.halted_failed c fault
    refine .inr ?_
    rw [hstate]
    split <;> rfl
  | abandoned =>
    rw [op.halted_abandoned]
    exact .inl rfl

theorem Informed.operation (h : InStep before c) (k : Informed before c) (op : Operation)
    (hidle : c.inFlight = false) :
    Ends op.carryOut c (fun _ later => Informed before later)
      (fun _ later => Informed before later) := by
  cases hallowed : op.allows c.state with
  | false =>
    have hrefused := op.carryOut_of_not_allows c
    rw [cleared_of_idle hidle] at hrefused
    unfold Ends
    rw [hrefused hallowed]
    exact k
  | true =>
    have hhalts : Ends op.carryOut c (fun _ _ => True) (fun _ later => Informed before later) := by
      refine (Operation.ends_carryOut hidle hallowed).mono (fun _ _ _ => trivial) ?_
      rintro e later ⟨-, mid, fs, -, rfl⟩
      exact informed_of_over (over_halted op mid e)
    have hreturns : Ends op.carryOut c (fun _ later => Informed before later) (fun _ _ => True) := by
      cases op with
      | connect host port =>
        exact ends_bind.mpr ((Informed.connect h host port hidle (beq_iff_eq.mp hallowed)).mono
          (fun _ _ hlater => hlater) fun _ _ _ => trivial)
      | login =>
        exact ends_bind.mpr ((Informed.login h hidle (beq_iff_eq.mp hallowed)).mono
          (fun _ _ hlater => hlater) fun _ _ _ => trivial)
      | done =>
        refine (Operation.ends_carryOut_work hidle hallowed).mono ?_ fun _ _ _ => trivial
        rintro answer later ⟨mid, -, hbooks⟩
        rw [hbooks.away rfl]
        exact informed_of_over (.inr rfl)
      | _ => exact k.unlearned h hidle hallowed rfl nofun
    exact (hreturns.and hhalts).mono (fun _ _ hlater => hlater.1) fun _ _ hlater => hlater.2

theorem Informed.cleared (k : Informed before c) : Informed before c.cleared := by
  unfold Client.cleared
  split
  · exact informed_of_over (.inr rfl)
  · exact k

theorem Informed.meanwhile (k : Informed before c) (hw : c.Meanwhile later) : Informed before later := by
  intro es hjournal
  have hsame := hw.same
  have hover : later.Over ↔ c.Over := by
    unfold Over
    rw [hsame]
  rw [hover, hw.held]
  refine (k es (hw.journal ▸ hjournal)).imp_right fun htold n hn x hx hlogin => ?_
  refine (htold n hn x hx hlogin).congr ?_ ?_
  · rw [hsame]
  · rw [hsame]

theorem Informed.after (h : InStep before c) (k : Informed before c) (call : Call) :
    Informed before (call.after c) := by
  refine Call.after_of_ends ?_
  cases call with
  | operation op => exact ends_bind.mpr (k.cleared.operation h.cleared op c.idle_cleared)
  | disconnect => exact informed_of_over (.inr rfl)
  | configure settings token =>
    refine ends_bind.mpr (ends_enter_iff.mpr ?_)
    rw [cleared_cleared]
    split
    · rename_i hallowed
      exact informed_of_over (.inr ((Bool.not_eq_true' _).mp hallowed))
    · exact k.cleared

theorem Informed.runs (h : InStep before c) (k : Informed before c) (hr : Runs c calls later) :
    Informed before later := by
  induction hr with
  | nil => exact k
  | meanwhile wait _ ih => exact ih (h.meanwhile wait) (k.meanwhile wait)
  | call _ ih => exact ih (h.after _) (k.after h _)

/-! ## Naming sender and recipient -/

/-- At most one login is accepted on a connection. -/
theorem exists_filter_isLogin (h : Permitted .connected xs) (hlogin : loggedIn xs = true) :
    ∃ hello, xs.filter Exchange.isLogin = [hello] := by
  induction xs using List.reverseRecOn with
  | nil => cases hlogin
  | append_singleton xs x ih =>
    obtain ⟨hbefore, hfits, -⟩ := permitted_append.mp h
    rw [List.filter_append]
    cases hx : x.isLogin with
    | false =>
      rw [loggedIn_append, hx, Bool.or_false] at hlogin
      obtain ⟨hello, hhello⟩ := ih hbefore hlogin
      exact ⟨hello, by simp [hhello, hx]⟩
    | true =>
      have hnone : loggedIn xs = false := by
        have hagrees := agrees_reached hbefore
        have hconnected : reached xs = .connected := eq_connected_of_isLogin hx hfits
        rwa [hconnected] at hagrees
      refine ⟨x, ?_⟩
      rw [List.filter_eq_nil_iff.mpr fun y hy => Bool.eq_false_iff.mp (loggedIn_eq_false_iff.mp hnone y hy)]
      simp [hx]

/-- The party is named with the parameters that are due. -/
theorem ends_party (p : Party) (address : Address) (dsn : Option Dsn) (hholds : c.Holds n)
    (hallowed : (p.operation address dsn).allows c.state = true) :
    Ends (p.operation address dsn).carryOut c
      (fun _ later => ∃ lines,
        c.Speaks n later ((p.command address (c.params dsn p.render)).answered lines))
      (fun _ later => ∃ rs, c.Speaks n later rs ∧
        rs <+: (p.command address (c.params dsn p.render)).asked) := by
  cases p with
  | sender =>
    refine ends_bind.mpr (ends_bind.mpr ((ends_enter hholds.idle hallowed).mpr ?_))
    refine ends_bind.mpr (ends_get.mpr ((ends_command _ .mailFromDone hholds).mono ?_ ?_))
    · rintro reply later ⟨lines, -, hspeaks, -⟩
      exact ⟨lines, hspeaks⟩
    · rintro e later ⟨rs, hspeaks, -, hcut⟩
      exact ⟨rs, hspeaks, hcut⟩
  | recipient =>
    refine ends_bind.mpr (ends_bind.mpr ((ends_enter hholds.idle hallowed).mpr ?_))
    refine ends_bind.mpr (ends_get.mpr ((ends_command _ .rcptToDone hholds).mono ?_ ?_))
    · rintro reply later ⟨lines, -, hspeaks, -⟩
      exact ⟨lines, hspeaks⟩
    · rintro e later ⟨rs, hspeaks, -, hcut⟩
      exact ⟨rs, hspeaks, hcut⟩

/-- However the call ends, what passes is a beginning of the command and its answer. -/
theorem speaks_party (p : Party) (address : Address) (dsn : Option Dsn) (hholds : c.Holds n)
    (hallowed : (p.operation address dsn).allows c.state = true) :
    ∃ rs lines, c.Speaks n (Call.after (.operation (p.operation address dsn)) c) rs ∧
      rs <+: (p.command address (c.params dsn p.render)).answered lines ∧
      ∀ answer later, (p.operation address dsn).carryOut c = .ok answer later →
        rs = (p.command address (c.params dsn p.render)).answered lines := by
  have hends := ends_party p address dsn hholds hallowed
  cases hr : (p.operation address dsn).carryOut c with
  | ok answer later =>
    obtain ⟨lines, hspeaks⟩ := hends.of_ok hr
    have hafter : Call.after (.operation (p.operation address dsn)) c = later :=
      Call.after_of_ok (bind_of_ok hr)
    exact ⟨_, lines, hafter ▸ hspeaks, List.prefix_refl _, fun _ _ _ => rfl⟩
  | error e later =>
    obtain ⟨rs, hspeaks, hcut⟩ := hends.of_error hr
    have hafter : Call.after (.operation (p.operation address dsn)) c = later :=
      Call.after_of_error (bind_of_error hr)
    exact ⟨rs, [], hafter ▸ hspeaks, hcut.trans (List.prefix_append _ _), fun _ _ h => by cases h⟩

/-- There is something to send if notifications are in use and the request says something. -/
theorem hasParams_params (p : Party) (address : Address) (dsn : Option Dsn) (c : Client) :
    EnvelopeLine.HasParams (p.command address (c.params dsn p.render)).wire ↔
      c.dsnEnabled = true ∧ ∃ d, dsn = some d ∧ p.render d ≠ "" := by
  rw [p.hasParams_wire, params]
  cases c.dsnEnabled <;> cases dsn <;> simp

/-- What passes when a party is named, on the connection `n`: a beginning of its command and the
answer, all of it if the call returns.  A login was accepted there before, and the line carries
parameters exactly if extensions are in use, the request says something, and that login offered
notifications. -/
structure NamesParty (p : Party) (address : Address) (dsn : Option Dsn) (c : Client)
    (es fs : List Entry) (n : Nat) (command : Command) (hello : Exchange) : Prop where
  named : ∃ params, command = p.command address params
  begun : ∃ lines, dialogue n fs <+: command.answered lines
  whole : ∀ answer later, (p.operation address dsn).carryOut c = .ok answer later →
    ∃ lines, dialogue n fs = command.answered lines
  login : (exchanges (dialogue n es)).filter Exchange.isLogin = [hello]
  params : EnvelopeLine.HasParams command.wire ↔
    c.settings.extensions = true ∧ (∃ d, dsn = some d ∧ p.render d ≠ "") ∧ hello.OffersDsn

/-- Whatever calls a client gets, and whatever becomes of them: if it then names a sender or a
recipient and anything of that passes on a connection, the line carries parameters exactly if
extensions are enabled, a request was given that says something there, and the one login that was
accepted on this connection asked for extensions and was told that notifications are offered. -/
theorem dsn_params_sent_iff_offered {id : Nat} {settings : ClientSettings} {token : Token}
    {net : Network} (hruns : Runs (Client.new id settings token net) calls c) (p : Party)
    (address : Address) (dsn : Option Dsn) :
    ∃ es fs : List Entry, c.net.journal = es.reverse ++ net.journal ∧
      (Call.after (.operation (p.operation address dsn)) c).net.journal = fs.reverse ++ c.net.journal ∧
      ∀ n, dialogue n fs ≠ [] → ∃ command hello, NamesParty p address dsn c es fs n command hello := by
  have hinStep := (inStep_new id settings token net).runs hruns
  have hinformed : Informed net.journal c :=
    (informed_of_over (.inr rfl)).runs (inStep_new id settings token net) hruns
  obtain ⟨es, hjournal, -, hcourse⟩ := hinStep
  refine ⟨es, ?_⟩
  cases hallowed : (p.operation address dsn).allows c.cleared.state with
  | false =>
    -- What is not allowed says nothing.
    obtain ⟨fs, hfs, hreleased⟩ := c.moves_cleared
    have hafter : Call.after (.operation (p.operation address dsn)) c = c.cleared :=
      Call.after_of_error (bind_of_error ((p.operation address dsn).carryOut_of_not_allows c hallowed))
    refine ⟨fs, hjournal, hafter ▸ hfs.journal, fun n hn => absurd ?_ hn⟩
    refine dialogue_eq_nil fun e he hu => ?_
    obtain ⟨m, rfl⟩ := hreleased e he
    exact hu
  | true =>
    have hidle : c.inFlight = false := by
      rw [Bool.eq_false_iff]
      intro hmark
      rw [cleared, if_pos hmark] at hallowed
      cases p <;> cases hallowed
    rw [cleared_of_idle hidle] at hallowed
    obtain ⟨hlive, hconnected⟩ := (p.operation address dsn).isLive_of_unlearned hallowed
      (by cases p <;> rfl) (by cases p <;> exact nofun)
    have hgoes : ¬ c.Over := by simp [Over, hidle, hlive]
    obtain ⟨n, xs, hholds, hcourse, hreached⟩ := hcourse.resolve_left hgoes
    -- The login on the connection, and what the client knows of it.
    have hlogged : loggedIn xs = true := by
      have hagrees := agrees_reached hcourse.permitted
      rw [hreached] at hagrees
      cases p with
      | sender =>
        rw [show c.state = .loginComplete from beq_iff_eq.mp hallowed] at hagrees
        exact hagrees.1
      | recipient =>
        rw [show c.state = .mailFromDone from beq_iff_eq.mp hallowed] at hagrees
        exact hagrees.1
    obtain ⟨hello, hhello⟩ := exists_filter_isLogin hcourse.permitted hlogged
    have htold : c.Told hello := by
      have hmem : hello ∈ xs.filter Exchange.isLogin := hhello ▸ List.mem_singleton_self hello
      obtain ⟨hmem, hlogin⟩ := List.mem_filter.mp hmem
      exact (hinformed es hjournal).resolve_left hgoes n hholds.held hello
        (hcourse.exchanges_eq ▸ hmem) hlogin
    have hparams := hasParams_params p address dsn c
    rw [htold.dsnEnabled_iff] at hparams
    obtain ⟨rs, lines, ⟨fs, hm, hspoken⟩, hcut, hwhole⟩ := speaks_party p address dsn hholds hallowed
    refine ⟨fs, hjournal, hm.journal, fun m hm => ?_⟩
    obtain rfl : m = n := Classical.byContradiction fun hne => hm (hspoken.elsewhere hne)
    refine ⟨p.command address (c.params dsn p.render), hello, ⟨_, rfl⟩, ⟨lines, hspoken.said ▸ hcut⟩,
      fun answer later hr => ⟨lines, hspoken.said.trans (hwhole answer later hr)⟩,
      hcourse.exchanges_eq ▸ hhello, ?_⟩
    rw [hparams, and_assoc, and_comm (a := hello.OffersDsn)]

/-- A server that refuses the first login, with an offer, and accepts the second one. -/
def secondThoughts : Network :=
  Submitter.serverSending ["220 mx", "500-mx", "500 DSN", "250-mx", "250 dsn now", "250 ok"] []

/-- A client that has logged in there. -/
def secondTry : Client :=
  [Call.operation (.connect "mx" 25), .operation .login, .operation .login].foldl
    (fun c call => call.after c) (.new 1 { extensions := true } {} secondThoughts)

/-- A request for the headers only. -/
def headersOnly : Dsn := { ret := some "HDRS" }

theorem exchanges_secondTry : (exchanges (dialogue 0 secondTry.net.journal.reverse)).filter
    Exchange.isLogin = [⟨.ehlo "localhost",
      [{ code := 250, text := "mx" }, { code := 250, text := "dsn now", last := true }]⟩] := by
  decide +kernel

theorem dialogue_secondTry :
    dialogue 0 ((Call.operation (.sender .null (some headersOnly))).after secondTry).net.journal.reverse ≠
      dialogue 0 secondTry.net.journal.reverse := by
  decide +kernel

theorem dsn_params_sent_iff_offered_secondTry :
    ∃ es fs command hello, secondTry.net.journal = es.reverse ∧ dialogue 0 fs ≠ [] ∧
      NamesParty .sender .null (some headersOnly) secondTry es fs 0 command hello ∧
      hello.OffersDsn ∧ EnvelopeLine.HasParams command.wire := by
  obtain ⟨es, fs, hes, hfs, hnames⟩ := dsn_params_sent_iff_offered
    (runs_foldl _ (.new 1 { extensions := true } {} secondThoughts)) .sender .null (some headersOnly)
  have hbefore : secondTry.net.journal = es.reverse := hes.trans (List.append_nil _)
  have hsaid : dialogue 0 fs ≠ [] := by
    intro hnone
    refine dialogue_secondTry ?_
    rw [show ((Call.operation (.sender .null (some headersOnly))).after secondTry).net.journal =
      fs.reverse ++ secondTry.net.journal from hfs]
    rw [List.reverse_append, List.reverse_reverse, dialogue_append, hnone, List.append_nil]
  obtain ⟨command, hello, hparty⟩ := hnames 0 hsaid
  have hlogin := hparty.login
  rw [← List.reverse_reverse es, ← hbefore, exchanges_secondTry] at hlogin
  obtain rfl := (List.cons.inj hlogin).1
  have hoffers : Exchange.OffersDsn ⟨.ehlo "localhost",
      [{ code := 250, text := "mx" }, { code := 250, text := "dsn now", last := true }]⟩ :=
    ⟨⟨_, rfl⟩, _, List.mem_singleton_self _, "dsn", by decide, by decide⟩
  refine ⟨es, fs, command, _, hbefore, hsaid, hparty, hoffers, hparty.params.mpr ⟨?_, ?_, hoffers⟩⟩
  · decide +kernel
  · exact ⟨headersOnly, rfl, by decide⟩

end Client

end MailSubmission
