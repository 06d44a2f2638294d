import MailSubmission.Proofs.Bookkeeping
import MailSubmission.Proofs.ClientDialogue

set_option autoImplicit false

/-!
# What a client is between its calls

A client keeps its connection, its state, what it knows of the server, its settings and its token
apart, and each operation sets some of them.  Between calls they fit together
(`Client.Coherent`): there is a connection exactly in the states of a session, it has been set up
with the settings and the token that the client has, and nothing is known of a server before one
has greeted.

What happens between calls leaves the client's memory alone (`Client.Idles`).  So the invariant
holds along every run of calls (`Client.coherent_between_calls`), and whenever an operation turns
to the connection, it finds one.
-/

namespace MailSubmission

open Run

/-- The connection has been set up with the settings and the token. -/
structure Connection.Tuned (conn : Connection) (settings : ClientSettings) (token : Token) : Prop where
  timeout : conn.timeout = settings.timeout
  readRetries : conn.readRetries = settings.readRetries
  tolerance : conn.decoder.tolerance = settings.tolerance
  token : conn.token = token

theorem Connection.tuned_ofSocket (socket : Socket) (settings : ClientSettings) (token : Token) :
    (ofSocket socket settings token).Tuned settings token := ⟨rfl, rfl, rfl, rfl⟩

/-- Work on a connection does not change how it has been set up. -/
theorem Link.Leads.tuned {l later : Link} {es : List Entry} {settings : ClientSettings} {token : Token}
    (h : l.Leads later es) (ht : l.connection.Tuned settings token) :
    later.connection.Tuned settings token :=
  ⟨h.timeout.trans ht.timeout, h.readRetries.trans ht.readRetries, h.tolerance.trans ht.tolerance,
    h.token.trans ht.token⟩

namespace Client

variable {c mid later : Client} {call : Call} {calls : List Call} {op : Operation}

/-- The connection that the client holds, if any, has been set up with its settings and its
token. -/
def Tuned (c : Client) : Prop := ∀ conn, c.connection = some conn → conn.Tuned c.settings c.token

/-- What a client is like while no call is under way. -/
structure Coherent (c : Client) : Prop where
  isOpen_iff : c.connection.isSome = true ↔
    c.state = .connected ∨ c.state = .loginComplete ∨ c.state = .mailFromDone ∨ c.state = .rcptToDone
  tuned : c.Tuned
  unknown : c.state = .fresh → c.server = {}

theorem coherent_new (id : Nat) (settings : ClientSettings) (token : Token) (net : Network) :
    (Client.new id settings token net).Coherent :=
  ⟨by simp [Client.new], nofun, fun _ => rfl⟩

theorem coherent_abandon (c : Client) : c.abandon.Coherent := ⟨by simp [abandon], nofun, nofun⟩

theorem coherent_disconnect (c : Client) : c.disconnect.Coherent :=
  ⟨by simp [disconnect], nofun, fun _ => rfl⟩

/-- There is a connection exactly while the session is live. -/
theorem Coherent.isSome_eq (h : c.Coherent) : c.connection.isSome = c.state.isLive := by
  rw [Bool.eq_iff_iff, h.isOpen_iff]
  cases c.state <;> simp [SessionState.isLive]

/-- A client with a session is coherent if it has a connection that is tuned. -/
theorem coherent_of_isLive (hopen : c.connection.isSome = true) (htuned : c.Tuned)
    (hlive : c.state.isLive = true) : c.Coherent := by
  refine ⟨?_, htuned, fun hfresh => ?_⟩
  · cases hstate : c.state <;> simp_all [SessionState.isLive]
  · rw [hfresh] at hlive
    cases hlive

/-! ## Work on the connection -/

/-- Carried out on `c`, the work finds a connection whenever it turns to it, and if it returns, it
leaves one that is tuned. -/
structure Attached {α : Type} (w : Watched.OnClient α) (c : Client) : Prop where
  drives : ∀ connection, .drive connection ∈ w.seen c → connection.isSome = true
  leaves : Ends w.run c (fun _ c' => c'.connection.isSome = true ∧ c'.Tuned) fun _ _ => True

section

variable {α β : Type} {w : Watched.OnClient α} {next : α → Watched.OnClient β}

theorem attached_quiet {act : Run Fault Client α}
    (h : Ends act c (fun _ c' => c'.connection.isSome = true ∧ c'.Tuned) fun _ _ => True) :
    Attached (Watched.quiet act) c := ⟨nofun, h⟩

theorem attached_pure (a : α) (hopen : c.connection.isSome = true) (htuned : c.Tuned) :
    Attached (pure a) c := attached_quiet (ends_pure.mpr ⟨hopen, htuned⟩)

theorem attached_fail (fault : Fault) (c : Client) :
    Attached (Watched.quiet (fail fault : Run Fault Client α)) c := attached_quiet trivial

/-- Work can be followed by work that needs a tuned connection. -/
theorem Attached.bind (h : Attached w c)
    (g : ∀ a c', c'.connection.isSome = true → c'.Tuned → Attached (next a) c') :
    Attached (w >>= next) c where
  drives connection hmem := by
    rcases Watched.mem_seen_bind.mp hmem with hmem | ⟨a, c', hr, hmem⟩
    · exact h.drives connection hmem
    · obtain ⟨hopen, htuned⟩ := h.leaves.of_ok hr
      exact (g a c' hopen htuned).drives connection hmem
  leaves := ends_bind.mpr (h.leaves.mono (fun a c' hc' => (g a c' hc'.1 hc'.2).leaves) fun _ _ _ => trivial)

/-- What leads on leaves the connection as it has been set up. -/
theorem LeadsOn.tuned (h : c.LeadsOn later) (htuned : c.Tuned) : later.Tuned := by
  cases h with
  | idle => exact htuned
  | work hc hl =>
    intro conn hconn
    obtain rfl := Option.some.inj hconn
    exact hl.tuned (htuned _ hc)

theorem LeadsOn.isSome (h : c.LeadsOn later) (hopen : c.connection.isSome = true) :
    later.connection.isSome = true := by
  cases h with
  | idle => exact hopen
  | work hc hl => rfl

/-- Work on a link finds its connection, if there is one. -/
theorem attached_onLink {w : Watched.OnLink α} (gives : List (Option Script) → Prop)
    (h : Watched.Drives gives (Watched.onLink w)) (hopen : c.connection.isSome = true)
    (htuned : c.Tuned) : Attached (Watched.onLink w) c := by
  refine ⟨fun connection hmem => ?_, (ends_of_drives h c).mono ?_ fun _ _ _ => trivial⟩
  · rcases List.mem_cons.mp hmem with heq | hmem
    · injection heq with heq
      rw [heq, hopen]
    · obtain ⟨conn, hconn⟩ := Option.isSome_iff_exists.mp hopen
      rw [hconn] at hmem
      obtain ⟨m, -, hm⟩ := List.mem_map.mp hmem
      cases hm
  · exact fun _ _ hleads => ⟨hleads.isSome hopen, hleads.tuned htuned⟩

/-- Work on the connection that there is finds it, and leaves it tuned. -/
theorem attached_of_drives {gives : List (Option Script) → Prop} (h : Watched.Drives gives w)
    (hopen : c.connection.isSome = true) (htuned : c.Tuned) : Attached w c := by
  induction h generalizing c with
  | pure a => exact attached_pure a hopen htuned
  | refuse _ => exact attached_fail _ c
  | exchange command => exact attached_onLink gives (.exchange command) hopen htuned
  | greeting => exact attached_onLink gives .greeting hopen htuned
  | deliver hgives => exact attached_onLink gives (.deliver hgives) hopen htuned
  | bind _ _ ih ihnext =>
    exact (ih hopen htuned).bind fun a c' hopen' htuned' => ihnext a hopen' htuned'

end

/-- A connection that is opened is set up with what the client has. -/
theorem attached_openConnection (host : String) (port : Nat) (c : Client) :
    Attached (Watched.openConnection host port) c := by
  refine ⟨fun connection hmem => ?_, ?_⟩
  · obtain ⟨m, -, hm⟩ := List.mem_map.mp hmem
    cases hm
  · refine (ends_openConnection host port c).mono ?_ fun _ _ _ => trivial
    rintro _ c' ⟨net, hw, rfl⟩
    refine ⟨rfl, fun conn hconn => ?_⟩
    obtain rfl := Option.some.inj hconn
    exact Connection.tuned_ofSocket _ _ _

theorem attached_greet (host : String) (port : Nat) (c : Client) :
    Attached (Watched.greet host port) c := by
  obtain ⟨next, hgreet, hnext⟩ : Watched.BeginsWith (fun _ => True) _ _ :=
    Watched.begins_greet host port
  rw [hgreet]
  exact (attached_openConnection host port c).bind fun u _ => attached_of_drives (hnext u)

/-! ## Operations -/

theorem Tuned.congr (h : c.Tuned) (hconnection : later.connection = c.connection)
    (hsettings : later.settings = c.settings) (htoken : later.token = c.token) : later.Tuned := by
  intro conn hconn
  rw [hsettings, htoken]
  exact h conn (hconnection ▸ hconn)

/-- An operation on the connection is allowed in a session only. -/
theorem isLive_of_allows {state : SessionState} (hallowed : op.allows state = true)
    (hop : op ≠ .done) (hfresh : state ≠ .fresh) : state.isLive = true := by
  cases state with
  | fresh => exact absurd rfl hfresh
  | bad => cases op <;> cases hallowed
  | _ => rfl

/-- The work of an operation finds the connection, if `mid` has one that is tuned, unless it is
about to be opened. -/
theorem attached_watched (hallowed : op.allows c.state = true) (hop : op ≠ .done)
    (hopen : c.state ≠ .fresh → mid.connection.isSome = true) (htuned : mid.Tuned) :
    Attached (op.watched c) mid := by
  have hconnect : ∀ host port, op = .connect host port → Attached (op.watched c) mid := by
    rintro host port rfl
    exact (attached_greet host port mid).bind fun _ _ => attached_pure ()
  by_cases hfresh : c.state = .fresh
  · rw [hfresh] at hallowed
    cases op with
    | connect host port => exact hconnect host port rfl
    | done => exact absurd rfl hop
    | _ => cases hallowed
  · rcases op.connects_or_drives c fun _ _ => trivial with ⟨host, port, heq⟩ | hdrives
    · exact hconnect host port heq
    · exact attached_of_drives hdrives (hopen hfresh) htuned

/-- So it is for what a coherent client is allowed. -/
theorem Coherent.attached (h : c.Coherent) (hallowed : op.allows c.state = true) (hop : op ≠ .done) :
    Attached (op.watched c) { c with inFlight := true } :=
  attached_watched hallowed hop
    (fun hfresh => h.isSome_eq.trans (isLive_of_allows hallowed hop hfresh)) h.tuned

/-- Whenever an operation turns to the connection, a coherent client has one. -/
theorem Coherent.drives (h : c.cleared.Coherent) (op : Operation) {connection : Option Connection}
    (hmem : .drive connection ∈ op.glimpses c) : connection.isSome = true := by
  unfold Operation.glimpses at hmem
  split at hmem
  · rename_i hallowed
    by_cases hop : op = .done
    · subst hop
      unfold Operation.watched at hmem
      dsimp only at hmem
      split at hmem
      · rename_i hlive
        have hdrives : Watched.Drives (fun _ => True) (do let _ ← Watched.exchange .quit) :=
          (Watched.Drives.exchange .quit).bind fun _ => .pure ()
        exact (attached_of_drives (c := { c.cleared with inFlight := true }) hdrives
          (h.isSome_eq.trans hlive) h.tuned).drives connection hmem
      · cases hmem
    · exact (h.attached hallowed hop).drives connection hmem
  · cases hmem

/-- An operation that is answered leaves a session, unless it is a goodbye. -/
theorem isLive_next {state : SessionState} (hallowed : op.allows state = true) (hop : op ≠ .done)
    (answer : Answer) : (op.next state answer).isLive = true := by
  cases op with
  | connect => rfl
  | login =>
    obtain rfl : state = .connected := beq_iff_eq.mp hallowed
    cases answer <;> simp only [Operation.next] <;> first | rfl | (split <;> rfl)
  | sender =>
    obtain rfl : state = .loginComplete := beq_iff_eq.mp hallowed
    cases answer <;> simp only [Operation.next] <;> first | rfl | (split <;> rfl)
  | recipient =>
    obtain rfl : state = .mailFromDone := beq_iff_eq.mp hallowed
    cases answer <;> simp only [Operation.next] <;> first | rfl | (split <;> rfl)
  | reset => rfl
  | sendData =>
    obtain rfl : state = .rcptToDone := beq_iff_eq.mp hallowed
    rfl
  | done => exact absurd rfl hop

/-- A failure lets go of the connection. -/
theorem coherent_halted (op : Operation) (c : Client) (fault : Fault) :
    (op.halted c (.failed fault)).Coherent := by
  cases op with
  | done => cases fault <;> first | exact c.coherent_abandon | exact c.coherent_disconnect
  | _ => exact c.coherent_abandon

/-- An operation leaves a client that is coherent, or the mark of a call that was dropped. -/
theorem Coherent.operation (h : c.Coherent) (hidle : c.inFlight = false) (op : Operation) :
    Ends op.carryOut c (fun _ later => later.Coherent)
      (fun _ later => later.inFlight = false → later.Coherent) := by
  cases hallowed : op.allows c.state with
  | false =>
    have hrefused := op.carryOut_of_not_allows c
    rw [cleared_of_idle hidle] at hrefused
    unfold Ends
    rw [hrefused hallowed]
    exact fun _ => h
  | true =>
    have hhalts : Ends op.carryOut c (fun _ _ => True)
        (fun _ later => later.inFlight = false → later.Coherent) := by
      refine (Operation.ends_carryOut hidle hallowed).mono (fun _ _ _ => trivial) ?_
      rintro e later ⟨-, mid, es, -, rfl⟩
      cases e with
      | failed fault => exact fun _ => coherent_halted op mid fault
      | abandoned =>
        rw [op.halted_abandoned]
        exact fun hmark => by cases hmark
    have hreturns : Ends op.carryOut c (fun _ later => later.Coherent) fun _ _ => True := by
      by_cases hop : op = .done
      · subst hop
        refine (Operation.ends_carryOut_work hidle hallowed).mono ?_ fun _ _ _ => trivial
        rintro answer later ⟨mid, -, hbooks⟩
        rw [hbooks.away rfl]
        exact coherent_disconnect _
      · have hwork := (h.attached hallowed hop).leaves
        rw [op.run_watched] at hwork
        refine ((Operation.ends_carryOut_of_work hidle hallowed hwork).and
          (Operation.ends_carryOut hidle hallowed)).mono ?_ fun _ _ _ => trivial
        rintro answer later ⟨⟨mid, ⟨hopen, htuned⟩, hbooks⟩, hstate, -⟩
        have hsame := hbooks.same hop
        have hconnection : later.connection = mid.connection := by rw [hsame]
        have hsettings : later.settings = mid.settings := by rw [hsame]
        have htoken : later.token = mid.token := by rw [hsame]
        exact coherent_of_isLive (hconnection ▸ hopen) (htuned.congr hconnection hsettings htoken)
          (hstate ▸ isLive_next hallowed hop answer)
    exact (hreturns.and hhalts).mono (fun _ _ hlater => hlater.1) fun _ _ hlater => hlater.2

/-! ## Lives -/

/-- What may change while no call is under way: anything in the network but what has happened in
it, and nothing that the client remembers, of its connection neither. -/
structure Idles (c later : Client) : Prop extends Meanwhile c later where
  memory : later.connection.map (fun conn => { conn with socket := {} }) =
    c.connection.map fun conn => { conn with socket := {} }

/-- `later` is the client after calls made one after another. -/
inductive Lives : Client → List Call → Client → Prop where
  | nil (c : Client) : Lives c [] c
  | idles {c mid later : Client} {calls : List Call} (wait : c.Idles mid)
      (rest : Lives mid calls later) : Lives c calls later
  | call {c later : Client} {call : Call} {calls : List Call}
      (rest : Lives (call.after c) calls later) : Lives c (call :: calls) later

/-- Any calls can be made, one straight after another. -/
theorem lives_foldl (calls : List Call) (c : Client) :
    Lives c calls (calls.foldl (fun c call => call.after c) c) := by
  induction calls generalizing c with
  | nil => exact .nil c
  | cons call rest ih => exact .call (ih (call.after c))

theorem Tuned.idles (h : c.Tuned) (hw : c.Idles later) : later.Tuned := by
  intro conn hconn
  have hmemory := hw.memory
  rw [hconn, Option.map_some] at hmemory
  obtain ⟨conn', hconn', hsame⟩ := Option.map_eq_some_iff.mp hmemory.symm
  have htuned := h conn' hconn'
  have hsettings : later.settings = c.settings := by rw [hw.same]
  have htoken : later.token = c.token := by rw [hw.same]
  rw [hsettings, htoken]
  injection hsame with _ _ hdecoder hconnToken htimeout hretries
  exact ⟨htimeout ▸ htuned.timeout, hretries ▸ htuned.readRetries, hdecoder ▸ htuned.tolerance,
    hconnToken ▸ htuned.token⟩

theorem Coherent.idles (h : c.Coherent) (hw : c.Idles later) : later.Coherent := by
  have hopen : later.connection.isSome = c.connection.isSome := by
    have hheld := congrArg Option.isSome hw.held
    unfold held at hheld
    rwa [Option.isSome_map, Option.isSome_map] at hheld
  have hstate : later.state = c.state := by rw [hw.same]
  have hserver : later.server = c.server := by rw [hw.same]
  refine ⟨?_, h.tuned.idles hw, ?_⟩
  · rw [hopen, hstate]
    exact h.isOpen_iff
  · rw [hstate, hserver]
    exact h.unknown

/-- The invariant: a client is coherent, unless it carries the mark of a call that was dropped. -/
def CoherentIfIdle (c : Client) : Prop := c.inFlight = false → c.Coherent

/-- As a call finds it, the client is coherent in any case. -/
theorem CoherentIfIdle.cleared (h : c.CoherentIfIdle) : c.cleared.Coherent := by
  unfold Client.cleared
  split
  · exact c.coherent_abandon
  · exact h (Bool.eq_false_iff.mpr ‹_›)

theorem CoherentIfIdle.after (h : c.CoherentIfIdle) (call : Call) : (call.after c).CoherentIfIdle := by
  have hcoherent := h.cleared
  refine Call.after_of_ends ?_
  cases call with
  | operation op =>
    exact ends_bind.mpr ((hcoherent.operation c.idle_cleared op).mono
      (fun _ _ hlater _ => hlater) fun _ _ hlater => hlater)
  | disconnect => exact fun _ => coherent_disconnect _
  | configure settings token =>
    refine ends_bind.mpr (ends_enter_iff.mpr ?_)
    rw [cleared_cleared]
    split
    · rename_i hallowed
      -- There is no connection yet that would have been set up differently.
      have hnone : c.cleared.connection = none := by
        rw [← Option.not_isSome_iff_eq_none, hcoherent.isSome_eq, (Bool.not_eq_true' _).mp hallowed]
        exact Bool.false_ne_true
      refine fun _ => ⟨hcoherent.isOpen_iff, fun conn hconn => ?_, hcoherent.unknown⟩
      rw [hnone] at hconn
      cases hconn
    · exact fun _ => hcoherent

theorem CoherentIfIdle.lives (h : c.CoherentIfIdle) (hl : Lives c calls later) :
    later.CoherentIfIdle := by
  induction hl with
  | nil => exact h
  | idles wait _ ih =>
    refine ih fun hidle => ?_
    have hmark : ∀ {c later : Client}, c.Idles later → later.inFlight = c.inFlight := by
      intro c later hw
      rw [hw.same]
    exact (h ((hmark wait).symm.trans hidle)).idles wait
  | call _ ih => exact ih (h.after _)

/-- Whatever calls a client gets, and whatever becomes of them: while no call is under way and none
that was dropped has left its mark, the client holds a connection exactly in the four states of a
session, that connection has been set up with the settings and the token that the client has, and
in the state `fresh` nothing is known of a server.  And whatever operation is called next, dropped
calls before it or not: whenever it turns to the connection, there is one. -/
theorem coherent_between_calls {id : Nat} {settings : ClientSettings} {token : Token} {net : Network}
    (hlives : Lives (Client.new id settings token net) calls c) :
    (c.inFlight = false → c.Coherent) ∧
      ∀ (op : Operation) (connection : Option Connection),
        .drive connection ∈ op.glimpses c → connection.isSome = true := by
  have hcoherent : (Client.new id settings token net).CoherentIfIdle := fun _ => coherent_new _ _ _ _
  have hc := hcoherent.lives hlives
  exact ⟨hc, fun op connection hmem => hc.cleared.drives op hmem⟩

/-- A client that has been told to wait for five seconds, and then has connected. -/
def patientClient : Client :=
  [Call.configure { timeout := 5000, tolerance := 2 } {}, .operation (.connect "mx" 25)].foldl
    (fun c call => call.after c)
    (.new 1 {} {} { sockets := [{ reads := [.data (Text.Utf8.encode "220 mx\r\n")] }] })

theorem coherent_between_calls_patientClient :
    patientClient.inFlight = false ∧ patientClient.Coherent ∧
      (∃ conn, patientClient.connection = some conn ∧ conn.timeout = 5000 ∧
        conn.decoder.tolerance = 2) ∧
      .drive patientClient.connection ∈ Operation.login.glimpses patientClient ∧
      patientClient.connection.isSome = true := by
  have hidle : patientClient.inFlight = false := by decide +kernel
  have hstate : patientClient.state = .connected := by decide +kernel
  obtain ⟨hbetween, hdrives⟩ := coherent_between_calls (lives_foldl
    [.configure { timeout := 5000, tolerance := 2 } {}, .operation (.connect "mx" 25)]
    (.new 1 {} {} { sockets := [{ reads := [.data (Text.Utf8.encode "220 mx\r\n")] }] }))
  have hcoherent : patientClient.Coherent := hbetween hidle
  have hdriven : .drive patientClient.connection ∈ Operation.login.glimpses patientClient := by
    unfold Operation.glimpses
    rw [cleared_of_idle hidle, if_pos (by rw [hstate]; rfl)]
    exact List.mem_append_left _ List.mem_cons_self
  have hopen : patientClient.connection.isSome = true := hdrives .login _ hdriven
  obtain ⟨conn, hconn⟩ := Option.isSome_iff_exists.mp hopen
  have htuned := hcoherent.tuned conn hconn
  have hsettings : patientClient.settings.timeout = 5000 ∧ patientClient.settings.tolerance = 2 := by
    decide +kernel
  exact ⟨hidle, hcoherent, ⟨conn, hconn, htuned.timeout.trans hsettings.1,
    htuned.tolerance.trans hsettings.2⟩, hdriven, hopen⟩

end Client

end MailSubmission
