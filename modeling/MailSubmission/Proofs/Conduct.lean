import MailSubmission.Connection
import MailSubmission.Proofs.History
import MailSubmission.Proofs.RunEndings

set_option autoImplicit false

/-!
# What a connection does

For each operation on a link this module says how it ends and what it adds to the journal:
nothing of another connection, on its own connection exactly the octets it was given or, if
it comes to a halt, a beginning of them.  Everything later about clients is put together
from these statements.

A halt is always the network's doing (`Halt.During`): the connection failed, its time ran
out in the phase given, the call was cancelled or dropped, or the peer did not keep to the
reply grammar.
-/

namespace MailSubmission

/-! ## Halts -/

namespace Halt

/-- What is noted when a call comes to a halt: an interruption if it was cancelled. -/
def trace : Halt Fault → List Entry
  | .failed .cancelled => [.interrupted]
  | _ => []

/-- The call came to a halt while it worked on its connection.  Had its time run out, then
in this phase, with such a tally. -/
def During (phase : Phase) (tally : Nat → Prop) : Halt Fault → Prop
  | .failed (.timeout ph n) => ph = phase ∧ tally n
  | .failed (.network _) | .failed .cancelled | .failed .connectionClosed
  | .failed (.replyThrashing _) | .abandoned => True
  | .failed (.invalidState ..) | .failed (.greeting ..) | .failed (.resetFailed ..)
  | .failed (.invalidDsn _) | .failed (.invalidAddress _) => False

theorem During.mono {phase : Phase} {tally tally' : Nat → Prop} {h : Halt Fault}
    (hd : h.During phase tally) (ht : ∀ n, tally n → tally' n) : h.During phase tally' := by
  unfold During at hd ⊢
  split at hd
  · exact ⟨hd.1, ht _ hd.2⟩
  all_goals trivial

/-- What halts a call on a connection leaves the connection unusable. -/
theorem During.isFatal {phase : Phase} {tally : Nat → Prop} {fault : Fault}
    (hd : (Halt.failed fault).During phase tally) : fault.isFatal = true := by
  cases fault <;> first | rfl | exact absurd hd id

theorem eq_of_mem_trace (h : Halt Fault) : ∀ e ∈ h.trace, e = .interrupted := by
  intro e he
  unfold trace at he
  split at he
  · exact List.mem_singleton.mp he
  · exact absurd he List.not_mem_nil

@[simp] theorem octetsSent_trace (n : Nat) (h : Halt Fault) : octetsSent n h.trace = [] := by
  unfold trace
  split <;> rfl

@[simp] theorem feedings_trace (h : Halt Fault) : feedings h.trace = [] := by
  unfold trace
  split <;> rfl

@[simp] theorem unanswered_trace (h : Halt Fault) : Unanswered h.trace := by
  intro e he
  rw [h.eq_of_mem_trace e he]
  rfl

end Halt

/-! ## The decoder keeps its tolerance -/

namespace Decoder

/-- The decoder that an octet leads to. -/
def Progress.decoder : Progress → Decoder
  | .more d | .line _ d | .thrashing _ d => d

/-- The decoder that looking ahead from `d` leads to. -/
def Lookahead.decoder (d : Decoder) : Lookahead → Decoder
  | .stands => d
  | .reopened _ d' | .thrashing _ d' => d'

/-- The decoder that octets lead to. -/
def Scan.decoder : Scan → Decoder
  | .complete _ d _ | .more _ d | .thrashing _ d _ => d

theorem tolerance_charge (d : Decoder) {next : Decoder → Progress}
    (h : ∀ d', d'.tolerance = d.tolerance → (next d').decoder.tolerance = d.tolerance) :
    (d.charge .thrashing next).decoder.tolerance = d.tolerance := by
  unfold charge
  split
  · rfl
  · exact h _ rfl

theorem tolerance_garble (d : Decoder) {next : Decoder → Progress}
    (h : ∀ d', d'.tolerance = d.tolerance → (next d').decoder.tolerance = d.tolerance) :
    (d.garble next).decoder.tolerance = d.tolerance := by
  unfold garble
  split
  · exact h d rfl
  · exact tolerance_charge { d with broken := true } h

theorem tolerance_readDigit (d : Decoder) (b : UInt8) (weight : Nat) (next : Column) :
    (d.readDigit b weight next).decoder.tolerance = d.tolerance := by
  unfold readDigit
  split
  · rfl
  · split
    · exact d.tolerance_garble fun _ h => h
    · split
      · exact d.tolerance_garble fun _ h => h
      · exact d.tolerance_garble fun _ h => h

theorem tolerance_step (d : Decoder) (b : UInt8) :
    (d.step b).decoder.tolerance = d.tolerance := by
  unfold step
  cases d.column with
  | hundreds =>
    simp only
    split
    · exact d.tolerance_charge fun _ h => h
    · exact d.tolerance_readDigit b 100 .tens
  | tens => exact d.tolerance_readDigit b 10 .ones
  | ones => exact d.tolerance_readDigit b 1 .separator
  | separator =>
    simp only
    split
    · rfl
    · split
      · rfl
      · split
        · rfl
        · split
          · rfl
          · exact d.tolerance_garble fun _ h => h
  | text =>
    simp only
    split
    · rfl
    · split <;> rfl
  | afterReturn =>
    simp only
    split
    · rfl
    · split
      · exact d.tolerance_charge fun _ h => h
      · exact d.tolerance_charge fun _ h => h

theorem tolerance_push (d : Decoder) (b : UInt8) :
    (d.push b).decoder.tolerance = d.tolerance := by
  unfold push
  split
  · exact tolerance_step _ b
  · exact tolerance_step d b

theorem tolerance_resume (d : Decoder) (l : ReplyLine) (ahead : List UInt8) :
    ((d.resume l ahead).decoder d).tolerance = d.tolerance := by
  unfold resume charge
  split
  · split <;> rfl
  · rfl

theorem tolerance_scan (d : Decoder) (lines : List ReplyLine) (octets : List UInt8) :
    (d.scan lines octets).decoder.tolerance = d.tolerance := by
  induction octets generalizing d lines with
  | nil => rfl
  | cons b rest ih =>
    have hpush := d.tolerance_push b
    rw [scan]
    split
    · rename_i d' hp
      rw [hp] at hpush
      exact (ih d' lines).trans hpush
    · rename_i seen d' hp
      rw [hp] at hpush
      exact hpush
    · rename_i l d' hp
      rw [hp] at hpush
      have hresume := tolerance_resume d' l rest
      split
      · rename_i seen d'' hr
        rw [hr] at hresume
        exact hresume.trans hpush
      · rename_i l' d'' hr
        rw [hr] at hresume
        exact (ih d'' _).trans (hresume.trans hpush)
      · split
        · exact hpush
        · exact (ih d' _).trans hpush

/-- Feed blocks of octets, where each block is all there is to look ahead at. -/
def scanBlocks (d : Decoder) (lines : List ReplyLine) : List (List UInt8) → Scan
  | [] => .more lines d
  | block :: blocks =>
    match d.scan lines block with
    | .more lines d => scanBlocks d lines blocks
    | .complete lines d left => .complete lines d left
    | .thrashing count d left => .thrashing count d left

end Decoder

/-! ## Links -/

namespace Link

open Run

/-- `later` is the link after some work on the connection, in which `es` happened. -/
structure Leads (l later : Link) (es : List Entry) : Prop where
  waits : l.net.Waits later.net es
  own : ∀ e ∈ es, e.StaysOn l.connection.socket.number
  number : later.connection.socket.number = l.connection.socket.number
  token : later.connection.token = l.connection.token
  timeout : later.connection.timeout = l.connection.timeout
  readRetries : later.connection.readRetries = l.connection.readRetries
  tolerance : later.connection.decoder.tolerance = l.connection.decoder.tolerance

variable {l mid later : Link} {es fs : List Entry}

theorem Leads.refl (l : Link) : l.Leads l [] :=
  ⟨.refl _, by simp, rfl, rfl, rfl, rfl, rfl⟩

theorem Leads.trans (h : l.Leads mid es) (g : mid.Leads later fs) : l.Leads later (es ++ fs) where
  waits := h.waits.trans g.waits
  own e he := by
    rcases List.mem_append.mp he with he | he
    · exact h.own e he
    · exact h.number ▸ g.own e he
  number := g.number.trans h.number
  token := g.token.trans h.token
  timeout := g.timeout.trans h.timeout
  readRetries := g.readRetries.trans h.readRetries
  tolerance := g.tolerance.trans h.tolerance

theorem leads_note (l : Link) {e : Entry} (he : e.StaysOn l.connection.socket.number) :
    l.Leads (l.note e) [e] :=
  ⟨Network.waits_note l.net e, by simpa using he, rfl, rfl, rfl, rfl, rfl⟩

/-- Waiting leaves the connection as it is. -/
theorem leads_waits {net : Network} (h : l.net.Waits net es) (hes : ∀ e ∈ es, e = .interrupted) :
    l.Leads { l with net } es :=
  ⟨h, fun e he => hes e he ▸ trivial, rfl, rfl, rfl, rfl, rfl⟩

/-! ## Waiting and reading -/

/-- A wait that ends a call has left its trace. -/
theorem conclude_eq_error {σ : Type} {s s' : σ} {arrival : Network.Arrival} {h : Halt Fault}
    (hc : conclude s arrival = .error h s') :
    s' = s ∧ h.trace = arrival.trace ∧ ∀ phase, h.During phase fun _ => False := by
  cases arrival with
  | ready bs => simp [conclude] at hc
  | failed text =>
    simp only [conclude, EStateM.Result.error.injEq] at hc
    obtain ⟨rfl, rfl⟩ := hc
    exact ⟨rfl, rfl, fun _ => trivial⟩
  | cutOff cut =>
    cases cut with
    | timedOut => simp [conclude] at hc
    | cancelled =>
      simp only [conclude, EStateM.Result.error.injEq] at hc
      obtain ⟨rfl, rfl⟩ := hc
      exact ⟨rfl, rfl, fun _ => trivial⟩
    | abandoned =>
      simp only [conclude, EStateM.Result.error.injEq] at hc
      obtain ⟨rfl, rfl⟩ := hc
      exact ⟨rfl, rfl, fun _ => trivial⟩

theorem trace_of_conclude_eq_ok {σ : Type} {s s' : σ} {arrival : Network.Arrival}
    {o : Option (List UInt8)} (hc : conclude s arrival = .ok o s') : arrival.trace = [] := by
  cases arrival with
  | ready bs => rfl
  | failed text => rfl
  | cutOff cut =>
    cases cut with
    | timedOut => rfl
    | cancelled => simp [conclude] at hc
    | abandoned => rfl

/-- How a call ends that goes on as an arrival says. -/
theorem ends_conclude {σ : Type} {act : Run Fault σ (Option (List UInt8))} {s s' : σ}
    {arrival : Network.Arrival} {ok : Option (List UInt8) → σ → Prop}
    {halt : Halt Fault → σ → Prop} (hact : act s = conclude s' arrival)
    (hready : ∀ bs, arrival = .ready bs → ok (some bs) s')
    (hlimit : arrival = .cutOff .timedOut → ok none s')
    (hhalt : ∀ h, (∀ bs, arrival ≠ .ready bs) → h.trace = arrival.trace →
      (∀ phase, h.During phase fun _ => False) → halt h s') :
    Ends act s ok halt := by
  unfold Ends
  rw [hact]
  cases hc : conclude s' arrival with
  | error h later =>
    obtain ⟨rfl, ht, hd⟩ := conclude_eq_error hc
    refine hhalt h (fun bs hb => ?_) ht hd
    rw [hb] at hc
    simp [conclude] at hc
  | ok o later =>
    cases arrival with
    | ready bs =>
      simp only [conclude, EStateM.Result.ok.injEq] at hc
      obtain ⟨rfl, rfl⟩ := hc
      exact hready bs rfl
    | failed text => simp [conclude] at hc
    | cutOff cut =>
      cases cut with
      | timedOut =>
        simp only [conclude, EStateM.Result.ok.injEq] at hc
        obtain ⟨rfl, rfl⟩ := hc
        exact hlimit rfl
      | cancelled => simp [conclude] at hc
      | abandoned => simp [conclude] at hc

theorem ends_waitFor (timeout : Nat) (obstacle : Script) (l : Link) :
    Ends (waitFor timeout obstacle) l
      (fun _ l' => l.Leads l' [] ∧ l'.connection = l.connection)
      (fun h l' => l.Leads l' h.trace ∧ ∀ phase, h.During phase fun _ => False) := by
  have hw := Network.waits_bounded l.net l.connection.token timeout 0 obstacle
  refine ends_conclude rfl (fun bs hb => ?_) (fun hb => ?_) fun h _ ht hd => ?_
  · rw [hb] at hw
    exact ⟨leads_waits hw (by simp), rfl⟩
  · rw [hb] at hw
    exact ⟨leads_waits hw (by simp), rfl⟩
  · rw [← ht] at hw
    exact ⟨leads_waits hw h.eq_of_mem_trace, hd⟩

theorem ends_wait (obstacle : Script) (l : Link) :
    Ends (wait obstacle) l
      (fun _ l' => l.Leads l' [] ∧ l'.connection = l.connection)
      (fun h l' => l.Leads l' h.trace ∧ ∀ phase, h.During phase fun _ => False) :=
  ends_waitFor l.connection.timeout obstacle l

theorem ends_read (l : Link) :
    Ends read l
      (fun o l' => l.Leads l' (o.map (.received l.connection.socket.number)).toList)
      (fun h l' => l.Leads l' h.trace ∧ ∀ phase, h.During phase fun _ => False) := by
  have hw := Network.waits_bounded l.net l.connection.token l.connection.timeout readRoom
    l.connection.socket.reads
  refine ends_conclude rfl (fun bs hb => ?_) (fun hb => ?_) fun h hn ht hd => ?_
  · rw [hb] at hw ⊢
    exact ⟨hw.trans (Network.waits_note _ _), by simp [Entry.StaysOn], rfl, rfl, rfl, rfl, rfl⟩
  · rw [hb] at hw ⊢
    exact ⟨hw, by simp, rfl, rfl, rfl, rfl, rfl⟩
  · rw [← ht] at hw
    refine ⟨⟨?_, fun e he => h.eq_of_mem_trace e he ▸ trivial, rfl, rfl, rfl, rfl, rfl⟩, hd⟩
    rw [Network.noteReceived_of_ne_ready _ _ hn]
    exact hw

theorem ends_fill (phase : Phase) (transferred retries : Nat) (l : Link) :
    Ends (fill phase transferred retries) l
      (fun bs l' => l.Leads l' [.received l.connection.socket.number bs])
      (fun h l' => l.Leads l' h.trace ∧ h.During phase (· = transferred)) := by
  induction retries generalizing l with
  | zero =>
    simp only [fill, ends_bind]
    refine (ends_read l).mono (fun o l' hl => ?_) fun h l' hl => ⟨hl.1, (hl.2 phase).mono (by simp)⟩
    cases o with
    | some bs => exact hl
    | none => exact ⟨hl, rfl, rfl⟩
  | succ n ih =>
    simp only [fill, ends_bind]
    refine (ends_read l).mono (fun o l' hl => ?_) fun h l' hl => ⟨hl.1, (hl.2 phase).mono (by simp)⟩
    cases o with
    | some bs => exact hl
    | none =>
      refine (ih l').mono (fun bs l'' hl' => ?_) fun h l'' hl' => ⟨hl.trans hl'.1, hl'.2⟩
      rw [hl.number] at hl'
      exact hl.trans hl'

/-- Reading leaves the decoder alone. -/
theorem ends_fill_decoder (phase : Phase) (transferred retries : Nat) (l : Link) :
    Ends (fill phase transferred retries) l
      (fun _ l' => l'.connection.decoder = l.connection.decoder) (fun _ _ => True) := by
  have hread : ∀ l : Link, Ends read l
      (fun _ l' => l'.connection.decoder = l.connection.decoder) (fun _ _ => True) := fun l =>
    ends_conclude rfl (fun _ _ => rfl) (fun _ => rfl) fun _ _ _ _ => trivial
  induction retries generalizing l with
  | zero =>
    simp only [fill, ends_bind]
    refine (hread l).mono (fun o l' hl => ?_) fun _ _ _ => trivial
    cases o with
    | some bs => exact hl
    | none => trivial
  | succ retries ih =>
    simp only [fill, ends_bind]
    refine (hread l).mono (fun o l' hl => ?_) fun _ _ _ => trivial
    cases o with
    | some bs => exact hl
    | none => exact (ih l').mono (fun _ l'' hl' => hl'.trans hl) fun _ _ _ => trivial

/-! ## Replies -/

/-- Moving on in the input touches nothing but decoder and buffer. -/
theorem leads_withInput (l : Link) {decoder : Decoder} (buffer : List UInt8)
    (h : decoder.tolerance = l.connection.decoder.tolerance) :
    l.Leads (l.withInput decoder buffer) [] :=
  ⟨.refl _, by simp, rfl, rfl, rfl, rfl, h⟩

/-- A reply is read block by block: first what is in the buffer, then what comes in; and what it
leaves is in the buffer then.  Where the time runs out, it does so after all octets of the reply that
there were. -/
theorem ends_readLines (phase : Phase) (transferred : Nat) (lines : List ReplyLine) (l : Link) :
    Ends (readLines phase transferred lines) l
      (fun lines' l' => ∃ chunks : List (List UInt8), l.Leads l'
        (chunks.map (.received l.connection.socket.number) ++
          [.heard l.connection.socket.number lines']) ∧
        l.connection.decoder.scanBlocks lines (l.connection.buffer :: chunks) =
          .complete lines' l'.connection.decoder l'.connection.buffer)
      (fun h l' => ∃ chunks : List (List UInt8), l.Leads l'
        (chunks.map (.received l.connection.socket.number) ++ h.trace) ∧
        h.During phase (· = transferred + (l.connection.buffer ++ chunks.flatten).length)) := by
  unfold Ends
  fun_induction readLines phase transferred lines l with
  | case1 transferred lines l lines' decoder buffer hs =>
    have hd := l.connection.decoder.tolerance_scan lines l.connection.buffer
    rw [hs] at hd
    refine ⟨[], (leads_withInput l buffer hd).trans (leads_note _ rfl), ?_⟩
    rw [Decoder.scanBlocks, hs]
    rfl
  | case2 transferred lines l seen decoder buffer hs =>
    have hd := l.connection.decoder.tolerance_scan lines l.connection.buffer
    rw [hs] at hd
    exact ⟨[], leads_withInput l buffer hd, trivial⟩
  | case3 transferred lines l lines' decoder hs transferred' halt later hf =>
    have hd := l.connection.decoder.tolerance_scan lines l.connection.buffer
    rw [hs] at hd
    have hfill := (ends_fill phase _ _ _).of_error hf
    refine ⟨[], (leads_withInput l [] hd).trans hfill.1, ?_⟩
    rw [List.flatten_nil, List.append_nil]
    exact hfill.2
  | case4 transferred lines l lines' decoder hs transferred' later hf =>
    have hd := l.connection.decoder.tolerance_scan lines l.connection.buffer
    rw [hs] at hd
    have hfill := (ends_fill phase _ _ _).of_ok hf
    exact ⟨[[]], (leads_withInput l [] hd).trans hfill, trivial⟩
  | case5 transferred lines l lines' decoder hs transferred' b bs later hf ih =>
    have hd := l.connection.decoder.tolerance_scan lines l.connection.buffer
    rw [hs] at hd
    -- What has come in so far, up to the link from which reading goes on.
    have hsofar : l.Leads (later.withInput later.connection.decoder (b :: bs))
        [.received l.connection.socket.number (b :: bs)] :=
      ((leads_withInput l [] hd).trans ((ends_fill phase _ _ _).of_ok hf)).trans
        (leads_withInput later (b :: bs) rfl)
    rw [hsofar.number] at ih
    have hrest : Ends (readLines phase transferred' lines') _ _ _ := ih
    apply hrest.mono
    · rintro lines'' l' ⟨chunks, hl, hblocks⟩
      refine ⟨(b :: bs) :: chunks, hsofar.trans hl, ?_⟩
      have hdecoder := (ends_fill_decoder phase _ _ _).of_ok hf
      have hrest : later.connection.decoder.scanBlocks lines' ((b :: bs) :: chunks) =
          .complete lines'' l'.connection.decoder l'.connection.buffer := hblocks
      rw [Decoder.scanBlocks, hs]
      rwa [hdecoder] at hrest
    · rintro h l' ⟨chunks, hl, hd⟩
      have hlength : (l.connection.buffer ++ (b :: bs ++ chunks.flatten)).length =
          l.connection.buffer.length + (b :: bs ++ chunks.flatten).length := List.length_append
      refine ⟨(b :: bs) :: chunks, hsofar.trans hl, hd.mono fun n hn => ?_⟩
      rw [hn, List.flatten_cons, hlength, ← Nat.add_assoc]
      rfl

/-- Likewise, for a reply from its beginning. -/
theorem ends_readReply_tally (phase : Phase) (l : Link) :
    Ends (readReply phase) l
      (fun lines l' => ∃ chunks : List (List UInt8), l.Leads l'
        (chunks.map (.received l.connection.socket.number) ++
          [.heard l.connection.socket.number lines]) ∧
        l.connection.decoder.reset.scanBlocks [] (l.connection.buffer :: chunks) =
          .complete lines l'.connection.decoder l'.connection.buffer)
      (fun h l' => ∃ chunks : List (List UInt8), l.Leads l'
        (chunks.map (.received l.connection.socket.number) ++ h.trace) ∧
        h.During phase (· = (l.connection.buffer ++ chunks.flatten).length)) := by
  have hreset : l.Leads (l.withInput l.connection.decoder.reset l.connection.buffer) [] :=
    leads_withInput l l.connection.buffer rfl
  have hlines : Ends (readReply phase) l _ _ := ends_readLines phase 0 [] _
  apply hlines.mono
  · rintro lines l' ⟨chunks, hl, hblocks⟩
    exact ⟨chunks, hreset.trans hl, hblocks⟩
  · rintro h l' ⟨chunks, hl, hd⟩
    exact ⟨chunks, hreset.trans hl, hd.mono fun n hn => hn.trans (Nat.zero_add _)⟩

theorem ends_readReply (phase : Phase) (l : Link) :
    Ends (readReply phase) l
      (fun lines l' => ∃ chunks : List (List UInt8), l.Leads l'
        (chunks.map (.received l.connection.socket.number) ++
          [.heard l.connection.socket.number lines]))
      (fun h l' => (∃ chunks : List (List UInt8), l.Leads l'
        (chunks.map (.received l.connection.socket.number) ++ h.trace)) ∧
          h.During phase fun _ => True) := by
  apply (ends_readReply_tally phase l).mono
  · rintro lines l' ⟨chunks, hl, -⟩
    exact ⟨chunks, hl⟩
  · rintro h l' ⟨chunks, hl, hd⟩
    exact ⟨⟨chunks, hl⟩, hd.mono fun _ _ => trivial⟩

/-! ## Writing -/

theorem leads_withSocket (l : Link) {s : Socket} (h : s.number = l.connection.socket.number) :
    l.Leads (l.withSocket s) [] :=
  ⟨.refl _, by simp, h, rfl, rfl, rfl, rfl⟩

theorem leads_taking (l : Link) (bytes : List UInt8) :
    l.Leads (if bytes.isEmpty then l else l.note (.sent l.connection.socket.number bytes))
      (Entry.taking l.connection.socket.number bytes) := by
  unfold Entry.taking
  split
  · exact .refl l
  · exact leads_note l rfl

/-- What is handed over is a beginning of what there is, and the rest comes back. -/
theorem leads_put (bytes : List UInt8) (l : Link) :
    ∃ taken, taken ++ (put bytes l).1 = bytes ∧
      l.Leads (put bytes l).2 (Entry.taking l.connection.socket.number taken) := by
  cases hr : l.connection.socket.writeRoom with
  | none =>
    simp only [put, hr]
    exact ⟨bytes, List.append_nil bytes, leads_taking l bytes⟩
  | some room =>
    have htaken := leads_taking l (bytes.take room)
    have h := htaken.trans (leads_withSocket _ (s := { l.connection.socket with
      writeRoom := some (room - bytes.length) }) htaken.number.symm)
    rw [List.append_nil] at h
    simp only [put, hr]
    exact ⟨bytes.take room, List.take_append_drop room bytes, h⟩

/-- When the wait for room is over, nothing but the room is another. -/
theorem leads_woken {timeout : Nat} {obstacle : Script} {bs : List UInt8} {l woken : Link}
    (hw : waitFor timeout obstacle l = .ok (some bs) woken) (drain : Drain) (later : List Drain) :
    l.Leads (woken.withSocket (woken.connection.socket.drained drain later)) [] :=
  ((ends_waitFor _ _ l).of_ok hw).1.trans (leads_withSocket woken rfl)

/-- Octets are written piece by piece.  If the write comes to a halt, some are left. -/
theorem ends_writeOn (phase : Phase) (sent limit : Nat) (drains : List Drain) (bytes : List UInt8)
    (l : Link) :
    Ends (writeOn phase sent limit drains bytes) l
      (fun _ l' => ∃ pieces : List (List UInt8), pieces.flatten = bytes ∧
        l.Leads l' (Entry.takings l.connection.socket.number pieces))
      (fun h l' => ∃ pieces : List (List UInt8), pieces.flatten <+: bytes ∧ pieces.flatten ≠ bytes ∧
        l.Leads l' (Entry.takings l.connection.socket.number pieces ++ h.trace) ∧
          h.During phase (· = sent)) := by
  unfold Ends
  -- A halt that comes while `b :: rest` is left.
  have hhalt : ∀ {l mid later : Link} {bytes rest : List UInt8} {b : UInt8} {h : Halt Fault},
      put bytes l = (b :: rest, mid) → mid.Leads later h.trace → h.During phase (· = sent) →
      ∃ pieces : List (List UInt8), pieces.flatten <+: bytes ∧ pieces.flatten ≠ bytes ∧
        l.Leads later (Entry.takings l.connection.socket.number pieces ++ h.trace) ∧
          h.During phase (· = sent) := by
    intro l mid later bytes rest b h hp hl hd
    obtain ⟨taken, htaken, hput⟩ := leads_put bytes l
    rw [hp] at htaken hput
    refine ⟨[taken], ⟨b :: rest, by simpa using htaken⟩, fun hall => ?_, ?_, hd⟩
    · simp [← htaken] at hall
    · simpa [Entry.takings] using hput.trans hl
  fun_induction writeOn phase sent limit drains bytes l with
  | case1 drains bytes l mid hp =>
    obtain ⟨taken, htaken, hput⟩ := leads_put bytes l
    rw [hp] at htaken hput
    exact ⟨[taken], by simpa using htaken, by simpa [Entry.takings] using hput⟩
  | case2 bytes l b rest mid hp bs woken hw =>
    rw [hw]
    exact hhalt (h := .failed (.network "write zero")) hp ((ends_waitFor _ _ mid).of_ok hw).1 trivial
  | case3 bytes l b rest mid hp bs woken drain later hw ih =>
    obtain ⟨taken, htaken, hput⟩ := leads_put bytes l
    rw [hp] at htaken hput
    -- What has been written so far, and the link on which the rest is.
    have hsofar := hput.trans (leads_woken hw drain later)
    rw [List.append_nil] at hsofar
    rw [hsofar.number] at ih
    rw [hw]
    have hrest : Ends (writeOn phase sent limit later (b :: rest)) _ _ _ := ih
    apply hrest.mono
    · rintro _ l' ⟨pieces, hpieces, hl⟩
      refine ⟨taken :: pieces, ?_, hsofar.trans hl⟩
      rw [List.flatten_cons, hpieces, htaken]
    · rintro h l' ⟨pieces, hprefix, hleft, hl, hd⟩
      refine ⟨taken :: pieces, ?_, fun hall => hleft ?_, ?_, hd⟩
      · rw [List.flatten_cons, ← htaken]
        exact (List.prefix_append_right_inj taken).mpr hprefix
      · rw [List.flatten_cons, ← htaken] at hall
        exact List.append_cancel_left hall
      · have hall := hsofar.trans hl
        rwa [← List.append_assoc] at hall
  | case4 drains bytes l b rest mid hp woken hw =>
    rw [hw]
    exact hhalt (h := .failed (.timeout phase sent)) hp ((ends_waitFor _ _ mid).of_ok hw).1 ⟨rfl, rfl⟩
  | case5 drains bytes l b rest mid hp halt woken hw =>
    obtain ⟨hl, hd⟩ := (ends_waitFor _ _ mid).of_error hw
    rw [hw]
    exact hhalt hp hl ((hd phase).mono (by simp))

/-- Likewise for a write from its beginning, which may find the call cancelled. -/
theorem ends_writeAll_tally (bytes : List UInt8) (phase : Phase) (sent : Nat) (l : Link) :
    Ends (writeAll bytes phase sent) l
      (fun _ l' => ∃ pieces : List (List UInt8), pieces.flatten = bytes ∧
        l.Leads l' (Entry.takings l.connection.socket.number pieces))
      (fun h l' => ∃ pieces : List (List UInt8), pieces.flatten <+: bytes ∧
        l.Leads l' (Entry.takings l.connection.socket.number pieces ++ h.trace) ∧
          h.During phase fun n => n = sent ∧ pieces.flatten ≠ bytes) := by
  unfold Ends writeAll
  by_cases hfired : l.net.isFired l.connection.token
  · rw [if_pos hfired]
    exact ⟨[], List.nil_prefix, leads_note l trivial, trivial⟩
  · rw [if_neg hfired]
    refine (ends_writeOn phase sent _ _ bytes l).mono (fun _ _ hl => hl) ?_
    rintro h l' ⟨pieces, hprefix, hleft, hl, hd⟩
    exact ⟨pieces, hprefix, hl, hd.mono fun n hn => ⟨hn, hleft⟩⟩

theorem ends_writeAll (bytes : List UInt8) (phase : Phase) (sent : Nat) (l : Link) :
    Ends (writeAll bytes phase sent) l
      (fun _ l' => ∃ pieces : List (List UInt8), pieces.flatten = bytes ∧
        l.Leads l' (Entry.takings l.connection.socket.number pieces))
      (fun h l' => (∃ pieces : List (List UInt8), pieces.flatten <+: bytes ∧
        l.Leads l' (Entry.takings l.connection.socket.number pieces ++ h.trace)) ∧
          h.During phase (· = sent)) := by
  refine (ends_writeAll_tally bytes phase sent l).mono (fun _ _ hl => hl) ?_
  rintro h l' ⟨pieces, hprefix, hl, hd⟩
  exact ⟨⟨pieces, hprefix, hl⟩, hd.mono fun _ hn => hn.1⟩

theorem ends_flush (phase : Phase) (sent : Nat) (l : Link) :
    Ends (flush phase sent) l
      (fun _ l' => l.Leads l' [.flushed l.connection.socket.number])
      (fun h l' => l.Leads l' h.trace ∧ h.During phase (· = sent)) := by
  let s := l.connection.socket
  let obstacle := if s.flushRoom = some 0 then s.flushFault else []
  have hwait := ends_wait obstacle l
  unfold Ends flush
  unfold Ends at hwait
  dsimp only
  cases hw : wait obstacle l with
  | error h later =>
    rw [hw] at hwait
    exact ⟨hwait.1, (hwait.2 phase).mono (by simp)⟩
  | ok o later =>
    rw [hw] at hwait
    cases o with
    | none => exact ⟨hwait.1, rfl, rfl⟩
    | some bs =>
      have hsocket := leads_withSocket later (s := { s with flushRoom := s.flushRoom.map (· - 1) })
        hwait.1.number.symm
      exact (hwait.1.trans hsocket).trans (leads_note _ rfl)

theorem ends_writeLine (bytes : List UInt8) (l : Link) :
    Ends (writeLine bytes) l
      (fun _ l' => ∃ pieces : List (List UInt8), pieces.flatten = bytes ∧
        l.Leads l' (Entry.takings l.connection.socket.number pieces ++
          [.flushed l.connection.socket.number]))
      (fun h l' => (∃ pieces : List (List UInt8), pieces.flatten <+: bytes ∧
        l.Leads l' (Entry.takings l.connection.socket.number pieces ++ h.trace)) ∧
          h.During .reply fun _ => True) := by
  simp only [writeLine, ends_bind]
  refine (ends_writeAll bytes .reply 0 l).mono ?_ fun h l' hl => ⟨hl.1, hl.2.mono fun _ _ => trivial⟩
  rintro _ mid ⟨pieces, rfl, hmid⟩
  refine (ends_flush .reply pieces.flatten.length mid).mono (fun _ l' hl => ?_) fun h l' hl => ?_
  · rw [hmid.number] at hl
    exact ⟨pieces, rfl, hmid.trans hl⟩
  · exact ⟨⟨pieces, List.prefix_refl _, hmid.trans hl.1⟩, hl.2.mono fun _ _ => trivial⟩

end Link

end MailSubmission
