import MailSubmission.Proofs.BodyDelivery
import MailSubmission.Proofs.ReplyScanning
import MailSubmission.Reply.Octets

set_option autoImplicit false

/-!
# Replies do not depend on how they arrive

A connection reads a reply piece by piece and looks ahead no further than its buffer reaches;
`ReplyLine.decode` has all the octets at once.  As long as no line that ends a reply stands
before the end of what arrives, both come to the same (`Link.readReply_eq_decode`), however the
octets are divided.
-/

namespace MailSubmission

/-! ## Octets that come in time -/

/-- When a source has been read to its end, if it is read without pause, from the second
number on and the first time until the first; nothing if a read fails or takes longer than
`timeout`. -/
def Script.endsAt? (timeout : Nat) : Nat → Nat → Script → Option Nat
  | _, now, [] => some now
  | _, now, .data bs :: rest =>
    if bs = [] then some now else endsAt? timeout (now + timeout) now rest
  | limit, now, .delay ms :: rest =>
    if now + ms ≤ max limit now then endsAt? timeout limit (now + ms) rest else none
  | limit, now, .due t :: rest =>
    if t ≤ max limit now then endsAt? timeout limit (max now t) rest else none
  | _, _, _ => none

theorem Script.le_of_endsAt? {timeout limit now t : Nat} {source : Script}
    (h : source.endsAt? timeout limit now = some t) : now ≤ t := by
  induction source generalizing limit now with
  | nil =>
    simp only [endsAt?, Option.some.injEq] at h
    exact Nat.le_of_eq h
  | cons e rest ih =>
    cases e with
    | data bs =>
      simp only [endsAt?] at h
      split at h
      · simp only [Option.some.injEq] at h
        exact Nat.le_of_eq h
      · exact ih h
    | delay ms =>
      simp only [endsAt?] at h
      split at h
      · exact Nat.le_trans (Nat.le_add_right now ms) (ih h)
      · exact absurd h (by simp)
    | due t =>
      simp only [endsAt?] at h
      split at h
      · exact Nat.le_trans (Nat.le_max_left now t) (ih h)
      · exact absurd h (by simp)
    | hang => simp [endsAt?] at h
    | error text => simp [endsAt?] at h
    | cancel => simp [endsAt?] at h

namespace Network

variable {net : Network} {token : Token} {t u : Nat}

/-- A read of a source that ends in time, with a limit of its own: it is answered, or its
limit comes first and the source still ends in time. -/
theorem await_before {timeout limit : Nat} (room early : Nat) {source : Script}
    (h : source.endsAt? timeout limit net.now = some u) (hq : net.Quiet token t) (hu : u ≤ t) :
    ∃ arrival rest later, await token early room source net = (arrival, rest, later) ∧
      later.Quiet token t ∧
      ((∃ bs, arrival = .ready bs ∧
          (bs ≠ [] → rest.endsAt? timeout (later.now + timeout) later.now = some u) ∧
          (0 < room → bs = [] → later.now = u)) ∨
        (arrival = .cutOff .timedOut ∧ rest.endsAt? timeout limit later.now = some u ∧
          early ≤ later.now ∧ early < limit)) := by
  induction source generalizing net with
  | nil =>
    simp only [Script.endsAt?, Option.some.injEq] at h
    exact ⟨_, [], net, rfl, hq, .inl ⟨[], rfl, fun hn => absurd rfl hn, fun _ _ => h⟩⟩
  | cons e rest ih =>
    cases e with
    | data bs =>
      simp only [Script.endsAt?] at h
      by_cases hlen : bs.length ≤ room
      · refine ⟨_, rest, net, by rw [await, if_pos hlen], hq, .inl ⟨bs, rfl, fun hn => ?_,
          fun _ he => ?_⟩⟩
        · rwa [if_neg hn] at h
        · rw [if_pos he, Option.some.injEq] at h
          exact h
      · refine ⟨_, .data (bs.drop room) :: rest, net, by rw [await, if_neg hlen], hq,
          .inl ⟨bs.take room, rfl, fun _ => ?_, fun hroom he => ?_⟩⟩
        · have hbs : bs ≠ [] := by
            rintro rfl
            exact hlen (Nat.zero_le room)
          have hdrop : bs.drop room ≠ [] := by
            rw [Ne, List.drop_eq_nil_iff]
            exact hlen
          rw [Script.endsAt?, if_neg hdrop]
          rwa [if_neg hbs] at h
        · rw [List.take_eq_nil_iff] at he
          rcases he with he | rfl
          · omega
          · exact absurd (Nat.zero_le room) hlen
    | delay ms =>
      simp only [Script.endsAt?] at h
      split at h
      · rename_i hlimit
        have hms := Nat.le_trans (Script.le_of_endsAt? h) hu
        by_cases hearly : net.now + ms ≤ max early net.now
        · obtain ⟨later, hs, hnow, hquiet⟩ := sleepWithin_of_quiet hq hms hearly
          rw [Nat.max_eq_right (Nat.le_add_right net.now ms)] at hnow
          rw [← hnow] at h
          simp only [await, hs]
          exact ih h hquiet
        · obtain ⟨later, hs, hnow, hquiet⟩ := sleepUntil_of_quiet hq (show early ≤ t by omega)
          simp only [await, sleepWithin, if_neg hearly, hs]
          refine ⟨_, _, later, rfl, hquiet, .inr ⟨rfl, ?_, by omega, by omega⟩⟩
          rw [Script.endsAt?, if_pos (by omega), Nat.max_eq_right (by omega)]
          exact h
      · exact absurd h (by simp)
    | due due =>
      simp only [Script.endsAt?] at h
      split at h
      · rename_i hlimit
        have hdue : due ≤ t := by
          have := Script.le_of_endsAt? h
          omega
        by_cases hearly : due ≤ max early net.now
        · obtain ⟨later, hs, hnow, hquiet⟩ := sleepWithin_of_quiet hq hdue hearly
          rw [← hnow] at h
          simp only [await, hs]
          exact ih h hquiet
        · obtain ⟨later, hs, hnow, hquiet⟩ := sleepUntil_of_quiet hq (show early ≤ t by omega)
          simp only [await, sleepWithin, if_neg hearly, hs]
          refine ⟨_, _, later, rfl, hquiet, .inr ⟨rfl, ?_, by omega, by omega⟩⟩
          rw [Script.endsAt?, if_pos (by omega)]
          rwa [Nat.max_eq_right (by omega)] at h ⊢
      · exact absurd h (by simp)
    | hang => simp [Script.endsAt?] at h
    | error text => simp [Script.endsAt?] at h
    | cancel => simp [Script.endsAt?] at h

end Network

/-! ## What a reply comes to -/

/-- What a call comes to, whatever state it leaves. -/
def Run.answer {ε σ α : Type} (act : Run ε σ α) (s : σ) : Except (Halt ε) α :=
  match act s with
  | .ok a _ => .ok a
  | .error halt _ => .error halt

namespace Decoder

open RawLine (complete unfinished)

/-- What a scan comes to if nothing follows. -/
def Scan.verdict : Scan → Except Fault (List ReplyLine)
  | .complete lines _ _ => .ok lines
  | .more _ _ => .error .connectionClosed
  | .thrashing seen _ _ => .error (.replyThrashing seen)

theorem decode_eq_verdict (tolerance : Nat) (octets : List UInt8) :
    ReplyLine.decode tolerance octets = ((ofTolerance tolerance).scan [] octets).verdict := by
  unfold ReplyLine.decode
  cases (ofTolerance tolerance).scan [] octets <;> rfl

variable {t k : Nat} {line : RawLine} {lines : List ReplyLine}

/-- While no line ends a reply, a scan does not depend on what follows. -/
theorem scan_open (lines : List ReplyLine) {octets : List UInt8} (hk : (inside t k line).deviations ≤ t)
    (hopen : ∀ l ∈ complete line octets, l.endsReply = false) :
    (∃ left, ∀ more, (inside t k line).scan lines (octets ++ more) =
        .thrashing (t + 1) (ofTolerance t) (left ++ more)) ∨
      ∃ lines' k', (inside t k' (unfinished line octets)).deviations ≤ t ∧
        ∀ more, (inside t k line).scan lines (octets ++ more) =
          (inside t k' (unfinished line octets)).scan lines' more := by
  induction octets generalizing line k lines with
  | nil => exact .inr ⟨lines, k, hk, fun _ => rfl⟩
  | cons b rest ih =>
    by_cases hlf : b = lf
    · subst hlf
      simp only [complete, unfinished, if_true, List.mem_cons, forall_eq_or_imp] at hopen ⊢
      obtain ⟨hline, hopen⟩ := hopen
      by_cases hle : k + line.toll ≤ t
      · have hnext : (inside t (k + line.toll) []).deviations ≤ t := hle
        cases hblank : line.isBlank with
        | true =>
          simp only [List.cons_append, scan_lf_of_blank _ hk hle hblank]
          exact ih _ hnext hopen
        | false =>
          have hdashed : line.isDashed = true := by
            simpa [RawLine.endsReply, hblank] using hline
          simp only [List.cons_append, scan_lf_of_dashed _ hk hle hblank hdashed]
          exact ih _ hnext hopen
      · exact .inl ⟨rest, fun more => scan_lf_of_lt _ hk (Nat.lt_of_not_le hle)⟩
    · simp only [complete, unfinished, if_neg hlf] at hopen ⊢
      by_cases hle : (inside t k (line ++ [b])).deviations ≤ t
      · simp only [List.cons_append, scan_octet _ hk hlf, if_pos hle]
        exact ih _ hle hopen
      · refine .inl ⟨rest, fun more => ?_⟩
        rw [List.cons_append, scan_octet _ hk hlf, if_neg hle]

variable {lines' : List ReplyLine} {d : Decoder} {octets : List UInt8}

/-- A scan that wants more octets goes on with them where it was left. -/
theorem scan_open_of_more (hk : (inside t k line).deviations ≤ t)
    (hopen : ∀ l ∈ complete line octets, l.endsReply = false)
    (hscan : (inside t k line).scan lines octets = .more lines' d) :
    ∃ k', d = inside t k' (unfinished line octets) ∧ d.deviations ≤ t ∧
      ∀ more, (inside t k line).scan lines (octets ++ more) = d.scan lines' more := by
  rcases scan_open lines hk hopen with ⟨left, hstops⟩ | ⟨lines'', k', hk', hgoes⟩
  · have h := hstops []
    rw [List.append_nil, hscan] at h
    exact absurd h (by simp)
  · have h := hgoes []
    rw [List.append_nil, hscan, scan, Scan.more.injEq] at h
    obtain ⟨rfl, rfl⟩ := h
    exact ⟨k', rfl, hk', hgoes⟩

/-- A scan that comes to an end comes to the same, whatever follows. -/
theorem verdict_append (more : List UInt8) (hk : (inside t k line).deviations ≤ t)
    (hopen : more ≠ [] → ∀ l ∈ complete line octets, l.endsReply = false)
    (hends : ∀ lines' d, (inside t k line).scan lines octets ≠ .more lines' d) :
    ((inside t k line).scan lines (octets ++ more)).verdict =
      ((inside t k line).scan lines octets).verdict := by
  rcases eq_or_ne more [] with rfl | hmore
  · rw [List.append_nil]
  · rcases scan_open lines hk (hopen hmore) with ⟨left, hstops⟩ | ⟨lines', k', -, hgoes⟩
    · have hnothing := hstops []
      rw [List.append_nil] at hnothing
      rw [hstops, hnothing]
      rfl
    · have hnothing := hgoes []
      rw [List.append_nil] at hnothing
      exact absurd hnothing (hends _ _)

end Decoder

/-! ## Reading -/

/-- How long a connection goes on trying to read. -/
def Connection.patience (c : Connection) : Nat := (c.readRetries + 1) * c.timeout

/-- A source that is given up at a limit keeps what it hands over. -/
theorem content_await_of_cutOff {token : Token} {limit room : Nat} {source rest : Script}
    {net later : Network} {cut : Network.Cut}
    (h : Network.await token limit room source net = (.cutOff cut, rest, later)) :
    source.content = rest.content := by
  induction source generalizing net with
  | nil => simp [Network.await] at h
  | cons e tail ih =>
    cases e with
    | data ds =>
      simp only [Network.await] at h
      split at h <;> simp at h
    | error text => simp [Network.await] at h
    | cancel => exact ih h
    | hang =>
      simp only [Network.await] at h
      split at h
      · simp only [Prod.mk.injEq] at h
        rw [← h.2.1]
      · simp only [Prod.mk.injEq] at h
        rw [← h.2.1]
    | due t =>
      simp only [Network.await] at h
      split at h
      · exact ih h
      · simp only [Prod.mk.injEq] at h
        rw [← h.2.1]
    | delay ms =>
      simp only [Network.await] at h
      split at h
      · exact ih h
      · simp only [Prod.mk.injEq] at h
        rw [← h.2.1]
        rfl

namespace Link

open Run Decoder RawLine

/-- The link after its socket has been read, up to where `reads` begins. -/
def behindReads (l : Link) (reads : Script) (net : Network) : Link :=
  { connection := { l.connection with socket := { l.connection.socket with reads } }, net }

/-- What is still to be read comes in time, the last of it at `u`, if the first of it comes
until `limit`; nobody cancels the waits for it or drops the call. -/
structure InTime (l : Link) (limit u : Nat) : Prop where
  ends : l.connection.socket.reads.endsAt? l.connection.patience limit l.net.now = some u
  quiet : l.net.Quiet l.connection.token u

variable {l : Link} {limit u : Nat}

theorem read_of_inTime (h : l.InTime limit u) :
    (∃ bs reads net, read l = .ok (some bs) (l.behindReads reads net) ∧
      (bs ≠ [] → (l.behindReads reads net).InTime (net.now + l.connection.patience) u) ∧
      l.connection.socket.reads.content = if bs = [] then [] else bs ++ reads.content) ∨
    ∃ reads net, read l = .ok none (l.behindReads reads net) ∧
      (l.behindReads reads net).InTime limit u ∧ l.net.now + l.connection.timeout ≤ net.now ∧
      l.net.now + l.connection.timeout < limit ∧
      l.connection.socket.reads.content = reads.content := by
  obtain ⟨arrival, reads, net, hawait, hquiet, harrival⟩ :=
    Network.await_before readRoom (l.net.now + l.connection.timeout) h.ends h.quiet
      (Nat.le_refl u)
  have hbounded : l.net.bounded l.connection.token l.connection.timeout readRoom
      l.connection.socket.reads = (arrival, reads, net.noteCut arrival) := by
    unfold Network.bounded
    rw [if_neg (by rw [h.quiet.unfired]; exact Bool.false_ne_true), hawait]
  rcases harrival with ⟨bs, rfl, hrest, -⟩ | ⟨rfl, hrest, hle, hlt⟩
  · left
    refine ⟨bs, reads, net.note (.received l.connection.socket.number bs), ?_,
      fun hbs => ⟨hrest hbs, hquiet.note _⟩, content_await (by decide) hawait⟩
    unfold read
    dsimp only
    rw [hbounded]
    rfl
  · right
    refine ⟨reads, net, ?_, ⟨hrest, hquiet⟩, hle, hlt, content_await_of_cutOff hawait⟩
    unfold read
    dsimp only
    rw [hbounded]
    rfl

theorem fill_of_inTime (phase : Phase) (transferred : Nat) {retries : Nat}
    (h : l.InTime limit u) (hlimit : limit ≤ l.net.now + (retries + 1) * l.connection.timeout) :
    ∃ bs reads net, fill phase transferred retries l = .ok bs (l.behindReads reads net) ∧
      (bs ≠ [] → (l.behindReads reads net).InTime (net.now + l.connection.patience) u) ∧
      l.connection.socket.reads.content = if bs = [] then [] else bs ++ reads.content := by
  induction retries generalizing l with
  | zero =>
    rcases read_of_inTime h with ⟨bs, reads, net, hread, hnext, hcontent⟩ | ⟨-, -, -, -, -, hlt, -⟩
    · exact ⟨bs, reads, net, bind_of_ok hread, hnext, hcontent⟩
    · omega
  | succ retries ih =>
    rcases read_of_inTime h with ⟨bs, reads, net, hread, hnext, hcontent⟩ |
      ⟨reads, net, hread, hnext, hle, -, hcontent⟩
    · exact ⟨bs, reads, net, bind_of_ok hread, hnext, hcontent⟩
    · have hlimit' : limit ≤ net.now + (retries + 1) * l.connection.timeout := by
        rw [Nat.add_mul, Nat.one_mul] at hlimit
        omega
      obtain ⟨bs, reads', net', hfill, hnext', hcontent'⟩ := ih hnext hlimit'
      exact ⟨bs, reads', net', (bind_of_ok hread).trans hfill, hnext', hcontent.trans hcontent'⟩

/-- While octets are still to come, no line in the buffer ends a reply. -/
theorem open_buffer {begun : RawLine} {buffer content : List UInt8} (hcontent : content ≠ [])
    (hopen : ∀ line ∈ complete begun (buffer ++ content).dropLast, line.endsReply = false) :
    (∀ line ∈ complete begun buffer, line.endsReply = false) ∧
      ∀ line ∈ complete (unfinished begun buffer) content.dropLast, line.endsReply = false := by
  rw [List.dropLast_append_of_ne_nil hcontent, complete_append] at hopen
  exact ⟨fun line hline => hopen line (List.mem_append_left _ hline),
    fun line hline => hopen line (List.mem_append_right _ hline)⟩

/-- Without a line that ends a reply before the end, reading on comes to what a scan of all
the octets does. -/
theorem readLines_of_inTime (phase : Phase) (transferred : Nat) (lines : List ReplyLine)
    {t k : Nat} (begun : RawLine) (hdecoder : l.connection.decoder = inside t k begun)
    (hk : (inside t k begun).deviations ≤ t)
    (hin : l.InTime (l.net.now + l.connection.patience) u)
    (hopen : ∀ line ∈ complete begun
      (l.connection.buffer ++ l.connection.socket.reads.content).dropLast, line.endsReply = false) :
    answer (readLines phase transferred lines) l =
      ((inside t k begun).scan lines
        (l.connection.buffer ++ l.connection.socket.reads.content)).verdict.mapError .failed := by
  unfold answer
  have hbuffer := fun hmore => (open_buffer hmore hopen).1
  fun_induction readLines phase transferred lines l generalizing k begun with
  | case1 transferred lines l lines' decoder buffer hscan =>
    rw [hdecoder] at hscan
    rw [verdict_append _ hk hbuffer (by simp [hscan]), hscan]
    rfl
  | case2 transferred lines l seen decoder buffer hscan =>
    rw [hdecoder] at hscan
    rw [verdict_append _ hk hbuffer (by simp [hscan]), hscan]
    rfl
  | case3 transferred lines l lines' decoder hscan transferred' halt later =>
    rename_i hfill
    obtain ⟨bs, reads, net, hok, -⟩ := fill_of_inTime (l := l.withInput decoder []) phase
      (transferred + l.connection.buffer.length) ⟨hin.ends, hin.quiet⟩ (Nat.le_refl _)
    exact absurd (hok.symm.trans hfill) (by simp)
  | case4 transferred lines l lines' decoder hscan transferred' later =>
    rename_i hfill
    obtain ⟨bs, reads, net, hok, -, hcontent⟩ := fill_of_inTime (l := l.withInput decoder []) phase
      (transferred + l.connection.buffer.length) ⟨hin.ends, hin.quiet⟩ (Nat.le_refl _)
    obtain ⟨rfl, -⟩ := EStateM.Result.ok.inj (hok.symm.trans hfill)
    have hnil : l.connection.socket.reads.content = [] := hcontent
    rw [hdecoder] at hscan
    rw [hnil, List.append_nil, hscan]
    rfl
  | case5 transferred lines l lines' decoder hscan transferred' b bs later =>
    rename_i hfill ih
    obtain ⟨got, reads, net, hok, hnext, hcontent⟩ := fill_of_inTime
      (l := l.withInput decoder []) phase (transferred + l.connection.buffer.length)
      ⟨hin.ends, hin.quiet⟩ (Nat.le_refl _)
    obtain ⟨rfl, rfl⟩ := EStateM.Result.ok.inj (hok.symm.trans hfill)
    rw [if_neg (List.cons_ne_nil b bs)] at hcontent
    have hcontent' : l.connection.socket.reads.content = (b :: bs) ++ reads.content := hcontent
    have hmore : l.connection.socket.reads.content ≠ [] := by
      rw [hcontent']
      simp
    rw [hdecoder] at hscan
    obtain ⟨k', rfl, hk', hgoes⟩ := scan_open_of_more hk (hbuffer hmore) hscan
    have hrest := (open_buffer hmore hopen).2
    rw [hcontent'] at hrest
    have hnext' := hnext (List.cons_ne_nil b bs)
    rw [hgoes, hcontent']
    exact ih _ rfl hk' ⟨hnext'.ends, hnext'.quiet⟩ hrest fun hmore => (open_buffer hmore hrest).1

/-- Replies do not depend on how they arrive.  If the octets `s` come in time over a fresh
connection, divided in whatever way and followed by the end, and no line that ends a reply is
complete before the last of them, then reading a reply comes to what decoding `s` does: the
same lines, the same count of deviations, or the report that the connection is closed. -/
theorem readReply_eq_decode (phase : Phase) {socket : Socket} {settings : ClientSettings}
    {token : Token} {net : Network} {s : List UInt8}
    (hreads : socket.reads.content = s)
    (hopen : ∀ line ∈ complete [] s.dropLast, line.endsReply = false)
    (hin : InTime ⟨.ofSocket socket settings token, net⟩
      (net.now + (settings.readRetries + 1) * settings.timeout) u) :
    answer (readReply phase) ⟨.ofSocket socket settings token, net⟩ =
      (ReplyLine.decode settings.tolerance s).mapError .failed := by
  subst hreads
  have hlines := readLines_of_inTime phase 0 [] (k := 0) []
    (l := withInput ⟨.ofSocket socket settings token, net⟩ (.ofTolerance settings.tolerance) [])
    rfl (Nat.zero_le _) ⟨hin.ends, hin.quiet⟩ hopen
  rw [decode_eq_verdict]
  exact hlines

/-- A code, a line end and a text that are divided, a read that comes at the second try, and a
garbled code. -/
theorem readReply_eq_decode_divided :
    let socket : Socket :=
      { reads := [.data [50], .delay 15, .data [53, 48, 45, 97, 13], .data [10, 50, 53, 120, 32],
          .data [98, 13, 10]] }
    let settings : ClientSettings := { timeout := 10, readRetries := 1, tolerance := 1 }
    let l : Link := ⟨.ofSocket socket settings {}, {}⟩
    l.InTime 20 15 ∧
      answer (readReply .reply) l = .ok [⟨250, "a", false, false⟩, ⟨250, "b", true, true⟩] := by
  intro socket settings l
  have hin : l.InTime 20 15 :=
    ⟨by decide, ⟨by decide, fun a ha => absurd ha List.not_mem_nil, fun d hd => absurd hd (by simp [l])⟩⟩
  exact ⟨hin, (readReply_eq_decode .reply rfl (by decide) hin).trans rfl⟩

end Link

end MailSubmission
