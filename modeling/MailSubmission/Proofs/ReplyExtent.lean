import Mathlib.Algebra.Ring.Nat
import MailSubmission.Proofs.ReplyScanning
import MailSubmission.Reply.Octets

set_option autoImplicit false

/-!
# How far a reply goes

The first reply in some octets ends with the first line that is more than blank, has no dash,
and is not followed by octets that repeat its code (`RawLine.extent`).  A decoder has no say in
this: it reports the lines up to there, unless they cost more than its tolerance bears, in which
case it gives up (`ReplyLine.decode_eq`).  So a greater tolerance changes no answer but the one
that the tolerance was exceeded (`ReplyLine.decode_under_more_tolerance`).
-/

namespace MailSubmission

open Decoder (cr lf)

namespace RawLine

theorem endsReply_iff {line : RawLine} :
    line.endsReply = true ↔ line.isBlank = false ∧ line.isDashed = false := by
  rw [endsReply, Bool.and_eq_true, Bool.not_eq_true', Bool.not_eq_true']

/-! ## The lines of the first reply -/

/-- How far the first reply in some octets goes. -/
inductive Extent where
  /-- to its end: the lines that it goes on behind, the line that ends it, and the octets that
  are left -/
  | whole (before : List RawLine) (final : RawLine) (rest : List UInt8)
  /-- to the end of the octets: the lines that it goes on behind, and what came in of the next -/
  | part (before : List RawLine) (begun : RawLine)

/-- The extent with a line ahead that the reply goes on behind. -/
def Extent.behind (line : RawLine) : Extent → Extent
  | .whole before final rest => .whole (line :: before) final rest
  | .part before begun => .part (line :: before) begun

/-- How far the first reply in some octets goes, where `begun` came in before.  A line that is
more than blank and has no dash ends the reply, unless the octets behind it repeat its code. -/
def extent (begun : RawLine) : List UInt8 → Extent
  | [] => .part [] begun
  | b :: rest =>
    if b = lf then
      if begun.endsReply && !Decoder.repeats begun.code rest then .whole [] begun rest
      else (extent [] rest).behind begun
    else extent (begun ++ [b]) rest

theorem extent_octet {b : UInt8} (begun : RawLine) (rest : List UInt8) (hlf : b ≠ lf) :
    extent begun (b :: rest) = extent (begun ++ [b]) rest := by
  rw [extent, if_neg hlf]

/-- A line that ends the reply. -/
theorem extent_lf_of_final {begun : RawLine} {rest : List UInt8} (hends : begun.endsReply = true)
    (hrepeats : Decoder.repeats begun.code rest = false) :
    extent begun (lf :: rest) = .whole [] begun rest := by
  rw [extent, if_pos rfl, hends, hrepeats]
  exact if_pos rfl

/-- A line that the reply goes on behind. -/
theorem extent_lf_of_goesOn {begun : RawLine} {rest : List UInt8}
    (h : begun.endsReply = true → Decoder.repeats begun.code rest = true) :
    extent begun (lf :: rest) = (extent [] rest).behind begun := by
  rw [extent, if_pos rfl]
  cases hends : begun.endsReply with
  | false => exact if_neg Bool.false_ne_true
  | true =>
    rw [h hends]
    exact if_neg Bool.false_ne_true

/-- A complete reply takes up the octets in front of those that are left, and these octets are its
lines. -/
theorem of_extent_eq_whole {begun final : RawLine} {before : List RawLine}
    {octets rest : List UInt8} (h : extent begun octets = .whole before final rest) :
    (∃ consumed, octets = consumed ++ rest ∧ complete begun consumed = before ++ [final] ∧
      unfinished begun consumed = []) ∧
    final.endsReply = true := by
  induction octets generalizing begun before with
  | nil => simp [extent] at h
  | cons b tail ih =>
    by_cases hlf : b = lf
    · subst hlf
      rw [extent, if_pos rfl] at h
      split at h
      · rename_i hends
        obtain ⟨rfl, rfl, rfl⟩ := h
        rw [Bool.and_eq_true] at hends
        exact ⟨⟨[lf], rfl, by simp [complete], by simp [unfinished]⟩, hends.1⟩
      · cases hextent : extent [] tail with
        | part lines line => simp [hextent, Extent.behind] at h
        | whole lines last left =>
          rw [hextent, Extent.behind] at h
          obtain ⟨rfl, rfl, rfl⟩ := h
          obtain ⟨⟨consumed, rfl, hcomplete, hunfinished⟩, hends⟩ := ih hextent
          exact ⟨⟨lf :: consumed, rfl, by simp [complete, hcomplete],
            by simp [unfinished, hunfinished]⟩, hends⟩
    · rw [extent_octet begun tail hlf] at h
      obtain ⟨⟨consumed, rfl, hcomplete, hunfinished⟩, hends⟩ := ih h
      exact ⟨⟨b :: consumed, rfl, by simp [complete, hlf, hcomplete],
        by simp [unfinished, hlf, hunfinished]⟩, hends⟩

/-- The line as it is reported if the reply goes on behind it: without a dash it is broken, since
its dash was dropped. -/
def within (line : RawLine) : ReplyLine where
  code := line.code
  text := Text.Utf8.decodeLossy line.text
  broken := line.isMalformed || !line.isDashed
  last := false

/-- What is reported of lines that the reply goes on behind. -/
def reported (before : List RawLine) : List ReplyLine :=
  (before.filter (!·.isBlank)).map within

theorem reported_append (before more : List RawLine) :
    reported (before ++ more) = reported before ++ reported more := by
  rw [reported, List.filter_append, List.map_append]
  rfl

/-- What the octets come to if nothing is charged. -/
def Extent.answer : Extent → Except Fault (List ReplyLine)
  | .whole before final _ => .ok (reported before ++ [final.read])
  | .part _ _ => .error .connectionClosed

/-- What the octets are charged: the toll of each line, one deviation for each line that would have
ended the reply, and what is known of a line that is not complete. -/
def Extent.cost : Extent → Nat
  | .whole before final _ => ((before ++ [final]).map toll).sum + before.countP endsReply
  | .part before begun => (before.map toll).sum + before.countP endsReply + begun.charges

theorem Extent.cost_behind (line : RawLine) (e : Extent) :
    (e.behind line).cost = line.toll + line.endsReply.toNat + e.cost := by
  cases e <;> cases h : line.endsReply <;> simp [behind, cost, h] <;> omega

theorem toll_le_cost (begun : RawLine) (rest : List UInt8) :
    begun.toll ≤ (extent begun (lf :: rest)).cost := by
  rw [extent, if_pos rfl]
  split
  · simp [Extent.cost]
  · rw [Extent.cost_behind, Nat.add_assoc]
    exact Nat.le_add_right _ _

/-- What has come in of a line is charged whatever follows. -/
theorem charges_le_cost (begun : RawLine) (octets : List UInt8) :
    begun.charges ≤ (extent begun octets).cost := by
  induction octets generalizing begun with
  | nil => exact Nat.le_add_left _ _
  | cons b rest ih =>
    by_cases hlf : b = lf
    · subst hlf
      exact Nat.le_trans begun.charges_le_toll (toll_le_cost begun rest)
    · rw [extent_octet begun rest hlf]
      have hgrows := Decoder.deviations_append 0 0 begun b
      simp only [Decoder.inside, Nat.zero_add] at hgrows
      exact Nat.le_trans hgrows (ih (begun ++ [b]))

end RawLine

namespace Decoder

open RawLine

variable {t k k' : Nat} {line : RawLine} {lines lines' : List ReplyLine} {e : Extent} {s : Scan}

/-! ## A scan and the extent of what it scans -/

/-- A scan, with `lines` reported and `k` charged before, comes to what the extent of its octets
says. -/
def Scan.Follows (t k : Nat) (lines : List ReplyLine) (e : Extent) : Scan → Prop
  | .complete lines' d rest => ∃ before final, e = .whole before final rest ∧ k + e.cost ≤ t ∧
      lines' = lines.reverse ++ (reported before ++ [final.read]) ∧ d.deviations = k + e.cost
  | .more _ _ => (∃ before begun, e = .part before begun) ∧ k + e.cost ≤ t
  | .thrashing seen _ _ => seen = t + 1 ∧ t < k + e.cost

/-- A line that the reply goes on behind is charged and reported first. -/
theorem Scan.Follows.behind (h : s.Follows t k' lines' e)
    (hk' : k' = k + line.toll + line.endsReply.toNat)
    (hlines' : lines'.reverse = lines.reverse ++ reported [line]) :
    s.Follows t k lines (e.behind line) := by
  have hcost : k + (e.behind line).cost = k' + e.cost := by
    rw [Extent.cost_behind, hk']
    omega
  cases s with
  | complete reports d rest =>
    obtain ⟨before, final, rfl, hle, rfl, hd⟩ := h
    refine ⟨line :: before, final, rfl, hcost ▸ hle, ?_, hcost ▸ hd⟩
    rw [hlines', List.append_assoc, ← List.append_assoc (reported [line]), ← reported_append,
      List.singleton_append]
  | more reports d =>
    obtain ⟨⟨before, begun, rfl⟩, hle⟩ := h
    exact ⟨⟨line :: before, begun, rfl⟩, hcost ▸ hle⟩
  | thrashing seen d rest =>
    exact ⟨h.1, hcost ▸ h.2⟩

theorem reported_blank (hblank : line.isBlank = true) : reported [line] = [] := by
  simp [reported, hblank]

theorem reported_shown (hblank : line.isBlank = false) : reported [line] = [line.within] := by
  simp [reported, hblank]

theorem read_of_dashed (hdashed : line.isDashed = true) : line.read = line.within := by
  simp [RawLine.read, within, hdashed]

theorem reopened_eq_within (hdashed : line.isDashed = false) : reopened line = line.within := by
  simp [reopened, RawLine.read, within, hdashed]

/-- The step at the end of a line that ends the reply, if its code is not repeated. -/
theorem scan_lf_follows_of_ends (lines : List ReplyLine) (rest : List UInt8)
    (hk : (inside t k line).deviations ≤ t) (hle : k + line.toll ≤ t)
    (hends : line.endsReply = true)
    (hnext : ∀ {k' : Nat} {lines' : List ReplyLine}, k' ≤ t →
      ((inside t k' []).scan lines' rest).Follows t k' lines' (extent [] rest)) :
    ((inside t k line).scan lines (lf :: rest)).Follows t k lines (extent line (lf :: rest)) := by
  obtain ⟨hblank, hdashed⟩ := endsReply_iff.mp hends
  cases hrepeats : repeats line.code rest with
  | false =>
    have hcost : (Extent.whole [] line rest).cost = line.toll := by simp [Extent.cost]
    rw [scan_lf_of_final _ lines hk hle hends hrepeats, extent_lf_of_final hends hrepeats]
    exact ⟨[], line, rfl, hcost.symm ▸ hle, by simp [reported], by rw [hcost]⟩
  | true =>
    rw [scan_lf_of_repeats _ hk hle hends hrepeats, extent_lf_of_goesOn fun _ => hrepeats]
    by_cases hlt : k + line.toll + 1 ≤ t
    · rw [if_pos hlt]
      exact (hnext hlt).behind (by simp [hends])
        (by simp [reported_shown hblank, reopened_eq_within hdashed])
    · rw [if_neg hlt]
      refine ⟨rfl, ?_⟩
      rw [Extent.cost_behind, hends, Bool.toNat_true]
      omega

/-- The step at a line feed: the line is charged, and unless it ends the reply, what follows is
scanned with its charge and its report behind it. -/
theorem scan_lf_follows (lines : List ReplyLine) (rest : List UInt8)
    (hk : (inside t k line).deviations ≤ t)
    (hnext : ∀ {k' : Nat} {lines' : List ReplyLine}, k' ≤ t →
      ((inside t k' []).scan lines' rest).Follows t k' lines' (extent [] rest)) :
    ((inside t k line).scan lines (lf :: rest)).Follows t k lines (extent line (lf :: rest)) := by
  by_cases hle : k + line.toll ≤ t
  · cases hends : line.endsReply with
    | true => exact scan_lf_follows_of_ends lines rest hk hle hends hnext
    | false =>
      rw [extent_lf_of_goesOn (by simp [hends])]
      cases hblank : line.isBlank with
      | true =>
        rw [scan_lf_of_blank _ hk hle hblank]
        exact (hnext hle).behind (by simp [hends]) (by simp [reported_blank hblank])
      | false =>
        have hdashed : line.isDashed = true := by simpa [endsReply, hblank] using hends
        rw [scan_lf_of_dashed _ hk hle hblank hdashed]
        exact (hnext hle).behind (by simp [hends])
          (by simp [reported_shown hblank, read_of_dashed hdashed])
  · rw [scan_lf_of_lt _ hk (Nat.lt_of_not_le hle)]
    have htoll := toll_le_cost line rest
    exact ⟨rfl, by omega⟩

/-- A scan comes to what the extent of its octets says. -/
theorem scan_follows (lines : List ReplyLine) (octets : List UInt8)
    (hk : (inside t k line).deviations ≤ t) :
    ((inside t k line).scan lines octets).Follows t k lines (extent line octets) := by
  induction octets generalizing line k lines with
  | nil =>
    have hcost : (Extent.part [] line).cost = line.charges := by simp [Extent.cost]
    exact ⟨⟨[], line, rfl⟩, hcost.symm ▸ hk⟩
  | cons b rest ih =>
    by_cases hlf : b = lf
    · subst hlf
      exact scan_lf_follows lines rest hk fun hle => ih _ hle
    · rw [scan_octet _ hk hlf, extent_octet line rest hlf]
      by_cases hle : (inside t k (line ++ [b])).deviations ≤ t
      · rw [if_pos hle]
        exact ih lines hle
      · rw [if_neg hle]
        have hcharges := charges_le_cost (line ++ [b]) rest
        refine ⟨rfl, Nat.lt_of_lt_of_le (Nat.lt_of_not_le hle) ?_⟩
        exact Nat.add_le_add_left hcharges k

theorem scan_ofTolerance_follows (t : Nat) (octets : List UInt8) :
    ((ofTolerance t).scan [] octets).Follows t 0 [] (extent [] octets) := by
  have hstart : ofTolerance t = inside t 0 [] := rfl
  rw [hstart]
  exact scan_follows [] octets (Nat.zero_le t)

end Decoder

namespace ReplyLine

open RawLine

/-- Decoding gives the lines of the first reply, or reports its end too early, unless this costs
more than the tolerance bears. -/
theorem decode_eq (t : Nat) (octets : List UInt8) :
    ReplyLine.decode t octets =
      if (extent [] octets).cost ≤ t then (extent [] octets).answer
      else .error (.replyThrashing (t + 1)) := by
  have hfollows := Decoder.scan_ofTolerance_follows t octets
  rw [ReplyLine.decode]
  cases hscan : (Decoder.ofTolerance t).scan [] octets with
  | complete lines d rest =>
    rw [hscan] at hfollows
    obtain ⟨before, final, hextent, hle, hlines, -⟩ := hfollows
    rw [Nat.zero_add] at hle
    rw [if_pos hle, hextent, hlines]
    rfl
  | more lines d =>
    rw [hscan] at hfollows
    obtain ⟨⟨before, begun, hextent⟩, hle⟩ := hfollows
    rw [Nat.zero_add] at hle
    rw [if_pos hle, hextent]
    rfl
  | thrashing seen d rest =>
    rw [hscan] at hfollows
    obtain ⟨hseen, hlt⟩ := hfollows
    rw [Nat.zero_add] at hlt
    rw [if_neg (Nat.not_le_of_lt hlt), hseen]

theorem decode_of_cost_le {t : Nat} {octets : List UInt8} (h : (extent [] octets).cost ≤ t) :
    ReplyLine.decode t octets = (extent [] octets).answer := by
  rw [decode_eq, if_pos h]

theorem decode_of_lt_cost {t : Nat} {octets : List UInt8} (h : t < (extent [] octets).cost) :
    ReplyLine.decode t octets = .error (.replyThrashing (t + 1)) := by
  rw [decode_eq, if_neg (Nat.not_le_of_lt h)]

theorem answer_ne_replyThrashing (e : Extent) (n : Nat) :
    e.answer ≠ .error (.replyThrashing n) := by
  cases e <;> simp [Extent.answer]

theorem decode_eq_replyThrashing_iff (t n : Nat) (octets : List UInt8) :
    ReplyLine.decode t octets = .error (.replyThrashing n) ↔
      t < (extent [] octets).cost ∧ n = t + 1 := by
  rcases Nat.lt_or_ge t (extent [] octets).cost with hlt | hle
  · rw [decode_of_lt_cost hlt]
    simp [hlt, eq_comm]
  · rw [decode_of_cost_le hle]
    simp [answer_ne_replyThrashing, Nat.not_lt_of_le hle]

/-- The tolerance only decides when to give up.  Where the decoder did not give up, a greater
tolerance leads to the same lines, or to the same report that the connection is closed; and where
it gives up at the greater tolerance, one deviation above it, it does so at the smaller one, one
deviation above that. -/
theorem decode_under_more_tolerance {t u : Nat} (htu : t ≤ u) (octets : List UInt8) :
    (∀ lines, ReplyLine.decode t octets = .ok lines → ReplyLine.decode u octets = .ok lines) ∧
      (ReplyLine.decode t octets = .error .connectionClosed →
        ReplyLine.decode u octets = .error .connectionClosed) ∧
      ∀ n, ReplyLine.decode u octets = .error (.replyThrashing n) →
        n = u + 1 ∧ ReplyLine.decode t octets = .error (.replyThrashing (t + 1)) := by
  rcases Nat.lt_or_ge t (extent [] octets).cost with hlt | hle
  · -- The smaller tolerance is exceeded, so that nothing is returned there.
    rw [decode_of_lt_cost hlt]
    refine ⟨fun lines hlines => ?_, fun hclosed => ?_, fun n hn => ?_⟩
    · exact absurd hlines (by simp)
    · exact absurd hclosed (by simp)
    · exact ⟨((decode_eq_replyThrashing_iff u n octets).mp hn).2, rfl⟩
  · -- Neither is exceeded, so that the answers are one.
    rw [decode_of_cost_le hle, decode_of_cost_le (Nat.le_trans hle htu)]
    exact ⟨fun _ hlines => hlines, fun hclosed => hclosed,
      fun n hn => absurd hn (answer_ne_replyThrashing _ n)⟩

/-- Three carriage returns at the end of a line, two of which are stray: three tolerances. -/
theorem decode_under_more_tolerance_strayReturns :
    let octets : List UInt8 := [50, 53, 48, 32, 97, 13, 13, 13, 10]
    (0 ≤ 1 ∧ 2 ≤ 3) ∧ ReplyLine.decode 3 octets = .ok [⟨250, "a", false, true⟩] ∧
      ReplyLine.decode 0 octets = .error (.replyThrashing 1) := by
  intro octets
  have htwo : ReplyLine.decode 2 octets = .ok [⟨250, "a", false, true⟩] := by decide +kernel
  have hone : ReplyLine.decode 1 octets = .error (.replyThrashing 2) := by decide +kernel
  have hless := (decode_under_more_tolerance (t := 0) (u := 1) (by decide) octets).2.2 2 hone
  exact ⟨by decide, (decode_under_more_tolerance (by decide) octets).1 _ htwo, hless.2⟩

end ReplyLine

end MailSubmission
