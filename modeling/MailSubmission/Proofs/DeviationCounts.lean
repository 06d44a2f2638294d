import MailSubmission.Proofs.ReplyReading

set_option autoImplicit false

/-!
# How many deviations a reply has

The rules charge one deviation for each stray carriage return, each blank line, each malformed line
and each line that is reopened because its dash was dropped.  A decoder gives up exactly where
these are more than it tolerates, but for one thing: a blank line that ends in a carriage return
and a line feed is charged twice (`ReplyLine.decode_gives_up_iff`), once for either.
-/

namespace MailSubmission

open Decoder (cr lf)

namespace RawLine

variable {line : RawLine}

/-- A carriage return has come in, and nothing else. -/
def isBlankReturn (line : RawLine) : Bool := line.isBlank && !line.isEmpty

/-! ## The charges of a line -/

theorem Parts.eq_replicate {returns : Nat} {behind : List UInt8}
    (h : line.Parts returns [] behind) : line = List.replicate returns cr := by
  have hline := h.line_eq
  rwa [h.begun rfl, List.append_nil, List.append_nil] at hline

theorem Parts.count_dropLast {returns : Nat} {columns behind : List UInt8}
    (h : line.Parts returns columns behind) (hbegun : columns ≠ []) :
    line.dropLast.count cr = returns + behind.dropLast.count cr := by
  have hne : columns ++ behind ≠ [] := by simp [hbegun]
  rw [h.line_eq, List.dropLast_append_of_ne_nil hne, List.count_append, List.count_replicate_self]
  by_cases hbehind : behind = []
  · have hplain : cr ∉ columns.dropLast := fun hmem => h.plain (List.dropLast_subset _ hmem)
    rw [hbehind, List.append_nil, List.count_eq_zero.mpr hplain, List.dropLast_nil, List.count_nil]
  · rw [List.dropLast_append_of_ne_nil hbehind, List.count_append,
      List.count_eq_zero.mpr h.plain, Nat.zero_add]

/-- Carriage returns are stray but for one at the end of the line, unless the line is blank. -/
theorem strayReturns_eq (line : RawLine) :
    line.strayReturns = line.dropLast.count cr + line.isBlankReturn.toNat := by
  have h := line.parts
  by_cases hbegun : line.columns = []
  · obtain ⟨n, hn⟩ : ∃ n, line.returns = n := ⟨_, rfl⟩
    rw [hbegun, hn] at h
    have hstray : line.strayReturns = n := by simp [strayReturns, h.begun rfl, hn]
    have hblank : line.isBlank = true := by rw [h.isBlank_eq, List.isEmpty_nil]
    rw [hstray, isBlankReturn, hblank, h.eq_replicate, List.dropLast_replicate,
      List.count_replicate_self]
    cases n with
    | zero => rfl
    | succ n => rfl
  · have hblank : line.isBlank = false := by simp [h.isBlank_eq, hbegun]
    rw [isBlankReturn, hblank, h.count_dropLast hbegun, strayReturns]
    rfl

theorem charges_eq (line : RawLine) :
    line.charges = line.dropLast.count cr + line.isGarbled.toNat + line.isBlankReturn.toNat := by
  rw [charges, strayReturns_eq]
  omega

theorem toll_eq (line : RawLine) :
    line.toll = line.dropLast.count cr + line.isBlank.toNat +
      (!line.isBlank && line.isMalformed).toNat + line.isBlankReturn.toNat := by
  rw [toll, strayReturns_eq]
  cases line.isBlank <;> simp <;> omega

/-! ## The deviations of a reply -/

namespace Extent

/-- The lines that are complete. -/
def completeLines : Extent → List RawLine
  | .whole before final _ => before ++ [final]
  | .part before _ => before

/-- What has come in of a line that is not complete. -/
def begunLine : Extent → RawLine
  | .whole _ _ _ => []
  | .part _ begun => begun

/-- The carriage returns with something else than the end of their line behind them. -/
def strayReturns (e : Extent) : Nat :=
  (e.completeLines.map fun line => line.dropLast.count cr).sum + e.begunLine.dropLast.count cr

/-- The lines with nothing but their end. -/
def blankLines (e : Extent) : Nat := e.completeLines.countP isBlank

/-- The lines that are malformed up to their separator, as far as they have come in. -/
def malformedLines (e : Extent) : Nat :=
  (e.completeLines.countP fun line => !line.isBlank && line.isMalformed) +
    e.begunLine.isGarbled.toNat

/-- The lines without a dash that the reply goes on behind, since their code is repeated. -/
def reopenedLines : Extent → Nat
  | .whole before _ _ => before.countP endsReply
  | .part before _ => before.countP endsReply

/-- The deviations of a reply, each counted once. -/
def deviations (e : Extent) : Nat :=
  e.strayReturns + e.blankLines + e.malformedLines + e.reopenedLines

/-- The blank lines that have a carriage return. -/
def blankReturns (e : Extent) : Nat :=
  e.completeLines.countP isBlankReturn + e.begunLine.isBlankReturn.toNat

theorem countP_cons_toNat (p : RawLine → Bool) (line : RawLine) (lines : List RawLine) :
    (line :: lines).countP p = lines.countP p + (p line).toNat := by
  rw [List.countP_cons]
  cases p line <;> rfl

theorem sum_toll (lines : List RawLine) :
    (lines.map toll).sum = (lines.map fun line => line.dropLast.count cr).sum +
      lines.countP isBlank + (lines.countP fun line => !line.isBlank && line.isMalformed) +
      lines.countP isBlankReturn := by
  induction lines with
  | nil => rfl
  | cons line lines ih =>
    rw [List.map_cons, List.map_cons, List.sum_cons, List.sum_cons, ih, toll_eq]
    simp only [countP_cons_toNat]
    omega

/-- The decoder charges each deviation once, and each blank line with a carriage return once
more. -/
theorem cost_eq (e : Extent) : e.cost = e.deviations + e.blankReturns := by
  cases e with
  | whole before final rest =>
    have hgarbled : isGarbled [] = false := rfl
    have hreturn : isBlankReturn [] = false := rfl
    simp only [cost, sum_toll, deviations, strayReturns, blankLines, malformedLines, reopenedLines,
      blankReturns, completeLines, begunLine, List.dropLast_nil, List.count_nil, hgarbled, hreturn,
      Bool.toNat_false]
    omega
  | part before begun =>
    simp only [cost, sum_toll, charges_eq, deviations, strayReturns, blankLines, malformedLines,
      reopenedLines, blankReturns, completeLines, begunLine]
    omega

end Extent

/-! ## Replies without deviations, and blank lines ahead of them -/

/-- The octets of some lines. -/
def stream (lines : List RawLine) : List UInt8 := lines.flatMap (· ++ [lf])

/-- Blank lines, each of which is a carriage return and a line feed. -/
def blanks (n : Nat) : List RawLine := List.replicate n [cr]

/-- A reply as the grammar has it: all lines are well formed, and all but the last have a dash. -/
structure IsProperReply (before : List RawLine) (final : RawLine) : Prop where
  wellFormed : ∀ line ∈ before ++ [final], line.IsWellFormed ∧ lf ∉ line
  dashed : ∀ line ∈ before, line.isDashed = true
  final : final.isDashed = false

theorem extent_part {part : List UInt8} (begun : RawLine) (rest : List UInt8) (hlf : lf ∉ part) :
    extent begun (part ++ rest) = extent (begun ++ part) rest := by
  induction part generalizing begun with
  | nil => rw [List.nil_append, List.append_nil]
  | cons b part ih =>
    rw [List.mem_cons, not_or] at hlf
    rw [List.cons_append, extent_octet _ _ (Ne.symm hlf.1), ih _ hlf.2, ← List.append_cons]

/-- Lines that do not end their reply, and one that does at the end of the octets. -/
theorem extent_stream {before : List RawLine} {final : RawLine}
    (hlf : ∀ line ∈ before ++ [final], lf ∉ line) (hends : final.endsReply = true)
    (hopen : ∀ line ∈ before, line.endsReply = false) :
    extent [] (stream (before ++ [final])) = .whole before final [] := by
  induction before with
  | nil =>
    have hfinal : lf ∉ final := hlf final List.mem_cons_self
    rw [stream, List.nil_append, List.flatMap_singleton, extent_part _ _ hfinal, List.nil_append,
      extent_lf_of_final hends rfl]
  | cons line before ih =>
    rw [List.cons_append, List.forall_mem_cons] at hlf
    rw [List.forall_mem_cons] at hopen
    have hrest := ih hlf.2 hopen.2
    rw [stream] at hrest
    rw [stream, List.cons_append, List.flatMap_cons, List.append_assoc, extent_part _ _ hlf.1,
      List.nil_append, List.singleton_append, extent_lf_of_goesOn, hrest]
    · rfl
    · rw [hopen.1]
      exact fun hends => absurd hends Bool.false_ne_true

section

variable {before : List RawLine} {final : RawLine}

theorem IsProperReply.endsReply_final (h : IsProperReply before final) :
    final.endsReply = true := by
  have hfinal := (h.wellFormed final (by simp)).1
  rw [← toll_eq_zero_iff, toll_eq_zero_iff_strayReturns] at hfinal
  have hblank : final.isBlank = false := by
    by_contra hblank
    rw [Bool.not_eq_false] at hblank
    rw [isMalformed_of_isBlank hblank] at hfinal
    exact absurd hfinal.2 (by decide)
  exact endsReply_iff.mpr ⟨hblank, h.final⟩

theorem IsProperReply.endsReply_before (h : IsProperReply before final) (n : Nat) :
    ∀ line ∈ blanks n ++ before, line.endsReply = false := by
  intro line hline
  rw [List.mem_append] at hline
  rcases hline with hblank | hbefore
  · rw [List.eq_of_mem_replicate hblank]
    rfl
  · simp [endsReply, h.dashed line hbefore]

theorem IsProperReply.extent_blank (h : IsProperReply before final) (n : Nat) :
    extent [] (stream (blanks n ++ (before ++ [final]))) =
      .whole (blanks n ++ before) final [] := by
  rw [← List.append_assoc]
  refine extent_stream (fun line hline => ?_) h.endsReply_final (h.endsReply_before n)
  rw [List.append_assoc, List.mem_append] at hline
  rcases hline with hblank | hproper
  · rw [List.eq_of_mem_replicate hblank]
    decide
  · exact (h.wellFormed line hproper).2

/-- A blank line ahead of a reply is charged for its carriage return and for its line feed. -/
theorem IsProperReply.cost_blank (h : IsProperReply before final) (n : Nat) :
    (Extent.whole (blanks n ++ before) final []).cost = 2 * n := by
  have hproper : ((before ++ [final]).map toll).sum = 0 := by
    rw [List.sum_eq_zero_iff_forall_eq_nat, List.forall_mem_map]
    exact fun line hline => toll_eq_zero_iff.mpr (h.wellFormed line hline).1
  have hreopened : (blanks n ++ before).countP endsReply = 0 := by
    rw [List.countP_eq_zero]
    exact fun line hline => by simp [h.endsReply_before n line hline]
  have hblank : toll [cr] = 2 := rfl
  rw [Extent.cost, hreopened, List.append_assoc, List.map_append, List.sum_append, hproper,
    blanks, List.map_replicate, List.sum_replicate_nat, hblank]
  exact Nat.mul_comm n 2

end

end RawLine

namespace ReplyLine

open RawLine

/-- When a decoder gives up.  It does so if there are more deviations than it tolerates before the
reply is complete, where a blank line with a carriage return counts twice; and it reports one more
than it tolerates.  So a proper reply with blank lines ahead of it is decoded if twice their number
is tolerated. -/
theorem decode_gives_up_iff (t : Nat) :
    (∀ octets, ReplyLine.decode t octets = .error (.replyThrashing (t + 1)) ↔
      t < (extent [] octets).deviations + (extent [] octets).blankReturns) ∧
    (∀ octets n, ReplyLine.decode t octets = .error (.replyThrashing n) → n = t + 1) ∧
    ∀ before final, IsProperReply before final → ∀ n,
      (∃ lines, ReplyLine.decode t (stream (blanks n ++ (before ++ [final]))) =
        .ok lines) ↔ 2 * n ≤ t := by
  refine ⟨fun octets => ?_, fun octets n hn => ?_, fun before final hproper n => ?_⟩
  · rw [decode_eq_replyThrashing_iff, Extent.cost_eq]
    exact and_iff_left rfl
  · exact ((decode_eq_replyThrashing_iff t n octets).mp hn).2
  · rw [decode_eq, hproper.extent_blank, hproper.cost_blank]
    by_cases hle : 2 * n ≤ t
    · simp [hle, Extent.answer]
    · simp [hle]

/-- A reply of one line. -/
def okLine : RawLine := Text.Utf8.encode "250 OK\r"

theorem isProperReply_okLine : IsProperReply [] okLine where
  wellFormed line hline := by
    obtain rfl := List.mem_singleton.mp hline
    exact ⟨toll_eq_zero_iff.mp (by decide +kernel), by decide +kernel⟩
  dashed line hline := absurd hline List.not_mem_nil
  final := by decide +kernel

theorem decode_gives_up_iff_oneBlank :
    (∃ lines, ReplyLine.decode 2 (stream ([[cr]] ++ ([] ++ [okLine]))) = .ok lines) ∧
      ¬ ∃ lines, ReplyLine.decode 1 (stream ([[cr]] ++ ([] ++ [okLine]))) = .ok lines := by
  have htwo := ((decode_gives_up_iff 2).2.2 [] okLine isProperReply_okLine 1).mpr (by decide)
  have hone := mt ((decode_gives_up_iff 1).2.2 [] okLine isProperReply_okLine 1).mp (by decide)
  exact ⟨htwo, hone⟩

/-- A blank line is not charged once: with one of them tolerated, the decoder gives up on it. -/
theorem deviations_not_always_charged_once :
    (¬ ∀ (t : Nat) (octets : List UInt8),
      ReplyLine.decode t octets = .error (.replyThrashing (t + 1)) ↔
        t < (extent [] octets).deviations) ∧
    ¬ ∀ (t n : Nat) (before : List RawLine) (final : RawLine), IsProperReply before final →
      ((∃ lines, ReplyLine.decode t (stream (blanks n ++ (before ++ [final]))) =
        .ok lines) ↔ n ≤ t) := by
  have hgives : ReplyLine.decode 1 (stream ([[cr]] ++ ([] ++ [okLine]))) =
      .error (.replyThrashing 2) := by
    decide +kernel
  refine ⟨fun h => ?_, fun h => ?_⟩
  · have hmore := (h 1 _).mp hgives
    exact absurd hmore (by decide +kernel)
  · obtain ⟨lines, hlines⟩ := (h 1 1 [] okLine isProperReply_okLine).mpr (Nat.le_refl 1)
    exact absurd (hgives.symm.trans hlines) (by simp)

end ReplyLine

end MailSubmission
