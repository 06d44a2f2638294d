import MailSubmission.Proofs.LineDecoding

set_option autoImplicit false

/-!
# The decoder from line to line

What a scan does at the end of a line: it gives up if the line costs too much; a blank line
and a line with a dash leave the reply open; any other line ends the reply, unless the octets
behind it in the buffer repeat its code, in which case the reply is reopened at the price of
one deviation.
-/

namespace MailSubmission.Decoder

variable {t k : Nat} {line : RawLine} {lines : List ReplyLine} {b : UInt8} (rest : List UInt8)

/-! ## Within a line -/

theorem scan_octet (hk : (inside t k line).deviations ≤ t) (hlf : b ≠ lf) :
    (inside t k line).scan lines (b :: rest) =
      if (inside t k (line ++ [b])).deviations ≤ t then
        (inside t k (line ++ [b])).scan lines rest
      else .thrashing (t + 1) (ofTolerance t) rest := by
  have hpush : (inside t k line).push b = reached t k (line ++ [b]) :=
    step_inside t k hk hlf
  rw [scan, hpush, reached]
  by_cases hle : (inside t k (line ++ [b])).deviations ≤ t
  · rw [if_pos hle, if_pos hle]
  · rw [if_neg hle, if_neg hle]

/-- A line only costs more as it grows. -/
theorem deviations_append (t k : Nat) (line : RawLine) (b : UInt8) :
    (inside t k line).deviations ≤ (inside t k (line ++ [b])).deviations := by
  have h := line.parts
  by_cases hbehind : line.behind = []
  · rw [hbehind] at h
    by_cases hfull : line.columns.length = 3
    · by_cases hb : b = 45 ∨ b = 32 ∨ b = cr
      · exact Nat.le_of_eq (by rw [inside_append_separator t k h hfull hb])
      · rw [inside_append_other t k h hfull hb]
        exact Nat.le_add_right _ _
    · have hnarrow : line.columns.length < 3 := Nat.lt_of_le_of_ne h.narrow hfull
      by_cases hcr : b = cr
      · subst hcr
        by_cases hbegun : line.columns = []
        · rw [inside_append_return t k (hbegun ▸ h)]
          exact Nat.le_add_right _ _
        · rw [inside_append_cut t k h hbegun hnarrow]
          exact Nat.le_add_right _ _
      · rw [inside_append_column t k h hnarrow hcr]
        exact Nat.le_add_right _ _
  · rw [inside_append_text t k h hbehind]
    exact Nat.le_add_right _ _

theorem deviations_le_append (t k : Nat) (line part : List UInt8) :
    (inside t k line).deviations ≤ (inside t k (line ++ part)).deviations := by
  induction part generalizing line with
  | nil =>
    exact Nat.le_of_eq (by rw [List.append_nil])
  | cons b part ih =>
    rw [List.append_cons]
    exact Nat.le_trans (deviations_append t k line b) (ih (line ++ [b]))

/-- A part of a line that the tolerance bears is read through. -/
theorem scan_part (line : RawLine) {part : List UInt8} (hlf : lf ∉ part)
    (hk : (inside t k (line ++ part)).deviations ≤ t) :
    (inside t k line).scan lines (part ++ rest) = (inside t k (line ++ part)).scan lines rest := by
  induction part generalizing line with
  | nil => rw [List.append_nil, List.nil_append]
  | cons b part ih =>
    rw [List.mem_cons, not_or] at hlf
    rw [List.append_cons] at hk ⊢
    have hnext := Nat.le_trans (deviations_le_append t k (line ++ [b]) part) hk
    have hhere := Nat.le_trans (deviations_append t k line b) hnext
    rw [List.cons_append, scan_octet _ hhere (Ne.symm hlf.1), if_pos hnext]
    exact ih (line ++ [b]) hlf.2 hk

/-! ## At the end of a line -/

theorem scan_lf_of_lt (hk : (inside t k line).deviations ≤ t) (hlt : t < k + line.toll) :
    (inside t k line).scan lines (lf :: rest) = .thrashing (t + 1) (ofTolerance t) rest := by
  have hpush : (inside t k line).push lf = ended t k line := step_lf t k hk
  rw [scan, hpush, ended, if_neg (Nat.not_le.mpr hlt)]

theorem scan_lf_of_blank (hk : (inside t k line).deviations ≤ t) (hle : k + line.toll ≤ t)
    (hblank : line.isBlank = true) :
    (inside t k line).scan lines (lf :: rest) = (inside t (k + line.toll) []).scan lines rest := by
  have hpush : (inside t k line).push lf = ended t k line := step_lf t k hk
  rw [scan, hpush, ended, if_pos hle, if_pos hblank]

/-- The look-ahead at the end of a line that shows something. -/
theorem scan_lf_of_shown (hk : (inside t k line).deviations ≤ t) (hle : k + line.toll ≤ t)
    (hblank : line.isBlank = false) :
    (inside t k line).scan lines (lf :: rest) =
      let d : Decoder := { tolerance := t, deviations := k + line.toll, replyDone := !line.isDashed }
      match d.resume line.read rest with
      | .thrashing seen d => .thrashing seen d rest
      | .reopened l d => scan d (l :: lines) rest
      | .stands =>
        if line.read.last then .complete (line.read :: lines).reverse d rest
        else scan d (line.read :: lines) rest := by
  have hpush : (inside t k line).push lf = .line line.read
      { tolerance := t, deviations := k + line.toll, replyDone := !line.isDashed } := by
    refine (step_lf t k hk).trans ?_
    rw [ended, if_pos hle, if_neg (by rw [hblank]; exact Bool.false_ne_true)]
  dsimp only
  cases hresume : resume { tolerance := t, deviations := k + line.toll, replyDone := !line.isDashed }
      line.read rest with
  | stands =>
    rw [scan, hpush]
    simp only [hresume]
  | reopened l d =>
    rw [scan, hpush]
    simp only [hresume]
  | thrashing seen d =>
    rw [scan, hpush]
    simp only [hresume]

theorem scan_lf_of_dashed (hk : (inside t k line).deviations ≤ t) (hle : k + line.toll ≤ t)
    (hblank : line.isBlank = false) (hdashed : line.isDashed = true) :
    (inside t k line).scan lines (lf :: rest) =
      (inside t (k + line.toll) []).scan (line.read :: lines) rest := by
  have hlast : line.read.last = false := by simp [RawLine.read, hdashed]
  rw [scan_lf_of_shown rest hk hle hblank]
  simp only [resume, hlast, hdashed, Bool.false_and, Bool.false_eq_true, if_false]
  rfl

theorem scan_lf_of_final (lines : List ReplyLine) (hk : (inside t k line).deviations ≤ t)
    (hle : k + line.toll ≤ t) (hends : line.endsReply = true)
    (hrepeats : repeats line.code rest = false) :
    (inside t k line).scan lines (lf :: rest) =
      .complete (line.read :: lines).reverse
        { tolerance := t, deviations := k + line.toll, replyDone := true } rest := by
  simp only [RawLine.endsReply, Bool.and_eq_true, Bool.not_eq_true'] at hends
  have hlast : line.read.last = true := by simp [RawLine.read, hends.2]
  have hcode : line.read.code = line.code := rfl
  rw [scan_lf_of_shown rest hk hle hends.1]
  simp only [resume, hlast, hcode, hrepeats, hends.2, Bool.and_false, Bool.false_eq_true, if_false,
    if_true, Bool.not_false]

/-- The line as it is reported when its reply is reopened. -/
def reopened (line : RawLine) : ReplyLine := { line.read with last := false, broken := true }

theorem scan_lf_of_repeats (hk : (inside t k line).deviations ≤ t) (hle : k + line.toll ≤ t)
    (hends : line.endsReply = true) (hrepeats : repeats line.code rest = true) :
    (inside t k line).scan lines (lf :: rest) =
      if k + line.toll + 1 ≤ t then
        (inside t (k + line.toll + 1) []).scan (reopened line :: lines) rest
      else .thrashing (t + 1) (ofTolerance t) rest := by
  simp only [RawLine.endsReply, Bool.and_eq_true, Bool.not_eq_true'] at hends
  have hlast : line.read.last = true := by simp [RawLine.read, hends.2]
  have hcode : line.read.code = line.code := rfl
  rw [scan_lf_of_shown rest hk hle hends.1]
  simp only [resume, hlast, hcode, hrepeats, Bool.and_true, if_true, charge]
  by_cases hlt : k + line.toll + 1 ≤ t
  · rw [if_neg (by omega), if_pos hlt]
    rfl
  · rw [if_pos (by omega), if_neg hlt, show k + line.toll = t by omega]
    rfl

end MailSubmission.Decoder
