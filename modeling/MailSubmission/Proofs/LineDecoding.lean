import MailSubmission.Proofs.RawLines

set_option autoImplicit false

/-!
# The decoder within a line

The decoder behind the beginning of a line is determined by that beginning and by what was
charged before it (`Decoder.inside`).  An octet takes it to the decoder behind the longer
beginning, unless the charges exceed the tolerance (`step_inside`), and a line feed reports
the line as it reads (`step_lf`).
-/

namespace MailSubmission

namespace Decoder

variable {line : RawLine} {t k returns : Nat} {columns behind : List UInt8} {b : UInt8}

/-- Where the octet behind the line so far stands. -/
def columnBehind (line : RawLine) : Column :=
  match line.behind.getLast? with
  | some b => if b = cr then .afterReturn else .text
  | none =>
    match line.columns.length with
    | 0 => .hundreds
    | 1 => .tens
    | 2 => .ones
    | _ => .separator

/-- The decoder behind the beginning of a line, where `k` was charged to the lines before
it. -/
def inside (t k : Nat) (line : RawLine) : Decoder where
  tolerance := t
  column := columnBehind line
  code := line.code
  continues := line.isDashed
  broken := line.isGarbled
  text := line.text.reverse
  deviations := k + line.charges

/-- The decoder in terms of the parts of the line. -/
theorem inside_eq (h : line.Parts returns columns behind) :
    inside t k line =
      { tolerance := t
        column := match behind.getLast? with
          | some b => if b = cr then .afterReturn else .text
          | none =>
            match columns.length with
            | 0 => .hundreds
            | 1 => .tens
            | 2 => .ones
            | _ => .separator
        code := (List.zipWith (fun b weight => (digit? b).getD 0 * weight) columns
          [100, 10, 1]).foldl (· + ·) 0
        continues := columns.length == 3 && behind.head? == some 45
        broken := columns.any (fun b => (digit? b).isNone) ||
          behind.head?.any fun b => !(columns.length == 3 && (b == 45 || b == 32 || b == cr))
        text := ((if columns.length = 3 ∧ (behind.head? = some 45 ∨ behind.head? = some 32) then
          behind.tail else behind).filter (· != cr)).reverse
        deviations := k + (returns + behind.dropLast.count cr +
          (columns.any (fun b => (digit? b).isNone) ||
            behind.head?.any fun b =>
              !(columns.length == 3 && (b == 45 || b == 32 || b == cr))).toNat) } := by
  simp only [inside, columnBehind, RawLine.code, RawLine.isDashed, RawLine.isGarbled, RawLine.text,
    RawLine.message, RawLine.charges, RawLine.strayReturns, h.columns_eq, h.behind_eq, h.returns_eq]

/-! ## How the decoder grows with the line -/

variable (t k)

theorem inside_append_return (h : line.Parts returns [] behind) :
    let d := inside t k line
    inside t k (line ++ [cr]) = { d with deviations := d.deviations + 1 } := by
  obtain rfl := h.begun rfl
  rw [inside_eq h, inside_eq h.append_return]
  rfl

theorem inside_append_column (h : line.Parts returns columns []) (hnarrow : columns.length < 3)
    (hcr : b ≠ cr) :
    let d := inside t k line
    inside t k (line ++ [b]) =
      { d with
        column := [.tens, .ones, .separator].getD columns.length .separator
        code := d.code + (digit? b).getD 0 * [100, 10, 1].getD columns.length 0
        broken := d.broken || (digit? b).isNone
        deviations := d.deviations + ((digit? b).isNone && !d.broken).toNat } := by
  rw [inside_eq h, inside_eq (h.append_column hnarrow hcr)]
  match columns with
  | [] => simp [Nat.add_assoc]
  | [b₁] => cases hd : digit? b <;> cases hd₁ : digit? b₁ <;> simp [hd, hd₁, Nat.add_assoc]
  | [b₁, b₂] =>
    cases hd : digit? b <;> cases hd₁ : digit? b₁ <;> cases hd₂ : digit? b₂ <;>
      simp [hd, hd₁, hd₂, Nat.add_assoc]

theorem inside_append_cut (h : line.Parts returns columns []) (hbegun : columns ≠ [])
    (hnarrow : columns.length < 3) :
    let d := inside t k line
    inside t k (line ++ [cr]) =
      { d with
        column := .afterReturn
        broken := true
        deviations := d.deviations + (!d.broken).toNat } := by
  rw [inside_eq h, inside_eq (h.append_behind (b := cr) hbegun fun _ _ => rfl)]
  match columns with
  | [b₁] => cases hd₁ : digit? b₁ <;> simp [hd₁, Nat.add_assoc]
  | [b₁, b₂] => cases hd₁ : digit? b₁ <;> cases hd₂ : digit? b₂ <;> simp [hd₁, hd₂, Nat.add_assoc]

theorem inside_append_separator (h : line.Parts returns columns []) (hfull : columns.length = 3)
    (hb : b = 45 ∨ b = 32 ∨ b = cr) :
    let d := inside t k line
    inside t k (line ++ [b]) =
      { d with column := if b = cr then .afterReturn else .text, continues := b == 45 } := by
  have hbegun : columns ≠ [] := by
    rintro rfl
    exact absurd hfull (by decide)
  have h' := h.append_behind (b := b) hbegun fun hlt => absurd hfull (Nat.ne_of_lt hlt)
  rw [inside_eq h, inside_eq h']
  rcases hb with rfl | rfl | rfl <;> simp [hfull]

theorem inside_append_other (h : line.Parts returns columns []) (hfull : columns.length = 3)
    (hb : ¬(b = 45 ∨ b = 32 ∨ b = cr)) :
    let d := inside t k line
    inside t k (line ++ [b]) =
      { d with
        column := .text
        broken := true
        text := b :: d.text
        deviations := d.deviations + (!d.broken).toNat } := by
  have hbegun : columns ≠ [] := by
    rintro rfl
    exact absurd hfull (by decide)
  have h' := h.append_behind (b := b) hbegun fun hlt => absurd hfull (Nat.ne_of_lt hlt)
  rw [not_or, not_or] at hb
  rw [inside_eq h, inside_eq h']
  cases hany : columns.any fun b => (digit? b).isNone <;> simp [hfull, hb, Nat.add_assoc]

theorem inside_append_text (h : line.Parts returns columns behind) (hbehind : behind ≠ []) :
    let d := inside t k line
    inside t k (line ++ [b]) =
      { d with
        column := if b = cr then .afterReturn else .text
        text := if b = cr then d.text else b :: d.text
        deviations := d.deviations + if d.column = .afterReturn then 1 else 0 } := by
  have hbegun : columns ≠ [] := fun hnil => hbehind (h.begun hnil)
  have h' := h.append_behind (b := b) hbegun fun _ hnil => absurd hnil hbehind
  have hlast := List.getLast?_eq_some_getLast hbehind
  have hcount : behind.count cr = behind.dropLast.count cr +
      if (if behind.getLast hbehind = cr then Column.afterReturn else .text) = .afterReturn then 1
      else 0 := by
    nth_rewrite 1 [← List.dropLast_concat_getLast hbehind]
    by_cases hcr : behind.getLast hbehind = cr <;> simp [hcr]
  have hhead : (behind ++ [b]).head? = behind.head? := by
    rw [List.head?_append, Option.or_of_isSome (by simpa using hbehind)]
  rw [inside_eq h, inside_eq h', hlast, List.getLast?_concat, List.dropLast_concat, hhead,
    List.tail_append_of_ne_nil hbehind, hcount, ← apply_ite (· ++ [b]), List.filter_append,
    List.reverse_append]
  by_cases hcr : b = cr <;> simp [hcr, Nat.add_assoc, Nat.add_comm, Nat.add_left_comm]

/-! ## What an octet leads to -/

/-- What the beginning of a line leads to. -/
def reached (line : RawLine) : Progress :=
  if (inside t k line).deviations ≤ t then .more (inside t k line)
  else .thrashing (t + 1) (ofTolerance t)

theorem charge_of_le {d : Decoder} (h : d.deviations ≤ d.tolerance) (next : Decoder → Progress) :
    d.charge .thrashing next =
      if d.deviations + 1 ≤ d.tolerance then next { d with deviations := d.deviations + 1 }
      else .thrashing (d.tolerance + 1) (ofTolerance d.tolerance) := by
  unfold charge
  by_cases hle : d.deviations + 1 ≤ d.tolerance
  · rw [if_neg (by omega), if_pos hle]
  · rw [if_pos (by omega), if_neg hle, Nat.le_antisymm h (by omega)]
    rfl

theorem garble_of_le {d : Decoder} (h : d.deviations ≤ d.tolerance) (next : Decoder → Progress) :
    d.garble next =
      if d.deviations + (!d.broken).toNat ≤ d.tolerance then
        next { d with broken := true, deviations := d.deviations + (!d.broken).toNat }
      else .thrashing (d.tolerance + 1) (ofTolerance d.tolerance) := by
  unfold garble
  cases hbroken : d.broken with
  | true =>
    have hsame : { d with broken := true } = d := by rw [← hbroken]
    simp [h, hsame]
  | false =>
    rw [if_neg Bool.false_ne_true, charge_of_le (by exact h)]
    rfl

theorem readDigit_of_le {d : Decoder} (h : d.deviations ≤ d.tolerance) (weight : Nat)
    (next : Column) (hcr : b ≠ cr) (hlf : b ≠ lf) :
    d.readDigit b weight next =
      if d.deviations + ((digit? b).isNone && !d.broken).toNat ≤ d.tolerance then
        .more { d with
          code := d.code + (digit? b).getD 0 * weight
          broken := d.broken || (digit? b).isNone
          deviations := d.deviations + ((digit? b).isNone && !d.broken).toNat
          column := next }
      else .thrashing (d.tolerance + 1) (ofTolerance d.tolerance) := by
  unfold readDigit
  cases digit? b with
  | some n => simp [h]
  | none => simp [hcr, hlf, garble_of_le h]

theorem step_return (h : line.Parts returns [] behind) (hk : (inside t k line).deviations ≤ t) :
    (inside t k line).step cr = reached t k (line ++ [cr]) := by
  have hcolumn : (inside t k line).column = .hundreds := by
    rw [inside_eq h, h.begun rfl]
    rfl
  have hstep : (inside t k line).step cr = (inside t k line).charge .thrashing .more := by
    simp only [step, hcolumn]
    rfl
  rw [hstep, reached, inside_append_return t k h]
  exact charge_of_le hk .more

theorem step_column (h : line.Parts returns columns []) (hk : (inside t k line).deviations ≤ t)
    (hnarrow : columns.length < 3) (hcr : b ≠ cr) (hlf : b ≠ lf) :
    (inside t k line).step b = reached t k (line ++ [b]) := by
  have hdigit := readDigit_of_le (d := inside t k line) (b := b) hk
  rw [reached, inside_append_column t k h hnarrow hcr, step, inside_eq h]
  rw [inside_eq h] at hdigit
  match columns with
  | [] => exact (if_neg (by simp [hcr, hlf])).trans (hdigit 100 .tens hcr hlf)
  | [b₁] => exact hdigit 10 .ones hcr hlf
  | [b₁, b₂] => exact hdigit 1 .separator hcr hlf

theorem step_cut (h : line.Parts returns columns []) (hk : (inside t k line).deviations ≤ t)
    (hbegun : columns ≠ []) (hnarrow : columns.length < 3) :
    (inside t k line).step cr = reached t k (line ++ [cr]) := by
  have hcut := garble_of_le (d := inside t k line) hk fun d => .more { d with column := .afterReturn }
  rw [reached, inside_append_cut t k h hbegun hnarrow, step, inside_eq h]
  rw [inside_eq h] at hcut
  match columns with
  | [b₁] => exact hcut
  | [b₁, b₂] => exact hcut

theorem column_inside_separator (h : line.Parts returns columns []) (hfull : columns.length = 3) :
    (inside t k line).column = .separator := by
  rw [inside_eq h]
  simp only [hfull, List.getLast?_nil]

theorem column_inside_text (h : line.Parts returns columns behind) (hbehind : behind ≠ []) :
    (inside t k line).column = .text ∨ (inside t k line).column = .afterReturn := by
  rw [inside_eq h, List.getLast?_eq_some_getLast hbehind]
  by_cases hcr : behind.getLast hbehind = cr <;> simp [hcr]

theorem step_separator (h : line.Parts returns columns []) (hk : (inside t k line).deviations ≤ t)
    (hfull : columns.length = 3) (hlf : b ≠ lf) :
    (inside t k line).step b = reached t k (line ++ [b]) := by
  have hcolumn := column_inside_separator t k h hfull
  have hcontinues : (inside t k line).continues = false := by
    rw [inside_eq h]
    simp
  rw [reached]
  by_cases hb : b = 45 ∨ b = 32 ∨ b = cr
  · rw [inside_append_separator t k h hfull hb, if_pos hk]
    simp only [step, hcolumn]
    rcases hb with rfl | rfl | rfl <;> simp [cr, ← hcontinues]
  · rw [inside_append_other t k h hfull hb]
    rw [not_or, not_or] at hb
    have hstep : (inside t k line).step b =
        (inside t k line).garble fun d => .more { d with text := b :: d.text, column := .text } := by
      simp only [step, hcolumn, hb, hlf, if_false]
    rw [hstep]
    exact garble_of_le hk _

theorem step_text (h : line.Parts returns columns behind) (hk : (inside t k line).deviations ≤ t)
    (hbehind : behind ≠ []) (hlf : b ≠ lf) :
    (inside t k line).step b = reached t k (line ++ [b]) := by
  rw [reached, inside_append_text t k h hbehind]
  rcases column_inside_text t k h hbehind with hcolumn | hcolumn
  · simp only [step, hcolumn]
    by_cases hcr : b = cr <;> simp [hcr, hlf, hk]
  · simp only [step, hcolumn, hlf, if_false]
    by_cases hcr : b = cr
    · simp only [hcr, if_true]
      rw [← hcolumn]
      exact charge_of_le hk .more
    · simp only [hcr, if_false]
      exact charge_of_le hk _

/-- An octet within a line. -/
theorem step_inside (hk : (inside t k line).deviations ≤ t) (hlf : b ≠ lf) :
    (inside t k line).step b = reached t k (line ++ [b]) := by
  have h := line.parts
  by_cases hbehind : line.behind = []
  · rw [hbehind] at h
    by_cases hfull : line.columns.length = 3
    · exact step_separator t k h hk hfull hlf
    · have hnarrow : line.columns.length < 3 := Nat.lt_of_le_of_ne h.narrow hfull
      by_cases hcr : b = cr
      · subst hcr
        by_cases hbegun : line.columns = []
        · exact step_return t k (hbegun ▸ h) hk
        · exact step_cut t k h hk hbegun hnarrow
      · exact step_column t k h hk hnarrow hcr hlf
  · exact step_text t k h hk hbehind hlf

/-- What the end of a line leads to. -/
def ended (line : RawLine) : Progress :=
  if k + line.toll ≤ t then
    if line.isBlank then .more (inside t (k + line.toll) [])
    else .line line.read
      { tolerance := t, deviations := k + line.toll, replyDone := !line.isDashed }
  else .thrashing (t + 1) (ofTolerance t)

theorem step_lf_of_blank (h : line.Parts returns [] behind)
    (hk : (inside t k line).deviations ≤ t) : (inside t k line).step lf = ended t k line := by
  have hinside : inside t k line = { tolerance := t, deviations := k + returns } := by
    rw [inside_eq h, h.begun rfl]
    rfl
  have htoll : line.toll = returns + 1 := by
    simp [RawLine.toll, RawLine.strayReturns, h.isBlank_eq, h.returns_eq, h.behind_eq, h.begun rfl]
  have hstep : (inside t k line).step lf = (inside t k line).charge .thrashing .more := by
    simp only [hinside, step]
    rfl
  rw [hstep, charge_of_le hk, ended, h.isBlank_eq, htoll, inside_eq RawLine.parts_nil, hinside]
  rfl

/-- The line that is reported when a line feed ends it. -/
theorem finish_inside (line : RawLine) (d : Nat) :
    finish { inside t k line with broken := line.isMalformed, deviations := d } =
      .line line.read { tolerance := t, deviations := d, replyDone := !line.isDashed } := by
  simp [finish, currentLine, inside, RawLine.read]

theorem step_lf_of_short (h : line.Parts returns columns []) (hbegun : columns ≠ [])
    (hnarrow : columns.length < 3) (hk : (inside t k line).deviations ≤ t) :
    (inside t k line).step lf = ended t k line := by
  have hblank : line.isBlank = false := by
    rw [h.isBlank_eq]
    simpa using hbegun
  have hmalformed : line.isMalformed = true := by
    simp [RawLine.isMalformed, h.columns_eq, Nat.ne_of_lt hnarrow]
  have hdeviations : (inside t k line).deviations + (!(inside t k line).broken).toNat =
      k + line.toll := by
    simp only [inside, RawLine.toll, RawLine.charges, hblank, hmalformed]
    cases line.isGarbled <;> rfl
  have hstep : (inside t k line).step lf = (inside t k line).garble finish := by
    rw [step, inside_eq h]
    match columns with
    | [_] | [_, _] => rfl
  have hfinish := finish_inside t k line (k + line.toll)
  rw [hmalformed] at hfinish
  rw [hstep, garble_of_le hk, ended, hblank, hdeviations, hfinish]
  rfl

theorem step_lf_of_whole (h : line.Parts returns columns behind) (hbegun : columns ≠ [])
    (hwhole : columns.length = 3 ∨ behind ≠ []) (hk : (inside t k line).deviations ≤ t) :
    (inside t k line).step lf = ended t k line := by
  have hblank : line.isBlank = false := by
    rw [h.isBlank_eq]
    simpa using hbegun
  have hmalformed : line.isMalformed = line.isGarbled := by
    unfold RawLine.isMalformed
    by_cases hfull : columns.length = 3
    · simp [h.columns_eq, hfull]
    · -- A carriage return stands behind the code that is cut short.
      have hcut := h.full (Nat.lt_of_le_of_ne h.narrow hfull)
      have hhead := hcut.resolve_left (hwhole.resolve_left hfull)
      simp [RawLine.isGarbled, h.columns_eq, h.behind_eq, hfull, hhead]
  have hdeviations : (inside t k line).deviations = k + line.toll := by
    simp only [inside, RawLine.toll, RawLine.charges, hblank, hmalformed]
    rfl
  have hstep : (inside t k line).step lf = (inside t k line).finish := by
    rcases eq_or_ne behind [] with rfl | hbehind
    · have hfull := hwhole.resolve_right (not_not_intro rfl)
      simp only [step, column_inside_separator t k h hfull]
      rfl
    · rcases column_inside_text t k h hbehind with hcolumn | hcolumn
      · simp only [step, hcolumn]
        rfl
      · simp only [step, hcolumn]
        rfl
  have hfinish := finish_inside t k line (k + line.toll)
  rw [hmalformed, ← hdeviations] at hfinish
  rw [hstep, ended, hblank, ← hdeviations, if_pos hk]
  exact hfinish

/-- The octet that ends a line. -/
theorem step_lf (hk : (inside t k line).deviations ≤ t) :
    (inside t k line).step lf = ended t k line := by
  have h := line.parts
  by_cases hbegun : line.columns = []
  · exact step_lf_of_blank t k (hbegun ▸ h) hk
  · by_cases hwhole : line.columns.length = 3 ∨ line.behind ≠ []
    · exact step_lf_of_whole t k h hbegun hwhole hk
    · rw [not_or, not_not] at hwhole
      exact step_lf_of_short t k (hwhole.2 ▸ h) hbegun (Nat.lt_of_le_of_ne h.narrow hwhole.1) hk
end Decoder

end MailSubmission
