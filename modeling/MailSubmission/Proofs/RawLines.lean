import Mathlib.Data.List.Induction
import MailSubmission.Reply.Decoder

set_option autoImplicit false

/-!
# Lines as they come in

A server sends lines, whether they keep to the reply grammar or not.  This module reads a
line off its octets alone, without a decoder: what stands in the three columns of its code
and what behind them, whether it has a dash, which code and text it has, and what it is
charged.  `RawLine.parts` takes a line apart; how the parts change when the line grows by an
octet is all that the proofs about the decoder need of it.
-/

namespace MailSubmission

/-- A line as it came in, without the line feed that ends it. -/
abbrev RawLine : Type := List UInt8

/-! ## The columns of a code -/

namespace Decoder

theorem digit?_ofNat {n : Nat} (h : n < 10) : digit? (UInt8.ofNat (n + 48)) = some n := by
  have hlt : n + 48 < 256 := by omega
  have hn : (UInt8.ofNat (n + 48)).toNat = n + 48 := UInt8.toNat_ofNat_of_lt' hlt
  simp only [digit?, UInt8.le_iff_toNat_le, hn, UInt8.reduceToNat, Bool.and_eq_true,
    decide_eq_true_eq]
  rw [if_pos (by omega), Nat.add_sub_cancel]

theorem exists_of_mem_columnOctets {code : Nat} {b : UInt8} (h : b ∈ columnOctets code) :
    ∃ n < 10, b = UInt8.ofNat (n + 48) := by
  rw [columnOctets, List.mem_map] at h
  obtain ⟨n, hn, rfl⟩ := h
  simp only [Code.columns, List.mem_cons, List.not_mem_nil, or_false] at hn
  exact ⟨n, by omega, rfl⟩

theorem not_mem_columnOctets {code : Nat} {b : UInt8} (h : digit? b = none) :
    b ∉ columnOctets code := by
  intro hb
  obtain ⟨n, hn, rfl⟩ := exists_of_mem_columnOctets hb
  rw [digit?_ofNat hn] at h
  exact absurd h (by simp)

end Decoder

namespace RawLine

open Decoder (cr lf digit?)

/-! ## The parts of a line -/

/-- The line without the carriage returns ahead of it. -/
def shown (line : RawLine) : List UInt8 := line.dropWhile (· == cr)

/-- What stands in the three columns of the code; a carriage return cuts them short. -/
def columns (line : RawLine) : List UInt8 := (line.shown.take 3).takeWhile (· != cr)

/-- What stands behind the columns of the code. -/
def behind (line : RawLine) : List UInt8 := line.shown.drop line.columns.length

/-- The carriage returns ahead of the line. -/
def returns (line : RawLine) : Nat := line.length - line.shown.length

/-- The line has a code, separator and text as far as they go, behind so many carriage
returns. -/
structure Parts (line : RawLine) (returns : Nat) (columns behind : List UInt8) : Prop where
  line_eq : line = List.replicate returns cr ++ (columns ++ behind)
  narrow : columns.length ≤ 3
  plain : cr ∉ columns
  begun : columns = [] → behind = []
  full : columns.length < 3 → behind = [] ∨ behind.head? = some cr

variable {line : RawLine} {returns : Nat} {columns behind : List UInt8}

theorem Parts.shown_eq (h : line.Parts returns columns behind) :
    line.shown = columns ++ behind := by
  have hhead : (columns ++ behind).dropWhile (· == cr) = columns ++ behind := by
    cases columns with
    | nil => rw [h.begun rfl]; rfl
    | cons b rest =>
      have hb : b ≠ cr := fun hb => h.plain (hb ▸ List.mem_cons_self)
      rw [List.cons_append, List.dropWhile_cons_of_neg (by simpa using hb)]
  have hreturns : ∀ b ∈ List.replicate returns cr, (b == cr) = true := fun b hb =>
    beq_iff_eq.mpr (List.eq_of_mem_replicate hb)
  rw [shown, h.line_eq, List.dropWhile_append_of_pos hreturns, hhead]

theorem Parts.columns_eq (h : line.Parts returns columns behind) : line.columns = columns := by
  have hplain : ∀ b ∈ columns, (b != cr) = true := fun b hb =>
    bne_iff_ne.mpr fun hcr => h.plain (hcr ▸ hb)
  rw [RawLine.columns, h.shown_eq, List.take_append, List.take_of_length_le h.narrow,
    List.takeWhile_append_of_pos hplain]
  by_cases hshort : columns.length < 3
  · rcases h.full hshort with hnil | hcr
    · rw [hnil, List.take_nil, List.takeWhile_nil, List.append_nil]
    · cases behind with
      | nil => simp at hcr
      | cons b rest =>
        obtain rfl := Option.some.inj hcr
        have hpos : 3 - columns.length = (2 - columns.length) + 1 := by omega
        rw [hpos, List.take_succ_cons, List.takeWhile_cons_of_neg (by simp), List.append_nil]
  · rw [show 3 - columns.length = 0 by omega, List.take_zero, List.takeWhile_nil,
      List.append_nil]

theorem Parts.behind_eq (h : line.Parts returns columns behind) : line.behind = behind := by
  rw [RawLine.behind, h.columns_eq, h.shown_eq, List.drop_left]

theorem Parts.returns_eq (h : line.Parts returns columns behind) : line.returns = returns := by
  have hlength := congrArg List.length h.line_eq
  rw [List.length_append, List.length_replicate] at hlength
  rw [RawLine.returns, h.shown_eq, hlength, Nat.add_sub_cancel]

/-! ## How a line grows -/

theorem parts_nil : Parts [] 0 [] [] :=
  ⟨rfl, by simp, by simp, fun _ => rfl, fun _ => .inl rfl⟩

theorem Parts.append_return (h : line.Parts returns [] behind) :
    Parts (line ++ [cr]) (returns + 1) [] [] := by
  have hline := h.line_eq
  rw [h.begun rfl, List.append_nil, List.append_nil] at hline
  exact ⟨by rw [hline, List.replicate_succ', List.append_nil, List.append_nil], by simp, by simp, fun _ => rfl, fun _ => .inl rfl⟩

theorem Parts.append_column (h : line.Parts returns columns []) {b : UInt8}
    (hnarrow : columns.length < 3) (hb : b ≠ cr) :
    Parts (line ++ [b]) returns (columns ++ [b]) [] where
  line_eq := by rw [h.line_eq]; simp
  narrow := by rw [List.length_append]; exact hnarrow
  plain := by simpa [h.plain] using hb.symm
  begun _ := rfl
  full _ := .inl rfl

theorem Parts.append_behind (h : line.Parts returns columns behind) {b : UInt8}
    (hbegun : columns ≠ []) (hb : columns.length < 3 → behind = [] → b = cr) :
    Parts (line ++ [b]) returns columns (behind ++ [b]) where
  line_eq := by rw [h.line_eq]; simp
  narrow := h.narrow
  plain := h.plain
  begun he := absurd he hbegun
  full hshort := by
    right
    cases behind with
    | nil => rw [hb hshort rfl]; rfl
    | cons a rest => simpa using h.full hshort

/-- Every line has its parts. -/
theorem parts (line : RawLine) : line.Parts line.returns line.columns line.behind := by
  have hex : ∃ returns columns behind, line.Parts returns columns behind := by
    induction line using List.reverseRecOn with
    | nil => exact ⟨0, [], [], parts_nil⟩
    | append_singleton line b ih =>
      obtain ⟨returns, columns, behind, h⟩ := ih
      by_cases hcr : b = cr
      · subst hcr
        by_cases hnil : columns = []
        · exact ⟨_, _, _, (hnil ▸ h).append_return⟩
        · exact ⟨_, _, _, h.append_behind hnil fun _ _ => rfl⟩
      · by_cases hgrow : columns.length < 3 ∧ behind = []
        · exact ⟨_, _, _, (hgrow.2 ▸ h).append_column hgrow.1 hcr⟩
        · refine ⟨_, _, _, h.append_behind ?_ fun hshort hnil => absurd ⟨hshort, hnil⟩ hgrow⟩
          rintro rfl
          exact hgrow ⟨by simp, h.begun rfl⟩
  obtain ⟨returns, columns, behind, h⟩ := hex
  rwa [h.returns_eq, h.columns_eq, h.behind_eq]

/-! ## What a line says -/

/-- Nothing but carriage returns. -/
def isBlank (line : RawLine) : Bool := line.shown.isEmpty

theorem Parts.isBlank_eq (h : line.Parts returns columns behind) :
    line.isBlank = columns.isEmpty := by
  rw [isBlank, h.shown_eq]
  cases columns with
  | nil => rw [h.begun rfl]; rfl
  | cons b rest => rfl

/-- A dash stands behind the three columns of the code. -/
def isDashed (line : RawLine) : Bool := line.columns.length == 3 && line.behind.head? == some 45

/-- The line is the last of a reply: it has no dash. -/
def endsReply (line : RawLine) : Bool := !line.isBlank && !line.isDashed

/-- The number in the columns of the code, where what is no digit counts nothing. -/
def code (line : RawLine) : Nat :=
  (List.zipWith (fun b weight => (digit? b).getD 0 * weight) line.columns [100, 10, 1]).foldl
    (· + ·) 0

/-- What stands behind the separator; behind a code cut short there is none. -/
def message (line : RawLine) : List UInt8 :=
  if line.columns.length = 3 ∧ (line.behind.head? = some 45 ∨ line.behind.head? = some 32) then
    line.behind.tail
  else line.behind

/-- The text of the line; carriage returns are no part of it. -/
def text (line : RawLine) : List UInt8 := line.message.filter (· != cr)

/-- In the columns stands something else than a digit, or behind them something else than
a separator or the end of the line. -/
def isGarbled (line : RawLine) : Bool :=
  line.columns.any (fun b => (digit? b).isNone) ||
    line.behind.head?.any fun b =>
      !(line.columns.length == 3 && (b == 45 || b == 32 || b == cr))

/-- The line is garbled or its code is cut short. -/
def isMalformed (line : RawLine) : Bool := line.isGarbled || line.columns.length != 3

/-- The line as a decoder reports it. -/
def read (line : RawLine) : ReplyLine where
  code := line.code
  text := Text.Utf8.decodeLossy line.text
  broken := line.isMalformed
  last := !line.isDashed

/-! ## What a line is charged -/

/-- The carriage returns in the line, except one at its end. -/
def strayReturns (line : RawLine) : Nat := line.returns + line.behind.dropLast.count cr

/-- What the line is charged before its end has come. -/
def charges (line : RawLine) : Nat := line.strayReturns + line.isGarbled.toNat

/-- What the line is charged altogether. -/
def toll (line : RawLine) : Nat :=
  line.strayReturns + if line.isBlank then 1 else line.isMalformed.toNat

theorem charges_le_toll (line : RawLine) : line.charges ≤ line.toll := by
  unfold charges toll
  refine Nat.add_le_add_left ?_ _
  split
  · exact Bool.toNat_le _
  · unfold isMalformed
    cases line.isGarbled with
    | false => exact Nat.zero_le _
    | true => exact Nat.le_refl _

/-! ## The lines of a stream -/

/-- The lines that are complete in some octets, where `begun` came in before. -/
def complete (begun : RawLine) : List UInt8 → List RawLine
  | [] => []
  | b :: rest => if b = lf then begun :: complete [] rest else complete (begun ++ [b]) rest

/-- The line that is not complete behind some octets, where `begun` came in before. -/
def unfinished (begun : RawLine) : List UInt8 → RawLine
  | [] => begun
  | b :: rest => if b = lf then unfinished [] rest else unfinished (begun ++ [b]) rest

theorem complete_append (begun : RawLine) (octets more : List UInt8) :
    complete begun (octets ++ more) =
      complete begun octets ++ complete (unfinished begun octets) more := by
  induction octets generalizing begun with
  | nil => rfl
  | cons b rest ih =>
    simp only [List.cons_append, complete, unfinished]
    split
    · rw [ih, List.cons_append]
    · exact ih _

theorem unfinished_append (begun : RawLine) (octets more : List UInt8) :
    unfinished begun (octets ++ more) = unfinished (unfinished begun octets) more := by
  induction octets generalizing begun with
  | nil => rfl
  | cons b rest ih =>
    simp only [List.cons_append, unfinished]
    split
    · exact ih []
    · exact ih _

end RawLine

end MailSubmission
