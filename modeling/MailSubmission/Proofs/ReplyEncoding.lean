import MailSubmission.Proofs.ReplyScanning
import MailSubmission.Proofs.TextTransparency
import MailSubmission.Reply.Octets

set_option autoImplicit false

/-!
# Replies survive their encoding

A server that keeps to the grammar line by line, but may drop the dash of a line that is
followed by another of the same code, is understood (`ReplyLine.decode_encode`): its codes and
texts come back as they were sent, with a mark on each line whose dash was dropped.
-/

namespace MailSubmission

open Decoder

/-- A line of a reply as the grammar has it. -/
structure ProperLine where
  /-- The code, of three digits. -/
  code : Nat
  /-- A dash separates code and text, and not a space. -/
  dashed : Bool
  /-- The text. -/
  text : String
  narrow : code < 1000
  oneLine : '\r' ∉ text.toList ∧ '\n' ∉ text.toList

namespace ProperLine

/-- The line up to its carriage return. -/
def raw (l : ProperLine) : RawLine :=
  columnOctets l.code ++ (if l.dashed then 45 else 32) :: (Text.Utf8.encode l.text ++ [cr])

/-- The octets of some lines. -/
def encode (lines : List ProperLine) : List UInt8 := lines.flatMap fun l => l.raw ++ [lf]

/-- The line as it is received within a reply: broken if its dash was dropped. -/
def within (l : ProperLine) : ReplyLine := { code := l.code, text := l.text, broken := !l.dashed }

/-- The line as it is received at the end of a reply. -/
def atEnd (l : ProperLine) : ReplyLine := { code := l.code, text := l.text, last := true }

/-! ## One line -/

theorem not_mem_encode_text (l : ProperLine) {b : UInt8} (h : b = cr ∨ b = lf) :
    b ∉ Text.Utf8.encode l.text := by
  intro hb
  rcases h with rfl | rfl
  · exact l.oneLine.1 (Text.Utf8.mem_encode (by decide) hb)
  · exact l.oneLine.2 (Text.Utf8.mem_encode (by decide) hb)

theorem lf_not_mem_raw (l : ProperLine) : lf ∉ l.raw := by
  have hcolumns : lf ∉ columnOctets l.code := not_mem_columnOctets rfl
  have htext := l.not_mem_encode_text (.inr rfl)
  have hseparator : lf ≠ if l.dashed then 45 else 32 := by
    cases l.dashed <;> decide
  have hcr : lf ≠ cr := by decide
  simp [raw, hcolumns, htext, hseparator, hcr]

theorem parts_raw (l : ProperLine) :
    l.raw.Parts 0 (columnOctets l.code)
      ((if l.dashed then 45 else 32) :: (Text.Utf8.encode l.text ++ [cr])) where
  line_eq := rfl
  narrow := by simp [columnOctets, Code.columns]
  plain := not_mem_columnOctets rfl
  begun := by simp [columnOctets, Code.columns]
  full := by simp [columnOctets, Code.columns]

theorem code_raw (l : ProperLine) : l.raw.code = l.code := by
  have hnarrow := l.narrow
  simp only [RawLine.code, l.parts_raw.columns_eq, columnOctets, Code.columns, List.map_cons,
    List.map_nil, List.zipWith_cons_cons, List.zipWith_nil_left, List.foldl_cons, List.foldl_nil]
  rw [digit?_ofNat (by omega), digit?_ofNat (by omega), digit?_ofNat (by omega)]
  simp only [Option.getD_some]
  omega

theorem isDashed_raw (l : ProperLine) : l.raw.isDashed = l.dashed := by
  simp only [RawLine.isDashed, l.parts_raw.columns_eq, l.parts_raw.behind_eq]
  cases l.dashed <;> rfl

theorem isMalformed_raw (l : ProperLine) : l.raw.isMalformed = false := by
  have hdigits : (columnOctets l.code).any (fun b => (digit? b).isNone) = false := by
    rw [List.any_eq_false]
    intro b hb
    obtain ⟨n, hn, rfl⟩ := exists_of_mem_columnOctets hb
    rw [digit?_ofNat hn]
    exact Bool.false_ne_true
  simp only [RawLine.isMalformed, RawLine.isGarbled, l.parts_raw.columns_eq,
    l.parts_raw.behind_eq, hdigits]
  cases l.dashed <;> rfl

theorem text_raw (l : ProperLine) : l.raw.text = Text.Utf8.encode l.text := by
  have hmessage : l.raw.message = Text.Utf8.encode l.text ++ [cr] := by
    simp only [RawLine.message, l.parts_raw.columns_eq, l.parts_raw.behind_eq]
    cases l.dashed <;> rfl
  have hplain : ∀ b ∈ Text.Utf8.encode l.text, (b != cr) = true := fun b hb =>
    bne_iff_ne.mpr fun hcr => l.not_mem_encode_text (.inl hcr) hb
  rw [RawLine.text, hmessage, List.filter_append, List.filter_eq_self.mpr hplain]
  simp

/-- A line that keeps to the grammar is read as it was meant. -/
theorem read_raw (l : ProperLine) :
    l.raw.read = { code := l.code, text := l.text, last := !l.dashed } := by
  simp only [RawLine.read, l.code_raw, l.text_raw, l.isMalformed_raw, l.isDashed_raw,
    Text.Utf8.decodeLossy_encode]

theorem isBlank_raw (l : ProperLine) : l.raw.isBlank = false := l.parts_raw.isBlank_eq

/-- A line that keeps to the grammar costs nothing. -/
theorem toll_raw (l : ProperLine) : l.raw.toll = 0 := by
  have hstray : l.raw.strayReturns = 0 := by
    rw [RawLine.strayReturns, l.parts_raw.returns_eq, l.parts_raw.behind_eq, Nat.zero_add,
      ← List.cons_append, List.dropLast_concat, List.count_eq_zero, List.mem_cons, not_or]
    exact ⟨by cases l.dashed <;> decide, l.not_mem_encode_text (.inl rfl)⟩
  simp [RawLine.toll, hstray, l.isBlank_raw, l.isMalformed_raw]

/-! ## A whole reply -/

theorem encode_cons (l : ProperLine) (lines : List ProperLine) (rest : List UInt8) :
    encode (l :: lines) ++ rest = l.raw ++ lf :: (encode lines ++ rest) := by
  simp [encode]

/-- The octets of a line that costs nothing are read up to its line feed. -/
theorem scan_raw {t k : Nat} (l : ProperLine) (hk : k ≤ t) (lines : List ReplyLine)
    (rest : List UInt8) :
    (inside t k l.raw).deviations ≤ t ∧ k + l.raw.toll ≤ t ∧
      (inside t k []).scan lines (l.raw ++ lf :: rest) =
        (inside t k l.raw).scan lines (lf :: rest) := by
  have hcharges := l.raw.charges_le_toll
  have htoll := l.toll_raw
  have hdeviations : (inside t k l.raw).deviations ≤ t := by
    show k + l.raw.charges ≤ t
    omega
  exact ⟨hdeviations, by omega, scan_part _ [] l.lf_not_mem_raw hdeviations⟩

/-- Behind a line whose dash was dropped stands another line of its code. -/
theorem repeats_encode {l next : ProperLine} (hcode : next.code = l.code)
    (lines : List ProperLine) (rest : List UInt8) :
    repeats l.raw.code (encode (next :: lines) ++ rest) = true := by
  rw [encode_cons, l.code_raw, raw, hcode]
  simp [repeats, columnOctets, Code.columns]

/-- The octets behind the last line are no other line of its code. -/
theorem repeats_eq_false {code : Nat} {rest : List UInt8}
    (h : rest = [] ∨ rest.take 3 ≠ (columnOctets code).take rest.length) :
    repeats code rest = false := by
  rcases h with rfl | h
  · rfl
  · have htake : (columnOctets code).take (rest.take 3).length =
        (columnOctets code).take rest.length := by
      have hlength : (columnOctets code).length = 3 := rfl
      rw [List.take_eq_take_iff, List.length_take, hlength]
      omega
    simp only [repeats, htake, Bool.and_eq_false_iff, beq_eq_false_iff_ne]
    exact .inr h.symm

section

variable {t k : Nat} {l : ProperLine} {lines : List ReplyLine} {rest : List UInt8}

theorem endsReply_raw (l : ProperLine) : l.raw.endsReply = !l.dashed := by
  rw [RawLine.endsReply, l.isBlank_raw, l.isDashed_raw]
  rfl

/-- A line with a dash is followed by another. -/
theorem scan_dashed (hdashed : l.dashed = true) (hk : k ≤ t) :
    (inside t k []).scan lines (l.raw ++ lf :: rest) =
      (inside t k []).scan (l.within :: lines) rest := by
  obtain ⟨hdeviations, htoll, hscan⟩ := l.scan_raw hk lines rest
  have hwithin : l.raw.read = l.within := by
    rw [l.read_raw, within, hdashed]
    rfl
  rw [hscan, scan_lf_of_dashed _ hdeviations htoll l.isBlank_raw (l.isDashed_raw.trans hdashed),
    hwithin, l.toll_raw, Nat.add_zero]

/-- A line whose dash was dropped is charged once, for the other of its code behind it. -/
theorem scan_dropped (hdropped : l.dashed = false) (hrepeats : repeats l.raw.code rest = true)
    (hk : k ≤ t) :
    (inside t k []).scan lines (l.raw ++ lf :: rest) =
      if k + 1 ≤ t then (inside t (k + 1) []).scan (l.within :: lines) rest
      else .thrashing (t + 1) (ofTolerance t) rest := by
  obtain ⟨hdeviations, htoll, hscan⟩ := l.scan_raw hk lines rest
  have hends : l.raw.endsReply = true := by rw [l.endsReply_raw, hdropped, Bool.not_false]
  have hwithin : reopened l.raw = l.within := by
    rw [reopened, l.read_raw, within, hdropped]
    rfl
  rw [hscan, scan_lf_of_repeats _ hdeviations htoll hends hrepeats, hwithin, l.toll_raw,
    Nat.add_zero]

/-- The last line ends the reply. -/
theorem scan_final (hfinal : l.dashed = false) (hrepeats : repeats l.raw.code rest = false)
    (hk : k ≤ t) : ∃ d, (inside t k []).scan lines (l.raw ++ lf :: rest) =
      .complete (lines.reverse ++ [l.atEnd]) d rest := by
  obtain ⟨hdeviations, htoll, hscan⟩ := l.scan_raw hk lines rest
  have hends : l.raw.endsReply = true := by rw [l.endsReply_raw, hfinal, Bool.not_false]
  have hatEnd : l.raw.read = l.atEnd := by
    rw [l.read_raw, atEnd, hfinal]
    rfl
  have hfinish := scan_lf_of_final rest lines hdeviations htoll hends hrepeats
  rw [hatEnd, List.reverse_cons] at hfinish
  exact ⟨_, hscan.trans hfinish⟩

end

theorem scan_encode {final : ProperLine} {rest : List UInt8} (earlier : List ProperLine)
    (hfinal : final.dashed = false)
    (hfolds : (earlier ++ [final]).IsChain fun l next => l.dashed = false → next.code = l.code)
    (hrest : rest = [] ∨ rest.take 3 ≠ (columnOctets final.code).take rest.length)
    {t k : Nat} (hk : k ≤ t) (lines : List ReplyLine) :
    (k + earlier.countP (!·.dashed) ≤ t → ∃ d,
      (inside t k []).scan lines (encode (earlier ++ [final]) ++ rest) =
        .complete (lines.reverse ++ (earlier.map within ++ [final.atEnd])) d rest) ∧
    (t < k + earlier.countP (!·.dashed) → ∃ d left,
      (inside t k []).scan lines (encode (earlier ++ [final]) ++ rest) =
        .thrashing (t + 1) d left) := by
  induction earlier generalizing k lines with
  | nil =>
    refine ⟨fun _ => ?_, fun hlt => absurd hk (Nat.not_le.mpr hlt)⟩
    have hrepeats : repeats final.raw.code rest = false := by
      rw [final.code_raw]
      exact repeats_eq_false hrest
    rw [List.nil_append, encode_cons]
    exact scan_final hfinal hrepeats hk
  | cons l earlier ih =>
    obtain ⟨next, others, hnext⟩ := List.exists_cons_of_ne_nil (l := earlier ++ [final]) (by simp)
    rw [List.cons_append, hnext, List.isChain_cons_cons, ← hnext] at hfolds
    obtain ⟨hcode, hothers⟩ := hfolds
    rw [List.cons_append, encode_cons, List.countP_cons, List.map_cons, List.cons_append]
    cases hdashed : l.dashed with
    | true =>
      rw [scan_dashed hdashed hk]
      simpa using ih hothers hk (l.within :: lines)
    | false =>
      have hrepeats := repeats_encode (hcode hdashed) others rest
      rw [← hnext] at hrepeats
      rw [scan_dropped hdashed hrepeats hk]
      by_cases hle : k + 1 ≤ t
      · rw [if_pos hle]
        simpa [Nat.add_assoc, Nat.add_comm 1] using ih hothers hle (l.within :: lines)
      · rw [if_neg hle]
        refine ⟨fun hcount => absurd hcount ?_, fun _ => ⟨_, _, rfl⟩⟩
        simp
        omega

end ProperLine

namespace ReplyLine

open ProperLine

/-- Decoding undoes encoding, dropped dashes included.  Where a line without a dash is
followed by another of its code, it is taken to have lost its dash: it is marked as broken and
charged once.  If the tolerance bears these charges, codes and texts come back as they were
sent, up to the first line without a dash that no line of its code follows; if it does not,
the decoder gives up. -/
theorem decode_encode {earlier : List ProperLine} {final : ProperLine} {rest : List UInt8}
    (hfinal : final.dashed = false)
    (hfolds : (earlier ++ [final]).IsChain fun l next => l.dashed = false → next.code = l.code)
    (hrest : rest = [] ∨ rest.take 3 ≠ (columnOctets final.code).take rest.length) (t : Nat) :
    ReplyLine.decode t (encode (earlier ++ [final]) ++ rest) =
      if earlier.countP (!·.dashed) ≤ t then .ok (earlier.map within ++ [final.atEnd])
      else .error (.replyThrashing (t + 1)) := by
  obtain ⟨hok, hthrashing⟩ :=
    scan_encode earlier hfinal hfolds hrest (k := 0) (Nat.zero_le t) []
  rw [Nat.zero_add] at hok hthrashing
  rw [ReplyLine.decode, show Decoder.ofTolerance t = inside t 0 [] from rfl]
  by_cases hle : earlier.countP (!·.dashed) ≤ t
  · obtain ⟨d, hd⟩ := hok hle
    rw [if_pos hle, hd]
    rfl
  · obtain ⟨d, left, hd⟩ := hthrashing (Nat.lt_of_not_le hle)
    rw [if_neg hle, hd]

/-- Texts that look like the code, a dash or nothing, two dropped dashes, and a reply with
another code behind. -/
theorem decode_encode_dropped :
    let earlier : List ProperLine :=
      [⟨250, false, "250-é", by decide, by decide⟩, ⟨250, true, "", by decide, by decide⟩,
        ⟨250, false, "- ", by decide, by decide⟩]
    let final : ProperLine := ⟨250, false, "ok", by decide, by decide⟩
    let octets := encode (earlier ++ [final]) ++ [50, 53, 49, 32]
    ReplyLine.decode 2 octets =
        .ok [⟨250, "250-é", true, false⟩, ⟨250, "", false, false⟩, ⟨250, "- ", true, false⟩,
          ⟨250, "ok", false, true⟩] ∧
      ReplyLine.decode 1 octets = .error (.replyThrashing 2) := by
  intro earlier final octets
  have h := @decode_encode earlier final [50, 53, 49, 32] rfl (by decide) (by decide)
  exact ⟨h 2, h 1⟩

end ReplyLine

end MailSubmission
