import MailSubmission.Proofs.ReplyExtent
import MailSubmission.Proofs.ReplyFolding

set_option autoImplicit false

/-!
# What a reply says

The lines of a reply can be read off its octets without a decoder: they are the pieces between
the line feeds, but for the carriage returns ahead of them and the pieces with nothing else, and
each has its code in three columns, perhaps a separator, and its text (`ReplyLine.decode_reads`).
-/

namespace MailSubmission

open Decoder (cr lf digit?)

namespace Decoder

/-- Scanning the octets ends with the reply that is complete in `consumed`: they report `lines`, and
leave the octets behind them. -/
structure Completes (t : Nat) (octets : List UInt8) (lines : List ReplyLine) (d : Decoder)
    (consumed : List UInt8) : Prop where
  scan_eq : ∃ rest, (ofTolerance t).scan [] octets = .complete lines d rest ∧
    octets = consumed ++ rest
  whole : RawLine.unfinished [] consumed = []

end Decoder

namespace ReplyLine

open Decoder RawLine

variable {t : Nat} {octets : List UInt8} {lines : List ReplyLine}

/-- Decoding that returns lines has found the end of a reply, and has charged its cost. -/
theorem exists_completes (h : ReplyLine.decode t octets = .ok lines) :
    ∃ d consumed before final, Completes t octets lines d consumed ∧
      complete [] consumed = before ++ [final] ∧ final.endsReply = true ∧
      lines = reported before ++ [final.read] ∧
      d.deviations = ((complete [] consumed).map toll).sum + before.countP endsReply := by
  have hfollows := scan_ofTolerance_follows t octets
  rw [ReplyLine.decode] at h
  cases hscan : (ofTolerance t).scan [] octets with
  | more lines' d => simp [hscan] at h
  | thrashing seen d rest => simp [hscan] at h
  | complete lines' d rest =>
    rw [hscan] at h
    obtain rfl := Except.ok.inj h
    rw [hscan] at hfollows
    obtain ⟨before, final, hextent, -, hlines, hd⟩ := hfollows
    obtain ⟨⟨consumed, hoctets, hcomplete, hunfinished⟩, hends⟩ := of_extent_eq_whole hextent
    rw [hextent, Nat.zero_add, Extent.cost, ← hcomplete] at hd
    exact ⟨d, consumed, before, final, ⟨⟨rest, hscan, hoctets⟩, hunfinished⟩, hcomplete, hends,
      hlines, hd⟩

theorem shownLines_of_complete {consumed : List UInt8} {before : List RawLine} {final : RawLine}
    (hcomplete : complete [] consumed = before ++ [final]) (hends : final.endsReply = true) :
    shownLines consumed = before.filter (!·.isBlank) ++ [final] := by
  rw [shownLines, hcomplete, List.filter_append]
  simp [(endsReply_iff.mp hends).1]

/-- The decoder reads a reply as it can be read off its octets.  What is consumed is cut at its line
feeds; the carriage returns ahead of a piece are dropped, and so are the pieces of which nothing
is left.  Of each other piece the code is that in its three columns, the text what stands
behind its separator, and it is broken if it is malformed.  Only the last has no dash, but for
lines that are broken, since their dash was dropped. -/
theorem decode_reads (h : ReplyLine.decode t octets = .ok lines) :
    ∃ d consumed before final, Completes t octets lines d consumed ∧
      shownLines consumed = before ++ [final] ∧ final.isDashed = false ∧
      lines = before.map within ++ [final.read] := by
  obtain ⟨d, consumed, before, final, hcompletes, hcomplete, hends, hlines, -⟩ :=
    exists_completes h
  exact ⟨d, consumed, before.filter (!·.isBlank), final, hcompletes,
    shownLines_of_complete hcomplete hends, (endsReply_iff.mp hends).2, hlines⟩

/-- A reply with nearly everything wrong: stray carriage returns, a garbled code, a blank line,
a code cut short, dropped dashes, an unknown separator and an octet that begins no character. -/
theorem decode_reads_garbledReply :
    let octets := Text.Utf8.encode "\r2X0-JUNK\r\n\n25\rab\r\n250 A\rB\r\n250+o" ++
      255 :: Text.Utf8.encode "d\n354 more\r\n"
    let lines : List ReplyLine := [⟨200, "JUNK", true, false⟩, ⟨250, "ab", true, false⟩,
      ⟨250, "AB", true, false⟩, ⟨250, "+o\uFFFDd", true, true⟩]
    ReplyLine.decode 9 octets = .ok lines ∧
      ∃ d consumed before final, Completes 9 octets lines d consumed ∧
        shownLines consumed = before ++ [final] ∧ final.isDashed = false ∧
        lines = before.map within ++ [final.read] := by
  intro octets lines
  have hlines : ReplyLine.decode 9 octets = .ok lines := by decide +kernel
  exact ⟨hlines, decode_reads hlines⟩

end ReplyLine

/-! ## Lines as the grammar has them -/

namespace RawLine

open Decoder

variable {line : RawLine} {digits message ending : List UInt8}

/-- The grammar of a line: three digits, then perhaps a dash or a space and a text, then perhaps a
carriage return. -/
structure Grammar (line digits message ending : List UInt8) : Prop where
  line_eq : line = digits ++ (message ++ ending)
  three : digits.length = 3
  numeric : ∀ b ∈ digits, (digit? b).isSome = true
  separated : message = [] ∨ message.head? = some 45 ∨ message.head? = some 32
  plain : cr ∉ message
  ended : ending = [] ∨ ending = [cr]

/-- A line as the grammar has it. -/
def IsWellFormed (line : RawLine) : Prop :=
  ∃ digits message ending, Grammar line digits message ending

theorem isMalformed_of_isBlank (hblank : line.isBlank = true) : line.isMalformed = true := by
  rw [line.parts.isBlank_eq, List.isEmpty_iff] at hblank
  simp [isMalformed, hblank]

/-- A line has three digits and behind them a separator or its end, or it is malformed. -/
theorem isMalformed_eq_false_iff :
    line.isMalformed = false ↔ line.columns.length = 3 ∧
      (∀ b ∈ line.columns, (digit? b).isSome = true) ∧
      ∀ b ∈ line.behind.head?, b = 45 ∨ b = 32 ∨ b = cr := by
  by_cases hthree : line.columns.length = 3
  · cases hhead : line.behind.head? with
    | none => simp [isMalformed, isGarbled, hthree, hhead, Option.isSome_iff_ne_none]
    | some b =>
      simp [isMalformed, isGarbled, hthree, hhead, Option.isSome_iff_ne_none, or_iff_not_imp_left]
  · simp [isMalformed, hthree]

theorem toll_eq_zero_iff_strayReturns :
    line.toll = 0 ↔ line.strayReturns = 0 ∧ line.isMalformed = false := by
  cases hblank : line.isBlank with
  | true => simp [toll, hblank, isMalformed_of_isBlank hblank]
  | false => simp [toll, hblank]

theorem Grammar.parts (h : Grammar line digits message ending) :
    line.Parts 0 digits (message ++ ending) where
  line_eq := h.line_eq
  narrow := Nat.le_of_eq h.three
  plain hmem := absurd (h.numeric cr hmem) (by decide)
  begun hnil := absurd h.three (by rw [hnil]; decide)
  full hlt := absurd h.three (Nat.ne_of_lt hlt)

/-- A line as the grammar has it costs nothing. -/
theorem Grammar.toll_eq (h : Grammar line digits message ending) : line.toll = 0 := by
  have hparts := h.parts
  rw [toll_eq_zero_iff_strayReturns, isMalformed_eq_false_iff, strayReturns, hparts.returns_eq,
    hparts.columns_eq, hparts.behind_eq, Nat.zero_add, List.count_eq_zero]
  refine ⟨fun hmem => ?_, h.three, h.numeric, fun b hb => ?_⟩
  · rcases h.ended with hnil | hcr
    · rw [hnil, List.append_nil] at hmem
      exact h.plain (List.dropLast_subset _ hmem)
    · rw [hcr, List.dropLast_concat] at hmem
      exact h.plain hmem
  · rcases h.separated with hnil | hseparator
    · rcases h.ended with hend | hend
      · simp [hnil, hend] at hb
      · simp [hnil, hend] at hb
        exact .inr (.inr hb.symm)
    · rcases hseparator with hdash | hspace
      · simp [List.head?_append, hdash] at hb
        exact .inl hb.symm
      · simp [List.head?_append, hspace] at hb
        exact .inr (.inl hb.symm)

theorem separated_of_head? (hhead : ∀ b ∈ message.head?, b = 45 ∨ b = 32 ∨ b = cr)
    (hplain : cr ∉ message) : message = [] ∨ message.head? = some 45 ∨ message.head? = some 32 := by
  cases message with
  | nil => exact .inl rfl
  | cons b text =>
    have hcr : b ≠ cr := fun hcr => hplain (hcr ▸ List.mem_cons_self)
    simpa [hcr] using hhead b rfl

/-- What costs nothing is a line as the grammar has it. -/
theorem isWellFormed_of_toll (h : line.toll = 0) : line.IsWellFormed := by
  rw [toll_eq_zero_iff_strayReturns, isMalformed_eq_false_iff, strayReturns, Nat.add_eq_zero_iff,
    List.count_eq_zero] at h
  obtain ⟨⟨hreturns, hstray⟩, hthree, hnumeric, hhead⟩ := h
  have hline := line.parts.line_eq
  rw [hreturns, List.replicate_zero, List.nil_append] at hline
  by_cases hend : line.behind.getLast? = some cr
  · -- The carriage return at the end is no part of the message.
    obtain ⟨message, hbehind⟩ := List.getLast?_eq_some_iff.mp hend
    rw [hbehind, List.dropLast_concat] at hstray
    rw [hbehind] at hline
    refine ⟨line.columns, message, [cr], hline, hthree, hnumeric,
      separated_of_head? (fun b hb => hhead b ?_) hstray, hstray, .inr rfl⟩
    rw [hbehind, List.head?_append, hb]
    rfl
  · have hplain : cr ∉ line.behind := fun hmem => by
      have hne := List.ne_nil_of_mem hmem
      rw [← List.dropLast_concat_getLast hne, List.mem_append, List.mem_singleton] at hmem
      refine hend ((List.getLast?_eq_some_getLast hne).trans ?_)
      rw [← hmem.resolve_left hstray]
    refine ⟨line.columns, line.behind, [], ?_, hthree, hnumeric, separated_of_head? hhead hplain,
      hplain, .inl rfl⟩
    rwa [List.append_nil]

theorem toll_eq_zero_iff : line.toll = 0 ↔ line.IsWellFormed :=
  ⟨isWellFormed_of_toll, fun ⟨_, _, _, h⟩ => h.toll_eq⟩

/-- Where no line that shows something is malformed, stray carriage returns and blank lines are all
that is charged. -/
theorem sum_toll_of_isMalformed {lines : List RawLine}
    (h : ∀ line ∈ lines, line.isBlank = false → line.isMalformed = false) :
    (lines.map toll).sum = (lines.map strayReturns).sum + lines.countP isBlank := by
  induction lines with
  | nil => rfl
  | cons line lines ih =>
    rw [List.forall_mem_cons] at h
    have hline : line.toll = line.strayReturns + line.isBlank.toNat := by
      cases hblank : line.isBlank with
      | true => simp [toll, hblank]
      | false => simp [toll, hblank, h.1 hblank]
    rw [List.map_cons, List.map_cons, List.sum_cons, List.sum_cons, ih h.2, hline, List.countP_cons]
    cases line.isBlank <;> simp <;> omega

end RawLine

namespace ReplyLine

theorem collapse_concat (lines : List ReplyLine) (final : ReplyLine) :
    collapse (lines ++ [final]) =
      { code := final.code
        text := "\n".intercalate ((lines ++ [final]).map (·.text))
        broken := (lines ++ [final]).any fun l => l.broken || l.code != final.code } := by
  rw [collapse, List.getLast?_concat]

theorem broken_collapse_concat (lines : List ReplyLine) (final : ReplyLine) :
    (collapse (lines ++ [final])).broken = false ↔
      ∀ l ∈ lines ++ [final], l.broken = false ∧ l.code = final.code := by
  rw [collapse_concat, List.any_eq_false]
  simp only [Bool.or_eq_true, bne_iff_ne, not_or, Bool.not_eq_true, not_not]

open RawLine in
/-- A reply is broken if a line of it is malformed or has no dash before the end, or if the codes
differ. -/
theorem broken_collapse_eq_false_iff (before : List RawLine) (final : RawLine) :
    (collapse (before.map within ++ [final.read])).broken = false ↔
      (∀ line ∈ before, line.isDashed = true) ∧
        ∀ line ∈ before ++ [final], line.isMalformed = false ∧ line.code = final.code := by
  have hwithin : ∀ line : RawLine, line.within.broken = false ∧ line.within.code = final.code ↔
      line.isDashed = true ∧ line.isMalformed = false ∧ line.code = final.code := by
    intro line
    simp only [within, Bool.or_eq_false_iff, Bool.not_eq_false']
    tauto
  rw [broken_collapse_concat, List.forall_mem_append, List.forall_mem_append, List.forall_mem_map,
    List.forall_mem_singleton, List.forall_mem_singleton]
  simp only [RawLine.read, hwithin, forall_and]
  tauto

end ReplyLine

namespace Reply

open Decoder RawLine

variable {octets : List UInt8} {r : Reply}

theorem exists_decode (h : Reply.decode octets = .ok r) :
    ∃ lines, ReplyLine.decode defaultTolerance octets = .ok lines ∧
      ReplyLine.collapse lines = r := by
  rw [Reply.decode] at h
  cases hlines : ReplyLine.decode defaultTolerance octets with
  | error fault => simp [hlines, Except.map] at h
  | ok lines => exact ⟨lines, rfl, by simpa [hlines, Except.map] using h⟩

/-- What the mark of a reply tells.  A reply is unbroken if its lines are well formed up to their
separators, have the same code, and all but the last have a dash.  Stray carriage returns and blank
lines leave no mark: they are what is charged for an unbroken reply, and if there are none, its
octets are lines as the grammar has them. -/
theorem unbroken_iff (h : Reply.decode octets = .ok r) :
    ∃ lines d consumed before final, Completes defaultTolerance octets lines d consumed ∧
      shownLines consumed = before ++ [final] ∧ final.isDashed = false ∧
      (r.broken = false ↔ (∀ line ∈ before, line.isDashed = true) ∧
        ∀ line ∈ before ++ [final], line.isMalformed = false ∧ line.code = r.code) ∧
      (r.broken = false →
        d.deviations = ((complete [] consumed).map strayReturns).sum +
          (complete [] consumed).countP isBlank ∧
        (d.deviations = 0 ↔ ∀ line ∈ complete [] consumed, line.IsWellFormed)) := by
  obtain ⟨lines, hlines, hr⟩ := exists_decode h
  obtain ⟨d, consumed, before, final, hcompletes, hcomplete, hends, hreported, hd⟩ :=
    ReplyLine.exists_completes hlines
  have hshown := ReplyLine.shownLines_of_complete hcomplete hends
  have hbroken := ReplyLine.broken_collapse_eq_false_iff (before.filter (!·.isBlank)) final
  have hcode : r.code = final.code := by
    rw [← hr, hreported, ReplyLine.collapse_concat]
    rfl
  rw [← reported, ← hreported, hr, ← hcode] at hbroken
  refine ⟨lines, d, consumed, before.filter (!·.isBlank), final, hcompletes, hshown,
    (endsReply_iff.mp hends).2, hbroken, fun hunbroken => ?_⟩
  obtain ⟨hdashed, hproper⟩ := hbroken.mp hunbroken
  have hsum : d.deviations = ((complete [] consumed).map toll).sum := by
    rw [hd, Nat.add_eq_left, List.countP_eq_zero]
    intro line hline hopen
    obtain ⟨hblank, hopen⟩ := endsReply_iff.mp hopen
    have hdash := hdashed line (List.mem_filter.mpr ⟨hline, by simp [hblank]⟩)
    simp [hopen] at hdash
  rw [hsum, List.sum_eq_zero_iff_forall_eq_nat, List.forall_mem_map]
  refine ⟨sum_toll_of_isMalformed fun line hline hblank => ?_, ?_⟩
  · have hmem : line ∈ shownLines consumed := List.mem_filter.mpr ⟨hline, by simp [hblank]⟩
    rw [hshown] at hmem
    exact (hproper line hmem).1
  · simp only [toll_eq_zero_iff]

/-- Two lines with a blank one between them and a carriage return within the second. -/
def returnedReply : List UInt8 := Text.Utf8.encode "250-a\r\n\n250 b\rc\r\n"

theorem decode_returnedReply :
    Reply.decode returnedReply = .ok { code := 250, text := "a\nbc" } := by
  decide +kernel

theorem unbroken_iff_returnedReply :
    Reply.decode returnedReply = .ok { code := 250, text := "a\nbc" } ∧
      ∃ lines d consumed, Completes defaultTolerance returnedReply lines d consumed ∧
        d.deviations = ((complete [] consumed).map strayReturns).sum +
          (complete [] consumed).countP isBlank := by
  obtain ⟨lines, d, consumed, -, -, hcompletes, -, -, -, hcharged⟩ :=
    unbroken_iff decode_returnedReply
  exact ⟨decode_returnedReply, lines, d, consumed, hcompletes, (hcharged rfl).1⟩

/-- An unbroken reply may have been charged: the carriage return within its text was stray. -/
theorem unbroken_not_always_grammatical :
    ¬ ∀ (octets : List UInt8) (r : Reply), Reply.decode octets = .ok r → r.broken = false →
      ∃ lines d consumed, Completes defaultTolerance octets lines d consumed ∧
        d.deviations = 0 ∧ ∀ line ∈ complete [] consumed, line.IsWellFormed := by
  intro h
  let octets := Text.Utf8.encode "250 A\rB\r\n"
  have hdecode : Reply.decode octets = .ok { code := 250, text := "AB" } := by decide +kernel
  have hcharged : (ofTolerance defaultTolerance).scan [] octets =
      .complete [⟨250, "AB", false, true⟩] { deviations := 1, replyDone := true } [] := by
    decide +kernel
  obtain ⟨lines, d, consumed, ⟨⟨rest, hscan, -⟩, -⟩, hd, -⟩ := h octets _ hdecode rfl
  rw [hcharged] at hscan
  obtain ⟨-, rfl, -⟩ := hscan
  exact absurd hd (by decide)

end Reply

end MailSubmission
