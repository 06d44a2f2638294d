import MailSubmission.Proofs.ReplyReading
import MailSubmission.Proofs.TextTransparency

set_option autoImplicit false

/-!
# Lines that are read together

The lines of a reply are read together as one reply, with line feeds between their texts.  Nothing
is lost by that, since no text of a line has a line feed of its own: the decoder ends the line at
each, and leaves out the carriage returns (`ReplyLine.collapse_keeps_lines`).
-/

namespace MailSubmission

open Decoder (cr lf)

namespace RawLine

/-! ## What a line is made of -/

/-- No line has a line feed in it. -/
theorem lf_notMem_of_mem_complete {begun line : RawLine} {octets : List UInt8} (hbegun : lf ∉ begun)
    (h : line ∈ complete begun octets) : lf ∉ line := by
  induction octets generalizing begun with
  | nil => exact absurd h List.not_mem_nil
  | cons b rest ih =>
    rw [complete] at h
    split at h
    · rcases List.mem_cons.mp h with rfl | hrest
      · exact hbegun
      · exact ih List.not_mem_nil hrest
    · rename_i hb
      refine ih ?_ h
      rw [List.mem_append, List.mem_singleton, not_or]
      exact ⟨hbegun, Ne.symm hb⟩

/-- The text is what is left of the line when other octets are taken out. -/
theorem text_sublist (line : RawLine) : line.text.Sublist line := by
  have hbehind : line.behind.Sublist line :=
    (List.drop_sublist _ _).trans (List.dropWhile_sublist _)
  have hmessage : line.message.Sublist line := by
    unfold message
    split
    · exact (List.tail_sublist _).trans hbehind
    · exact hbehind
  exact List.filter_sublist.trans hmessage

theorem cr_notMem_text (line : RawLine) : cr ∉ line.text := by
  simp [text]

end RawLine

namespace ReplyLine

open RawLine Text.Utf8

variable {t : Nat} {octets : List UInt8} {lines : List ReplyLine} {l : ReplyLine}

/-- A decoded reply ends with a line, and each of its lines came in between line feeds. -/
theorem exists_raw (h : decode t octets = .ok lines) :
    ∃ before final, lines = before.map RawLine.within ++ [final.read] ∧
      ∀ line ∈ before ++ [final], lf ∉ line := by
  obtain ⟨d, consumed, before, final, -, hcomplete, -, hlines, -⟩ := exists_completes h
  refine ⟨before.filter (!·.isBlank), final, hlines, fun line hline => ?_⟩
  have hmem : line ∈ complete [] consumed := by
    rw [hcomplete]
    exact (List.filter_sublist.append_right _).subset hline
  exact lf_notMem_of_mem_complete List.not_mem_nil hmem

theorem exists_raw_of_mem (h : decode t octets = .ok lines) (hl : l ∈ lines) :
    ∃ line : RawLine, lf ∉ line ∧ l.code = line.code ∧ l.text = decodeLossy line.text := by
  obtain ⟨before, final, rfl, hraw⟩ := exists_raw h
  rw [List.forall_mem_append, List.forall_mem_singleton] at hraw
  rw [List.mem_append, List.mem_map, List.mem_singleton] at hl
  rcases hl with ⟨line, hline, rfl⟩ | rfl
  · exact ⟨line, hraw.1 line hline, rfl, rfl⟩
  · exact ⟨final, hraw.2, rfl, rfl⟩

theorem code_le_of_mem (h : decode t octets = .ok lines) (hl : l ∈ lines) : l.code ≤ 999 := by
  obtain ⟨line, -, hcode, -⟩ := exists_raw_of_mem h hl
  rw [hcode]
  exact Nat.le_of_lt_succ line.code_lt

theorem cr_notMem_text (h : decode t octets = .ok lines) (hl : l ∈ lines) :
    '\r' ∉ l.text.toList := by
  obtain ⟨line, -, -, htext⟩ := exists_raw_of_mem h hl
  rw [htext]
  exact fun hmem => line.cr_notMem_text (mem_of_mem_decodeLossy (by decide) (by decide) hmem)

theorem lf_notMem_text (h : decode t octets = .ok lines) (hl : l ∈ lines) :
    '\n' ∉ l.text.toList := by
  obtain ⟨line, hlf, -, htext⟩ := exists_raw_of_mem h hl
  rw [htext]
  intro hmem
  exact hlf (line.text_sublist.subset (mem_of_mem_decodeLossy (by decide) (by decide) hmem))

/-! ## Lines together and lines apart -/

/-- Texts that are joined by line feeds are found between them. -/
theorem splitOn_text_collapse {before : List ReplyLine} {final : ReplyLine}
    (hlf : ∀ l ∈ before ++ [final], '\n' ∉ l.text.toList) :
    ((collapse (before ++ [final])).text.toList.splitOn '\n').map String.ofList =
      (before ++ [final]).map (·.text) := by
  have hsep : "\n".toList = ['\n'] := rfl
  rw [collapse_concat, String.toList_intercalate, hsep,
    List.splitOn_intercalate '\n' ?_ (by simp), List.map_map, List.map_map]
  · exact List.map_congr_left fun l _ => String.ofList_toList
  · rw [List.forall_mem_map, List.forall_mem_map]
    exact hlf

/-- What a line says by itself. -/
theorem forall₂_expand (lines : List ReplyLine) :
    List.Forall₂ (fun l r => r = { code := l.code, text := l.text, broken := l.broken }) lines
      (expand lines) := by
  rw [expand, List.forall₂_map_right_iff]
  exact List.forall₂_same.mpr fun l _ => rfl

/-- Whatever came in and whatever was put up with: the codes of a decoded reply have three digits,
and in the texts of its lines there is neither a carriage return nor a line feed.  So the lines are
found again in the reply that they are collapsed to.  It has the code of the last line, and is
broken if a line is or if a code differs from that one; apart, each line says the same as before. -/
theorem collapse_keeps_lines (h : decode t octets = .ok lines) :
    (∀ l ∈ lines, l.code ≤ 999 ∧ '\r' ∉ l.text.toList ∧ '\n' ∉ l.text.toList) ∧
    ((collapse lines).text.toList.splitOn '\n').map String.ofList = lines.map (·.text) ∧
    (∃ before final, lines = before ++ [final] ∧ (collapse lines).code = final.code ∧
      ((collapse lines).broken = true ↔ ∃ l ∈ lines, l.broken = true ∨ l.code ≠ final.code)) ∧
    List.Forall₂ (fun l r => r = { code := l.code, text := l.text, broken := l.broken }) lines
      (expand lines) := by
  have hlf : ∀ l ∈ lines, '\n' ∉ l.text.toList := fun l hl => lf_notMem_text h hl
  refine ⟨fun l hl => ⟨code_le_of_mem h hl, cr_notMem_text h hl, hlf l hl⟩, ?_, ?_,
    forall₂_expand lines⟩
  · obtain ⟨before, final, rfl, -⟩ := exists_raw h
    exact splitOn_text_collapse hlf
  · obtain ⟨before, final, rfl, -⟩ := exists_raw h
    refine ⟨before.map RawLine.within, final.read, rfl, ?_, ?_⟩
    · rw [collapse_concat]
    · rw [collapse_concat, List.any_eq_true]
      simp only [Bool.or_eq_true, bne_iff_ne]

/-- Lines of three codes, with a carriage return in a text, an empty text, a blank line, an unknown
separator and an octet that begins no character. -/
theorem collapse_keeps_threeCodes :
    let octets := Text.Utf8.encode "250-A\rB\n2?0-\r\n\n999+c" ++ [255, cr, lf]
    let lines : List ReplyLine := [⟨250, "AB", false, false⟩, ⟨200, "", true, false⟩,
      ⟨999, "+c\uFFFD", true, true⟩]
    ReplyLine.decode 4 octets = .ok lines ∧
    (∀ l ∈ lines, l.code ≤ 999 ∧ '\r' ∉ l.text.toList ∧ '\n' ∉ l.text.toList) ∧
    ((collapse lines).text.toList.splitOn '\n').map String.ofList = lines.map (·.text) ∧
    (∃ before final, lines = before ++ [final] ∧ (collapse lines).code = final.code ∧
      ((collapse lines).broken = true ↔ ∃ l ∈ lines, l.broken = true ∨ l.code ≠ final.code)) ∧
    List.Forall₂ (fun l r => r = { code := l.code, text := l.text, broken := l.broken }) lines
      (expand lines) := by
  intro octets lines
  have hlines : ReplyLine.decode 4 octets = .ok lines := by decide +kernel
  exact ⟨hlines, collapse_keeps_lines hlines⟩

end ReplyLine

end MailSubmission
