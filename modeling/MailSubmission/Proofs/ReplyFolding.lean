import Mathlib.Data.List.Chain
import MailSubmission.Proofs.BodySending
import MailSubmission.Proofs.ReplyScanning

set_option autoImplicit false

/-!
# Which lines are folded together

A line without a dash that is not the last of its reply was followed, in the buffer, by octets
that start another line of its code, as far as they went.  So the line behind it shares as
many digits of the code as had come in (`Link.readReply_folds`), which may be one
(`Link.different_codes_folded`).
-/

namespace MailSubmission

open Decoder (cr lf digit? columnOctets)

namespace RawLine

/-- The lines of some octets that are more than blank. -/
def shownLines (octets : List UInt8) : List RawLine := (complete [] octets).filter (!·.isBlank)

/-! ## Digits at the front of a line -/

/-- Digits at the front of a line stand in its columns. -/
theorem prefix_columns {line : RawLine} {digits : List UInt8} (h : digits <+: line)
    (hcr : cr ∉ digits) (hbegun : digits ≠ []) (hnarrow : digits.length ≤ 3) :
    digits <+: line.columns := by
  obtain ⟨more, rfl⟩ := h
  have hshown : shown (digits ++ more) = digits ++ more := by
    cases digits with
    | nil => exact absurd rfl hbegun
    | cons b rest =>
      have hb : b ≠ cr := fun hb => hcr (hb ▸ List.mem_cons_self)
      rw [shown, List.cons_append, List.dropWhile_cons_of_neg (by simpa using hb)]
  have hplain : ∀ b ∈ digits, (b != cr) = true := fun b hb =>
    bne_iff_ne.mpr fun hbcr => hcr (hbcr ▸ hb)
  rw [columns, hshown, List.take_append, List.take_of_length_le hnarrow,
    List.takeWhile_append_of_pos hplain]
  exact List.prefix_append _ _

/-- The digit in a column of the code; what is none counts nothing. -/
def digitAt (line : RawLine) (i : Nat) : Nat := (line.columns[i]?.bind digit?).getD 0

theorem digitAt_le (line : RawLine) (i : Nat) : line.digitAt i ≤ 9 := by
  unfold digitAt
  cases line.columns[i]? with
  | none => exact Nat.zero_le 9
  | some b =>
    simp only [Option.bind_some, digit?]
    split
    · rename_i h
      simp only [UInt8.le_iff_toNat_le, UInt8.reduceToNat, Bool.and_eq_true,
        decide_eq_true_eq] at h
      simp only [Option.getD_some]
      omega
    · exact Nat.zero_le 9

theorem code_eq (line : RawLine) :
    line.code = line.digitAt 0 * 100 + line.digitAt 1 * 10 + line.digitAt 2 := by
  have hnarrow := line.parts.narrow
  unfold code digitAt
  match hcolumns : line.columns with
  | [] | [_] | [_, _] => simp
  | [_, _, _] => simp [Nat.add_assoc]
  | _ :: _ :: _ :: _ :: _ =>
    rw [hcolumns] at hnarrow
    simp only [List.length_cons] at hnarrow
    omega

theorem code_lt (line : RawLine) : line.code < 1000 := by
  have h₀ := line.digitAt_le 0
  have h₁ := line.digitAt_le 1
  have h₂ := line.digitAt_le 2
  rw [code_eq]
  omega

theorem columnOctets_code (line : RawLine) :
    columnOctets line.code = [.ofNat (line.digitAt 0 + 48), .ofNat (line.digitAt 1 + 48),
      .ofNat (line.digitAt 2 + 48)] := by
  have h₀ := line.digitAt_le 0
  have h₁ := line.digitAt_le 1
  have h₂ := line.digitAt_le 2
  have hcolumns : Code.columns line.code = [line.digitAt 0, line.digitAt 1, line.digitAt 2] := by
    rw [code_eq, Code.columns, List.cons.injEq, List.cons.injEq, List.cons.injEq]
    exact ⟨by omega, by omega, by omega, rfl⟩
  rw [columnOctets, hcolumns]
  rfl

/-- A line that starts with digits of a code shares these digits. -/
theorem columnOctets_of_prefix {line : RawLine} {code n : Nat} (hn : 0 < n)
    (h : (columnOctets code).take n <+: line) :
    line.isBlank = false ∧ (columnOctets line.code).take n = (columnOctets code).take n := by
  have hbegun : (columnOctets code).take n ≠ [] := by
    rw [Ne, List.take_eq_nil_iff, not_or]
    exact ⟨by omega, by simp [columnOctets, Code.columns]⟩
  have hcr : cr ∉ (columnOctets code).take n := fun hmem =>
    Decoder.not_mem_columnOctets rfl (List.mem_of_mem_take hmem)
  have hcolumns := prefix_columns h hcr hbegun (List.length_take_le' ..)
  refine ⟨?_, ?_⟩
  · rw [line.parts.isBlank_eq, List.isEmpty_eq_false_iff]
    rintro hnil
    rw [hnil, List.prefix_nil] at hcolumns
    exact hbegun hcolumns
  · -- The digits of the line, as far as they are known to be those of the code.
    obtain ⟨more, hmore⟩ := hcolumns
    have hdigit : ∀ i d, i < n → d < 10 → (Code.columns code)[i]? = some d →
        line.digitAt i = d := by
      intro i d hi hd hcode
      have htake : ((columnOctets code).take n)[i]? = some (.ofNat (d + 48)) := by
        rw [List.getElem?_take_of_lt hi, columnOctets, List.getElem?_map, hcode]
        rfl
      have hlength := (List.getElem?_eq_some_iff.mp htake).1
      rw [digitAt, ← hmore, List.getElem?_append_left hlength, htake, Option.bind_some,
        Decoder.digit?_ofNat hd]
      rfl
    have h₀ := hdigit 0 (code / 100 % 10)
    have h₁ := hdigit 1 (code / 10 % 10)
    have h₂ := hdigit 2 (code % 10)
    rw [columnOctets_code]
    obtain rfl | rfl | ⟨m, rfl⟩ : n = 1 ∨ n = 2 ∨ ∃ m, n = m + 3 := by
      by_cases hlong : 3 ≤ n
      · exact .inr (.inr ⟨n - 3, by omega⟩)
      · omega
    · rw [h₀ (by omega) (by omega) rfl]
      rfl
    · rw [h₀ (by omega) (by omega) rfl, h₁ (by omega) (by omega) rfl]
      rfl
    · rw [h₀ (by omega) (by omega) rfl, h₁ (by omega) (by omega) rfl,
        h₂ (by omega) (by omega) rfl]
      rfl

theorem octet_inj {m n : Nat} (hm : m < 10) (hn : n < 10)
    (h : UInt8.ofNat (m + 48) = UInt8.ofNat (n + 48)) : m = n := by
  have hdigit := congrArg digit? h
  rw [Decoder.digit?_ofNat hm, Decoder.digit?_ofNat hn] at hdigit
  exact Option.some.inj hdigit

theorem hundreds_eq {line next : RawLine}
    (h : (columnOctets next.code).take 1 = (columnOctets line.code).take 1) :
    next.code / 100 = line.code / 100 := by
  have hline := line.code_lt
  have hnext := next.code_lt
  have hdigit := octet_inj (by omega) (by omega) (List.cons.inj h).1
  omega

theorem code_inj {line next : RawLine}
    (h : (columnOctets next.code).take 3 = (columnOctets line.code).take 3) :
    next.code = line.code := by
  have hline := line.code_lt
  have hnext := next.code_lt
  obtain ⟨h₀, h⟩ := List.cons.inj h
  obtain ⟨h₁, h⟩ := List.cons.inj h
  have hdigit₀ := octet_inj (by omega) (by omega) h₀
  have hdigit₁ := octet_inj (by omega) (by omega) h₁
  have hdigit₂ := octet_inj (by omega) (by omega) (List.cons.inj h).1
  omega

/-! ## A stream that goes on -/

theorem shownLines_append (seen octets : List UInt8) :
    shownLines (seen ++ octets) =
      shownLines seen ++ (complete (unfinished [] seen) octets).filter (!·.isBlank) := by
  rw [shownLines, complete_append, List.filter_append]
  rfl

theorem unfinished_of_not_mem {begun : RawLine} {part : List UInt8} (h : lf ∉ part) :
    unfinished begun part = begun ++ part := by
  induction part generalizing begun with
  | nil => rw [List.append_nil]; rfl
  | cons b part ih =>
    rw [List.mem_cons, not_or] at h
    rw [unfinished, if_neg (Ne.symm h.1), ih h.2, ← List.append_cons]

/-- What starts a stream and has no line feed starts its first line. -/
theorem prefix_of_prefix_lf {digits line rest : List UInt8} (h : digits <+: line ++ lf :: rest)
    (hlf : lf ∉ digits) : digits <+: line := by
  rcases Nat.lt_or_ge line.length digits.length with hlt | hle
  · have hline : line ++ [lf] <+: line ++ lf :: rest := ⟨rest, by simp⟩
    have hmem := (List.prefix_of_prefix_length_le hline h (by rw [List.length_append]; exact hlt)).subset
    exact absurd (hmem (by simp)) hlf
  · exact List.prefix_of_prefix_length_le h (List.prefix_append _ _) hle

/-- A line without a dash is followed by a line that has the first `n` digits of its code. -/
def Folds (n : Nat) (line next : RawLine) : Prop :=
  line.isDashed = false →
    (columnOctets next.code).take n = (columnOctets line.code).take n

end RawLine

namespace Decoder

open RawLine

/-- The reported `lines`, last one first, are those that are complete in what was seen, and
each without a dash is followed by one that has `n` digits of its code. -/
structure Folded (n : Nat) (seen : List UInt8) (lines : List ReplyLine) : Prop where
  codes : lines.reverse.map (·.code) = (shownLines seen).map RawLine.code
  folds : (shownLines seen).IsChain (Folds n)

/-- If the last line seen has no dash, then `n` digits of its code start what has come in
behind it. -/
def Promised (n : Nat) (seen ahead : List UInt8) : Prop :=
  ∀ line ∈ (shownLines seen).getLast?, line.isDashed = false →
    (columnOctets line.code).take n <+: unfinished [] seen ++ ahead

variable {n : Nat} {seen rest : List UInt8} {lines : List ReplyLine} {b : UInt8}

theorem shownLines_octet (hlf : b ≠ lf) : shownLines (seen ++ [b]) = shownLines seen := by
  rw [shownLines_append, complete, if_neg hlf]
  exact List.append_nil _

theorem unfinished_octet (hlf : b ≠ lf) :
    unfinished [] (seen ++ [b]) = unfinished [] seen ++ [b] := by
  rw [unfinished_append, unfinished, if_neg hlf]
  rfl

theorem shownLines_blank (hblank : (unfinished [] seen).isBlank = true) :
    shownLines (seen ++ [lf]) = shownLines seen := by
  rw [shownLines_append, complete, if_pos rfl]
  simp [complete, hblank]

theorem shownLines_shown (hblank : (unfinished [] seen).isBlank = false) :
    shownLines (seen ++ [lf]) = shownLines seen ++ [unfinished [] seen] := by
  rw [shownLines_append, complete, if_pos rfl]
  simp [complete, hblank]

theorem unfinished_lf : unfinished [] (seen ++ [lf]) = [] := by
  rw [unfinished_append, unfinished, if_pos rfl]
  rfl

theorem Folded.octet (h : Folded n seen lines) (hlf : b ≠ lf) : Folded n (seen ++ [b]) lines :=
  ⟨by rw [shownLines_octet hlf]; exact h.codes, by rw [shownLines_octet hlf]; exact h.folds⟩

theorem Promised.octet (h : Promised n seen (b :: rest)) (hlf : b ≠ lf) :
    Promised n (seen ++ [b]) rest := by
  intro line hline hdashed
  rw [shownLines_octet hlf] at hline
  rw [unfinished_octet hlf, ← List.append_cons]
  exact h line hline hdashed

theorem lf_not_mem_take (code n : Nat) : lf ∉ (columnOctets code).take n := fun hmem =>
  not_mem_columnOctets rfl (List.mem_of_mem_take hmem)

/-- A line that was promised starts with the digits. -/
theorem Promised.next (h : Promised n seen (lf :: rest)) (hn : 0 < n) {line : RawLine}
    (hline : line ∈ (shownLines seen).getLast?) (hdashed : line.isDashed = false) :
    (unfinished [] seen).isBlank = false ∧
      (columnOctets (unfinished [] seen).code).take n = (columnOctets line.code).take n :=
  columnOctets_of_prefix hn
    (prefix_of_prefix_lf (h line hline hdashed) (lf_not_mem_take line.code n))

theorem Folded.blank (h : Folded n seen lines) (hblank : (unfinished [] seen).isBlank = true) :
    Folded n (seen ++ [lf]) lines :=
  ⟨by rw [shownLines_blank hblank]; exact h.codes, by rw [shownLines_blank hblank]; exact h.folds⟩

theorem Promised.blank (h : Promised n seen (lf :: rest)) (hn : 0 < n)
    (hblank : (unfinished [] seen).isBlank = true) : Promised n (seen ++ [lf]) rest := by
  intro line hline hdashed
  rw [shownLines_blank hblank] at hline
  rw [(h.next hn hline hdashed).1] at hblank
  exact absurd hblank Bool.false_ne_true

theorem Folded.shown (h : Folded n seen lines) (hp : Promised n seen (lf :: rest)) (hn : 0 < n)
    (hblank : (unfinished [] seen).isBlank = false) {l : ReplyLine}
    (hcode : l.code = (unfinished [] seen).code) : Folded n (seen ++ [lf]) (l :: lines) where
  codes := by
    rw [shownLines_shown hblank, List.reverse_cons, List.map_append, List.map_append, h.codes]
    simp [hcode]
  folds := by
    rw [shownLines_shown hblank, List.isChain_append]
    refine ⟨h.folds, List.isChain_singleton _, fun line hline next hnext hdashed => ?_⟩
    obtain rfl := Option.some.inj hnext
    exact (hp.next hn hline hdashed).2

theorem promised_shown (hblank : (unfinished [] seen).isBlank = false)
    (h : (unfinished [] seen).isDashed = false →
      (columnOctets (unfinished [] seen).code).take n <+: rest) :
    Promised n (seen ++ [lf]) rest := by
  intro line hline hdashed
  rw [shownLines_shown hblank, List.getLast?_concat, Option.mem_some] at hline
  subst hline
  rw [unfinished_lf]
  exact h hdashed

/-- Octets that repeat a code start with its digits, unless they break off in them. -/
theorem prefix_of_repeats {code : Nat} (hn : n ≤ 3) (h : repeats code rest = true)
    (huncut : unfinished [] rest = [] ∨ n ≤ (unfinished [] rest).length) :
    (columnOctets code).take n <+: rest := by
  simp only [repeats, Bool.and_eq_true, Bool.not_eq_true', List.isEmpty_eq_false_iff,
    beq_iff_eq] at h
  obtain ⟨hbegun, hstart⟩ := h
  by_cases hle : n ≤ rest.length
  · have hmin : min n (rest.take 3).length = n := by
      rw [List.length_take]
      omega
    have hdigits : (columnOctets code).take n = (rest.take 3).take n := by
      rw [← hstart, List.take_take, hmin]
    rw [hdigits]
    exact (List.take_prefix _ _).trans (List.take_prefix _ _)
  · -- The octets end within the digits, so that no line feed is among them.
    have hall : rest.take 3 = rest := List.take_of_length_le (by omega)
    rw [hall] at hbegun hstart
    have hlf : lf ∉ rest := hstart ▸ lf_not_mem_take code rest.length
    rw [unfinished_of_not_mem hlf, List.nil_append] at huncut
    rcases huncut with hnil | hlength
    · exact absurd hnil hbegun
    · exact absurd hlength hle

/-! ## One buffer -/

/-- What a scan of the octets `ahead`, behind `seen`, comes to: a complete reply is folded, and so
is one that goes on. -/
def Scan.Folded (n t : Nat) (seen ahead : List UInt8) : Scan → Prop
  | .complete lines _ _ => ∃ read, read <+: ahead ∧ Decoder.Folded n (seen ++ read) lines.reverse
  | .more lines d => ∃ k, d = inside t k (unfinished [] (seen ++ ahead)) ∧ d.deviations ≤ t ∧
      Decoder.Folded n (seen ++ ahead) lines ∧ Promised n (seen ++ ahead) []
  | .thrashing _ _ _ => True

theorem Scan.Folded.append {t : Nat} {s : Scan} (octets : List UInt8)
    (h : s.Folded n t (seen ++ octets) rest) : s.Folded n t seen (octets ++ rest) := by
  cases s with
  | complete lines d left =>
    obtain ⟨read, hread, hfolded⟩ := h
    rw [List.append_assoc] at hfolded
    exact ⟨octets ++ read, (List.prefix_append_right_inj octets).mpr hread, hfolded⟩
  | more lines d =>
    rw [Scan.Folded, List.append_assoc] at h
    exact h
  | thrashing count d left => trivial

/-- The step at the end of a line that shows something: it is reported, and if the reply goes on
behind it without a dash, then because the look-ahead found its code. -/
theorem scan_shown_folded (hn : 0 < n) (h3 : n ≤ 3) {t k : Nat}
    (hk : (inside t k (unfinished [] seen)).deviations ≤ t)
    (hle : k + (unfinished [] seen).toll ≤ t) (hblank : (unfinished [] seen).isBlank = false)
    (hfolded : Folded n seen lines) (hpromised : Promised n seen (lf :: rest))
    (huncut : unfinished [] rest = [] ∨ n ≤ (unfinished [] rest).length)
    (hnext : ∀ {k' : Nat} {lines' : List ReplyLine}, k' ≤ t → Folded n (seen ++ [lf]) lines' →
      Promised n (seen ++ [lf]) rest →
        ((inside t k' []).scan lines' rest).Folded n t seen (lf :: rest)) :
    ((inside t k (unfinished [] seen)).scan lines (lf :: rest)).Folded n t seen (lf :: rest) := by
  have hreported : ∀ {l : ReplyLine}, l.code = (unfinished [] seen).code →
      Folded n (seen ++ [lf]) (l :: lines) := hfolded.shown hpromised hn hblank
  cases hdashed : (unfinished [] seen).isDashed with
  | true =>
    rw [scan_lf_of_dashed _ hk hle hblank hdashed]
    refine hnext hle (hreported rfl) (promised_shown hblank fun hundashed => ?_)
    rw [hdashed] at hundashed
    exact absurd hundashed.symm Bool.false_ne_true
  | false =>
    have hends : (unfinished [] seen).endsReply = true := by
      rw [RawLine.endsReply, hblank, hdashed]
      rfl
    cases hrepeats : repeats (unfinished [] seen).code rest with
    | false =>
      rw [scan_lf_of_final rest lines hk hle hends hrepeats]
      refine ⟨[lf], by simp, ?_⟩
      rw [List.reverse_reverse]
      exact hreported rfl
    | true =>
      rw [scan_lf_of_repeats _ hk hle hends hrepeats]
      split
      · rename_i hlt
        exact hnext hlt (hreported rfl)
          (promised_shown hblank fun _ => prefix_of_repeats h3 hrepeats huncut)
      · trivial

theorem scan_folded (hn : 0 < n) (h3 : n ≤ 3) {t k : Nat} {octets : List UInt8}
    (hk : (inside t k (unfinished [] seen)).deviations ≤ t) (hfolded : Folded n seen lines)
    (hpromised : Promised n seen octets)
    (huncut : unfinished [] (seen ++ octets) = [] ∨ n ≤ (unfinished [] (seen ++ octets)).length) :
    ((inside t k (unfinished [] seen)).scan lines octets).Folded n t seen octets := by
  induction octets generalizing seen k lines with
  | nil =>
    rw [scan, Scan.Folded, List.append_nil]
    exact ⟨k, rfl, hk, hfolded, hpromised⟩
  | cons b rest ih =>
    rw [List.append_cons] at huncut
    by_cases hlf : b = lf
    · subst hlf
      by_cases hle : k + (unfinished [] seen).toll ≤ t
      · -- The decoder behind the line feed has nothing of the next line.
        have hnext : ∀ {k' : Nat} {lines' : List ReplyLine}, k' ≤ t →
            Folded n (seen ++ [lf]) lines' → Promised n (seen ++ [lf]) rest →
            ((inside t k' []).scan lines' rest).Folded n t seen (lf :: rest) := by
          intro k' lines' hk' hfolded' hpromised'
          have h : ((inside t k' (unfinished [] (seen ++ [lf]))).scan lines' rest).Folded n t
              (seen ++ [lf]) rest :=
            ih (by rw [unfinished_lf]; exact hk') hfolded' hpromised' huncut
          rw [unfinished_lf] at h
          exact h.append [lf]
        rw [unfinished_append, unfinished_lf] at huncut
        cases hblank : (unfinished [] seen).isBlank with
        | true =>
          rw [scan_lf_of_blank _ hk hle hblank]
          exact hnext hle (hfolded.blank hblank) (hpromised.blank hn hblank)
        | false => exact scan_shown_folded hn h3 hk hle hblank hfolded hpromised huncut hnext
      · rw [scan_lf_of_lt _ hk (Nat.lt_of_not_le hle)]
        trivial
    · rw [scan_octet _ hk hlf]
      split
      · rename_i hle
        rw [← unfinished_octet hlf] at hle ⊢
        exact (ih hle (hfolded.octet hlf) (hpromised.octet hlf) huncut).append [b]
      · trivial

/-! ## One buffer after another -/

theorem scanBlocks_folded (hn : 0 < n) (h3 : n ≤ 3) {t k : Nat} {blocks : List (List UInt8)}
    (hk : (inside t k (unfinished [] seen)).deviations ≤ t) (hfolded : Folded n seen lines)
    (hpromised : Promised n seen [])
    (huncut : ∀ i, unfinished [] (seen ++ (blocks.take i).flatten) = [] ∨
      n ≤ (unfinished [] (seen ++ (blocks.take i).flatten)).length) :
    ((inside t k (unfinished [] seen)).scanBlocks lines blocks).Folded n t seen blocks.flatten := by
  induction blocks generalizing seen k lines with
  | nil =>
    rw [scanBlocks, Scan.Folded, List.flatten_nil, List.append_nil]
    exact ⟨k, rfl, hk, hfolded, hpromised⟩
  | cons block blocks ih =>
    have hahead : Promised n seen block := fun line hline hdashed =>
      (hpromised line hline hdashed).trans ⟨block, by rw [List.append_nil]⟩
    have hblock := huncut 1
    rw [List.take_succ_cons, List.take_zero, List.flatten_cons, List.flatten_nil,
      List.append_nil] at hblock
    have h := scan_folded hn h3 hk hfolded hahead hblock
    rw [scanBlocks, List.flatten_cons]
    split
    · rename_i lines' d hscan
      rw [hscan] at h
      obtain ⟨k', rfl, hk', hfolded', hpromised'⟩ := h
      refine (ih hk' hfolded' hpromised' fun i => ?_).append _
      have hrest := huncut (i + 1)
      rwa [List.take_succ_cons, List.flatten_cons, ← List.append_assoc] at hrest
    · rename_i lines' d left hscan
      rw [hscan] at h
      obtain ⟨read, hread, hfolded'⟩ := h
      exact ⟨read, hread.trans (List.prefix_append _ _), hfolded'⟩
    · trivial

theorem folded_of_scanBlocks (hn : 0 < n) (h3 : n ≤ 3) {t : Nat} {blocks : List (List UInt8)}
    {d : Decoder} {left : List UInt8}
    (hscan : (ofTolerance t).scanBlocks [] blocks = .complete lines d left)
    (huncut : ∀ i, unfinished [] (blocks.take i).flatten = [] ∨
      n ≤ (unfinished [] (blocks.take i).flatten).length) :
    ∃ raws, raws <+: shownLines blocks.flatten ∧
      lines.map (·.code) = raws.map RawLine.code ∧ raws.IsChain (Folds n) := by
  have hinside : ofTolerance t = inside t 0 (unfinished [] []) := rfl
  have hnothing : Promised n [] [] := fun line hline => absurd hline (by simp [shownLines, complete])
  have hnone : Folded n [] [] := ⟨rfl, .nil⟩
  have h := scanBlocks_folded hn h3 (Nat.zero_le t) hnone hnothing huncut
  rw [← hinside, hscan] at h
  obtain ⟨read, ⟨unread, hread⟩, hcodes, hfolds⟩ := h
  rw [List.reverse_reverse] at hcodes
  refine ⟨shownLines read, ?_, hcodes, hfolds⟩
  rw [← hread, shownLines_append]
  exact List.prefix_append _ _

end Decoder

/-! ## Replies -/

/-- Each reported line that came without a dash is the last one, or its code agrees with that
of the line behind it. -/
def FoldedBy (agree : Nat → Nat → Prop) (raws : List RawLine) (lines : List ReplyLine) : Prop :=
  (raws.zip lines).IsChain fun line next =>
    line.1.isDashed = false → agree line.2.code next.2.code

instance (agree : Nat → Nat → Prop) [DecidableRel agree] (raws : List RawLine)
    (lines : List ReplyLine) : Decidable (FoldedBy agree raws lines) :=
  inferInstanceAs (Decidable (List.IsChain _ _))

/-- Reported lines take their codes from the lines that came in. -/
theorem foldedBy_of_codes {agree : Nat → Nat → Prop} {n : Nat}
    (hagree : ∀ line next : RawLine,
      (columnOctets next.code).take n = (columnOctets line.code).take n →
        agree line.code next.code)
    {raws more : List RawLine} {lines : List ReplyLine}
    (hcodes : lines.map (·.code) = raws.map RawLine.code)
    (hfolds : raws.IsChain (RawLine.Folds n)) : FoldedBy agree (raws ++ more) lines := by
  unfold FoldedBy
  induction raws generalizing lines with
  | nil =>
    rw [List.map_nil, List.map_eq_nil_iff] at hcodes
    rw [hcodes, List.zip_nil_right]
    exact .nil
  | cons line raws ih =>
    obtain ⟨l, lines, rfl⟩ : ∃ l ls, lines = l :: ls :=
      List.exists_cons_of_ne_nil (by rintro rfl; simp at hcodes)
    rw [List.map_cons, List.map_cons, List.cons.injEq] at hcodes
    obtain ⟨hcode, hcodes⟩ := hcodes
    cases raws with
    | nil =>
      rw [List.map_nil, List.map_eq_nil_iff] at hcodes
      rw [hcodes]
      simp
    | cons next raws =>
      obtain ⟨l', lines, rfl⟩ : ∃ l ls, lines = l :: ls :=
        List.exists_cons_of_ne_nil (by rintro rfl; simp at hcodes)
      rw [List.isChain_cons_cons] at hfolds
      have hrest := ih hcodes hfolds.2
      rw [List.map_cons, List.map_cons, List.cons.injEq] at hcodes
      refine .cons_cons (fun hdashed => ?_) hrest
      rw [hcode, hcodes.1]
      exact hagree line next (hfolds.1 hdashed)

namespace Link

open Run Decoder RawLine

variable {phase : Phase} {l l' : Link} {lines : List ReplyLine}

/-- Which lines of a reply are folded together.  The lines that are reported are those that
came in, in order.  A line without a dash that is not the last is followed by one whose code
starts with the same digit; and by one of the same code, if no read broke off one or two
octets behind a line feed, where the look-ahead has but a part of the next code. -/
theorem readReply_folds (h : readReply phase l = .ok lines l') :
    ∃ chunks : List (List UInt8),
      l.Leads l' (chunks.map (.received l.connection.socket.number) ++
        [.heard l.connection.socket.number lines]) ∧
      let raws := shownLines (l.connection.buffer ++ chunks.flatten)
      lines.map (·.code) = (raws.take lines.length).map RawLine.code ∧
      FoldedBy (fun code next => next / 100 = code / 100) raws lines ∧
      ((∀ i, (unfinished [] ((l.connection.buffer :: chunks).take i).flatten).length ∉ [1, 2]) →
        FoldedBy (fun code next => next = code) raws lines) := by
  obtain ⟨chunks, hleads, hblocks⟩ := (ends_readReply_tally phase l).of_ok h
  have hscan : (ofTolerance l.connection.decoder.tolerance).scanBlocks []
      (l.connection.buffer :: chunks) =
        .complete lines l'.connection.decoder l'.connection.buffer := hblocks
  have hone : ∀ i, unfinished [] ((l.connection.buffer :: chunks).take i).flatten = [] ∨
      1 ≤ (unfinished [] ((l.connection.buffer :: chunks).take i).flatten).length := fun i =>
    (eq_or_ne _ []).imp_right List.length_pos_iff.mpr
  obtain ⟨raws, hraws, hcodes, hfolds⟩ :=
    folded_of_scanBlocks (by decide) (by decide) hscan hone
  rw [List.flatten_cons] at hraws
  have hlength : lines.length = raws.length := by
    simpa using congrArg List.length hcodes
  refine ⟨chunks, hleads, ?_, ?_, fun huncut => ?_⟩
  · rw [hlength, ← List.prefix_iff_eq_take.mp hraws]
    exact hcodes
  · obtain ⟨more, hmore⟩ := hraws
    rw [← hmore]
    exact foldedBy_of_codes (fun _ _ => hundreds_eq) hcodes hfolds
  · have hthree : ∀ i, unfinished [] ((l.connection.buffer :: chunks).take i).flatten = [] ∨
        3 ≤ (unfinished [] ((l.connection.buffer :: chunks).take i).flatten).length := by
      intro i
      have hlengths := huncut i
      have hnil := List.length_eq_zero_iff
        (l := unfinished [] ((l.connection.buffer :: chunks).take i).flatten)
      rw [List.mem_cons, List.mem_singleton, not_or] at hlengths
      rw [← hnil]
      omega
    obtain ⟨raws', ⟨more, hmore⟩, hcodes', hfolds'⟩ :=
      folded_of_scanBlocks (by decide) (by decide) hscan hthree
    rw [List.flatten_cons] at hmore
    rw [← hmore]
    exact foldedBy_of_codes (fun _ _ => code_inj) hcodes' hfolds'

/-- What a server sends whose lines have different codes and no dash, where the first read
breaks off within the second code. -/
def cutCodes : Script :=
  [.data (Text.Utf8.encode "250 a\r\n2"), .data (Text.Utf8.encode "51 b\r\n")]

/-- The lines that are reported: the reply was taken to go on. -/
def cutCodesLines : List ReplyLine := [⟨250, "a", true, false⟩, ⟨251, "b", false, true⟩]

theorem readReply_cutCodes : ∃ later,
    readReply .reply ⟨.ofSocket { reads := cutCodes } {} {}, {}⟩ = .ok cutCodesLines later := by
  have hreturns : (match readReply .reply ⟨.ofSocket { reads := cutCodes } {} {}, {}⟩ with
      | .ok lines _ => lines == cutCodesLines
      | .error _ _ => false) = true := by decide +kernel
  split at hreturns
  · rename_i lines later hr
    exact ⟨later, beq_iff_eq.mp hreturns ▸ hr⟩
  · cases hreturns

theorem readReply_folds_cutCodes :
    ∃ later, readReply .reply ⟨.ofSocket { reads := cutCodes } {} {}, {}⟩ =
        .ok cutCodesLines later ∧
      ∃ chunks : List (List UInt8),
        Link.Leads ⟨.ofSocket { reads := cutCodes } {} {}, {}⟩ later
          (chunks.map (.received 0) ++ [.heard 0 cutCodesLines]) ∧
        [250, 251] = (((shownLines chunks.flatten).take 2).map RawLine.code) ∧
        FoldedBy (fun code next => next / 100 = code / 100) (shownLines chunks.flatten)
          cutCodesLines := by
  obtain ⟨later, hr⟩ := readReply_cutCodes
  obtain ⟨chunks, hleads, hcodes, hfolded, -⟩ := readReply_folds hr
  exact ⟨later, hr, chunks, hleads, hcodes, hfolded⟩

/-- Lines of different codes are folded together: all of the second code that had come in
starts the first code too. -/
theorem different_codes_folded :
    ¬ ∀ (reads : Script) (settings : ClientSettings) (lines : List ReplyLine) (later : Link),
      readReply .reply ⟨.ofSocket { reads } settings {}, {}⟩ = .ok lines later →
        FoldedBy (fun code next => next = code) (shownLines reads.content) lines := by
  intro h
  obtain ⟨later, hr⟩ := readReply_cutCodes
  have hfolded := h cutCodes {} cutCodesLines later hr
  revert hfolded
  decide +kernel

end Link

end MailSubmission
