import MailSubmission.Text.Utf8

set_option autoImplicit false

/-!
# Text survives its encoding

A text that was written as octets is read back as it was (`decodeLossy_encode`,
`decode?_encode`), and an octet that is a character by itself stands in the encoding only where
that character stands in the text (`mem_encode`).  Of octets that are no text such a character is
read only where its octet stands (`mem_of_mem_decodeLossy`).
-/

namespace MailSubmission.Text.Utf8

/-! ## The octets of one character -/

theorem toNat_octet {n : Nat} (h : n < 256) : (UInt8.ofNat n).toNat = n :=
  UInt8.toNat_ofNat_of_lt' h

/-- The tests on octets, as tests on their numbers. -/
theorem width_octet {n : Nat} (h : n < 256) :
    width (UInt8.ofNat n) =
      if n < 128 then 1
      else if 194 ≤ n ∧ n ≤ 223 then 2
      else if 224 ≤ n ∧ n ≤ 239 then 3
      else if 240 ≤ n ∧ n ≤ 244 then 4
      else 0 := by
  simp only [width, UInt8.lt_iff_toNat_lt, UInt8.le_iff_toNat_le, toNat_octet h, UInt8.reduceToNat,
    Bool.and_eq_true, decide_eq_true_eq]

theorem isTail_octet {n : Nat} (h : n < 256) :
    isTail (UInt8.ofNat n) = decide (128 ≤ n ∧ n ≤ 191) := by
  simp only [isTail, UInt8.le_iff_toNat_le, toNat_octet h, UInt8.reduceToNat, Bool.decide_and]

theorem secondAllowed_octet {m n : Nat} (hm : m < 256) (hn : n < 256) :
    secondAllowed (UInt8.ofNat m) (UInt8.ofNat n) =
      if m = 224 then decide (160 ≤ n ∧ n ≤ 191)
      else if m = 237 then decide (128 ≤ n ∧ n ≤ 159)
      else if m = 240 then decide (144 ≤ n ∧ n ≤ 191)
      else if m = 244 then decide (128 ≤ n ∧ n ≤ 143)
      else decide (128 ≤ n ∧ n ≤ 191) := by
  simp only [secondAllowed, isTail_octet hn, ← UInt8.toNat_inj, UInt8.le_iff_toNat_le,
    toNat_octet hm, toNat_octet hn, UInt8.reduceToNat, Bool.decide_and]

/-- An octet behind the first of a character carries six bits. -/
theorem isTail_tail (n : Nat) : isTail (UInt8.ofNat (n % 64 + 128)) = true := by
  rw [isTail_octet (by omega), decide_eq_true_eq]
  omega

theorem payload_tail (n : Nat) : payload (UInt8.ofNat (n % 64 + 128)) = n % 64 := by
  rw [payload, toNat_octet (by omega)]
  omega

variable {a b c d : UInt8} (rest : List UInt8)

theorem pieces_one (h : width a = 1) :
    pieces (a :: rest) = some (Char.ofNat a.toNat) :: pieces rest := by
  rw [pieces.eq_def]
  simp only [h]

theorem pieces_two (h : width a = 2) (hb : isTail b = true) :
    pieces (a :: b :: rest) =
      some (Char.ofNat (a.toNat % 32 * 64 + payload b)) :: pieces rest := by
  rw [pieces.eq_def]
  simp only [h, if_pos hb]

theorem pieces_three (h : width a = 3) (hb : secondAllowed a b = true) (hc : isTail c = true) :
    pieces (a :: b :: c :: rest) =
      some (Char.ofNat ((a.toNat % 16 * 64 + payload b) * 64 + payload c)) :: pieces rest := by
  rw [pieces.eq_def]
  simp only [h, if_pos hb, if_pos hc]

theorem pieces_four (h : width a = 4) (hb : secondAllowed a b = true) (hc : isTail c = true)
    (hd : isTail d = true) :
    pieces (a :: b :: c :: d :: rest) =
      some (Char.ofNat (((a.toNat % 8 * 64 + payload b) * 64 + payload c) * 64 + payload d)) ::
        pieces rest := by
  rw [pieces.eq_def]
  simp only [h, if_pos hb, if_pos hc, if_pos hd]

/-- A character is read back from its octets. -/
theorem pieces_utf8EncodeChar (ch : Char) :
    pieces (String.utf8EncodeChar ch ++ rest) = some ch :: pieces rest := by
  have hvalid : ch.toNat < 55296 ∨ 57343 < ch.toNat ∧ ch.toNat < 1114112 := ch.valid
  unfold String.utf8EncodeChar
  simp only [show ch.val.toNat = ch.toNat from rfl]
  split
  · have hw : width (UInt8.ofNat ch.toNat) = 1 := by
      rw [width_octet (by omega), if_pos (by omega)]
    rw [List.cons_append, List.nil_append, pieces_one rest hw, toNat_octet (by omega),
      Char.ofNat_toNat]
  split
  · have hw : width (UInt8.ofNat (ch.toNat / 64 % 32 + 192)) = 2 := by
      rw [width_octet (by omega), if_neg (by omega), if_pos (by omega)]
    have hvalue : (ch.toNat / 64 % 32 + 192) % 32 * 64 + ch.toNat % 64 = ch.toNat := by omega
    simp only [List.cons_append, List.nil_append]
    rw [pieces_two rest hw (isTail_tail _), toNat_octet (by omega), payload_tail, hvalue,
      Char.ofNat_toNat]
  split
  · have hw : width (UInt8.ofNat (ch.toNat / 4096 % 16 + 224)) = 3 := by
      rw [width_octet (by omega), if_neg (by omega), if_neg (by omega), if_pos (by omega)]
    have hb : secondAllowed (UInt8.ofNat (ch.toNat / 4096 % 16 + 224))
        (UInt8.ofNat (ch.toNat / 64 % 64 + 128)) = true := by
      rw [secondAllowed_octet (by omega) (by omega)]
      grind
    have hvalue : ((ch.toNat / 4096 % 16 + 224) % 16 * 64 + ch.toNat / 64 % 64) * 64 +
        ch.toNat % 64 = ch.toNat := by
      omega
    simp only [List.cons_append, List.nil_append]
    rw [pieces_three rest hw hb (isTail_tail _), toNat_octet (by omega), payload_tail,
      payload_tail, hvalue, Char.ofNat_toNat]
  · have hw : width (UInt8.ofNat (ch.toNat / 262144 % 8 + 240)) = 4 := by
      rw [width_octet (by omega), if_neg (by omega), if_neg (by omega), if_neg (by omega),
        if_pos (by omega)]
    have hb : secondAllowed (UInt8.ofNat (ch.toNat / 262144 % 8 + 240))
        (UInt8.ofNat (ch.toNat / 4096 % 64 + 128)) = true := by
      rw [secondAllowed_octet (by omega) (by omega)]
      grind
    have hvalue : (((ch.toNat / 262144 % 8 + 240) % 8 * 64 + ch.toNat / 4096 % 64) * 64 +
        ch.toNat / 64 % 64) * 64 + ch.toNat % 64 = ch.toNat := by
      omega
    simp only [List.cons_append, List.nil_append]
    rw [pieces_four rest hw hb (isTail_tail _) (isTail_tail _), toNat_octet (by omega),
      payload_tail, payload_tail, payload_tail, hvalue, Char.ofNat_toNat]

/-! ## Texts -/

theorem pieces_encode (s : String) : pieces (encode s) = s.toList.map some := by
  unfold encode
  induction s.toList with
  | nil => rfl
  | cons ch chars ih => rw [List.flatMap_cons, pieces_utf8EncodeChar, ih, List.map_cons]

/-- A text is read back from its octets. -/
@[simp] theorem decodeLossy_encode (s : String) : decodeLossy (encode s) = s := by
  have hmap : (s.toList.map some).map (·.getD replacement) = s.toList := by
    rw [List.map_map]
    exact List.map_id s.toList
  rw [decodeLossy, pieces_encode, hmap, String.ofList_toList]

/-- The octets of a text are octets of exactly one. -/
@[simp] theorem decode?_encode (s : String) : decode? (encode s) = some s := by
  have hall : ∀ cs : List Char, (cs.map some).mapM id = some cs := by
    intro cs
    induction cs with
    | nil => rfl
    | cons ch chars ih =>
      rw [List.map_cons, List.mapM_cons, ih]
      rfl
  rw [decode?, pieces_encode, hall, Option.map_some, String.ofList_toList]

@[simp] theorem encode_append (s t : String) : encode (s ++ t) = encode s ++ encode t := by
  rw [encode, String.toList_append, List.flatMap_append]
  rfl

/-- Joined texts are joined octets. -/
theorem encode_intercalate (between : String) (texts : List String) :
    encode (between.intercalate texts) = (encode between).intercalate (texts.map encode) := by
  rw [encode, String.toList_intercalate]
  induction texts with
  | nil => rfl
  | cons s rest ih =>
    cases rest with
    | nil => simp [encode]
    | cons t rest =>
      simp only [List.map_cons, List.intercalate_cons_cons, List.flatMap_append] at ih ⊢
      rw [ih]
      rfl

/-- The first characters are octets by themselves. -/
theorem utf8EncodeChar_ofNat {n : Nat} (h : n < 128) :
    String.utf8EncodeChar (Char.ofNat n) = [UInt8.ofNat n] := by
  have hall : ∀ i : Fin 128, String.utf8EncodeChar (Char.ofNat i) = [UInt8.ofNat i] := by decide
  exact hall ⟨n, h⟩

/-- An octet that is a character by itself occurs in no other character. -/
theorem mem_utf8EncodeChar {b : UInt8} {ch : Char} (hb : b < 128)
    (h : b ∈ String.utf8EncodeChar ch) : ch = Char.ofNat b.toNat := by
  unfold String.utf8EncodeChar at h
  simp only [show ch.val.toNat = ch.toNat from rfl] at h
  have hlt : b.toNat < 128 := UInt8.lt_iff_toNat_lt.mp hb
  have hbig : ∀ n, n < 256 → 128 ≤ n → b ≠ UInt8.ofNat n := by
    rintro n hn hle rfl
    rw [toNat_octet hn] at hlt
    omega
  split at h
  · rename_i hone
    rw [List.mem_singleton] at h
    rw [h, toNat_octet (by omega), Char.ofNat_toNat]
  · exfalso
    split at h
    · simp only [List.mem_cons, List.not_mem_nil, or_false] at h
      rcases h with h | h <;> exact hbig _ (by omega) (by omega) h
    split at h
    · simp only [List.mem_cons, List.not_mem_nil, or_false] at h
      rcases h with h | h | h <;> exact hbig _ (by omega) (by omega) h
    · simp only [List.mem_cons, List.not_mem_nil, or_false] at h
      rcases h with h | h | h | h <;> exact hbig _ (by omega) (by omega) h

theorem mem_encode {b : UInt8} {s : String} (hb : b < 128) (h : b ∈ encode s) :
    Char.ofNat b.toNat ∈ s.toList := by
  rw [encode, List.mem_flatMap] at h
  obtain ⟨ch, hch, hmem⟩ := h
  exact mem_utf8EncodeChar hb hmem ▸ hch

/-! ## Octets that may be no text -/

theorem exists_octet (b : UInt8) : ∃ n < 256, b = UInt8.ofNat n :=
  ⟨b.toNat, b.toNat_lt, UInt8.ofNat_toNat.symm⟩

/-- The number of a character that took several octets is too large for one. -/
theorem le_value_two {a : UInt8} (b : UInt8) (h : width a = 2) :
    128 ≤ a.toNat % 32 * 64 + payload b := by
  obtain ⟨m, hm, rfl⟩ := exists_octet a
  rw [width_octet hm] at h
  rw [toNat_octet hm]
  grind

theorem le_value_three {a b : UInt8} (c : UInt8) (h : width a = 3) (hb : secondAllowed a b = true) :
    128 ≤ (a.toNat % 16 * 64 + payload b) * 64 + payload c := by
  obtain ⟨m, hm, rfl⟩ := exists_octet a
  obtain ⟨n, hn, rfl⟩ := exists_octet b
  rw [width_octet hm] at h
  rw [secondAllowed_octet hm hn] at hb
  rw [payload, toNat_octet hm, toNat_octet hn]
  grind

theorem le_value_four {a b : UInt8} (c d : UInt8) (h : width a = 4)
    (hb : secondAllowed a b = true) :
    128 ≤ ((a.toNat % 8 * 64 + payload b) * 64 + payload c) * 64 + payload d := by
  obtain ⟨m, hm, rfl⟩ := exists_octet a
  obtain ⟨n, hn, rfl⟩ := exists_octet b
  rw [width_octet hm] at h
  rw [secondAllowed_octet hm hn] at hb
  rw [payload, toNat_octet hm, toNat_octet hn]
  grind

/-- A number that is none of a character is taken for zero. -/
theorem eq_toNat_of_ofNat {n : Nat} {ch : Char} (h : ch = Char.ofNat n) (hch : ch.toNat ≠ 0) :
    n = ch.toNat := by
  rw [h, Char.ofNat] at hch ⊢
  by_cases hvalid : n.isValidChar
  · rw [dif_pos hvalid]
    rfl
  · rw [dif_neg hvalid] at hch
    exact absurd rfl hch

theorem mem_of_mem_pieces {bytes : List UInt8} {ch : Char} (hlt : ch.toNat < 128)
    (hch : ch.toNat ≠ 0) (h : some ch ∈ pieces bytes) : UInt8.ofNat ch.toNat ∈ bytes := by
  have hlong : ∀ {n : Nat}, 128 ≤ n → ch ≠ Char.ofNat n := fun hn heq =>
    absurd (eq_toNat_of_ofNat heq hch) (by omega)
  -- One case for each width of a character; in all others a piece is passed over.
  fun_induction pieces bytes with
  | case2 a rest _ ih =>
    rw [List.mem_cons, Option.some.injEq] at h
    rcases h with heq | h
    · rw [← eq_toNat_of_ofNat heq hch, UInt8.ofNat_toNat]
      exact List.mem_cons_self
    · exact List.mem_cons_of_mem _ (ih h)
  | case4 a hwidth b rest _ ih =>
    rw [List.mem_cons, Option.some.injEq] at h
    have hrest := ih (h.resolve_left (hlong (le_value_two b hwidth)))
    simp [hrest]
  | case9 a hwidth b c rest hsecond _ ih =>
    rw [List.mem_cons, Option.some.injEq] at h
    have hrest := ih (h.resolve_left (hlong (le_value_three c hwidth hsecond)))
    simp [hrest]
  | case18 a hwidth b c d rest hsecond _ _ ih =>
    rw [List.mem_cons, Option.some.injEq] at h
    have hrest := ih (h.resolve_left (hlong (le_value_four c d hwidth hsecond)))
    simp [hrest]
  | _ => grind

/-- A character that is one octet is read only where that octet stands. -/
theorem mem_of_mem_decodeLossy {bytes : List UInt8} {ch : Char} (hlt : ch.toNat < 128)
    (hch : ch.toNat ≠ 0) (h : ch ∈ (decodeLossy bytes).toList) : UInt8.ofNat ch.toNat ∈ bytes := by
  rw [decodeLossy, String.toList_ofList, List.mem_map] at h
  obtain ⟨piece, hpiece, heq⟩ := h
  cases piece with
  | none =>
    subst heq
    exact absurd hlt (by decide)
  | some c =>
    obtain rfl : c = ch := heq
    exact mem_of_mem_pieces hlt hch hpiece

end MailSubmission.Text.Utf8
