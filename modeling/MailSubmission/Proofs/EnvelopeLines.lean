import MailSubmission.Command
import MailSubmission.Dsn
import MailSubmission.Proofs.TextTransparency

set_option autoImplicit false

/-!
# Envelope lines survive their writing

The commands that name sender and recipient carry text that comes from outside: a path, and the
values of notification parameters.  A receiver takes the line apart by its octets
(`EnvelopeLine.read?`): the path stands between the first angle brackets, spaces divide the
parameters behind it, an equals sign divides name and value, and the value is xtext.

None of these octets can come from a path or a value, so whatever they are, the line is one line,
and what its receiver reads is what was written (`Command.envelope_lines_read_back`).
-/

namespace MailSubmission

open Text

/-- The octets are one line: carriage return and line feed stand at their end and nowhere else. -/
def IsOneLine (octets : List UInt8) : Prop :=
  ∃ line, octets = line ++ [13, 10] ∧ ∀ b ∈ line, b ≠ 13 ∧ b ≠ 10

/-! ## Values in xtext -/

namespace Dsn

/-- The value of a digit of base sixteen. -/
def hexValue? (b : UInt8) : Option Nat :=
  if 48 ≤ b && b ≤ 57 then some (b.toNat - 48)
  else if 65 ≤ b && b ≤ 70 then some (b.toNat - 55)
  else none

/-- The octets that stand in xtext. -/
def unxtext? : List UInt8 → Option (List UInt8)
  | [] => some []
  | b :: rest =>
    if b = 43 then
      match rest with
      | high :: low :: rest => do
        let h ← hexValue? high
        let l ← hexValue? low
        let octets ← unxtext? rest
        return UInt8.ofNat (16 * h + l) :: octets
      | _ => none
    else if isPlain b then (unxtext? rest).map (b :: ·)
    else none

/-- A digit as it is sent. -/
def hexOctet (n : Nat) : UInt8 := UInt8.ofNat (hexDigit n).toNat

/-- One octet as xtext, as it is sent. -/
def xtextSent (b : UInt8) : List UInt8 :=
  if isPlain b then [b] else [43, hexOctet (b.toNat / 16), hexOctet (b.toNat % 16)]

theorem hexValue?_hexOctet {n : Nat} (h : n < 16) : hexValue? (hexOctet n) = some n := by
  have hall : ∀ i : Fin 16, hexValue? (hexOctet i) = some i.val := by decide
  exact hall ⟨n, h⟩

/-- A digit is visible, and neither a plus sign nor an equals sign. -/
theorem isPlain_hexOctet {n : Nat} (h : n < 16) : isPlain (hexOctet n) = true := by
  have hall : ∀ i : Fin 16, isPlain (hexOctet i) = true := by decide
  exact hall ⟨n, h⟩

theorem utf8EncodeChar_hexDigit {n : Nat} (h : n < 16) :
    String.utf8EncodeChar (hexDigit n) = [hexOctet n] := by
  have hall : ∀ i : Fin 16, String.utf8EncodeChar (hexDigit i) = [hexOctet i] := by decide
  exact hall ⟨n, h⟩

theorem lt_of_isPlain {b : UInt8} (h : isPlain b = true) : b.toNat < 128 := by
  simp only [isPlain, Bool.and_eq_true, decide_eq_true_eq, UInt8.le_iff_toNat_le,
    UInt8.reduceToNat] at h
  omega

theorem flatMap_xtextOctet (b : UInt8) :
    (xtextOctet b).flatMap String.utf8EncodeChar = xtextSent b := by
  have hb : b.toNat < 256 := b.toNat_lt
  unfold xtextOctet xtextSent
  split
  · rename_i hplain
    rw [List.flatMap_singleton, Utf8.utf8EncodeChar_ofNat (lt_of_isPlain hplain), UInt8.ofNat_toNat]
  · have hplus : String.utf8EncodeChar '+' = [43] := rfl
    simp only [List.flatMap_cons, List.flatMap_nil, hplus,
      utf8EncodeChar_hexDigit (show b.toNat / 16 < 16 by omega),
      utf8EncodeChar_hexDigit (show b.toNat % 16 < 16 by omega)]
    rfl

/-- A value is sent octet by octet. -/
theorem encode_xtext (value : String) :
    Utf8.encode (xtext value) = (Utf8.encode value).flatMap xtextSent := by
  rw [xtext, Utf8.encode, String.toList_ofList, List.flatMap_assoc]
  simp only [flatMap_xtextOctet]

/-- One octet is read back, whatever follows. -/
theorem unxtext?_xtextSent (b : UInt8) (rest : List UInt8) :
    unxtext? (xtextSent b ++ rest) = (unxtext? rest).map (b :: ·) := by
  have hb : b.toNat < 256 := b.toNat_lt
  unfold xtextSent
  split
  · rename_i hplain
    have hne : b ≠ 43 := by
      rintro rfl
      cases hplain
    rw [List.singleton_append, unxtext?.eq_def]
    simp only [if_neg hne, if_pos hplain]
  · have hvalue : 16 * (b.toNat / 16) + b.toNat % 16 = b.toNat := by omega
    simp only [List.cons_append, List.nil_append, unxtext?, if_true,
      hexValue?_hexOctet (show b.toNat / 16 < 16 by omega),
      hexValue?_hexOctet (show b.toNat % 16 < 16 by omega), hvalue, UInt8.ofNat_toNat,
      Option.bind_eq_bind, Option.bind_some, Option.pure_def]
    rw [Option.map_eq_bind]
    rfl

/-- What was written as xtext is read back. -/
theorem unxtext?_encode_xtext (value : String) :
    unxtext? (Utf8.encode (xtext value)) = some (Utf8.encode value) := by
  rw [encode_xtext]
  induction Utf8.encode value with
  | nil => rfl
  | cons b rest ih => rw [List.flatMap_cons, unxtext?_xtextSent, ih, Option.map_some]

/-- Nothing in xtext is a space, an equals sign or a control octet. -/
theorem of_mem_encode_xtext {value : String} {b : UInt8} (h : b ∈ Utf8.encode (xtext value)) :
    32 < b.toNat ∧ b ≠ 61 := by
  have hplain : b = 43 ∨ isPlain b = true := by
    rw [encode_xtext, List.mem_flatMap] at h
    obtain ⟨a, -, hb⟩ := h
    have ha : a.toNat < 256 := a.toNat_lt
    unfold xtextSent at hb
    split at hb
    · rename_i ha
      exact .inr (List.mem_singleton.mp hb ▸ ha)
    · simp only [List.mem_cons, List.not_mem_nil, or_false] at hb
      rcases hb with rfl | rfl | rfl
      · exact .inl rfl
      · exact .inr (isPlain_hexOctet (by omega))
      · exact .inr (isPlain_hexOctet (by omega))
  rcases hplain with rfl | hplain
  · decide
  · simp only [isPlain, Bool.and_eq_true, decide_eq_true_eq, bne_iff_ne, UInt8.le_iff_toNat_le,
      UInt8.reduceToNat] at hplain
    exact ⟨by omega, hplain.2⟩

theorem xtext_append (s t : String) : xtext (s ++ t) = xtext s ++ xtext t := by
  rw [xtext, Utf8.encode_append, List.flatMap_append, String.ofList_append]
  rfl

end Dsn

/-! ## Reading a line -/

namespace EnvelopeLine

/-- What stands in front of the first `sep`, and what stands behind it. -/
def cut? (sep : UInt8) : List UInt8 → Option (List UInt8 × List UInt8)
  | [] => none
  | b :: rest =>
    if b = sep then some ([], rest) else (cut? sep rest).map fun p => (b :: p.1, p.2)

theorem cut?_append {sep : UInt8} {before : List UInt8} (h : sep ∉ before) (behind : List UInt8) :
    cut? sep (before ++ sep :: behind) = some (before, behind) := by
  induction before with
  | nil => exact if_pos rfl
  | cons b rest ih =>
    rw [List.mem_cons, not_or] at h
    rw [List.cons_append, cut?, if_neg (Ne.symm h.1), ih h.2, Option.map_some]

/-- A parameter: its name, and its value in xtext, around the first equals sign. -/
def readParam? (octets : List UInt8) : Option (String × String) := do
  let (name, value) ← cut? 61 octets
  let value ← Dsn.unxtext? value
  return (← Utf8.decode? name, ← Utf8.decode? value)

end EnvelopeLine

/-- What a receiver reads in an envelope line. -/
structure EnvelopeLine where
  /-- The path. -/
  path : String
  /-- The parameters: each a name and a value. -/
  params : List (String × String)
  deriving DecidableEq, Repr, Inhabited

namespace EnvelopeLine

/-- Read a line up to its end.  The path stands between the first `<` and the first `>`; what is
behind it is divided by single spaces. -/
def read? (octets : List UInt8) : Option EnvelopeLine := do
  let (line, lineFeed) ← cut? 13 octets
  unless lineFeed = [10] do none
  let (_, behind) ← cut? 60 line
  let (path, rest) ← cut? 62 behind
  match rest.splitOn 32 with
  | [] :: params => return { path := ← Utf8.decode? path, params := ← params.mapM readParam? }
  | _ => none

/-- The value of a parameter. -/
def value? (l : EnvelopeLine) (name : String) : Option String := l.params.lookup name

/-- The address that a path is. -/
def address? (l : EnvelopeLine) : Option Address :=
  if h : l.path = "" ∨ Address.defect? l.path = none then some ⟨l.path, h⟩ else none

/-- Words between commas. -/
def listed (text : String) : List String := (text.toList.splitOn ',').map String.ofList

/-- What stands in front of the address of a recipient, in a parameter. -/
def addressType : String := "rfc822;"

/-- An address without its type. -/
def untyped? (text : String) : Option String :=
  if addressType.toList <+: text.toList then
    some (String.ofList (text.toList.drop addressType.toList.length))
  else none

/-- The sender's line: the address, and the request with what this line says of it. -/
def sender? (octets : List UInt8) : Option (Address × Dsn) := do
  let l ← read? octets
  return (← l.address?, { ret := l.value? "RET", envid := l.value? "ENVID" })

/-- The recipient's line: the address, and the request with what this line says of it. -/
def recipient? (octets : List UInt8) : Option (Address × Dsn) := do
  let l ← read? octets
  let asked := (l.value? "NOTIFY").elim [] listed
  let orcpt ← (l.value? "ORCPT").elim (some none) fun text => (untyped? text).map some
  return (← l.address?,
    { orcpt, success := asked.contains "SUCCESS", failure := asked.contains "FAILURE",
      delay := asked.contains "DELAY", never := asked.contains "NEVER" })

/-! ## Writing a line -/

/-- A parameter as it is written. -/
def written (param : String × String) : String := param.1 ++ "=" ++ Dsn.xtext param.2

/-- A name of a parameter has nothing in it that divides a line. -/
def IsName (name : String) : Prop := ∀ b ∈ Utf8.encode name, 32 < b.toNat ∧ b ≠ 61

instance (name : String) : Decidable (IsName name) :=
  inferInstanceAs (Decidable (∀ b ∈ Utf8.encode name, 32 < b.toNat ∧ b ≠ 61))

/-- A line up to its end: a verb, a path, and parameters behind spaces. -/
def octets (verb : String) (path : String) (params : List (String × String)) : List UInt8 :=
  Utf8.encode verb ++ 60 :: (Utf8.encode path ++
    62 :: List.intercalate [32] ([] :: params.map fun p => Utf8.encode (written p)))

theorem encode_written (p : String × String) :
    Utf8.encode (written p) = Utf8.encode p.1 ++ 61 :: Utf8.encode (Dsn.xtext p.2) := by
  have hequals : Utf8.encode "=" = [61] := by decide
  rw [written, Utf8.encode_append, Utf8.encode_append, hequals, List.append_assoc,
    List.singleton_append]

variable {p : String × String} {params : List (String × String)}

theorem lt_of_mem_written (hname : IsName p.1) {b : UInt8} (h : b ∈ Utf8.encode (written p)) :
    32 < b.toNat := by
  rw [encode_written, List.mem_append, List.mem_cons] at h
  rcases h with h | rfl | h
  · exact (hname b h).1
  · decide
  · exact (Dsn.of_mem_encode_xtext h).1

/-- A parameter is read back. -/
theorem readParam?_written (hname : IsName p.1) : readParam? (Utf8.encode (written p)) = some p := by
  have hcut : cut? 61 (Utf8.encode (written p)) =
      some (Utf8.encode p.1, Utf8.encode (Dsn.xtext p.2)) := by
    rw [encode_written]
    exact cut?_append (fun h => (hname 61 h).2 rfl) _
  simp [readParam?, hcut, Dsn.unxtext?_encode_xtext]

theorem mapM_readParam? (hnames : ∀ p ∈ params, IsName p.1) :
    (params.map fun p => Utf8.encode (written p)).mapM readParam? = some params := by
  induction params with
  | nil => rfl
  | cons p rest ih =>
    obtain ⟨hname, hrest⟩ := List.forall_mem_cons.mp hnames
    simp [readParam?_written hname, ih hrest]

/-- What is joined by spaces is found between them. -/
theorem splitOn_params (hnames : ∀ p ∈ params, IsName p.1) :
    List.splitOn 32 (List.intercalate [32] ([] :: params.map fun p => Utf8.encode (written p))) =
      [] :: params.map fun p => Utf8.encode (written p) := by
  refine List.splitOn_intercalate 32 (List.forall_mem_cons.mpr ⟨List.not_mem_nil, ?_⟩) (by simp)
  intro text htext hspace
  obtain ⟨p, hp, rfl⟩ := List.mem_map.mp htext
  exact absurd (lt_of_mem_written (hnames p hp) hspace) (by decide)

/-- Whatever is joined by spaces has nothing below a space, if its parts have not. -/
theorem le_of_mem_intercalate {texts : List (List UInt8)} (htexts : ∀ t ∈ texts, ∀ b ∈ t, 32 ≤ b.toNat) :
    ∀ b ∈ List.intercalate [32] texts, 32 ≤ b.toNat := by
  induction texts with
  | nil => exact List.forall_mem_nil _
  | cons t rest ih =>
    obtain ⟨ht, hrest⟩ := List.forall_mem_cons.mp htexts
    cases rest with
    | nil => simpa using ht
    | cons u rest =>
      rw [List.intercalate_cons_cons]
      intro b hb
      rw [List.mem_append, List.mem_append] at hb
      rcases hb with (hb | hb) | hb
      · exact ht b hb
      · rw [List.mem_singleton.mp hb]
        decide
      · exact ih hrest b hb

/-- No address holds a control octet or an angle bracket. -/
theorem of_mem_address {a : Address} {b : UInt8} (h : b ∈ Utf8.encode a.text) :
    32 ≤ b.toNat ∧ b ≠ 60 ∧ b ≠ 62 := by
  have hsound : ∀ ch ∈ a.text.toList, Address.isForbidden ch = false := by
    rcases a.sound with hnull | hsound
    · simp [hnull]
    · unfold Address.defect? at hsound
      split at hsound
      · cases hsound
      · split at hsound
        · cases hsound
        · rename_i hnone
          simpa using hnone
  by_cases hb : b < 128
  · have hchar := hsound _ (Utf8.mem_encode hb h)
    have hall : ∀ i : Fin 128, Address.isForbidden (Char.ofNat i) = false →
        32 ≤ i.val ∧ i.val ≠ 60 ∧ i.val ≠ 62 := by decide
    obtain ⟨hle, hopen, hclose⟩ := hall ⟨b.toNat, UInt8.lt_iff_toNat_lt.mp hb⟩ hchar
    exact ⟨hle, fun h => hopen (congrArg UInt8.toNat h), fun h => hclose (congrArg UInt8.toNat h)⟩
  · have hle : 128 ≤ b.toNat := by
      rw [UInt8.lt_iff_toNat_lt] at hb
      simpa using hb
    refine ⟨by omega, ?_, ?_⟩
    · rintro rfl
      exact absurd hle (by decide)
    · rintro rfl
      exact absurd hle (by decide)

section

variable {verb : String} (a : Address)
  (hverb : ∀ b ∈ Utf8.encode verb, 32 ≤ b.toNat ∧ b ≠ 60) (hnames : ∀ p ∈ params, IsName p.1)

include hverb hnames

/-- There is no control octet in a line before its end. -/
theorem le_of_mem_octets : ∀ b ∈ octets verb a.text params, 32 ≤ b.toNat := by
  intro b hb
  unfold octets at hb
  simp only [List.mem_append, List.mem_cons] at hb
  rcases hb with hb | rfl | hb | rfl | hb
  · exact (hverb b hb).1
  · decide
  · exact (of_mem_address hb).1
  · decide
  · refine le_of_mem_intercalate (List.forall_mem_cons.mpr ⟨List.forall_mem_nil _, ?_⟩) b hb
    intro text htext c hc
    obtain ⟨p, hp, rfl⟩ := List.mem_map.mp htext
    exact Nat.le_of_lt (lt_of_mem_written (hnames p hp) hc)

theorem isOneLine_octets : IsOneLine (octets verb a.text params ++ [13, 10]) := by
  refine ⟨_, rfl, fun b hb => ?_⟩
  have hle := le_of_mem_octets a hverb hnames b hb
  constructor
  · rintro rfl
    exact absurd hle (by decide)
  · rintro rfl
    exact absurd hle (by decide)

/-- A line is read back. -/
theorem read?_octets : read? (octets verb a.text params ++ [13, 10]) = some ⟨a.text, params⟩ := by
  have hend : (13 : UInt8) ∉ octets verb a.text params := fun h =>
    absurd (le_of_mem_octets a hverb hnames 13 h) (by decide)
  have hline : cut? 13 (octets verb a.text params ++ [13, 10]) =
      some (octets verb a.text params, [10]) := cut?_append hend [10]
  have hopen : cut? 60 (octets verb a.text params) = some (Utf8.encode verb, _) :=
    cut?_append (fun h => (hverb 60 h).2 rfl) _
  have hclose : cut? 62 (Utf8.encode a.text ++ 62 :: List.intercalate [32] ([] :: params.map fun p =>
      Utf8.encode (written p))) = some (Utf8.encode a.text, _) :=
    cut?_append (fun h => (of_mem_address h).2.2 rfl) _
  simp [read?, hline, hopen, hclose, splitOn_params hnames, mapM_readParam? hnames]

end

end EnvelopeLine

/-! ## What a request says in each line -/

open EnvelopeLine

namespace Dsn

/-- The parameters of the sender's line. -/
def senderFields (d : Dsn) : List (String × String) :=
  (d.ret.map fun v => ("RET", v)).toList ++ (d.envid.map fun v => ("ENVID", v)).toList

/-- The parameters of the recipient's line. -/
def recipientFields (d : Dsn) : List (String × String) :=
  (if d.occasions.isEmpty then [] else [("NOTIFY", ",".intercalate d.occasions)]) ++
    (d.orcpt.map fun v => ("ORCPT", addressType ++ v)).toList

/-- The words for occasions are sent as they are. -/
theorem xtext_occasions (d : Dsn) :
    xtext (",".intercalate d.occasions) = ",".intercalate d.occasions := by
  have hall : ∀ success failure delay never : Bool,
      let words := occasions { success, failure, delay, never }
      xtext (",".intercalate words) = ",".intercalate words := by decide
  exact hall d.success d.failure d.delay d.never

theorem senderParams_eq (d : Dsn) : d.senderParams = " ".intercalate (d.senderFields.map written) := by
  have hret : ∀ v, written ("RET", v) = "RET=" ++ xtext v := by
    intro v
    have hname : "RET" ++ "=" = "RET=" := by decide
    rw [written, hname]
  have henvid : ∀ v, written ("ENVID", v) = "ENVID=" ++ xtext v := by
    intro v
    have hname : "ENVID" ++ "=" = "ENVID=" := by decide
    rw [written, hname]
  unfold senderParams senderFields
  cases d.ret <;> cases d.envid <;> simp [hret, henvid]

theorem recipientParams_eq (d : Dsn) :
    d.recipientParams = " ".intercalate (d.recipientFields.map written) := by
  have hnotify : written ("NOTIFY", ",".intercalate d.occasions) =
      "NOTIFY=" ++ ",".intercalate d.occasions := by
    have hname : "NOTIFY" ++ "=" = "NOTIFY=" := by decide
    rw [written, xtext_occasions, hname]
  have horcpt : ∀ v, written ("ORCPT", addressType ++ v) = "ORCPT=rfc822;" ++ xtext v := by
    intro v
    have htype : xtext addressType = addressType := by decide
    have hname : "ORCPT" ++ "=" ++ addressType = "ORCPT=rfc822;" := by decide
    rw [written, xtext_append, htype, ← String.append_assoc, hname]
  unfold recipientParams recipientFields
  cases d.occasions.isEmpty <;> cases d.orcpt <;> simp [hnotify, horcpt]

theorem isName_of_mem_senderFields {d : Dsn} : ∀ p ∈ d.senderFields, IsName p.1 := by
  have hret : IsName "RET" := by decide +kernel
  have henvid : IsName "ENVID" := by decide +kernel
  unfold senderFields
  cases d.ret <;> cases d.envid <;> simp [hret, henvid]

theorem isName_of_mem_recipientFields {d : Dsn} : ∀ p ∈ d.recipientFields, IsName p.1 := by
  have hnotify : IsName "NOTIFY" := by decide +kernel
  have horcpt : IsName "ORCPT" := by decide +kernel
  unfold recipientFields
  cases d.occasions.isEmpty <;> cases d.orcpt <;> simp [hnotify, horcpt]

/-- What is not set is not there, and what is set to nothing is there. -/
theorem lookup_senderFields (d : Dsn) :
    d.senderFields.lookup "RET" = d.ret ∧ d.senderFields.lookup "ENVID" = d.envid := by
  unfold senderFields
  cases d.ret <;> cases d.envid <;> exact ⟨rfl, rfl⟩

theorem lookup_recipientFields (d : Dsn) :
    (d.recipientFields.lookup "NOTIFY").elim [] listed = d.occasions ∧
      d.recipientFields.lookup "ORCPT" = d.orcpt.map (addressType ++ ·) := by
  have hall : ∀ success failure delay never : Bool,
      let asked := occasions { success, failure, delay, never }
      asked.isEmpty = false → listed (",".intercalate asked) = asked := by decide
  have hasked := hall d.success d.failure d.delay d.never
  unfold recipientFields
  cases hempty : d.occasions.isEmpty with
  | true =>
    rw [List.isEmpty_iff.mp hempty]
    cases d.orcpt <;> exact ⟨rfl, rfl⟩
  | false =>
    refine ⟨hasked hempty, ?_⟩
    cases d.orcpt <;> rfl

theorem contains_occasions (d : Dsn) :
    d.occasions.contains "SUCCESS" = d.success ∧ d.occasions.contains "FAILURE" = d.failure ∧
      d.occasions.contains "DELAY" = d.delay ∧ d.occasions.contains "NEVER" = d.never := by
  have hall : ∀ success failure delay never : Bool,
      let asked := occasions { success, failure, delay, never }
      asked.contains "SUCCESS" = success ∧ asked.contains "FAILURE" = failure ∧
        asked.contains "DELAY" = delay ∧ asked.contains "NEVER" = never := by decide
  exact hall d.success d.failure d.delay d.never

end Dsn

theorem EnvelopeLine.untyped?_append (address : String) :
    untyped? (addressType ++ address) = some address := by
  rw [untyped?, String.toList_append, if_pos (List.prefix_append _ _), List.drop_left,
    String.ofList_toList]

theorem EnvelopeLine.address?_text (a : Address) (params : List (String × String)) :
    address? ⟨a.text, params⟩ = some a := dif_pos a.sound

/-! ## The lines of an envelope -/

theorem Address.encode_render (a : Address) :
    Utf8.encode a.render = 60 :: (Utf8.encode a.text ++ [62]) := by
  rw [Address.render, Utf8.encode_append, Utf8.encode_append]
  rfl

namespace Command

/-- Parameters stand behind spaces, and nothing stands where there are none. -/
theorem encode_paramText (params : List (String × String)) :
    Utf8.encode (paramText (some (" ".intercalate (params.map written)))) =
      List.intercalate [32] ([] :: params.map fun p => Utf8.encode (written p)) := by
  cases params with
  | nil => rfl
  | cons p rest =>
    have hjoined : Utf8.encode (" ".intercalate ((p :: rest).map written)) =
        List.intercalate [32] ((p :: rest).map fun p => Utf8.encode (written p)) := by
      rw [Utf8.encode_intercalate, List.map_map]
      rfl
    have hne : (" ".intercalate ((p :: rest).map written)).isEmpty = false := by
      rw [Bool.eq_false_iff]
      intro hempty
      have hnone : Utf8.encode "" = [] := rfl
      rw [String.isEmpty_iff.mp hempty, hnone] at hjoined
      cases rest <;> simp [encode_written] at hjoined
    rw [paramText, if_neg (Bool.eq_false_iff.mp hne), Utf8.encode_append, hjoined, List.map_cons,
      List.intercalate_cons_cons]
    rfl

/-- A line with a path and parameters, octet by octet. -/
theorem encode_line (verb : String) (a : Address) (params : List (String × String)) :
    Utf8.encode (verb ++ a.render ++ paramText (some (" ".intercalate (params.map written))) ++ "\r\n") =
      octets verb a.text params ++ [13, 10] := by
  have hend : Utf8.encode "\r\n" = [13, 10] := rfl
  rw [Utf8.encode_append, Utf8.encode_append, Utf8.encode_append, encode_paramText,
    a.encode_render, hend]
  simp [octets]

/-- For every address and every request: the lines that name the sender and the recipient are one
line each, and a receiver that takes them apart reads the address and everything that the request
says there, with what is set to nothing apart from what is not set. -/
theorem envelope_lines_read_back (address : Address) (dsn : Dsn) :
    (IsOneLine (mailFrom address (some dsn.senderParams)).wire ∧
      sender? (mailFrom address (some dsn.senderParams)).wire =
        some (address, { ret := dsn.ret, envid := dsn.envid })) ∧
    (IsOneLine (rcptTo address (some dsn.recipientParams)).wire ∧
      recipient? (rcptTo address (some dsn.recipientParams)).wire =
        some (address,
          { orcpt := dsn.orcpt, success := dsn.success, failure := dsn.failure,
            delay := dsn.delay, never := dsn.never })) := by
  have hsender : (mailFrom address (some dsn.senderParams)).wire =
      octets "MAIL FROM:" address.text dsn.senderFields ++ [13, 10] := by
    rw [dsn.senderParams_eq]
    exact encode_line "MAIL FROM:" address dsn.senderFields
  have hrecipient : (rcptTo address (some dsn.recipientParams)).wire =
      octets "RCPT TO:" address.text dsn.recipientFields ++ [13, 10] := by
    rw [dsn.recipientParams_eq]
    exact encode_line "RCPT TO:" address dsn.recipientFields
  have hmail : ∀ b ∈ Utf8.encode "MAIL FROM:", 32 ≤ b.toNat ∧ b ≠ 60 := by decide +kernel
  have hrcpt : ∀ b ∈ Utf8.encode "RCPT TO:", 32 ≤ b.toNat ∧ b ≠ 60 := by decide +kernel
  rw [hsender, hrecipient]
  refine ⟨⟨isOneLine_octets address hmail Dsn.isName_of_mem_senderFields, ?_⟩,
    isOneLine_octets address hrcpt Dsn.isName_of_mem_recipientFields, ?_⟩
  · obtain ⟨hret, henvid⟩ := dsn.lookup_senderFields
    simp [sender?, read?_octets address hmail Dsn.isName_of_mem_senderFields, address?_text, value?,
      hret, henvid]
  · obtain ⟨hasked, horcpt⟩ := dsn.lookup_recipientFields
    obtain ⟨hsuccess, hfailure, hdelay, hnever⟩ := dsn.contains_occasions
    have huntyped : (dsn.orcpt.map (addressType ++ ·)).elim (some none)
        (fun text => (untyped? text).map some) = some dsn.orcpt := by
      cases dsn.orcpt with
      | none => rfl
      | some v => exact congrArg (Option.map some) (untyped?_append v)
    simp only [recipient?, read?_octets address hrcpt Dsn.isName_of_mem_recipientFields, address?_text,
      value?, hasked, horcpt, huntyped, hsuccess, hfailure, hdelay, hnever, Option.bind_eq_bind,
      Option.bind_some, Option.pure_def]

end Command

end MailSubmission
