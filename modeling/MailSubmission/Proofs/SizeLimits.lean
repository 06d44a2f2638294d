import Mathlib.Algebra.Ring.Nat
import MailSubmission.Proofs.NotificationOffers

set_option autoImplicit false

/-!
# How large a message may be

A server says in its answer to the login how large a message may be, in a line of the extension
`SIZE`; the line may also leave the limit open.  The extensions are a set, and whoever asks for the
limit goes through them in some order and takes the first that says something of it
(`ServerProfile.MayAnswer`).

If there are more lines of this kind than one, the answer may be what any of them says, and also
that there is no limit where one is offered: it is the same in all orders exactly if the lines agree
(`Client.size_limit_by_order`).
-/

namespace MailSubmission

/-! ## Offers of a size -/

namespace Extension

/-- The word is a size: decimal digits, behind a plus sign or not, of a number that fits a word of
64 bits. -/
def IsSize (word : String) (n : Nat) : Prop :=
  ∃ digits : List Char, (word.toList = digits ∨ word.toList = '+' :: digits) ∧ digits ≠ [] ∧
    (∀ c ∈ digits, c.isDigit = true) ∧ Nat.ofDigitChars 10 digits 0 = n ∧ n < 2 ^ 64

/-- The line is about sizes: its first word is that keyword, in letters of any case.  The limit is
what the second word says; it is left open if there is no such word, or if that is no size. -/
def OffersSize (line : String) (limit : Option Nat) : Prop :=
  ∃ keyword rest, Text.words line = keyword :: rest ∧ Text.upper keyword = "SIZE" ∧
    ∀ n, limit = some n ↔ ∃ word, rest.head? = some word ∧ IsSize word n

theorem le_ofDigitChars (digits : List Char) (n : Nat) : n ≤ Nat.ofDigitChars 10 digits n := by
  induction digits generalizing n with
  | nil => rw [Nat.ofDigitChars_nil]
  | cons c rest ih =>
    rw [Nat.ofDigitChars_cons]
    refine Nat.le_trans ?_ (ih _)
    omega

/-- Digit after digit stays below the bound if the whole number does. -/
theorem foldlM_withDigit? {digits : List Char} {n m : Nat} (hn : n < sizeBound) :
    digits.foldlM withDigit? n = some m ↔ Nat.ofDigitChars 10 digits n = m ∧ m < sizeBound := by
  induction digits generalizing n with
  | nil =>
    rw [List.foldlM_nil, Nat.ofDigitChars_nil, Option.pure_def, Option.some_inj]
    exact ⟨fun h => ⟨h, h ▸ hn⟩, fun h => h.1⟩
  | cons c rest ih =>
    have hnext : n * 10 + (c.toNat - 48) = 10 * n + (c.toNat - '0'.toNat) := by
      rw [Nat.mul_comm]
      rfl
    rw [List.foldlM_cons, Nat.ofDigitChars_cons, withDigit?, hnext]
    split
    · rename_i hlt
      exact ih hlt
    · rename_i hge
      have hle := le_ofDigitChars rest (10 * n + (c.toNat - '0'.toNat))
      refine ⟨nofun, fun h => absurd h.2 ?_⟩
      rw [← h.1]
      omega

theorem digits?_eq_some_iff {digits : List Char} {n : Nat} :
    digits? digits = some n ↔ digits ≠ [] ∧ (∀ c ∈ digits, c.isDigit = true) ∧
      Nat.ofDigitChars 10 digits 0 = n ∧ n < 2 ^ 64 := by
  have hzero : 0 < sizeBound := by decide
  have hbound : sizeBound = 2 ^ 64 := rfl
  unfold digits?
  rw [← hbound, ← foldlM_withDigit? hzero, ← and_assoc]
  by_cases hdigits : digits ≠ [] ∧ ∀ c ∈ digits, c.isDigit = true
  · rw [if_neg (by simpa using hdigits), and_iff_right hdigits]
  · rw [if_pos (by simpa [← List.all_eq_true, or_iff_not_imp_left] using hdigits)]
    exact ⟨nofun, fun h => absurd h.1 hdigits⟩

theorem parseSize?_eq_some_iff {word : String} {n : Nat} :
    parseSize? word = some n ↔ IsSize word n := by
  unfold parseSize? IsSize
  split
  · rename_i digits hword
    rw [digits?_eq_some_iff]
    constructor
    · exact fun h => ⟨digits, .inr hword, h⟩
    · rintro ⟨digits', hdigits' | hdigits', h⟩
      · -- A plus sign is no digit.
        have hplus := h.2.1 '+' (by rw [← hdigits', hword]; exact List.mem_cons_self)
        exact absurd hplus (by decide)
      · obtain rfl := (List.cons.inj (hword.symm.trans hdigits')).2
        exact h
  · rename_i hplus
    rw [digits?_eq_some_iff]
    constructor
    · exact fun h => ⟨word.toList, .inl rfl, h⟩
    · rintro ⟨digits, rfl | hdigits, h⟩
      · exact h
      · exact absurd hdigits (hplus digits)

theorem parse_eq_size_iff {line : String} {limit : Option Nat} :
    parse line = .size limit ↔ OffersSize line limit := by
  unfold parse OffersSize
  cases hwords : Text.words line with
  | nil => simp
  | cons keyword rest =>
    have hlimit : (∀ n, limit = some n ↔ ∃ word, rest.head? = some word ∧ IsSize word n) ↔
        rest.head?.bind parseSize? = limit := by
      rw [eq_comm, Option.ext_iff]
      simp only [Option.bind_eq_some_iff, parseSize?_eq_some_iff]
    dsimp only
    constructor
    · intro hparse
      split at hparse <;> cases hparse
      rename_i hkeyword
      exact ⟨keyword, rest, rfl, hkeyword, hlimit.mpr rfl⟩
    · rintro ⟨keyword', rest', heq, hkeyword, h⟩
      obtain ⟨rfl, rfl⟩ := List.cons.inj heq
      rw [hkeyword]
      exact congrArg size (hlimit.mp h)

end Extension

/-! ## The limit in some order -/

namespace ServerProfile

variable {p : ServerProfile} {answer : Option Nat}

/-- The limit that is found when the extensions are gone through in some order. -/
def MayAnswer (p : ServerProfile) (answer : Option Nat) : Prop :=
  ∃ order : List Extension, order.Perm p.extensions ∧
    ({ p with extensions := order } : ServerProfile).maxMessageSize = answer

theorem mem_sizes {limit : Option Nat} : limit ∈ p.sizes ↔ p.supports (.size limit) = true := by
  unfold sizes supports
  rw [List.mem_filterMap, List.contains_iff_mem]
  constructor
  · rintro ⟨e, he, hlimit⟩
    cases e with
    | size => exact Option.some.inj hlimit ▸ he
    | _ => cases hlimit
  · exact fun h => ⟨_, h, rfl⟩

/-- What is found is a limit that is known, unless there is none. -/
theorem maxMessageSize_mem (p : ServerProfile) :
    p.supports (.size p.maxMessageSize) = true ∨ p.maxMessageSize = none ∧ p.sizes = [] := by
  have hfirst : p.maxMessageSize = p.sizes.head?.join := rfl
  cases hsizes : p.sizes with
  | nil =>
    rw [hsizes] at hfirst
    exact .inr ⟨hfirst, rfl⟩
  | cons limit rest =>
    rw [hsizes] at hfirst
    refine .inl (mem_sizes.mp ?_)
    rw [hsizes, hfirst]
    exact List.mem_cons_self

/-- The set may be gone through with any of its elements first. -/
theorem mayAnswer_of_supports (h : p.supports (.size answer) = true) : p.MayAnswer answer :=
  ⟨.size answer :: p.extensions.erase (.size answer),
    (List.perm_cons_erase (List.contains_iff_mem.mp h)).symm, rfl⟩

theorem mayAnswer_iff : p.MayAnswer answer ↔ p.supports (.size answer) = true ∨
    answer = none ∧ ∀ limit, p.supports (.size limit) ≠ true := by
  constructor
  · rintro ⟨order, hperm, rfl⟩
    have hsupports : ∀ e, ({ p with extensions := order } : ServerProfile).supports e = true ↔
        p.supports e = true := by
      intro e
      rw [supports, supports, List.contains_iff_mem, List.contains_iff_mem]
      exact hperm.mem_iff
    refine (maxMessageSize_mem _).imp (hsupports _).mp (And.imp_right fun hsizes limit h => ?_)
    have hmem := mem_sizes.mpr ((hsupports _).mpr h)
    rw [hsizes] at hmem
    exact List.not_mem_nil hmem
  · rintro (h | ⟨rfl, hnone⟩)
    · exact mayAnswer_of_supports h
    · exact ⟨p.extensions, .rfl, (p.maxMessageSize_mem.resolve_left (hnone _)).1⟩

/-- In all orders the same is found exactly if no two known limits differ. -/
theorem existsUnique_mayAnswer_iff : (∃! answer, p.MayAnswer answer) ↔
    ∀ a b, p.supports (.size a) = true → p.supports (.size b) = true → a = b := by
  constructor
  · exact fun h a b ha hb => h.unique (mayAnswer_of_supports ha) (mayAnswer_of_supports hb)
  · intro h
    refine ⟨p.maxMessageSize, ⟨p.extensions, .rfl, rfl⟩, fun answer hanswer => ?_⟩
    rcases mayAnswer_iff.mp hanswer with hknown | ⟨rfl, hnone⟩
    · rcases p.maxMessageSize_mem with hmax | ⟨-, hsizes⟩
      · exact h _ _ hknown hmax
      · have hmem := mem_sizes.mpr hknown
        rw [hsizes] at hmem
        exact absurd hmem List.not_mem_nil
    · exact (p.maxMessageSize_mem.resolve_left (hnone _)).1.symm

end ServerProfile

/-! ## After a login -/

namespace Client

open Run

variable {c later : Client} {replies : List Reply}

/-- After a login the client knows what the lines of the answer say, all but the first. -/
theorem supports_of_login (hextensions : c.settings.extensions = true)
    (h : login c = .ok replies later) (e : Extension) :
    later.server.supports e = true ↔ ∃ r ∈ replies.drop 1, Extension.parse r.text = e := by
  have hends : Ends login c (fun replies later => ∃ (p : ServerProfile) (lines : List ReplyLine),
      replies = ReplyLine.expand lines ∧ later.server = p.learn lines) fun _ _ => True := by
    have hsettings : c.cleared.settings.extensions = true := by
      unfold cleared
      split <;> exact hextensions
    simp only [login, keep, moveTo, ends_bind, ends_enter_iff, ends_get, ends_modify, ends_pure,
      ends_ite, hsettings, if_true]
    split
    · refine (ends_self _ _).mono (fun lines mid _ => ?_) fun _ _ _ => trivial
      split <;> exact ⟨mid.server, lines, rfl, rfl⟩
    · trivial
  obtain ⟨p, lines, rfl, hserver⟩ := hends.of_ok h
  rw [hserver, p.supports_learn, ReplyLine.expand, ← List.map_drop]
  simp only [List.mem_map, exists_exists_and_eq_and]
  rfl

/-- Whatever a server answers to a login that asks for extensions: the limits that may be found
afterwards, the extensions being gone through in any order, are those that the lines of the answer
offer, all but the first, and no limit if none of them is about sizes.  The same is found in all
orders exactly if all lines about sizes say the same. -/
theorem size_limit_by_order (hextensions : c.settings.extensions = true)
    (h : login c = .ok replies later) :
    let Offered (limit : Option Nat) : Prop :=
      ∃ r ∈ replies.drop 1, Extension.OffersSize r.text limit
    (∀ answer, later.server.MayAnswer answer ↔
      Offered answer ∨ answer = none ∧ ∀ limit, ¬ Offered limit) ∧
    ((∃! answer, later.server.MayAnswer answer) ↔ ∀ a b, Offered a → Offered b → a = b) := by
  intro Offered
  have hknown : ∀ limit, later.server.supports (.size limit) = true ↔ Offered limit := by
    intro limit
    rw [supports_of_login hextensions h]
    exact exists_congr fun r => and_congr_right fun _ => Extension.parse_eq_size_iff
  constructor
  · intro answer
    rw [ServerProfile.mayAnswer_iff]
    exact or_congr (hknown answer) (and_congr_right fun _ => forall_congr' fun limit =>
      not_congr (hknown limit))
  · rw [ServerProfile.existsUnique_mayAnswer_iff]
    exact forall₂_congr fun a b => imp_congr (hknown a) (imp_congr (hknown b) Iff.rfl)

/-- A client that has connected to a server which answers the login with these lines. -/
def connectedTo (lines : List String) : Client :=
  Call.after (.operation (.connect "mx" 25))
    (.new 1 { extensions := true } {} (Submitter.serverSending ("220 mx" :: lines) []))

/-- Two lines about sizes: one leaves the limit open. -/
def sizedTwice : Client := connectedTo ["250-mx", "250-SIZE", "250 SIZE 1000"]

/-- The replies to that. -/
def sizedTwiceReplies : List Reply :=
  ["mx", "SIZE", "SIZE 1000"].map fun text => { code := 250, text }

theorem login_sizedTwice : ∃ later, login sizedTwice = .ok sizedTwiceReplies later := by
  have hreturns : (match login sizedTwice with
      | .ok replies _ => replies == sizedTwiceReplies
      | .error _ _ => false) = true := by decide +kernel
  split at hreturns
  · rename_i replies later hr
    exact ⟨later, beq_iff_eq.mp hreturns ▸ hr⟩
  · cases hreturns

theorem parse_sizedTwiceReplies (limit : Option Nat) :
    (∃ r ∈ sizedTwiceReplies.drop 1, Extension.parse r.text = .size limit) ↔
      limit = none ∨ limit = some 1000 := by
  have hopen : Extension.parse "SIZE" = .size none := by decide +kernel
  have hlimit : Extension.parse "SIZE 1000" = .size (some 1000) := by decide +kernel
  simp [sizedTwiceReplies, hopen, hlimit, eq_comm]

theorem size_limit_by_order_sizedTwice : ∃ later,
    sizedTwice.settings.extensions = true ∧ login sizedTwice = .ok sizedTwiceReplies later ∧
    ∀ answer, later.server.MayAnswer answer ↔ answer = none ∨ answer = some 1000 := by
  obtain ⟨later, hr⟩ := login_sizedTwice
  have hextensions : sizedTwice.settings.extensions = true := by decide +kernel
  refine ⟨later, hextensions, hr, fun answer => ?_⟩
  rw [(size_limit_by_order hextensions hr).1 answer]
  simp only [← Extension.parse_eq_size_iff, parse_sizedTwiceReplies]
  exact or_iff_left fun h => h.2 none (.inl rfl)

/-- Which limit is found depends on the order. -/
theorem size_limit_not_always_same :
    ¬ ∀ (c later : Client) (replies : List Reply), c.settings.extensions = true →
      login c = .ok replies later →
      ∀ a b, later.server.MayAnswer a → later.server.MayAnswer b → a = b := by
  intro h
  obtain ⟨later, hr⟩ := login_sizedTwice
  have hextensions : sizedTwice.settings.extensions = true := by decide +kernel
  have hanswers : ∀ limit, limit = none ∨ limit = some 1000 → later.server.MayAnswer limit :=
    fun limit hlimit => ServerProfile.mayAnswer_of_supports
      ((supports_of_login hextensions hr _).mpr ((parse_sizedTwiceReplies limit).mpr hlimit))
  have hsame := h _ _ _ hextensions hr _ _ (hanswers none (.inl rfl)) (hanswers _ (.inr rfl))
  cases hsame

end Client

end MailSubmission
