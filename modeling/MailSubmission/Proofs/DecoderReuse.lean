import Mathlib.Algebra.Ring.Nat
import MailSubmission.Proofs.ReplyFolding

set_option autoImplicit false

/-!
# One decoder for many replies

A decoder is kept from reply to reply.  Whatever was asked of it before, it stands within a line or
behind the last line of a reply (`Between`): an octet, a look ahead and a reset lead from there to
there (`serve_answered`), and so does a run of them (`after_between`).  When it gives up or is
reset, nothing is left of what it has read, and behind the last line of a reply there is nothing
left but the charges, which the next octet takes off (`nothing_carried_over`).
-/

namespace MailSubmission

namespace Decoder

/-! ## What is asked of a decoder -/

/-- What is asked of a decoder between two octets. -/
inductive Request where
  /-- to take an octet -/
  | push (b : UInt8)
  /-- to reopen the reply behind a line, with some octets in sight -/
  | resume (l : ReplyLine) (ahead : List UInt8)
  /-- to forget what it has read -/
  | reset
  deriving DecidableEq, Repr

/-- What the decoder answers. -/
inductive Response where
  /-- nothing has come about -/
  | nothing
  /-- a line has ended -/
  | line (l : ReplyLine)
  /-- the line is not the last one after all -/
  | reopened (l : ReplyLine)
  /-- the tolerance was exceeded, with so many deviations -/
  | thrashing (seen : Nat)
  deriving DecidableEq, Repr

/-- The answer to a request, and the decoder behind it. -/
def serve (d : Decoder) : Request → Response × Decoder
  | .push b =>
    match d.push b with
    | .more d => (.nothing, d)
    | .line l d => (.line l, d)
    | .thrashing seen d => (.thrashing seen, d)
  | .resume l ahead =>
    match d.resume l ahead with
    | .stands => (.nothing, d)
    | .reopened l d => (.reopened l, d)
    | .thrashing seen d => (.thrashing seen, d)
  | .reset => (.nothing, d.reset)

/-- The decoder behind some requests. -/
def after (d : Decoder) (requests : List Request) : Decoder :=
  requests.foldl (fun d request => (d.serve request).2) d

/-- The answers to some requests. -/
def responses (d : Decoder) : List Request → List Response
  | [] => []
  | request :: rest => (d.serve request).1 :: (d.serve request).2.responses rest

variable {t : Nat} {d : Decoder}

/-! ## Where a decoder can stand -/

/-- Between two requests the decoder stands within a line, or behind the last line of a reply. -/
inductive Between (t : Nat) : Decoder → Prop where
  | within (k : Nat) (line : RawLine) (h : (inside t k line).deviations ≤ t) :
    Between t (inside t k line)
  | done {k : Nat} (h : k ≤ t) : Between t { tolerance := t, deviations := k, replyDone := true }

theorem between_ofTolerance (t : Nat) : Between t (ofTolerance t) :=
  .within 0 [] (Nat.zero_le t)

theorem Between.tolerance_eq (h : Between t d) : d.tolerance = t := by
  cases h <;> rfl

theorem Between.deviations_le (h : Between t d) : d.deviations ≤ t := by
  cases h with
  | within _ _ h => exact h
  | done h => exact h

theorem Between.code_le (h : Between t d) : d.code ≤ 999 := by
  cases h with
  | within => exact Nat.le_of_lt_succ (RawLine.code_lt _)
  | done => exact Nat.zero_le _

/-- An octet is taken within a line: behind the last line of a reply it begins a new one. -/
theorem Between.push_eq (h : Between t d) (b : UInt8) :
    ∃ k line, (inside t k line).deviations ≤ t ∧ d.push b = (inside t k line).step b := by
  cases h with
  | within k line h => exact ⟨k, line, h, rfl⟩
  | done => exact ⟨0, [], Nat.zero_le t, rfl⟩

/-! ## What a request leads to -/

/-- What holds of an answer and the decoder behind it.  Behind a line nothing is left but the
charges, and nothing at all when the decoder gives up. -/
def Answered (t : Nat) : Response × Decoder → Prop
  | (.nothing, d) | (.reopened _, d) => Between t d
  | (.line l, d) => ∃ k ≤ t, d = { tolerance := t, deviations := k, replyDone := l.last }
  | (.thrashing seen, d) => seen = t + 1 ∧ d = ofTolerance t

theorem Answered.between {answer : Response × Decoder} (h : Answered t answer) :
    Between t answer.2 := by
  match answer, h with
  | (.nothing, _), h | (.reopened _, _), h => exact h
  | (.line l, _), ⟨k, hk, rfl⟩ =>
    cases hlast : l.last with
    | true => exact .done hk
    | false => exact .within k [] hk
  | (.thrashing _, _), ⟨_, rfl⟩ => exact between_ofTolerance t

theorem serve_push_answered (h : Between t d) (b : UInt8) : Answered t (d.serve (.push b)) := by
  obtain ⟨k, line, hk, hpush⟩ := h.push_eq b
  rw [serve, hpush]
  by_cases hlf : b = lf
  · rw [hlf, step_lf t k hk, ended]
    by_cases hle : k + line.toll ≤ t
    · rw [if_pos hle]
      cases hblank : line.isBlank with
      | true => exact .within _ [] hle
      | false => exact ⟨k + line.toll, hle, rfl⟩
    · rw [if_neg hle]
      exact ⟨rfl, rfl⟩
  · rw [step_inside t k hk hlf, reached]
    by_cases hle : (inside t k (line ++ [b])).deviations ≤ t
    · rw [if_pos hle]
      exact .within _ _ hle
    · rw [if_neg hle]
      exact ⟨rfl, rfl⟩

/-- One more deviation is as one more in front of the line. -/
theorem Between.reopen (h : Between t d) (hle : d.deviations + 1 ≤ t) :
    Between t { d with replyDone := false, deviations := d.deviations + 1 } := by
  cases h with
  | within k line h =>
    have hdeviations : (inside t (k + 1) line).deviations = (inside t k line).deviations + 1 :=
      Nat.add_right_comm k 1 _
    have hinside := Between.within (k + 1) line (hdeviations.trans_le hle)
    rwa [inside, Nat.add_right_comm] at hinside
  | done => exact .within _ [] hle

theorem serve_resume_answered (h : Between t d) (l : ReplyLine) (ahead : List UInt8) :
    Answered t (d.serve (.resume l ahead)) := by
  obtain rfl := h.tolerance_eq
  rw [serve, resume]
  by_cases hrepeats : (l.last && repeats l.code ahead) = true
  · rw [if_pos hrepeats, charge]
    by_cases hle : d.deviations + 1 ≤ d.tolerance
    · rw [if_neg (Nat.not_lt.mpr hle)]
      exact h.reopen hle
    · rw [if_pos (Nat.not_le.mp hle)]
      have hseen : d.deviations + 1 = d.tolerance + 1 :=
        Nat.le_antisymm (Nat.succ_le_succ h.deviations_le) (Nat.not_le.mp hle)
      exact ⟨hseen, rfl⟩
  · rw [if_neg hrepeats]
    exact h

/-- One request. -/
theorem serve_answered (h : Between t d) (request : Request) : Answered t (d.serve request) := by
  cases request with
  | push b => exact serve_push_answered h b
  | resume l ahead => exact serve_resume_answered h l ahead
  | reset =>
    rw [serve, reset, h.tolerance_eq]
    exact between_ofTolerance t

/-- Any number of requests. -/
theorem after_between (h : Between t d) (requests : List Request) :
    Between t (d.after requests) := by
  induction requests generalizing d with
  | nil => exact h
  | cons request rest ih => exact ih (serve_answered h request).between

/-! ## What is left behind a reply -/

/-- A look ahead that comes to nothing leaves the decoder as it is. -/
theorem after_looks {l : ReplyLine} {looks : List (List UInt8)}
    (h : ∀ answer ∈ d.responses (looks.map (.resume l)), answer = .nothing) :
    d.after (looks.map (.resume l)) = d := by
  induction looks with
  | nil => rfl
  | cons ahead rest ih =>
    have hstands : (d.serve (.resume l ahead)).2 = d := by
      have hnothing := h _ List.mem_cons_self
      rw [serve] at hnothing ⊢
      cases hresume : d.resume l ahead with
      | stands => rfl
      | reopened | thrashing => simp [hresume] at hnothing
    rw [List.map_cons, responses, hstands] at h
    rw [List.map_cons, after, List.foldl_cons, hstands]
    exact ih fun answer hanswer => h answer (List.mem_cons_of_mem _ hanswer)

/-- The octet behind the last line of a reply is taken as by a new decoder. -/
theorem serve_push_of_last {l : ReplyLine} {answer : Response × Decoder} (h : Answered t answer)
    (hline : answer.1 = .line l) (hlast : l.last = true) (b : UInt8) :
    answer.2.serve (.push b) = (ofTolerance t).serve (.push b) := by
  obtain ⟨_, d⟩ := answer
  obtain rfl : _ = Response.line l := hline
  obtain ⟨k, -, rfl⟩ := h
  rw [hlast]
  rfl

/-! ## The sums -/

/-- What a digit is worth in a column. -/
def worth : Column → Nat
  | .hundreds => 100
  | .tens => 10
  | .ones => 1
  | .separator | .text | .afterReturn => 0

theorem serve_push_digit {b : UInt8} {n : Nat} (hdigit : digit? b = some n)
    (hcolumn : d.column = .hundreds ∨ d.column = .tens ∨ d.column = .ones) :
    (d.serve (.push b)).2.code = d.code + n * worth d.column := by
  have hb : ¬(b = cr ∨ b = lf) := by
    rintro (rfl | rfl) <;> cases hdigit
  rcases hcolumn with hcolumn | hcolumn | hcolumn <;>
    cases hdone : d.replyDone <;>
    simp [serve, push, hdone, step, hcolumn, readDigit, hdigit, hb, worth]

/-- A digit never takes the code over three places. -/
theorem Between.code_add_le (h : Between t d) {b : UInt8} {n : Nat} (hdigit : digit? b = some n) :
    d.code + n * worth d.column ≤ 999 := by
  by_cases hcolumn : d.column = .hundreds ∨ d.column = .tens ∨ d.column = .ones
  · rw [← serve_push_digit hdigit hcolumn]
    exact (serve_push_answered h b).between.code_le
  · have hworth : worth d.column = 0 := by
      cases hd : d.column <;> simp_all [worth]
    rw [hworth, Nat.mul_zero]
    exact h.code_le

/-! ## Nothing is carried over -/

/-- Whatever was asked of a decoder before: when it gives up or is reset, it is a new decoder of the
same tolerance.  When it has ended the last line of a reply, and no look ahead has reopened the
reply, then from the next octet on it answers all that is asked of it as a new decoder does.  It
never stands with more deviations than it tolerates or with a code of more than three digits, so
that neither of the sums outgrows the word that it is kept in. -/
theorem nothing_carried_over (ht : t < 2 ^ 32 - 1) (requests : List Request) :
    let d := (ofTolerance t).after requests
    (∀ request seen, (d.serve request).1 = .thrashing seen →
      seen = t + 1 ∧ (d.serve request).2 = ofTolerance t) ∧
    (d.serve .reset).2 = ofTolerance t ∧
    (∀ b l (looks : List (List UInt8)), (d.serve (.push b)).1 = .line l → l.last = true →
      (∀ answer ∈ (d.serve (.push b)).2.responses (looks.map (.resume l)), answer = .nothing) →
      ∀ next rest,
        ((d.serve (.push b)).2.after (looks.map (.resume l))).responses (.push next :: rest) =
          (ofTolerance t).responses (.push next :: rest)) ∧
    (d.deviations ≤ t ∧ d.deviations + 1 < 2 ^ 32) ∧
    d.code ≤ 999 ∧ ∀ b n, digit? b = some n → d.code + n * worth d.column ≤ 999 := by
  intro d
  have hd : Between t d := after_between (between_ofTolerance t) requests
  refine ⟨fun request seen hthrashing => ?_, ?_, fun b l looks hline hlast hlooks next rest => ?_,
    ⟨hd.deviations_le, ?_⟩, hd.code_le, fun b n hdigit => hd.code_add_le hdigit⟩
  · obtain ⟨answer, hanswer⟩ : ∃ answer, d.serve request = answer := ⟨_, rfl⟩
    have hanswered := serve_answered hd request
    rw [hanswer] at hthrashing hanswered ⊢
    obtain ⟨_, d'⟩ := answer
    obtain rfl : _ = Response.thrashing seen := hthrashing
    exact hanswered
  · exact congrArg ofTolerance hd.tolerance_eq
  · rw [after_looks hlooks, responses, responses,
      serve_push_of_last (serve_push_answered hd b) hline hlast]
  · have hle := hd.deviations_le
    omega

/-- A reply whose stray carriage returns use the tolerance up. -/
theorem nothing_carried_over_strayReturns :
    let d := (ofTolerance 2).after ((Text.Utf8.encode "250 a\r\r\r").map .push)
    let l : ReplyLine := ⟨250, "a", false, true⟩
    let looks := [Text.Utf8.encode "251"]
    2 < 2 ^ 32 - 1 ∧ d.deviations = 2 ∧
    (d.serve (.push cr)).1 = .thrashing 3 ∧ (d.serve (.push cr)).2 = ofTolerance 2 ∧
    (d.serve (.push lf)).1 = .line l ∧ (d.serve (.push lf)).2.deviations = 2 ∧
    ∀ next rest, ((d.serve (.push lf)).2.after (looks.map (.resume l))).responses
      (.push next :: rest) = (ofTolerance 2).responses (.push next :: rest) := by
  intro d l looks
  have h := nothing_carried_over (t := 2) (by decide)
    ((Text.Utf8.encode "250 a\r\r\r").map .push)
  have hthrashing : (d.serve (.push cr)).1 = .thrashing 3 := by decide +kernel
  have hline : (d.serve (.push lf)).1 = .line l := by decide +kernel
  have hlooks : ∀ answer ∈ (d.serve (.push lf)).2.responses (looks.map (.resume l)),
      answer = .nothing := by decide +kernel
  exact ⟨by decide, by decide +kernel, hthrashing, (h.1 _ _ hthrashing).2, hline,
    by decide +kernel, h.2.2.1 lf l looks hline rfl hlooks⟩

end Decoder

end MailSubmission
