import MailSubmission.Proofs.Exchanges
import MailSubmission.Proofs.Submissions

set_option autoImplicit false

/-!
# The order of commands

Whatever calls a client gets, what passes on each of its connections is the beginning of a course
(`Course`): a greeting that does not refuse, then one turn after another, each with a command that
fits the state so far.  All that is said of the order of commands can be read off courses
(`InOrder`), and of what lies between two messages as well.

The invariant ties the course of the connection that a client holds to the state it is in
(`InStep`).  Each operation keeps it by taking one turn, or by coming to a halt within one.
-/

namespace MailSubmission

/-! ## Courses -/

/-- What passes when a command is said and answered; behind an announcement, when the server asks
for it, a message body and the answer to that. -/
inductive Turn : Exchange → List Remark → Prop where
  | answered (x : Exchange) : Turn x (x.command.answered x.lines)
  | poured {goAhead lines : List ReplyLine} (sources : List (Option Script))
      (asked : (ReplyLine.collapse goAhead).code = Code.startData) :
      Turn ⟨.data, goAhead⟩ (Command.data.answered goAhead ++ Message.poured sources ++ [.heard lines])

/-- The server has greeted, and one command after another was said that fits and was answered. -/
inductive Course : List Exchange → List Remark → Prop where
  | greeted {lines : List ReplyLine} (accepted : (ReplyLine.collapse lines).isFailure = false) :
      Course [] [.heard lines]
  | turn {xs : List Exchange} {rs talk : List Remark} {x : Exchange} (course : Course xs rs)
      (fits : x.command.fits (reached xs) = true) (turn : Turn x talk) : Course (xs ++ [x]) (rs ++ talk)

/-- What passed is the beginning of a course, or nothing behind the greeting. -/
inductive Conversed : List Remark → Prop where
  | greeting {rs : List Remark} {lines : List ReplyLine} (cut : rs <+: [.heard lines]) : Conversed rs
  | course {xs : List Exchange} {rs full : List Remark} (course : Course xs full)
      (cut : rs <+: full) : Conversed rs

/-- The server has greeted and did not refuse. -/
def Greeted (rs : List Remark) : Prop :=
  ∃ lines rest, (ReplyLine.collapse lines).isFailure = false ∧ rs = .heard lines :: rest

/-- The octet `b` that comes next belongs to the line of the command that was begun last. -/
def InCommand (before : List Remark) (b : UInt8) : Prop :=
  ∃ (earlier : List Remark) (command : Command) (taken : List UInt8),
    before = earlier ++ .said command :: taken.map .octet ∧ taken ++ [b] <+: command.wire

/-- Nothing but octets has passed since a message was announced and asked for. -/
def InBody (before : List Remark) : Prop :=
  ∃ (earlier : List Remark) (goAhead : List ReplyLine) (taken : List UInt8),
    before = earlier ++ Command.data.answered goAhead ++ taken.map .octet ∧
    (ReplyLine.collapse goAhead).code = Code.startData

/-- What passed on a connection is in order.  Every command is said behind a greeting that did
not refuse, and in its turn.  Every octet is part of a command line, or of a message body that
the server has asked for.  Behind a goodbye comes its answer and nothing else. -/
structure InOrder (rs : List Remark) : Prop where
  commands : ∀ before command after, rs = before ++ .said command :: after →
    Greeted before ∧ command.MayFollow (exchanges before)
  octets : ∀ before b after, rs = before ++ .octet b :: after → InCommand before b ∨ InBody before
  goodbye : ∀ before after, rs = before ++ .said .quit :: after →
    ∃ lines, .said .quit :: after <+: Command.quit.answered lines

section

variable {xs : List Exchange} {rs talk before after : List Remark} {x : Exchange}

/-! ### Turns -/

/-- A turn is one command, and the answer to it comes next. -/
theorem Turn.exists_said (h : Turn x talk) : ∃ quiet, talk = .said x.command :: quiet ∧
    (∀ command, .said command ∉ quiet) ∧ answerTo quiet = some x.lines := by
  cases h with
  | answered => exact ⟨_, rfl, by simp, by simp [answerTo]⟩
  | poured sources asked => exact ⟨_, rfl, by simp [Message.poured], by simp [answerTo]⟩

theorem Turn.exchanges_append (h : Turn x talk) (rs : List Remark) :
    exchanges (rs ++ talk) = exchanges rs ++ [x] := by
  obtain ⟨quiet, rfl, hquiet, hanswer⟩ := h.exists_said
  rw [exchanges_append_said, exchanges, hanswer, exchanges_eq_nil hquiet]
  rfl

/-- Nothing is said in a turn but its command, first of all. -/
theorem Turn.eq_nil_of_said {command : Command} (h : Turn x talk)
    (hsplit : talk = before ++ .said command :: after) : before = [] ∧ command = x.command := by
  obtain ⟨quiet, rfl, hquiet, -⟩ := h.exists_said
  cases before with
  | nil =>
    injection hsplit with hsaid
    injection hsaid with hsame
    exact ⟨rfl, hsame.symm⟩
  | cons r rest =>
    injection hsplit with hfirst hquiet'
    exact absurd (hquiet' ▸ List.mem_append_right rest List.mem_cons_self) (hquiet command)

/-- An octet stands among octets, or behind what follows them. -/
theorem octet_split {bytes : List UInt8} {tail : List Remark} {b : UInt8}
    (hsplit : bytes.map .octet ++ .flushed :: tail = before ++ .octet b :: after) :
    (∃ taken : List UInt8, before = taken.map .octet ∧ taken ++ [b] <+: bytes) ∨
      ∃ later, before = bytes.map .octet ++ .flushed :: later ∧ tail = later ++ .octet b :: after := by
  induction bytes generalizing before with
  | nil =>
    cases before with
    | nil => cases hsplit
    | cons r rest =>
      injection hsplit with hfirst htail
      subst hfirst
      exact .inr ⟨rest, rfl, htail⟩
  | cons byte bytes ih =>
    cases before with
    | nil =>
      injection hsplit with hfirst
      injection hfirst with hsame
      subst hsame
      exact .inl ⟨[], rfl, ⟨bytes, rfl⟩⟩
    | cons r rest =>
      injection hsplit with hfirst hrest
      subst hfirst
      rcases ih hrest with ⟨taken, rfl, hcut⟩ | ⟨later, rfl, htail⟩
      · exact .inl ⟨byte :: taken, rfl, (List.prefix_cons_inj byte).mpr hcut⟩
      · exact .inr ⟨later, rfl, htail⟩

/-- Where a command is said first, an octet belongs to its line or comes behind that. -/
theorem asked_split {command : Command} {tail : List Remark} {b : UInt8}
    (hsplit : command.asked ++ tail = before ++ .octet b :: after) (rs : List Remark) :
    InCommand (rs ++ before) b ∨
      ∃ later, before = command.asked ++ later ∧ tail = later ++ .octet b :: after := by
  have hasked : command.asked ++ tail = .said command :: (command.wire.map .octet ++ .flushed :: tail) := by
    simp [Command.asked]
  rw [hasked] at hsplit
  cases before with
  | nil => cases hsplit
  | cons r rest =>
    injection hsplit with hfirst hrest
    subst hfirst
    rcases octet_split hrest with ⟨taken, rfl, hcut⟩ | ⟨later, rfl, htail⟩
    · exact .inl ⟨rs, command, taken, rfl, hcut⟩
    · exact .inr ⟨later, by simp [Command.asked], htail⟩

/-- The octets of a turn are those of its command line, and of the message that it asks for. -/
theorem Turn.octet (h : Turn x talk) {b : UInt8} (hsplit : talk = before ++ .octet b :: after)
    (rs : List Remark) : InCommand (rs ++ before) b ∨ InBody (rs ++ before) := by
  cases h with
  | answered =>
    rcases asked_split hsplit rs with hline | ⟨later, rfl, hrest⟩
    · exact .inl hline
    · cases later with
      | nil => cases hrest
      | cons r rest => simp at hrest
  | @poured goAhead lines sources asked =>
    simp only [Command.answered, List.append_assoc] at hsplit
    rcases asked_split hsplit rs with hline | ⟨later, rfl, hrest⟩
    · exact .inl hline
    · cases later with
      | nil => cases hrest
      | cons r rest =>
        injection hrest with hfirst hbody
        subst hfirst
        simp only [Message.poured, List.append_assoc] at hbody
        rcases octet_split hbody with ⟨taken, rfl, -⟩ | ⟨later, rfl, htail⟩
        · exact .inr ⟨rs, goAhead, taken, by simp [Command.answered], asked⟩
        · cases later with
          | nil => cases htail
          | cons r rest => simp at htail

/-! ### What a course tells -/

/-- The exchanges of a course are those that it is made of. -/
theorem Course.exchanges_eq (h : Course xs rs) : exchanges rs = xs := by
  induction h with
  | greeted accepted => rfl
  | turn course fits turn ih => rw [turn.exchanges_append, ih]

theorem Course.permitted (h : Course xs rs) : Permitted .connected xs := by
  induction h with
  | greeted accepted => exact trivial
  | turn course fits turn ih => exact permitted_append.mpr ⟨ih, fits, trivial⟩

theorem Course.greets (h : Course xs rs) : Greeted rs := by
  induction h with
  | @greeted lines accepted => exact ⟨lines, [], accepted, rfl⟩
  | turn course fits turn ih =>
    obtain ⟨lines, rest, haccepted, rfl⟩ := ih
    exact ⟨lines, rest ++ _, haccepted, rfl⟩

/-- Up to any of its commands a course is a course, and the command fits.  It begins a turn, and
only further exchanges follow. -/
theorem Course.of_said {command : Command} (h : Course xs rs)
    (hsplit : rs = before ++ .said command :: after) :
    ∃ ys x zs talk rest, xs = ys ++ x :: zs ∧ Course ys before ∧ x.command = command ∧
      command.fits (reached ys) = true ∧ Turn x talk ∧ .said command :: after = talk ++ rest ∧
      (zs = [] → rest = []) := by
  induction h generalizing after with
  | greeted accepted =>
    have hmem : .said command ∈ before ++ .said command :: after := by simp
    rw [← hsplit] at hmem
    simp at hmem
  | @turn xs rs talk x course fits turn ih =>
    -- The command is that of the last turn, with `talk` from there on.
    have hlast : rs = before → talk = .said command :: after → ∃ ys y zs talk' rest,
        xs ++ [x] = ys ++ y :: zs ∧ Course ys before ∧ y.command = command ∧
        command.fits (reached ys) = true ∧ Turn y talk' ∧ .said command :: after = talk' ++ rest ∧
        (zs = [] → rest = []) := by
      rintro rfl rfl
      obtain ⟨-, rfl⟩ := turn.eq_nil_of_said (List.nil_append _).symm
      exact ⟨xs, x, [], _, [], rfl, course, rfl, fits, turn, (List.append_nil _).symm, fun _ => rfl⟩
    rcases List.append_eq_append_iff.mp hsplit with ⟨part, rfl, htalk⟩ | ⟨part, hrs, hrest⟩
    · obtain ⟨rfl, -⟩ := turn.eq_nil_of_said htalk
      exact hlast (List.append_nil rs).symm htalk
    · cases part with
      | nil => exact hlast (hrs.trans (List.append_nil before)) hrest.symm
      | cons r part =>
        rw [List.cons_append] at hrest
        obtain ⟨rfl, rfl⟩ := List.cons.inj hrest
        obtain ⟨ys, y, zs, talk', rest, rfl, hcourse, hcommand, hfits, hturn, hsaid, -⟩ := ih hrs
        refine ⟨ys, y, zs ++ [x], talk', rest ++ talk, by simp, hcourse, hcommand, hfits, hturn, ?_,
          by simp⟩
        rw [← List.cons_append, hsaid, List.append_assoc]

theorem Course.of_octet {b : UInt8} (h : Course xs rs) (hsplit : rs = before ++ .octet b :: after) :
    InCommand before b ∨ InBody before := by
  induction h generalizing after with
  | greeted accepted =>
    have hmem : .octet b ∈ before ++ .octet b :: after := by simp
    rw [← hsplit] at hmem
    simp at hmem
  | @turn xs rs talk x course fits turn ih =>
    rcases List.append_eq_append_iff.mp hsplit with ⟨part, rfl, htalk⟩ | ⟨part, hrs, hrest⟩
    · exact turn.octet htalk rs
    · cases part with
      | nil =>
        have htalk : talk = [] ++ .octet b :: after := hrest.symm
        have hplace := turn.octet htalk rs
        rwa [hrs, List.append_nil, List.append_nil] at hplace
      | cons r part =>
        rw [List.cons_append] at hrest
        obtain ⟨rfl, -⟩ := List.cons.inj hrest
        exact ih hrs

/-- No command fits behind a goodbye. -/
theorem Course.of_quit (h : Course xs rs) (hsplit : rs = before ++ .said .quit :: after) :
    ∃ lines, .said .quit :: after = Command.quit.answered lines := by
  obtain ⟨ys, x, zs, talk, rest, rfl, hcourse, hcommand, -, hturn, hsaid, hlast⟩ := h.of_said hsplit
  have hover : (x.leads (reached ys)).isLive = false := by
    rw [Exchange.leads, hcommand]
    rfl
  have hrest : Permitted (x.leads (reached ys)) zs := (permitted_append.mp h.permitted).2.2
  obtain rfl := hlast (permitted_of_not_isLive hover hrest)
  rw [List.append_nil] at hsaid
  cases hturn with
  | answered => exact ⟨x.lines, hcommand ▸ hsaid⟩
  | poured sources asked => cases hcommand

/-- A beginning of a course is in order. -/
theorem Conversed.inOrder (h : Conversed rs) : InOrder rs := by
  cases h with
  | @greeting _ lines cut =>
    have hheard : ∀ r ∈ rs, r = .heard lines := fun r hr => List.mem_singleton.mp (cut.subset hr)
    refine ⟨?_, ?_, ?_⟩
    · rintro before command after rfl
      cases hheard (.said command) (by simp)
    · rintro before b after rfl
      cases hheard (.octet b) (by simp)
    · rintro before after rfl
      cases hheard (.said .quit) (by simp)
  | @course xs _ full course cut =>
    obtain ⟨rest, rfl⟩ := cut
    refine ⟨?_, ?_, ?_⟩
    · rintro before command after rfl
      obtain ⟨ys, -, -, -, -, -, hcourse, -, hfits, -⟩ := course.of_said (List.append_assoc _ _ _)
      rw [hcourse.exchanges_eq]
      exact ⟨hcourse.greets, (agrees_reached hcourse.permitted).mayFollow hfits⟩
    · rintro before b after rfl
      exact course.of_octet (List.append_assoc _ _ _)
    · rintro before after rfl
      obtain ⟨lines, hsaid⟩ := course.of_quit (List.append_assoc _ _ _)
      exact ⟨lines, rest, hsaid⟩

/-- What lies between two message bodies in a beginning of a course. -/
theorem Conversed.between_bodies {ys zs : List Exchange} {y : Exchange} (h : Conversed rs)
    (hsplit : exchanges rs = xs ++ x :: (ys ++ y :: zs)) (hx : x.isBody = true) (hy : y.isBody = true) :
    Renews ys .rcptToDone := by
  cases h with
  | @greeting _ lines cut =>
    have hheard : ∀ r ∈ rs, r = .heard lines := fun r hr => List.mem_singleton.mp (cut.subset hr)
    have hnone : exchanges rs = [] := exchanges_eq_nil fun command hmem => nomatch hheard _ hmem
    rw [hnone] at hsplit
    simp at hsplit
  | @course all _ full course cut =>
    obtain ⟨rest, hrest⟩ := exchanges_of_cut cut
    rw [course.exchanges_eq, hsplit] at hrest
    have hpermitted : Permitted .connected (xs ++ x :: (ys ++ y :: (zs ++ rest))) := by
      have hall := course.permitted
      rw [← hrest] at hall
      simpa using hall
    exact hpermitted.between_bodies hx hy

end

/-! ## One turn of a client -/

section

variable {command : Command} {lines : List ReplyLine} {state : SessionState}

theorem fits_hello (hhello : command.isHello = true) : command.fits .connected = true := by
  cases command <;> first | rfl | cases hhello

theorem leads_hello (hhello : command.isHello = true) (state : SessionState) :
    Exchange.leads state ⟨command, lines⟩ =
      if (ReplyLine.collapse lines).code = Code.ok then .loginComplete else state := by
  cases command <;> first | rfl | cases hhello

/-- Unless it is a failure, an answer is an acceptance. -/
theorem ite_isAccepted (x : Exchange) (moved : SessionState) :
    (if x.isAccepted then moved else state) = if x.reply.isFailure then state else moved := by
  unfold Exchange.isAccepted
  cases x.reply.isFailure with
  | true => rfl
  | false => rfl

end

namespace Client

open Run

/-- `later` is the client after a turn in the session that `c` holds on the connection `n`, or
after the beginning of one with which the session was over. -/
def TakesTurn (n : Nat) (c later : Client) : Prop :=
  ∃ x talk rs, x.command.fits c.state = true ∧ Turn x talk ∧ rs <+: talk ∧ c.Speaks n later rs ∧
    (later.Over ∨ rs = talk ∧ later.Holds n ∧ later.state = x.leads c.state)

variable {n : Nat} {c later : Client} {rs talk : List Remark}

theorem takesTurn_whole (x : Exchange) (hfits : x.command.fits c.state = true) (hturn : Turn x talk)
    (hspeaks : c.Speaks n later talk) (hholds : later.Holds n) (hstate : later.state = x.leads c.state) :
    c.TakesTurn n later :=
  ⟨x, talk, talk, hfits, hturn, List.prefix_refl talk, hspeaks, .inr ⟨rfl, hholds, hstate⟩⟩

theorem takesTurn_over (x : Exchange) (hfits : x.command.fits c.state = true) (hturn : Turn x talk)
    (hcut : rs <+: talk) (hspeaks : c.Speaks n later rs) (hover : later.Over) : c.TakesTurn n later :=
  ⟨x, talk, rs, hfits, hturn, hcut, hspeaks, .inl hover⟩

/-- A command that came to a halt was at most asked. -/
theorem takesTurn_asked (command : Command) (hfits : command.fits c.state = true)
    (hcut : rs <+: command.asked) (hspeaks : c.Speaks n later rs) (hover : later.Over) :
    c.TakesTurn n later :=
  takesTurn_over ⟨command, []⟩ hfits (.answered _) (hcut.trans (List.prefix_append _ _)) hspeaks hover

/-- In a session that goes on, an operation that the state allows takes one turn. -/
theorem ends_carryOut_turn (op : Operation) (hholds : c.Holds n) (hlive : c.state.isLive = true)
    (hallowed : op.allows c.state = true) :
    Ends op.carryOut c (fun _ c' => c.TakesTurn n c') (fun _ c' => c.TakesTurn n c') := by
  cases op with
  | connect host port =>
    have hstate : c.state = .fresh := beq_iff_eq.mp hallowed
    rw [hstate] at hlive
    cases hlive
  | login =>
    have hstate : c.state = .connected := beq_iff_eq.mp hallowed
    refine ends_bind.mpr ((ends_login hholds hstate).mono ?_ ?_)
    · intro replies c' hc'
      obtain ⟨hello, lines, hhello, hspeaks, hholds', hmoved, -⟩ := hc'
      refine takesTurn_whole ⟨hello, lines⟩ (hstate ▸ fits_hello hhello) (.answered _) hspeaks
        hholds' ?_
      rw [hmoved, leads_hello hhello, hstate]
    · intro e c' hc'
      obtain ⟨hello, rs, hhello, hspeaks, hbroken, hcut⟩ := hc'
      exact takesTurn_asked hello (hstate ▸ fits_hello hhello) hcut hspeaks hbroken.over
  | sender address dsn =>
    have hstate : c.state = .loginComplete := beq_iff_eq.mp hallowed
    obtain ⟨params, hsender⟩ := ends_sender address dsn hholds hstate
    refine ends_bind.mpr (hsender.mono ?_ ?_)
    · intro reply c' hc'
      obtain ⟨lines, -, hspeaks, hholds', hmoved⟩ := hc'
      refine takesTurn_whole ⟨.mailFrom address params, lines⟩ hallowed (.answered _) hspeaks hholds' ?_
      rw [hmoved, hstate]
      exact (ite_isAccepted ⟨.mailFrom address params, lines⟩ .mailFromDone).symm
    · intro e c' hc'
      obtain ⟨rs, hspeaks, hbroken, hcut⟩ := hc'
      exact takesTurn_asked (.mailFrom address params) hallowed hcut hspeaks hbroken.over
  | recipient address dsn =>
    have hstate : c.state = .mailFromDone := beq_iff_eq.mp hallowed
    obtain ⟨params, hrecipient⟩ := ends_recipient address dsn hholds hstate
    refine ends_bind.mpr (hrecipient.mono ?_ ?_)
    · intro reply c' hc'
      obtain ⟨lines, -, hspeaks, hholds', hmoved⟩ := hc'
      refine takesTurn_whole ⟨.rcptTo address params, lines⟩ hallowed (.answered _) hspeaks hholds' ?_
      rw [hmoved, hstate]
      exact (ite_isAccepted ⟨.rcptTo address params, lines⟩ .rcptToDone).symm
    · intro e c' hc'
      obtain ⟨rs, hspeaks, hbroken, hcut⟩ := hc'
      exact takesTurn_asked (.rcptTo address params) hallowed hcut hspeaks hbroken.over
  | reset =>
    refine ends_bind.mpr ((ends_reset hholds hallowed).mono ?_ ?_)
    · intro reply c' hc'
      obtain ⟨lines, haccepted, hspeaks, hholds', hmoved⟩ := hc'
      refine takesTurn_whole ⟨.rset, lines⟩ hallowed (.answered _) hspeaks hholds' ?_
      rw [hmoved]
      exact (if_pos (congrArg not haccepted)).symm
    · intro e c' hc'
      obtain ⟨rs, lines, hspeaks, hbroken, -, hcut⟩ := hc'
      exact takesTurn_over ⟨.rset, lines⟩ hallowed (.answered _) hcut hspeaks hbroken.over
  | sendData sources =>
    have hstate : c.state = .rcptToDone := beq_iff_eq.mp hallowed
    refine ends_bind.mpr ((ends_sendData_said sources hholds hstate).mono ?_ ?_)
    · intro reply c' hc'
      obtain ⟨rs, hspeaks, hholds', hmoved, hhanded⟩ := hc'
      have hsame : c'.state = c.state := hmoved.trans hstate.symm
      cases hhanded with
      | @declined lines hdeclined =>
        exact takesTurn_whole ⟨.data, lines⟩ hallowed (.answered _) hspeaks hholds' hsame
      | @poured goAhead lines asked =>
        exact takesTurn_whole ⟨.data, goAhead⟩ hallowed (.poured sources asked) hspeaks hholds' hsame
    · intro e c' hc'
      obtain ⟨rs, goAhead, hspeaks, hbroken, hcode, hcut⟩ := hc'
      have hwhole : rs <+: Command.data.answered goAhead ++ Message.poured sources ++ [.heard []] :=
        hcut.trans (List.prefix_append _ _)
      exact takesTurn_over ⟨.data, goAhead⟩ hallowed (.poured sources hcode) hwhole hspeaks hbroken.over
  | done =>
    refine ends_bind.mpr ((ends_done hholds hlive).mono ?_ ?_)
    · intro reply c' hc'
      obtain ⟨hover, lines, hspeaks⟩ := hc'
      exact takesTurn_over ⟨.quit, lines⟩ hlive (.answered _) (List.prefix_refl _) hspeaks hover
    · intro e c' hc'
      obtain ⟨hover, ⟨rs, hspeaks, hcut⟩, -⟩ := hc'
      exact takesTurn_asked .quit hlive hcut hspeaks hover

/-! ## The invariant -/

/-- The course on the connection that the client holds has led to the state it is in, where `es`
is what has happened; or no session goes on. -/
def AtCourse (es : List Entry) (c : Client) : Prop :=
  c.Over ∨ ∃ n xs, c.Holds n ∧ Course xs (dialogue n es) ∧ reached xs = c.state

/-- The invariant, if `before` had happened when the client was new: on each connection the
beginning of a course has passed, and the client knows where it is in its own. -/
def InStep (before : List Entry) (c : Client) : Prop :=
  ∃ es : List Entry, c.net.journal = es.reverse ++ before ∧ Recorded Conversed es c ∧ AtCourse es c

section

variable {before es fs : List Entry} {call : Call} {calls : List Call}

theorem conversed_nil : Conversed [] :=
  have hcut : [] <+: [Remark.heard []] := List.nil_prefix
  .greeting hcut

theorem inStep_new (id : Nat) (settings : ClientSettings) (token : Token) (net : Network) :
    InStep net.journal (Client.new id settings token net) :=
  ⟨[], rfl, ⟨nofun, fun _ _ => rfl, fun _ => conversed_nil⟩, .inl (.inr rfl)⟩

/-- What tells of no connection and ends all sessions keeps in step. -/
theorem InStep.silent (h : InStep before c) (hm : c.Moves later fs)
    (hsilent : ∀ n, dialogue n fs = []) (hover : later.Over) : InStep before later := by
  obtain ⟨es, hjournal, hrecorded, -⟩ := h
  exact ⟨es ++ fs, hm.journal_append hjournal, hrecorded.moves_silent hm hsilent, .inl hover⟩

theorem InStep.disconnect (h : InStep before c) : InStep before c.disconnect :=
  h.silent (moves_release c rfl rfl) (fun n => dialogue_release n c) (.inr rfl)

theorem InStep.cleared (h : InStep before c) : InStep before c.cleared := by
  unfold Client.cleared
  split
  · exact h.silent (moves_release c rfl rfl) (fun n => dialogue_release n c) (.inr rfl)
  · exact h

theorem InStep.meanwhile (h : InStep before c) (hw : c.Meanwhile later) : InStep before later := by
  obtain ⟨es, hjournal, hrecorded, hcourse⟩ := h
  have hstate : later.state = c.state := by rw [hw.same]
  have hmark : later.inFlight = c.inFlight := by rw [hw.same]
  have hrecorded' : Recorded Conversed (es ++ []) later := hrecorded.moves_silent hw.moves fun _ => rfl
  rw [List.append_nil] at hrecorded'
  refine ⟨es, hw.journal.trans hjournal, hrecorded', ?_⟩
  unfold AtCourse Over
  rw [hstate, hmark]
  refine hcourse.imp_right ?_
  rintro ⟨n, xs, hholds, hcourse, hreached⟩
  exact ⟨n, xs, ⟨hmark.trans hholds.idle, hw.held.trans hholds.held⟩, hcourse, hreached⟩

/-- A turn, or the beginning of one, goes on with the course. -/
theorem InStep.turn {n : Nat} {xs : List Exchange} (hjournal : c.net.journal = es.reverse ++ before)
    (hrecorded : Recorded Conversed es c) (hcourse : Course xs (dialogue n es))
    (hreached : reached xs = c.state) (hturn : c.TakesTurn n later) : InStep before later := by
  obtain ⟨x, talk, rs, hfits, hturn, hcut, hspeaks, hleft⟩ := hturn
  have hgoes : Course (xs ++ [x]) (dialogue n es ++ talk) := hcourse.turn (hreached ▸ hfits) hturn
  have hconversed : Conversed (dialogue n es ++ rs) :=
    .course hgoes ((List.prefix_append_right_inj _).mpr hcut)
  obtain ⟨fs, hm, hrecorded', hsaid⟩ := hrecorded.speaks hspeaks hconversed
  refine ⟨es ++ fs, hm.journal_append hjournal, hrecorded', hleft.imp_right ?_⟩
  rintro ⟨rfl, hholds, hstate⟩
  refine ⟨n, xs ++ [x], hholds, hsaid ▸ hgoes, ?_⟩
  rw [reached_append_singleton, hreached, hstate]

/-- A greeting, or what was awaited of it, begins a course on a connection of its own. -/
theorem InStep.connect (h : InStep before c) (host : String) (port : Nat) (hidle : c.inFlight = false)
    (hfresh : c.state = .fresh) :
    Ends (connect host port) c (fun _ c' => InStep before c') (fun _ c' => InStep before c') := by
  obtain ⟨es, hjournal, hrecorded, -⟩ := h
  have hnothing : dialogue c.net.dialled es = [] := hrecorded.untouched _ (Nat.le_refl _)
  apply (ends_connect host port hidle hfresh).mono
  · intro greeting c' hc'
    obtain ⟨lines, haccepted, hspeaks, hholds, hstate⟩ := hc'
    have hgreeting : Conversed (dialogue c.net.dialled es ++ [.heard lines]) := by
      rw [hnothing]
      exact .greeting (List.prefix_refl _)
    obtain ⟨fs, hm, hrecorded', hsaid⟩ := hrecorded.speaks hspeaks hgreeting
    rw [hnothing, List.nil_append] at hsaid
    exact ⟨es ++ fs, hm.journal_append hjournal, hrecorded',
      .inr ⟨_, [], hholds, hsaid ▸ .greeted haccepted, hstate.symm⟩⟩
  · intro e c' hc'
    obtain ⟨rs, lines, hspeaks, hbroken, hcut⟩ := hc'
    have hgreeting : Conversed (dialogue c.net.dialled es ++ rs) := by
      rw [hnothing]
      exact .greeting hcut
    obtain ⟨fs, hm, hrecorded', -⟩ := hrecorded.speaks hspeaks hgreeting
    exact ⟨es ++ fs, hm.journal_append hjournal, hrecorded', .inl hbroken.over⟩

/-- Where there is no session, nothing is said for a goodbye. -/
theorem ends_done_of_fresh (hidle : c.inFlight = false) (hfresh : c.state = .fresh) :
    Ends done c (fun _ c' => c' = c.disconnect) (fun _ _ => False) := by
  have hallowed : (c.state != .bad) = true := by rw [hfresh]; rfl
  have hlive : (!c.state.isLive) = true := by rw [hfresh]; rfl
  refine ends_bind.mpr ((ends_enter hidle hallowed).mpr (ends_bind.mpr (ends_get.mpr ?_)))
  rw [if_pos hlive]
  exact rfl

/-- Every operation keeps in step, however it ends. -/
theorem InStep.operation (h : InStep before c) (op : Operation) (hidle : c.inFlight = false) :
    Ends op.carryOut c (fun _ c' => InStep before c') (fun _ c' => InStep before c') := by
  cases hallowed : op.allows c.state with
  | false =>
    have hrefused := op.carryOut_of_not_allows c
    rw [cleared_of_idle hidle] at hrefused
    unfold Ends
    rw [hrefused hallowed]
    exact h
  | true =>
    cases hlive : c.state.isLive with
    | true =>
      obtain ⟨es, hjournal, hrecorded, hcourse⟩ := h
      have hgoes : ¬ c.Over := by simp [Over, hidle, hlive]
      obtain ⟨n, xs, hholds, hcourse, hreached⟩ := hcourse.resolve_left hgoes
      exact (ends_carryOut_turn op hholds hlive hallowed).mono
        (fun _ _ hturn => .turn hjournal hrecorded hcourse hreached hturn)
        fun _ _ hturn => .turn hjournal hrecorded hcourse hreached hturn
    | false =>
      have hfresh : c.state = .fresh := by
        cases hstate : c.state with
        | fresh => rfl
        | bad =>
          rw [hstate] at hallowed
          cases op <;> cases hallowed
        | _ => cases hstate ▸ hlive
      cases op with
      | connect host port => exact ends_bind.mpr (h.connect host port hidle hfresh)
      | done =>
        refine ends_bind.mpr ((ends_done_of_fresh hidle hfresh).mono ?_ fun _ _ hnever => hnever.elim)
        rintro reply c' rfl
        exact h.disconnect
      | _ => cases hfresh ▸ hallowed

theorem InStep.after (h : InStep before c) (call : Call) : InStep before (call.after c) := by
  have hcleared := h.cleared
  refine Call.after_of_ends ?_
  cases call with
  | operation op => exact ends_bind.mpr (hcleared.operation op c.idle_cleared)
  | disconnect => exact hcleared.disconnect
  | configure settings token =>
    refine ends_bind.mpr (ends_enter_iff.mpr ?_)
    rw [cleared_cleared]
    split
    · rename_i hallowed
      have hover : c.cleared.Over := .inr ((Bool.not_eq_true' _).mp hallowed)
      exact hcleared.silent ((Moves.refl c.cleared).congr rfl rfl) (fun _ => rfl) hover
    · exact hcleared

/-- Whatever calls are made, the client keeps in step. -/
theorem InStep.runs (h : InStep before c) (hr : Runs c calls later) : InStep before later := by
  induction hr with
  | nil => exact h
  | meanwhile wait _ ih => exact ih (h.meanwhile wait)
  | call _ ih => exact ih (h.after _)

/-! ## The order of commands -/

/-- Whatever calls a client gets, and whatever becomes of them: what has passed on each of its
connections is in order. -/
theorem commands_said_in_order {id : Nat} {settings : ClientSettings} {token : Token} {net : Network}
    (hruns : Runs (Client.new id settings token net) calls c) :
    ∃ es : List Entry, c.net.journal = es.reverse ++ net.journal ∧ ∀ n, InOrder (dialogue n es) := by
  obtain ⟨es, hjournal, hrecorded, -⟩ := (inStep_new id settings token net).runs hruns
  exact ⟨es, hjournal, fun n => (hrecorded.each n).inOrder⟩

/-- A server that takes two messages. -/
def takingTwo : Network :=
  Submitter.serverSending (Submitter.takingLines ++ ["354 go", "250 taken"]) []

/-- The calls of a client that hands two messages over, one straight after the other. -/
def handingTwo : List Call :=
  [.operation (.connect "mx" 25), .operation .login, .operation (.sender .null none),
    .operation (.recipient .null none), .operation (.sendData Submitter.shortMessage.sources),
    .operation (.sendData Submitter.shortMessage.sources)]

/-- The client that has done so. -/
def handedTwo : Client := handingTwo.foldl (fun c call => call.after c) (.new 1 {} {} takingTwo)

theorem exchanges_handedTwo : exchanges (dialogue 0 handedTwo.net.journal.reverse) =
    [⟨.helo "localhost", [{ code := 250, text := "mx", last := true }]⟩,
      ⟨.mailFrom .null none, [{ code := 250, text := "ok", last := true }]⟩,
      ⟨.rcptTo .null none, [{ code := 250, text := "ok", last := true }]⟩,
      ⟨.data, [{ code := 354, text := "go", last := true }]⟩,
      ⟨.data, [{ code := 354, text := "go", last := true }]⟩] := by
  decide +kernel

theorem commands_said_in_order_handedTwo :
    ∃ es : List Entry, handedTwo.net.journal = es.reverse ∧ (exchanges (dialogue 0 es)).length = 5 ∧
      ∀ n, InOrder (dialogue n es) := by
  obtain ⟨es, hjournal, horder⟩ := commands_said_in_order (runs_foldl handingTwo (.new 1 {} {} takingTwo))
  have hes : handedTwo.net.journal = es.reverse := hjournal.trans (List.append_nil _)
  have hsaid := exchanges_handedTwo
  rw [hes, List.reverse_reverse] at hsaid
  exact ⟨es, hes, congrArg List.length hsaid, horder⟩

/-! ## Messages and envelopes -/

/-- Whatever calls a client gets: between two message bodies on one connection a sender and a
recipient are accepted, unless nothing is said between them but announcements of other messages.
The state that allows a message allows the next one as well. -/
theorem bodies_share_envelope_only_in_a_row {id : Nat} {settings : ClientSettings} {token : Token}
    {net : Network} (hruns : Runs (Client.new id settings token net) calls c) :
    ∃ es : List Entry, c.net.journal = es.reverse ++ net.journal ∧
      ∀ (n : Nat) (xs ys zs : List Exchange) (x y : Exchange),
        exchanges (dialogue n es) = xs ++ x :: (ys ++ y :: zs) → x.isBody = true → y.isBody = true →
        (ys.any Exchange.isSender = true ∧ ys.any Exchange.isRecipient = true) ∨
          ∀ z ∈ ys, z.command = .data := by
  obtain ⟨es, hjournal, hrecorded, -⟩ := (inStep_new id settings token net).runs hruns
  exact ⟨es, hjournal, fun n xs ys zs x y hsplit hx hy => (hrecorded.each n).between_bodies hsplit hx hy⟩

theorem bodies_share_envelope_only_in_a_row_handedTwo :
    ∃ (es : List Entry) (xs ys : List Exchange) (x y : Exchange),
      handedTwo.net.journal = es.reverse ∧ exchanges (dialogue 0 es) = xs ++ x :: (ys ++ [y]) ∧
      x.isBody = true ∧ y.isBody = true ∧
      ((ys.any Exchange.isSender = true ∧ ys.any Exchange.isRecipient = true) ∨
        ∀ z ∈ ys, z.command = .data) := by
  obtain ⟨es, hjournal, hbodies⟩ :=
    bodies_share_envelope_only_in_a_row (runs_foldl handingTwo (.new 1 {} {} takingTwo))
  have hes : handedTwo.net.journal = es.reverse := hjournal.trans (List.append_nil _)
  have hsaid := exchanges_handedTwo
  rw [hes, List.reverse_reverse] at hsaid
  exact ⟨es, [_, _, _], [], _, _, hes, hsaid, rfl, rfl, hbodies 0 [_, _, _] [] [] _ _ hsaid rfl rfl⟩

/-- Two messages can go out with one envelope: a new one is not always opened between them. -/
theorem envelope_not_always_renewed :
    ¬ ∀ (id : Nat) (settings : ClientSettings) (token : Token) (net : Network) (calls : List Call)
      (c : Client), Runs (Client.new id settings token net) calls c →
      ∃ es : List Entry, c.net.journal = es.reverse ++ net.journal ∧
        ∀ (n : Nat) (xs ys zs : List Exchange) (x y : Exchange),
          exchanges (dialogue n es) = xs ++ x :: (ys ++ y :: zs) → x.isBody = true → y.isBody = true →
          ys.any Exchange.isSender = true ∧ ys.any Exchange.isRecipient = true := by
  intro hall
  obtain ⟨es, hjournal, hrenewed⟩ :=
    hall 1 {} {} takingTwo handingTwo _ (runs_foldl handingTwo (.new 1 {} {} takingTwo))
  have hes : handedTwo.net.journal = es.reverse := hjournal.trans (List.append_nil _)
  have hsaid := exchanges_handedTwo
  rw [hes, List.reverse_reverse] at hsaid
  obtain ⟨hsender, -⟩ := hrenewed 0 [_, _, _] [] [] _ _ hsaid rfl rfl
  cases hsender

end

end Client

end MailSubmission
