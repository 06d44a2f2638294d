import Mathlib.Data.List.DropRight
import Mathlib.Data.List.Induction
import MailSubmission.Proofs.ClientDialogue

set_option autoImplicit false

/-!
# Commands and their answers

A dialogue is read as the commands that were answered in it, each with its answer (`exchanges`).
They move a session from one state to the next (`Exchange.leads`), and each command has states
that it fits (`Command.fits`).  Where every command fits the state that those before it have led
to (`Permitted`), the state tells what the server has agreed to (`agrees_reached`), and there is
no way back to a recipient but by a new envelope or by staying with the old one
(`Permitted.renews`).
-/

namespace MailSubmission

/-! ## Exchanges -/

/-- A command, and the lines that answered it. -/
structure Exchange where
  command : Command
  lines : List ReplyLine
  deriving DecidableEq, Repr, Inhabited

namespace Exchange

/-- The lines as one reply. -/
def reply (x : Exchange) : Reply := ReplyLine.collapse x.lines

/-- The server did not refuse. -/
def isAccepted (x : Exchange) : Bool := !x.reply.isFailure

/-- A login that was answered as it should be. -/
def isLogin (x : Exchange) : Bool := x.command.isHello && x.reply.code == Code.ok

/-- A sender that was accepted. -/
def isSender (x : Exchange) : Bool :=
  match x.command with
  | .mailFrom .. => x.isAccepted
  | _ => false

/-- A recipient that was accepted. -/
def isRecipient (x : Exchange) : Bool :=
  match x.command with
  | .rcptTo .. => x.isAccepted
  | _ => false

/-- A reset that was accepted. -/
def isReset (x : Exchange) : Bool :=
  match x.command with
  | .rset => x.isAccepted
  | _ => false

/-- An announcement of a message body that the server asked for. -/
def isBody (x : Exchange) : Bool :=
  match x.command with
  | .data => x.reply.code == Code.startData
  | _ => false

/-- No envelope is open behind a login or a reset. -/
def clears (x : Exchange) : Bool := x.isLogin || x.isReset

end Exchange

/-- The reply that comes next, if it comes before another command. -/
def answerTo : List Remark → Option (List ReplyLine)
  | [] => none
  | .said _ :: _ => none
  | .heard lines :: _ => some lines
  | .octet _ :: rest => answerTo rest
  | .flushed :: rest => answerTo rest

/-- The commands in a dialogue that were answered, in order. -/
def exchanges : List Remark → List Exchange
  | [] => []
  | .said command :: rest => ((answerTo rest).map (Exchange.mk command)).toList ++ exchanges rest
  | .heard _ :: rest => exchanges rest
  | .octet _ :: rest => exchanges rest
  | .flushed :: rest => exchanges rest

section

variable {rs quiet full : List Remark} {command : Command} {lines : List ReplyLine}

@[simp] theorem answerTo_octets (bytes : List UInt8) (rs : List Remark) :
    answerTo (bytes.map .octet ++ rs) = answerTo rs := by
  induction bytes with
  | nil => exact congrArg answerTo (List.nil_append rs)
  | cons b rest ih => exact ih

/-- What comes from the next command on does not matter. -/
theorem answerTo_append_said (rs quiet : List Remark) (command : Command) :
    answerTo (rs ++ .said command :: quiet) = answerTo rs := by
  induction rs with
  | nil => rfl
  | cons r rest ih =>
    cases r with
    | said other => rfl
    | heard lines => rfl
    | octet b => exact ih
    | flushed => exact ih

theorem exchanges_append_said (rs quiet : List Remark) (command : Command) :
    exchanges (rs ++ .said command :: quiet) =
      exchanges rs ++ exchanges (.said command :: quiet) := by
  induction rs with
  | nil => rfl
  | cons r rest ih =>
    cases r with
    | said other =>
      rw [List.cons_append, exchanges, exchanges, ih, answerTo_append_said, List.append_assoc]
    | heard lines => exact ih
    | octet b => exact ih
    | flushed => exact ih

/-- There is no exchange without a command. -/
theorem exchanges_eq_nil (h : ∀ command, .said command ∉ quiet) : exchanges quiet = [] := by
  induction quiet with
  | nil => rfl
  | cons r rest ih =>
    have hrest : exchanges rest = [] := ih fun command hmem => h command (List.mem_cons_of_mem r hmem)
    cases r with
    | said command => exact absurd List.mem_cons_self (h command)
    | heard lines => exact hrest
    | octet b => exact hrest
    | flushed => exact hrest

/-- An answer stays the answer. -/
theorem answerTo_of_cut (h : rs <+: full) (hanswer : answerTo rs = some lines) :
    answerTo full = some lines := by
  obtain ⟨rest, rfl⟩ := h
  induction rs with
  | nil => cases hanswer
  | cons r rs ih =>
    cases r with
    | said command => cases hanswer
    | heard other => exact hanswer
    | octet b => exact ih hanswer
    | flushed => exact ih hanswer

/-- Where no answer has come, no further command was begun, or none will come. -/
theorem exchanges_of_answerTo_eq_none (hnone : answerTo rs = none) :
    exchanges rs = [] ∨ ∀ rest, answerTo (rs ++ rest) = none := by
  induction rs with
  | nil => exact .inl rfl
  | cons r rs ih =>
    cases r with
    | said command => exact .inr fun rest => rfl
    | heard lines => cases hnone
    | octet b => exact ih hnone
    | flushed => exact ih hnone

/-- The exchanges so far stay the first ones. -/
theorem exchanges_of_cut (h : rs <+: full) : exchanges rs <+: exchanges full := by
  obtain ⟨rest, rfl⟩ := h
  induction rs with
  | nil => exact List.nil_prefix
  | cons r rs ih =>
    cases r with
    | heard lines => exact ih
    | octet b => exact ih
    | flushed => exact ih
    | said command =>
      rw [List.cons_append, exchanges, exchanges]
      cases hanswer : answerTo rs with
      | some lines =>
        rw [answerTo_of_cut (List.prefix_append rs rest) hanswer]
        exact (List.prefix_append_right_inj _).mpr ih
      | none =>
        rcases exchanges_of_answerTo_eq_none hanswer with hempty | hnever
        · rw [hempty]
          exact List.nil_prefix
        · rw [hnever rest]
          exact ih

end

/-! ## States -/

/-- The states of a session that the command fits. -/
def Command.fits : Command → SessionState → Bool
  | .helo _, state | .ehlo _, state => state == .connected
  | .mailFrom .., state => state == .loginComplete
  | .rcptTo .., state => state == .mailFromDone
  | .data, state => state == .rcptToDone
  | .rset, state => state.inSession
  | .quit, state => state.isLive

/-- The state that an exchange leads to. -/
def Exchange.leads (state : SessionState) (x : Exchange) : SessionState :=
  match x.command with
  | .helo _ | .ehlo _ => if x.reply.code = Code.ok then .loginComplete else state
  | .mailFrom .. => if x.isAccepted then .mailFromDone else state
  | .rcptTo .. => if x.isAccepted then .rcptToDone else state
  | .data => state
  | .rset => if x.isAccepted then .loginComplete else .bad
  | .quit => .fresh

/-- The state that exchanges have led to since the greeting. -/
def reached (xs : List Exchange) : SessionState := xs.foldl Exchange.leads .connected

/-- Each command fits the state that those before it have led to. -/
def Permitted : SessionState → List Exchange → Prop
  | _, [] => True
  | state, x :: xs => x.command.fits state = true ∧ Permitted (x.leads state) xs

section

variable {state : SessionState} {xs ys : List Exchange} {x : Exchange}

@[simp] theorem reached_append_singleton (xs : List Exchange) (x : Exchange) :
    reached (xs ++ [x]) = x.leads (reached xs) := List.foldl_append

theorem permitted_append : Permitted state (xs ++ ys) ↔
    Permitted state xs ∧ Permitted (xs.foldl Exchange.leads state) ys := by
  induction xs generalizing state with
  | nil => exact (true_and _).symm.to_iff
  | cons x xs ih => exact (and_congr_right fun _ => ih).trans and_assoc.symm

/-- No command fits a session that is over. -/
theorem permitted_of_not_isLive (hover : state.isLive = false) (h : Permitted state xs) : xs = [] := by
  cases xs with
  | nil => rfl
  | cons x xs =>
    have hfits : x.command.fits state = true := h.1
    cases state with
    | fresh => cases hcommand : x.command <;> rw [hcommand] at hfits <;> cases hfits
    | bad => cases hcommand : x.command <;> rw [hcommand] at hfits <;> cases hfits
    | _ => cases hover

end

/-! ## What the server has agreed to -/

/-- The exchanges behind the latest login or reset. -/
def sinceCleared (xs : List Exchange) : List Exchange := xs.rtakeWhile fun x => !x.clears

/-- The server has accepted a login. -/
def loggedIn (xs : List Exchange) : Bool := xs.any Exchange.isLogin

/-- The server has accepted a sender for the open envelope. -/
def hasSender (xs : List Exchange) : Bool := (sinceCleared xs).any Exchange.isSender

/-- The server has accepted a recipient for the open envelope. -/
def hasRecipient (xs : List Exchange) : Bool := (sinceCleared xs).any Exchange.isRecipient

section

variable {xs : List Exchange} {x : Exchange}

@[simp] theorem loggedIn_append (xs : List Exchange) (x : Exchange) :
    loggedIn (xs ++ [x]) = (loggedIn xs || x.isLogin) := by
  simp [loggedIn]

theorem sinceCleared_append (xs : List Exchange) (x : Exchange) :
    sinceCleared (xs ++ [x]) = if x.clears then [] else sinceCleared xs ++ [x] := by
  unfold sinceCleared
  rw [List.rtakeWhile_concat]
  cases x.clears with
  | true => rfl
  | false => rfl

@[simp] theorem hasSender_append (xs : List Exchange) (x : Exchange) :
    hasSender (xs ++ [x]) = (!x.clears && (hasSender xs || x.isSender)) := by
  unfold hasSender
  rw [sinceCleared_append]
  cases x.clears with
  | true => rfl
  | false => simp

@[simp] theorem hasRecipient_append (xs : List Exchange) (x : Exchange) :
    hasRecipient (xs ++ [x]) = (!x.clears && (hasRecipient xs || x.isRecipient)) := by
  unfold hasRecipient
  rw [sinceCleared_append]
  cases x.clears with
  | true => rfl
  | false => simp

/-- What the server has agreed to, by the state of the session. -/
def Agrees (xs : List Exchange) : SessionState → Prop
  | .connected => loggedIn xs = false
  | .loginComplete => loggedIn xs = true ∧ hasSender xs = false ∧ hasRecipient xs = false
  | .mailFromDone => loggedIn xs = true ∧ hasSender xs = true ∧ hasRecipient xs = false
  | .rcptToDone => loggedIn xs = true ∧ hasSender xs = true ∧ hasRecipient xs = true
  | .fresh | .bad => True

/-- A login is accepted, or nothing has changed. -/
theorem agrees_hello (hhello : x.command.isHello = true) (h : loggedIn xs = false) :
    Agrees (xs ++ [x]) (if x.reply.code = Code.ok then .loginComplete else .connected) := by
  have hlogin : x.isLogin = (x.reply.code == Code.ok) := by
    rw [Exchange.isLogin, hhello, Bool.true_and]
  split
  · rename_i hcode
    have hclears : x.clears = true := by simp [Exchange.clears, hlogin, hcode]
    simp [Agrees, hclears, hlogin, hcode]
  · rename_i hcode
    simp [Agrees, hlogin, hcode, h]

/-- An exchange whose command fits keeps what the state says true. -/
theorem Agrees.step {state : SessionState} (h : Agrees xs state)
    (hfits : x.command.fits state = true) : Agrees (xs ++ [x]) (x.leads state) := by
  obtain ⟨command, lines⟩ := x
  cases command with
  | helo host =>
    obtain rfl : state = .connected := beq_iff_eq.mp hfits
    exact agrees_hello (x := ⟨.helo host, lines⟩) rfl h
  | ehlo host =>
    obtain rfl : state = .connected := beq_iff_eq.mp hfits
    exact agrees_hello (x := ⟨.ehlo host, lines⟩) rfl h
  | mailFrom sender params =>
    obtain rfl : state = .loginComplete := beq_iff_eq.mp hfits
    obtain ⟨hlogin, hsender, hrecipient⟩ := h
    cases haccepted : Exchange.isAccepted ⟨.mailFrom sender params, lines⟩ <;>
      simp [Exchange.leads, Agrees, Exchange.clears, Exchange.isLogin, Command.isHello,
        Exchange.isReset, Exchange.isSender, Exchange.isRecipient, haccepted, hlogin, hsender,
        hrecipient]
  | rcptTo recipient params =>
    obtain rfl : state = .mailFromDone := beq_iff_eq.mp hfits
    obtain ⟨hlogin, hsender, hrecipient⟩ := h
    cases haccepted : Exchange.isAccepted ⟨.rcptTo recipient params, lines⟩ <;>
      simp [Exchange.leads, Agrees, Exchange.clears, Exchange.isLogin, Command.isHello,
        Exchange.isReset, Exchange.isSender, Exchange.isRecipient, haccepted, hlogin, hsender,
        hrecipient]
  | data =>
    obtain rfl : state = .rcptToDone := beq_iff_eq.mp hfits
    obtain ⟨hlogin, hsender, hrecipient⟩ := h
    simp [Exchange.leads, Agrees, Exchange.clears, Exchange.isLogin, Command.isHello,
      Exchange.isReset, hlogin, hsender, hrecipient]
  | rset =>
    have hlogin : loggedIn xs = true := by
      cases state <;> first | exact h.1 | cases hfits
    cases haccepted : Exchange.isAccepted ⟨.rset, lines⟩ <;>
      simp [Exchange.leads, Agrees, Exchange.clears, Exchange.isLogin, Command.isHello,
        Exchange.isReset, haccepted, hlogin]
  | quit => exact trivial

/-- The state that a session has reached tells what the server has agreed to. -/
theorem agrees_reached (h : Permitted .connected xs) : Agrees xs (reached xs) := by
  induction xs using List.reverseRecOn with
  | nil => rfl
  | append_singleton xs x ih =>
    obtain ⟨hbefore, hfits, -⟩ := permitted_append.mp h
    rw [reached_append_singleton]
    exact (ih hbefore).step hfits

end

/-! ## The order of commands -/

/-- The command comes in its turn, after these exchanges: a login until one is accepted; then a
sender, if no envelope is open; a recipient for an envelope that has none; a message for an
envelope that is complete; and a reset at any time behind the login. -/
def Command.MayFollow (xs : List Exchange) : Command → Prop
  | .helo _ | .ehlo _ => loggedIn xs = false
  | .mailFrom .. => loggedIn xs = true ∧ hasSender xs = false
  | .rcptTo .. => loggedIn xs = true ∧ hasSender xs = true ∧ hasRecipient xs = false
  | .data => loggedIn xs = true ∧ hasSender xs = true ∧ hasRecipient xs = true
  | .rset => loggedIn xs = true
  | .quit => True

section

variable {xs ys zs : List Exchange} {x y : Exchange} {state : SessionState}

/-- A command that fits comes in its turn. -/
theorem Agrees.mayFollow {command : Command} (h : Agrees xs state) (hfits : command.fits state = true) :
    command.MayFollow xs := by
  cases command with
  | quit => exact trivial
  | rset => cases state <;> first | exact h.1 | cases hfits
  | mailFrom sender params =>
    obtain rfl : state = .loginComplete := beq_iff_eq.mp hfits
    exact ⟨h.1, h.2.1⟩
  | helo host =>
    obtain rfl : state = .connected := beq_iff_eq.mp hfits
    exact h
  | ehlo host =>
    obtain rfl : state = .connected := beq_iff_eq.mp hfits
    exact h
  | rcptTo recipient params =>
    obtain rfl : state = .mailFromDone := beq_iff_eq.mp hfits
    exact h
  | data =>
    obtain rfl : state = .rcptToDone := beq_iff_eq.mp hfits
    exact h

/-! ## Envelopes -/

/-- What must happen on the way to a recipient, by the state that it starts from. -/
def Renews (xs : List Exchange) : SessionState → Prop
  | .connected | .loginComplete => xs.any Exchange.isSender = true ∧ xs.any Exchange.isRecipient = true
  | .mailFromDone => xs.any Exchange.isRecipient = true
  | .rcptToDone => (xs.any Exchange.isSender = true ∧ xs.any Exchange.isRecipient = true) ∨
      ∀ x ∈ xs, x.command = .data
  | .fresh | .bad => False

/-- There is no way to a recipient but by a new envelope, or by staying with the one that there
is. -/
theorem Permitted.renews (h : Permitted state xs)
    (hdone : xs.foldl Exchange.leads state = .rcptToDone) : Renews xs state := by
  induction xs generalizing state with
  | nil =>
    obtain rfl : state = .rcptToDone := hdone
    exact .inr (by simp)
  | cons x xs ih =>
    obtain ⟨hfits, hrest⟩ := h
    have hrenews : Renews xs (x.leads state) := ih hrest hdone
    -- An envelope that is opened further on is opened on the whole way.
    have hopened : xs.any Exchange.isSender = true ∧ xs.any Exchange.isRecipient = true →
        (x :: xs).any Exchange.isSender = true ∧ (x :: xs).any Exchange.isRecipient = true := by
      intro hboth
      rw [List.any_cons, List.any_cons, hboth.1, hboth.2, Bool.or_true, Bool.or_true]
      exact ⟨rfl, rfl⟩
    obtain ⟨command, lines⟩ := x
    cases command with
    | helo host =>
      obtain rfl : state = .connected := beq_iff_eq.mp hfits
      dsimp only [Exchange.leads] at hrenews
      split at hrenews <;> exact hopened hrenews
    | ehlo host =>
      obtain rfl : state = .connected := beq_iff_eq.mp hfits
      dsimp only [Exchange.leads] at hrenews
      split at hrenews <;> exact hopened hrenews
    | mailFrom sender params =>
      obtain rfl : state = .loginComplete := beq_iff_eq.mp hfits
      dsimp only [Exchange.leads] at hrenews
      split at hrenews
      · rename_i haccepted
        have hrecipient : xs.any Exchange.isRecipient = true := hrenews
        exact ⟨by rw [List.any_cons, Exchange.isSender, haccepted, Bool.true_or],
          by rw [List.any_cons, hrecipient, Bool.or_true]⟩
      · exact hopened hrenews
    | rcptTo recipient params =>
      obtain rfl : state = .mailFromDone := beq_iff_eq.mp hfits
      dsimp only [Exchange.leads] at hrenews
      split at hrenews
      · rename_i haccepted
        exact by rw [Renews, List.any_cons, Exchange.isRecipient, haccepted, Bool.true_or]
      · have hrecipient : xs.any Exchange.isRecipient = true := hrenews
        exact by rw [Renews, List.any_cons, hrecipient, Bool.or_true]
    | data =>
      obtain rfl : state = .rcptToDone := beq_iff_eq.mp hfits
      exact hrenews.imp hopened fun hrow => List.forall_mem_cons.mpr ⟨rfl, hrow⟩
    | rset =>
      dsimp only [Exchange.leads] at hrenews
      split at hrenews
      · have hboth := hopened hrenews
        cases state with
        | loginComplete => exact hboth
        | mailFromDone => exact hboth.2
        | rcptToDone => exact .inl hboth
        | _ => cases hfits
      · exact hrenews.elim
    | quit => exact hrenews.elim

theorem Exchange.command_of_isBody (h : x.isBody = true) : x.command = .data := by
  unfold Exchange.isBody at h
  split at h
  · assumption
  · cases h

/-- Between two message bodies lies a new envelope, or nothing but announcements of others. -/
theorem Permitted.between_bodies (h : Permitted .connected (xs ++ x :: (ys ++ y :: zs)))
    (hx : x.isBody = true) (hy : y.isBody = true) : Renews ys .rcptToDone := by
  have hreached : ∀ {z : Exchange} {state : SessionState}, z.isBody = true →
      z.command.fits state = true → state = .rcptToDone := by
    intro z state hz hfits
    rw [Exchange.command_of_isBody hz] at hfits
    exact beq_iff_eq.mp hfits
  obtain ⟨-, hfits, hrest⟩ := permitted_append.mp h
  have hleads : x.leads (reached xs) = .rcptToDone := by
    rw [Exchange.leads, Exchange.command_of_isBody hx]
    exact hreached hx hfits
  obtain ⟨hys, hfits', -⟩ := permitted_append.mp (hleads ▸ hrest)
  exact hys.renews (hreached hy hfits')

end

end MailSubmission
