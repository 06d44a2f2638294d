import MailSubmission.Json.Lexeme

set_option autoImplicit false

/-!
# Json: readers

A reader takes lexemes from the front of a text and makes a value of them.  The first
thing that is wrong decides, from left to right: with the text, or with it as a value
of the type that is wanted.
-/

namespace MailSubmission.Json

/-- Why a reader gave up. -/
structure Complaint where
  problem : Problem
  /-- The reason in words, if the value itself gave one. -/
  text : Option String := none
  deriving DecidableEq, Repr, Inhabited

/-- Makes a value of the lexemes in front; also how many that took. -/
abbrev Reader (α : Type) : Type := List Lexeme → Except Complaint (α × Nat)

namespace Reader

variable {α β σ : Type}

/-- Give up. -/
def refuse (p : Problem) : Except Complaint α := .error { problem := p }

/-- What is wrong with a lexeme that begins a value of an unwanted type, or none. -/
def unwanted (l : Lexeme) : Problem :=
  match l.flaw?, l with
  | some f, _ => f.read
  | none, .mark c => if c = '[' ∨ c = '\x7b' then .mismatch else .malformed
  | none, .stray _ => .malformed
  | none, _ => .mismatch

/-- One lexeme that `value?` makes something of. -/
def one (value? : Lexeme → Option α) : Reader α
  | [] => refuse .truncated
  | l :: _ =>
    match value? l with
    | some a => .ok (a, 1)
    | none => refuse (unwanted l)

/-- A value made of another. -/
def map (f : α → β) (r : Reader α) : Reader β := fun ls =>
  (r ls).map fun (a, n) => (f a, n)

/-! ## Simple values -/

/-- A natural number below a bound. -/
def natural (bound : Nat) : Reader Nat :=
  one fun
    | .number (.ok (some n)) => if n < bound then some n else none
    | _ => none

/-- A natural number of so many bits. -/
def bits (width : Nat) : Reader Nat := natural (Nat.pow 2 width)

/-- A truth value. -/
def truth : Reader Bool :=
  one fun
    | .word (.ok .true) => some Bool.true
    | .word (.ok .false) => some Bool.false
    | _ => none

/-- A text. -/
def text : Reader String :=
  one fun
    | .text (.ok s) => some s
    | _ => none

/-- The word for no value. -/
def null : Reader Unit :=
  one fun
    | .word (.ok .null) => some ()
    | _ => none

/-- A value, or the word for none. -/
def optional (r : Reader α) : Reader (Option α)
  | .word (.ok .null) :: _ => .ok (none, 1)
  | ls => map some r ls

/-- A punctuation mark. -/
def mark (c : Char) : Reader Unit
  | [] => refuse .truncated
  | .mark d :: _ => if d = c then .ok ((), 1) else refuse .malformed
  | _ :: _ => refuse .malformed

/-- Two values, one behind the other. -/
def andThen (r : Reader α) (next : α → Reader β) : Reader β := fun ls =>
  match r ls with
  | .error e => .error e
  | .ok (a, n) => (next a (ls.drop n)).map fun (b, m) => (b, n + m)

/-- A value that must satisfy a test. -/
def require (r : Reader α) (test : α → Except Complaint β) : Reader β := fun ls =>
  match r ls with
  | .error e => .error e
  | .ok (a, n) => (test a).map fun b => (b, n)

/-! ## Passing over values -/

/-- An open bracket. -/
inductive Bracket where
  | square
  | curly
  deriving DecidableEq, Repr, Inhabited

/-- What a text must go on with. -/
inductive Expected where
  | value
  /-- a value, or the end of the array just begun -/
  | firstItem
  | key
  /-- a key, or the end of the object just begun -/
  | firstKey
  | colon
  /-- a comma or the end of the innermost bracket -/
  | comma
  deriving DecidableEq, Repr, Inhabited

/-- How a value is passed over. -/
inductive Care where
  /-- only its form matters -/
  | skip
  /-- its parts are looked at, and at most so many brackets may be open at once -/
  | look (depth : Nat)
  deriving DecidableEq, Repr, Inhabited

/-- A lexeme with a value, as it is passed over. -/
def Care.check (care : Care) (l : Lexeme) : Except Problem Unit :=
  match care, l.flaw? with
  | _, none => .ok ()
  | .look _, some f => .error f.read
  | .skip, some f =>
    match f.skipped with
    | some p => .error p
    | none => .ok ()

/-- One more bracket may be opened inside those that are open. -/
def Care.allows (care : Care) (stack : List Bracket) : Bool :=
  match care with
  | .skip => Bool.true
  | .look depth => stack.length < depth

/-- What is expected behind a value; nothing if it was the whole one. -/
def behindValue : List Bracket → Option (List Bracket × Expected)
  | [] => none
  | stack => some (stack, .comma)

/-- One lexeme of a value that is passed over, where `stack` holds the brackets that are
open. -/
def passStep (care : Care) (stack : List Bracket) (expected : Expected) (l : Lexeme) :
    Except Problem (Option (List Bracket × Expected)) :=
  match expected, l, stack with
  | .firstItem, .mark ']', _ :: outer => .ok (behindValue outer)
  | .comma, .mark ']', .square :: outer => .ok (behindValue outer)
  | .comma, .mark ',', .square :: _ => .ok (some (stack, .value))
  | .firstKey, .mark '\x7d', _ :: outer => .ok (behindValue outer)
  | .comma, .mark '\x7d', .curly :: outer => .ok (behindValue outer)
  | .comma, .mark ',', .curly :: _ => .ok (some (stack, .key))
  | .colon, .mark ':', _ => .ok (some (stack, .value))
  | .key, .text _, _ | .firstKey, .text _, _ => (care.check l).map fun _ => some (stack, .colon)
  | .value, .mark '[', _ | .firstItem, .mark '[', _ =>
    if care.allows stack then .ok (some (.square :: stack, .firstItem)) else .error .malformed
  | .value, .mark '\x7b', _ | .firstItem, .mark '\x7b', _ =>
    if care.allows stack then .ok (some (.curly :: stack, .firstKey)) else .error .malformed
  | .value, .text _, _ | .value, .number _, _ | .value, .word _, _
  | .firstItem, .text _, _ | .firstItem, .number _, _ | .firstItem, .word _, _ =>
    (care.check l).map fun _ => behindValue stack
  | _, _, _ => .error .malformed

/-- Pass over what is left of a value. -/
def passFrom (care : Care) (stack : List Bracket) (expected : Expected) (taken : Nat) : Reader Unit
  | [] => refuse .truncated
  | l :: rest =>
    match passStep care stack expected l with
    | .error p => refuse p
    | .ok none => .ok ((), taken + 1)
    | .ok (some (stack, expected)) => passFrom care stack expected (taken + 1) rest

/-- Pass over a value. -/
def pass (care : Care) : Reader Unit := passFrom care [] .value 0

/-- A value that is passed over, as the lexeme it begins with. -/
def beginning (care : Care) : Reader Lexeme := fun ls =>
  (pass care ls).map fun (_, n) => (ls.headD (.stray ' '), n)

/-! ## Objects and arrays -/

/-- What is to be done about a member of an object, as soon as its key is known: give up,
or read the value. -/
abbrev Members (σ : Type) : Type := σ → String → Except Complaint (Reader σ)

/-- The member whose key is `key`, from its colon on, and what is behind it. -/
def member (members : Members σ) (s : σ) (key : Except Flaw String) (ls : List Lexeme) :
    Except Complaint (σ × Nat) :=
  match key with
  | .error f => refuse f.read
  | .ok key =>
    match members s key with
    | .error e => .error e
    | .ok reader =>
      match ls with
      | [] => refuse .truncated
      | .mark ':' :: ls => (reader ls).map fun (s, n) => (s, n + 1)
      | _ :: _ => refuse .malformed

/-- The members of an object behind its opening bracket or, if not `first`, behind a
member; also the lexemes behind the object. -/
def membersFrom (members : Members σ) (first : Bool) (s : σ) (ls : List Lexeme) :
    Except Complaint (σ × List Lexeme) :=
  match ls with
  | [] => refuse .truncated
  | .mark '\x7d' :: ls => .ok (s, ls)
  | .text key :: ls =>
    if first then
      match member members s key ls with
      | .error e => .error e
      | .ok (s, n) => membersFrom members Bool.false s (ls.drop n)
    else refuse .malformed
  | .mark ',' :: ls =>
    if first then refuse .malformed
    else
      match ls with
      | [] => refuse .truncated
      | .text key :: ls =>
        match member members s key ls with
        | .error e => .error e
        | .ok (s, n) => membersFrom members Bool.false s (ls.drop n)
      | _ :: _ => refuse .malformed
  | _ :: _ => refuse .malformed
  termination_by ls.length
  decreasing_by all_goals (simp only [List.length_drop, List.length_cons]; omega)

/-- The items of an array behind its opening bracket or, if not `first`, behind an item,
by a reader each; items may be missing at the end.  Also the lexemes behind the
array. -/
def itemsFrom (first : Bool) (s : σ) : List (σ → Reader σ) → List Lexeme →
    Except Complaint (σ × List Lexeme)
  | _, [] => refuse .truncated
  | _, .mark ']' :: ls => .ok (s, ls)
  | [], _ :: _ => refuse .malformed
  | reader :: readers, l :: ls =>
    if first then
      match reader s (l :: ls) with
      | .error e => .error e
      | .ok (s, n) => itemsFrom Bool.false s readers ((l :: ls).drop n)
    else
      match l, ls with
      | .mark ',', [] => refuse .truncated
      | .mark ',', .mark ']' :: _ => refuse .malformed
      | .mark ',', ls =>
        match reader s ls with
        | .error e => .error e
        | .ok (s, n) => itemsFrom Bool.false s readers (ls.drop n)
      | _, _ => refuse .malformed

/-! ## Whole texts -/

/-- A text that is one value, of which `behind` gives what is left. -/
def whole (read : List Lexeme → Except Complaint (α × List Lexeme)) (source : String) :
    Except Complaint α :=
  match read (Lexeme.all source.toList) with
  | .error e => .error e
  | .ok (a, []) => .ok a
  | .ok (_, _ :: _) => refuse .malformed

/-- A reader, with what is left behind the value. -/
def leaving (r : Reader α) (ls : List Lexeme) : Except Complaint (α × List Lexeme) :=
  (r ls).map fun (a, n) => (a, ls.drop n)

end Reader

end MailSubmission.Json
