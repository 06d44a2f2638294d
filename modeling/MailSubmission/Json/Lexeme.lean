import MailSubmission.Json.Magnitude

set_option autoImplicit false

/-!
# Json: lexemes

A JSON text is cut into lexemes from left to right.  A lexeme that is not well formed
says what is found wrong when its value is read, and what when it is skipped: a
number too large for a floating point number and an unpaired surrogate matter only to
a reader.  Behind a lexeme that cannot even be skipped there is nothing more.
-/

namespace MailSubmission.Json

/-- What can be wrong with a JSON text, or with it as a value of a certain type. -/
inductive Problem where
  /-- it is no JSON text -/
  | malformed
  /-- it is of the wrong type, or out of range -/
  | mismatch
  /-- it ends too early -/
  | truncated
  deriving DecidableEq, Repr, Inhabited

/-- What is wrong with a lexeme. -/
structure Flaw where
  /-- when its value is read -/
  read : Problem
  /-- when it is skipped, if it cannot be -/
  skipped : Option Problem
  deriving DecidableEq, Repr, Inhabited

/-- A flaw that a reader finds and that a skipper finds too. -/
def Flaw.both (p : Problem) : Flaw := ⟨p, some p⟩

/-- The words of the language. -/
inductive Word where
  | null
  | true
  | false
  deriving DecidableEq, Repr, Inhabited

/-- A lexeme. -/
inductive Lexeme where
  /-- one of the six punctuation marks -/
  | mark (c : Char)
  /-- a text in quotes -/
  | text (value : Except Flaw String)
  /-- a number: its value if it is written as a natural number of 64 bits -/
  | number (value : Except Flaw (Option Nat))
  /-- a word -/
  | word (value : Except Flaw Word)
  /-- a character that begins no lexeme -/
  | stray (c : Char)
  deriving Repr, Inhabited

namespace Lexeme

/-- The lexeme's flaw. -/
def flaw? : Lexeme → Option Flaw
  | .text (.error f) | .number (.error f) | .word (.error f) => some f
  | _ => none

/-- Nothing can be made out behind the lexeme. -/
def isFinal (l : Lexeme) : Bool := l.flaw?.any (·.skipped.isSome)

/-! ## Texts -/

/-- The number that a hexadecimal digit stands for. -/
def hexValue? (c : Char) : Option Nat :=
  if '0' ≤ c ∧ c ≤ '9' then some (c.toNat - 48)
  else if 'a' ≤ c ∧ c ≤ 'f' then some (c.toNat - 87)
  else if 'A' ≤ c ∧ c ≤ 'F' then some (c.toNat - 55)
  else none

/-- The number in four hexadecimal digits, which must all be there: fewer than four
octets before the end of the text make it end too early. -/
def hexQuad : List Char → Except Problem Nat
  | a :: b :: c :: d :: _ =>
    match hexValue? a, hexValue? b, hexValue? c, hexValue? d with
    | some a, some b, some c, some d => .ok (((a * 16 + b) * 16 + c) * 16 + d)
    | _, _, _, _ => .error .malformed
  | cs => .error (if (String.ofList cs).utf8ByteSize < 4 then .truncated else .malformed)

/-- The character of a simple escape. -/
def simpleEscape? : Char → Option Char
  | '"' => some '"'
  | '\\' => some '\\'
  | '/' => some '/'
  | 'b' => some '\x08'
  | 'f' => some '\x0c'
  | 'n' => some '\n'
  | 'r' => some '\r'
  | 't' => some '\t'
  | _ => none

/-- The character of two surrogates. -/
def joinSurrogates (high low : Nat) : Char :=
  Char.ofNat ((high - 0xD800) * 0x400 + (low - 0xDC00) + 0x10000)

/-- What follows a first surrogate: its partner, and how many characters that took. -/
def secondSurrogate (high : Nat) : List Char → Except Problem Char
  | [] => .error .truncated
  | ['\\'] => .error .truncated
  | '\\' :: 'u' :: rest =>
    match hexQuad rest with
    | .error p => .error p
    | .ok low =>
      if 0xDC00 ≤ low ∧ low ≤ 0xDFFF then .ok (joinSurrogates high low) else .error .malformed
  | _ => .error .malformed

/-- The character of a text that begins with `c`, and how many characters of what
follows it takes; or what is wrong with it. -/
def textChar (c : Char) (cs : List Char) : Except Flaw Char × Nat :=
  if c = '\\' then
    match cs with
    | [] => (.error (.both .truncated), 0)
    | 'u' :: rest =>
      match hexQuad rest with
      | .error p => (.error (.both p), 0)
      | .ok n =>
        if 0xD800 ≤ n ∧ n ≤ 0xDBFF then
          match secondSurrogate n (rest.drop 4) with
          | .ok c => (.ok c, 11)
          | .error p => (.error ⟨p, none⟩, 5)
        else if 0xDC00 ≤ n ∧ n ≤ 0xDFFF then (.error ⟨.malformed, none⟩, 5)
        else (.ok (Char.ofNat n), 5)
    | e :: _ =>
      match simpleEscape? e with
      | some c => (.ok c, 1)
      | none => (.error (.both .malformed), 0)
  else if c.toNat < 0x20 then (.error (.both .malformed), 0)
  else (.ok c, 0)

/-- What a reader finds wrong first, where `p` comes next. -/
def firstProblem (before : Except Problem (List Char)) (p : Problem) : Problem :=
  match before with
  | .ok _ => p
  | .error first => first

/-- The rest of a text behind its opening quote, and how many characters it takes, of
which `taken` are before.  `before` holds the characters so far, last one first, or
what a reader found wrong. -/
def textFrom (before : Except Problem (List Char)) (taken : Nat) (cs : List Char) :
    Except Flaw String × Nat :=
  match cs with
  | [] => (.error ⟨firstProblem before .truncated, some .truncated⟩, taken)
  | '"' :: _ =>
    match before with
    | .ok before => (.ok (String.ofList before.reverse), taken + 1)
    | .error p => (.error ⟨p, none⟩, taken + 1)
  | c :: cs =>
    match textChar c cs with
    | (.ok c, n) => textFrom (before.map (c :: ·)) (taken + 1 + n) (cs.drop n)
    | (.error ⟨p, none⟩, n) =>
      textFrom (.error (firstProblem before p)) (taken + 1 + n) (cs.drop n)
    | (.error ⟨p, some q⟩, _) => (.error ⟨firstProblem before p, some q⟩, taken)
  termination_by cs.length
  decreasing_by all_goals (simp only [List.length_drop, List.length_cons]; omega)

/-! ## Numbers -/

/-- The leading decimal digits. -/
def leadingDigits (cs : List Char) : List Char := cs.takeWhile Char.isDigit

/-- What is wrong where a digit is missing: a reader sees that the text may have ended
too early. -/
def missingDigit (rest : List Char) : Flaw :=
  ⟨if rest.isEmpty then .truncated else .malformed, some .malformed⟩

/-- An exponent: its value, and how many characters it is written with. -/
def exponentPart (cs : List Char) : Except Flaw Int × Nat :=
  match cs with
  | c :: rest =>
    if c = 'e' ∨ c = 'E' then
      let (negative, signed, digits) :=
        match rest with
        | '+' :: digits => (false, 1, digits)
        | '-' :: digits => (true, 1, digits)
        | digits => (false, 0, digits)
      let ds := leadingDigits digits
      if ds.isEmpty then (.error (missingDigit digits), 0)
      else
        let n : Int := Magnitude.exponent ds
        (.ok (if negative then -n else n), 1 + signed + ds.length)
    else (.ok 0, 0)
  | [] => (.ok 0, 0)

/-- A number without its sign, and how many characters it is written with.  Only plain
digits are the written form of a natural number, and only of one of 64 bits. -/
def unsigned (cs : List Char) : Except Flaw (Option Nat) × Nat :=
  let whole := leadingDigits cs
  let rest := cs.drop whole.length
  match whole with
  | [] => (.error (missingDigit cs), 0)
  | '0' :: _ :: _ => (.error (.both .malformed), 0)
  | _ =>
    let (places, behind, flaw) :=
      match rest with
      | '.' :: rest =>
        let places := leadingDigits rest
        if places.isEmpty then ([], rest, some (missingDigit rest))
        else (places, rest.drop places.length, none)
      | _ => ([], rest, none)
    match flaw with
    | some f => (.error f, 0)
    | none =>
      let dotted := if places.isEmpty then 0 else places.length + 1
      match exponentPart behind with
      | (.error f, _) => (.error f, 0)
      | (.ok e, n) =>
        let width := whole.length + dotted + n
        let (significand, left) := Magnitude.significand (whole ++ places)
        if Magnitude.overflows significand (e - places.length + left.length) then
          (.error ⟨.malformed, none⟩, width)
        else if dotted = 0 ∧ n = 0 ∧ left.isEmpty then (.ok (some significand), width)
        else (.ok none, width)

/-! ## Words -/

/-- A word whose first letter has been seen, and how many letters follow. -/
def wordOf (value : Word) (letters : List Char) (cs : List Char) : Except Flaw Word × Nat :=
  if letters.isPrefixOf cs then (.ok value, letters.length)
  else if cs.isPrefixOf letters then (.error (.both .truncated), 0)
  else (.error (.both .malformed), 0)

/-! ## All lexemes -/

/-- White space between lexemes. -/
def isSpace (c : Char) : Bool := c == ' ' || c == '\n' || c == '\t' || c == '\r'

/-- The lexeme that begins with `c`, and how many characters of what follows it takes. -/
def first (c : Char) (cs : List Char) : Lexeme × Nat :=
  match c with
  | '\x7b' | '\x7d' | '[' | ']' | ':' | ',' => (.mark c, 0)
  | '"' =>
    let (value, n) := textFrom (.ok []) 0 cs
    (.text value, n)
  | '-' =>
    match unsigned cs with
    | (.error f, n) => (.number (.error f), n)
    | (.ok _, n) => (.number (.ok none), n)
  | 'n' =>
    let (value, n) := wordOf .null ['u', 'l', 'l'] cs
    (.word value, n)
  | 't' =>
    let (value, n) := wordOf .true ['r', 'u', 'e'] cs
    (.word value, n)
  | 'f' =>
    let (value, n) := wordOf .false ['a', 'l', 's', 'e'] cs
    (.word value, n)
  | _ =>
    if c.isDigit then
      let (value, n) := unsigned (c :: cs)
      (.number value, n - 1)
    else (.stray c, 0)

/-- The lexemes of a text. -/
def all (cs : List Char) : List Lexeme :=
  match cs with
  | [] => []
  | c :: cs =>
    if isSpace c then all cs
    else
      let (lexeme, n) := first c cs
      if lexeme.isFinal then [lexeme] else lexeme :: all (cs.drop n)
  termination_by cs.length
  decreasing_by all_goals (simp only [List.length_drop, List.length_cons]; omega)

end Lexeme

end MailSubmission.Json
