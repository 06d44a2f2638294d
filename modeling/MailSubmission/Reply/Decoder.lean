import MailSubmission.Reply.Line
import MailSubmission.Text.Utf8

set_option autoImplicit false

/-!
# Reply: the decoder

Replies are decoded octet by octet.  A line has a code in its first three columns
and a separator in the fourth: a dash if the reply goes on, a space if the line is
its last.  A line feed ends a line; one carriage return before it belongs to it.

Servers are allowed a few deviations from this in one reply: a stray carriage
return, a blank line, a line whose first four columns are malformed, and a last
line that is followed by more lines of the same code.  Each is charged once, and
the decoder gives up when a charge exceeds its tolerance.
-/

namespace MailSubmission

/-- Where in a line the next octet stands. -/
inductive Column where
  /-- first digit of the code -/
  | hundreds
  /-- second digit -/
  | tens
  /-- third digit -/
  | ones
  /-- between code and text -/
  | separator
  /-- in the text -/
  | text
  /-- behind a carriage return -/
  | afterReturn
  deriving DecidableEq, Repr, Inhabited

/-- A decoder between two octets. -/
structure Decoder where
  /-- Deviations allowed in one reply. -/
  tolerance : Nat := 5
  /-- Where the next octet stands. -/
  column : Column := .hundreds
  /-- The code so far. -/
  code : Nat := 0
  /-- The separator was a dash. -/
  continues : Bool := false
  /-- The line is malformed. -/
  broken : Bool := false
  /-- The text so far, last octet first. -/
  text : List UInt8 := []
  /-- Deviations charged to this reply. -/
  deviations : Nat := 0
  /-- The last line of a reply has just ended, so that the next octet begins a new reply. -/
  replyDone : Bool := false
  deriving DecidableEq, Repr, Inhabited

namespace Decoder

/-- The deviations allowed where nothing else is asked for. -/
def defaultTolerance : Nat := 5

/-- A decoder that has read nothing. -/
def ofTolerance (tolerance : Nat) : Decoder := { tolerance }

/-- The decoder with its line and its charges forgotten. -/
def reset (d : Decoder) : Decoder := ofTolerance d.tolerance

/-- What an octet leads to. -/
inductive Progress where
  /-- the line goes on -/
  | more (d : Decoder)
  /-- the octet ended a line -/
  | line (l : ReplyLine) (d : Decoder)
  /-- the tolerance was exceeded, with so many deviations -/
  | thrashing (seen : Nat) (d : Decoder)
  deriving DecidableEq, Repr, Inhabited

/-! ## Octets of the grammar -/

/-- The carriage return. -/
def cr : UInt8 := 13

/-- The line feed. -/
def lf : UInt8 := 10

/-- The value of a decimal digit. -/
def digit? (b : UInt8) : Option Nat :=
  if 48 ≤ b && b ≤ 57 then some (b.toNat - 48) else none

/-! ## Steps -/

/-- Charge a deviation.  Go on with `next` if the tolerance bears it; otherwise
forget the reply and give up. -/
def charge {α : Type} (d : Decoder) (giveUp : Nat → Decoder → α) (next : Decoder → α) : α :=
  if d.deviations + 1 > d.tolerance then giveUp (d.deviations + 1) d.reset
  else next { d with deviations := d.deviations + 1 }

/-- Mark the line as malformed; only the first mark of a line is charged. -/
def garble (d : Decoder) (next : Decoder → Progress) : Progress :=
  if d.broken then next d else charge { d with broken := true } .thrashing next

/-- The line read so far. -/
def currentLine (d : Decoder) : ReplyLine :=
  { code := d.code, text := Text.Utf8.decodeLossy d.text.reverse,
    broken := d.broken, last := !d.continues }

/-- End the line. -/
def finish (d : Decoder) : Progress :=
  .line d.currentLine
    { tolerance := d.tolerance, deviations := d.deviations, replyDone := !d.continues }

/-- One of the three columns of the code, worth `weight`, with `next` behind it.  A
line that ends here is malformed, and so is one with anything but a digit. -/
def readDigit (d : Decoder) (b : UInt8) (weight : Nat) (next : Column) : Progress :=
  match digit? b with
  | some n => .more { d with code := d.code + n * weight, column := next }
  | none =>
    if b = cr then d.garble fun d => .more { d with column := .afterReturn }
    else if b = lf then d.garble finish
    else d.garble fun d => .more { d with column := next }

/-- One octet, in the column it stands in. -/
def step (d : Decoder) (b : UInt8) : Progress :=
  match d.column with
  | .hundreds =>
    if b = cr || b = lf then d.charge .thrashing .more else d.readDigit b 100 .tens
  | .tens => d.readDigit b 10 .ones
  | .ones => d.readDigit b 1 .separator
  | .separator =>
    if b = 45 then .more { d with continues := true, column := .text }
    else if b = 32 then .more { d with column := .text }
    else if b = cr then .more { d with column := .afterReturn }
    else if b = lf then d.finish
    else d.garble fun d => .more { d with text := b :: d.text, column := .text }
  | .text =>
    if b = cr then .more { d with column := .afterReturn }
    else if b = lf then d.finish
    else .more { d with text := b :: d.text }
  | .afterReturn =>
    if b = lf then d.finish
    else if b = cr then d.charge .thrashing .more
    else d.charge .thrashing fun d => .more { d with text := b :: d.text, column := .text }

/-- Feed one octet.  The first octet after a finished reply begins a new account of
deviations. -/
def push (d : Decoder) (b : UInt8) : Progress :=
  if d.replyDone then step { d with replyDone := false, deviations := 0 } b else step d b

/-! ## Dropped dashes -/

/-- The octets of a code's three columns. -/
def columnOctets (code : Nat) : List UInt8 :=
  (Code.columns code).map fun n => UInt8.ofNat (n + 48)

/-- The octets `ahead` start another line of the same code, as far as they go. -/
def repeats (code : Nat) (ahead : List UInt8) : Bool :=
  let start := ahead.take 3
  !start.isEmpty && (columnOctets code).take start.length == start

/-- What looking ahead behind a line leads to. -/
inductive Lookahead where
  /-- the line stands as it is -/
  | stands
  /-- the line is not the last one after all -/
  | reopened (l : ReplyLine) (d : Decoder)
  /-- the tolerance was exceeded, with so many deviations -/
  | thrashing (seen : Nat) (d : Decoder)
  deriving DecidableEq, Repr, Inhabited

/-- Reopen a reply whose last line is followed by a line of the same code: its dash
was dropped. -/
def resume (d : Decoder) (l : ReplyLine) (ahead : List UInt8) : Lookahead :=
  if l.last && repeats l.code ahead then
    charge { d with replyDone := false } .thrashing
      (.reopened { l with last := false, broken := true })
  else .stands

/-! ## A whole reply -/

/-- What octets lead to that are all there is to look ahead at. -/
inductive Scan where
  /-- a reply is complete; the octets behind it are left -/
  | complete (lines : List ReplyLine) (d : Decoder) (rest : List UInt8)
  /-- the octets ended first; the lines so far, last one first -/
  | more (lines : List ReplyLine) (d : Decoder)
  /-- the tolerance was exceeded; the octets behind are left -/
  | thrashing (seen : Nat) (d : Decoder) (rest : List UInt8)
  deriving DecidableEq, Repr, Inhabited

/-- Feed octets until a reply is complete, where `lines` are its lines so far, last
one first. -/
def scan (d : Decoder) (lines : List ReplyLine) : List UInt8 → Scan
  | [] => .more lines d
  | b :: rest =>
    match d.push b with
    | .more d => scan d lines rest
    | .thrashing seen d => .thrashing seen d rest
    | .line l d =>
      match d.resume l rest with
      | .thrashing seen d => .thrashing seen d rest
      | .reopened l d => scan d (l :: lines) rest
      | .stands => if l.last then .complete (l :: lines).reverse d rest else scan d (l :: lines) rest

end Decoder

end MailSubmission
