import MailSubmission.Fault
import MailSubmission.Text.Blank
import MailSubmission.Text.Utf8

set_option autoImplicit false

/-!
# Dsn: requests for delivery status notifications

A request says what a notification should return, under which identifier, for whom the
message was first meant, and on which occasions.  It has two written forms: a persisted
line of seven fields separated by back-ticks, and the parameters of the commands
that name sender and recipient, whose values are written as xtext so that no space,
plus sign, equals sign or control character reaches the command line.
-/

namespace MailSubmission

/-- A request for delivery status notifications. -/
structure Dsn where
  /-- What is returned: the full message or its headers. -/
  ret : Option String := none
  /-- The identifier of the envelope. -/
  envid : Option String := none
  /-- The recipient that the message was first meant for. -/
  orcpt : Option String := none
  /-- Notify of success. -/
  success : Bool := false
  /-- Notify of failure. -/
  failure : Bool := false
  /-- Notify of delay. -/
  delay : Bool := false
  /-- Never notify. -/
  never : Bool := false
  deriving DecidableEq, Repr, Inhabited

namespace Dsn

/-! ## Command parameters -/

/-- An octet that xtext writes as itself: visible ASCII other than `+` and `=`. -/
def isPlain (b : UInt8) : Bool := 33 ≤ b && b ≤ 126 && b != 43 && b != 61

/-- A digit of base sixteen, in capitals. -/
def hexDigit (n : Nat) : Char :=
  if n < 10 then Char.ofNat (48 + n) else Char.ofNat (55 + n)

/-- One octet as xtext. -/
def xtextOctet (b : UInt8) : List Char :=
  if isPlain b then [Char.ofNat b.toNat]
  else ['+', hexDigit (b.toNat / 16), hexDigit (b.toNat % 16)]

/-- A value as xtext. -/
def xtext (value : String) : String :=
  String.ofList ((Text.Utf8.encode value).flatMap xtextOctet)

/-- The parameters of the sender's command; empty if there are none. -/
def senderParams (d : Dsn) : String :=
  " ".intercalate
    ((d.ret.map fun v => "RET=" ++ xtext v).toList ++
      (d.envid.map fun v => "ENVID=" ++ xtext v).toList)

/-- The occasions asked for. -/
def occasions (d : Dsn) : List String :=
  [(d.success, "SUCCESS"), (d.failure, "FAILURE"), (d.delay, "DELAY"), (d.never, "NEVER")].filterMap
    fun (wanted, word) => if wanted then some word else none

/-- The parameters of the recipient's command; empty if there are none. -/
def recipientParams (d : Dsn) : String :=
  let notify := if d.occasions.isEmpty then [] else ["NOTIFY=" ++ ",".intercalate d.occasions]
  " ".intercalate (notify ++ (d.orcpt.map fun v => "ORCPT=rfc822;" ++ xtext v).toList)

/-! ## The persisted form -/

/-- The character between two fields. -/
def separator : Char := '\x60'

/-- The number of fields. -/
def fieldCount : Nat := 7

/-- The word for a flag that is set. -/
def flagWord : String := "TRUE"

/-- The fields in their order. -/
def fields (d : Dsn) : List String :=
  let text (v : Option String) := v.getD ""
  let flag (b : Bool) := if b then flagWord else ""
  [text d.ret, text d.envid, text d.orcpt,
    flag d.success, flag d.failure, flag d.delay, flag d.never]

/-- The persisted line. -/
def render (d : Dsn) : String := (String.singleton separator).intercalate d.fields

/-- The pieces of a text between the separators; one more than there are separators. -/
def splitFields : List Char → List (List Char)
  | [] => [[]]
  | c :: cs =>
    if c = separator then [] :: splitFields cs
    else
      match splitFields cs with
      | [] => [[c]]
      | piece :: rest => (c :: piece) :: rest

/-- Read a persisted line.  An empty text field is one that is not set; a flag is set
by its word in letters of any case. -/
def parse (line : String) : Except Fault Dsn :=
  let text (f : List Char) := if f.isEmpty then none else some (String.ofList f)
  let flag (f : List Char) := Text.upper (String.ofList f) == flagWord
  match splitFields line.toList with
  | [ret, envid, orcpt, success, failure, delay, never] =>
    .ok { ret := text ret, envid := text envid, orcpt := text orcpt,
          success := flag success, failure := flag failure,
          delay := flag delay, never := flag never }
  | other =>
    .error (.invalidDsn
      ("expected " ++ toString fieldCount ++ " fields, found " ++ toString other.length))

end Dsn

end MailSubmission
