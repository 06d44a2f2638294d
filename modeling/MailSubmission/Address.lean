import MailSubmission.Fault
import MailSubmission.Text.Blank
import MailSubmission.Text.Quoted

set_option autoImplicit false

/-!
# Address: envelope paths

An address is the null path, which is empty, or a local part and a domain around an
at sign, without control characters and angle brackets.  Every value of `Address`
keeps to this, so an address can neither end a command line nor close its brackets.
-/

namespace MailSubmission

/-- Split at the last `sep`: what is before it and what is behind. -/
def splitLast? (sep : Char) : List Char → Option (List Char × List Char)
  | [] => none
  | c :: cs =>
    match splitLast? sep cs with
    | some (before, after) => some (c :: before, after)
    | none => if c = sep then some ([], cs) else none

namespace Address

/-- A character no address may hold: an ASCII control character or an angle bracket. -/
def isForbidden (c : Char) : Bool :=
  c.toNat < 0x20 || c.toNat == 0x7F || c == '<' || c == '>'

/-- Why a text is no address other than the null path. -/
inductive Defect where
  /-- there is nothing -/
  | empty
  /-- there is a forbidden character -/
  | forbidden
  /-- there is no at sign -/
  | noAt
  /-- there is nothing on one side of the last at sign -/
  | emptyPart
  deriving DecidableEq, Repr, Inhabited

/-- What is wrong with a text as an address. -/
def defect? (text : String) : Option Defect :=
  if text.isEmpty then some .empty
  else if text.toList.any isForbidden then some .forbidden
  else
    match splitLast? '@' text.toList with
    | none => some .noAt
    | some (localPart, domain) =>
      if localPart.isEmpty || domain.isEmpty then some .emptyPart else none

/-- What is wrong, in words. -/
def Defect.message (text : String) : Defect → String
  | .empty => "Address cannot be empty"
  | .forbidden => "Address contains forbidden characters: " ++ Text.Quoted.encode text
  | .noAt => "Address must contain @"
  | .emptyPart => "Local and domain parts cannot be empty"

end Address

/-- An envelope path. -/
structure Address where
  /-- The path without its brackets; empty for the null path. -/
  text : String := ""
  /-- Nothing is wrong with it. -/
  sound : text = "" ∨ Address.defect? text = none := by exact Or.inl rfl
  deriving DecidableEq, Repr

namespace Address

/-- The null path, which bounces are sent from. -/
def null : Address := {}

instance : Inhabited Address := ⟨null⟩

/-- This is the null path. -/
def isNull (a : Address) : Bool := a.text.isEmpty

/-- The address of a text other than the null path. -/
def ofText (text : String) : Except Fault Address :=
  match h : defect? text with
  | none => .ok { text, sound := Or.inr h }
  | some d => .error (.invalidAddress (d.message text))

/-- The address in angle brackets. -/
def render (a : Address) : String := "<" ++ a.text ++ ">"

/-- The text between one pair of angle brackets, if it stands in one. -/
def unbracket (cs : List Char) : List Char :=
  match cs with
  | '<' :: rest => if rest.getLast? = some '>' then rest.dropLast else cs
  | _ => cs

/-- Read an address, with white space or one pair of brackets around it or without;
nothing inside is the null path. -/
def parse (text : String) : Except Fault Address :=
  let inner := String.ofList (unbracket (Text.trim text).toList)
  if inner.isEmpty then .ok null else ofText inner

end Address

end MailSubmission
