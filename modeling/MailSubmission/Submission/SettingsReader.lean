import MailSubmission.Client.SettingsReader
import MailSubmission.Submission.Failure
import MailSubmission.Submission.Settings

set_option autoImplicit false

/-!
# Submission: settings from JSON

The settings of a submitter are one object, in which the members of the client's
settings stand beside the submitter's own.  The client's members are put aside while
the object is read, and looked at when it has ended.
-/

namespace MailSubmission

open Json

namespace Dsn

/-- A notification request in its persisted form. -/
def reader : Reader Dsn :=
  .require .text fun line =>
    match parse line with
    | .ok d => .ok d
    | .error fault => .error { problem := .mismatch, text := some fault.message }

/-- Read a notification request. -/
def ofJson (source : String) : Except Complaint Dsn :=
  Reader.whole (Reader.leaving reader) source

end Dsn

namespace RetryPolicy

/-- The name of a policy. -/
def nameReader : Reader RetryPolicy :=
  .require .text fun word =>
    match ofWord? word with
    | some policy => .ok policy
    | none => Reader.refuse .mismatch

/-- A policy as the key of an object, which must be a text, with no value. -/
def keyReader : Reader RetryPolicy := fun ls =>
  let behind := Reader.andThen (.mark ':') fun _ => .andThen .null fun _ => .mark '\x7d'
  match ls with
  | [] => Reader.refuse .truncated
  | .text _ :: _ => Reader.andThen nameReader (fun policy => .map (fun _ => policy) behind) ls
  | _ :: _ => Reader.refuse .malformed

/-- A policy by its name, or as an object with its name and no value. -/
def reader : Reader RetryPolicy := fun ls =>
  match ls with
  | [] => Reader.refuse .truncated
  | .text _ :: _ => nameReader ls
  | .mark '\x7b' :: _ => Reader.andThen (.mark '\x7b') (fun _ => keyReader) ls
  | _ :: _ => Reader.refuse .malformed

end RetryPolicy

namespace SubmitSettings

/-- Settings with the names of the members given so far, and the members put aside for
the client, last one first. -/
structure Partial where
  given : List String := []
  aside : List (String × Lexeme) := []
  settings : SubmitSettings := {}

/-- How the submitter's own member of a name is read. -/
def reader? (s : SubmitSettings) : String → Option (Reader SubmitSettings)
  | "host" => some (.map (fun v => { s with host := v }) .text)
  | "port" => some (.map (fun v => { s with port := v }) (.bits 16))
  | "streaming" => some (.map (fun v => { s with streaming := v }) .truth)
  | "stream_max" => some (.map (fun v => { s with streamMax := v }) (.bits 32))
  | "dsn" => some (.map (fun v => { s with dsn := v }) (.optional Dsn.reader))
  | "policy" => some (.map (fun v => { s with policy := v }) RetryPolicy.reader)
  | "connect_retries" => some (.map (fun v => { s with connectRetries := v }) (.bits 32))
  | "retry_delay_ms" => some (.map (fun v => { s with retryDelay := v }) (.bits 64))
  | _ => none

/-- The most brackets that may be open at once, the one around the settings not
counted. -/
def depth : Nat := 126

/-- A member of the settings. -/
def member : Reader.Members Partial := fun p key =>
  match reader? p.settings key with
  | none => .ok (.map (fun l => { p with aside := (key, l) :: p.aside }) (.beginning (.look depth)))
  | some reader =>
    if p.given.contains key then Reader.refuse .mismatch
    else .ok (.map (fun s => { p with given := key :: p.given, settings := s }) reader)

/-- The client's settings with one more of the members put aside. -/
def addAside (p : ClientSettings.Partial) (m : String × Lexeme) :
    Except Complaint ClientSettings.Partial :=
  match ClientSettings.reader? m.1 with
  | none => .ok p
  | some _ =>
    match ClientSettings.member p m.1 with
    | .error e => .error e
    | .ok reader => (reader [m.2]).map (·.1)

/-- The client's settings from the members put aside. -/
def clientFrom (aside : List (String × Lexeme)) : Except Complaint ClientSettings :=
  (aside.foldlM addAside ([], {})).map (·.2)

/-- Settings as an object, and what is behind. -/
def readFront : List Lexeme → Except Complaint (SubmitSettings × List Lexeme)
  | [] => Reader.refuse .truncated
  | .mark '\x7b' :: ls =>
    match Reader.membersFrom member true {} ls with
    | .error e => .error e
    | .ok (p, ls) => (clientFrom p.aside.reverse).map fun client => ({ p.settings with client }, ls)
  | l :: _ => Reader.refuse (Reader.unwanted l)

/-- Read settings, usable or not. -/
def ofJson (source : String) : Except Complaint SubmitSettings := Reader.whole readFront source

/-- Why settings cannot be had. -/
inductive Trouble where
  /-- they cannot be read -/
  | unreadable (complaint : Complaint)
  /-- they cannot be used -/
  | unusable (text : String)
  deriving DecidableEq, Repr, Inhabited

/-- Read settings that can be used. -/
def load (source : String) : Except Trouble SubmitSettings :=
  match ofJson source with
  | .error complaint => .error (.unreadable complaint)
  | .ok settings =>
    match settings.defect? with
    | some text => .error (.unusable text)
    | none => .ok settings

end SubmitSettings

end MailSubmission
