import MailSubmission.Client.Settings
import MailSubmission.Json.Reader

set_option autoImplicit false

/-!
# Client: settings from JSON

The settings are an object whose members may be missing, or an array of values in the
order of the members.  A member may be given once only; members of other names are
passed over.
-/

namespace MailSubmission.ClientSettings

open Json

/-- The members, and how each is read. -/
def readers : List (String × (ClientSettings → Reader ClientSettings)) :=
  [("timeout_ms", fun s => .map (fun v => { s with timeout := v }) (.bits 64)),
   ("read_retries", fun s => .map (fun v => { s with readRetries := v }) (.bits 32)),
   ("name", fun s => .map (fun v => { s with name := v }) .text),
   ("extensions", fun s => .map (fun v => { s with extensions := v }) .truth),
   ("helo_host", fun s => .map (fun v => { s with heloHost := v }) .text),
   ("tolerance", fun s => .map (fun v => { s with tolerance := v }) (.bits 32))]

/-- How the member of a name is read. -/
def reader? (key : String) : Option (ClientSettings → Reader ClientSettings) :=
  readers.lookup key

/-- Settings with the names of the members given so far. -/
abbrev Partial : Type := List String × ClientSettings

/-- A member of the settings. -/
def member : Reader.Members Partial := fun (given, s) key =>
  match reader? key with
  | none => .ok (.map (fun _ => (given, s)) (.pass .skip))
  | some reader =>
    if given.contains key then Reader.refuse .mismatch
    else .ok (.map (fun s => (key :: given, s)) (reader s))

/-- Settings as an object or an array, and what is behind. -/
def readFront : List Lexeme → Except Complaint (ClientSettings × List Lexeme)
  | [] => Reader.refuse .truncated
  | .mark '\x7b' :: ls =>
    (Reader.membersFrom member true ([], {}) ls).map fun ((_, s), ls) => (s, ls)
  | .mark '[' :: ls => Reader.itemsFrom true {} (readers.map (·.2)) ls
  | l :: _ => Reader.refuse (Reader.unwanted l)

/-- Read settings. -/
def ofJson (source : String) : Except Complaint ClientSettings := Reader.whole readFront source

end MailSubmission.ClientSettings
