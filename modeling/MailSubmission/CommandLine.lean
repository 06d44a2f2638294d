import MailSubmission.Json.Writer
import MailSubmission.Submission.SettingsReader
import MailSubmission.Submission.Submitter

set_option autoImplicit false

/-!
# CommandLine: one message from the shell

The arguments name a file with settings, a sender, a recipient, and the files that
make up the message.  The outcome is printed as a record; the exit code says whether
the message was taken.
-/

namespace MailSubmission.CommandLine

/-- How the program is called. -/
def usage : String := "usage: mailpost <config.json> <sender> <recipient> <body-file>..."

/-- What the arguments name. -/
structure Arguments where
  settings : String
  sender : String
  recipient : String
  /-- The files of the message; there is at least one. -/
  bodies : List String
  deriving DecidableEq, Repr, Inhabited

/-- Make something of the arguments. -/
def Arguments.ofList? : List String → Option Arguments
  | settings :: sender :: recipient :: body :: bodies =>
    some { settings, sender, recipient, bodies := body :: bodies }
  | _ => none

/-- Why the program stops before anything is submitted: what it was doing, if that
matters, and what went wrong. -/
structure Mishap where
  doing : Option String := none
  causes : List String
  deriving DecidableEq, Repr, Inhabited

/-- Causes, one below the other, numbered if there are several. -/
def listCauses : List String → String
  | [cause] => "    " ++ cause ++ "\n"
  | causes =>
    String.join (causes.zipIdx.map fun (cause, n) => "    " ++ toString n ++ ": " ++ cause ++ "\n")

/-- The mishap as it is printed. -/
def Mishap.render (m : Mishap) : String :=
  match m.doing, m.causes with
  | some doing, [] => "Error: " ++ doing ++ "\n"
  | some doing, causes => "Error: " ++ doing ++ "\n\nCaused by:\n" ++ listCauses causes
  | none, [] => "Error: \n"
  | none, cause :: [] => "Error: " ++ cause ++ "\n"
  | none, cause :: causes => "Error: " ++ cause ++ "\n\nCaused by:\n" ++ listCauses causes

/-- A problem with a JSON text in words. -/
def describeProblem : Json.Problem → String
  | .malformed => "malformed JSON"
  | .mismatch => "unexpected value"
  | .truncated => "unexpected end of JSON"

/-- Why settings cannot be had, from the outermost cause inwards. -/
def settingsCauses : SubmitSettings.Trouble → List String
  | .unusable text => [(SubmitFailure.settings text).message]
  | .unreadable complaint =>
    let text := complaint.text.getD (describeProblem complaint.problem)
    ["Serialization error: " ++ text, text]

/-- A file that can be opened. -/
inductive Content where
  /-- its octets -/
  | octets (bytes : List UInt8)
  /-- it cannot be read, as a directory cannot -/
  | unreadable (text : String)
  deriving DecidableEq, Repr, Inhabited

/-- A file as a source of a message. -/
def Content.source : Content → Script
  | .octets bytes => [.data bytes]
  | .unreadable text => [.error text]

/-- The files there are, by name: what they hold, or why they cannot be opened. -/
abbrev Files : Type := String → Except String Content

/-- Open a file. -/
def openFile (files : Files) (doing path : String) : Except Mishap Content :=
  match files path with
  | .ok content => .ok content
  | .error text => .error { doing := some (doing ++ " " ++ path), causes := [text] }

/-- An address among the arguments. -/
def readAddress (doing text : String) : Except Mishap Address :=
  match Address.ofText text with
  | .ok a => .ok a
  | .error fault => .error { doing := some doing, causes := [fault.message] }

/-- What is to be submitted, and how. -/
structure Job where
  settings : SubmitSettings
  message : Message

/-- The text of a file. -/
def readText (files : Files) (path : String) : Except Mishap String :=
  let mishap (text : String) : Mishap := { doing := some ("reading " ++ path), causes := [text] }
  match openFile files "reading" path with
  | .error m => .error m
  | .ok (.unreadable text) => .error (mishap text)
  | .ok (.octets bytes) =>
    match Text.Utf8.decode? bytes with
    | some source => .ok source
    | none => .error (mishap "stream did not contain valid UTF-8")

/-- The settings in a file. -/
def readSettings (files : Files) (path : String) : Except Mishap SubmitSettings :=
  match readText files path with
  | .error m => .error m
  | .ok source =>
    match SubmitSettings.load source with
    | .ok settings => .ok settings
    | .error trouble =>
      .error { doing := some "parsing configuration", causes := settingsCauses trouble }

/-- Make ready what the arguments ask for.  What is wrong first, in their order, decides. -/
def prepare (args : List String) (files : Files) : Except Mishap Job :=
  match Arguments.ofList? args with
  | none => .error { causes := [usage] }
  | some a => do
    let settings ← readSettings files a.settings
    let sender ← readAddress "sender address" a.sender
    let recipient ← readAddress "recipient address" a.recipient
    let bodies ← a.bodies.mapM (openFile files "opening")
    return { settings, message :=
      { sender, recipient, sources := bodies.map fun content => some content.source } }

/-- The time on the network's clock. -/
def clock : Run SubmitFailure Submitter Nat := return (← get).client.net.now

/-- Submit a message and say goodbye; the outcome, and the milliseconds the submission
took. -/
def submitOnce (m : Message) : Run SubmitFailure Submitter (Outcome × Nat) := do
  let start ← clock
  let outcome ← Submitter.measuredSubmit m
  let elapsed := (← clock) - start
  Submitter.quit
  return (outcome, elapsed)

/-- The outcome as a record, with what a clock says about the submission. -/
def renderOutcome (startedAt : String) (elapsed : Nat) (o : Outcome) : String :=
  let optional (key : String) (s : Option Json.Scalar) := s.toList.map fun s => (key, s)
  Json.renderRecord
    [("kind", .scalar (.text o.kind.word)),
     ("started_at", .scalar (.text startedAt)),
     ("metrics", .record
       [("elapsed_ms", .number elapsed), ("bytes", .number o.bytes),
        ("pass", .number (o.count .pass)), ("fail", .number (o.count .fail)),
        ("exception", .number (o.count .exception)), ("cases", .number 1)]),
     ("attributes", .record
       ([("correlation_id", Json.Scalar.text o.correlationId)] ++
        optional "status" (o.status.map .number) ++
        optional "server_text" (o.serverText.map .text) ++
        optional "error" (o.error.map .text)))]

/-- What the program leaves behind. -/
structure Report where
  exitCode : Nat
  output : String := ""
  errors : String := ""
  deriving DecidableEq, Repr, Inhabited

/-- The report of a mishap. -/
def Report.ofMishap (m : Mishap) : Report := { exitCode := 1, errors := m.render }

/-- The report of an outcome. -/
def Report.ofOutcome (startedAt : String) (elapsed : Nat) (o : Outcome) : Report :=
  { exitCode := if o.isPass then 0 else 1, output := renderOutcome startedAt elapsed o ++ "\n" }

/-- The report of a failure that is no outcome. -/
def Report.ofFailure (failure : SubmitFailure) : Report := .ofMishap { causes := [failure.message] }

/-- Carry out a job on a network, as far as it goes: the report if it comes to its end,
and none while it waits; also the network as it is then.  The text says when the
submission started. -/
def carryOut (startedAt : String) (job : Job) (net : Network) : Option Report × Network :=
  let (token, signals) := net.signals.never
  match Submitter.new 1 job.settings token { net with signals } with
  | .error failure => (some (.ofFailure failure), net)
  | .ok submitter =>
    match submitOnce job.message submitter with
    | .ok (outcome, elapsed) s => (some (.ofOutcome startedAt elapsed outcome), s.client.net)
    | .error (.failed failure) s => (some (.ofFailure failure), s.client.net)
    | .error .abandoned s => (none, s.client.net)

end MailSubmission.CommandLine
