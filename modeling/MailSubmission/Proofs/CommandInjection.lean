import MailSubmission.Proofs.ClientStories
import MailSubmission.Proofs.CommandReading
import MailSubmission.Submission.SettingsReader

set_option autoImplicit false

/-!
# Nothing is said but commands

Whatever a client is asked to do, the commands that it begins are drawn from its settings, and the
addresses and requests that it is given can add none (`SaidInLines`).  Only the name in the settings
can: it is not checked, and a line break in it ends the line.
-/

namespace MailSubmission

open Text

/-! ## The commands that a client begins -/

section

variable {n : Nat} {es : List Entry} {rs : List Remark} {p : Command → Prop} {command other : Command}
  {lines : List ReplyLine} {reply : Reply} {sources : List (Option Script)}

/-- Every command that was begun was said. -/
theorem Spoken.issued (h : Spoken n es rs) (hp : ∀ command, .said command ∈ rs → p command) :
    ∀ m command, .issued m command ∈ es → p command := by
  intro m command hmem
  have hm : m = n := h.own _ hmem
  refine hp command (h.said ▸ List.mem_flatMap.mpr ⟨_, hmem, ?_⟩)
  rw [Entry.remarks, if_pos hm]
  exact List.mem_singleton_self _

theorem Command.eq_of_said_asked (h : .said other ∈ command.asked) : other = command := by
  simpa [asked] using h

theorem Command.eq_of_said_answered (h : .said other ∈ command.answered lines) : other = command := by
  simpa [answered, asked] using h

theorem eq_data_of_said (h : .said other ∈ Command.data.answered lines ++ Message.poured sources) :
    other = .data := by
  rcases List.mem_append.mp h with h | h
  · exact Command.eq_of_said_answered h
  · simp [Message.poured] at h

theorem HandedOver.eq_data (h : HandedOver sources reply rs) (hmem : .said other ∈ rs) :
    other = .data := by
  cases h with
  | declined => exact Command.eq_of_said_answered hmem
  | poured =>
    rcases List.mem_append.mp hmem with hmem | hmem
    · exact eq_data_of_said hmem
    · cases List.mem_singleton.mp hmem

end

namespace Client

open Run

variable {α : Type} {n : Nat} {p : Command → Prop} {c mid later : Client} {es : List Entry}

/-- `later` is the client after work in which only such commands were begun. -/
def Utters (p : Command → Prop) (c later : Client) : Prop :=
  ∃ es, c.Works later es ∧ ∀ m command, .issued m command ∈ es → p command

/-- Work on the connection utters what is said, and nothing can be done without a connection. -/
theorem ends_utters {act : Run Fault Client α} {said : α → List Remark → Prop}
    {cut : List Remark → Prop} (c : Client)
    (hnone : c.connection = none → act c = .error (.failed .connectionClosed) c)
    (h : ∀ n, c.held = some n → Converses n act c said cut)
    (hsaid : ∀ a rs, said a rs → ∀ command, .said command ∈ rs → p command)
    (hcut : ∀ rs, cut rs → ∀ command, .said command ∈ rs → p command) :
    Ends act c (fun _ mid => c.Utters p mid) (fun _ mid => c.Utters p mid) := by
  cases hc : c.connection with
  | none =>
    unfold Ends
    rw [hnone hc]
    exact ⟨[], .refl c, nofun⟩
  | some conn =>
    apply Ends.mono (h _ (congrArg (Option.map _) hc))
    · rintro a mid ⟨es, rs, hw, -, hspoken, hrs⟩
      exact ⟨es, hw, hspoken.issued (hsaid a rs hrs)⟩
    · rintro e mid ⟨es, rs, hw, hspoken, hrs, -⟩
      exact ⟨es, hw, hspoken.issued (hcut rs hrs)⟩

theorem onLink_of_none (act : Run Fault Link α) (h : c.connection = none) :
    onLink act c = .error (.failed .connectionClosed) c := by
  unfold onLink
  rw [h]

theorem ends_exchange_utters {command : Command} (h : p command) (c : Client) :
    Ends (exchange command) c (fun _ mid => c.Utters p mid) (fun _ mid => c.Utters p mid) := by
  refine ends_utters c (onLink_of_none _) (fun n => converses_exchange command) ?_ ?_
  · rintro lines rs rfl other hmem
    exact Command.eq_of_said_answered hmem ▸ h
  · rintro rs ⟨-, hcut⟩ other hmem
    exact Command.eq_of_said_asked (hcut.subset hmem) ▸ h

theorem ends_askReset_utters (h : p .rset) (c : Client) :
    Ends askReset c (fun _ mid => c.Utters p mid) (fun _ mid => c.Utters p mid) := by
  refine ends_utters c (fun hnone => bind_of_error (onLink_of_none _ hnone))
    (fun n => converses_askReset) ?_ ?_
  · rintro reply rs ⟨lines, -, -, rfl⟩ other hmem
    exact Command.eq_of_said_answered hmem ▸ h
  · rintro rs ⟨-, hcut | ⟨lines, -, rfl⟩⟩ other hmem
    · exact Command.eq_of_said_asked (hcut.subset hmem) ▸ h
    · exact Command.eq_of_said_answered hmem ▸ h

theorem ends_handOver_utters (h : p .data) (sources : List (Option Script)) (c : Client) :
    Ends (handOver sources) c (fun _ mid => c.Utters p mid) (fun _ mid => c.Utters p mid) := by
  refine ends_utters c (fun hnone => bind_of_error (onLink_of_none _ hnone))
    (fun n => converses_handOver sources) ?_ ?_
  · intro reply rs hrs other hmem
    exact hrs.eq_data hmem ▸ h
  · rintro rs ⟨goAhead, -, hcut⟩ other hmem
    exact eq_data_of_said (hcut.subset hmem) ▸ h

/-- Nothing is said for a greeting. -/
theorem ends_greet_utters (host : String) (port : Nat) (c : Client) :
    Ends (greet host port) c (fun _ mid => c.Utters p mid) (fun _ mid => c.Utters p mid) := by
  apply Ends.mono (converses_greet host port c)
  · rintro reply mid ⟨es, rs, hw, -, hspoken, lines, -, -, rfl⟩
    exact ⟨es, hw, hspoken.issued fun command hmem => nomatch List.mem_singleton.mp hmem⟩
  · rintro e mid ⟨es, rs, hw, hspoken, rfl | ⟨lines, -, rfl⟩, -⟩
    · exact ⟨es, hw, hspoken.issued nofun⟩
    · exact ⟨es, hw, hspoken.issued fun command hmem => nomatch List.mem_singleton.mp hmem⟩

end Client

/-- The parameters of a command are none, or those of the request that was given. -/
theorem Client.params_eq (c : Client) (dsn : Option Dsn) (render : Dsn → String) :
    c.params dsn render = none ∨ ∃ request, c.params dsn render = some (render request) := by
  unfold params
  split
  · cases dsn with
    | none => exact .inl rfl
    | some request =>
      rw [Option.map_some, Option.filter_some]
      split
      · exact .inr ⟨request, rfl⟩
      · exact .inl rfl
  · exact .inl rfl

/-- An operation begins no command but those that its client's settings have for it. -/
theorem Operation.ends_work_utters (op : Operation) (c : Client) :
    Run.Ends (op.work c) { c with inFlight := true }
      (fun _ mid => Client.Utters (Command.Drawn c.settings) { c with inFlight := true } mid)
      (fun _ mid => Client.Utters (Command.Drawn c.settings) { c with inFlight := true } mid) := by
  have hends : ∀ {α : Type} {act : Run Fault Client α} {p : Command → Prop} {d : Client},
      Run.Ends act d (fun _ mid => d.Utters p mid) (fun _ mid => d.Utters p mid) →
      Run.Ends (do let _ ← act) d (fun _ mid => d.Utters p mid) (fun _ mid => d.Utters p mid) :=
    fun h => Run.ends_bind.mpr h
  cases op with
  | connect host port => exact hends (Client.ends_greet_utters host port _)
  | login =>
    have hhello : c.hello.Drawn c.settings := by
      unfold Client.hello
      cases hextensions : c.settings.extensions with
      | true => exact ⟨hextensions, rfl⟩
      | false => exact ⟨hextensions, rfl⟩
    exact hends (Client.ends_exchange_utters hhello _)
  | sender address dsn => exact hends (Client.ends_exchange_utters (c.params_eq dsn Dsn.senderParams) _)
  | recipient address dsn =>
    exact hends (Client.ends_exchange_utters (c.params_eq dsn Dsn.recipientParams) _)
  | reset => exact hends (Client.ends_askReset_utters trivial _)
  | sendData sources => exact hends (Client.ends_handOver_utters trivial sources _)
  | done =>
    unfold work
    dsimp only
    split
    · exact hends (Client.ends_exchange_utters trivial _)
    · exact ⟨[], .refl _, nofun⟩

/-! ## Whatever is done with a client -/

namespace Client

variable {given : List ClientSettings} {c mid later : Client}

/-- `later` is the client after something was done to `c` in which no command was begun but those
that given settings have. -/
structure DrawsFrom (given : List ClientSettings) (c later : Client) : Prop where
  settings : later.settings ∈ given
  begun : ∃ es : List Entry, later.net.journal = es.reverse ++ c.net.journal ∧
    ∀ n command, .issued n command ∈ es → ∃ settings ∈ given, command.Drawn settings

theorem DrawsFrom.trans (h : c.DrawsFrom given mid) (g : mid.DrawsFrom given later) :
    c.DrawsFrom given later := by
  obtain ⟨-, es, hes, hdrawn⟩ := h
  obtain ⟨hsettings, fs, hfs, hdrawn'⟩ := g
  refine ⟨hsettings, es ++ fs, ?_, fun n command hmem => ?_⟩
  · rw [hfs, hes, List.reverse_append, List.append_assoc]
  · exact (List.mem_append.mp hmem).elim (hdrawn n command) (hdrawn' n command)

/-- Where no command was begun, none has to be drawn. -/
theorem drawsFrom_of_silent (es : List Entry) (hgiven : c.settings ∈ given)
    (hsettings : later.settings = c.settings) (hjournal : later.net.journal = es.reverse ++ c.net.journal)
    (hsilent : ∀ n command, .issued n command ∉ es) : c.DrawsFrom given later :=
  ⟨hsettings ▸ hgiven, es, hjournal, fun n command hmem => absurd hmem (hsilent n command)⟩

theorem drawsFrom_released (hgiven : c.settings ∈ given) (hsettings : later.settings = c.settings)
    (hnet : later.net = c.releasedNet) : c.DrawsFrom given later :=
  drawsFrom_of_silent c.release hgiven hsettings (by rw [hnet, releasedNet_eq]) (by simp [release])

/-- The bookkeeping after such work begins no command. -/
theorem Utters.drawsFrom (h : Utters (Command.Drawn c.settings) { c with inFlight := true } mid)
    (hgiven : c.settings ∈ given) (hsettings : later.settings = mid.settings)
    (hnet : later.net = mid.net ∨ later.net = mid.releasedNet) : c.DrawsFrom given later := by
  obtain ⟨es, hw, hdrawn⟩ := h
  have hsame : mid.settings = c.settings := by rw [hw.same]
  have hmid : c.DrawsFrom given mid := ⟨hsame ▸ hgiven, es, hw.journal,
    fun n command hmem => ⟨c.settings, hgiven, hdrawn n command hmem⟩⟩
  rcases hnet with hnet | hnet
  · refine hmid.trans (drawsFrom_of_silent [] hmid.settings hsettings ?_ nofun)
    rw [hnet]
    rfl
  · exact hmid.trans (drawsFrom_released hmid.settings hsettings hnet)

end Client

namespace Story

open Client

/-- A client with one of the given settings draws its commands from these. -/
def drawing (given : List ClientSettings) : Story :=
  .always (fun c later => c.settings ∈ given → c.DrawsFrom given later)
    (fun _ hgiven => drawsFrom_of_silent [] hgiven rfl rfl nofun)
    fun h g hgiven => (h hgiven).trans (g (h hgiven).settings)

theorem drawing_lasts (given : List ClientSettings) : (drawing given).Lasts where
  operation op c := by
    refine op.keeps_of_work ?_ ((drawing given).refl c.cleared) ?_
    · unfold cleared
      split
      · exact fun hgiven => drawsFrom_released hgiven rfl rfl
      · exact (drawing given).refl c
    · apply (op.ends_work_utters c.cleared).mono
      · intro _ mid hutters later hbooks hgiven
        exact hutters.drawsFrom hgiven hbooks.settings_eq (hbooks.net_eq.imp And.left And.left)
      · intro e mid hutters hgiven
        exact hutters.drawsFrom hgiven (op.settings_halted _ e)
          ((op.net_halted { mid with inFlight := false } e).imp And.left And.left)
  disconnect c hgiven := drawsFrom_released hgiven rfl rfl
  abandon c hgiven := drawsFrom_released hgiven rfl rfl
  meanwhile wait hgiven :=
    drawsFrom_of_silent [] hgiven (by rw [wait.same]) wait.journal nofun
  pause hw hgiven := drawsFrom_of_silent _ hgiven rfl hw.journal (by simp)
  cutOff hw _ hgiven := by
    refine drawsFrom_of_silent _ hgiven rfl hw.journal fun n command hmem => ?_
    cases Halt.eq_of_mem_trace _ _ hmem
  forgiven h := h

/-- A client in step stays so. -/
def inStep (before : List Entry) : Story :=
  .always (fun c later => InStep before c → InStep before later) (fun _ h => h) fun h g => g ∘ h

end Story

/-- What is waited for without a word keeps in step. -/
theorem Client.InStep.waits {before fs : List Entry} {c : Client} {net : Network} (h : InStep before c)
    (hw : c.net.Waits net fs) (hsilent : ∀ e ∈ fs, ∀ n, ¬ e.Uses n) : InStep before { c with net } := by
  obtain ⟨es, hjournal, hrecorded, hcourse⟩ := h
  have hm : c.Moves { c with net } fs := moves_waits hw hsilent
  have hnothing : ∀ n, dialogue n fs = [] := fun n => dialogue_eq_nil fun e he => hsilent e he n
  refine ⟨es ++ fs, hm.journal_append hjournal, hrecorded.moves_silent hm hnothing, ?_⟩
  refine hcourse.imp_right ?_
  rintro ⟨n, xs, hholds, hcourse, hreached⟩
  refine ⟨n, xs, ⟨hholds.idle, hholds.held⟩, ?_, hreached⟩
  rwa [dialogue_append, hnothing, List.append_nil]

namespace Story

open Client

theorem inStep_lasts (before : List Entry) : (inStep before).Lasts where
  operation op c := by
    refine Run.Ends.mono (Run.ends_self op.carryOut c) ?_ ?_
    · intro answer later hr h
      exact (h.cleared.operation op c.idle_cleared).of_ok ((op.carryOut_cleared c).trans hr)
    · intro e later hr h
      exact (h.cleared.operation op c.idle_cleared).of_error ((op.carryOut_cleared c).trans hr)
  disconnect c h := h.disconnect
  abandon c h := h.silent (moves_release c rfl rfl) (fun n => dialogue_release n c) (.inr rfl)
  meanwhile wait h := h.meanwhile wait
  pause hw h := h.waits hw (by simp [Entry.Uses])
  cutOff hw _ h := h.waits hw fun entry hentry n hu => by
    rw [Halt.eq_of_mem_trace _ entry hentry] at hu
    exact hu
  forgiven h := h

end Story

/-! ## Commands and lines -/

/-- The settings that a call gives to a client. -/
def Call.settings? : Call → Option ClientSettings
  | configure settings _ => some settings
  | operation _ | disconnect => none

/-- What happened while clients with the given settings were at work, as a matter of lines.  Every
command is drawn from settings, and is one line unless it introduces the client by a name that
breaks the line.  On a connection on which no command does that, the server reads a line for each
command that went out whole, with the command's text, and no other; and at most one command that
was begun did not go out whole. -/
structure SaidInLines (given : List ClientSettings) (es : List Entry) : Prop where
  drawn : ∀ n command, .issued n command ∈ es → ∃ settings ∈ given, command.Drawn settings
  oneLine : ∀ n command, .issued n command ∈ es → (IsOneLine command.wire ↔ ¬ command.BreaksLine)
  read : ∀ n, (∀ command ∈ commandsBegun (dialogue n es), ¬ command.BreaksLine) →
    Body.lines (commandOctets (dialogue n es)) =
      (commandsSent (dialogue n es)).map fun command => Utf8.encode command.text
  begun : ∀ n, ∃ last, commandsBegun (dialogue n es) = commandsSent (dialogue n es) ++ last ∧
    last.length ≤ 1

theorem said_of_mem_commandsBegun {rs : List Remark} {command : Command}
    (h : command ∈ commandsBegun rs) : .said command ∈ rs := by
  induction rs with
  | nil => cases h
  | cons r rest ih =>
    cases r with
    | said other =>
      rcases List.mem_cons.mp h with rfl | hrest
      · exact List.mem_cons_self
      · exact List.mem_cons_of_mem _ (ih hrest)
    | _ => exact List.mem_cons_of_mem _ (ih h)

/-- A command that was said is on record. -/
theorem issued_of_mem_dialogue {n : Nat} {es : List Entry} {command : Command}
    (h : .said command ∈ dialogue n es) : .issued n command ∈ es := by
  obtain ⟨e, hmem, hsaid⟩ := List.mem_flatMap.mp h
  cases e with
  | issued m other =>
    obtain ⟨rfl, rfl⟩ : m = n ∧ command = other := by simpa [Entry.remarks] using hsaid
    exact hmem
  | _ => simp [Entry.remarks] at hsaid

/-- A client in step that draws its commands from settings has said them in lines. -/
theorem Client.DrawsFrom.saidInLines {given : List ClientSettings} {c later : Client}
    (h : c.DrawsFrom given later) (hstep : InStep c.net.journal later) : ∃ es : List Entry,
      later.net.journal = es.reverse ++ c.net.journal ∧ SaidInLines given es := by
  obtain ⟨es, hjournal, hrecorded, -⟩ := hstep
  obtain ⟨-, fs, hfs, hdrawn⟩ := h
  obtain rfl : es = fs := List.reverse_inj.mp (List.append_cancel_right (hjournal.symm.trans hfs))
  have honeLine : ∀ n command, .issued n command ∈ es →
      (IsOneLine command.wire ↔ ¬ command.BreaksLine) := by
    intro n command hmem
    obtain ⟨settings, -, hdrawn⟩ := hdrawn n command hmem
    exact hdrawn.isOneLine_iff
  refine ⟨es, hjournal, hdrawn, honeLine, fun n hwhole => ?_,
    fun n => (hrecorded.each n).commandsBegun_eq⟩
  refine (hrecorded.each n).lines_eq fun command hmem => ?_
  have hissued := issued_of_mem_dialogue (said_of_mem_commandsBegun hmem)
  exact (honeLine n command hissued).mpr (hwhole command hmem)

/-- Whatever settings, addresses and requests a client or a submitter gets, and whatever is done
with it: the commands are said in lines. -/
theorem commands_said_in_lines (id : Nat) (token : Token) (net : Network) :
    (∀ (settings : ClientSettings) (calls : List Call) (c : Client),
      Client.Runs (.new id settings token net) calls c →
      ∃ es : List Entry, c.net.journal = es.reverse ++ net.journal ∧
        SaidInLines (settings :: calls.filterMap Call.settings?) es) ∧
    (∀ (settings : SubmitSettings) (calls : List Submitter.Call) (s₀ s : Submitter),
      Submitter.new id settings token net = .ok s₀ → Submitter.Runs s₀ calls s →
      ∃ es : List Entry, s.client.net.journal = es.reverse ++ net.journal ∧
        SaidInLines [settings.client] es) := by
  constructor
  · intro settings calls c hruns
    have hdrawn : (Client.new id settings token net).DrawsFrom
        (settings :: calls.filterMap Call.settings?) c := by
      refine (Story.drawing_lasts _).returns_client_runs hruns ?_ List.mem_cons_self
      intro given token' hcall c' _
      exact ⟨List.mem_cons_of_mem _ (List.mem_filterMap.mpr ⟨_, hcall, rfl⟩), [], rfl, nofun⟩
    exact hdrawn.saidInLines ((Client.inStep_new id settings token net).runs hruns)
  · intro settings calls s₀ s hnew hruns
    have hclient := Submitter.client_of_new hnew
    have hdrawn : s₀.client.DrawsFrom [settings.client] s.client := by
      refine (Story.drawing_lasts _).returns_runs hnew hruns ?_
      rw [hclient]
      exact List.mem_cons_self
    have hstep := (Story.inStep_lasts net.journal).returns_runs hnew hruns
    rw [hclient] at hdrawn hstep
    exact hdrawn.saidInLines (hstep (Client.inStep_new id settings.client token net))

/-- A server reads five commands of a client that hands two messages over. -/
theorem commands_said_in_lines_handedTwo :
    ∃ es : List Entry, Client.handedTwo.net.journal = es.reverse ∧
      Body.lines (commandOctets (dialogue 0 es)) =
        ["HELO localhost", "MAIL FROM:<>", "RCPT TO:<>", "DATA", "DATA"].map Utf8.encode := by
  obtain ⟨es, hjournal, hlines⟩ := (commands_said_in_lines 1 {} Client.takingTwo).1 {}
    Client.handingTwo Client.handedTwo (Client.runs_foldl _ _)
  have hes : es = Client.handedTwo.net.journal.reverse := by
    rw [hjournal.trans (List.append_nil _), List.reverse_reverse]
  have hbegun : ∀ command ∈ commandsBegun (dialogue 0 es), ¬ command.BreaksLine := by
    rw [hes]
    decide +kernel
  refine ⟨es, hjournal.trans (List.append_nil _), (hlines.read 0 hbegun).trans ?_⟩
  rw [hes]
  decide +kernel

/-- Settings that can be used, with a name that breaks the line. -/
def breakingSettings : SubmitSettings := { host := "mx", client := { heloHost := "x\r\nRSET" } }

theorem load_breakingSettings :
    SubmitSettings.load "\x7b\"host\":\"mx\",\"helo_host\":\"x\\r\\nRSET\"\x7d" =
      .ok breakingSettings := by
  have hloaded : (SubmitSettings.load
      "\x7b\"host\":\"mx\",\"helo_host\":\"x\\r\\nRSET\"\x7d").toOption =
        some breakingSettings := by decide +kernel
  cases hload : SubmitSettings.load "\x7b\"host\":\"mx\",\"helo_host\":\"x\\r\\nRSET\"\x7d" with
  | error trouble => rw [hload] at hloaded; cases hloaded
  | ok settings => rw [hload] at hloaded; exact congrArg _ (Option.some.inj hloaded)

/-- With such settings the introduction is two lines. -/
theorem commands_not_always_one_line :
    ¬ ∀ (source : String) (settings : SubmitSettings) (token : Token) (net : Network)
      (calls : List Call) (c : Client), SubmitSettings.load source = .ok settings →
      Client.Runs (.new 1 settings.client token net) calls c →
      ∃ es : List Entry, c.net.journal = es.reverse ++ net.journal ∧
        ∀ n command, .issued n command ∈ es → IsOneLine command.wire := by
  intro hall
  obtain ⟨es, hjournal, honeLine⟩ := hall _ _ {} Client.takingTwo
    [.operation (.connect "mx" 25), .operation .login] _ load_breakingSettings (Client.runs_foldl _ _)
  have hissued : .issued 0 (.helo "x\r\nRSET") ∈ es.reverse := by
    rw [← List.append_nil es.reverse, ← show Client.takingTwo.journal = [] from rfl, ← hjournal]
    decide +kernel
  have hline := honeLine 0 _ (List.mem_reverse.mp hissued)
  exact (Command.isOneLine_hello_iff "HELO " rfl (by decide)).mp hline (by decide)

end MailSubmission
