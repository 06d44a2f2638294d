import MailSubmission.Client.Settings
import MailSubmission.Proofs.CommandOrder
import MailSubmission.Proofs.EnvelopeLines

set_option autoImplicit false

/-!
# Commands and the lines that a server reads

A command is meant to be one line.  What comes from outside stands in it in three places.  An
address has been checked, and a notification request is sent as xtext; neither can break the line.
The name that a client introduces itself by is taken from its settings as it is.

So a command that is drawn from settings (`Command.Drawn`) is one line unless it is an introduction
by a name that holds a line break.  Where each command is one line, the lines that a server reads
are those of the commands that went out whole (`Conversed.lines_eq`).
-/

namespace MailSubmission

open Text

/-! ## Lines -/

namespace Command

/-- The command is one of those that a client with such settings has for its operations. -/
def Drawn (settings : ClientSettings) : Command → Prop
  | .helo host => settings.extensions = false ∧ host = settings.heloHost
  | .ehlo host => settings.extensions = true ∧ host = settings.heloHost
  | .mailFrom _ params => params = none ∨ ∃ dsn : Dsn, params = some dsn.senderParams
  | .rcptTo _ params => params = none ∨ ∃ dsn : Dsn, params = some dsn.recipientParams
  | .data | .rset | .quit => True

/-- There is a carriage return or a line feed in the text. -/
def Breaks (text : String) : Prop := '\r' ∈ text.toList ∨ '\n' ∈ text.toList

instance (text : String) : Decidable (Breaks text) := inferInstanceAs (Decidable (_ ∨ _))

/-- The command introduces the client by a name that breaks the line. -/
def BreaksLine : Command → Prop
  | .helo host | .ehlo host => Breaks host
  | _ => False

instance : DecidablePred BreaksLine
  | .helo host | .ehlo host => inferInstanceAs (Decidable (Breaks host))
  | .mailFrom .. | .rcptTo .. | .data | .rset | .quit => inferInstanceAs (Decidable False)

variable {command : Command} {settings : ClientSettings}

theorem wire_eq (command : Command) : command.wire = Utf8.encode command.text ++ [13, 10] := by
  rw [wire, Utf8.encode_append]
  rfl

/-- An octet of a line end stands for itself only. -/
theorem mem_encode_iff (ch : Char) {b : UInt8} (hch : String.utf8EncodeChar ch = [b])
    (hb : b < 128) (hof : Char.ofNat b.toNat = ch) (text : String) :
    b ∈ Utf8.encode text ↔ ch ∈ text.toList := by
  constructor
  · intro h
    exact hof ▸ Utf8.mem_encode hb h
  · intro h
    exact List.mem_flatMap.mpr ⟨ch, h, hch ▸ List.mem_singleton_self b⟩

/-- A command is one line if what stands before its end holds no octet of a line end. -/
theorem isOneLine_wire_iff_notMem (command : Command) :
    IsOneLine command.wire ↔ 13 ∉ Utf8.encode command.text ∧ 10 ∉ Utf8.encode command.text := by
  rw [wire_eq]
  constructor
  · rintro ⟨line, hline, hclean⟩
    obtain rfl := List.append_cancel_right hline
    exact ⟨fun hmem => (hclean 13 hmem).1 rfl, fun hmem => (hclean 10 hmem).2 rfl⟩
  · rintro ⟨hreturn, hfeed⟩
    exact ⟨_, rfl, fun b hb => ⟨fun h => hreturn (h ▸ hb), fun h => hfeed (h ▸ hb)⟩⟩

/-- A command is one line if its text holds no line break. -/
theorem isOneLine_wire_iff (command : Command) :
    IsOneLine command.wire ↔ ¬ Breaks command.text := by
  have hreturn := mem_encode_iff '\r' (b := 13) rfl (by decide) rfl command.text
  have hfeed := mem_encode_iff '\n' (b := 10) rfl (by decide) rfl command.text
  rw [isOneLine_wire_iff_notMem, hreturn, hfeed]
  exact not_or.symm

/-- What stands before the name holds no line break. -/
theorem isOneLine_hello_iff (verb : String) {host : String} {command : Command}
    (htext : command.text = verb ++ host) (hverb : ¬ Breaks verb) :
    IsOneLine command.wire ↔ ¬ Breaks host := by
  rw [isOneLine_wire_iff, htext]
  unfold Breaks at hverb ⊢
  rw [not_or] at hverb
  rw [String.toList_append]
  simp [hverb]

/-- A line with an address and the parameters of a request holds no line break, nor does one
without parameters. -/
theorem isOneLine_party {verb : String} {command : Command} (address : Address)
    (fields : List (String × String))
    (htext : command.text = verb ++ address.render ++
      paramText (some (" ".intercalate (fields.map EnvelopeLine.written))))
    (hverb : ∀ b ∈ Utf8.encode verb, 32 ≤ b.toNat ∧ b ≠ 60)
    (hnames : ∀ p ∈ fields, EnvelopeLine.IsName p.1) : IsOneLine command.wire := by
  rw [wire, htext, encode_line]
  exact EnvelopeLine.isOneLine_octets address hverb hnames

/-- Of the commands that a client has for its operations, only an introduction can be more than one
line. -/
theorem Drawn.isOneLine_iff (h : command.Drawn settings) :
    IsOneLine command.wire ↔ ¬ command.BreaksLine := by
  cases command with
  | helo host => exact isOneLine_hello_iff "HELO " rfl (by decide)
  | ehlo host => exact isOneLine_hello_iff "EHLO " rfl (by decide)
  | mailFrom sender params =>
    have hverb : ∀ b ∈ Utf8.encode "MAIL FROM:", 32 ≤ b.toNat ∧ b ≠ 60 := by decide +kernel
    refine iff_of_true ?_ not_false
    rcases h with rfl | ⟨dsn, rfl⟩
    · exact isOneLine_party sender [] rfl hverb (List.forall_mem_nil _)
    · rw [dsn.senderParams_eq]
      exact isOneLine_party sender dsn.senderFields rfl hverb Dsn.isName_of_mem_senderFields
  | rcptTo recipient params =>
    have hverb : ∀ b ∈ Utf8.encode "RCPT TO:", 32 ≤ b.toNat ∧ b ≠ 60 := by decide +kernel
    refine iff_of_true ?_ not_false
    rcases h with rfl | ⟨dsn, rfl⟩
    · exact isOneLine_party recipient [] rfl hverb (List.forall_mem_nil _)
    · rw [dsn.recipientParams_eq]
      exact isOneLine_party recipient dsn.recipientFields rfl hverb Dsn.isName_of_mem_recipientFields
  | _ => exact iff_of_true ((isOneLine_wire_iff _).mpr (by decide)) not_false

end Command

/-! ## What a server reads for commands -/

/-- The octets that go out before anything else passes. -/
def leadingOctets : List Remark → List UInt8
  | .octet b :: rest => b :: leadingOctets rest
  | _ => []

/-- The commands that were begun, each with the octets that went out for it. -/
def utterances : List Remark → List (Command × List UInt8)
  | [] => []
  | .said command :: rest => (command, leadingOctets rest) :: utterances rest
  | .octet _ :: rest => utterances rest
  | .flushed :: rest => utterances rest
  | .heard _ :: rest => utterances rest

/-- What went out for commands, one command after another. -/
def commandOctets (rs : List Remark) : List UInt8 := (utterances rs).flatMap (·.2)

/-- The commands that were begun. -/
def commandsBegun (rs : List Remark) : List Command := (utterances rs).map (·.1)

/-- The commands that went out whole. -/
def commandsSent (rs : List Remark) : List Command :=
  ((utterances rs).filter fun u => u.2 == u.1.wire).map (·.1)

section

variable {rs full talk : List Remark} {xs : List Exchange} {x : Exchange}

theorem leadingOctets_append (bytes : List UInt8) (rs : List Remark) :
    leadingOctets (bytes.map .octet ++ rs) = bytes ++ leadingOctets rs := by
  induction bytes with
  | nil => rfl
  | cons b rest ih => exact congrArg (b :: ·) ih

/-- The octets in front are those in front of a longer dialogue, as far as it is known. -/
theorem leadingOctets_of_cut (h : rs <+: full) : leadingOctets rs <+: leadingOctets full := by
  obtain ⟨rest, rfl⟩ := h
  induction rs with
  | nil => exact List.nil_prefix
  | cons r rs ih =>
    cases r with
    | octet b => exact (List.prefix_cons_inj b).mpr ih
    | _ => exact List.prefix_refl _

/-- They are all of them once something else has passed. -/
theorem leadingOctets_of_said {command : Command} (h : rs <+: full) (hsaid : .said command ∈ rs) :
    leadingOctets rs = leadingOctets full := by
  obtain ⟨rest, rfl⟩ := h
  induction rs with
  | nil => cases hsaid
  | cons r rs ih =>
    cases r with
    | octet b =>
      rcases List.mem_cons.mp hsaid with hsame | hsaid
      · cases hsame
      · exact congrArg (b :: ·) (ih hsaid)
    | _ => rfl

theorem leadingOctets_append_said (rs quiet : List Remark) (command : Command) :
    leadingOctets (rs ++ .said command :: quiet) = leadingOctets rs := by
  induction rs with
  | nil => rfl
  | cons r rest ih =>
    cases r with
    | octet b => exact congrArg (b :: ·) ih
    | _ => rfl

theorem utterances_append_said (rs quiet : List Remark) (command : Command) :
    utterances (rs ++ .said command :: quiet) =
      utterances rs ++ utterances (.said command :: quiet) := by
  induction rs with
  | nil => rfl
  | cons r rest ih =>
    cases r with
    | said other =>
      rw [List.cons_append, utterances, utterances, leadingOctets_append_said, ih, List.cons_append]
    | _ => exact ih

theorem utterances_eq_nil (h : ∀ command, .said command ∉ rs) : utterances rs = [] := by
  induction rs with
  | nil => rfl
  | cons r rest ih =>
    have hrest : utterances rest = [] := ih fun command hmem => h command (List.mem_cons_of_mem r hmem)
    cases r with
    | said command => exact absurd List.mem_cons_self (h command)
    | _ => exact hrest

/-- A command goes out whole in its turn. -/
theorem Turn.utterances_append (h : Turn x talk) (rs : List Remark) :
    utterances (rs ++ talk) = utterances rs ++ [(x.command, x.command.wire)] := by
  obtain ⟨quiet, rfl, hquiet, -⟩ := h.exists_said
  have hleading : leadingOctets quiet = x.command.wire := by
    have hasked : ∀ rest,
        leadingOctets (x.command.wire.map .octet ++ .flushed :: rest) = x.command.wire :=
      fun rest => (leadingOctets_append _ _).trans (List.append_nil _)
    generalize htalk : Remark.said x.command :: quiet = talk at h
    cases h with
    | answered =>
      rw [Command.answered, Command.asked, List.append_assoc] at htalk
      rw [(List.cons.inj htalk).2]
      exact hasked _
    | poured sources asked =>
      simp only [Command.answered, Command.asked, List.append_assoc, List.cons_append] at htalk
      rw [(List.cons.inj htalk).2]
      exact hasked _
  rw [utterances_append_said, utterances, hleading, utterances_eq_nil hquiet]

theorem Course.utterances_eq (h : Course xs rs) :
    utterances rs = xs.map fun x => (x.command, x.command.wire) := by
  induction h with
  | greeted accepted => rfl
  | turn course fits turn ih => rw [turn.utterances_append, ih, List.map_append, List.map_singleton]

/-- Of a dialogue that is cut short, the last command may be as well. -/
theorem utterances_of_cut (h : rs <+: full) :
    utterances rs <+: utterances full ∨ ∃ whole command part all,
      utterances rs = whole ++ [(command, part)] ∧ whole ++ [(command, all)] <+: utterances full ∧
        part <+: all := by
  induction rs generalizing full with
  | nil => exact .inl List.nil_prefix
  | cons r rs ih =>
    obtain ⟨rest, rfl⟩ := h
    have hcut : rs <+: rs ++ rest := List.prefix_append rs rest
    cases r with
    | said command =>
      rw [List.cons_append, utterances, utterances]
      by_cases hlast : ∃ other, .said other ∈ rs
      · -- The command is not the last one, so its octets are known.
        obtain ⟨other, hother⟩ := hlast
        rw [leadingOctets_of_said hcut hother]
        rcases ih hcut with hwhole | ⟨whole, other, part, all, hrs, hwhole, hpart⟩
        · exact .inl ((List.prefix_cons_inj _).mpr hwhole)
        · refine .inr ⟨_ :: whole, other, part, all, congrArg (_ :: ·) hrs, ?_, hpart⟩
          exact (List.prefix_cons_inj _).mpr hwhole
      · rw [utterances_eq_nil fun other hother => hlast ⟨other, hother⟩]
        exact .inr ⟨[], command, _, _, rfl, (List.prefix_cons_inj _).mpr List.nil_prefix,
          leadingOctets_of_cut hcut⟩
    | _ =>
      have hrest := ih hcut
      exact hrest

/-- What was begun and did not go out whole. -/
def Unfinished (u : Command × List UInt8) : Prop := u.2 <+: u.1.wire ∧ u.2 ≠ u.1.wire

/-- Every command that was begun went out whole, but perhaps the last. -/
theorem Conversed.utterances_eq (h : Conversed rs) : ∃ whole last,
    utterances rs = whole ++ last ∧ (∀ u ∈ whole, u.2 = u.1.wire) ∧ last.length ≤ 1 ∧
      ∀ u ∈ last, Unfinished u := by
  cases h with
  | @greeting _ lines cut =>
    have hheard : ∀ r ∈ rs, r = .heard lines := fun r hr => List.mem_singleton.mp (cut.subset hr)
    have hnone : utterances rs = [] := utterances_eq_nil fun command hmem => nomatch hheard _ hmem
    exact ⟨[], [], hnone, by simp, by simp, by simp⟩
  | @course xs _ full course cut =>
    have hwire : ∀ u ∈ utterances full, u.2 = u.1.wire := by
      rw [course.utterances_eq]
      simp
    rcases utterances_of_cut cut with hwhole | ⟨whole, command, part, all, hrs, hwhole, hpart⟩
    · exact ⟨utterances rs, [], (List.append_nil _).symm, fun u hu => hwire u (hwhole.subset hu),
        by simp, by simp⟩
    · have hall : all = command.wire := hwire (command, all) (hwhole.subset (by simp))
      have hbefore : ∀ u ∈ whole, u.2 = u.1.wire := fun u hu => hwire u (hwhole.subset (by simp [hu]))
      subst hall
      by_cases hdone : part = command.wire
      · refine ⟨utterances rs, [], (List.append_nil _).symm, ?_, by simp, by simp⟩
        rw [hrs]
        intro u hu
        rcases List.mem_append.mp hu with hu | hu
        · exact hbefore u hu
        · exact List.mem_singleton.mp hu ▸ hdone
      · exact ⟨whole, [(command, part)], hrs, hbefore, by simp, by simp [Unfinished, hpart, hdone]⟩

/-- Where no line feed stands, no line ends. -/
theorem Body.firstLine?_eq_none {octets : List UInt8} (h : 10 ∉ octets) : firstLine? octets = none := by
  induction octets with
  | nil => rfl
  | cons b rest ih =>
    rw [List.mem_cons, not_or] at h
    rw [firstLine?, ih h.2, if_neg, Option.map_none]
    rintro ⟨-, hhead⟩
    exact h.2 (List.mem_of_head? hhead)

/-- What is behind a line is read after it. -/
theorem Body.lines_wire {command : Command} (h : IsOneLine command.wire) (rest : List UInt8) :
    lines (command.wire ++ rest) = Utf8.encode command.text :: lines rest := by
  have hfeed := ((Command.isOneLine_wire_iff_notMem command).mp h).2
  rw [Command.wire_eq]
  exact lines_of_firstLine? (firstLine?_append rest (firstLine?_eq_none hfeed))

/-- What did not go out whole ends no line. -/
theorem Unfinished.lines_eq {u : Command × List UInt8} (h : Unfinished u) (hline : IsOneLine u.1.wire) :
    Body.lines u.2 = [] := by
  obtain ⟨hreturn, hfeed⟩ := (Command.isOneLine_wire_iff_notMem u.1).mp hline
  obtain ⟨hcut, hne⟩ := h
  have hends : u.1.wire = Utf8.encode u.1.text ++ [13] ++ [10] := by
    rw [u.1.wire_eq, List.append_assoc]
    rfl
  rw [hends] at hcut hne
  have hpart : u.2 <+: Utf8.encode u.1.text ++ [13] := (List.prefix_concat_iff.mp hcut).resolve_left hne
  refine Body.lines_eq_nil (Body.firstLine?_eq_none fun hmem => ?_)
  rcases List.mem_append.mp (hpart.subset hmem) with hmem | hmem
  · exact hfeed hmem
  · cases List.mem_singleton.mp hmem

/-- What was begun is what went out whole, and perhaps one command more. -/
theorem Conversed.commands_eq (h : Conversed rs) : ∃ whole last,
    utterances rs = whole ++ last ∧ commandsSent rs = whole.map (·.1) ∧
      (∀ u ∈ whole, u.2 = u.1.wire) ∧ last.length ≤ 1 ∧ ∀ u ∈ last, Unfinished u := by
  obtain ⟨whole, last, hrs, hwhole, hlast, hcut⟩ := h.utterances_eq
  refine ⟨whole, last, hrs, ?_, hwhole, hlast, hcut⟩
  rw [commandsSent, hrs, List.filter_append, List.filter_eq_self.mpr, List.filter_eq_nil_iff.mpr,
    List.append_nil]
  · intro u hu heq
    exact (hcut u hu).2 (beq_iff_eq.mp heq)
  · intro u hu
    exact beq_iff_eq.mpr (hwhole u hu)

/-- Every command went out whole, but perhaps the last. -/
theorem Conversed.commandsBegun_eq (h : Conversed rs) : ∃ last,
    commandsBegun rs = commandsSent rs ++ last ∧ last.length ≤ 1 := by
  obtain ⟨whole, last, hrs, hsent, -, hlast, -⟩ := h.commands_eq
  refine ⟨last.map (·.1), ?_, by rwa [List.length_map]⟩
  rw [commandsBegun, hrs, hsent, List.map_append]

/-- A server reads one line for each command that went out whole, and nothing for one that did not,
if every command is one line. -/
theorem Conversed.lines_eq (h : Conversed rs)
    (hline : ∀ command ∈ commandsBegun rs, IsOneLine command.wire) :
    Body.lines (commandOctets rs) = (commandsSent rs).map fun command => Utf8.encode command.text := by
  obtain ⟨whole, last, hrs, hsent, hwhole, hlast, hcut⟩ := h.commands_eq
  have hline : ∀ u ∈ whole ++ last, IsOneLine u.1.wire := fun u hu =>
    hline u.1 (List.mem_map_of_mem (hrs ▸ hu))
  rw [commandOctets, hsent, hrs]
  clear hrs hsent
  induction whole with
  | nil =>
    match last with
    | [] => exact Body.lines_eq_nil rfl
    | [u] =>
      rw [List.nil_append, List.flatMap_singleton]
      exact (hcut u (List.mem_singleton_self u)).lines_eq (hline u (List.mem_singleton_self u))
  | cons u rest ih =>
    obtain ⟨hu, hrest⟩ := List.forall_mem_cons.mp hwhole
    obtain ⟨huline, hrestline⟩ := List.forall_mem_cons.mp hline
    rw [List.cons_append, List.flatMap_cons, hu, Body.lines_wire huline, ih hrest hrestline]
    rfl

end

end MailSubmission
