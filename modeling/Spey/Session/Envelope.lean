import Spey.Session.Sender

/-!
# The sender that the Received header names

The header of a message names the sender that spey remembers. It takes that from the
MAIL lines of a client that it checks, whatever becomes of them, and from no others, while
the sender of a message is the one that the inside server has accepted. So the two are
the same only where the MAIL that was accepted is the last one of a client that is checked.
-/

namespace Spey

open Interaction

/-! ## What a header says -/

/-- The last line of a text. -/
def closingLine (t : Bytes) : Bytes := (t.reverse.takeWhile (· ≠ LF)).reverse

/-- The address that is written after `with envelope`. -/
def envelope (t : Bytes) : Option Bytes :=
  let mark := text "\twith envelope "
  if mark <+: closingLine t then some ((closingLine t).drop mark.length) else none

theorem closingLine_append (a : Bytes) {b : Bytes} (hb : OneLine b) : closingLine (a ++ LF :: b) = b := by
  have hpass : ∀ c ∈ b.reverse, decide (c ≠ LF) = true := by
    intro c hc
    exact decide_eq_true (hb c (List.mem_reverse.mp hc)).2
  have hstop : (LF :: a.reverse).takeWhile (fun c => decide (c ≠ LF)) = [] :=
    List.takeWhile_cons_of_neg (by decide)
  rw [closingLine, List.reverse_append, List.reverse_cons, List.append_assoc,
    List.singleton_append, List.takeWhile_append_of_pos hpass, hstop, List.append_nil,
    List.reverse_reverse]

theorem envelope_received (name name' : Bytes) (port : UInt16) {sender : Bytes}
    (hsender : OneLine sender) : envelope (received name name' port sender) = some sender := by
  have hbreak : text "\n\twith envelope " = LF :: text "\twith envelope " := by decide +kernel
  have hmark : OneLine (text "\twith envelope ") := by decide +kernel
  have hline : closingLine (received name name' port sender) = text "\twith envelope " ++ sender := by
    rw [received, hbreak, List.append_assoc, List.cons_append]
    exact closingLine_append _ ((oneLine_append _ _).mpr ⟨hmark, hsender⟩)
  unfold envelope
  rw [hline]
  simp only [List.prefix_append, if_true, List.drop_left]

/-! ## What the history says -/

/-- The Received header of a message. -/
@[simp] def headerText : Event Ans → Option Bytes
  | ⟨.inWriteline (.header t), _⟩ => some t
  | _ => none

/-- The inside connection is given up, or another one is made. -/
@[simp] def redials : Event Ans → Bool
  | ⟨.deinit, _⟩ | ⟨.connect, _⟩ => true
  | _ => false

/-- The sender of the last MAIL command that the inside server has accepted on its
present connection. -/
def lastAccepted : Log → Option Bytes
  | [] => none
  | e :: past => if redials e then none else (opens e past).or (lastAccepted past)

/-- The client is trusted, or it has authenticated itself. -/
def exempted (h : Log) : Prop := Once trusted h ∨ Since confers handshake h
  deriving Decidable

/-- The sender of the last MAIL line of a client that is checked, unless RSET came after it. -/
def lastChecked : Log → Option Bytes
  | [] => none
  | e :: past => match commandParsed e with
    | some (.MAIL, sender) => if exempted past then lastChecked past else sender
    | some (.RSET, _) => none
    | _ => lastChecked past

/-- The header names the sender of the last MAIL that the inside server has accepted. -/
def namesEnvelope (e : Event Ans) (past : Log) : Prop :=
  ∀ t ∈ headerText e, ∃ sender ∈ lastAccepted past, envelope t = some sender
  deriving Decidable

/-- The last MAIL that the inside server has accepted has the sender of the last one of a client
that is checked, or no sender where there is none. -/
def acceptedChecked (e : Event Ans) (past : Log) : Prop :=
  (headerText e).isSome → lastAccepted past = some ((lastChecked past).getD [])
  deriving Decidable

namespace Envelope

variable {ctx : Context} {rounds left : Nat} {s : Session} {h : Log}

/-- What the history says of `_from`. -/
structure Noted (c : Config) (h : Log) : Prop where
  sender : c.session._from.bytes = (lastChecked h).getD []
  agree : Always namesEnvelope h ↔ Always acceptedChecked h

theorem exempt_iff (hf : Flags s h) : s.exempt = true ↔ exempted h := by
  rw [exempted, ← hf.trusted, ← hf.authenticated, Session.exempt, Bool.or_eq_true, or_comm]

theorem agree_of_none {e : Event Ans} (he : headerText e = none) :
    namesEnvelope e h ↔ acceptedChecked e h := by
  simp only [namesEnvelope, acceptedChecked, he, Option.not_mem_none, false_implies, implies_true,
    Option.isSome_none, Bool.false_eq_true]

theorem agree_of_header {e : Event Ans} {t : Bytes} (he : headerText e = some t)
    (ht : envelope t = some ((lastChecked h).getD [])) : namesEnvelope e h ↔ acceptedChecked e h := by
  unfold namesEnvelope acceptedChecked
  rw [he]
  constructor
  · intro hnames _
    obtain ⟨sender, haccepted, henvelope⟩ := hnames t rfl
    rw [← ht, henvelope]
    exact haccepted
  · rintro haccepted t' ⟨⟩
    exact ⟨_, haccepted rfl, ht⟩

/-- An event between commands. -/
theorem noted_cons {c c' : Config} {e : Event Ans} (hs : Noted c h)
    (hfrom : c'.session._from = c.session._from) (hread : commandParsed e = none)
    (hagree : namesEnvelope e h ↔ acceptedChecked e h) : Noted c' (e :: h) := by
  have hlast : lastChecked (e :: h) = lastChecked h := by rw [lastChecked, hread]
  constructor
  · rw [hlast, hfrom]
    exact hs.sender
  · rw [always_cons, always_cons, hs.agree, hagree]

/-- A command line that parses, up to where its handling leads. -/
theorem noted_parsed {c : SMTPCommand} {l : Line} (hf : Flags s h) (hs : Noted ⟨.head, s, left⟩ h)
    (hparse : SMTPCommand.parse l.bytes = some (c.cmd, c.argument)) {c' : Config}
    (hc' : Config.Alike { s with command := c, _from := Config.sender { s with command := c } }
      c'.session) : Noted c' (⟨.outReadline .command, .ok l⟩ :: h) := by
  obtain ⟨r, d, hc'⟩ := hc'
  have hfrom : c'.session._from = Config.sender { s with command := c } := by rw [hc']
  have hexempt : ({ s with command := c } : Session).exempt = true ↔ exempted h := exempt_iff hf
  constructor
  · rw [hfrom, lastChecked]
    simp only [commandParsed, commandLine, Option.bind_some, hparse, SMTPCommand.argument,
      Config.sender, hexempt]
    cases c.cmd with
    | MAIL =>
      dsimp only
      split_ifs
      · exact hs.sender
      · rfl
    | RSET => rfl
    | _ => exact hs.sender
  · rw [always_cons, always_cons, hs.agree, agree_of_none rfl]

/-- A line is read as a command. -/
theorem noted_read (hk : Known ctx ⟨.head, s, left⟩ h) (hs : Noted ⟨.head, s, left⟩ h) :
    (machine ctx rounds ⟨.head, s, left⟩).All fun e c => Noted c (e :: h) := by
  intro line
  obtain _ | l := line
  · exact noted_cons hs rfl rfl (agree_of_none rfl)
  show Noted (.parsed ctx s left l) _
  unfold Config.parsed
  cases hset : s.command.set l with
  | none =>
    refine noted_cons hs rfl ?_ (agree_of_none rfl)
    simp only [commandParsed, commandLine, Option.bind_some, SMTPCommand.set_none hset]
  | some c => exact noted_parsed (hk.flags rfl) hs (SMTPCommand.set_some hset) Config.dispatch_alike

theorem noted_step (c : Config) (h : Log) (hk : Known ctx c h) (hs : Noted c h) :
    (machine ctx rounds c).All fun e c => Known ctx c (e :: h) → Noted c (e :: h) := by
  by_cases hhead : c.point = .head
  · obtain ⟨point, s, left⟩ := c
    obtain rfl : point = .head := hhead
    exact (noted_read hk hs).mono fun e c hc _ => hc
  have hfrom := Config.from_step ctx rounds hhead
  obtain ⟨point, s, left⟩ := c
  cases point with
  | head => exact absurd rfl hhead
  | header name name' =>
    intro x _
    have hsender : s._from.bytes = (lastChecked h).getD [] := hs.sender
    have hnames := envelope_received name name' ctx.port s._from.oneLine
    rw [hsender] at hnames
    refine noted_cons hs (hfrom x) rfl (agree_of_header rfl ?_)
    rw [hsender]
    exact hnames
  | finished => trivial
  | _ =>
    intro x _
    exact noted_cons hs (hfrom x) rfl (agree_of_none rfl)

end Envelope

/-- The Received headers of a session name the senders that the inside server has accepted exactly
where the MAIL that it has accepted last is, at each of them, that of a client that is checked. -/
theorem namesEnvelope_iff (ctx : Context) (rounds : Nat) {r : Except Exn Unit} {s : Session}
    {h : Log} (hrun : (process ctx rounds).Ends {} [] r s h) :
    Always namesEnvelope h ↔ Always acceptedChecked h := by
  obtain ⟨left, hc⟩ := process_on hrun
  exact (hc.strengthen known ⟨rfl, Iff.rfl⟩ Envelope.noted_step).agree

/-- A host that sends a message. -/
def sendingHost (trusted : Bool) : World :=
  { World.ofLines .Accepted ["HELO a.b", "MAIL FROM:<a@b>", "RCPT TO:<c@d>", "DATA", "x", "."]
      ["220 in", "250 ok", "250 ok", "250 ok", "354 go", "250 ok"] with
    oracle := fun _ c => match c with
      | .testtrusted _ => some trusted
      | c => World.allow .Accepted c }

/-- The header of a trusted host's message names nobody. -/
theorem trusted_sender_lost :
    ¬ ∀ (ctx : Context) (rounds : Nat) (r : Except Exn Unit) (s : Session) (h : Log),
      (process ctx rounds).Ends {} [] r s h → Always namesEnvelope h := by
  intro hall
  obtain ⟨r, s, hrun⟩ := (sendingHost true).history_ends (.sample 0 .NoAuth) 9
  have hnames := hall (.sample 0 .NoAuth) 9 r s _ hrun
  revert hnames
  decide +kernel

theorem checkedHost_named :
    Once (fun e past => headerText e ≠ none ∧ lastAccepted past = some (text "a@b"))
        ((sendingHost false).history (.sample 0 .NoAuth) 9) ∧
      Always namesEnvelope ((sendingHost false).history (.sample 0 .NoAuth) 9) := by
  refine ⟨by decide +kernel, ?_⟩
  obtain ⟨r, s, hrun⟩ := (sendingHost false).history_ends (.sample 0 .NoAuth) 9
  exact (namesEnvelope_iff (.sample 0 .NoAuth) 9 hrun).mpr (by decide +kernel)

end Spey
