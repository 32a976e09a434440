import Spey.Session.Reached
import Spey.World

/-!
# The sender that is greylisted

The inside server's mail transaction has the sender of the last MAIL command that
it has accepted; spey remembers the sender of the last MAIL line that it has read,
before it knows what becomes of it. A recipient is greylisted with the sender of
its transaction exactly where the two are the same.
-/

namespace Spey

open Interaction

/-- The command of a line that is read, where it parses. -/
@[simp] def commandParsed (e : Event Ans) : Option SMTPCommand.Parsed :=
  (commandLine e).bind fun l => SMTPCommand.parse l.bytes

/-- The sender of a MAIL command that is sent to the inside server. -/
@[simp] def mailSent : Event Ans → Option Bytes
  | ⟨.inWriteline (.command c), _⟩ => if c.cmd = .MAIL then some c.parameter.bytes else none
  | _ => none

/-- The inside server accepts a MAIL command with this sender. -/
@[simp] def opens (e : Event Ans) (past : Log) : Option Bytes :=
  if (replyCode e).any (fun code => code / 100 = 2) then past.head?.bind mailSent else none

/-- The client ends the transaction. -/
@[simp] def closes (e : Event Ans) : Bool :=
  (commandParsed e).any fun c => c.1 ∈ [.RSET, .HELO, .EHLO, .STARTTLS, .DATA]

/-- The sender of the transaction that is open. -/
def transaction : Log → Option Bytes
  | [] => none
  | e :: past => if closes e then none else (opens e past).or (transaction past)

/-- The sender of the last MAIL line, unless RSET or STARTTLS came after it. -/
def lastMail : Log → Option Bytes
  | [] => none
  | e :: past => match commandParsed e with
    | some (.MAIL, sender) => sender
    | some (.RSET, _) | some (.STARTTLS, _) => none
    | _ => lastMail past

/-- The sender with which a recipient is greylisted. -/
@[simp] def consultedSender : Event Ans → Option Bytes
  | ⟨.greylist _ sender _, _⟩ => some sender
  | _ => none

/-- A recipient is greylisted with the sender of the transaction. -/
def keepsSender (e : Event Ans) (past : Log) : Prop :=
  (consultedSender e).all fun sender => (transaction past).all fun opened => sender = opened
  deriving Decidable

/-- A recipient is greylisted while the last MAIL line is the transaction's. -/
def sameSender (e : Event Ans) (past : Log) : Prop :=
  (consultedSender e).isSome → transaction past = none ∨ transaction past = lastMail past
  deriving Decidable

namespace Sender

variable {ctx : Context} {rounds left : Nat} {s : Session} {h : Log}

/-- What the last command tells about the last MAIL line. -/
theorem lastMail_of_last {verb : Verb} {a : Option Bytes} (hl : lastCommand h = some (verb, a)) :
    (verb = .MAIL → lastMail h = a) ∧ (verb = .STARTTLS → lastMail h = none) := by
  induction h with
  | nil => cases hl
  | cons e past ih =>
    unfold lastCommand at hl
    rw [lastLine_cons] at hl
    cases he : commandLine e with
    | none =>
      rw [he] at hl
      simpa only [lastMail, commandParsed, he, Option.bind_none] using ih hl
    | some l =>
      rw [he] at hl
      have hparse : SMTPCommand.parse l.bytes = some (verb, a) := hl
      simp only [lastMail, commandParsed, he, Option.bind_some, hparse]
      exact ⟨fun hv => by rw [hv], fun hv => by rw [hv]⟩

/-- What the history says of the sender. -/
structure Remembered (c : Config) (h : Log) : Prop where
  /-- a client that is checked: its last MAIL line is in `_from` -/
  sender : c.point.live = true → c.session.exempt = false →
    ∀ a ∈ lastMail h, c.session._from.bytes = a
  /-- MAIL is only sent after a MAIL line -/
  sent : h.head?.bind mailSent ≠ none → lastMail h ≠ none
  opened : transaction h ≠ none → lastMail h ≠ none
  agree : Always keepsSender h ↔ Always sameSender h

/-- Authentication lasts until the next handshake. -/
theorem exempt_of_cons {c c' : Config} {e : Event Ans} (hk : Known ctx c h)
    (hk' : Known ctx c' (e :: h)) (hl : c.point.live = true) (hl' : c'.point.live = true)
    (he : handshakes e = false) (hexempt : c'.session.exempt = false) : c.session.exempt = false := by
  have hflags := hk.flags hl
  have hflags' := hk'.flags hl'
  obtain ⟨hauthenticated, htrusted⟩ := Bool.or_eq_false_iff.mp hexempt
  apply Bool.or_eq_false_iff.mpr
  constructor
  · apply Bool.eq_false_iff.mpr
    intro ha
    have hsince : Since confers handshake (e :: h) :=
      (hflags.authenticated.mp ha).cons fun hs => by rw [handshake, he] at hs; cases hs
    rw [hflags'.authenticated.mpr hsince] at hauthenticated
    cases hauthenticated
  · apply Bool.eq_false_iff.mpr
    intro ht
    rw [hflags'.trusted.mpr ((hflags.trusted.mp ht).cons id)] at htrusted
    cases htrusted

/-- An event between commands. -/
theorem remembered_cons {c c' : Config} {e : Event Ans} (hs : Remembered c h) (hk : Known ctx c h)
    (hk' : Known ctx c' (e :: h)) (hl : c.point.live = true) (hfrom : c'.session._from = c.session._from)
    (hread : commandParsed e = none) (hshake : handshakes e = false ∨ lastMail h = none)
    (hagree : keepsSender e h ↔ sameSender e h) (hsent : mailSent e ≠ none → lastMail h ≠ none) :
    Remembered c' (e :: h) := by
  have hlast : lastMail (e :: h) = lastMail h := by simp only [lastMail, hread]
  constructor
  · intro hl' hexempt
    rw [hlast, hfrom]
    rcases hshake with hshake | hnone
    · exact hs.sender hl (exempt_of_cons hk hk' hl hl' hshake hexempt)
    · intro a ha
      rw [hnone] at ha
      cases ha
  · rw [hlast]
    exact hsent
  · rw [hlast]
    intro hopen
    have hclose : closes e = false := by simp only [closes, hread, Option.any_none]
    simp only [transaction, hclose, Bool.false_eq_true, ↓reduceIte, opens] at hopen
    split_ifs at hopen
    · cases hm : h.head?.bind mailSent with
      | none =>
        rw [hm, Option.none_or] at hopen
        exact hs.opened hopen
      | some a => exact hs.sent (by simp [hm])
    · exact hs.opened hopen
  · rw [always_cons, always_cons, hs.agree, hagree]

/-- An event that greylists nobody. -/
theorem agree_of_none {e : Event Ans} (hconsult : consultedSender e = none) :
    keepsSender e h ↔ sameSender e h := by
  simp only [keepsSender, sameSender, hconsult, Option.all_none, Option.isSome_none,
    Bool.false_eq_true, false_implies]

/-- The sender that a recipient is greylisted with is the last MAIL line's. -/
theorem agree_of_consult {e : Event Ans} {f : Bytes} (hconsult : consultedSender e = some f)
    (hopened : transaction h ≠ none → lastMail h ≠ none) (hf : ∀ a ∈ lastMail h, f = a) :
    keepsSender e h ↔ sameSender e h := by
  simp only [keepsSender, sameSender, hconsult, Option.all_some, Option.isSome_some, true_implies]
  cases ht : transaction h with
  | none => simp
  | some g =>
    cases hl : lastMail h with
    | none => exact absurd hl (hopened (by simp [ht]))
    | some a =>
      obtain rfl := hf a hl
      simp [eq_comm]

/-- A command line that parses, up to where its handling leads. -/
theorem remembered_parsed {c : SMTPCommand} {l : Line} (hs : Remembered ⟨.head, s, left⟩ h)
    (hparse : SMTPCommand.parse l.bytes = some (c.cmd, c.argument)) {c' : Config}
    (hc' : Config.Alike { s with command := c, _from := Config.sender { s with command := c } }
      c'.session) : Remembered c' (⟨.outReadline .command, .ok l⟩ :: h) := by
  obtain ⟨r, d, hc'⟩ := hc'
  have hexempt : c'.session.exempt = s.exempt := by rw [hc']; rfl
  have hfrom : c'.session._from = Config.sender { s with command := c } := by rw [hc']
  have hlast : lastMail (⟨.outReadline .command, .ok l⟩ :: h) =
      if c.cmd = .MAIL then some c.parameter.bytes
      else if c.cmd = .RSET ∨ c.cmd = .STARTTLS then none else lastMail h := by
    simp only [lastMail, commandParsed, commandLine, Option.bind_some, hparse, SMTPCommand.argument]
    cases c.cmd <;> rfl
  constructor
  · intro _ he
    rw [hexempt] at he
    have hold := hs.sender rfl he
    have he' : ({ s with command := c } : Session).exempt = false := he
    rw [hfrom, hlast]
    simp only [Config.sender, he']
    cases c.cmd with
    | MAIL => simp
    | RSET | STARTTLS => simp
    | _ => exact hold
  · intro hsent
    exact absurd rfl hsent
  · intro hopen
    rw [hlast]
    simp only [transaction, closes, commandParsed, commandLine, Option.bind_some, hparse, opens, replyCode,
      Option.any_none, Option.any_some, Bool.false_eq_true, ↓reduceIte, Option.none_or] at hopen
    split_ifs at hopen with hclosed
    · exact absurd rfl hopen
    · cases hc : c.cmd with
      | MAIL => simp
      | RSET | STARTTLS => simp [hc] at hclosed
      | _ => exact hs.opened hopen
  · rw [always_cons, always_cons, hs.agree, agree_of_none rfl]

/-- A line is read as a command. -/
theorem remembered_read (hk : Known ctx ⟨.head, s, left⟩ h) (hs : Remembered ⟨.head, s, left⟩ h) :
    (machine ctx rounds ⟨.head, s, left⟩).All fun e c =>
      Known ctx c (e :: h) → Remembered c (e :: h) := by
  intro line hk'
  have hnone : ∀ {e c'}, Known ctx c' (e :: h) → c'.session._from = s._from → commandParsed e = none →
      handshakes e = false → consultedSender e = none → mailSent e = none → Remembered c' (e :: h) :=
    fun hk' hfrom hread hshake hconsult hsent =>
      remembered_cons hs hk hk' rfl hfrom hread (.inl hshake) (agree_of_none hconsult)
        fun he => absurd hsent he
  obtain _ | l := line
  · exact hnone hk' rfl rfl rfl rfl rfl
  show Remembered (.parsed ctx s left l) _
  have hk' : Known ctx (.parsed ctx s left l) _ := hk'
  unfold Config.parsed at hk' ⊢
  cases hset : s.command.set l with
  | none =>
    rw [hset] at hk'
    refine hnone hk' rfl ?_ rfl rfl rfl
    simp [SMTPCommand.set_none hset]
  | some c => exact remembered_parsed hs (SMTPCommand.set_some hset) Config.dispatch_alike

theorem remembered_step (c : Config) (h : Log) (hk : Known ctx c h) (hs : Remembered c h) :
    (machine ctx rounds c).All fun e c => Known ctx c (e :: h) → Remembered c (e :: h) := by
  by_cases hhead : c.point = .head
  · obtain ⟨point, s, left⟩ := c
    obtain rfl : point = .head := hhead
    exact remembered_read hk hs
  have hfrom := Config.from_step ctx rounds hhead
  obtain ⟨point, s, left⟩ := c
  cases point with
  | head => exact absurd rfl hhead
  | handshake =>
    intro x hk'
    have hnone : lastMail h = none := (lastMail_of_last (hk.current rfl)).2 hk.here
    exact remembered_cons hs hk hk' rfl (hfrom x) rfl (.inr hnone) (agree_of_none rfl)
      fun hsent => absurd rfl hsent
  | greylisting =>
    intro x hk'
    have hagree := agree_of_consult (e := ⟨.greylist (network24 ctx.address) s._from.bytes
      s.command.parameter.bytes, x⟩) rfl hs.opened (hs.sender rfl hk.here.1)
    exact remembered_cons hs hk hk' rfl (hfrom x) rfl (.inl rfl) hagree fun hsent => absurd rfl hsent
  | send =>
    intro x hk'
    refine remembered_cons hs hk hk' rfl (hfrom x) rfl (.inl rfl) (agree_of_none rfl) fun hsent => ?_
    have hcmd : s.command.cmd = .MAIL := by
      by_contra hne
      simp [hne] at hsent
    rw [(lastMail_of_last (hk.current rfl)).1 hcmd]
    simp [SMTPCommand.argument, hcmd]
  | authSend =>
    intro x hk'
    refine remembered_cons hs hk hk' rfl (hfrom x) rfl (.inl rfl) (agree_of_none rfl) fun hsent => ?_
    simp [show s.command.cmd = .AUTH from hk.here] at hsent
  | finished r => trivial
  | _ =>
    intro x hk'
    exact remembered_cons hs hk hk' rfl (hfrom x) rfl (.inl rfl) (agree_of_none rfl)
      fun hsent => absurd rfl hsent

end Sender

/-- Every recipient is greylisted with the sender of its transaction exactly where
each one is greylisted while the last MAIL line is the transaction's. -/
theorem keepsSender_iff (ctx : Context) (rounds : Nat) {r : Except Exn Unit} {s : Session} {h : Log}
    (hrun : (process ctx rounds).Ends {} [] r s h) : Always keepsSender h ↔ Always sameSender h := by
  obtain ⟨left, hc⟩ := process_on hrun
  have hstart : Sender.Remembered (initial rounds) [] := by
    refine ⟨fun _ _ a ha => ?_, fun hsent => absurd rfl hsent, fun hopen => absurd rfl hopen, Iff.rfl⟩
    cases ha
  exact (hc.strengthen known hstart Sender.remembered_step).agree

/-- A client with a second MAIL that the inside server refuses. -/
def secondSender : World := .ofLines .Accepted
  ["HELO a.b", "MAIL FROM:<a@b>", "MAIL FROM:<x@y>", "RCPT TO:<c@d>"]
  ["220 in", "250 ok", "250 ok", "503 nested MAIL", "250 ok"]

/-- Its recipient is greylisted with the sender that was refused. -/
theorem refused_sender_consulted :
    ¬ ∀ (ctx : Context) (rounds : Nat) (r : Except Exn Unit) (s : Session) (h : Log),
      (process ctx rounds).Ends {} [] r s h → Always keepsSender h := by
  intro hall
  obtain ⟨r, s, hrun⟩ := secondSender.history_ends (.sample 0 .NoAuth) 9
  have hkeeps := hall (.sample 0 .NoAuth) 9 r s _ hrun
  revert hkeeps
  decide +kernel

/-- A client with one MAIL. -/
def oneSender : World := .ofLines .Accepted
  ["HELO a.b", "MAIL FROM:<a@b>", "RCPT TO:<c@d>"] ["220 in", "250 ok", "250 ok", "250 ok"]

theorem oneSender_keepsSender :
    Once (fun e past => (consultedSender e).isSome ∧ (transaction past).isSome)
        (oneSender.history (.sample 0 .NoAuth) 9) ∧
      Always keepsSender (oneSender.history (.sample 0 .NoAuth) 9) := by
  refine ⟨by decide +kernel, ?_⟩
  obtain ⟨r, s, hrun⟩ := oneSender.history_ends (.sample 0 .NoAuth) 9
  exact (keepsSender_iff (.sample 0 .NoAuth) 9 hrun).mpr (by decide +kernel)

end Spey
