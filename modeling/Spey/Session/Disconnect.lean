import Spey.Session.Reached
import Spey.World

/-!
# Intolerant mode

After a reply that reports an error the session is to end. Wherever spey writes
such a reply it looks at `intolerant` before it goes on, but for one place: the
inside server's reply to a message is passed on, and the next command is read.
-/

namespace Spey

open Interaction

/-- A reply that reports an error is written. A proxied AUTH exchange is exempt. -/
@[simp] def reportsError : Event Ans → Bool
  | ⟨.outReply .proxiedAuth _, _⟩ => false
  | ⟨.outReply _ r, _⟩ => r.iserror
  | _ => false

@[simp] def errorReported (e : Event Ans) (_ : Log) : Prop := reportsError e
  deriving Decidable

/-- Something is read from the client, or written to the inside server. -/
@[simp] def converses : Event Ans → Bool
  | ⟨.outReadline _, _⟩ | ⟨.outRead _, _⟩ | ⟨.inWriteline _, _⟩ => true
  | _ => false

/-- Nothing more happens after an error was reported. -/
@[simp] def silent (e : Event Ans) (past : Log) : Prop := converses e → ¬ Once errorReported past
  deriving Decidable

@[simp] def endsMessage : Event Ans → Bool
  | ⟨.outReply .bodyResult _, true⟩ => true
  | _ => false

/-- The inside server refused a message, and the client has been told. -/
@[simp] def rejectedBody (e : Event Ans) (past : Log) : Prop :=
  endsMessage e ∧ (past.head?.bind replyCode).any fun code => code / 100 = 5
  deriving Decidable

namespace Disconnect

variable {ctx : Context} (rounds : Nat) {s : Session} {h : Log} {c c' : Config} {e : Event Ans}

theorem iserror_of_code {r : SMTPResponse} {code : Nat} (hr : r.code = code) (hcode : code / 100 ≠ 5) :
    r.iserror = false := by
  rw [SMTPResponse.iserror, hr, decide_eq_false hcode]

/-- An error is reported at the end of a session, or at the end of a message. -/
theorem reports_step (hi : ctx.settings.intolerant ≠ 0) (hk : Known ctx c h) :
    (machine ctx rounds c).All fun e c' => reportsError e = true →
      c'.point.live = false ∨ rejectedBody e h := by
  obtain ⟨point, s, left⟩ := c
  have hno : ∀ {code : Nat} {P : Prop}, s.response.code = code → code / 100 ≠ 5 →
      s.response.iserror = true → P := by
    intro code P hr hcode herror
    rw [iserror_of_code hr hcode] at herror
    cases herror
  cases point with
  | banner => exact fun written herror => hno hk.here (by decide) herror
  | help => exact fun written herror => hno (congrArg SMTPResponse.code hk.here.1) (by decide) herror
  | starttls => exact fun written herror => hno (congrArg SMTPResponse.code hk.here.1) (by decide) herror
  | authenticated =>
    exact fun written herror => hno (congrArg SMTPResponse.code hk.here.2.2) (by decide) herror
  | syntaxError =>
    intro written _
    cases written with
    | false => exact .inl rfl
    | true => exact .inl (by rw [Config.orRaise, if_pos hi]; rfl)
  | refusal =>
    intro written _
    cases written with
    | false => exact .inl rfl
    | true => exact .inl (by rw [Config.orRaise, Config.refused, if_pos hi]; rfl)
  | noDownstream => exact fun written _ => .inl rfl
  | relay =>
    intro written herror
    cases written with
    | false => exact .inl rfl
    | true => exact .inl (by rw [Config.orRaise, Config.third, if_pos ⟨herror, hi⟩]; rfl)
  | bodyRelay =>
    obtain ⟨-, -, l, reply, past, rfl, -, hreply⟩ := hk.here
    intro written herror
    cases written with
    | false => exact .inl rfl
    | true =>
      refine .inr ⟨rfl, ?_⟩
      show decide (reply.response.code / 100 = 5) = true
      rw [hreply]
      exact herror
  | challenge stage =>
    intro written herror
    have hcode : (SMTPResponse.set 334 (Config.message stage)).iserror = false :=
      iserror_of_code (show _ = 334 from rfl) (by decide)
    exact absurd (hcode.symm.trans herror) Bool.false_ne_true
  | finished r => trivial
  | _ => exact fun x herror => absurd herror Bool.false_ne_true

/-- A message that is refused is an error report, and the session goes on. -/
theorem rejected_step (hk : Known ctx c h) :
    (machine ctx rounds c).All fun e c' => rejectedBody e h → reportsError e = true ∧
      (c'.point = .head ∨ c'.point = .finished (.error .unfinished)) := by
  obtain ⟨point, s, left⟩ := c
  cases point with
  | bodyRelay =>
    obtain ⟨-, -, l, reply, past, rfl, -, hreply⟩ := hk.here
    intro written hrejected
    have hcode : decide (reply.response.code / 100 = 5) = true := hrejected.2
    rw [hreply] at hcode
    refine ⟨hcode, ?_⟩
    cases written with
    | false => exact absurd hrejected.1 Bool.false_ne_true
    | true =>
      cases left with
      | zero => exact .inr rfl
      | succ left => exact .inl rfl
  | finished r => trivial
  | _ => exact fun x hrejected => absurd hrejected.1 Bool.false_ne_true

/-- How the session stands to what it has reported. -/
structure Quiet (c : Config) (h : Log) : Prop where
  quiet : Always silent h ∨ Once rejectedBody h
  shut : Once errorReported h → c.point.live = false ∨ Once rejectedBody h
  goesOn : Once rejectedBody h → Once errorReported h ∧
    (c.point = .head ∨ c.point = .finished (.error .unfinished) ∨ ¬ Always silent h)

/-- Between the head of the loop and the end, only one event is possible. -/
theorem reads_at_head (ctx : Context) (hhead : c.point = .head) :
    (machine ctx rounds c).All fun e _ => converses e = true := by
  obtain ⟨point, s, left⟩ := c
  obtain rfl : point = .head := hhead
  exact fun _ => rfl

theorem quiet_cons (hl : c.point.live = true) (hs : Quiet c h)
    (hreports : reportsError e = true → c'.point.live = false ∨ rejectedBody e h)
    (hrejected : rejectedBody e h → reportsError e = true ∧
      (c'.point = .head ∨ c'.point = .finished (.error .unfinished)))
    (hhead : c.point = .head → converses e = true) : Quiet c' (e :: h) := by
  have hopen : Once errorReported h → Once rejectedBody h := by
    intro honce
    rcases hs.shut honce with hdead | hbefore
    · rw [hdead] at hl
      cases hl
    · exact hbefore
  constructor
  · rcases hs.quiet with hquiet | hbefore
    · by_cases honce : Once errorReported h
      · exact .inr (.inr ⟨id, hopen honce⟩)
      · exact .inl ⟨fun _ => honce, hquiet⟩
    · exact .inr (.inr ⟨id, hbefore⟩)
  · intro honce
    rcases honce with hnow | ⟨-, hbefore⟩
    · rcases hreports hnow with hdead | hbody
      · exact .inl hdead
      · exact .inr (.inl hbody)
    · exact .inr (.inr ⟨id, hopen hbefore⟩)
  · intro honce
    rcases honce with hnow | ⟨-, hbefore⟩
    · obtain ⟨herror, hpoint⟩ := hrejected hnow
      exact ⟨.inl herror, hpoint.imp_right .inl⟩
    · obtain ⟨hreported, hpoint⟩ := hs.goesOn hbefore
      refine ⟨.inr ⟨id, hreported⟩, .inr (.inr ?_)⟩
      intro hquiet
      rcases hpoint with hpoint | hpoint | hloud
      · exact hquiet.1 (hhead hpoint) hreported
      · rw [hpoint] at hl
        cases hl
      · exact hloud hquiet.2

theorem quiet_step (hi : ctx.settings.intolerant ≠ 0) (hk : Known ctx c h) (hs : Quiet c h) :
    (machine ctx rounds c).All fun e c' => Quiet c' (e :: h) := by
  have hreports := reports_step rounds hi hk
  have hrejected := rejected_step rounds hk
  have hhead := reads_at_head (c := c) rounds ctx
  obtain ⟨point, s, left⟩ := c
  cases point with
  | finished r => trivial
  | head => exact fun x => quiet_cons rfl hs (hreports x) (hrejected x) fun hp => hhead hp x
  | _ => exact fun x => quiet_cons rfl hs (hreports x) (hrejected x) fun hp => by cases hp

end Disconnect

/-- In intolerant mode nothing happens after an error was reported as long as the
inside server refuses no message; where it does, the session goes on. -/
theorem disconnects_iff (ctx : Context) (rounds : Nat) (hi : ctx.settings.intolerant ≠ 0)
    {r : Except Exn Unit} {s : Session} {h : Log} (hrun : (process ctx rounds).Ends {} [] r s h) :
    (¬ Once rejectedBody h → Always silent h) ∧
      (r ≠ .error .unfinished → Always silent h → ¬ Once rejectedBody h) := by
  obtain ⟨left, hc⟩ := process_on hrun
  have hstart : Disconnect.Quiet (initial rounds) [] :=
    ⟨.inl trivial, fun hnone => absurd hnone id, fun hnone => absurd hnone id⟩
  have hs : Disconnect.Quiet ⟨.finished r, s, left⟩ h := by
    apply hc.strengthen known hstart
    intro c h hk hs
    exact (Disconnect.quiet_step rounds hi hk hs).mono fun _ _ hq _ => hq
  constructor
  · exact hs.quiet.resolve_right
  · intro hfinished hquiet honce
    rcases (hs.goesOn honce).2 with hpoint | hpoint | hloud
    · cases hpoint
    · exact hfinished (Point.finished.inj hpoint)
    · exact hloud hquiet

/-- A client whose message the inside server refuses. -/
def rejectedClient : World := .ofLines .Accepted
  ["HELO a.b", "MAIL FROM:<a@b>", "RCPT TO:<c@d>", "DATA", "x", ".", "NOOP"]
  ["220 in", "250 ok", "250 ok", "250 ok", "354 go", "554 spam", "250 ok"]

/-- The session goes on with the next command. -/
theorem rejected_client_goes_on :
    ¬ ∀ (ctx : Context) (rounds : Nat) (r : Except Exn Unit) (s : Session) (h : Log),
      ctx.settings.intolerant ≠ 0 → (process ctx rounds).Ends {} [] r s h → Always silent h := by
  intro hall
  obtain ⟨r, s, hrun⟩ := rejectedClient.history_ends (.sample 1 .NoAuth) 9
  have hquiet := hall (.sample 1 .NoAuth) 9 r s _ (by decide) hrun
  revert hquiet
  decide +kernel

/-- A client whose sender the inside server refuses. -/
def refusedSender : World := .ofLines .Accepted
  ["HELO a.b", "MAIL FROM:<a@b>", "RCPT TO:<c@d>"] ["220 in", "250 ok", "550 no", "250 ok"]

theorem refusedSender_silent :
    Once errorReported (refusedSender.history (.sample 1 .NoAuth) 9) ∧
      Always silent (refusedSender.history (.sample 1 .NoAuth) 9) := by
  refine ⟨by decide +kernel, ?_⟩
  obtain ⟨r, s, hrun⟩ := refusedSender.history_ends (.sample 1 .NoAuth) 9
  exact (disconnects_iff (.sample 1 .NoAuth) 9 (by decide) hrun).1 (by decide +kernel)

end Spey
