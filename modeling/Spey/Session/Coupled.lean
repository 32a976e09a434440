import Spey.Interaction.Coupling
import Spey.Session.Machine

/-!
# What a session still knows

Some of what a session keeps is never looked at again: between two commands the
old command and the old reply, and a deferred error while no refusal stands. Two
sessions that differ there only are coupled: they make the same calls, up to the
parameter that a command without an argument carries but does not print.
-/

namespace Spey

open Interaction

/-- The same bytes are written by both. -/
inductive SameBytes : Likeness Ans
  | refl (e : Call) : SameBytes e e id
  | command {c c' : SMTPCommand} (h : c'.string = c.string) :
      SameBytes (.inWriteline (.command c)) (.inWriteline (.command c')) id

/-- Commands that are handled alike. -/
structure SMTPCommand.Same (c c' : SMTPCommand) : Prop where
  cmd : c'.cmd = c.cmd
  argument : c'.argument = c.argument

namespace SMTPCommand.Same

variable {c c' : SMTPCommand}

/-- A command with an argument is known by it. -/
theorem eq (hs : Same c c') {a : Bytes} (ha : c.argument = some a) : c' = c := by
  obtain ⟨cmd, parameter, hp⟩ := c
  obtain ⟨cmd', parameter', hp'⟩ := c'
  obtain ⟨hcmd, harg⟩ := hs
  obtain rfl : cmd' = cmd := hcmd
  have hparameter : parameter' = parameter := by
    cases cmd' <;> first | exact Option.some.inj harg | cases ha
  subst hparameter
  rfl

theorem string (hs : Same c c') : c'.string = c.string := by
  cases ha : c.argument with
  | some a => rw [hs.eq ha]
  | none =>
    obtain ⟨cmd, parameter⟩ := c
    obtain ⟨cmd', parameter'⟩ := c'
    obtain rfl : cmd' = cmd := hs.cmd
    cases cmd' with
    | HELO | EHLO | MAIL | RCPT | AUTH => cases ha
    | DATA | VRFY | RSET | EXPN | HELP | NOOP | QUIT | STARTTLS => rfl

end SMTPCommand.Same

namespace Config

/-- The deferred error counts while a refusal stands. -/
def Defers (s : Session) (d : SMTPResponse) : Prop :=
  s.errorstate = true → d = s.deferrederror

/-- Where another command, reply and deferred error make no difference. -/
def Agree (s : Session) (c : SMTPCommand) (r d : SMTPResponse) : Point → Prop
  | .domain | .sender | .recipient | .acceptance | .greylisting => c = s.command ∧ Defers s d
  | .counting _ true | .dial | .greeting | .send | .reply | .authSend =>
      s.command.Same c ∧ Defers s d
  | .relay => s.command.Same c ∧ r = s.response ∧ Defers s d
  | .banner | .syntaxError | .help | .starttls | .refusal | .noDownstream | .authRelay | .authPass _
  | .authenticated | .bodyRelay => r = s.response ∧ Defers s d
  | .counting _ false => d = s.deferrederror ∧ Defers s d
  | .finished _ => True
  | _ => Defers s d

/-- The two sessions are at the same place and differ in nothing that matters there. -/
def Akin (c₁ c₂ : Config) : Prop :=
  ∃ c r d, c₂ = ⟨c₁.point,
    { c₁.session with command := c, response := r, deferrederror := d }, c₁.left⟩ ∧
    Agree c₁.session c r d c₁.point

variable {ctx : Context} {rounds left : Nat} {s : Session} {c : SMTPCommand} {r d : SMTPResponse}

/-- Another session with the same flags and the same sender. -/
abbrev other (s : Session) (c : SMTPCommand) (r d : SMTPResponse) : Session :=
  { s with command := c, response := r, deferrederror := d }

section Silent

theorem again_akin (hd : Defers s d) : Akin (again s left) (again (other s c r d) left) := by
  cases left with
  | zero => exact ⟨c, r, d, rfl, trivial⟩
  | succ left => exact ⟨c, r, d, rfl, hd⟩

theorem raise_akin (e : Exn) : Akin (raise s left e) (raise (other s c r d) left e) :=
  ⟨c, r, d, rfl, trivial⟩

theorem deny_akin (q : SMTPResponse) : Akin (deny s left q) (deny (other s c r d) left q) :=
  ⟨c, q, q, rfl, rfl, fun _ => rfl⟩

theorem refuse_akin (hd : d = s.deferrederror) :
    Akin (refuse s left) (refuse (other s c r d) left) :=
  ⟨c, d, d, rfl, hd, fun _ => hd⟩

theorem exchange_akin (hd : Defers s d) (k : Nat) :
    Akin (exchange s left k) (exchange (other s c r d) left k) := by
  cases k with
  | zero => exact raise_akin .unfinished
  | succ k => exact ⟨c, r, d, rfl, hd⟩

theorem body_akin (hd : Defers s d) (k : Nat) :
    Akin (body s left k) (body (other s c r d) left k) := by
  cases k with
  | zero => exact raise_akin .unfinished
  | succ k => exact ⟨c, r, d, rfl, hd⟩

theorem naming_akin (hd : Defers s d) :
    Akin (naming ctx s left) (naming ctx (other s c r d) left) := by
  unfold naming
  split_ifs
  · exact ⟨c, r, d, rfl, hd⟩
  · exact ⟨c, r, d, rfl, hd⟩

theorem credentials_akin (hd : Defers s d) (found : Option (Bytes × Bytes)) :
    Akin (credentials s left found) (credentials (other s c r d) left found) := by
  rcases found with _ | ⟨username, password⟩
  · exact deny_akin _
  · exact ⟨c, r, d, rfl, hd⟩

theorem answered_akin (hd : Defers s d) (a : Bytes) (stage : Challenge) :
    Akin (answered s left a stage) (answered (other s c r d) left a stage) := by
  cases stage with
  | plain => exact credentials_akin hd _
  | username => exact ⟨c, r, d, rfl, hd⟩
  | password username64 => exact credentials_akin hd _

/-- AUTH is known by its argument. -/
theorem internal_akin (hd : Defers s d) :
    Akin (internal s left) (internal (other s s.command r d) left) := by
  unfold internal
  dsimp only [other]
  split_ifs
  · exact deny_akin _
  · exact ⟨s.command, r, d, rfl, hd⟩
  · exact credentials_akin hd _
  · exact ⟨s.command, r, d, rfl, hd⟩
  · exact ⟨s.command, r, d, rfl, hd⟩
  · exact deny_akin _

theorem second_akin (hc : s.command.Same c) (hd : Defers s d) :
    Akin (second ctx s left) (second ctx (other s c r d) left) := by
  unfold second
  dsimp only [other]
  rw [hc.cmd]
  split_ifs with hauth
  · obtain rfl : c = s.command := hc.eq (a := s.command.parameter.bytes) (by simp [SMTPCommand.argument, hauth])
    cases ctx.settings.externalauthmode with
    | NoAuth => exact deny_akin _
    | ProxyAuth => exact ⟨s.command, r, d, rfl, hc, hd⟩
    | InternalAuth => exact internal_akin hd
  · exact ⟨c, r, d, rfl, hc, hd⟩

theorem proceed_akin (hc : s.command.Same c) (hd : Defers s d) :
    Akin (proceed ctx s left) (proceed ctx (other s c r d) left) := by
  unfold proceed
  dsimp only [other]
  split_ifs
  · exact second_akin hc hd
  · exact ⟨c, r, d, rfl, hc, hd⟩

/-- The first switch, on a command that is known by its argument. -/
theorem dispatch_argument {a : Bytes} (ha : s.command.argument = some a) (hd : Defers s d) :
    Akin (dispatch ctx s left) (dispatch ctx (other s s.command r d) left) := by
  have hproceed : ∀ s', Defers s' d → Akin (proceed ctx s' left)
      (proceed ctx (other s' s'.command r d) left) := fun _ hd' => proceed_akin ⟨rfl, rfl⟩ hd'
  have hexempt : (other s s.command r d).exempt = s.exempt := rfl
  unfold SMTPCommand.argument at ha
  unfold dispatch
  rw [hexempt]
  dsimp only [other]
  cases hcmd : s.command.cmd with
  | HELO | EHLO =>
    dsimp only
    split_ifs
    · exact hproceed s hd
    · exact ⟨s.command, r, d, rfl, rfl, hd⟩
  | MAIL =>
    dsimp only
    split_ifs
    · exact hproceed s hd
    · exact hproceed { s with _from := s.command.parameter } hd
    · exact ⟨s.command, r, d, rfl, rfl, hd⟩
  | RCPT =>
    dsimp only
    split_ifs
    · exact ⟨s.command, r, d, rfl, ⟨rfl, rfl⟩, hd⟩
    · exact ⟨s.command, r, d, rfl, rfl, hd⟩
  | AUTH => exact hproceed s hd
  | DATA | VRFY | RSET | EXPN | HELP | NOOP | QUIT | STARTTLS => simp [hcmd] at ha

theorem dispatch_akin (hc : s.command.Same c) (hd : Defers s d) :
    Akin (dispatch ctx s left) (dispatch ctx (other s c r d) left) := by
  cases ha : s.command.argument with
  | some a =>
    obtain rfl := hc.eq ha
    exact dispatch_argument ha hd
  | none =>
    unfold SMTPCommand.argument at ha
    unfold dispatch
    dsimp only [other]
    rw [hc.cmd]
    cases hcmd : s.command.cmd with
    | HELO | EHLO | MAIL | RCPT | AUTH => simp [hcmd] at ha
    | HELP => exact ⟨c, .set 214, d, rfl, rfl, hd⟩
    | QUIT => exact ⟨c, r, d, rfl, trivial⟩
    | STARTTLS =>
      dsimp only
      split_ifs
      · exact deny_akin _
      · exact ⟨c, .set 220, d, rfl, rfl, hd⟩
      · exact deny_akin _
    | RSET => exact proceed_akin (s := { s with _from := ⟨[], oneLine_nil⟩ }) hc hd
    | DATA =>
      dsimp only
      split_ifs with herror
      · exact refuse_akin (hd herror)
      · exact proceed_akin hc hd
    | VRFY | EXPN | NOOP => exact proceed_akin hc hd

/-- The command that a line is parsed to depends on the old one only in a parameter
that is not looked at. -/
theorem parsed_akin (hd : Defers s d) (l : Line) :
    Akin (parsed ctx s left l) (parsed ctx (other s c r d) left l) := by
  unfold parsed
  dsimp only [other]
  cases hset : s.command.set l with
  | none =>
    cases hset' : c.set l with
    | none => exact ⟨c, .set 500, d, rfl, rfl, hd⟩
    | some c' =>
      have hnone := SMTPCommand.set_none hset
      rw [SMTPCommand.set_some hset'] at hnone
      cases hnone
  | some c₁ =>
    have hparse := SMTPCommand.set_some hset
    cases hset' : c.set l with
    | none =>
      rw [SMTPCommand.set_none hset'] at hparse
      cases hparse
    | some c₂ =>
      rw [SMTPCommand.set_some hset'] at hparse
      obtain ⟨hcmd, harg⟩ := Prod.mk.inj (Option.some.inj hparse)
      exact dispatch_akin (s := { s with command := c₁ }) ⟨hcmd, harg⟩ hd

theorem third_akin (hc : s.command.Same c) (hd : Defers s d) :
    Akin (third ctx s left) (third ctx (other s c s.response d) left) := by
  unfold third
  dsimp only [other]
  rw [hc.cmd]
  by_cases herror : s.response.iserror ∧ ctx.settings.intolerant ≠ 0
  · rw [if_pos herror, if_pos herror]
    exact raise_akin .network
  · rw [if_neg herror, if_neg herror]
    cases s.command.cmd with
    | DATA =>
      dsimp only
      split_ifs
      · exact naming_akin hd
      · exact again_akin hd
    | QUIT => exact ⟨c, s.response, d, rfl, trivial⟩
    | _ => exact again_akin hd

theorem refused_akin : Akin (refused ctx s left) (refused ctx (other s c r d) left) := by
  unfold refused
  split_ifs
  · exact raise_akin .network
  · exact again_akin (s := { s with errorstate := false }) fun h => absurd h Bool.false_ne_true

theorem judged_akin (hc : s.command.Same c) (hd : Defers s d) (verdict : GreylistResponse) :
    Akin (judged ctx s left verdict) (judged ctx (other s c r d) left verdict) := by
  cases verdict with
  | Accepted => exact ⟨c, r, d, rfl, hc, hd⟩
  | BlackListed => exact ⟨c, r, blacklisted, rfl, hc, fun _ => rfl⟩
  | GreyListed => exact ⟨c, r, greylisted ctx, rfl, hc, fun _ => rfl⟩

theorem greet_akin (hd : Defers s d) : Akin (greet ctx s left) (greet ctx (other s c r d) left) :=
  ⟨c, _, d, rfl, rfl, hd⟩

theorem zones_akin (hd : Defers s d) (rbls : List Bytes) :
    Akin (zones ctx s left rbls) (zones ctx (other s c r d) left rbls) := by
  cases rbls with
  | nil =>
    unfold zones
    split_ifs
    · exact ⟨c, r, d, rfl, hd⟩
    · exact greet_akin hd
  | cons rbl rbls => exact ⟨c, r, d, rfl, hd⟩

end Silent

section Answers

theorem orRaise_akin {c₁ c₂ : Config} {e : Exn} (hnext : Akin c₁ c₂) (x : Bool) :
    Akin (orRaise s left e c₁ x) (orRaise (other s c r d) left e c₂ x) := by
  cases x with
  | false => exact raise_akin e
  | true => exact hnext

theorem reading_akin {α : Type} {next₁ next₂ : α → Config} (hnext : ∀ a, Akin (next₁ a) (next₂ a))
    (x : Except ReadFailure α) :
    Akin (reading s left next₁ x) (reading (other s c r d) left next₂ x) := by
  cases x with
  | error e => exact raise_akin e.exn
  | ok a => exact hnext a

theorem querying_akin {α : Type} {next₁ next₂ : α → Config} (hnext : ∀ a, Akin (next₁ a) (next₂ a))
    (x : Option α) : Akin (querying s left next₁ x) (querying (other s c r d) left next₂ x) := by
  cases x with
  | none => exact raise_akin .sql
  | some a => exact hnext a

end Answers

/-- The call is the same one. -/
theorem like_same {e : Call} {next₁ next₂ : Ans e → Config} (hnext : ∀ x, Akin (next₁ x) (next₂ x)) :
    (Node.call e next₁ : Node Ans (Except Exn Unit × Session) Config).Like SameBytes Akin
      (.call e next₂) :=
  .call (.refl e) hnext

/-- Every step keeps two sessions together. -/
theorem machine_coupled (ctx : Context) (rounds : Nat) :
    (machine ctx rounds).Coupled SameBytes Akin := by
  rintro ⟨point, s, left⟩ _ ⟨c, r, d, rfl, h⟩
  cases point with
  | opening =>
    have hd : Defers s d := h
    refine like_same (querying_akin fun trusted => ?_)
    cases trusted with
    | true => exact greet_akin (s := { s with trusted := true }) hd
    | false => exact zones_akin (s := { s with trusted := false }) hd _
  | zone rbl rbls =>
    refine like_same fun found => ?_
    cases found with
    | true => exact ⟨c, r, listed rbl, rfl, rfl, fun _ => rfl⟩
    | false => exact zones_akin h rbls
  | pause =>
    refine like_same fun early => ?_
    cases early with
    | true => exact ⟨c, r, tooSoon, rfl, rfl, fun _ => rfl⟩
    | false => exact greet_akin h
  | banner | help | bodyRelay =>
    obtain ⟨rfl, hd⟩ := h
    exact like_same (orRaise_akin (again_akin hd))
  | head => exact like_same (reading_akin (parsed_akin h))
  | syntaxError =>
    obtain ⟨rfl, hd⟩ := h
    refine like_same (orRaise_akin ?_)
    split_ifs
    · exact raise_akin .network
    · exact again_akin hd
  | starttls =>
    obtain ⟨rfl, hd⟩ := h
    exact like_same (orRaise_akin ⟨c, s.response, d, rfl, hd⟩)
  | handshake =>
    refine like_same fun done => ?_
    cases done with
    | false => exact raise_akin .network
    | true =>
      have hd : Defers (secured s) d := fun h => absurd h Bool.false_ne_true
      show Akin (if s.connected then _ else _) (if s.connected then _ else _)
      split_ifs
      · exact ⟨c, r, d, rfl, hd⟩
      · exact again_akin hd
  | hangUp => exact like_same fun _ => again_akin h
  | domain =>
    obtain ⟨rfl, hd⟩ := h
    refine like_same fun _ => ?_
    dsimp only
    split_ifs
    · exact proceed_akin ⟨rfl, rfl⟩ hd
    · exact ⟨s.command, r, illegalDomain, rfl, rfl, fun _ => rfl⟩
  | sender =>
    obtain ⟨rfl, hd⟩ := h
    refine like_same fun _ => ?_
    dsimp only
    split_ifs
    · exact proceed_akin ⟨rfl, rfl⟩ hd
    · exact ⟨s.command, r, .set 501, rfl, rfl, fun _ => rfl⟩
  | recipient =>
    obtain ⟨rfl, hd⟩ := h
    refine like_same fun _ => ?_
    dsimp only
    split_ifs
    · exact ⟨s.command, r, d, rfl, rfl, hd⟩
    · exact ⟨s.command, r, .set 551, rfl, rfl, fun _ => rfl⟩
  | acceptance =>
    obtain ⟨rfl, hd⟩ := h
    refine like_same (querying_akin fun accepted => ?_)
    cases accepted with
    | true => exact ⟨s.command, r, d, rfl, rfl, hd⟩
    | false => exact ⟨s.command, r, notPermitted, rfl, rfl, fun _ => rfl⟩
  | greylisting =>
    obtain ⟨rfl, hd⟩ := h
    exact like_same (querying_akin (judged_akin ⟨rfl, rfl⟩ hd))
  | counting counter passes =>
    refine like_same (orRaise_akin ?_)
    cases passes with
    | true => exact proceed_akin h.1 h.2
    | false => exact refuse_akin h.1
  | refusal =>
    obtain ⟨rfl, -⟩ := h
    exact like_same (orRaise_akin refused_akin)
  | dial =>
    refine like_same fun dialled => ?_
    cases dialled with
    | true => exact ⟨c, r, d, rfl, h⟩
    | false => exact ⟨c, .set 421, d, rfl, rfl, h.2⟩
  | greeting =>
    refine like_same fun reply => ?_
    cases reply with
    | error e => exact ⟨c, .set 421, d, rfl, rfl, h.2⟩
    | ok reply =>
      dsimp only
      split_ifs
      · exact second_akin (s := { s with response := reply.response, connected := true }) h.1 h.2
      · exact ⟨c, .set 421, d, rfl, rfl, h.2⟩
  | noDownstream =>
    obtain ⟨rfl, -⟩ := h
    exact like_same fun _ => raise_akin .network
  | send =>
    have hnext : Akin ⟨.reply, s, left⟩ ⟨.reply, other s c r d, left⟩ := ⟨c, r, d, rfl, h⟩
    exact .call (.command h.1.string) (orRaise_akin hnext)
  | reply =>
    refine like_same (reading_akin fun reply => ?_)
    rw [h.1.cmd]
    exact ⟨c, _, d, rfl, h.1, rfl, h.2⟩
  | relay =>
    obtain ⟨hc, rfl, hd⟩ := h
    exact like_same (orRaise_akin (third_akin hc hd))
  | authSend =>
    have hnext : Akin ⟨.authReply, s, left⟩ ⟨.authReply, other s c r d, left⟩ := ⟨c, r, d, rfl, h.2⟩
    exact .call (.command h.1.string) (orRaise_akin hnext)
  | authReply | authAnswer k | bodyReply =>
    exact like_same (reading_akin fun reply => ⟨c, reply.response, d, rfl, rfl, h⟩)
  | authRelay =>
    obtain ⟨rfl, hd⟩ := h
    refine like_same (orRaise_akin ?_)
    dsimp only
    split_ifs
    · exact exchange_akin hd rounds
    · exact again_akin hd
  | authLine k => exact like_same (reading_akin fun l => ⟨c, r, d, rfl, h⟩)
  | authForward k l => exact like_same (orRaise_akin ⟨c, r, d, rfl, h⟩)
  | authPass k =>
    obtain ⟨rfl, hd⟩ := h
    refine like_same (orRaise_akin ?_)
    dsimp only
    split_ifs
    · exact exchange_akin hd k
    · exact again_akin (s := { s with authenticated := true }) hd
    · exact again_akin hd
  | challenge stage => exact like_same (orRaise_akin ⟨c, r, d, rfl, h⟩)
  | conversation stage =>
    refine like_same (reading_akin fun l => ?_)
    split_ifs
    · exact deny_akin _
    · exact answered_akin h l.bytes stage
  | lookup username password =>
    refine like_same fun found => ?_
    cases found with
    | none => exact deny_akin _
    | some n =>
      dsimp only
      split_ifs
      · exact deny_akin _
      · exact ⟨c, .set 235, d, rfl, rfl, h⟩
  | authenticated =>
    obtain ⟨rfl, hd⟩ := h
    exact like_same (orRaise_akin (again_akin (s := { s with authenticated := true }) hd))
  | name | name' name => exact like_same fun _ => ⟨c, r, d, rfl, h⟩
  | header name name' => exact like_same (orRaise_akin (body_akin h rounds))
  | bodyLine k => exact like_same (reading_akin fun l => ⟨c, r, d, rfl, h⟩)
  | bodyForward k l =>
    refine like_same (orRaise_akin ?_)
    split_ifs
    · exact ⟨c, r, d, rfl, h⟩
    · exact body_akin h k
  | finished result => exact .finished _ _

end Config

end Spey
