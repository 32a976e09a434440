import Spey.Session.Refines
import Spey.Session.Tolerant
import Spey.Session.ToldAuthenticated

/-!
# What is known where a call is pending

The flags of a session are determined by its history. The rest of what a session
knows depends on the place it has reached: which command it handles, what it has
just sent or read, and which replies it can be about to give.
-/

namespace Spey

open Interaction

/-- The session handles the command that was read last. -/
def Current (s : Session) (h : Log) : Prop :=
  lastCommand h = some (s.command.cmd, s.command.argument)

/-- What the history says about the flags. -/
structure Shown (trusted secure authenticated errorstate : Bool) (h : Log) : Prop where
  trusted : trusted = true ↔ Once Spey.trusted h
  secure : secure = true ↔ Once handshake h
  authenticated : authenticated = true ↔ Since confers handshake h
  errorstate : errorstate = true ↔ Since refusal cleared h

abbrev Flags (s : Session) : Log → Prop := Shown s.trusted s.secure s.authenticated s.errorstate

/-- The reply that a verdict of `greylist` defers. -/
def Verdict (ctx : Context) (r : SMTPResponse) : Prop :=
  r = Config.greylisted ctx ∨ r = Config.blacklisted
  deriving Decidable

/-- The reply refuses a command for a reason of its own. -/
structure OwnError (ctx : Context) (r : SMTPResponse) : Prop where
  code : 400 ≤ r.code
  verdict : ¬ Verdict ctx r

/-- A refusal that stands has its reply deferred. -/
def Armed (ctx : Context) (s : Session) : Prop :=
  s.errorstate = true → Verdict ctx s.deferrederror

/-- The item has just been sent. -/
@[simp] def Sent (item : Item) (h : Log) : Prop := h.head? = some ⟨.inWriteline item, true⟩

/-- The item was sent, and the reply to it has just been read. -/
def Heard (item : Item) (r : SMTPResponse) (h : Log) : Prop :=
  ∃ reply past, h = ⟨.readReply, .ok reply⟩ :: past ∧ Sent item past ∧ reply.response = r

/-- The command needs the inside server, and no refusal stops it. -/
def Passing (s : Session) : Prop :=
  s.command.cmd ∉ [.HELP, .QUIT, .STARTTLS] ∧ (s.command.cmd = .DATA → s.errorstate = false)

namespace Point

def live : Point → Bool
  | .finished _ => false
  | _ => true

/-- A deferred reply has not been overwritten by another command's error. -/
def armed : Point → Bool
  | .counting _ false | .refusal | .finished _ => false
  | _ => true

/-- A command is being handled. -/
def handles : Point → Bool
  | .opening | .zone _ _ | .pause | .banner | .head | .syntaxError | .hangUp | .counting _ false
  | .refusal | .finished _ => false
  | _ => true

end Point

/-- What is known at a place. -/
def Local (ctx : Context) (h : Log) : Point → Session → Prop
  | .opening, s => s = {} ∧ h = []
  | .zone _ _, s | .pause, s => s.trusted = false
  | .banner, s => s.response.code = 220
  | .syntaxError, s => s.response = .set 500
  | .help, s => s.response = .set 214 ∧ s.command.cmd = .HELP
  | .starttls, s => s.response = .set 220 ∧ s.command.cmd = .STARTTLS ∧ s.secure = false
  | .handshake, s => s.command.cmd = .STARTTLS
  | .domain, s => s.exempt = false ∧ (s.command.cmd = .HELO ∨ s.command.cmd = .EHLO)
  | .sender, s => s.exempt = false ∧ s.command.cmd = .MAIL
  | .recipient, s | .acceptance, s | .greylisting, s => s.exempt = false ∧ s.command.cmd = .RCPT
  | .counting counter true, s => s.command.cmd = .RCPT ∧ (s.exempt = true → counter = .accepted)
  | .counting _ false, s => s.trusted = false ∧ OwnError ctx s.deferrederror
  | .refusal, s =>
      OwnError ctx s.response ∨ (Verdict ctx s.response ∧ dataRead h ∧ Since refusal cleared h)
  | .dial, s | .greeting, s => Passing s
  | .noDownstream, s => s.response = .set 421
  | .send, s => Passing s ∧ s.command.cmd ≠ .AUTH
  | .reply, s => Passing s ∧ s.command.cmd ≠ .AUTH ∧ Sent (.command s.command) h
  | .relay, s => Passing s ∧ s.command.cmd ≠ .AUTH ∧
      ∃ r, Heard (.command s.command) r h ∧ s.response = tweak ctx s.command.cmd r
  | .authSend, s | .authLine _, s | .authForward _ _, s => s.command.cmd = .AUTH
  | .authReply, s => s.command.cmd = .AUTH ∧ Sent (.command s.command) h
  | .authRelay, s => s.command.cmd = .AUTH ∧ Heard (.command s.command) s.response h
  | .authAnswer _, s => s.command.cmd = .AUTH ∧ ∃ l, Sent (.authLine l) h
  | .authPass _, s => s.command.cmd = .AUTH ∧ ∃ l, Heard (.authLine l) s.response h
  | .challenge _, s | .conversation _, s | .lookup _ _, s =>
      s.command.cmd = .AUTH ∧ s.secure = true
  | .authenticated, s => s.command.cmd = .AUTH ∧ s.secure = true ∧ s.response = .set 235
  | .name, s | .name' _, s | .header _ _, s | .bodyLine _, s | .bodyForward _ _, s =>
      s.command.cmd = .DATA ∧ s.errorstate = false
  | .bodyReply, s => s.command.cmd = .DATA ∧ s.errorstate = false ∧ ∃ l, Sent (.bodyLine l) h
  | .bodyRelay, s => s.command.cmd = .DATA ∧ s.errorstate = false ∧
      ∃ l, Heard (.bodyLine l) s.response h
  | .head, _ | .hangUp, _ | .finished _, _ => True

/-- What is known at a place, with the flags. -/
structure Holds (ctx : Context) (h : Log) (p : Point) (s : Session) : Prop where
  flags : p.live = true → Flags s h
  armed : p.armed = true → Armed ctx s
  current : p.handles = true → Current s h
  here : Local ctx h p s

abbrev Known (ctx : Context) (c : Config) (h : Log) : Prop := c.Meets (Holds ctx h)

namespace Reached

variable {ctx : Context} {rounds left : Nat} {s s' : Session} {e : Event Ans} {h : Log}

/-- Events that change no flag. -/
def plain : Event Ans → Bool
  | ⟨.testtrusted _, _⟩ | ⟨.makesecure, true⟩ | ⟨.greylist _ _ _, some .GreyListed⟩
  | ⟨.greylist _ _ _, some .BlackListed⟩ | ⟨.outReply .proxiedAuth _, _⟩
  | ⟨.outReply .authenticated _, _⟩ | ⟨.outReply .refusal _, _⟩ => false
  | _ => true

theorem plain_spec (he : plain e) : trusts e = false ∧ handshakes e = false ∧ tells e = false ∧
    refuses e = false ∧ clears e = false := by
  obtain ⟨c, x⟩ := e
  cases c with
  | testtrusted => cases he
  | makesecure => cases x <;> first | exact ⟨rfl, rfl, rfl, rfl, rfl⟩ | cases he
  | greylist => rcases x with _ | _ | _ | _ <;> first | exact ⟨rfl, rfl, rfl, rfl, rfl⟩ | cases he
  | outReply site => cases site <;> first | exact ⟨rfl, rfl, rfl, rfl, rfl⟩ | cases he
  | _ => exact ⟨rfl, rfl, rfl, rfl, rfl⟩

/-- What an event does to the flags. -/
theorem shown_cons {t t' sec sec' a a' err err' : Bool} (hs : Shown t sec a err h)
    (ht : t' = true ↔ trusts e ∨ t = true) (hsec : sec' = true ↔ handshakes e ∨ sec = true)
    (ha : a' = true ↔ confers e h ∨ ¬ handshakes e ∧ a = true)
    (herr : err' = true ↔ refuses e ∨ ¬ clears e ∧ err = true) : Shown t' sec' a' err' (e :: h) where
  trusted := by rw [ht, hs.trusted]; simp only [since_cons, Spey.trusted, not_false_eq_true, true_and]
  secure := by rw [hsec, hs.secure]; simp only [since_cons, handshake, not_false_eq_true, true_and]
  authenticated := by rw [ha, hs.authenticated]; simp only [since_cons, handshake]
  errorstate := by rw [herr, hs.errorstate]; simp only [since_cons, refusal, cleared]

theorem flags_cons (he : plain e) (hs : Flags s h) : Flags s (e :: h) := by
  obtain ⟨htrusts, hhandshakes, htells, hrefuses, hclears⟩ := plain_spec he
  refine shown_cons hs ?_ ?_ ?_ ?_
  · simp only [htrusts, Bool.false_eq_true, false_or]
  · simp only [hhandshakes, Bool.false_eq_true, false_or]
  · simp only [confers, htells, hhandshakes, Bool.false_eq_true, false_and, false_or,
      not_false_eq_true, true_and]
  · simp only [hrefuses, hclears, Bool.false_eq_true, false_or, not_false_eq_true, true_and]

theorem current_cons (he : commandLine e = none) (hs : Current s h) : Current s (e :: h) := by
  rw [Current, lastCommand_cons he]
  exact hs

theorem armed_clear (hs : s.errorstate = false) : Armed ctx s := fun herror => by
  rw [hs] at herror
  cases herror

/-- What is known while a command is handled. -/
structure Handling (ctx : Context) (s : Session) (h : Log) : Prop where
  flags : Flags s h
  armed : Armed ctx s
  current : Current s h

theorem Handling.next (hk : Handling ctx s h) (he : plain e) (hc : commandLine e = none) :
    Handling ctx s (e :: h) where
  flags := flags_cons he hk.flags
  armed := hk.armed
  current := current_cons hc hk.current

theorem Handling.holds {p : Point} (hk : Handling ctx s h) (hlocal : Local ctx h p s) :
    Holds ctx h p s :=
  ⟨fun _ => hk.flags, fun _ => hk.armed, fun _ => hk.current, hlocal⟩

theorem holds_handling {p : Point} (hs : Holds ctx h p s) (hp : p.handles = true) :
    Handling ctx s h := by
  have hlive : p.live = true ∧ p.armed = true := by
    cases p with
    | counting counter passes =>
      cases passes with
      | true => exact ⟨rfl, rfl⟩
      | false => cases hp
    | refusal | finished => cases hp
    | _ => exact ⟨rfl, rfl⟩
  exact ⟨hs.flags hlive.1, hs.armed hlive.2, hs.current hp⟩

/-- Between two commands only the flags matter. -/
theorem holds_between {p : Point} (hf : Flags s h) (ha : Armed ctx s) (hp : p.handles = false)
    (hlocal : Local ctx h p s) : Holds ctx h p s := by
  refine ⟨fun _ => hf, fun _ => ha, fun hhandles => ?_, hlocal⟩
  rw [hp] at hhandles
  cases hhandles

theorem holds_finished (r : Except Exn Unit) : Holds ctx h (.finished r) s :=
  ⟨fun hp => absurd hp Bool.false_ne_true, fun hp => absurd hp Bool.false_ne_true,
    fun hp => absurd hp Bool.false_ne_true, trivial⟩

theorem not_verdict_set (code : Nat) : ¬ Verdict ctx (.set code) := by
  rintro (hr | hr)
  · have hm := congrArg SMTPResponse.msgoverride hr
    simp [SMTPResponse.set, Config.greylisted, SMTPResponse.setMessage, greytext, text] at hm
  · have hm := congrArg SMTPResponse.msgoverride hr
    simp [SMTPResponse.set, Config.blacklisted, SMTPResponse.setMessage, text] at hm

theorem ownError_set {code : Nat} (hc : 400 ≤ code) : OwnError ctx (.set code) :=
  ⟨hc, not_verdict_set code⟩

theorem ownError_text {code : Nat} {m : Bytes} (hc : 400 ≤ code) (hgrey : m.head? ≠ some (byte 'G'))
    (hblack : m.head? ≠ some (byte 'Y')) : OwnError ctx (.setMessage code m) := by
  refine ⟨hc, ?_⟩
  rintro (hr | hr)
  · exact hgrey (congrArg (fun r => r.msgoverride.head?) hr)
  · exact hblack (congrArg (fun r => r.msgoverride.head?) hr)

theorem own_listed (rbl : Bytes) : OwnError ctx (Config.listed rbl) := by
  have hhead : (Config.listed rbl).msgoverride.head? = some (byte '5') := rfl
  refine ownError_text (by decide) ?_ ?_
  · intro hg
    exact absurd (hhead.symm.trans hg) (by decide)
  · intro hy
    exact absurd (hhead.symm.trans hy) (by decide)

theorem own_tooSoon : OwnError ctx Config.tooSoon :=
  ownError_text (by decide) (by decide) (by decide)

theorem own_illegalDomain : OwnError ctx Config.illegalDomain :=
  ownError_text (by decide) (by decide) (by decide)

theorem own_notPermitted : OwnError ctx Config.notPermitted :=
  ownError_text (by decide) (by decide) (by decide)

/-! ## The silent parts -/

theorem known_again (hf : Flags s h) (ha : Armed ctx s) : Known ctx (.again s left) h :=
  Config.again_meets (holds_between hf ha rfl trivial) (holds_finished _)

theorem holds_refusal (hf : Flags s h) (hr : Local ctx h .refusal s) : Holds ctx h .refusal s :=
  ⟨fun _ => hf, fun hp => absurd hp Bool.false_ne_true, fun hp => absurd hp Bool.false_ne_true, hr⟩

theorem holds_counting {counter : Counter} (hf : Flags s h) (ht : s.trusted = false)
    (hr : OwnError ctx s.deferrederror) : Holds ctx h (.counting counter false) s :=
  ⟨fun _ => hf, fun hp => absurd hp Bool.false_ne_true, fun hp => absurd hp Bool.false_ne_true, ht, hr⟩

theorem denied {code : Nat} (hf : Flags s h) (hcode : 400 ≤ code) :
    Known ctx (.deny s left (.set code)) h :=
  holds_refusal hf (.inl (ownError_set hcode))

theorem passing_of {verb : Verb} (hc : s.command.cmd = verb)
    (hverb : verb ∉ [.HELP, .QUIT, .STARTTLS, .DATA]) : Passing s := by
  unfold Passing
  rw [hc]
  simp only [List.mem_cons, List.not_mem_nil, or_false, not_or] at hverb ⊢
  exact ⟨⟨hverb.1, hverb.2.1, hverb.2.2.1⟩, fun hdata => absurd hdata hverb.2.2.2⟩

theorem second (hk : Handling ctx s h) (hs : Passing s) : Config.Second (Holds ctx h) s where
  send hauth := hk.holds ⟨hs, hauth⟩
  authSend hauth := hk.holds hauth
  challenge hauth hsecure _ := hk.holds ⟨hauth, hsecure⟩
  lookup hauth hsecure _ _ := hk.holds ⟨hauth, hsecure⟩
  deny _ code hcode := by
    simp only [List.mem_cons, List.not_mem_nil, or_false] at hcode
    exact holds_refusal hk.flags (.inl (ownError_set (by omega)))

theorem proceed (hk : Handling ctx s h) (hs : Passing s) : Config.Proceed (Holds ctx h) s where
  dial _ := hk.holds hs
  second _ := second hk hs

/-- After a line was read that parses. -/
theorem dispatch (hk : Handling ctx s h) (hdata : s.command.cmd = .DATA → dataRead h) :
    Config.Dispatch ctx (Holds ctx h) s where
  help hcmd := Handling.holds ⟨hk.flags, hk.armed, hk.current⟩ ⟨rfl, hcmd⟩
  quit _ := holds_finished _
  starttls hcmd hsecure := Handling.holds ⟨hk.flags, hk.armed, hk.current⟩ ⟨rfl, hcmd, hsecure⟩
  deny _ code hcode := by
    simp only [List.mem_cons, List.not_mem_nil, or_false] at hcode
    exact holds_refusal hk.flags (.inl (ownError_set (by omega)))
  domain hcmd hexempt := hk.holds ⟨hexempt, hcmd⟩
  sender hcmd hexempt := Handling.holds ⟨hk.flags, hk.armed, hk.current⟩ ⟨hexempt, hcmd⟩
  mail hcmd _ := proceed ⟨hk.flags, hk.armed, hk.current⟩ (passing_of hcmd (by decide))
  recipient hcmd hexempt := hk.holds ⟨hexempt, hcmd⟩
  accepted hcmd _ := hk.holds ⟨hcmd, fun _ => rfl⟩
  rset hcmd := proceed ⟨hk.flags, hk.armed, hk.current⟩ (passing_of hcmd (by decide))
  refused hcmd herror := by
    have hsince := hk.flags.errorstate.mp herror
    exact holds_refusal hk.flags (.inr ⟨hk.armed herror, hdata hcmd, hsince⟩)
  data hcmd herror := proceed hk (by simp [Passing, hcmd, herror])
  passed hcmd _ := by
    apply proceed hk
    rcases hcmd with hcmd | hcmd | hcmd <;> exact passing_of hcmd (by decide)
  other hcmd := by
    apply proceed hk
    simp only [List.mem_cons, List.not_mem_nil, or_false] at hcmd
    rcases hcmd with hcmd | hcmd | hcmd | hcmd <;> exact passing_of hcmd (by decide)

/-! ## One step -/

theorem zones_known {rbls : List Bytes} (hf : Flags s h) (ha : Armed ctx s)
    (ht : s.trusted = false) : Known ctx (.zones ctx s left rbls) h := by
  refine Config.zones_meets (fun _ _ => ?_) ?_ ?_
  · exact holds_between hf ha rfl ht
  · exact holds_between hf ha rfl ht
  · exact holds_between hf ha rfl rfl

theorem opening_step (hs : Holds ctx h .opening s) :
    (machine ctx rounds ⟨.opening, s, left⟩).All fun e c => Known ctx c (e :: h) := by
  obtain ⟨rfl, rfl⟩ := hs.here
  intro answer
  cases answer with
  | none => exact holds_finished _
  | some trusted =>
    have hf : Flags { trusted } [⟨.testtrusted ctx.address, some trusted⟩] := by
      cases trusted <;> exact ⟨by simp, by simp, by simp, by simp⟩
    have ha : Armed ctx { trusted } := armed_clear rfl
    cases trusted with
    | false => exact zones_known hf ha rfl
    | true => exact holds_between hf ha rfl rfl

theorem not_trusted (hs : s.exempt = false) : s.trusted = false :=
  (Bool.or_eq_false_iff.mp hs).2

/-- A verdict: a refused recipient arms the session. -/
theorem greylisting_step (hs : Holds ctx h .greylisting s) :
    (machine ctx rounds ⟨.greylisting, s, left⟩).All fun e c => Known ctx c (e :: h) := by
  have hk := holds_handling hs rfl
  obtain ⟨hno, hcmd⟩ := hs.here
  intro answer
  have hc := current_cons (e := ⟨.greylist (network24 ctx.address) s._from.bytes
    s.command.parameter.bytes, answer⟩) rfl hk.current
  have hcounter : ∀ counter, s.exempt = true → counter = Counter.accepted := fun _ hexempt => by
    rw [hno] at hexempt
    cases hexempt
  have hrefused : ∀ v, v ≠ .Accepted → Shown s.trusted s.secure s.authenticated true
      (⟨.greylist (network24 ctx.address) s._from.bytes s.command.parameter.bytes, some v⟩ :: h) := by
    intro v hv
    cases v with
    | Accepted => exact absurd rfl hv
    | BlackListed => exact shown_cons hk.flags (by simp) (by simp) (by simp) (by simp)
    | GreyListed => exact shown_cons hk.flags (by simp) (by simp) (by simp) (by simp)
  rcases answer with _ | _ | _ | _
  · exact holds_finished _
  · exact (hk.next rfl rfl).holds ⟨hcmd, hcounter _⟩
  · exact Handling.holds ⟨hrefused .BlackListed (by decide), fun _ => .inr rfl, hc⟩ ⟨hcmd, hcounter _⟩
  · exact Handling.holds ⟨hrefused .GreyListed (by decide), fun _ => .inl rfl, hc⟩ ⟨hcmd, hcounter _⟩

/-- A reply to a line of the proxied exchange: a 235 confers the right to relay. -/
theorem authPass_step {k : Nat} (hs : Holds ctx h (.authPass k) s) :
    (machine ctx rounds ⟨.authPass k, s, left⟩).All fun e c => Known ctx c (e :: h) := by
  have hk := holds_handling hs rfl
  obtain ⟨hauth, l, r, past, rfl, hsent, hr⟩ := hs.here
  intro written
  cases written with
  | false => exact holds_finished _
  | true =>
    refine Config.ite_meets (fun hchallenge => ?_) fun hno => Config.ite_meets (fun haccepted => ?_)
      fun hother => ?_
    · have hf : Flags s (⟨.outReply .proxiedAuth s.response, true⟩ :: ⟨.readReply, .ok r⟩ :: past) :=
        shown_cons hk.flags (by simp) (by simp) (by simp [hchallenge]) (by simp)
      have hk := Handling.mk hf hk.armed (current_cons rfl hk.current)
      exact Config.exchange_meets (fun _ => hk.holds hauth) (holds_finished _)
    · refine known_again ?_ hk.armed
      exact shown_cons hk.flags (by simp) (by simp) (by simp_all) (by simp)
    · refine known_again ?_ hk.armed
      exact shown_cons hk.flags (by simp) (by simp) (by simp [hother]) (by simp)

/-- The reply to the AUTH command itself: even a 235 confers nothing here, as no line of
an exchange was sent. -/
theorem authRelay_step (hs : Holds ctx h .authRelay s) :
    (machine ctx rounds ⟨.authRelay, s, left⟩).All fun e c => Known ctx c (e :: h) := by
  have hk := holds_handling hs rfl
  obtain ⟨hauth, r, past, rfl, hsent, hr⟩ := hs.here
  intro written
  have hf : Flags s (⟨.outReply .proxiedAuth s.response, written⟩ :: ⟨.readReply, .ok r⟩ :: past) :=
    shown_cons hk.flags (by simp) (by simp) (by simp_all) (by simp)
  have hk : Handling ctx s _ := ⟨hf, hk.armed, current_cons rfl hk.current⟩
  refine Config.orRaise_meets (holds_finished _) (Config.ite_meets (fun _ => ?_) fun _ => ?_) written
  · exact Config.exchange_meets (fun _ => hk.holds hauth) (holds_finished _)
  · exact known_again hf hk.armed

/-- After a handshake nothing of the session before it is left. -/
theorem handshake_step (hs : Holds ctx h .handshake s) :
    (machine ctx rounds ⟨.handshake, s, left⟩).All fun e c => Known ctx c (e :: h) := by
  intro secured
  cases secured with
  | false => exact holds_finished _
  | true =>
    have hf : Flags (Config.secured s) (⟨.makesecure, true⟩ :: h) :=
      shown_cons (hs.flags rfl) (by simp [Config.secured]) (by simp [Config.secured])
        (by simp [Config.secured]) (by simp [Config.secured])
    have ha : Armed ctx (Config.secured s) := armed_clear rfl
    refine Config.ite_meets (fun _ => ?_) fun _ => ?_
    · exact holds_between hf ha rfl trivial
    · exact known_again hf ha

theorem known_step {c : Config} (hs : Known ctx c h) :
    (machine ctx rounds c).All fun e c => Known ctx c (e :: h) := by
  obtain ⟨point, s, left⟩ := c
  have hs : Holds ctx h point s := hs
  have hlocal := hs.here
  -- a plain event leaves what is known as it is
  have hf : ∀ {e}, plain e → point.live = true → Flags s (e :: h) := fun he hp =>
    flags_cons he (hs.flags hp)
  have hk : ∀ {e}, plain e → commandLine e = none → point.handles = true →
      Handling ctx s (e :: h) := fun he hc hp => (holds_handling hs hp).next he hc
  cases point with
  | opening => exact opening_step hs
  | handshake => exact handshake_step hs
  | greylisting => exact greylisting_step hs
  | authRelay => exact authRelay_step hs
  | authPass => exact authPass_step hs
  | zone rbl rbls =>
    intro listed
    cases listed with
    | false => exact zones_known (hf rfl rfl) (hs.armed rfl) hlocal
    | true => exact holds_counting (hf rfl rfl) hlocal (own_listed rbl)
  | pause =>
    intro early
    cases early with
    | false => exact holds_between (hf rfl rfl) (hs.armed rfl) rfl rfl
    | true => exact holds_counting (hf rfl rfl) hlocal own_tooSoon
  | banner | help | bodyRelay =>
    intro written
    refine Config.orRaise_meets (holds_finished _) ?_ written
    exact known_again (hf rfl rfl) (hs.armed rfl)
  | syntaxError =>
    intro written
    refine Config.orRaise_meets (holds_finished _) (Config.ite_meets (fun _ => ?_) fun _ => ?_) written
    · exact holds_finished _
    · exact known_again (hf rfl rfl) (hs.armed rfl)
  | starttls =>
    intro written
    refine Config.orRaise_meets (holds_finished _) ?_ written
    exact (hk rfl rfl rfl).holds hlocal.2.1
  | hangUp =>
    intro answer
    exact known_again (hf rfl rfl) (hs.armed rfl)
  | head =>
    intro line
    rcases line with e | l
    · exact holds_finished _
    have hf : Flags s (⟨.outReadline .command, .ok l⟩ :: h) := hf rfl rfl
    refine Config.parsed_meets (fun _ => ?_) fun c hset => ?_
    · exact holds_between hf (hs.armed rfl) rfl rfl
    · have hparse := SMTPCommand.set_some hset
      refine dispatch ⟨hf, hs.armed rfl, hparse⟩ fun hdata => ?_
      exact (congrArg (Option.map Prod.fst) hparse).trans (congrArg some hdata)
  | domain =>
    intro answer
    refine Config.ite_meets (fun _ => ?_) fun _ => ?_
    · have hpassing : Passing s :=
        hlocal.2.elim (passing_of · (by decide)) (passing_of · (by decide))
      exact (proceed (hk rfl rfl rfl) hpassing).meets
    · exact holds_counting (hf rfl rfl) (not_trusted hlocal.1) own_illegalDomain
  | sender =>
    intro answer
    refine Config.ite_meets (fun _ => ?_) fun _ => ?_
    · exact (proceed (hk rfl rfl rfl) (passing_of hlocal.2 (by decide))).meets
    · exact holds_counting (hf rfl rfl) (not_trusted hlocal.1) (ownError_set (by decide))
  | recipient =>
    intro answer
    refine Config.ite_meets (fun _ => ?_) fun _ => ?_
    · exact (hk rfl rfl rfl).holds hlocal
    · exact holds_counting (hf rfl rfl) (not_trusted hlocal.1) (ownError_set (by decide))
  | acceptance =>
    intro answer
    refine Config.querying_meets (holds_finished _) (fun accepted => ?_) answer
    refine Config.ite_meets (fun _ => ?_) fun _ => ?_
    · exact (hk rfl rfl rfl).holds hlocal
    · exact holds_counting (hf rfl rfl) (not_trusted hlocal.1) own_notPermitted
  | counting counter passes =>
    intro counted
    refine Config.orRaise_meets (holds_finished _) ?_ counted
    cases passes with
    | true => exact (proceed (hk rfl rfl rfl) (passing_of hlocal.1 (by decide))).meets
    | false => exact holds_refusal (hf rfl rfl) (.inl hlocal.2)
  | refusal =>
    intro written
    cases written with
    | false => exact holds_finished _
    | true =>
      refine Config.refused_meets (fun _ => holds_finished _) fun _ => known_again ?_ ?_
      · exact shown_cons (hs.flags rfl) (by simp) (by simp) (by simp) (by simp)
      · exact armed_clear rfl
  | dial =>
    intro connected
    have hk := holds_handling hs rfl
    cases connected with
    | false => exact Handling.holds ⟨hf rfl rfl, hk.armed, current_cons rfl hk.current⟩ rfl
    | true => exact (hk.next rfl rfl).holds hlocal
  | greeting =>
    intro greeting
    have hk : Handling ctx s (⟨.readReply, greeting⟩ :: h) := hk rfl rfl rfl
    have hno : Known ctx ⟨.noDownstream, { s with response := .set 421 }, left⟩ _ :=
      Handling.holds ⟨hk.flags, hk.armed, hk.current⟩ rfl
    rcases greeting with e | r
    · exact hno
    · refine Config.ite_meets (fun _ => ?_) fun _ => hno
      have hk : Handling ctx { s with response := r.response, connected := true } _ :=
        ⟨hk.flags, hk.armed, hk.current⟩
      exact (second hk hlocal).meets
  | noDownstream =>
    intro written
    exact holds_finished _
  | send =>
    intro sent
    cases sent with
    | false => exact holds_finished _
    | true => exact (hk rfl rfl rfl).holds ⟨hlocal.1, hlocal.2, rfl⟩
  | reply =>
    intro answer
    rcases answer with e | r
    · exact holds_finished _
    · have hk : Handling ctx s (⟨.readReply, .ok r⟩ :: h) := hk rfl rfl rfl
      exact Handling.holds ⟨hk.flags, hk.armed, hk.current⟩
        ⟨hlocal.1, hlocal.2.1, _, ⟨r, h, rfl, hlocal.2.2, rfl⟩, rfl⟩
  | relay =>
    intro written
    have hk : Handling ctx s (⟨.outReply .relay s.response, written⟩ :: h) := hk rfl rfl rfl
    refine Config.orRaise_meets (holds_finished _) ?_ written
    refine Config.third_meets (fun _ _ => holds_finished _) (fun hdata _ => ?_)
      (fun _ => holds_finished _) fun _ => known_again hk.flags hk.armed
    have herrorstate := hlocal.1.2 hdata
    exact Config.naming_meets (hk.holds ⟨hdata, herrorstate⟩) fun _ _ => hk.holds ⟨hdata, herrorstate⟩
  | authSend =>
    intro sent
    cases sent with
    | false => exact holds_finished _
    | true => exact (hk rfl rfl rfl).holds ⟨hlocal, rfl⟩
  | authReply =>
    intro answer
    rcases answer with e | r
    · exact holds_finished _
    · have hk : Handling ctx s (⟨.readReply, .ok r⟩ :: h) := hk rfl rfl rfl
      exact Handling.holds ⟨hk.flags, hk.armed, hk.current⟩ ⟨hlocal.1, r, h, rfl, hlocal.2, rfl⟩
  | authLine k =>
    intro line
    refine Config.reading_meets (fun _ => holds_finished _) (fun l => ?_) line
    exact (hk rfl rfl rfl).holds hlocal
  | authForward k l =>
    intro sent
    cases sent with
    | false => exact holds_finished _
    | true => exact (hk rfl rfl rfl).holds ⟨hlocal, l, rfl⟩
  | authAnswer k =>
    intro answer
    obtain ⟨hauth, l, hsent⟩ := hlocal
    rcases answer with e | r
    · exact holds_finished _
    · have hk : Handling ctx s (⟨.readReply, .ok r⟩ :: h) := hk rfl rfl rfl
      exact Handling.holds ⟨hk.flags, hk.armed, hk.current⟩ ⟨hauth, l, r, h, rfl, hsent, rfl⟩
  | challenge stage =>
    intro written
    refine Config.orRaise_meets (holds_finished _) ?_ written
    exact (hk rfl rfl rfl).holds hlocal
  | conversation stage =>
    intro line
    have hk : Handling ctx s (⟨.outReadline .conversation, line⟩ :: h) := hk rfl rfl rfl
    refine Config.reading_meets (fun _ => holds_finished _) (fun l => ?_) line
    refine Config.ite_meets (fun _ => denied hk.flags (by decide)) fun _ => ?_
    refine Config.answered_meets (fun _ => hk.holds hlocal) fun _ => ?_
    exact Config.credentials_meets (holds_refusal hk.flags (.inl (ownError_set (by decide))))
      fun _ _ => hk.holds hlocal
  | lookup username password =>
    intro found
    have hk : Handling ctx s (⟨.users username password, found⟩ :: h) := hk rfl rfl rfl
    rcases found with _ | n
    · exact denied hk.flags (by decide)
    · refine Config.ite_meets (fun _ => denied hk.flags (by decide)) fun _ => ?_
      exact Handling.holds ⟨hk.flags, hk.armed, hk.current⟩ ⟨hlocal.1, hlocal.2, rfl⟩
  | authenticated =>
    intro written
    obtain ⟨-, -, hr⟩ := hlocal
    cases written with
    | false => exact holds_finished _
    | true =>
      refine known_again ?_ (hs.armed rfl)
      exact shown_cons (hs.flags rfl) (by simp) (by simp) (by simp [hr, SMTPResponse.set]) (by simp)
  | name =>
    intro name
    exact (hk rfl rfl rfl).holds hlocal
  | name' name =>
    intro name'
    exact (hk rfl rfl rfl).holds hlocal
  | header name name' =>
    intro sent
    refine Config.orRaise_meets (holds_finished _) ?_ sent
    exact Config.body_meets (fun _ => (hk rfl rfl rfl).holds hlocal) (holds_finished _)
  | bodyLine k =>
    intro line
    refine Config.reading_meets (fun _ => holds_finished _) (fun l => ?_) line
    exact (hk rfl rfl rfl).holds hlocal
  | bodyForward k l =>
    intro sent
    have hk : Handling ctx s (⟨.inWriteline (.bodyLine l), sent⟩ :: h) := hk rfl rfl rfl
    cases sent with
    | false => exact holds_finished _
    | true =>
      refine Config.ite_meets (fun _ => hk.holds ⟨hlocal.1, hlocal.2, l, rfl⟩) fun _ => ?_
      exact Config.body_meets (fun _ => hk.holds hlocal) (holds_finished _)
  | bodyReply =>
    intro answer
    obtain ⟨hdata, herrorstate, l, hsent⟩ := hlocal
    rcases answer with e | r
    · exact holds_finished _
    · have hk : Handling ctx s (⟨.readReply, .ok r⟩ :: h) := hk rfl rfl rfl
      exact Handling.holds ⟨hk.flags, hk.armed, hk.current⟩
        ⟨hdata, herrorstate, l, r, h, rfl, hsent, rfl⟩
  | finished r => trivial

end Reached

/-- What is known wherever a session gets. -/
theorem known {ctx : Context} {rounds left : Nat} {c : Config} {h : Log}
    (hc : (machine ctx rounds).On (initial left) c h) : Known ctx c h := by
  refine hc.invariant ?_ fun c h hs => Reached.known_step hs
  refine ⟨fun _ => ?_, fun _ herror => ?_, fun hp => ?_, rfl, rfl⟩
  · exact ⟨by simp [initial], by simp [initial], by simp [initial], by simp [initial]⟩
  · cases herror
  · cases hp

end Spey
