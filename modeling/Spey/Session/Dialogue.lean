import Spey.Interaction.Monitor
import Spey.Session.Reached
import Spey.World

/-!
# The dialogue with the client

A monitor follows what is said to the client and by it: the banner, and then for
each command line one final reply, after the intermediate one to an accepted DATA
or the challenges of an AUTH exchange. All commands are answered in this way but
the one that ends the session: QUIT returns from the first switch, and the places
that would pass it on and relay its reply are never reached.
-/

namespace Spey

open Interaction

inductive Dialogue where
  /-- the banner was not written -/
  | silent
  /-- every command that was read has its final reply -/
  | settled
  /-- a line was read as a command; `none` where it does not parse -/
  | asked (verb : Option Verb)
  /-- the message of an accepted DATA is awaited -/
  | inviting
  /-- a line of an AUTH exchange is awaited -/
  | challenged
  /-- such a line was read -/
  | answering
  deriving DecidableEq

namespace Dialogue

def reply : Dialogue → SMTPResponse → Option Dialogue
  | asked verb, r =>
      some (if verb = some .DATA ∧ r.issuccess then inviting
        else if verb = some .AUTH ∧ r.code = 334 then challenged else settled)
  | answering, r => some (if r.code = 334 then challenged else settled)
  | inviting, _ => some settled
  | _, _ => none

def hear : Dialogue → ReadSite → Line → Option Dialogue
  | settled, .command, l => some (asked ((SMTPCommand.parse l.bytes).map Prod.fst))
  | challenged, .authLine, _ | challenged, .conversation, _ => some answering
  | inviting, .bodyLine, _ => some inviting
  | _, _, _ => none

def step (d : Dialogue) : Event Ans → Option Dialogue
  | ⟨.outReply site r, written⟩ =>
      if written then
        if site = .banner then (if d = silent then some settled else none) else d.reply r
      else some d
  | ⟨.outReadline site, .ok l⟩ => d.hear site l
  | _ => some d

end Dialogue

/-- The banner, and then for each command its replies. -/
def dialogue : Monitor Ans Dialogue := ⟨.silent, Dialogue.step⟩

@[simp] def greets : Event Ans → Bool
  | ⟨.outReply .banner _, true⟩ => true
  | _ => false

/-- The banner was written. -/
@[simp] def greeted (e : Event Ans) (_ : Log) : Prop := greets e
  deriving Decidable

namespace InDialogue

variable {ctx : Context} {rounds left : Nat} {s : Session} {h : Log} {d : Dialogue}

/-- What is owed to the client at a place, once it has got the banner. -/
def Owed : Point → Session → Dialogue → Prop
  | .opening, _, _ | .zone _ _, _, _ | .pause, _, _ | .banner, _, _ => False
  | .head, _, d | .handshake, _, d | .hangUp, _, d => d = .settled
  | .syntaxError, _, d => d = .asked none
  | .conversation _, _, d | .authLine _, _, d => d = .challenged
  | .authForward _ _, _, d | .authAnswer _, _, d | .authPass _, _, d => d = .answering
  | .name, _, d | .name' _, _, d | .header _ _, _, d | .bodyLine _, _, d | .bodyForward _ _, _, d
  | .bodyReply, _, d | .bodyRelay, _, d => d = .inviting
  | .challenge _, s, d | .lookup _ _, s, d | .authenticated, s, d | .refusal, s, d =>
      d = .asked (some s.command.cmd) ∨ d = .answering
  | .finished r, _, d => r = .ok () → d = .asked (some .QUIT)
  | _, s, d => d = .asked (some s.command.cmd)

def door : Point → Bool
  | .opening | .zone _ _ | .pause | .banner => true
  | _ => false

structure Follows (c : Config) (h : Log) : Prop where
  silent : door c.point = true → dialogue.At .silent h
  owed : Once greeted h → ∃ d, dialogue.At d h ∧ c.Meets fun p s => Owed p s d

theorem not_door {p : Point} (ho : Owed p s d) : door p = false := by
  cases p with
  | opening | zone | pause | banner => exact ho.elim
  | _ => rfl

theorem owed_some {p : Point} (hp : door p = false) : ∃ d, Owed p s d := by
  cases p with
  | opening | zone | pause | banner => cases hp
  | challenge | lookup | authenticated | refusal => exact ⟨_, .inr rfl⟩
  | finished r => exact ⟨_, fun _ => rfl⟩
  | _ => exact ⟨_, rfl⟩

/-- A step of the session and one of the monitor. -/
theorem Follows.step {c c' : Config} {e : Event Ans} (hs : Follows c h) (hdoor : door c.point = false)
    (he : greets e = false) (howed : ∀ d, c.Meets (fun p s => Owed p s d) →
      ∃ d', d.step e = some d' ∧ c'.Meets fun p s => Owed p s d') : Follows c' (e :: h) := by
  constructor
  · intro hdoor'
    obtain ⟨d, ho⟩ := owed_some (s := c.session) hdoor
    obtain ⟨d', -, ho'⟩ := howed d ho
    rw [not_door ho'] at hdoor'
    cases hdoor'
  · intro honce
    rcases (since_cons _ _ _ _).mp honce with hnow | ⟨-, honce⟩
    · rw [greeted, he] at hnow
      cases hnow
    · obtain ⟨d, hd, ho⟩ := hs.owed honce
      obtain ⟨d', hstep, ho'⟩ := howed d ho
      exact ⟨d', hd.cons hstep, ho'⟩

/-- The client notices nothing. -/
theorem Follows.keep {c c' : Config} {e : Event Ans} (hs : Follows c h) (hdoor : door c.point = false)
    (he : greets e = false) (hstep : ∀ d, Dialogue.step d e = some d)
    (howed : ∀ d, c.Meets (fun p s => Owed p s d) → c'.Meets fun p s => Owed p s d) :
    Follows c' (e :: h) :=
  hs.step hdoor he fun d ho => ⟨d, hstep d, howed d ho⟩

/-- A session that fails owes nothing. -/
theorem owed_raised {e : Exn} : Owed (.finished (.error e)) s d := fun hr => by cases hr

/-- A reply is written. -/
theorem Follows.tell {c next : Config} {site : ReplySite} {r : SMTPResponse} {written : Bool}
    (hs : Follows c h) (hdoor : door c.point = false) (hsite : site ≠ .banner)
    (howed : ∀ d, c.Meets (fun p s => Owed p s d) →
      ∃ d', d.reply r = some d' ∧ next.Meets fun p s => Owed p s d') :
    Follows (Config.orRaise s left .network next written) (⟨.outReply site r, written⟩ :: h) := by
  cases written with
  | false =>
    apply hs.step hdoor (by cases site <;> rfl)
    exact fun d _ => ⟨d, rfl, owed_raised (s := s)⟩
  | true =>
    apply hs.step hdoor (by cases site <;> first | rfl | exact absurd rfl hsite)
    intro d ho
    obtain ⟨d', hreply, ho'⟩ := howed d ho
    exact ⟨d', (if_neg hsite).trans hreply, ho'⟩

/-- A line is read. -/
theorem Follows.hear {c : Config} {site : ReadSite} {next : Line → Config}
    {answer : Except ReadFailure Line} (hs : Follows c h) (hdoor : door c.point = false)
    (howed : ∀ l d, c.Meets (fun p s => Owed p s d) →
      ∃ d', d.hear site l = some d' ∧ (next l).Meets fun p s => Owed p s d') :
    Follows (Config.reading s left next answer) (⟨.outReadline site, answer⟩ :: h) := by
  cases answer with
  | error e => exact hs.keep hdoor rfl (fun _ => rfl) fun _ _ => owed_raised (s := s)
  | ok l => exact hs.step hdoor rfl (howed l)

/-- Before the banner, nothing is said. -/
theorem Follows.wait {c c' : Config} {e : Event Ans} (hs : Follows c h) (hdoor : door c.point = true)
    (he : greets e = false) (hstep : Dialogue.step .silent e = some .silent ∨ door c'.point = false) :
    Follows c' (e :: h) := by
  constructor
  · intro hdoor'
    rcases hstep with hstep | hinside
    · exact (hs.silent hdoor).cons hstep
    · rw [hinside] at hdoor'
      cases hdoor'
  · intro honce
    rcases (since_cons _ _ _ _).mp honce with hnow | ⟨-, honce⟩
    · rw [greeted, he] at hnow
      cases hnow
    · obtain ⟨d, -, ho⟩ := hs.owed honce
      rw [not_door ho] at hdoor
      cases hdoor

/-! ## The silent parts -/

theorem owed_again : (Config.again s left).Meets fun p s => Owed p s .settled :=
  Config.again_meets rfl owed_raised

theorem owed_second : Config.Second (fun p s' => Owed p s' (.asked (some s.command.cmd))) s where
  send _ := rfl
  authSend _ := rfl
  challenge _ _ _ := .inl rfl
  lookup _ _ _ _ := .inl rfl
  deny _ _ _ := .inl rfl

theorem owed_proceed : Config.Proceed (fun p s' => Owed p s' (.asked (some s.command.cmd))) s where
  dial _ := rfl
  second _ := owed_second

theorem owed_dispatch :
    Config.Dispatch ctx (fun p s' => Owed p s' (.asked (some s.command.cmd))) s where
  help _ := rfl
  quit hc _ := by rw [hc]
  starttls _ _ := rfl
  deny _ _ _ := .inl rfl
  domain _ _ := rfl
  sender _ _ := rfl
  mail _ _ := owed_proceed (s := { s with _from := s.command.parameter })
  recipient _ _ := rfl
  accepted _ _ := rfl
  rset _ := owed_proceed (s := { s with _from := ⟨[], oneLine_nil⟩ })
  refused _ _ := .inl rfl
  data _ _ := owed_proceed
  passed _ _ := owed_proceed
  other _ := owed_proceed

/-! ## One step -/

/-- A final reply. -/
theorem reply_settles {verb : Option Verb} {r : SMTPResponse} (hd : d = .asked verb ∨ d = .answering)
    (hdata : verb = some .DATA → r.issuccess = false) (hauth : r.code ≠ 334) :
    d.reply r = some .settled := by
  rcases hd with rfl | rfl
  · have hnot : ¬ (verb = some .DATA ∧ r.issuccess = true) := fun hboth => by
      rw [hdata hboth.1] at hboth
      cases hboth.2
    rw [Dialogue.reply, if_neg hnot, if_neg fun hboth => hauth hboth.2]
  · rw [Dialogue.reply, if_neg hauth]

/-- A challenge. -/
theorem reply_challenges {r : SMTPResponse} (hd : d = .asked (some .AUTH) ∨ d = .answering)
    (hcode : r.code = 334) : d.reply r = some .challenged := by
  rcases hd with rfl | rfl
  · rw [Dialogue.reply, if_neg fun hboth => Verb.noConfusion (Option.some.inj hboth.1),
      if_pos ⟨rfl, hcode⟩]
  · rw [Dialogue.reply, if_pos hcode]

theorem refusal_code (hl : Local ctx h .refusal s) : 400 ≤ s.response.code := by
  rcases hl with hown | ⟨hgrey | hblack, -⟩
  · exact hown.code
  · rw [hgrey]
    exact (by decide : 400 ≤ 451)
  · rw [hblack]
    exact (by decide : 400 ≤ 554)

theorem not_success {r : SMTPResponse} (hcode : 400 ≤ r.code) : r.issuccess = false := by
  rw [SMTPResponse.issuccess, decide_eq_false_iff_not]
  omega

/-- After an accepted DATA the message is transferred. -/
theorem third_data (hc : s.command.cmd = .DATA) (hsuccess : s.response.issuccess = true) :
    Config.third ctx s left = Config.naming ctx s left := by
  have hno : ¬ (s.response.iserror = true ∧ ctx.settings.intolerant ≠ 0) := by
    intro herror
    have h5 : s.response.code / 100 = 5 := of_decide_eq_true herror.1
    have h23 : s.response.code / 100 = 2 ∨ s.response.code / 100 = 3 := of_decide_eq_true hsuccess
    omega
  rw [Config.third, if_neg hno, hc]
  exact if_pos hsuccess

/-- The reply to a command is relayed. -/
theorem owed_third (hpassing : Passing s) (hauth : s.command.cmd ≠ .AUTH) :
    ∃ d, Dialogue.reply (.asked (some s.command.cmd)) s.response = some d ∧
      (Config.third ctx s left).Meets fun p s => Owed p s d := by
  have hquit : s.command.cmd ≠ .QUIT := fun hc => hpassing.1 (by rw [hc]; decide)
  by_cases hdata : s.command.cmd = .DATA ∧ s.response.issuccess = true
  · refine ⟨.inviting, ?_, ?_⟩
    · rw [Dialogue.reply, if_pos ⟨congrArg some hdata.1, hdata.2⟩]
    · rw [third_data hdata.1 hdata.2]
      exact Config.naming_meets rfl fun _ _ => rfl
  · refine ⟨.settled, ?_, ?_⟩
    · rw [Dialogue.reply, if_neg fun hboth => hdata ⟨Option.some.inj hboth.1, hboth.2⟩,
        if_neg fun hboth => hauth (Option.some.inj hboth.1)]
    · exact Config.third_meets (fun _ _ => owed_raised) (fun hc hsuccess => absurd ⟨hc, hsuccess⟩ hdata)
        (fun hc => absurd hc hquit) fun _ => owed_again

theorem follows_step {c : Config} (hk : Known ctx c h) (hs : Follows c h) :
    (machine ctx rounds c).All fun e c' => Follows c' (e :: h) := by
  obtain ⟨point, s, left⟩ := c
  cases point with
  | opening | zone | pause => exact fun x => hs.wait rfl rfl (.inl rfl)
  | banner =>
    intro written
    have hinside : door (Config.again s left).point = false :=
      Config.again_meets (P := fun p _ => door p = false) rfl rfl
    cases written with
    | false => exact hs.wait rfl rfl (.inr rfl)
    | true =>
      refine ⟨fun hdoor => absurd (hinside.symm.trans hdoor) Bool.false_ne_true, fun _ => ?_⟩
      exact ⟨.settled, (hs.silent rfl).cons rfl, owed_again⟩
  | head =>
    refine fun line => hs.hear rfl fun l d ho => ?_
    obtain rfl : d = .settled := ho
    refine ⟨_, rfl, ?_⟩
    unfold Config.parsed
    cases hset : s.command.set l with
    | none =>
      rw [SMTPCommand.set_none hset]
      rfl
    | some c =>
      rw [SMTPCommand.set_some hset]
      exact owed_dispatch.meets
  | syntaxError =>
    refine fun written => hs.tell rfl (by decide) fun d ho => ?_
    refine ⟨.settled, reply_settles (.inl ho) (fun hdata => by cases hdata) ?_, ?_⟩
    · rw [show s.response = .set 500 from hk.here]
      decide
    · exact Config.ite_meets (fun _ => owed_raised (s := s)) fun _ => owed_again
  | help =>
    refine fun written => hs.tell rfl (by decide) fun d ho => ?_
    refine ⟨.settled, reply_settles (.inl ho) (fun hdata => ?_) ?_, owed_again⟩
    · rw [hk.here.2] at hdata
      cases hdata
    · rw [hk.here.1]
      decide
  | starttls =>
    refine fun written => hs.tell rfl (by decide) fun d ho => ?_
    refine ⟨.settled, reply_settles (.inl ho) (fun hdata => ?_) ?_, rfl⟩
    · rw [hk.here.2.1] at hdata
      cases hdata
    · rw [hk.here.1]
      decide
  | handshake =>
    refine fun secured => hs.keep rfl rfl (fun _ => rfl) fun d ho => ?_
    obtain rfl : d = .settled := ho
    cases secured with
    | false => exact owed_raised (s := s)
    | true => exact Config.ite_meets (fun _ => rfl) fun _ => owed_again
  | hangUp =>
    refine fun _ => hs.keep rfl rfl (fun _ => rfl) fun d ho => ?_
    obtain rfl : d = .settled := ho
    exact owed_again
  | domain | sender =>
    refine fun _ => hs.keep rfl rfl (fun _ => rfl) fun d ho => ?_
    obtain rfl : d = .asked (some s.command.cmd) := ho
    exact Config.ite_meets (fun _ => owed_proceed.meets) fun _ => rfl
  | recipient =>
    refine fun _ => hs.keep rfl rfl (fun _ => rfl) fun d ho => ?_
    exact Config.ite_meets (fun _ => ho) fun _ => ho
  | acceptance =>
    refine fun answer => hs.keep rfl rfl (fun _ => rfl) fun d ho => ?_
    refine Config.querying_meets owed_raised (fun accepted => ?_) answer
    exact Config.ite_meets (fun _ => ho) fun _ => ho
  | greylisting =>
    refine fun answer => hs.keep rfl rfl (fun _ => rfl) fun d ho => ?_
    refine Config.querying_meets owed_raised (fun verdict => ?_) answer
    cases verdict with
    | Accepted | GreyListed | BlackListed => exact ho
  | counting counter passes =>
    refine fun counted => hs.keep rfl rfl (fun _ => rfl) fun d ho => ?_
    obtain rfl : d = .asked (some s.command.cmd) := ho
    refine Config.orRaise_meets owed_raised ?_ counted
    exact Config.ite_meets (fun _ => owed_proceed.meets) fun _ => .inl rfl
  | refusal =>
    have hcode : 400 ≤ s.response.code := refusal_code hk.here
    have hno : s.response.code ≠ 334 := by omega
    refine fun written => hs.tell rfl (by decide) fun d ho => ?_
    refine ⟨.settled, reply_settles ho (fun _ => not_success hcode) hno, ?_⟩
    exact Config.refused_meets (fun _ => owed_raised) fun _ => owed_again
  | dial =>
    refine fun connected => hs.keep rfl rfl (fun _ => rfl) fun d ho => ?_
    cases connected with
    | false => exact ho
    | true => exact ho
  | greeting =>
    refine fun greeting => hs.keep rfl rfl (fun _ => rfl) fun d ho => ?_
    obtain rfl : d = .asked (some s.command.cmd) := ho
    rcases greeting with e | r
    · rfl
    · refine Config.ite_meets (fun _ => ?_) fun _ => rfl
      exact (owed_second (s := { s with response := r.response, connected := true })).meets
  | noDownstream =>
    intro written
    have htold : Follows (Config.orRaise s left .network (Config.raise s left .network) written)
        (⟨.outReply .noDownstream s.response, written⟩ :: h) := by
      refine hs.tell rfl (by decide) fun d ho => ?_
      refine ⟨.settled, reply_settles (.inl ho) (fun _ => not_success ?_) ?_, owed_raised (s := s)⟩
      · rw [show s.response = .set 421 from hk.here]
        decide
      · rw [show s.response = .set 421 from hk.here]
        decide
    cases written with
    | false => exact htold
    | true => exact htold
  | send | authSend | authForward =>
    refine fun sent => hs.keep rfl rfl (fun _ => rfl) fun d ho => ?_
    refine Config.orRaise_meets owed_raised ?_ sent
    exact ho
  | reply | authReply | authAnswer | bodyReply =>
    refine fun answer => hs.keep rfl rfl (fun _ => rfl) fun d ho => ?_
    refine Config.reading_meets (fun _ => owed_raised) (fun _ => ?_) answer
    exact ho
  | relay =>
    refine fun written => hs.tell rfl (by decide) fun d ho => ?_
    obtain rfl : d = .asked (some s.command.cmd) := ho
    exact owed_third hk.here.1 hk.here.2.1
  | authRelay =>
    have hauth : s.command.cmd = .AUTH := hk.here.1
    refine fun written => hs.tell rfl (by decide) fun d ho => ?_
    obtain rfl : d = .asked (some s.command.cmd) := ho
    rw [hauth]
    by_cases hcode : s.response.code = 334
    · rw [if_pos hcode]
      refine ⟨.challenged, reply_challenges (.inl rfl) hcode, ?_⟩
      exact Config.exchange_meets (fun _ => rfl) owed_raised
    · rw [if_neg hcode]
      exact ⟨.settled, reply_settles (.inl rfl) (fun hdata => by cases hdata) hcode, owed_again⟩
  | authPass k =>
    refine fun written => hs.tell rfl (by decide) fun d ho => ?_
    by_cases hcode : s.response.code = 334
    · rw [if_pos hcode]
      refine ⟨.challenged, reply_challenges (.inr ho) hcode, ?_⟩
      exact Config.exchange_meets (fun _ => rfl) owed_raised
    · rw [if_neg hcode]
      have hd : d = .asked none ∨ d = .answering := .inr ho
      refine ⟨.settled, reply_settles hd (fun hdata => by cases hdata) hcode, ?_⟩
      exact Config.ite_meets (fun _ => owed_again) fun _ => owed_again
  | challenge stage =>
    have hauth : s.command.cmd = .AUTH := hk.here.1
    refine fun written => hs.tell rfl (by decide) fun d ho => ?_
    exact ⟨.challenged, reply_challenges (ho.imp_left fun hd => hauth ▸ hd) rfl, rfl⟩
  | authLine k | bodyLine k =>
    refine fun line => hs.hear rfl fun l d ho => ?_
    obtain rfl := (ho : d = _)
    exact ⟨_, rfl, rfl⟩
  | conversation stage =>
    refine fun line => hs.hear rfl fun l d ho => ?_
    obtain rfl : d = .challenged := ho
    refine ⟨.answering, rfl, Config.ite_meets (fun _ => .inr rfl) fun _ => ?_⟩
    exact Config.answered_meets (fun _ => .inr rfl) fun _ => Config.credentials_meets (.inr rfl)
      fun _ _ => .inr rfl
  | lookup username password =>
    refine fun found => hs.keep rfl rfl (fun _ => rfl) fun d ho => ?_
    rcases found with _ | n
    · exact ho
    · exact Config.ite_meets (fun _ => ho) fun _ => ho
  | authenticated =>
    have hauth : s.command.cmd = .AUTH := hk.here.1
    refine fun written => hs.tell rfl (by decide) fun d ho => ?_
    refine ⟨.settled, reply_settles ho (fun hdata => ?_) ?_, owed_again⟩
    · rw [hauth] at hdata
      cases hdata
    · rw [hk.here.2.2]
      decide
  | name | name' => exact fun _ => hs.keep rfl rfl (fun _ => rfl) fun d ho => ho
  | header =>
    refine fun sent => hs.keep rfl rfl (fun _ => rfl) fun d ho => ?_
    exact Config.orRaise_meets owed_raised (Config.body_meets (fun _ => ho) owed_raised) sent
  | bodyForward k l =>
    refine fun sent => hs.keep rfl rfl (fun _ => rfl) fun d ho => ?_
    refine Config.orRaise_meets owed_raised (Config.ite_meets (fun _ => ?_) fun _ => ?_) sent
    · exact ho
    · exact Config.body_meets (fun _ => ho) owed_raised
  | bodyRelay =>
    refine fun written => hs.tell rfl (by decide) fun d ho => ?_
    obtain rfl : d = .inviting := ho
    exact ⟨.settled, rfl, owed_again⟩
  | finished r => trivial

/-- The monitor leaves `silent` with the banner only. -/
theorem greeted_of_step {d : Dialogue} {e : Event Ans} (hstep : Dialogue.step .silent e = some d) :
    d = .silent ∨ greets e = true := by
  obtain ⟨c, x⟩ := e
  cases c with
  | outReply site r =>
    cases x with
    | false => exact .inl (Option.some.inj hstep).symm
    | true =>
      cases site with
      | banner => exact .inr rfl
      | _ => cases hstep
  | outReadline site =>
    cases x with
    | error e => exact .inl (Option.some.inj hstep).symm
    | ok l => cases hstep
  | _ => exact .inl (Option.some.inj hstep).symm

theorem greeted_of_at {d : Dialogue} (hd : dialogue.At d h) : d = .silent ∨ Once greeted h := by
  refine hd.invariant (I := fun d h => d = .silent ∨ Once greeted h) (.inl rfl) ?_
  intro d d' e h hs hstep
  rcases hs with rfl | honce
  · exact (greeted_of_step hstep).imp_right .inl
  · exact .inr (honce.cons id)

end InDialogue

/-- In a session that returns, the last command has no reply: it is a QUIT. All
others have theirs, if the client was let in. -/
theorem quit_unanswered (ctx : Context) (rounds : Nat) {r : Except Exn Unit} {s : Session} {h : Log}
    (hrun : (process ctx rounds).Ends {} [] r s h) (hr : r = .ok ()) :
    ¬ dialogue.At .settled h ∧ (Once greeted h → dialogue.At (.asked (some .QUIT)) h) := by
  obtain ⟨left, hc⟩ := process_on hrun
  have hstart : InDialogue.Follows (initial rounds) [] :=
    ⟨fun _ => Monitor.at_nil dialogue, fun honce => absurd honce id⟩
  have hs : InDialogue.Follows ⟨.finished r, s, left⟩ h := by
    apply hc.strengthen known hstart
    intro c h hk hs
    exact (InDialogue.follows_step hk hs).mono fun _ _ hs _ => hs
  have hquit : Once greeted h → dialogue.At (.asked (some .QUIT)) h := by
    intro honce
    obtain ⟨d, hd, ho⟩ := hs.owed honce
    rw [show d = .asked (some .QUIT) from ho hr] at hd
    exact hd
  refine ⟨fun hsettled => ?_, hquit⟩
  rcases InDialogue.greeted_of_at hsettled with hsilent | honce
  · cases hsilent
  · exact Dialogue.noConfusion (Option.some.inj (hsettled.symm.trans (hquit honce)))

/-- A client that greets and leaves. -/
def leavingClient : World := .ofLines .Accepted ["HELO a.b", "QUIT"] ["220 in", "250 ok"]

theorem leavingClient_returns : ∃ s, (process (.sample 0 .NoAuth) 9).Ends {} [] (.ok ()) s
    (leavingClient.history (.sample 0 .NoAuth) 9) := by
  have hok : (leavingClient.result (.sample 0 .NoAuth) 9).isOk = true := by decide +kernel
  obtain ⟨s, hrun⟩ := leavingClient.result_ends (.sample 0 .NoAuth) 9
  cases hresult : leavingClient.result (.sample 0 .NoAuth) 9 with
  | error e =>
    rw [hresult] at hok
    cases hok
  | ok u =>
    rw [hresult] at hrun
    exact ⟨s, hrun⟩

/-- Its QUIT gets no reply. -/
theorem farewell_unanswered :
    ¬ ∀ (ctx : Context) (rounds : Nat) (r : Except Exn Unit) (s : Session) (h : Log),
      (process ctx rounds).Ends {} [] r s h → r = .ok () → dialogue.At .settled h := by
  intro hall
  obtain ⟨s, hrun⟩ := leavingClient_returns
  have hsettled := hall (.sample 0 .NoAuth) 9 _ s _ hrun rfl
  have hasked : dialogue.track (leavingClient.history (.sample 0 .NoAuth) 9) ≠ some .settled := by
    decide +kernel
  exact hasked hsettled

theorem leavingClient_unanswered :
    Once greeted (leavingClient.history (.sample 0 .NoAuth) 9) ∧
      dialogue.At (.asked (some .QUIT)) (leavingClient.history (.sample 0 .NoAuth) 9) := by
  have honce : Once greeted (leavingClient.history (.sample 0 .NoAuth) 9) := by decide +kernel
  obtain ⟨s, hrun⟩ := leavingClient_returns
  exact ⟨honce, (quit_unanswered (.sample 0 .NoAuth) 9 hrun rfl).2 honce⟩

end Spey
