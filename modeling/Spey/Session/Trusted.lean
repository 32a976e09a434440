import Spey.Session.Reached
import Spey.Session.Lockstep
import Spey.World

/-!
# Trusted hosts

The lookups, the pause and the checks are guarded one by one by `trusted`, and
nothing but a verdict sets `errorstate`. So the session of a trusted host makes
none of these calls, and every command that is the inside server's business goes
there. A monitor follows each of these from its line to the reply.
-/

namespace Spey

open Interaction

/-- A check at the door, or one of a command. -/
@[simp] def screens : Event Ans → Bool
  | ⟨.gethostbyname _, _⟩ | ⟨.outRead _, _⟩ => true
  | e => checks e

/-- The inside server is to have the command. AUTH may be spey's own business. -/
def Verb.owed (verb : Verb) : Bool := verb ∉ [.AUTH, .HELP, .QUIT, .STARTTLS]

/-- What spey owes a command line that it has read. -/
inductive Duty where
  | free
  /-- the command is not at the inside server yet -/
  | owed (c : SMTPCommand.Parsed)
  /-- its reply has not been read -/
  | sent (c : SMTPCommand.Parsed)
  /-- the reply with this code has not been relayed -/
  | answered (code : Nat)

namespace Duty

def read (l : Line) : Duty :=
  match SMTPCommand.parse l.bytes with
  | some c => if c.1.owed then owed c else free
  | none => free

/-- Only AUTH is forwarded without being owed. -/
def send : Duty → SMTPCommand → Bool → Option Duty
  | free, c, _ => if c.cmd = .AUTH then some free else none
  | owed o, c, written =>
      if o = (c.cmd, c.argument) then some (if written then sent o else owed o) else none
  | _, _, _ => none

def relay : Duty → SMTPResponse → Bool → Option Duty
  | answered code, r, written =>
      if r.code = code then some (if written then free else answered code) else none
  | _, _, _ => none

/-- Until the command is sent, spey may count it and connect to the inside server. -/
def step : Duty → Event Ans → Option Duty
  | free, ⟨.outReadline .command, .ok l⟩ => some (read l)
  | d, ⟨.inWriteline (.command c), written⟩ => d.send c written
  | d, ⟨.outReply .relay r, written⟩ => d.relay r written
  | free, _ => some free
  | owed o, ⟨.count _, _⟩ | owed o, ⟨.connect, _⟩ | owed o, ⟨.readReply, _⟩
  | owed o, ⟨.outReply .noDownstream _, _⟩ => some (owed o)
  | sent _, ⟨.readReply, .ok r⟩ => some (answered r.response.code)
  | sent o, ⟨.readReply, .error _⟩ => some (sent o)
  | _, _ => none

end Duty

/-- Each command that is owed to the inside server gets there, and back comes its
reply with the code that the inside server gave it. -/
def duty : Monitor Ans Duty := ⟨.free, Duty.step⟩

/-- The exceptions of the sockets and of the database. -/
def Exn.breaks : Exn → Bool
  | .network | .networkTimeout | .sql => true
  | _ => false

namespace Trusted

variable {ctx : Context} {rounds left : Nat} {s : Session} {h : Log}

/-- What is owed to the command that is handled. -/
def due (s : Session) : Duty :=
  if s.command.cmd.owed then .owed (s.command.cmd, s.command.argument) else .free

/-- What is owed at a place. -/
def Owes : Point → Session → Duty → Prop
  | .counting _ _, s, d | .dial, s, d | .greeting, s, d | .noDownstream, s, d | .send, s, d => d = due s
  | .reply, s, d => d = .sent (s.command.cmd, s.command.argument)
  | .relay, s, d => d = .answered s.response.code
  | .finished r, _, d => d = .free ∨ ∃ e : Exn, e.breaks ∧ r = .error e
  | _, _, d => d = .free

structure Bypassed (c : Config) (h : Log) : Prop where
  quiet : ∀ e ∈ h, screens e = false
  duty : ∃ d, duty.At d h ∧ c.Meets fun p s => Owes p s d

/-- An event that is no check, and what is owed after it. -/
theorem Bypassed.cons {c c' : Config} {e : Event Ans} {d d' : Duty} (hs : Bypassed c h)
    (hd : Spey.duty.At d h) (he : screens e = false) (hstep : d.step e = some d')
    (hc' : c'.Meets fun p s => Owes p s d') : Bypassed c' (e :: h) := by
  constructor
  · intro x hx
    rcases List.mem_cons.mp hx with rfl | hx
    · exact he
    · exact hs.quiet x hx
  · exact ⟨d', hd.cons hstep, hc'⟩

theorem screens_of_refuses {e : Event Ans} (he : refuses e = true) : screens e = true := by
  obtain ⟨c, x⟩ := e
  cases c with
  | greylist => rfl
  | _ => cases he

theorem no_refusal (hquiet : ∀ e ∈ h, screens e = false) : ¬ ∃ e ∈ h, refuses e = true := by
  intro hrefused
  obtain ⟨e, he, hrefuses⟩ := hrefused
  have hscreens := hquiet e he
  rw [screens_of_refuses hrefuses] at hscreens
  cases hscreens

/-! ## The silent parts -/

theorem due_of_not {verb : Verb} (hc : s.command.cmd = verb) (hverb : verb.owed = false) :
    due s = .free := by
  rw [due, hc, hverb]
  rfl

theorem due_of {verb : Verb} (hc : s.command.cmd = verb) (hverb : verb.owed = true) :
    due s = .owed (s.command.cmd, s.command.argument) := by
  rw [due, if_pos (hc ▸ hverb)]

/-- What may happen before the command is sent. -/
def waits : Event Ans → Bool
  | ⟨.count _, _⟩ | ⟨.connect, _⟩ | ⟨.readReply, _⟩ | ⟨.outReply .noDownstream _, _⟩ => true
  | _ => false

theorem due_step (s : Session) {e : Event Ans} (he : waits e = true) :
    (due s).step e = some (due s) := by
  obtain ⟨c, x⟩ := e
  unfold due
  cases c with
  | count | connect | readReply => split_ifs <;> rfl
  | outReply site r =>
    cases site with
    | noDownstream => split_ifs <;> rfl
    | _ => cases he
  | _ => cases he

theorem owes_second : Config.Second (fun p s' => Owes p s' (due s)) s where
  send _ := rfl
  authSend hauth := due_of_not hauth rfl
  challenge hauth _ _ := due_of_not hauth rfl
  lookup hauth _ _ _ := due_of_not hauth rfl
  deny hauth _ _ := due_of_not hauth rfl

theorem owes_proceed : Config.Proceed (fun p s' => Owes p s' (due s)) s where
  dial _ := rfl
  second _ := owes_second

theorem owes_dispatch (htrusted : s.exempt = true) (herror : s.errorstate = false) :
    Config.Dispatch ctx (fun p s' => Owes p s' (due s)) s where
  help hc := due_of_not hc rfl
  quit hc := Or.inl (due_of_not hc rfl)
  starttls hc _ := due_of_not hc rfl
  deny hc _ _ := due_of_not hc rfl
  domain _ hexempt := by rw [htrusted] at hexempt; cases hexempt
  sender _ hexempt := by rw [htrusted] at hexempt; cases hexempt
  mail _ hexempt := by rw [htrusted] at hexempt; cases hexempt
  recipient _ hexempt := by rw [htrusted] at hexempt; cases hexempt
  accepted _ _ := rfl
  rset _ := owes_proceed (s := { s with _from := ⟨[], oneLine_nil⟩ })
  refused _ hset := by rw [herror] at hset; cases hset
  data _ _ := owes_proceed
  passed _ _ := owes_proceed
  other _ := owes_proceed

theorem owes_again {left : Nat} : (Config.again s left).Meets fun p s => Owes p s .free :=
  Config.again_meets rfl (.inl rfl)

/-! ## One step -/

/-- Without a verdict there is no refusal to keep. -/
theorem refuses_of_errorstate {c : Config} (hc : (machine ctx rounds).On (initial rounds) c h) :
    c.session.errorstate = true → ∃ e ∈ h, refuses e = true := by
  refine hc.invariant (I := fun c h => c.session.errorstate = true → ∃ e ∈ h, refuses e = true)
    (fun herror => absurd herror Bool.false_ne_true) fun c h hs => ?_
  have hkept : Config.Kept fun s => s.errorstate = true → ∃ e ∈ h, refuses e = true :=
    ⟨fun _ _ hs => hs, fun _ hs => hs, fun _ hs => hs, fun _ hs => hs,
      fun _ herror => absurd herror Bool.false_ne_true⟩
  have hmem : ∀ {e : Event Ans}, (∃ e ∈ h, refuses e = true) → ∃ x ∈ e :: h, refuses x = true := by
    intro e hold
    obtain ⟨x, hx, hrefuses⟩ := hold
    exact ⟨x, List.mem_cons_of_mem _ hx, hrefuses⟩
  by_cases hpoint : c.point = .greylisting
  · obtain ⟨point, s, left⟩ := c
    obtain rfl : point = .greylisting := hpoint
    intro answer
    rcases answer with _ | _ | _ | _
    · exact fun herror => hmem (hs herror)
    · exact fun herror => hmem (hs herror)
    · exact fun _ => ⟨_, List.mem_cons_self, rfl⟩
    · exact fun _ => ⟨_, List.mem_cons_self, rfl⟩
  · have hstep := Config.session_step ctx rounds hkept (fun _ _ _ hs => hs) (fun hp => absurd hp hpoint)
      (fun _ _ _ _ hs => hs) hs
    exact hstep.mono fun _ _ hs herror => hmem (hs herror)

/-- The places where nothing is owed, but the head of the loop. -/
def rests : Point → Bool
  | .opening | .zone _ _ | .pause | .head | .domain | .sender | .recipient | .acceptance
  | .greylisting | .counting _ _ | .dial | .greeting | .noDownstream | .send | .reply | .relay
  | .finished _ => false
  | _ => true

/-- Nothing becomes owed there. -/
theorem owes_rest {c : Config} (hc : rests c.point = true) :
    (machine ctx rounds c).All fun _ c' => c'.Meets fun p s => Owes p s .free := by
  obtain ⟨point, s, left⟩ := c
  cases point with
  | banner | help | bodyRelay => exact Config.orRaise_meets (.inl rfl) owes_again
  | syntaxError =>
    apply Config.orRaise_meets (.inl rfl)
    exact Config.ite_meets (fun _ => .inl rfl) fun _ => owes_again
  | handshake =>
    intro secured
    cases secured with
    | false => exact .inl rfl
    | true => exact Config.ite_meets (fun _ => rfl) fun _ => owes_again
  | hangUp => exact fun _ => owes_again
  | refusal =>
    apply Config.orRaise_meets (.inl rfl)
    exact Config.refused_meets (fun _ => .inl rfl) fun _ => owes_again
  | authRelay =>
    apply Config.orRaise_meets (.inl rfl)
    exact Config.ite_meets (fun _ => Config.exchange_meets (fun _ => rfl) (.inl rfl)) fun _ => owes_again
  | authPass k =>
    apply Config.orRaise_meets (.inl rfl)
    apply Config.ite_meets fun _ => Config.exchange_meets (fun _ => rfl) (.inl rfl)
    exact fun _ => Config.ite_meets (fun _ => owes_again) fun _ => owes_again
  | conversation stage =>
    apply Config.reading_meets fun _ => .inl rfl
    intro l
    refine Config.ite_meets (fun _ => rfl) fun _ => ?_
    exact Config.answered_meets (fun _ => rfl) fun _ => Config.credentials_meets rfl fun _ _ => rfl
  | lookup username password =>
    intro found
    cases found with
    | none => rfl
    | some n => exact Config.ite_meets (fun _ => rfl) fun _ => rfl
  | authenticated => exact Config.orRaise_meets (.inl rfl) owes_again
  | name | name' => exact fun _ => rfl
  | header => exact Config.orRaise_meets (.inl rfl) (Config.body_meets (fun _ => rfl) (.inl rfl))
  | bodyForward k l =>
    apply Config.orRaise_meets (.inl rfl)
    exact Config.ite_meets (fun _ => rfl) fun _ => Config.body_meets (fun _ => rfl) (.inl rfl)
  | starttls | authSend | authForward | challenge => exact Config.orRaise_meets (.inl rfl) rfl
  | authReply | authAnswer | bodyReply | authLine | bodyLine =>
    exact Config.reading_meets (fun _ => .inl rfl) fun _ => rfl
  | _ => cases hc

/-- After a line was read that parses. -/
theorem bypassed_parsed {c : SMTPCommand} {l : Line} (hs : Bypassed ⟨.head, s, left⟩ h)
    (htrusted : s.trusted = true) (herror : s.errorstate = false)
    (hparse : SMTPCommand.parse l.bytes = some (c.cmd, c.argument)) :
    Bypassed (.dispatch ctx { s with command := c } left) (⟨.outReadline .command, .ok l⟩ :: h) := by
  obtain ⟨d, hd, rfl⟩ := hs.duty
  have hread : Duty.read l = due { s with command := c } := by
    rw [Duty.read, hparse]
    rfl
  have hexempt : ({ s with command := c } : Session).exempt = true := by
    rw [Session.exempt, htrusted, Bool.or_true]
  apply hs.cons hd rfl rfl
  rw [hread]
  exact (owes_dispatch hexempt herror).meets

/-- A step that is no check, from a place where `d` is owed. -/
theorem bypassed_next {c c' : Config} {e : Event Ans} {d d' : Duty}
    (hs : Once Spey.trusted h → Bypassed c h) (htrusts : trusts e = false) (he : screens e = false)
    (howes : ∀ x, c.Meets (fun p s => Owes p s x) → x = d) (hstep : d.step e = some d')
    (hc' : c'.Meets fun p s => Owes p s d') : Once Spey.trusted (e :: h) → Bypassed c' (e :: h) := by
  intro honce
  obtain hnow | ⟨-, honce⟩ := (since_cons _ _ _ _).mp honce
  · rw [Spey.trusted, htrusts] at hnow
    cases hnow
  · obtain ⟨x, hd, hx⟩ := (hs honce).duty
    obtain rfl := howes x hx
    exact (hs honce).cons hd he hstep hc'

theorem bypassed_step (rounds : Nat) {c : Config} (hk : Known ctx c h) (hrefuse : c.session.errorstate = true →
    ∃ e ∈ h, refuses e = true) (hs : Once Spey.trusted h → Bypassed c h) :
    (machine ctx rounds c).All fun e c' => Once Spey.trusted (e :: h) → Bypassed c' (e :: h) := by
  obtain ⟨point, s, left⟩ := c
  have hopen : point.live = true → ∀ {e : Event Ans}, trusts e = false →
      Once Spey.trusted (e :: h) → s.trusted = true ∧ Bypassed ⟨point, s, left⟩ h := by
    intro hl e he honce
    obtain hnow | ⟨-, honce⟩ := (since_cons _ _ _ _).mp honce
    · rw [Spey.trusted, he] at hnow
      cases hnow
    · exact ⟨(hk.flags hl).trusted.mpr honce, hs honce⟩
  have hrest : rests point = true →
      (machine ctx rounds ⟨point, s, left⟩).All fun _ c' => c'.Meets fun p s => Owes p s .free :=
    fun hp => owes_rest hp
  cases point with
  | opening =>
    obtain ⟨rfl, rfl⟩ := hk.here
    intro answer honce
    rcases answer with _ | _ | _
    · simp at honce
    · simp at honce
    · refine ⟨?_, .free, (Monitor.at_nil duty).cons rfl, rfl⟩
      intro e he
      rw [List.mem_singleton.mp he]
      rfl
  | zone | pause =>
    intro answer honce
    have hno : s.trusted = false := hk.here
    rw [(hopen rfl rfl honce).1] at hno
    cases hno
  | domain | sender | recipient | acceptance | greylisting =>
    intro answer honce
    have hno := Reached.not_trusted hk.here.1
    rw [(hopen rfl rfl honce).1] at hno
    cases hno
  | counting counter passes =>
    cases passes with
    | false =>
      intro counted honce
      have hno : s.trusted = false := hk.here.1
      rw [(hopen rfl rfl honce).1] at hno
      cases hno
    | true =>
      intro counted
      refine bypassed_next hs rfl rfl (fun _ hd => hd) (due_step s rfl) ?_
      exact Config.orRaise_meets (.inr ⟨.sql, rfl, rfl⟩) owes_proceed.meets counted
  | head =>
    intro line honce
    obtain ⟨htrusted, hb⟩ := hopen rfl rfl honce
    obtain ⟨d, hd, rfl⟩ := hb.duty
    rcases line with e | l
    · exact hb.cons hd rfl rfl (.inl rfl)
    show Bypassed (Config.parsed ctx s left l) _
    unfold Config.parsed
    cases hset : s.command.set l with
    | none =>
      have hread : Duty.read l = .free := by rw [Duty.read, SMTPCommand.set_none hset]
      exact hb.cons hd rfl (congrArg some hread) rfl
    | some c =>
      have herror : s.errorstate = false :=
        Bool.of_not_eq_true fun herror => no_refusal hb.quiet (hrefuse herror)
      exact bypassed_parsed hb htrusted herror (SMTPCommand.set_some hset)
  | dial =>
    intro connected
    refine bypassed_next hs rfl rfl (fun _ hd => hd) (due_step s rfl) ?_
    cases connected with
    | false => rfl
    | true => rfl
  | greeting =>
    intro greeting
    refine bypassed_next hs rfl rfl (fun _ hd => hd) (due_step s rfl) ?_
    rcases greeting with e | r
    · rfl
    · refine Config.ite_meets (fun _ => ?_) fun _ => rfl
      exact (owes_second (s := { s with response := r.response, connected := true })).meets
  | noDownstream =>
    intro written
    exact bypassed_next hs rfl rfl (fun _ hd => hd) (due_step s rfl) (.inr ⟨.network, rfl, rfl⟩)
  | send =>
    intro sent
    have howed : s.command.cmd.owed = true := by
      have hcmd := hk.here.1.1
      simp only [Verb.owed, List.mem_cons, List.not_mem_nil, or_false, not_or, decide_eq_true_eq] at hcmd ⊢
      exact ⟨hk.here.2, hcmd⟩
    have hdue : due s = .owed (s.command.cmd, s.command.argument) := due_of rfl howed
    cases sent with
    | false =>
      exact bypassed_next hs rfl rfl (fun _ hd => Eq.trans hd hdue) (if_pos rfl) (.inr ⟨.network, rfl, rfl⟩)
    | true => exact bypassed_next hs rfl rfl (fun _ hd => Eq.trans hd hdue) (if_pos rfl) rfl
  | reply =>
    intro answer
    rcases answer with e | r
    · refine bypassed_next hs rfl rfl (fun _ hd => hd) rfl (.inr ⟨e.exn, ?_, rfl⟩)
      cases e <;> rfl
    · refine bypassed_next hs rfl rfl (fun _ hd => hd) rfl ?_
      exact congrArg Duty.answered (Lockstep.tweak_code ctx s.command.cmd r.response).symm
  | relay =>
    intro written
    have hstep : (Duty.answered s.response.code).step ⟨.outReply .relay s.response, written⟩ =
        some (if written then .free else .answered s.response.code) := if_pos rfl
    refine bypassed_next hs rfl rfl (fun _ hd => hd) hstep ?_
    cases written with
    | false => exact .inr ⟨.network, rfl, rfl⟩
    | true =>
      refine Config.third_meets (fun _ _ => .inl rfl) (fun _ _ => ?_) (fun _ => .inl rfl)
        fun _ => owes_again
      exact Config.naming_meets rfl fun _ _ => rfl
  | authSend =>
    intro sent
    have hauth : s.command.cmd = .AUTH := hk.here
    have hstep : Duty.free.step ⟨.inWriteline (.command s.command), sent⟩ = some .free := if_pos hauth
    refine bypassed_next hs rfl rfl (fun _ hd => hd) hstep ?_
    refine Config.orRaise_meets (.inl rfl) ?_ sent
    rfl
  | finished r => trivial
  | _ => exact fun answer => bypassed_next hs rfl rfl (fun _ hd => hd) rfl (hrest rfl answer)

end Trusted

/-- The session of a trusted host makes no check and never gets into the error
state. Every command that is owed to the inside server is sent there, and its
reply comes back with the same code, unless an exception ends the session first. -/
theorem trusted_bypasses (ctx : Context) (rounds : Nat) {r : Except Exn Unit} {s : Session} {h : Log}
    (hrun : (process ctx rounds).Ends {} [] r s h) (htrusted : Once trusted h) :
    (∀ e ∈ h, screens e = false) ∧
      (∀ c past, past <:+ h → (machine ctx rounds).On (initial rounds) c past →
        c.session.errorstate = false) ∧
      ∃ d, duty.At d h ∧ (d = .free ∨ ∃ e : Exn, e.breaks ∧ r = .error e) := by
  obtain ⟨left, hc⟩ := process_on hrun
  have hb : Trusted.Bypassed ⟨.finished r, s, left⟩ h := by
    refine hc.strengthen (K := fun c h => Known ctx c h ∧
        (c.session.errorstate = true → ∃ e ∈ h, refuses e = true))
      (I := fun c h => Once trusted h → Trusted.Bypassed c h)
      (fun hc => ⟨known hc, Trusted.refuses_of_errorstate hc⟩) (fun hnone => absurd hnone id)
      (fun c h hk hs => ?_) htrusted
    exact (Trusted.bypassed_step rounds hk.1 hk.2 hs).mono fun _ _ hb _ => hb
  refine ⟨hb.quiet, fun c past hpast hc => ?_, hb.duty⟩
  apply Bool.of_not_eq_true
  intro herror
  apply Trusted.no_refusal (h := past) fun e he => hb.quiet e (hpast.subset he)
  exact Trusted.refuses_of_errorstate hc herror

/-- A trusted host that sends a message, and a sender and a recipient that would
not pass. -/
def trustedClient : World :=
  { World.ofLines .BlackListed
      ["EHLO a", "MAIL FROM:<a>", "RCPT TO:<c>", "AUTH PLAIN", "DATA", "x", ".", "RSET", "NOOP"]
      ["220 in", "250 ok", "250 ok", "250 ok", "354 go", "250 ok", "250 ok", "451 later"] with
    oracle := fun _ c => match c with
      | .testtrusted _ => some true
      | c => World.allow .BlackListed c }

theorem trustedClient_bypasses :
    Once trusted (trustedClient.history (.sample 0 .NoAuth) 9) ∧
      ∀ e ∈ trustedClient.history (.sample 0 .NoAuth) 9, screens e = false := by
  have honce : Once trusted (trustedClient.history (.sample 0 .NoAuth) 9) := by decide +kernel
  obtain ⟨r, s, hrun⟩ := trustedClient.history_ends (.sample 0 .NoAuth) 9
  exact ⟨honce, (trusted_bypasses (.sample 0 .NoAuth) 9 hrun honce).1⟩

end Spey
