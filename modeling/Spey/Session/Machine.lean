import Spey.Interaction.Machine
import Spey.Session.Events
import Spey.Session.Steps

/-!
# A session as a machine

The calls of `process`, with what happens between them folded into the step: a
configuration is the place of the pending call, the state it is made in, and the
rounds of the loop that are left. What `process` does in one call after another
is here one step after another, so an invariant of the machine is one of every
session.
-/

namespace Spey

open Interaction

/-- Which challenge of spey's own the client is answering. -/
inductive Challenge where
  | plain | username | password (username64 : Bytes)

/-- The place of a pending call. -/
inductive Point where
  /-- `testtrusted` -/
  | opening
  | zone (rbl : Bytes) (rbls : List Bytes)
  | pause
  | banner
  /-- the head of the loop -/
  | head
  | syntaxError
  | help
  | starttls | handshake | hangUp
  /-- `verifydomain` of HELO and EHLO -/
  | domain
  /-- `verifyaddress` of MAIL, and of RCPT -/
  | sender | recipient
  | acceptance
  | greylisting
  /-- a statistics update, after which the command passes or is refused -/
  | counting (counter : Counter) (passes : Bool)
  /-- the `error:` label -/
  | refusal
  | dial | greeting | noDownstream
  | send | reply | relay
  | authSend | authReply | authRelay
  /-- the rounds of a proxied exchange, with how many are left -/
  | authLine (left : Nat) | authForward (left : Nat) (l : Line) | authAnswer (left : Nat)
  | authPass (left : Nat)
  | challenge (stage : Challenge) | conversation (stage : Challenge)
  | lookup (username password : Bytes)
  | authenticated
  /-- the two names of the Received header -/
  | name | name' (name : Bytes)
  | header (name name' : Bytes)
  /-- the message body, with the rounds that are left -/
  | bodyLine (left : Nat) | bodyForward (left : Nat) (l : Line)
  | bodyReply | bodyRelay
  | finished (r : Except Exn Unit)

structure Config where
  point : Point
  session : Session
  left : Nat

namespace Config

variable (ctx : Context) (rounds : Nat) (s : Session) (left : Nat)

def raise (e : Exn) : Config := ⟨.finished (.error e), s, left⟩

/-! The errors that are deferred with a text of their own. -/

def listed (rbl : Bytes) : SMTPResponse :=
  .setMessage 554 (text "5.7.1 Rejected: your IP address is listed in the " ++ rbl ++ text " RBL")

def tooSoon : SMTPResponse := .setMessage 554 (text "5.7.1 Rejected: protocol violation")

def illegalDomain : SMTPResponse := .setMessage 554 (text "Illegal domain name")

def notPermitted : SMTPResponse := .setMessage 550 (text "Relaying not permitted")

def greylisted : SMTPResponse := .setMessage 451 (greytext ctx)

def blacklisted : SMTPResponse :=
  .setMessage 554 (text "You have been blacklisted. " ++ text "Your message will not be accepted.")

/-- A new round of the loop. -/
def again : Nat → Config
  | 0 => raise s 0 .unfinished
  | left + 1 => ⟨.head, s, left⟩

/-- `goto error` -/
def refuse : Config := ⟨.refusal, { s with response := s.deferrederror }, left⟩

/-- `goto error` with an error of its own. -/
def deny (r : SMTPResponse) : Config := refuse { s with deferrederror := r } left

/-- On to the banner. -/
def greet : Config :=
  ⟨.banner, { s with response := { code := 220, parameter := ctx.settings.identity } }, left⟩

/-- The zones that are left to look up, and then the pause. -/
def zones : List Bytes → Config
  | rbl :: rbls => ⟨.zone rbl rbls, s, left⟩
  | [] =>
      if 0 < ctx.settings.greetpause then ⟨.pause, s, left⟩
      else greet ctx s left

/-- The credentials that an authenticator has decoded. -/
def credentials : Option (Bytes × Bytes) → Config
  | none => deny s left (.set 535)
  | some (username, password) => ⟨.lookup username password, s, left⟩

/-- The text of a challenge. -/
def message : Challenge → Bytes
  | .plain => []
  | .username => text "VXNlcm5hbWU6"
  | .password _ => text "UGFzc3dvcmQ6"

/-- The client's answer to a challenge. -/
def answered (a : Bytes) : Challenge → Config
  | .plain => credentials s left (plainCredentials a)
  | .username => ⟨.challenge (.password a), s, left⟩
  | .password username64 => credentials s left (loginCredentials username64 a)

/-- AUTH with spey's own authenticators. -/
def internal : Config :=
  let a := s.command.parameter.bytes
  if !s.secure then deny s left (.set 538)
  else if a.take 6 = text "plain " then
    if a.drop 6 = [] then ⟨.challenge .plain, s, left⟩ else credentials s left (plainCredentials (a.drop 6))
  else if a = text "plain" then ⟨.challenge .plain, s, left⟩
  else if a = text "login" then ⟨.challenge .username, s, left⟩
  else deny s left (.set 535)

/-- The second switch, with the inside server connected. -/
def second : Config :=
  if s.command.cmd = .AUTH then
    match ctx.settings.externalauthmode with
    | .NoAuth => deny s left (.set 500)
    | .ProxyAuth => ⟨.authSend, s, left⟩
    | .InternalAuth => internal s left
  else ⟨.send, s, left⟩

/-- On to the inside server. -/
def proceed : Config :=
  if s.connected then second ctx s left else ⟨.dial, s, left⟩

/-- The first switch. -/
def dispatch : Config :=
  match s.command.cmd with
  | .HELP => ⟨.help, { s with response := .set 214 }, left⟩
  | .QUIT => ⟨.finished (.ok ()), s, left⟩
  | .STARTTLS =>
      if ctx.gnutls ∧ ctx.settings.externaltls then
        if s.secure then deny s left (.set 503)
        else ⟨.starttls, { s with response := .set 220 }, left⟩
      else deny s left (.set 502)
  | .HELO | .EHLO => if s.exempt then proceed ctx s left else ⟨.domain, s, left⟩
  | .MAIL =>
      if s.exempt then proceed ctx s left
      else if s.command.parameter.bytes = [] then
        proceed ctx { s with _from := s.command.parameter } left
      else ⟨.sender, { s with _from := s.command.parameter }, left⟩
  | .RCPT => if s.exempt then ⟨.counting .accepted true, s, left⟩ else ⟨.recipient, s, left⟩
  | .RSET => proceed ctx { s with _from := ⟨[], oneLine_nil⟩ } left
  | .DATA => if s.errorstate then refuse s left else proceed ctx s left
  | .VRFY | .EXPN | .NOOP | .AUTH => proceed ctx s left

/-- A round of the proxied exchange. -/
def exchange : Nat → Config
  | 0 => raise s left .unfinished
  | rounds + 1 => ⟨.authLine rounds, s, left⟩

/-- The client's name as `getname` gives it. -/
def hostname : Option Bytes → Bytes
  | some name => name
  | none =>
      let w := ctx.address.toNat
      decimal (w / 16777216 % 256) ++ text "." ++ decimal (w / 65536 % 256) ++ text "."
        ++ decimal (w / 256 % 256) ++ text "." ++ decimal (w % 256)

/-- The transfer of a message begins. -/
def naming : Config :=
  if ctx.address = 0 then ⟨.header (text "0.0.0.0") (text "0.0.0.0"), s, left⟩ else ⟨.name, s, left⟩

/-- A round of the message body. -/
def body : Nat → Config
  | 0 => raise s left .unfinished
  | rounds + 1 => ⟨.bodyLine rounds, s, left⟩

/-- The third switch. -/
def third : Config :=
  if s.response.iserror ∧ ctx.settings.intolerant ≠ 0 then raise s left .network
  else match s.command.cmd with
    | .DATA => if s.response.issuccess then naming ctx s left else again s left
    | .QUIT => ⟨.finished (.ok ()), s, left⟩
    | _ => again s left

/-- After a completed handshake. -/
def secured (s : Session) : Session :=
  { s with secure := true, connected := false, errorstate := false, authenticated := false }

/-- Away from the loop body where a call has failed. -/
def orRaise (failure : Exn) (c : Config) : Bool → Config
  | true => c
  | false => raise s left failure

/-- The same for reading. -/
def reading {α : Type} (next : α → Config) : Except ReadFailure α → Config
  | .error e => raise s left e.exn
  | .ok a => next a

/-- The same for the database. -/
def querying {α : Type} (next : α → Config) : Option α → Config
  | none => raise s left .sql
  | some a => next a

/-- The end of the `error:` label. -/
def refused : Config :=
  if ctx.settings.intolerant ≠ 0 then raise s left .network
  else again { s with errorstate := false } left

/-- A line was read as a command. -/
def parsed (l : Line) : Config :=
  match s.command.set l with
  | none => ⟨.syntaxError, { s with response := .set 500 }, left⟩
  | some c => dispatch ctx { s with command := c } left

/-- The verdict on a recipient. -/
def judged : GreylistResponse → Config
  | .Accepted => ⟨.counting .accepted true, s, left⟩
  | .GreyListed => ⟨.counting .greylisted true,
      { s with deferrederror := greylisted ctx, errorstate := true }, left⟩
  | .BlackListed => ⟨.counting .blacklisted true,
      { s with deferrederror := blacklisted, errorstate := true }, left⟩

end Config

open Config in
/-- One step of a session. -/
def machine (ctx : Context) (rounds : Nat) : Machine Ans (Except Exn Unit × Session) Config
  | ⟨.opening, s, left⟩ => .call (.testtrusted ctx.address) (querying s left fun trusted =>
      if trusted then greet ctx { s with trusted } left
      else zones ctx { s with trusted } left (words ctx.settings.rbllist))
  | ⟨.zone rbl rbls, s, left⟩ => .call (.gethostbyname (rblname ctx.address rbl)) fun
      | true => ⟨.counting .blackholed false, { s with deferrederror := listed rbl }, left⟩
      | false => zones ctx s left rbls
  | ⟨.pause, s, left⟩ => .call (.outRead ctx.settings.greetpause) fun
      | true => ⟨.counting .spokeTooSoon false, { s with deferrederror := tooSoon }, left⟩
      | false => greet ctx s left
  | ⟨.banner, s, left⟩ => .call (.outReply .banner s.response)
      (orRaise s left .network (again s left))
  | ⟨.head, s, left⟩ => .call (.outReadline .command) (reading s left (parsed ctx s left))
  | ⟨.syntaxError, s, left⟩ => .call (.outReply .syntaxError s.response) (orRaise s left .network
      (if ctx.settings.intolerant ≠ 0 then raise s left .network else again s left))
  | ⟨.help, s, left⟩ => .call (.outReply .help s.response) (orRaise s left .network (again s left))
  | ⟨.starttls, s, left⟩ => .call (.outReply .starttls s.response)
      (orRaise s left .network ⟨.handshake, s, left⟩)
  | ⟨.handshake, s, left⟩ => .call .makesecure fun
      | true => if s.connected then ⟨.hangUp, secured s, left⟩ else again (secured s) left
      | false => raise s left .network
  | ⟨.hangUp, s, left⟩ => .call .deinit fun _ => again s left
  | ⟨.domain, s, left⟩ => .call (.verifydomain s.command.parameter.bytes) fun _ =>
      if byte '.' ∈ s.command.parameter.bytes then proceed ctx s left
      else ⟨.counting .malformedDomain false, { s with deferrederror := illegalDomain }, left⟩
  | ⟨.sender, s, left⟩ => .call (.verifyaddress s.command.parameter.bytes) fun _ =>
      if byte '@' ∈ s.command.parameter.bytes then proceed ctx s left
      else ⟨.counting .malformedAddress false, { s with deferrederror := .set 501 }, left⟩
  | ⟨.recipient, s, left⟩ => .call (.verifyaddress s.command.parameter.bytes) fun _ =>
      if byte '@' ∈ s.command.parameter.bytes then ⟨.acceptance, s, left⟩
      else ⟨.counting .malformedAddress false, { s with deferrederror := .set 551 }, left⟩
  | ⟨.acceptance, s, left⟩ => .call (.testacceptance s.command.parameter.bytes)
      (querying s left fun accepted =>
        if accepted then ⟨.greylisting, s, left⟩
        else ⟨.counting .illegalRelaying false, { s with deferrederror := notPermitted }, left⟩)
  | ⟨.greylisting, s, left⟩ =>
      .call (.greylist (network24 ctx.address) s._from.bytes s.command.parameter.bytes)
        (querying s left (judged ctx s left))
  | ⟨.counting counter passes, s, left⟩ => .call (.count counter)
      (orRaise s left .sql (if passes then proceed ctx s left else refuse s left))
  | ⟨.refusal, s, left⟩ => .call (.outReply .refusal s.response)
      (orRaise s left .network (refused ctx s left))
  | ⟨.dial, s, left⟩ => .call .connect fun
      | true => ⟨.greeting, s, left⟩
      | false => ⟨.noDownstream, { s with response := .set 421 }, left⟩
  | ⟨.greeting, s, left⟩ => .call .readReply fun
      | .error _ => ⟨.noDownstream, { s with response := .set 421 }, left⟩
      | .ok r =>
          if r.response.code = 220 then
            second ctx { s with response := r.response, connected := true } left
          else ⟨.noDownstream, { s with response := .set 421 }, left⟩
  | ⟨.noDownstream, s, left⟩ =>
      .call (.outReply .noDownstream s.response) fun _ => raise s left .network
  | ⟨.send, s, left⟩ =>
      .call (.inWriteline (.command s.command)) (orRaise s left .network ⟨.reply, s, left⟩)
  | ⟨.reply, s, left⟩ => .call .readReply (reading s left fun r =>
      ⟨.relay, { s with response := tweak ctx s.command.cmd r.response }, left⟩)
  | ⟨.relay, s, left⟩ => .call (.outReply .relay s.response)
      (orRaise s left .network (third ctx s left))
  | ⟨.authSend, s, left⟩ =>
      .call (.inWriteline (.command s.command)) (orRaise s left .network ⟨.authReply, s, left⟩)
  | ⟨.authReply, s, left⟩ => .call .readReply (reading s left fun r =>
      ⟨.authRelay, { s with response := r.response }, left⟩)
  | ⟨.authRelay, s, left⟩ => .call (.outReply .proxiedAuth s.response) (orRaise s left .network
      (if s.response.code = 334 then exchange s left rounds else again s left))
  | ⟨.authLine k, s, left⟩ => .call (.outReadline .authLine) (reading s left fun l =>
      ⟨.authForward k l, s, left⟩)
  | ⟨.authForward k l, s, left⟩ =>
      .call (.inWriteline (.authLine l)) (orRaise s left .network ⟨.authAnswer k, s, left⟩)
  | ⟨.authAnswer k, s, left⟩ => .call .readReply (reading s left fun r =>
      ⟨.authPass k, { s with response := r.response }, left⟩)
  | ⟨.authPass k, s, left⟩ => .call (.outReply .proxiedAuth s.response) (orRaise s left .network
      (if s.response.code = 334 then exchange s left k
      else if s.response.code = 235 then again { s with authenticated := true } left
      else again s left))
  | ⟨.challenge stage, s, left⟩ =>
      .call (.outReply .challenge (SMTPResponse.set 334 (message stage)))
        (orRaise s left .network ⟨.conversation stage, s, left⟩)
  | ⟨.conversation stage, s, left⟩ => .call (.outReadline .conversation) (reading s left fun l =>
      if l.bytes = text "*" then deny s left (.set 501) else answered s left l.bytes stage)
  | ⟨.lookup username password, s, left⟩ => .call (.users username password) fun
      | none => deny s left (.set 535)
      | some n =>
          if n = 0 then deny s left (.set 535)
          else ⟨.authenticated, { s with response := .set 235 }, left⟩
  | ⟨.authenticated, s, left⟩ => .call (.outReply .authenticated s.response)
      (orRaise s left .network (again { s with authenticated := true } left))
  | ⟨.name, s, left⟩ => .call .gethostbyaddr fun name => ⟨.name' (hostname ctx name), s, left⟩
  | ⟨.name' name, s, left⟩ =>
      .call .gethostbyaddr fun name' => ⟨.header name (hostname ctx name'), s, left⟩
  | ⟨.header name name', s, left⟩ =>
      .call (.inWriteline (.header (received name name' ctx.port s._from.bytes)))
        (orRaise s left .network (body s left rounds))
  | ⟨.bodyLine k, s, left⟩ => .call (.outReadline .bodyLine) (reading s left fun l =>
      ⟨.bodyForward k l, s, left⟩)
  | ⟨.bodyForward k l, s, left⟩ => .call (.inWriteline (.bodyLine l)) (orRaise s left .network
      (if l.bytes = text "." then ⟨.bodyReply, s, left⟩ else body s left k))
  | ⟨.bodyReply, s, left⟩ => .call .readReply (reading s left fun r =>
      ⟨.bodyRelay, { s with response := r.response }, left⟩)
  | ⟨.bodyRelay, s, left⟩ => .call (.outReply .bodyResult s.response)
      (orRaise s left .network (again s left))
  | ⟨.finished r, s, _⟩ => .finished (r, s)

/-- The configuration in which a session starts. -/
def initial (rounds : Nat) : Config := ⟨.opening, {}, rounds⟩

/-! ## Where the silent parts lead

An assertion is about the place of the pending call and the state it is made in.
For each silent part, the assertion has to hold at the places it can lead to.
-/

namespace Config

variable {ctx : Context} {s : Session} {left : Nat} {P : Point → Session → Prop}

def Meets (P : Point → Session → Prop) (c : Config) : Prop := P c.point c.session

theorem again_meets (hhead : P .head s) (hcut : P (.finished (.error .unfinished)) s) :
    (again s left).Meets P := by
  cases left with
  | zero => exact hcut
  | succ left => exact hhead

theorem orRaise_meets {e : Exn} {c : Config} (hfail : P (.finished (.error e)) s) (hnext : c.Meets P)
    (done : Bool) : (orRaise s left e c done).Meets P := by
  cases done with
  | false => exact hfail
  | true => exact hnext

theorem reading_meets {α : Type} {next : α → Config}
    (hfail : ∀ e : ReadFailure, P (.finished (.error e.exn)) s) (hnext : ∀ a, (next a).Meets P)
    (answer : Except ReadFailure α) : (reading s left next answer).Meets P := by
  cases answer with
  | error e => exact hfail e
  | ok a => exact hnext a

theorem querying_meets {α : Type} {next : α → Config} (hfail : P (.finished (.error .sql)) s)
    (hnext : ∀ a, (next a).Meets P) (answer : Option α) : (querying s left next answer).Meets P := by
  cases answer with
  | none => exact hfail
  | some a => exact hnext a

theorem ite_meets {p : Prop} [Decidable p] {c c' : Config} (hc : p → c.Meets P) (hc' : ¬ p → c'.Meets P) :
    (if p then c else c').Meets P := by
  split_ifs with h
  · exact hc h
  · exact hc' h

theorem exchange_meets {k : Nat} (hline : ∀ k, P (.authLine k) s)
    (hcut : P (.finished (.error .unfinished)) s) : (exchange s left k).Meets P := by
  cases k with
  | zero => exact hcut
  | succ k => exact hline k

theorem body_meets {k : Nat} (hline : ∀ k, P (.bodyLine k) s)
    (hcut : P (.finished (.error .unfinished)) s) : (body s left k).Meets P := by
  cases k with
  | zero => exact hcut
  | succ k => exact hline k

theorem naming_meets (hname : P .name s) (hheader : ∀ name name', P (.header name name') s) :
    (naming ctx s left).Meets P := by
  unfold naming
  split_ifs
  · exact hheader _ _
  · exact hname

theorem zones_meets {rbls : List Bytes} (hzone : ∀ rbl rbls, P (.zone rbl rbls) s)
    (hpause : P .pause s) (hbanner : (greet ctx s left).Meets P) :
    (zones ctx s left rbls).Meets P := by
  cases rbls with
  | nil =>
    unfold zones
    split_ifs
    · exact hpause
    · exact hbanner
  | cons rbl rbls => exact hzone rbl rbls

/-- The places after the second switch. -/
structure Second (P : Point → Session → Prop) (s : Session) : Prop where
  send : s.command.cmd ≠ .AUTH → P .send s
  authSend : s.command.cmd = .AUTH → P .authSend s
  challenge : s.command.cmd = .AUTH → s.secure = true → ∀ stage, P (.challenge stage) s
  lookup : s.command.cmd = .AUTH → s.secure = true → ∀ username password,
    P (.lookup username password) s
  deny : s.command.cmd = .AUTH → ∀ code ∈ [500, 535, 538],
    P .refusal { s with deferrederror := .set code, response := .set code }

theorem credentials_meets {found : Option (Bytes × Bytes)}
    (hdeny : P .refusal { s with deferrederror := .set 535, response := .set 535 })
    (hlookup : ∀ username password, P (.lookup username password) s) :
    (credentials s left found).Meets P := by
  rcases found with _ | ⟨username, password⟩
  · exact hdeny
  · exact hlookup username password

theorem Second.internal (hP : Second P s) (hc : s.command.cmd = .AUTH) :
    (internal s left).Meets P := by
  unfold Config.internal
  cases hsecure : s.secure with
  | false => exact hP.deny hc 538 (by decide)
  | true =>
    simp only [Bool.not_true, Bool.false_eq_true, ↓reduceIte]
    have hcredentials : ∀ found, (credentials s left found).Meets P := fun _ =>
      credentials_meets (hP.deny hc 535 (by decide)) (hP.lookup hc hsecure)
    split_ifs
    · exact hP.challenge hc hsecure .plain
    · exact hcredentials _
    · exact hP.challenge hc hsecure .plain
    · exact hP.challenge hc hsecure .username
    · exact hP.deny hc 535 (by decide)

theorem Second.meets (hP : Second P s) : (second ctx s left).Meets P := by
  unfold second
  split_ifs with hc
  · cases ctx.settings.externalauthmode with
    | NoAuth => exact hP.deny hc 500 (by decide)
    | ProxyAuth => exact hP.authSend hc
    | InternalAuth => exact hP.internal hc
  · exact hP.send hc

/-- The places on the way to the inside server. -/
structure Proceed (P : Point → Session → Prop) (s : Session) : Prop where
  dial : s.connected = false → P .dial s
  second : s.connected = true → Second P s

theorem Proceed.meets (hP : Proceed P s) : (proceed ctx s left).Meets P := by
  unfold proceed
  cases hconnected : s.connected with
  | false => exact hP.dial hconnected
  | true => exact (hP.second hconnected).meets

/-- The places after the first switch. -/
structure Dispatch (ctx : Context) (P : Point → Session → Prop) (s : Session) : Prop where
  help : s.command.cmd = .HELP → P .help { s with response := .set 214 }
  quit : s.command.cmd = .QUIT → P (.finished (.ok ())) s
  starttls : s.command.cmd = .STARTTLS → s.secure = false → P .starttls { s with response := .set 220 }
  deny : s.command.cmd = .STARTTLS → ∀ code ∈ [502, 503],
    P .refusal { s with deferrederror := .set code, response := .set code }
  domain : s.command.cmd = .HELO ∨ s.command.cmd = .EHLO → s.exempt = false → P .domain s
  sender : s.command.cmd = .MAIL → s.exempt = false →
    P .sender { s with _from := s.command.parameter }
  mail : s.command.cmd = .MAIL → s.exempt = false →
    Proceed P { s with _from := s.command.parameter }
  recipient : s.command.cmd = .RCPT → s.exempt = false → P .recipient s
  accepted : s.command.cmd = .RCPT → s.exempt = true → P (.counting .accepted true) s
  rset : s.command.cmd = .RSET → Proceed P { s with _from := ⟨[], oneLine_nil⟩ }
  refused : s.command.cmd = .DATA → s.errorstate = true →
    P .refusal { s with response := s.deferrederror }
  data : s.command.cmd = .DATA → s.errorstate = false → Proceed P s
  passed : s.command.cmd = .HELO ∨ s.command.cmd = .EHLO ∨ s.command.cmd = .MAIL →
    s.exempt = true → Proceed P s
  other : s.command.cmd ∈ [.VRFY, .EXPN, .NOOP, .AUTH] → Proceed P s

theorem Dispatch.meets (hP : Dispatch ctx P s) : (dispatch ctx s left).Meets P := by
  unfold dispatch
  cases hc : s.command.cmd with
  | HELP => exact hP.help hc
  | QUIT => exact hP.quit hc
  | STARTTLS =>
    dsimp only
    split_ifs with htls hsecure
    · exact hP.deny hc 503 (by decide)
    · exact hP.starttls hc (Bool.of_not_eq_true hsecure)
    · exact hP.deny hc 502 (by decide)
  | HELO =>
    dsimp only
    split_ifs with hexempt
    · exact (hP.passed (.inl hc) hexempt).meets
    · exact hP.domain (.inl hc) (Bool.of_not_eq_true hexempt)
  | EHLO =>
    dsimp only
    split_ifs with hexempt
    · exact (hP.passed (.inr (.inl hc)) hexempt).meets
    · exact hP.domain (.inr hc) (Bool.of_not_eq_true hexempt)
  | MAIL =>
    dsimp only
    split_ifs with hexempt
    · exact (hP.passed (.inr (.inr hc)) hexempt).meets
    · exact (hP.mail hc (Bool.of_not_eq_true hexempt)).meets
    · exact hP.sender hc (Bool.of_not_eq_true hexempt)
  | RCPT =>
    dsimp only
    split_ifs with hexempt
    · exact hP.accepted hc hexempt
    · exact hP.recipient hc (Bool.of_not_eq_true hexempt)
  | RSET => exact (hP.rset hc).meets
  | DATA =>
    dsimp only
    split_ifs with herror
    · exact hP.refused hc herror
    · exact (hP.data hc (Bool.of_not_eq_true herror)).meets
  | VRFY | EXPN | NOOP | AUTH => exact (hP.other (by simp [hc])).meets

theorem third_meets
    (habort : s.response.iserror → ctx.settings.intolerant ≠ 0 → P (.finished (.error .network)) s)
    (hnaming : s.command.cmd = .DATA → s.response.issuccess → (naming ctx s left).Meets P)
    (hquit : s.command.cmd = .QUIT → P (.finished (.ok ())) s)
    (hagain : ¬ (s.response.iserror ∧ ctx.settings.intolerant ≠ 0) → (again s left).Meets P) :
    (third ctx s left).Meets P := by
  unfold third
  by_cases herror : s.response.iserror ∧ ctx.settings.intolerant ≠ 0
  · rw [if_pos herror]
    exact habort herror.1 herror.2
  · rw [if_neg herror]
    cases hc : s.command.cmd with
    | DATA =>
      dsimp only
      split_ifs with hsuccess
      · exact hnaming hc hsuccess
      · exact hagain herror
    | QUIT => exact hquit hc
    | _ => exact hagain herror

theorem refused_meets (habort : ctx.settings.intolerant ≠ 0 → P (.finished (.error .network)) s)
    (hagain : ctx.settings.intolerant = 0 → (again { s with errorstate := false } left).Meets P) :
    (refused ctx s left).Meets P := by
  unfold refused
  split_ifs with hi
  · exact habort hi
  · exact hagain (by simpa using hi)

theorem parsed_meets {l : Line}
    (hunparsed : s.command.set l = none → P .syntaxError { s with response := .set 500 })
    (hparsed : ∀ c, s.command.set l = some c → Dispatch ctx P { s with command := c }) :
    (parsed ctx s left l).Meets P := by
  unfold parsed
  cases hset : s.command.set l with
  | none => exact hunparsed hset
  | some c => exact (hparsed c hset).meets

theorem answered_meets {stage : Challenge} {a : Bytes} (hchallenge : ∀ stage, P (.challenge stage) s)
    (hcredentials : ∀ found, (credentials s left found).Meets P) :
    (answered s left a stage).Meets P := by
  cases stage with
  | plain => exact hcredentials _
  | username => exact hchallenge _
  | password => exact hcredentials _

/-! ## What the silent parts change -/

/-- Only the pending reply and the deferred error may differ. -/
def Alike (s s' : Session) : Prop :=
  ∃ r d, s' = { s with response := r, deferrederror := d }

theorem second_alike (connected : Bool) (r : SMTPResponse) :
    Second (fun _ s' => Alike { s with connected } s') { s with response := r, connected } where
  send _ := ⟨_, _, rfl⟩
  authSend _ := ⟨_, _, rfl⟩
  challenge _ _ _ := ⟨_, _, rfl⟩
  lookup _ _ _ _ := ⟨_, _, rfl⟩
  deny _ _ _ := ⟨_, _, rfl⟩

theorem proceed_alike : Proceed (fun _ => Alike s) s where
  dial _ := ⟨_, _, rfl⟩
  second _ := second_alike s.connected s.response

/-- The sender that a command leaves in `_from`. -/
def sender (s : Session) : Line :=
  match s.command.cmd with
  | .MAIL => if s.exempt then s._from else s.command.parameter
  | .RSET => ⟨[], oneLine_nil⟩
  | _ => s._from

theorem dispatch_alike :
    (dispatch ctx s left).Meets fun _ => Alike { s with _from := sender s } := by
  unfold dispatch sender
  cases s.command.cmd with
  | HELP => exact ⟨_, _, rfl⟩
  | QUIT => exact ⟨_, _, rfl⟩
  | STARTTLS =>
    dsimp only
    split_ifs
    · exact ⟨_, _, rfl⟩
    · exact ⟨_, _, rfl⟩
    · exact ⟨_, _, rfl⟩
  | HELO | EHLO =>
    dsimp only
    split_ifs
    · exact proceed_alike.meets
    · exact ⟨_, _, rfl⟩
  | MAIL =>
    dsimp only
    split_ifs
    · exact proceed_alike.meets
    · exact proceed_alike.meets
    · exact ⟨_, _, rfl⟩
  | RCPT =>
    dsimp only
    split_ifs
    · exact ⟨_, _, rfl⟩
    · exact ⟨_, _, rfl⟩
  | DATA =>
    dsimp only
    split_ifs
    · exact ⟨_, _, rfl⟩
    · exact proceed_alike.meets
  | RSET | VRFY | EXPN | NOOP | AUTH => exact proceed_alike.meets

/-- What every step but the opening one, a verdict and a command keeps. -/
structure Kept (P : Session → Prop) : Prop where
  reply : ∀ {s} r d, P s → P { s with response := r, deferrederror := d }
  connected : ∀ {s} connected, P s → P { s with connected }
  authenticated : ∀ {s} authenticated, P s → P { s with authenticated }
  secure : ∀ {s} secure, P s → P { s with secure }
  cleared : ∀ {s}, P s → P { s with errorstate := false }

section
variable {P : Session → Prop}

theorem Kept.alike (hP : Kept P) {s'' : Session} (hs : P s) (ha : Alike s s'') : P s'' := by
  obtain ⟨r, d, rfl⟩ := ha
  exact hP.reply r d hs

theorem kept_again (hs : P s) : P (again s left).session := again_meets (P := fun _ => P) hs hs

theorem Kept.greet (hP : Kept P) (hs : P s) : P (greet ctx s left).session := hP.reply _ _ hs

theorem Kept.zones (hP : Kept P) (hs : P s) {rbls : List Bytes} : P (zones ctx s left rbls).session :=
  zones_meets (P := fun _ => P) (fun _ _ => hs) hs (hP.greet hs)

theorem Kept.deny (hP : Kept P) (hs : P s) (r : SMTPResponse) : P (deny s left r).session :=
  hP.alike hs ⟨r, r, rfl⟩

theorem Kept.proceed (hP : Kept P) (hs : P s) : P (proceed ctx s left).session :=
  hP.alike hs proceed_alike.meets

theorem Kept.second (hP : Kept P) (hs : P s) (r : SMTPResponse) :
    P (second ctx { s with response := r, connected := true } left).session :=
  hP.alike (hP.connected true hs) (second_alike true r).meets

theorem Kept.credentials (hP : Kept P) (hs : P s) {found : Option (Bytes × Bytes)} :
    P (credentials s left found).session :=
  credentials_meets (P := fun _ => P) (hP.alike hs ⟨_, _, rfl⟩) fun _ _ => hs

theorem Kept.secured (hP : Kept P) (hs : P s) : P (secured s) :=
  hP.authenticated false (hP.cleared (hP.connected false (hP.secure true hs)))

end

/-- A property of the state that the steps keep. -/
theorem session_step {P : Session → Prop} (ctx : Context) (rounds : Nat) {c : Config} (hP : Kept P)
    (hopening : c.point = .opening → ∀ {s} trusted, P s → P { s with trusted })
    (hverdict : c.point = .greylisting → ∀ {s}, P s → P { s with errorstate := true })
    (hcommand : c.point = .head → ∀ {s} command sender, P s →
      P { s with command, _from := sender }) (hs : P c.session) :
    (machine ctx rounds c).All fun _ c' => P c'.session := by
  obtain ⟨point, s, left⟩ := c
  cases point with
  | opening =>
    rintro (_ | _ | _)
    · exact hs
    · exact hP.zones (hopening rfl false hs)
    · exact hP.greet (hopening rfl true hs)
  | zone =>
    rintro (_ | _)
    · exact hP.zones hs
    · exact hP.reply _ _ hs
  | pause =>
    rintro (_ | _)
    · exact hP.greet hs
    · exact hP.reply _ _ hs
  | head =>
    rintro (_ | l)
    · exact hs
    · show P (parsed ctx s left l).session
      unfold parsed
      cases s.command.set l with
      | none => exact hP.reply _ _ hs
      | some c => exact hP.alike (hcommand rfl c _ hs) dispatch_alike
  | syntaxError =>
    apply orRaise_meets (P := fun _ => P) hs
    exact ite_meets (fun _ => hs) fun _ => kept_again hs
  | handshake =>
    intro done
    cases done with
    | false => exact hs
    | true =>
      have hsecured : P (secured s) := hP.secured hs
      exact ite_meets (P := fun _ => P) (fun _ => hsecured) fun _ => kept_again hsecured
  | hangUp => exact fun _ => kept_again hs
  | domain | sender =>
    intro _
    exact ite_meets (P := fun _ => P) (fun _ => hP.proceed hs) fun _ => hP.reply _ _ hs
  | recipient =>
    intro _
    exact ite_meets (P := fun _ => P) (fun _ => hs) fun _ => hP.reply _ _ hs
  | acceptance =>
    apply querying_meets (P := fun _ => P) hs
    intro _
    exact ite_meets (fun _ => hs) fun _ => hP.reply _ _ hs
  | greylisting =>
    apply querying_meets (P := fun _ => P) hs
    intro verdict
    cases verdict with
    | Accepted => exact hs
    | BlackListed => exact hP.reply s.response _ (hverdict rfl hs)
    | GreyListed => exact hP.reply s.response _ (hverdict rfl hs)
  | counting counter passes =>
    apply orRaise_meets (P := fun _ => P) hs
    cases passes with
    | false => exact hP.alike hs ⟨_, _, rfl⟩
    | true => exact hP.proceed hs
  | refusal =>
    apply orRaise_meets (P := fun _ => P) hs
    exact refused_meets (fun _ => hs) fun _ => kept_again (hP.cleared hs)
  | dial =>
    intro connected
    cases connected with
    | false => exact hP.reply _ _ hs
    | true => exact hs
  | greeting =>
    intro greeting
    cases greeting with
    | error _ => exact hP.reply _ _ hs
    | ok r => exact ite_meets (P := fun _ => P) (fun _ => hP.second hs _) fun _ => hP.reply _ _ hs
  | noDownstream => exact fun _ => hs
  | reply | authReply | authAnswer | bodyReply =>
    exact reading_meets (P := fun _ => P) (fun _ => hs) fun _ => hP.reply _ _ hs
  | relay =>
    apply orRaise_meets (P := fun _ => P) hs
    exact third_meets (fun _ _ => hs) (fun _ _ => naming_meets hs fun _ _ => hs) (fun _ => hs)
      fun _ => kept_again hs
  | authRelay =>
    apply orRaise_meets (P := fun _ => P) hs
    exact ite_meets (fun _ => exchange_meets (fun _ => hs) hs) fun _ => kept_again hs
  | authPass k =>
    apply orRaise_meets (P := fun _ => P) hs
    apply ite_meets fun _ => exchange_meets (fun _ => hs) hs
    exact fun _ => ite_meets (fun _ => kept_again (hP.authenticated true hs)) fun _ => kept_again hs
  | conversation stage =>
    apply reading_meets (P := fun _ => P) fun _ => hs
    intro l
    exact ite_meets (fun _ => hP.deny hs _) fun _ =>
      answered_meets (fun _ => hs) fun _ => hP.credentials hs
  | lookup =>
    intro found
    cases found with
    | none => exact hP.deny hs _
    | some n => exact ite_meets (P := fun _ => P) (fun _ => hP.deny hs _) fun _ => hP.reply _ _ hs
  | authenticated =>
    exact orRaise_meets (P := fun _ => P) hs (kept_again (hP.authenticated true hs))
  | name | name' => exact fun _ => hs
  | header => exact orRaise_meets (P := fun _ => P) hs (body_meets (fun _ => hs) hs)
  | bodyForward k l =>
    apply orRaise_meets (P := fun _ => P) hs
    exact ite_meets (fun _ => hs) fun _ => body_meets (fun _ => hs) hs
  | banner | help | bodyRelay => exact orRaise_meets (P := fun _ => P) hs (kept_again hs)
  | starttls | send | authSend | authForward | challenge =>
    exact orRaise_meets (P := fun _ => P) hs hs
  | authLine | bodyLine => exact reading_meets (P := fun _ => P) (fun _ => hs) fun _ => hs
  | finished => trivial

/-- Only a command changes the sender. -/
theorem from_step (ctx : Context) (rounds : Nat) {c : Config} (hc : c.point ≠ .head) :
    (machine ctx rounds c).All fun _ c' => c'.session._from = c.session._from := by
  have hP : Kept fun s => s._from = c.session._from :=
    ⟨fun _ _ hs => hs, fun _ hs => hs, fun _ hs => hs, fun _ hs => hs, fun hs => hs⟩
  exact session_step ctx rounds hP (fun _ _ _ hs => hs) (fun _ _ hs => hs) (fun hp => absurd hp hc) rfl

/-- Trust is decided when the session opens. -/
theorem trusted_step (ctx : Context) (rounds : Nat) {c : Config} (hc : c.point ≠ .opening) :
    (machine ctx rounds c).All fun _ c' => c'.session.trusted = c.session.trusted := by
  have hP : Kept fun s => s.trusted = c.session.trusted :=
    ⟨fun _ _ hs => hs, fun _ hs => hs, fun _ hs => hs, fun _ hs => hs, fun hs => hs⟩
  exact session_step ctx rounds hP (fun hp => absurd hp hc) (fun _ _ hs => hs) (fun _ _ _ _ hs => hs) rfl

end Config

end Spey
