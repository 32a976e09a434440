import Spey.Auth

/-!
# MessageProcessor.cc and rbl.cc

`process` is cut at its labels: a part of the loop body that can leave it by
`continue`, `goto error`, `goto abort` or `return` gives the `Jump` it takes.
The unbounded loops take the number of rounds they are observed for.
-/

namespace Spey

open Interaction.Action

/-- How control goes on after a part of the loop body. -/
inductive Jump where
  /-- on to the next statement -/
  | fall
  /-- `continue` -/
  | next
  /-- `goto error` -/
  | error
  /-- `goto abort` -/
  | abort
  /-- `return` -/
  | ret
  deriving DecidableEq, Repr

/-! ## The two sockets -/

def readinside : Proc Unit := do
  match ← ask .readReply with
  | .error e => raise e.exn
  | .ok r => update fun s => { s with response := r.response }

def inWriteline (item : Item) : Proc Unit := do
  if ← ask (.inWriteline item) then pure () else raise .network

def writeinside : Proc Unit := do
  let s ← getState
  inWriteline (.command s.command)

def outReadline (site : ReadSite) : Proc Line := do
  match ← ask (.outReadline site) with
  | .error e => raise e.exn
  | .ok l => pure l

def readoutside : Proc Unit := do
  let l ← outReadline .command
  let s ← getState
  match s.command.set l with
  | none => raise .invalidSMTPCommand
  | some c => update fun s => { s with command := c }

def writeoutside (site : ReplySite) : Proc Unit := do
  let s ← getState
  if ← ask (.outReply site s.response) then pure () else raise .network

def respond (r : SMTPResponse) : Proc Unit := update fun s => { s with response := r }

def defer (r : SMTPResponse) : Proc Unit := update fun s => { s with deferrederror := r }

/-! ## The database -/

def count (counter : Counter) : Proc Unit := do
  if ← ask (.count counter) then pure () else raise .sql

def sql {α : Type} (c : Call) (answer : Ans c → Option α) : Proc α := do
  match answer (← ask c) with
  | none => raise .sql
  | some a => pure a

/-! ## The checks -/

def verifydomain (domain : Bytes) : Proc Unit := do
  let _ ← ask (.verifydomain domain)
  if byte '.' ∈ domain then pure () else raise .malformedDomain

def verifyaddress (address : Bytes) : Proc Unit := do
  let _ ← ask (.verifyaddress address)
  if byte '@' ∈ address then pure () else raise .malformedAddress

/-- The four octets of a word from the low one up, with dots between them. -/
def octets (w : Nat) : Bytes :=
  decimal (w % 256) ++ text "." ++ decimal (w / 256 % 256) ++ text "."
    ++ decimal (w / 65536 % 256) ++ text "." ++ decimal (w / 16777216 % 256)

/-- The name that `rblcheck` looks up for a zone. -/
def rblname (sender : UInt32) (rbldomain : Bytes) : Bytes :=
  octets sender.toNat ++ text "." ++ rbldomain

/-- The loop over `rbl-list`: is the address listed in one of the zones? -/
def rblLoop (ctx : Context) : List Bytes → Proc Bool
  | [] => pure false
  | rbl :: rbls => do
      if ← ask (.gethostbyname (rblname ctx.address rbl)) then
        defer (.setMessage 554
          (text "5.7.1 Rejected: your IP address is listed in the " ++ rbl ++ text " RBL"))
        count .blackholed
        pure true
      else rblLoop ctx rbls

def greetPause (ctx : Context) : Proc Bool := do
  if 0 < ctx.settings.greetpause then
    if ← ask (.outRead ctx.settings.greetpause) then
      defer (.setMessage 554 (text "5.7.1 Rejected: protocol violation"))
      count .spokeTooSoon
      pure true
    else pure false -- the timeout is what was expected
  else pure false

/-! ## The commands that spey looks at itself -/

def starttls (ctx : Context) : Proc Jump := do
  if ctx.gnutls ∧ ctx.settings.externaltls then
    let s ← getState
    if s.secure then
      defer (.set 503)
      pure .error
    else
      respond (.set 220)
      writeoutside .starttls
      if ← ask .makesecure then
        -- the session is reset by disconnecting from the downstream server
        if s.connected then
          let _ ← ask .deinit
        update fun s => { s with
          secure := true, connected := false, errorstate := false, authenticated := false }
        pure .next
      else raise .network
  else
    defer (.set 502)
    pure .error

def hello : Proc Jump := do
  let s ← getState
  if !s.authenticated && !s.trusted then
    handle (do
        verifydomain s.command.parameter.bytes
        pure .fall)
      fun
        | .malformedDomain => some do
            defer (.setMessage 554 (text "Illegal domain name"))
            count .malformedDomain
            pure .error
        | _ => none
  else pure .fall

def mail : Proc Jump := do
  let s ← getState
  if !s.authenticated && !s.trusted then
    handle (do
        update fun s => { s with _from := s.command.parameter }
        if s.command.parameter.bytes ≠ [] then verifyaddress s.command.parameter.bytes
        pure .fall)
      fun
        | .malformedAddress => some do
            defer (.set 501)
            count .malformedAddress
            pure .error
        | _ => none
  else pure .fall

def blackmessage : Proc Jump := do
  defer (.setMessage 554
    (text "You have been blacklisted. " ++ text "Your message will not be accepted."))
  update fun s => { s with errorstate := true }
  count .blacklisted
  pure .fall

def greymessage (ctx : Context) : Proc Jump := do
  defer (.setMessage 451
    (text "Greylisted - try again in " ++ decimal (ctx.settings.quarantinetime.tdiv 60)
      ++ text " minutes and your message will be accepted"))
  update fun s => { s with errorstate := true }
  count .greylisted
  pure .fall

/-- The address without its host part, as `greylist` gets it. -/
def network24 (address : UInt32) : UInt32 := address &&& 0xFFFFFF00

/-- The checks of a recipient; `none` is `goto error`. -/
def judge (ctx : Context) : Proc (Option GreylistResponse) := do
  let s ← getState
  handle (do
      let address := s.command.parameter.bytes
      verifyaddress address
      if ← sql (.testacceptance address) id then
        let v ← sql (.greylist (network24 ctx.address) s._from.bytes address) id
        pure (some v)
      else raise .illegalRelaying)
    fun
      | .malformedAddress => some do
          defer (.set 551)
          count .malformedAddress
          pure none
      | .illegalRelaying => some do
          defer (.setMessage 550 (text "Relaying not permitted"))
          count .illegalRelaying
          pure none
      | _ => none

def rcpt (ctx : Context) : Proc Jump := do
  let s ← getState
  let verdict ← if !s.authenticated && !s.trusted then judge ctx else pure (some .Accepted)
  match verdict with
  | none => pure .error
  | some .Accepted => do
      count .accepted
      pure .fall
  | some .GreyListed => greymessage ctx
  | some .BlackListed => blackmessage

def rset : Proc Jump := do
  update fun s => { s with _from := ⟨[], oneLine_nil⟩ }
  pure .fall

def data : Proc Jump := do
  let s ← getState
  if s.errorstate then pure .error else pure .fall

/-- The first switch: what happens before the inside server is needed. -/
def screen (ctx : Context) : Proc Jump := do
  let s ← getState
  match s.command.cmd with
  | .HELP => do
      respond (.set 214)
      writeoutside .help
      pure .next
  | .QUIT => pure .ret
  | .STARTTLS => starttls ctx
  | .HELO | .EHLO => hello
  | .MAIL => mail
  | .RCPT => rcpt ctx
  | .RSET => rset
  | .DATA => data
  | .VRFY | .EXPN | .NOOP | .AUTH => pure .fall

/-! ## The inside server -/

def connectInside : Proc Unit := do
  let s ← getState
  if s.connected then pure ()
  else
    handle (do
        if ← ask .connect then
          readinside
          let s ← getState
          if s.response.code = 220 then update fun s => { s with connected := true }
          else raise .network
        else raise .network)
      fun e =>
        if e.isNetwork then some do
          respond (.set 421)
          writeoutside .noDownstream
          raise .network
        else none

/-- One round of the proxied exchange: the client's answer to a challenge. -/
def authRound : Proc (Option Unit) := do
  let l ← outReadline .authLine
  inWriteline (.authLine l)
  readinside
  writeoutside .proxiedAuth
  let s ← getState
  if s.response.code = 334 then pure none else pure (some ())

def proxyAuth (rounds : Nat) : Proc Jump := do
  writeinside
  readinside
  writeoutside .proxiedAuth
  let s ← getState
  if s.response.code ≠ 334 then pure .next
  else
    repeatUntil .unfinished authRound rounds
    let s ← getState
    if s.response.code ≠ 235 then pure .next
    else
      update fun s => { s with authenticated := true }
      pure .next

/-- The authenticator that an AUTH parameter names, with its initial response. -/
def authenticator (s : Bytes) : Option (Proc Nat) :=
  if s.take 6 = text "plain " then some (auth_plain (s.drop 6))
  else if s = text "plain" then some (auth_plain [])
  else if s = text "login" then some (auth_login [])
  else none

def internalAuth : Proc Jump := do
  let s ← getState
  if !s.secure then
    defer (.set 538)
    pure .error
  else
    match authenticator s.command.parameter.bytes with
    | none => do
        defer (.set 535)
        pure .error
    | some auth_cb => do
        let result ← handle auth_cb fun
          | .authenticationCancelled => some (pure 501)
          | _ => none
        if result ≠ 235 then
          defer (.set result)
          pure .error
        else
          respond (.set result)
          writeoutside .authenticated
          update fun s => { s with authenticated := true }
          pure .next

/-- The second switch. -/
def auth (ctx : Context) (rounds : Nat) : Proc Jump := do
  let s ← getState
  if s.command.cmd = .AUTH then
    match ctx.settings.externalauthmode with
    | .NoAuth => do
        defer (.set 500)
        pure .error
    | .ProxyAuth => proxyAuth rounds
    | .InternalAuth => internalAuth
  else pure .fall

/-- The capabilities that spey advertises after a 250 to EHLO. -/
def newcontinuation (ctx : Context) (continuation : List Bytes) : List Bytes :=
  (if ctx.gnutls ∧ ctx.settings.externaltls then [text "STARTTLS"] else [])
    ++ match ctx.settings.externalauthmode with
      | .NoAuth => []
      | .ProxyAuth => (continuation.find? fun s => s.take 5 = text "AUTH ").toList
      | .InternalAuth => [text "AUTH PLAIN LOGIN"]

/-- The tweaks of a 250 reply. -/
def tweak (ctx : Context) (cmd : Verb) (r : SMTPResponse) : SMTPResponse :=
  if r.code = 250 then
    { r with
      continuation :=
        if cmd = .EHLO then newcontinuation ctx r.continuation else r.continuation
      parameter := ctx.settings.identity }
  else r

/-- `SocketAddress::getname`: the resolver's name, or the dotted address. -/
def getname (ctx : Context) : Proc Bytes := do
  if ctx.address = 0 then pure (text "0.0.0.0")
  else
    match ← ask .gethostbyaddr with
    | some name => pure name
    | none =>
        let w := ctx.address.toNat
        pure (decimal (w / 16777216 % 256) ++ text "." ++ decimal (w / 65536 % 256) ++ text "."
          ++ decimal (w / 256 % 256) ++ text "." ++ decimal (w % 256))

/-- The Received header, of three lines. -/
def received (name name' : Bytes) (port : UInt16) (sender : Bytes) : Bytes :=
  text "Received: from " ++ name ++ text " and verified by Spey"
    ++ text "\n\tconnected from " ++ (name' ++ text ":" ++ decimal port.toNat)
    ++ text "\n\twith envelope " ++ sender

def bodyRound : Proc (Option Unit) := do
  let l ← outReadline .bodyLine
  inWriteline (.bodyLine l)
  if l.bytes = text "." then pure (some ()) else pure none

/-- The transfer of the message body after an accepted DATA. -/
def transfer (ctx : Context) (rounds : Nat) : Proc Unit := do
  let name ← getname ctx
  let name' ← getname ctx
  let s ← getState
  inWriteline (.header (received name name' ctx.port s._from.bytes))
  repeatUntil .unfinished bodyRound rounds
  readinside
  writeoutside .bodyResult

/-- The third switch. -/
def deliver (ctx : Context) (rounds : Nat) : Proc Jump := do
  let s ← getState
  match s.command.cmd with
  | .DATA =>
      if s.response.issuccess then do
        transfer ctx rounds
        pure .next
      else pure .next
  | .QUIT => pure .ret
  | _ => pure .next

/-- Passing on the command, and its result to the client. -/
def forward (ctx : Context) (rounds : Nat) : Proc Jump := do
  writeinside
  readinside
  update fun s => { s with response := tweak ctx s.command.cmd s.response }
  writeoutside .relay
  let s ← getState
  if s.response.iserror ∧ ctx.settings.intolerant ≠ 0 then pure .abort
  else deliver ctx rounds

/-! ## The session -/

/-- The `error:` label at the end of the loop body. -/
def errorLabel (ctx : Context) : Proc Jump := do
  update fun s => { s with response := s.deferrederror }
  writeoutside .refusal
  if ctx.settings.intolerant ≠ 0 then pure .abort
  else
    update fun s => { s with errorstate := false }
    pure .next

/-- Reading a command: false where the line does not parse. -/
def nextCommand : Proc Bool :=
  handle (do
      readoutside
      pure true)
    fun
      | .invalidSMTPCommand => some (pure false)
      | _ => none

/-- The loop body up to the `error:` label. -/
def command (ctx : Context) (rounds : Nat) : Proc Jump := do
  if ← nextCommand then
    match ← screen ctx with
    | .fall => do
        connectInside
        match ← auth ctx rounds with
        | .fall => forward ctx rounds
        | j => pure j
    | j => pure j
  else
    respond (.set 500)
    writeoutside .syntaxError
    if ctx.settings.intolerant ≠ 0 then pure .abort else pure .next

/-- Where control goes from the loop body; `some ()` leaves the loop. -/
def settle (ctx : Context) : Jump → Proc (Option Unit)
  | .fall | .next => pure none
  | .error => do
      match ← errorLabel ctx with
      | .abort => raise .network
      | _ => pure none
  | .abort => raise .network
  | .ret => pure (some ())

def session (ctx : Context) (rounds : Nat) : Proc Unit :=
  repeatUntil .unfinished (command ctx rounds >>= settle ctx) rounds

/-- The checks before the banner: is the connection rejected? -/
def door (ctx : Context) : Proc Bool := do
  let s ← getState
  if s.trusted then pure false
  else if ← rblLoop ctx (words ctx.settings.rbllist) then pure true
  else greetPause ctx

/-- `MessageProcessor::process`. -/
def process (ctx : Context) (rounds : Nat) : Proc Unit := do
  let trusted ← sql (.testtrusted ctx.address) id
  update fun s => { s with trusted := trusted }
  if ← door ctx then
    let _ ← settle ctx .error
    session ctx rounds
  else
    respond { code := 220, parameter := ctx.settings.identity }
    writeoutside .banner
    session ctx rounds

end Spey
