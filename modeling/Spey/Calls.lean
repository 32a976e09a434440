import Spey.Interaction.Action
import Spey.SMTPCommand
import Spey.SMTPResponse

/-!
# What a session calls

`MessageProcessor` works on two sockets, the database, the resolver and the TLS
library. Each call out of it is a `Call`, with the type of its answers; the
label of a socket call says from where in the source it is made. The two checks
of addresses are calls as well, although they only look at their argument, so
that a history shows that they were made.

A session is modelled under constant settings. They are statics of the whole process, which the
server reloads before it accepts a connection, also while sessions go on.
-/

namespace Spey

inductive GreylistResponse where
  | Accepted | BlackListed | GreyListed
  deriving DecidableEq, Repr

inductive AuthMode where
  | NoAuth | ProxyAuth | InternalAuth
  deriving DecidableEq, Repr

/-- The settings a session reads. -/
structure Settings where
  identity : Bytes
  intolerant : Int
  quarantinetime : Int
  greetpause : Int
  externaltls : Bool
  externalauthmode : AuthMode
  rbllist : Bytes

/-- What is fixed during a session: the settings, whether the program was built
with GNUTLS, and the peer's address in host byte order with its port. -/
structure Context where
  settings : Settings
  gnutls : Bool
  address : UInt32
  port : UInt16

/-- The counters of `Statistics`. -/
inductive Counter where
  | malformedDomain | malformedAddress | spokeTooSoon | timeout | illegalRelaying | greylisted
  | accepted | blacklisted | whitelisted | blackholed
  deriving DecidableEq, Repr

/-- Where a line is read from the client: as a command, as the answer to a
proxied AUTH challenge or to one of spey's own, or as part of a message body. -/
inductive ReadSite where
  | command | authLine | conversation | bodyLine
  deriving DecidableEq, Repr

/-- Where a reply is written to the client. -/
inductive ReplySite where
  | banner | syntaxError | help | starttls | noDownstream | proxiedAuth | challenge | authenticated
  | relay | bodyResult
  /-- the `error:` label -/
  | refusal
  deriving DecidableEq, Repr

/-- What is written to the inside server. -/
inductive Item where
  | command (c : SMTPCommand)
  | authLine (l : Line)
  | header (s : Bytes)
  | bodyLine (l : Line)

/-- The string that goes through `writeline`. -/
def Item.string : Item → Bytes
  | .command c => c.string
  | .authLine l => l.bytes
  | .header s => s
  | .bodyLine l => l.bytes

inductive Call where
  /-- `_outside.readline()` -/
  | outReadline (site : ReadSite)
  /-- `_outside.read(buf, 1, delay)` -/
  | outRead (delay : Int)
  /-- `_outside.writeline(response)` -/
  | outReply (site : ReplySite) (r : SMTPResponse)
  /-- `_outside.makesecure()` -/
  | makesecure
  /-- `_inside.init(ServerProcessor::ToAddress)` -/
  | connect
  /-- `_inside.deinit()` -/
  | deinit
  /-- `_response.set(_inside)` -/
  | readReply
  /-- `_inside.writeline(item)` -/
  | inWriteline (item : Item)
  | gethostbyname (name : Bytes)
  /-- `gethostbyaddr` on the client's address -/
  | gethostbyaddr
  | testtrusted (sender : UInt32)
  | testacceptance (recipient : Bytes)
  | greylist (sender : UInt32) (fromaddress toaddress : Bytes)
  /-- `SELECT COUNT(*) FROM users WHERE username=.. AND password=..`, as `getint(0)` returns it -/
  | users (username password : Bytes)
  | count (counter : Counter)
  | verifydomain (domain : Bytes)
  | verifyaddress (address : Bytes)

/-- The answers: `false` and `none` are the call's exception, where it has one. -/
abbrev Ans : Call → Type
  | .outReadline _ => Except ReadFailure Line
  | .outRead _ => Bool
  | .outReply _ _ => Bool
  | .makesecure => Bool
  | .connect => Bool
  | .deinit => Unit
  | .readReply => Except ReadFailure Reply
  | .inWriteline _ => Bool
  | .gethostbyname _ => Bool
  | .gethostbyaddr => Option Bytes
  | .testtrusted _ => Option Bool
  | .testacceptance _ => Option Bool
  | .greylist _ _ _ => Option GreylistResponse
  | .users _ _ => Option Int
  | .count _ => Bool
  | .verifydomain _ => Unit
  | .verifyaddress _ => Unit

/-- The members of a `MessageProcessor` and the locals of `process`. -/
structure Session where
  _from : Line := ⟨[], oneLine_nil⟩
  command : SMTPCommand := {}
  response : SMTPResponse := {}
  /-- `_outside._issecure` -/
  secure : Bool := false
  deferrederror : SMTPResponse := {}
  errorstate : Bool := false
  connected : Bool := false
  authenticated : Bool := false
  trusted : Bool := false

/-- A part of the session's code. -/
abbrev Proc := Interaction.Action Ans Exn Session

abbrev ask (c : Call) : Proc (Ans c) := Interaction.Action.call c

/-- The histories of sessions. -/
abbrev Log := Interaction.History Ans

end Spey
