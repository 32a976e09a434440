import Spey.Auth
import Spey.Interaction.History

/-!
# What happens in a session

The events that the properties of whole sessions speak about.
-/

namespace Spey

open Interaction

/-- `greylist` refuses a recipient. -/
@[simp] def refuses : Event Ans → Bool
  | ⟨.greylist _ _ _, some .GreyListed⟩ | ⟨.greylist _ _ _, some .BlackListed⟩ => true
  | _ => false

@[simp] def refusal (e : Event Ans) (_ : Log) : Prop := refuses e
  deriving Decidable

/-- The client's address is a trusted one. -/
@[simp] def trusts : Event Ans → Bool
  | ⟨.testtrusted _, some true⟩ => true
  | _ => false

@[simp] def trusted (e : Event Ans) (_ : Log) : Prop := trusts e
  deriving Decidable

/-- A handshake is completed. -/
@[simp] def handshakes : Event Ans → Bool
  | ⟨.makesecure, true⟩ => true
  | _ => false

@[simp] def handshake (e : Event Ans) (_ : Log) : Prop := handshakes e
  deriving Decidable

@[simp] def disconnects : Event Ans → Bool
  | ⟨.deinit, _⟩ => true
  | _ => false

/-- A completed handshake drops the inside connection. -/
@[simp] def dropped (e : Event Ans) (past : Log) : Prop :=
  disconnects e ∧ past.head?.any handshakes
  deriving Decidable

/-- A DATA command, or a part of a message, goes to the inside server. -/
@[simp] def entersData : Event Ans → Bool
  | ⟨.inWriteline (.command c), _⟩ => c.cmd = .DATA
  | ⟨.inWriteline (.header _), _⟩ | ⟨.inWriteline (.bodyLine _), _⟩ => true
  | _ => false

/-- The verb of a command line that was read, where it parses. -/
@[simp] def commandVerb : Event Ans → Option Verb
  | ⟨.outReadline .command, .ok l⟩ => (SMTPCommand.parse l.bytes).map Prod.fst
  | _ => none

/-- A line is read as a command. -/
@[simp] def readsCommand : Event Ans → Bool
  | ⟨.outReadline .command, _⟩ => true
  | _ => false

@[simp] def commandRead (e : Event Ans) (_ : Log) : Prop := readsCommand e
  deriving Decidable

/-- A reply is written at the `error:` label. -/
@[simp] def refusesCommand : Event Ans → Bool
  | ⟨.outReply .refusal _, _⟩ => true
  | _ => false

/-- A part of a message goes to the inside server. -/
@[simp] def entersBody : Event Ans → Bool
  | ⟨.inWriteline (.header _), _⟩ | ⟨.inWriteline (.bodyLine _), _⟩ => true
  | _ => false

/-- The code of a reply that the inside server has sent. -/
@[simp] def replyCode : Event Ans → Option Nat
  | ⟨.readReply, .ok r⟩ => some r.response.code
  | _ => none

/-- The reply that this event gives to the client. -/
def given : Event Ans → Option SMTPResponse
  | ⟨.outReply _ r, _⟩ => some r
  | _ => none

@[simp] def readsReply : Event Ans → Bool
  | ⟨.readReply, _⟩ => true
  | _ => false

@[simp] def forwardsAuth : Event Ans → Bool
  | ⟨.inWriteline (.command c), _⟩ => c.cmd = .AUTH
  | _ => false

@[simp] def forwardsAuthLine : Event Ans → Bool
  | ⟨.inWriteline (.authLine _), _⟩ => true
  | _ => false

/-- The line that is read as a command. -/
@[simp] def commandLine : Event Ans → Option Line
  | ⟨.outReadline .command, .ok l⟩ => some l
  | _ => none

/-- The last line that was read as a command. -/
def lastLine : Log → Option Line
  | [] => none
  | e :: past => (commandLine e).or (lastLine past)

@[simp] theorem lastLine_cons (e : Event Ans) (past : Log) :
    lastLine (e :: past) = (commandLine e).or (lastLine past) := rfl

/-- The command that was read last, if its line parses. -/
def lastCommand (h : Log) : Option SMTPCommand.Parsed :=
  (lastLine h).bind fun l => SMTPCommand.parse l.bytes

theorem lastCommand_cons {e : Event Ans} (he : commandLine e = none) (past : Log) :
    lastCommand (e :: past) = lastCommand past := by
  rw [lastCommand, lastLine_cons, he]
  rfl

/-! ## The credentials of an exchange -/

/-- The user name and the password in the string that `auth_plain` gets. -/
def plainCredentials (a : Bytes) : Option (Bytes × Bytes) := do
  let buffer ← base64_decode a
  if buffer.count 0 ≠ 2 then none
  else some (cstr (afterNul buffer), cstr (afterNul (afterNul buffer)))

/-- The user name and the password in the two answers that `auth_login` gets. -/
def loginCredentials (username64 password64 : Bytes) : Option (Bytes × Bytes) := do
  let username ← base64_decode username64
  let password ← base64_decode password64
  return (cstr username, cstr password)

/-- PLAIN has its string in the initial response, or else in the client's answer. -/
def plainExchange (initial : Bytes) (answers : List Bytes) : Option (Bytes × Bytes) :=
  if initial = [] then
    match answers with
    | [a] => plainCredentials a
    | _ => none
  else plainCredentials initial

def loginExchange : List Bytes → Option (Bytes × Bytes)
  | [username64, password64] => loginCredentials username64 password64
  | _ => none

/-- The credentials that an exchange presents, by the parameter of AUTH and the client's
answers. -/
def presented (parameter : Bytes) (answers : List Bytes) : Option (Bytes × Bytes) :=
  if parameter.take 6 = text "plain " then plainExchange (parameter.drop 6) answers
  else if parameter = text "plain" then plainExchange [] answers
  else if parameter = text "login" then loginExchange answers
  else none

/-- What the client has answered to challenges since the last command line, in order. -/
def answers : Log → List Bytes
  | [] => []
  | ⟨.outReadline .command, _⟩ :: _ => []
  | ⟨.outReadline .conversation, .ok l⟩ :: past => answers past ++ [l.bytes]
  | _ :: past => answers past

/-- A command line is read, or an answer to a challenge. -/
@[simp] def speaks : Event Ans → Bool
  | ⟨.outReadline .command, _⟩ | ⟨.outReadline .conversation, _⟩ => true
  | _ => false

theorem answers_cons {e : Event Ans} (he : speaks e = false) (past : Log) :
    answers (e :: past) = answers past := by
  obtain ⟨c, x⟩ := e
  cases c with
  | outReadline site =>
    cases site with
    | command | conversation => cases he
    | _ => rfl
  | _ => rfl

end Spey
