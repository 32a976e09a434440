import Spey.Socket

/-!
# SMTPResponse.cc

`SMTPResponse.set` builds a reply of spey's own, `SMTPResponse.read` is
`SMTPResponse::set(Socket&)` on the feed of the inside server. What a reply that
was read off a socket looks like is `SMTPResponse.Read`, and `Reply` carries it.
-/

namespace Spey

structure SMTPResponse where
  code : Nat := 0
  parameter : Bytes := []
  msgoverride : Bytes := []
  continuation : List Bytes := []
  deriving DecidableEq

namespace SMTPResponse

def set (code : Nat) (parameter : Bytes := []) : SMTPResponse := { code, parameter }

/-- `set(code)` and then `msgoverride(message)`. -/
def setMessage (code : Nat) (msgoverride : Bytes) : SMTPResponse := { code, msgoverride }

def statusMessage (code : Nat) : String :=
  match code with
  | 211 => "System status"
  | 214 => "No help here"
  | 220 => "Service ready"
  | 221 => "Service closing transmission channel"
  | 235 => "Authentication successful"
  | 250 => "Requested mail action okay, completed"
  | 251 => "User not local"
  | 252 => "Cannot VRFY user, but will accept message and attempt delivery"
  | 334 => ""
  | 354 => "Start mail input; end with <CRLF>.<CRLF>"
  | 421 => "Service not available, closing transmission channel"
  | 450 => "Requested mail action not taken: mailbox unavailable"
  | 451 => "Requested action aborted: local error in processing"
  | 452 => "Requested action not taken: insufficient system storage"
  | 454 => "TLS not available due to temporary reason"
  | 500 => "Syntax error, command unrecognized"
  | 501 => "Syntax error in parameters or arguments"
  | 502 => "Command not implemented"
  | 503 => "Bad sequence of commands"
  | 504 => "Command parameter not implemented"
  | 534 => "Authentication mechanism is too weak"
  | 535 => "SMTP Authentication unsuccessful/Bad username or password"
  | 538 => "Encryption required for requested authentication mechanism"
  | 550 => "Requested action not taken: mailbox unavailable"
  | 551 => "User not local"
  | 552 => "Requested mail action aborted: exceeded storage allocation"
  | 553 => "Requested action not taken: mailbox name not allowed"
  | 554 => "Transaction failed"
  | _ => "No message available for this status code"

/-- The continuation lines as `operator string` prints them: all but the last
with a hyphen after the code. -/
def printContinuation (code : Nat) : List Bytes → Bytes
  | [] => []
  | [l] => text "\n" ++ decimal code ++ text " " ++ l
  | l :: l' :: ls => text "\n" ++ decimal code ++ text "-" ++ l ++ printContinuation code (l' :: ls)

/-- `SMTPResponse::operator string`. -/
def string (this : SMTPResponse) : Bytes :=
  decimal this.code ++ (if this.continuation = [] then text " " else text "-")
    ++ (if this.parameter ≠ [] then this.parameter ++ text " " else [])
    ++ (if this.msgoverride = [] then text (statusMessage this.code) else this.msgoverride)
    ++ printContinuation this.code this.continuation

def issuccess (this : SMTPResponse) : Bool := this.code / 100 = 2 ∨ this.code / 100 = 3

def iserror (this : SMTPResponse) : Bool := this.code / 100 = 5

/-- What holds of a response that was read off a socket. -/
structure Read (r : SMTPResponse) : Prop where
  code_lt : r.code < 1000
  parameter_oneLine : OneLine r.parameter
  no_message : r.msgoverride = []
  continuation_oneLine : ∀ l ∈ r.continuation, OneLine l
  continuation_code : r.continuation ≠ [] → r.code = 250

end SMTPResponse

/-- A response that was read off a socket. -/
structure Reply where
  response : SMTPResponse
  read : response.Read

namespace SMTPResponse

def digit (c : Byte) : Nat := c.toNat - 48

/-- `atoi` of the first three characters, which are digits. -/
def status (a b c : Byte) : Nat := digit a * 100 + digit b * 10 + digit c

theorem digit_lt {c : Byte} (h : isdigit c) : digit c < 10 := by
  unfold isdigit at h
  have hc : c ≤ byte '9' := by simpa using (of_decide_eq_true h).2
  have hn : c.toNat ≤ 57 := UInt8.le_iff_toNat_le.mp hc
  unfold digit
  omega

theorem status_lt {a b c : Byte} (h : isdigit a ∧ isdigit b ∧ isdigit c) : status a b c < 1000 := by
  have ha := digit_lt h.1
  have hb := digit_lt h.2.1
  have hc := digit_lt h.2.2
  unfold status
  omega

/-- The loop over the lines of a multiline reply whose first line began with
`a b c`: their texts, or the failure, and the unread rest. -/
def readContinuation (a b c : Byte) (input : Feed) : Except ReadFailure (List Line) × Feed :=
  match hl : Socket.readline input with
  | (.error e, rest) => (.error e, rest)
  | (.ok l, rest) =>
      match l with
      | ⟨a' :: b' :: c' :: d :: t, h⟩ =>
          if a' ≠ a ∨ b' ≠ b ∨ c' ≠ c then (.error .network, rest)
          else
            let s : Line := ⟨t, by simp only [oneLine_cons] at h; exact h.2.2.2.2⟩
            if d = byte '-' then
              match readContinuation a b c rest with
              | (.ok ls, rest) => (.ok (s :: ls), rest)
              | (.error e, rest) => (.error e, rest)
            else (.ok [s], rest)
      | _ => (.error .network, rest)
  termination_by input.bytes.length
  decreasing_by exact Socket.readline_length hl

/-- What is remembered of the text of the first line. -/
def parameterOf (code : Nat) (t : Bytes) : Bytes :=
  if code = 334 then t
  else if code = 220 ∨ code = 221 ∨ code = 421 then
    if SP ∈ t then t.takeWhile (· ≠ SP) else []
  else []

theorem parameterOf_sublist (code : Nat) (t : Bytes) : (parameterOf code t).Sublist t := by
  unfold parameterOf
  split_ifs
  · exact List.Sublist.refl t
  · exact List.takeWhile_sublist _
  · exact List.nil_sublist t
  · exact List.nil_sublist t

/-- `SMTPResponse::set(Socket&)`. A reply of several lines is read only where
the code is 250, a line of another shape is a malformed response. -/
def read (input : Feed) : Except ReadFailure Reply × Feed :=
  match Socket.readline input with
  | (.error e, input) => (.error e, input)
  | (.ok l, input) =>
      match l with
      | ⟨a :: b :: c :: d :: t, h⟩ =>
          if hdigits : ¬ (isdigit a ∧ isdigit b ∧ isdigit c) then (.error .network, input)
          else if d = byte '-' then
            if hcode : status a b c = 250 then
              match readContinuation a b c input with
              | (.error e, input) => (.error e, input)
              | (.ok ls, input) =>
                  (.ok ⟨{ code := status a b c, continuation := ls.map (·.bytes) }, {
                    code_lt := status_lt (not_not.mp hdigits)
                    parameter_oneLine := oneLine_nil
                    no_message := rfl
                    continuation_oneLine := by
                      intro l hl
                      obtain ⟨x, -, rfl⟩ := List.mem_map.mp hl
                      exact x.oneLine
                    continuation_code := fun _ => hcode }⟩, input)
            else (.error .network, input)
          else if d = SP then
            (.ok ⟨{ code := status a b c, parameter := parameterOf (status a b c) t }, {
              code_lt := status_lt (not_not.mp hdigits)
              parameter_oneLine := OneLine.sublist (by simp only [oneLine_cons] at h; exact h.2.2.2.2)
                (parameterOf_sublist _ t)
              no_message := rfl
              continuation_oneLine := by simp
              continuation_code := fun hne => absurd rfl hne }⟩, input)
          else (.error .network, input)
      | _ => (.error .network, input)

end SMTPResponse

end Spey
