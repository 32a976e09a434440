import Spey.Daemon.SystemCalls
import Spey.Interaction.Implement
import Spey.Recipients

/-!
# Socket.cc, call by call, and how a session's calls are carried out

`concurrently` is the scope of a `Threadlet::Concurrent`: its destructor takes the
lock again however the scope is left. The loops take the number of rounds that
they are observed for.

`carry` carries out a call of a session: it is what stands in the source where
the session makes the call. An exception that the session can catch becomes the
answer that stands for it.
-/

namespace Spey.Daemon

open Interaction.Action

/-- `{ Threadlet::Concurrent c; x }` -/
def concurrently {α : Type} (x : SysProc α) : SysProc α := do
  sys .releaseCPUlock
  let a ← handle x fun
    | .unfinished => none
    | e => some do
        sys .takeCPUlock
        raise e
  sys .takeCPUlock
  pure a

/-- The members of one of the sockets. -/
def this (side : Side) : SysProc Socket := do return (← getState).socket side

def assign (side : Side) (f : Socket → Socket) : SysProc Unit :=
  update fun m => m.put side (f (m.socket side))

/-- `SocketAddress::getname`: the name that is found, if one is looked up. -/
def SocketAddress.getname (address : UInt32) : SysProc (Option Bytes) :=
  if address ≠ 0 then sys (.gethostbyaddr address) else pure none

namespace Socket

variable (side : Side)

def freeCertificate : SysProc Unit := do
  match (← this side)._gnutls_certificate_credentials with
  | some c => do
      sys (.gnutls_certificate_free_credentials c)
      assign side fun s => { s with _gnutls_certificate_credentials := none }
  | none => pure ()

def freeAnonymous : SysProc Unit := do
  match (← this side)._gnutls_anonymous_credentials with
  | some a => do
      sys (.gnutls_anon_free_server_credentials a)
      assign side fun s => { s with _gnutls_anonymous_credentials := none }
  | none => pure ()

/-- What `Socket::deinit` does with GNUTLS. -/
def endTLS : SysProc Unit := do
  if (← this side)._issecure then
    sys (.gnutls_deinit (← this side)._gnutls_session)
    freeCertificate side
    freeAnonymous side
    assign side fun s => { s with _issecure := false }
  else pure ()

def closeDescriptor : SysProc Unit := do
  if (← this side)._fd ≠ -1 then
    sys (.close (← this side)._fd)
    assign side fun s => { s with _fd := -1 }
  else pure ()

/-- `Socket::deinit` -/
def deinit : SysProc Unit := do
  endTLS side
  closeDescriptor side

/-- `Socket::init(SocketAddress&)` -/
def init (address : SocketAddress) : SysProc Unit := do
  deinit side
  let fd ← sys .socket
  assign side fun s => { s with _fd := fd }
  if fd = -1 then raise .network
  else
    -- the address is logged
    let _ ← SocketAddress.getname address.address
    if (← sys (.connect fd address)) ≠ 0 then
      sys (.close fd)
      assign side fun s => { s with _fd := -1 }
      raise .network
    else pure ()

/-- `_issecure && gnutls_record_check_pending(_gnutls_session)` -/
def pending : SysProc Bool := do
  let s ← this side
  if s._issecure then sys (.gnutls_record_check_pending s._gnutls_session) else pure false

/-- The byte that is read, unless the result is not 1. -/
def recv : SysProc (Option Byte) := do
  let s ← this side
  if s._issecure then sys (.gnutls_record_recv s._gnutls_session s._fd) else sys (.read s._fd)

/-- One round of the loop of `Socket::read`. -/
def pollRound (timeout : UInt64) : SysProc (Option Unit) := do
  let delay := Spey.Socket.delay timeout (← sys .gettimeofday)
  if delay < 0 then raise .networkTimeout
  else do
    let s ← this side
    if (← sys (.poll s._fd delay)) ≠ 0 then pure (some ()) else pure none

/-- `Socket::read`, of one byte -/
def read (rounds : Nat) (timeoutdelta : Int32) : SysProc (Option Byte) := do
  if ← pending side then recv side
  else
    let s ← this side
    let timeoutdelta := if timeoutdelta = -1 then s._timeout else timeoutdelta
    let timeout := Spey.Socket.deadline timeoutdelta (← sys .gettimeofday)
    concurrently (repeatUntil .unfinished (pollRound side timeout) rounds)
    recv side

/-- `Socket::write` -/
def write (buffer : Bytes) : SysProc Int := concurrently do
  let s ← this side
  if s._issecure then sys (.gnutls_record_send s._gnutls_session s._fd buffer)
  else sys (.write s._fd buffer)

/-- The loop of `Socket::readline`: `s` has been read of the line. -/
def readlineLoop (rounds : Nat) (s : Line) : Nat → SysProc Line
  | 0 => raise .unfinished
  | n + 1 => do
      match ← read side rounds (-1) with
      | none => raise .network
      | some c =>
          if hcr : c = CR then readlineLoop rounds s n
          else if hlf : c = LF then pure s
          else readlineLoop rounds ⟨s.bytes ++ [c], by simp [s.oneLine, hcr, hlf, oneLine_nil]⟩ n

/-- `Socket::readline` -/
def readline (rounds : Nat) : SysProc Line := readlineLoop side rounds ⟨[], oneLine_nil⟩ rounds

/-- `Socket::writeline` -/
def writeline (l : Bytes) : SysProc Unit := do
  if (← write side (Spey.Socket.writeline l)) = -1 then raise .network else pure ()

/-- `get_dh_params`. Its static variables are those of all threads. -/
def get_dh_params : SysProc Nat := do
  let statics ← sys .dh_params
  if (← sys .time) - statics.2 < 3600 * 24 then pure statics.1
  else
    sys (.setfreshness (← sys .time))
    let dh_params ← sys .gnutls_dh_params_init
    sys (.gnutls_dh_params_generate2 dh_params)
    pure dh_params

def makeAnonymous (session : Nat) : SysProc Unit := do
  let anonymous ← sys .gnutls_anon_allocate_server_credentials
  assign side fun s => { s with _gnutls_anonymous_credentials := anonymous }
  match anonymous with
  | some a => do
      sys (.gnutls_anon_set_server_dh_params a (← get_dh_params))
      sys (.setAnonymous session a)
  | none => pure ()

/-- The key and the certificate are loaded: are they valid? -/
def certify (session certificate : Nat) : SysProc Bool := do
  sys (.gnutls_certificate_set_dh_params certificate (← get_dh_params))
  let host := (← getState).host
  if (← sys (.access (cstr host.tlsprivatekeyfile))) = -1 then raise .network
  else if (← sys (.access (cstr host.tlscertificatefile))) = -1 then raise .network
  else
    let i ← sys (.gnutls_certificate_set_x509_key_file certificate (cstr host.tlscertificatefile)
      (cstr host.tlsprivatekeyfile))
    sys (.setCertificate session certificate)
    pure (i = 0)

/-- `certificate_valid` -/
def makeCertificate (session : Nat) : SysProc Bool := do
  let certificate ← sys .gnutls_certificate_allocate_credentials
  assign side fun s => { s with _gnutls_certificate_credentials := certificate }
  match certificate with
  | some c => certify session c
  | none => pure false

def prioritise (session : Nat) (certificate_valid : Bool) : SysProc Unit :=
  if certificate_valid then pure () else sys (.gnutls_kx_set_priority session)

def handshake (session : Nat) : SysProc Unit := do
  let s ← this side
  if (← concurrently (sys (.gnutls_handshake session s._fd))) < 0 then raise .network else pure ()

/-- What `Socket::makesecure` does with the session that `gnutls_init` has left. -/
def secure (session : Nat) : SysProc Unit := do
  assign side fun s => { s with _gnutls_session := session }
  makeAnonymous side session
  let certificate_valid ← makeCertificate side session
  prioritise session certificate_valid
  assign side fun s => { s with _issecure := true }
  handshake side session

/-- `Socket::makesecure`. The result of `gnutls_init` is not looked at. -/
def makesecure : SysProc Unit := do
  let made ← sys .gnutls_init
  secure side made.2

end Socket

/-- How a `NetworkException` or a timeout becomes an answer. -/
def caught {α : Type} (x : SysProc α) : SysProc (Except ReadFailure α) :=
  handle (do return .ok (← x)) fun
    | .network => some (pure (.error .network))
    | .networkTimeout => some (pure (.error .timeout))
    | _ => none

/-- Did it not throw? -/
def attempt {α : Type} (x : SysProc α) : SysProc Bool := do return (← caught x).isOk

/-! ## `SMTPResponse::set(Socket&)` -/

namespace SMTPResponse

open Spey.SMTPResponse

/-- A reply of several lines. -/
def multiline {a b c : Byte} (hdigits : isdigit a ∧ isdigit b ∧ isdigit c)
    (hcode : status a b c = 250) (ls : List Line) : Reply where
  response := { code := status a b c, continuation := ls.map (·.bytes) }
  read := {
    code_lt := status_lt hdigits
    parameter_oneLine := oneLine_nil
    no_message := rfl
    continuation_oneLine := by
      intro l hl
      obtain ⟨x, -, rfl⟩ := List.mem_map.mp hl
      exact x.oneLine
    continuation_code := fun _ => hcode }

/-- A reply of one line. -/
def single {a b c d : Byte} {t : Bytes} (hdigits : isdigit a ∧ isdigit b ∧ isdigit c)
    (hline : OneLine (a :: b :: c :: d :: t)) : Reply where
  response := { code := status a b c, parameter := parameterOf (status a b c) t }
  read := {
    code_lt := status_lt hdigits
    parameter_oneLine := OneLine.sublist (by simp only [oneLine_cons] at hline; exact hline.2.2.2.2)
      (parameterOf_sublist _ t)
    no_message := rfl
    continuation_oneLine := by simp
    continuation_code := fun hne => absurd rfl hne }

/-- The loop over the lines of a multiline reply whose first line began with `a b c`. -/
def setContinuation (side : Side) (rounds : Nat) (a b c : Byte) : Nat → SysProc (List Line)
  | 0 => raise .unfinished
  | n + 1 => do
      match ← Socket.readline side rounds with
      | ⟨a' :: b' :: c' :: d :: t, h⟩ =>
          if a' ≠ a ∨ b' ≠ b ∨ c' ≠ c then raise .network
          else
            let s : Line := ⟨t, by simp only [oneLine_cons] at h; exact h.2.2.2.2⟩
            if d = byte '-' then return s :: (← setContinuation side rounds a b c n)
            else pure [s]
      | _ => raise .network

/-- `SMTPResponse::set(Socket&)` -/
def set (side : Side) (rounds : Nat) : SysProc Reply := do
  match ← Socket.readline side rounds with
  | ⟨a :: b :: c :: d :: _, h⟩ =>
      if hdigits : ¬ (isdigit a ∧ isdigit b ∧ isdigit c) then raise .network
      else if d = byte '-' then
        if hcode : status a b c = 250 then
          return multiline (not_not.mp hdigits) hcode (← setContinuation side rounds a b c rounds)
        else raise .network
      else if d = SP then pure (single (not_not.mp hdigits) h)
      else raise .network
  | _ => raise .network

end SMTPResponse

/-! ## The calls of a session -/

open Interaction in
/-- `greylist`, with its clock. -/
def greylist (sender : UInt32) (fromaddress toaddress : Bytes) : SysProc (Option GreylistResponse) := do
  let tv ← sys .gettimeofday
  let quarantinetime := (← getState).host.ctx.settings.quarantinetime
  let program := Greylist.Statement.greylist quarantinetime tv.tv_sec sender fromaddress toaddress ()
  return (← program.implement fun st => sys (.greylist st)).1.toOption

/-- What is done where a session makes the call. -/
def carry (rounds : Nat) : (c : Call) → SysProc (Ans c)
  | .outReadline _ => caught (Socket.readline .outside rounds)
  | .outRead delay => attempt (Socket.read .outside rounds (.ofInt delay))
  | .outReply _ r => attempt (Socket.writeline .outside r.string)
  | .makesecure => attempt (Socket.makesecure .outside)
  | .connect => attempt do
      Socket.init .inside (← getState).host.ToAddress
      let sockettimeout := (← getState).host.sockettimeout
      assign .inside fun s => { s with _timeout := sockettimeout }
  | .deinit => Socket.deinit .inside
  | .readReply => caught (SMTPResponse.set .inside rounds)
  | .inWriteline item => attempt (Socket.writeline .inside item.string)
  | .gethostbyname name => concurrently do return (← sys (.gethostbyname name)).isSome
  | .gethostbyaddr => do sys (.gethostbyaddr (← getState).host.ctx.address)
  | .testtrusted sender => do return (← sys (.trustedhosts sender)).map fun n => getint n ≠ 0
  | .testacceptance recipient => do
      let address := cstr (Settings.addressPart recipient)
      let domain := cstr (Settings.domainPart recipient)
      return (← sys (.validrecipients address domain)).map fun n => getint n ≠ 0
  | .greylist sender fromaddress toaddress => greylist sender fromaddress toaddress
  | .users username password => do
      return (← sys (.users username password)).map fun n => getint n
  | .count counter => sys (.increment counter)
  | .verifydomain _ => pure ()
  | .verifyaddress _ => pure ()

end Spey.Daemon
