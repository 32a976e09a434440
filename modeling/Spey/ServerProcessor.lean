import Spey.Calls
import Spey.Interaction.Await

/-!
# The server threadlet

`ServerProcessor::run` reloads the settings, waits for a connection and starts a
threadlet for it, round after round; `Threadlet::trampoline` is what the thread
of every threadlet executes. What they call is a `ServerCall`. What is written to the log is
left out, but for the names that are looked up to write it.
-/

namespace Spey

/-- An address and a port, in host byte order. -/
structure SocketAddress where
  address : UInt32
  port : UInt16
  deriving DecidableEq

inductive ServerCall where
  /-- `SELECT value FROM settings WHERE key=..` -/
  | setting (key : Bytes)
  /-- `::accept(fd, ..)` -/
  | accept (fd : Int)
  /-- `pthread_create` for `new MessageProcessor(fd, address)` -/
  | createThread (fd : Int) (address : SocketAddress)
  /-- `write(fd, ..)` -/
  | write (fd : Int) (message : Bytes)
  | close (fd : Int)
  | gethostbyaddr (address : UInt32)
  /-- `pthread_setspecific(selfkey, threadlet)` -/
  | setspecific
  deriving DecidableEq

namespace ServerCall

/-- The answers: for `setting`, `none` is the `SQLException` and the text is empty
where there is no row; `createThread` and `setspecific` give an error number, zero
where nothing is wrong; the results of `write` and `close` are not looked at. -/
abbrev Ans : ServerCall → Type
  | .setting _ => Option Bytes
  | .accept _ => Except Int (Int × SocketAddress)
  | .createThread _ _ => Int
  | .write _ _ => Unit
  | .close _ => Unit
  | .gethostbyaddr _ => Option Bytes
  | .setspecific => Int

end ServerCall

/-- The exceptions of the server, with the reason and the error number they carry. -/
inductive ServerExn where
  | network (reason : Bytes) (errnum : Int)
  | io (reason : Bytes) (errnum : Int)
  | sql
  /-- Not an exception of the program: the observation of an unbounded loop ends here. -/
  | unfinished
  deriving DecidableEq

/-- `_mastersocket._fd`, and the settings that were loaded last. -/
structure Server where
  _fd : Int
  settings : Settings

abbrev ServerProc := Interaction.Action ServerCall.Ans ServerExn Server

open Interaction Action

abbrev serverCall (c : ServerCall) : ServerProc (ServerCall.Ans c) := call c

/-- A `SocketAddress` is logged: `SocketAddress::getname` looks its name up. -/
def SocketAddress.log (a : SocketAddress) : ServerProc Unit := do
  if a.address ≠ 0 then
    let _ ← serverCall (.gethostbyaddr a.address)
  else pure ()

namespace Settings

/-- `Settings::get` -/
def get (key : String) : ServerProc Bytes :=
  handle (do
    match ← serverCall (.setting (text key)) with
    | some value => pure value
    | none => raise .sql)
    fun
      | .sql => some (pure [])
      | _ => none

def authmode (externalauthmode : Bytes) : AuthMode :=
  if externalauthmode = text "proxy" then .ProxyAuth
  else if externalauthmode = text "internal" then .InternalAuth
  else .NoAuth

/-- `Settings::reload`; the settings that no session reads are fetched only. -/
def reload : ServerProc Unit := do
  let identity ← get "identity"
  let intolerant ← get "intolerant"
  let quarantinetime ← get "quarantine-time"
  let _sockettimeout ← get "socket-timeout"
  let greetpause ← get "greet-pause"
  let _runtimeuserid ← get "runtime-user-id"
  let _tlscertificatefile ← get "tls-certificate-file"
  let _tlsprivatekeyfile ← get "tls-private-key-file"
  let externaltls ← get "external-tls"
  let rbllist ← get "rbl-list"
  let externalauthmode ← get "external-auth-mode"
  update fun s => { s with
    settings := {
      identity
      intolerant := atoi intolerant
      quarantinetime := atoi quarantinetime
      greetpause := atoi greetpause
      externaltls := atoi externaltls ≠ 0
      externalauthmode := authmode externalauthmode
      rbllist } }

end Settings

namespace SocketServer

/-- `SocketServer::accept` -/
def accept : ServerProc (Int × SocketAddress) := do
  match ← serverCall (.accept (← getState)._fd) with
  | .error errno => raise (.network (text "accept() failed") errno)
  | .ok connection => pure connection

/-- `SocketServer::deinit` -/
def deinit : ServerProc Unit := do
  if (← getState)._fd ≠ -1 then
    serverCall (.close (← getState)._fd)
    update fun s => { s with _fd := -1 }
  else pure ()

end SocketServer

namespace Threadlet

/-- `Threadlet::start`, for the threadlet of a connection -/
def start (fd : Int) (address : SocketAddress) : ServerProc Unit := do
  let e ← serverCall (.createThread fd address)
  if e ≠ 0 then raise (.io (text "couldn't create new thread") e) else pure ()

/-- `Threadlet::trampoline`: every exception is caught, the threadlet is deleted
and its thread returns. -/
def trampoline (run delete : ServerProc Unit) : ServerProc Unit := do
  let e ← serverCall .setspecific
  if e ≠ 0 then pure ()
  else do
    handle run fun
      | .unfinished => none
      | .network _ _ | .io _ _ | .sql => some (pure ())
    delete

end Threadlet

namespace ServerProcessor

/-- What is written to a connection that cannot be processed. -/
def unavailable (identity : Bytes) : Bytes :=
  text "421 " ++ identity ++ text " Service not available, closing transmission channel\r\n"

/-- `catch (Exception e)` around the threadlet of the connection `fd` from `address` -/
def refuse (fd : Int) (address : SocketAddress) : ServerProc Unit := do
  address.log
  serverCall (.write fd (unavailable (← getState).settings.identity))
  serverCall (.close fd)

/-- One round of the loop. Waiting for the connection is not in the `try`. -/
def round : ServerProc (Option Unit) := do
  Settings.reload
  let (fd, address) ← SocketServer.accept
  handle (do
      -- the constructor of `MessageProcessor`
      address.log
      Threadlet.start fd address) fun
    | .unfinished => none
    | .network _ _ | .io _ _ | .sql => some (refuse fd address)
  pure none

/-- `ServerProcessor::run` -/
def run (rounds : Nat) : ServerProc Unit := repeatUntil .unfinished round rounds

/-- The thread of the server: the destructor closes the master socket. -/
def threadlet (rounds : Nat) : ServerProc Unit := Threadlet.trampoline (run rounds) SocketServer.deinit

end ServerProcessor

end Spey
