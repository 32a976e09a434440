import Spey.Calls
import Spey.Greylist.Statements
import Spey.Interaction.Mutex
import Spey.ServerProcessor
import Spey.Wire.ReadTimeout

/-!
# What the daemon calls

The calls that the threads of the daemon make to the system, to GNUTLS, to the
resolver and to the database, with their answers. A query is one call: it is
compiled and stepped with nothing in between. `Sys.role` says of each call
whether it is made with the CPU lock, without it, or either way.

`Sys.awaits` says what a call may be kept waiting by, and `Sys.lingers` which of these
calls are made with the lock all the same.

The state of a session's thread is what its sockets are, and the settings that it
reads. What is written to the log is left out, but for the names that are looked up to write
it, and so are the calls to GNUTLS that set the same whatever happens.
-/

namespace Spey.Daemon

inductive Sys where
  /-- `pthread_mutex_lock(&cpulock)` -/
  | takeCPUlock
  /-- `pthread_mutex_unlock(&cpulock)` -/
  | releaseCPUlock
  /-- `pthread_setspecific(selfkey, threadlet)` -/
  | setspecific
  /-- `pthread_create`, for a `MessageProcessor` -/
  | createThread (fd : Int) (address : SocketAddress)
  /-- `pthread_create`, for the `ServerProcessor` -/
  | createServer (fd : Int)
  | pause
  /-- `std::terminate`, where an exception leaves a thread -/
  | terminate
  | gettimeofday
  | time
  | socket
  | setsockopt (fd : Int)
  | bind (fd : Int) (address : SocketAddress)
  | listen (fd : Int)
  | accept (fd : Int)
  | connect (fd : Int) (address : SocketAddress)
  | poll (fd : Int) (delay : Int32)
  /-- `::read`, of one byte -/
  | read (fd : Int)
  | write (fd : Int) (buffer : Bytes)
  /-- the `write` of `ServerProcessor::run` -/
  | refuse (fd : Int) (message : Bytes)
  | close (fd : Int)
  | gnutls_init
  | gnutls_deinit (session : Nat)
  | gnutls_anon_allocate_server_credentials
  | gnutls_anon_free_server_credentials (credentials : Nat)
  | gnutls_certificate_allocate_credentials
  | gnutls_certificate_free_credentials (credentials : Nat)
  /-- `gnutls_credentials_set(session, GNUTLS_CRD_ANON, ..)` -/
  | setAnonymous (session credentials : Nat)
  /-- `gnutls_credentials_set(session, GNUTLS_CRD_CERTIFICATE, ..)` -/
  | setCertificate (session credentials : Nat)
  | access (path : Bytes)
  | gnutls_certificate_set_x509_key_file (credentials : Nat) (certificatefile privatekeyfile : Bytes)
  /-- The static variables of `get_dh_params` are read. -/
  | dh_params
  /-- The static variable `freshness` is set. -/
  | setfreshness (now : Int)
  /-- `gnutls_dh_params_init(&dh_params)`, into the static variable -/
  | gnutls_dh_params_init
  | gnutls_dh_params_generate2 (dh_params : Nat)
  | gnutls_anon_set_server_dh_params (credentials dh_params : Nat)
  | gnutls_certificate_set_dh_params (credentials dh_params : Nat)
  | gnutls_kx_set_priority (session : Nat)
  | gnutls_handshake (session : Nat) (fd : Int)
  | gnutls_record_check_pending (session : Nat)
  /-- `gnutls_record_recv`, of one byte -/
  | gnutls_record_recv (session : Nat) (fd : Int)
  | gnutls_record_send (session : Nat) (fd : Int) (buffer : Bytes)
  | gethostbyname (name : Bytes)
  /-- the `gethostbyname` of `SocketAddress::setname` -/
  | resolve (name : Bytes)
  | gethostbyaddr (address : UInt32)
  /-- `SELECT value FROM settings WHERE key=..` -/
  | setting (key : Bytes)
  /-- `SELECT COUNT(*) FROM trustedhosts WHERE ..` -/
  | trustedhosts (sender : UInt32)
  /-- `SELECT COUNT(*) FROM validrecipients WHERE ..` -/
  | validrecipients (address domain : Bytes)
  /-- `SELECT COUNT(*) FROM users WHERE ..` -/
  | users (username password : Bytes)
  /-- `UPDATE statistics SET value=value+1 WHERE key=..` -/
  | increment (counter : Counter)
  | greylist (st : Greylist.Statement)
  | daemon
  /-- `Sql.open(filename)` -/
  | open (filename : Bytes)
  | getuid
  | getpwnam (username : Bytes)
  | getgrnam (groupname : Bytes)
  | initgroups (username : Bytes) (gid : Nat)
  | setgid (gid : Nat)
  | setuid (uid : Nat)
  deriving DecidableEq

namespace Sys

/-- The answers. A descriptor is -1 and a name or a set of credentials is `none` where
there is none; a read gives `none` unless its result is 1; a query gives `none` or `false` for the
`SQLException`. `gnutls_init` gives its result and the handle that it leaves, and `dh_params` the
parameters and their `freshness`. What does not come back has no answer. -/
abbrev Ans : Sys → Type
  | .takeCPUlock | .releaseCPUlock => Unit
  | .setspecific | .createThread _ _ | .createServer _ => Int
  | .pause | .terminate => Empty
  | .gettimeofday => Socket.Timeval
  | .time => Int
  | .socket | .bind _ _ | .listen _ | .connect _ _ => Int
  | .setsockopt _ => Unit
  | .accept _ => Except Int (Int × SocketAddress)
  | .poll _ _ => Int
  | .read _ => Option Byte
  | .write _ _ => Int
  | .refuse _ _ | .close _ => Unit
  | .gnutls_init => Int × Nat
  | .gnutls_deinit _ => Unit
  | .gnutls_anon_allocate_server_credentials | .gnutls_certificate_allocate_credentials => Option Nat
  | .gnutls_anon_free_server_credentials _ | .gnutls_certificate_free_credentials _ => Unit
  | .dh_params => Nat × Int
  | .gnutls_dh_params_init => Nat
  | .setfreshness _ | .gnutls_dh_params_generate2 _ => Unit
  | .gnutls_anon_set_server_dh_params _ _ | .gnutls_certificate_set_dh_params _ _ => Unit
  | .setAnonymous _ _ | .setCertificate _ _ | .gnutls_kx_set_priority _ => Unit
  | .access _ | .gnutls_certificate_set_x509_key_file _ _ _ | .gnutls_handshake _ _ => Int
  | .gnutls_record_check_pending _ => Bool
  | .gnutls_record_recv _ _ => Option Byte
  | .gnutls_record_send _ _ _ => Int
  | .gethostbyname _ | .resolve _ => Option UInt32
  | .gethostbyaddr _ => Option Bytes
  | .setting _ => Option Bytes
  | .trustedhosts _ | .validrecipients _ _ => Option Int
  | .users _ _ => Option Nat
  | .increment _ => Bool
  | .greylist st => Greylist.Statement.Ans st
  | .daemon => Int
  | .open _ => Bool
  | .getuid => Nat
  | .getpwnam _ | .getgrnam _ => Option Nat
  | .initgroups _ _ | .setgid _ | .setuid _ => Int

open Interaction in
/-- How the call stands to the CPU lock. -/
def role : Sys → Access
  | .takeCPUlock => .take
  | .releaseCPUlock => .release
  | .pause | .accept _ | .poll _ _ | .write _ _ | .gnutls_handshake _ _
  | .gnutls_record_send _ _ _ | .gethostbyname _ | .daemon => .outside
  | .setspecific | .gettimeofday => .free
  | .createThread _ _ | .createServer _ | .terminate | .socket | .setsockopt _ | .bind _ _
  | .listen _ | .connect _ _ | .read _ | .refuse _ _ | .close _ | .gnutls_init | .gnutls_deinit _
  | .gnutls_anon_allocate_server_credentials | .gnutls_anon_free_server_credentials _
  | .gnutls_certificate_allocate_credentials | .gnutls_certificate_free_credentials _
  | .setAnonymous _ _ | .setCertificate _ _ | .access _ | .time | .dh_params | .setfreshness _
  | .gnutls_dh_params_init | .gnutls_dh_params_generate2 _ | .gnutls_anon_set_server_dh_params _ _
  | .gnutls_certificate_set_dh_params _ _
  | .gnutls_certificate_set_x509_key_file _ _ _ | .gnutls_kx_set_priority _
  | .gnutls_record_check_pending _ | .gnutls_record_recv _ _ | .resolve _ | .gethostbyaddr _
  | .setting _ | .trustedhosts _ | .validrecipients _ _ | .users _ _ | .increment _ | .greylist _ | .open _
  | .getuid | .getpwnam _ | .getgrnam _ | .initgroups _ _ | .setgid _ | .setuid _ => .inside

/-- What a call may be kept waiting by. -/
inductive Awaited where
  | cpulock
  /-- the peer of a connection, or a peer that is to come -/
  | peer
  | resolver
  /-- another process that has locked the database -/
  | database
  /-- where the users and the groups are kept -/
  | accounts
  | signal
  deriving DecidableEq

def awaits : Sys → Option Awaited
  | .takeCPUlock => some .cpulock
  | .pause => some .signal
  | .accept _ | .connect _ _ | .poll _ _ | .read _ | .write _ _ | .refuse _ _ | .gnutls_handshake _ _
  | .gnutls_record_recv _ _ | .gnutls_record_send _ _ _ => some .peer
  | .gethostbyname _ | .resolve _ | .gethostbyaddr _ => some .resolver
  | .setting _ | .trustedhosts _ | .validrecipients _ _ | .users _ _ | .increment _ | .greylist _
  | .open _ => some .database
  | .getpwnam _ | .getgrnam _ | .initgroups _ _ => some .accounts
  | _ => none

/-- The calls that are made with the lock, although they may have to wait: the inside server is
connected to, a byte is read from a peer, a client is refused, an address or the name of one of the
daemon's own addresses is looked up, and the database and the accounts are asked. -/
def lingers : Sys → Bool
  | .connect _ _ | .read _ | .gnutls_record_recv _ _ | .refuse _ _ | .resolve _ | .gethostbyaddr _
  | .setting _ | .trustedhosts _ | .validrecipients _ _ | .users _ _ | .increment _ | .greylist _
  | .open _ | .getpwnam _ | .getgrnam _ | .initgroups _ _ => true
  | _ => false

/-- The calls that the sockets are made of, and what else the sessions and the server
call, but for the statements of greylist. -/
def working : Sys → Bool
  | .greylist _ | .createThread _ _ | .createServer _ | .pause | .terminate | .bind _ _ | .listen _
  | .resolve _ | .daemon | .open _ | .getuid | .getpwnam _ | .getgrnam _ | .initgroups _ _ | .setgid _
  | .setuid _ => false
  | _ => true

end Sys

/-- What a thread reads and never writes: the statics of `Settings` and `ServerProcessor`. A thread is
modelled under settings that stay the same; `Steady` says in which runs they do. -/
structure Host where
  ctx : Context
  sockettimeout : Int32
  tlscertificatefile : Bytes
  tlsprivatekeyfile : Bytes
  /-- `ServerProcessor::ToAddress` -/
  ToAddress : SocketAddress

/-- The members of a `Socket`. The session and the credentials mean nothing unless
`_issecure` holds. -/
structure Socket where
  _fd : Int := -1
  _timeout : Int32 := 0
  _issecure : Bool := false
  _gnutls_session : Nat := 0
  _gnutls_anonymous_credentials : Option Nat := none
  _gnutls_certificate_credentials : Option Nat := none

/-- One of the two sockets of a `MessageProcessor`. -/
inductive Side where
  | outside | inside
  deriving DecidableEq

structure Members where
  host : Host
  outside : Socket := {}
  inside : Socket := {}

namespace Members

def socket (m : Members) : Side → Socket
  | .outside => m.outside
  | .inside => m.inside

def put (m : Members) (side : Side) (s : Socket) : Members :=
  match side with
  | .outside => { m with outside := s }
  | .inside => { m with inside := s }

variable (m : Members) (side : Side) (s : Socket)

@[simp] theorem put_socket : (m.put side s).socket side = s := by
  cases side <;> rfl

@[simp] theorem put_socket_other {side' : Side} (h : side' ≠ side) :
    (m.put side s).socket side' = m.socket side' := by
  cases side <;> cases side' <;> first | rfl | exact absurd rfl h

@[simp] theorem put_host : (m.put side s).host = m.host := by
  cases side <;> rfl

end Members

/-- A part of a thread's code. -/
abbrev SysProc := Interaction.Action Sys.Ans Exn Members

abbrev sys (c : Sys) : SysProc (Sys.Ans c) := Interaction.Action.call c

end Spey.Daemon
