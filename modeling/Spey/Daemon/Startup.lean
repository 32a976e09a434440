import Spey.Daemon.Threads

/-!
# main_spey.cc

The main thread: what it does before the first thread is created, and
`Threadlet::halt`. Where an exception leaves it, or where it returns, the process
ends. The pid file and the parsing of the command line are left out, and so is the log, but for
the name that is looked up to write it.
-/

namespace Spey.Daemon

open Interaction Interaction.Action

/-- The exceptions of the main thread, with what they say. -/
inductive MainExn where
  | network (reason : Bytes)
  | sql
  | io (reason : Bytes) (errnum : Int)
  | exception (reason : Bytes)
  deriving DecidableEq

abbrev MainProc := Action Task.Ans MainExn Unit

abbrev ask (c : Sys) : MainProc (Sys.Ans c) := call (Task.sys c)

/-- The options that are used. -/
structure SpeyCLI where
  /-- the database -/
  d : Bytes
  /-- the address to listen on -/
  f : Bytes
  /-- the server to connect to -/
  t : Bytes
  /-- in the foreground -/
  x : Bool
  /-- in inetd mode -/
  i : Bool

/-- All settings that `Settings::reload` loads. -/
structure Configuration where
  identity : Bytes
  intolerant : Int
  quarantinetime : Int
  sockettimeout : Int
  greetpause : Int
  runtimeuserid : Bytes
  tlscertificatefile : Bytes
  tlsprivatekeyfile : Bytes
  externaltls : Bool
  rbllist : Bytes
  externalauthmode : AuthMode
  deriving DecidableEq

/-- What `Settings::reload` makes of the values. -/
def Configuration.of (value : Bytes → Bytes) : Configuration where
  identity := value (text "identity")
  intolerant := atoi (value (text "intolerant"))
  quarantinetime := atoi (value (text "quarantine-time"))
  sockettimeout := atoi (value (text "socket-timeout"))
  greetpause := atoi (value (text "greet-pause"))
  runtimeuserid := value (text "runtime-user-id")
  tlscertificatefile := value (text "tls-certificate-file")
  tlsprivatekeyfile := value (text "tls-private-key-file")
  externaltls := atoi (value (text "external-tls")) ≠ 0
  rbllist := value (text "rbl-list")
  externalauthmode := Spey.Settings.authmode (value (text "external-auth-mode"))

/-- The settings among them that the sessions read. -/
def Configuration.session (config : Configuration) : Spey.Settings where
  identity := config.identity
  intolerant := config.intolerant
  quarantinetime := config.quarantinetime
  greetpause := config.greetpause
  externaltls := config.externaltls
  externalauthmode := config.externalauthmode
  rbllist := config.rbllist

namespace Settings

/-- `Settings::get` -/
def get (key : String) : MainProc Bytes := do return (← ask (.setting (text key))).getD []

/-- `Settings::reload` -/
def reload : MainProc Configuration := do
  let identity ← get "identity"
  let intolerant ← get "intolerant"
  let quarantinetime ← get "quarantine-time"
  let sockettimeout ← get "socket-timeout"
  let greetpause ← get "greet-pause"
  let runtimeuserid ← get "runtime-user-id"
  let tlscertificatefile ← get "tls-certificate-file"
  let tlsprivatekeyfile ← get "tls-private-key-file"
  let externaltls ← get "external-tls"
  let rbllist ← get "rbl-list"
  let externalauthmode ← get "external-auth-mode"
  pure {
    identity
    intolerant := atoi intolerant
    quarantinetime := atoi quarantinetime
    sockettimeout := atoi sockettimeout
    greetpause := atoi greetpause
    runtimeuserid
    tlscertificatefile
    tlsprivatekeyfile
    externaltls := atoi externaltls ≠ 0
    rbllist
    externalauthmode := Spey.Settings.authmode externalauthmode }

end Settings

namespace SocketAddress

/-- `SocketAddress::setname` -/
def setname (a : SocketAddress) (server : Bytes) : MainProc SocketAddress := do
  match ← ask (.resolve (cstr server)) with
  | none => raise (.network (text "Host '" ++ server ++ text "' not found"))
  | some address => pure { a with address }

/-- `SocketAddress::setport` -/
def setport (a : SocketAddress) (port : Int) : SocketAddress :=
  { a with port := UInt16.ofNat (port % 65536).toNat }

/-- `SocketAddress::set(const string&)` -/
def set (a : SocketAddress) (name : Bytes) : MainProc SocketAddress := do
  if byte ':' ∈ name then
    let port := (name.dropWhile (· ≠ byte ':')).drop 1
    let host := name.takeWhile (· ≠ byte ':')
    let a ← (if host = [] then pure a else setname a host : MainProc SocketAddress)
    pure (setport a (atoi (cstr port)))
  else setname a name

end SocketAddress

/-- The exception leaves the constructor of `ServerProcessor`: the destructor of its socket closes it. -/
def SocketServer.abandon (fd : Int) (e : MainExn) : MainProc Int := do
  ask (.close fd)
  raise e

/-- `SocketServer::init`, for a socket that is new -/
def SocketServer.init (address : SocketAddress) : MainProc Int := do
  let fd ← ask .socket
  if fd = -1 then raise (.network (text "Error creating server socket"))
  else do
    ask (.setsockopt fd)
    if (← ask (.bind fd address)) = -1 then abandon fd (.network (text "Error binding server socket"))
    else if (← ask (.listen fd)) = -1 then abandon fd (.network (text "Error listening to server socket"))
    else pure fd

/-- The label `abort:` -/
def undropped : MainExn := .exception (text "Unable to drop root privileges --- terminating")

/-- `drop_root_privileges` -/
def drop_root_privileges (usergroupid : Bytes) : MainProc Unit := do
  if (← ask .getuid) ≠ 0 then pure ()
  else if usergroupid = [] then pure ()
  else if byte ':' ∉ usergroupid then raise undropped
  else do
    let username := usergroupid.takeWhile (· ≠ byte ':')
    let groupname := (usergroupid.dropWhile (· ≠ byte ':')).drop 1
    let pwd ← ask (.getpwnam (cstr username))
    let grp ← ask (.getgrnam (cstr groupname))
    match pwd, grp with
    | some userid, some groupid => do
        let initgroups ← ask (.initgroups (cstr username) groupid)
        let setgid ← ask (.setgid groupid)
        let setuid ← ask (.setuid userid)
        if initgroups ≠ 0 ∨ setgid ≠ 0 ∨ setuid ≠ 0 then raise undropped else pure ()
    | _, _ => raise undropped

/-- `check_private_key` -/
def check_private_key (config : Configuration) : MainProc Unit := do
  if ¬ config.externaltls then pure ()
  else if config.tlsprivatekeyfile = [] then pure ()
  else if (← ask (.access (cstr config.tlsprivatekeyfile))) = -1 then
    raise (.exception (text "TLS is enabled but the private key is not readable --- terminating"))
  else pure ()

/-- `Threadlet::start`, for the threads that the main thread starts -/
def start (create : MainProc Int) : MainProc Unit := do
  let e ← create
  if e ≠ 0 then raise (.io (text "couldn't create new thread") e) else pure ()

/-- `Threadlet::halt` -/
def halt : MainProc Unit := do
  ask .releaseCPUlock
  nomatch ← ask .pause

/-- The database is opened and the addresses are looked up. -/
def addresses (cli : SpeyCLI) : MainProc (SocketAddress × SocketAddress) := do
  if ← ask (.open cli.d) then
    let FromAddress ← SocketAddress.set ⟨0, 0⟩ cli.f
    let ToAddress ← SocketAddress.set ⟨0, 0⟩ cli.t
    pure (FromAddress, ToAddress)
  else raise .sql

/-- `initialise`: the address to listen on, and `ServerProcessor::ToAddress` -/
def initialise (cli : SpeyCLI) : MainProc (SocketAddress × SocketAddress) := do
  ask .takeCPUlock
  addresses cli

def daemonise (cli : SpeyCLI) : MainProc Unit :=
  if cli.x then pure ()
  else do
    if (← ask .daemon) ≠ 0 then raise (.exception (text "Unable to daemonise --- terminating"))
    else pure ()

/-- The address is logged. -/
def announce (FromAddress : SocketAddress) : MainProc Unit := do
  if FromAddress.address ≠ 0 then
    let _ ← ask (.gethostbyaddr FromAddress.address)
  else pure ()

def daemonmode (cli : SpeyCLI) : MainProc Unit := do
  daemonise cli
  let (FromAddress, _) ← initialise cli
  let config ← Settings.reload
  announce FromAddress
  let fd ← SocketServer.init FromAddress
  drop_root_privileges config.runtimeuserid
  check_private_key config
  start (ask (.createServer fd))
  halt

/-- The connection is the descriptor 0. -/
def inetdmode (cli : SpeyCLI) : MainProc Unit := do
  let _ ← initialise cli
  handle (do
      let config ← Settings.reload
      drop_root_privileges config.runtimeuserid
      check_private_key config
      start (ask (.createThread 0 ⟨0, 0⟩))
      halt)
    fun
      | .network _ | .sql => some (pure ())
      | _ => none

/-- `main_spey` -/
def main_spey (cli : SpeyCLI) : MainProc Unit := if cli.i then inetdmode cli else daemonmode cli

/-- The main thread: where it comes to its end, the process does. -/
def mainThread (cli : SpeyCLI) : Thread := (main_spey cli ()).bind fun _ => .done .exited

/-! ## What comes before the first thread -/

/-- The calls that look things up, and those that drop privileges. -/
def Sys.preparing : Sys → Bool
  | .open _ | .setting _ | .resolve _ | .gethostbyaddr _ | .access _ | .getuid | .getpwnam _ | .getgrnam _
  | .initgroups _ _ | .setgid _ | .setuid _ => true
  | _ => false

/-- The code makes such calls only. -/
def Prepares {α : Type} (x : MainProc α) : Prop :=
  Keeps (.only fun e => ∃ c, e = .sys c ∧ c.preparing = true) (fun _ _ => True) (fun _ _ _ => True) x

section
variable {α β : Type}

theorem prepares_pure (a : α) : Prepares (pure a : MainProc α) := keeps_pure a

theorem prepares_raise (e : MainExn) : Prepares (raise e : MainProc α) := keeps_raise fun _ _ _ => trivial

theorem Prepares.bind {x : MainProc α} {f : α → MainProc β} (hx : Prepares x)
    (hf : ∀ a, Prepares (f a)) : Prepares (x >>= f) := Keeps.bind hx hf

theorem Prepares.ite {q : Prop} [Decidable q] {x y : MainProc α} (hx : Prepares x) (hy : Prepares y) :
    Prepares (if q then x else y) := Keeps.ite (fun _ => hx) fun _ => hy

theorem prepares_ask {c : Sys} (hc : c.preparing = true) : Prepares (ask c) :=
  keeps_call fun _ _ _ => ⟨⟨c, rfl, hc⟩, fun _ _ => trivial⟩

/-- What every such call keeps is kept by the code. -/
theorem Prepares.keeps {P : Type} {c : Contract Task.Ans P} {I : P → Prop} {x : MainProc α} (hx : Prepares x)
    (hcall : ∀ s p, Sys.preparing s = true → I p → c.permits p (.sys s) ∧
      ∀ a, c.promises p ⟨.sys s, a⟩ → I (c.after p ⟨.sys s, a⟩)) :
    Keeps c (fun _ p => I p) (fun _ _ p => I p) x :=
  Keeps.of_only hx fun e p he hI => by
    obtain ⟨s, rfl, hs⟩ := he
    exact hcall s p hs hI

end

theorem prepares_reload : Prepares Settings.reload := by
  have hget : ∀ key, Prepares (Settings.get key) := fun key =>
    (prepares_ask rfl).bind fun _ => prepares_pure _
  unfold Settings.reload
  iterate 11 refine (hget _).bind fun _ => ?_
  exact prepares_pure _

theorem prepares_announce (FromAddress : SocketAddress) : Prepares (announce FromAddress) :=
  .ite ((prepares_ask rfl).bind fun _ => prepares_pure ()) (prepares_pure ())

theorem prepares_addresses (cli : SpeyCLI) : Prepares (addresses cli) := by
  have hsetname : ∀ a name, Prepares (SocketAddress.setname a name) := fun a name => by
    refine (prepares_ask rfl).bind fun address => ?_
    cases address with
    | none => exact prepares_raise _
    | some address => exact prepares_pure _
  have hset : ∀ a name, Prepares (SocketAddress.set a name) := fun a name => by
    unfold SocketAddress.set
    refine .ite ?_ (hsetname a name)
    exact (Prepares.ite (prepares_pure a) (hsetname a _)).bind fun _ => prepares_pure _
  refine (prepares_ask rfl).bind fun opened => .ite ?_ (prepares_raise _)
  exact (hset _ _).bind fun _ => (hset _ _).bind fun _ => prepares_pure _

theorem prepares_drop_root_privileges (usergroupid : Bytes) : Prepares (drop_root_privileges usergroupid) := by
  refine (prepares_ask rfl).bind fun uid => .ite (prepares_pure ()) (.ite (prepares_pure ()) ?_)
  refine .ite (prepares_raise _) ((prepares_ask rfl).bind fun pwd => (prepares_ask rfl).bind fun grp => ?_)
  split
  · refine (prepares_ask rfl).bind fun _ => (prepares_ask rfl).bind fun _ => (prepares_ask rfl).bind fun _ => ?_
    exact .ite (prepares_raise _) (prepares_pure ())
  · exact prepares_raise _

theorem prepares_check_private_key (config : Configuration) : Prepares (check_private_key config) := by
  refine .ite (prepares_pure ()) (.ite (prepares_pure ()) ((prepares_ask rfl).bind fun e => ?_))
  exact .ite (prepares_raise _) (prepares_pure ())

end Spey.Daemon
