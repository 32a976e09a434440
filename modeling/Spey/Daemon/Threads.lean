import Spey.Daemon.Socket
import Spey.Interaction.Crew
import Spey.Statistics

/-!
# Threadlet.cc, and the threads of the daemon

A thread is written in calls of the level above: those of a session, those of the
server, and the system calls of `Threadlet::trampoline` itself. `perform` carries
them out.

`Begins` says which threads a call creates. The settings that a session reads are
those of its `Host`; which ones these are is open here.
-/

namespace Spey.Daemon

open Interaction Interaction.Action

/-- What the threads call. -/
inductive Task where
  | session (c : Call)
  | server (c : ServerCall)
  /-- `delete threadlet`, for a `MessageProcessor`: the sockets are destroyed -/
  | destroy
  | sys (c : Sys)

abbrev Task.Ans : Task → Type
  | .session c => Spey.Ans c
  | .server c => ServerCall.Ans c
  | .destroy => Unit
  | .sys c => Sys.Ans c

/-- How a call of the server is carried out. -/
def serve : (c : ServerCall) → SysProc (ServerCall.Ans c)
  | .setting key => sys (.setting key)
  | .accept fd => concurrently (sys (.accept fd))
  | .createThread fd address => sys (.createThread fd address)
  | .write fd message => sys (.refuse fd message)
  | .close fd => sys (.close fd)
  | .gethostbyaddr address => sys (.gethostbyaddr address)
  | .setspecific => sys .setspecific

def perform (rounds : Nat) : (e : Task) → SysProc (Task.Ans e)
  | .session c => carry rounds c
  | .server c => serve c
  | .destroy => do
      Socket.deinit .outside
      Socket.deinit .inside
  | .sys c => sys c

/-- How the code of a thread is left by an exception. -/
inductive Escape where
  /-- nothing catches it -/
  | uncaught
  /-- Not an exception of the program: the observation of an unbounded loop ends here. -/
  | unfinished

abbrev ThreadProc := Action Task.Ans Escape Unit

abbrev task (e : Task) : ThreadProc (Task.Ans e) := call e

def Escape.ofExn : Exn → Escape
  | .unfinished => .unfinished
  | _ => .uncaught

def Escape.ofServer : ServerExn → Escape
  | .unfinished => .unfinished
  | _ => .uncaught

namespace Threadlet

/-- `Threadlet::trampoline`. `run` has the handlers around it already; an exception that
one of them throws leaves the thread. -/
def trampoline (run delete : ThreadProc Unit) : ThreadProc Unit := do
  let e ← task (.sys .setspecific)
  if e ≠ 0 then pure ()
  else do
    task (.sys .takeCPUlock)
    handle run fun
      | .uncaught => some do nomatch ← task (.sys .terminate)
      | .unfinished => none
    delete
    task (.sys .releaseCPUlock)

end Threadlet

/-- The address of the client is logged. -/
def MessageProcessor.log (ctx : Context) : ThreadProc Unit := do
  if ctx.address ≠ 0 then
    let _ ← task (.sys (.gethostbyaddr ctx.address))
  else pure ()

/-- `MessageProcessor::process`, with the handlers of the trampoline -/
def MessageProcessor.process (ctx : Context) (rounds : Nat) : ThreadProc Unit := fun u =>
  (Spey.trampoline ctx rounds {}).embed Task.session (fun _ x => x)
    fun r => (r.1.mapError Escape.ofExn, u)

/-- `MessageProcessor::run`, with the handlers of the trampoline -/
def MessageProcessor.run (ctx : Context) (rounds : Nat) : ThreadProc Unit := do
  MessageProcessor.log ctx
  MessageProcessor.process ctx rounds

/-- `ServerProcessor::run`, with the handlers of the trampoline, and its destructor -/
def ServerProcessor.run (server : Server) (rounds : Nat) : ThreadProc Unit := fun u =>
  Program.embed Task.server (fun _ x => x) (fun r => (r.1.mapError Escape.ofServer, u))
    ((do
      handle (Spey.ServerProcessor.run rounds) fun
        | .unfinished => none
        | .network _ _ | .io _ _ | .sql => some (pure ())
      SocketServer.deinit : ServerProc Unit) server)

/-- Where a thread ends. -/
inductive End where
  | returned
  /-- the whole process has ended -/
  | exited
  | unfinished
  deriving DecidableEq

def End.of : Except Escape Unit × Unit → End
  | (.ok (), _) => .returned
  | (.error .uncaught, _) => .exited
  | (.error .unfinished, _) => .unfinished

abbrev Thread := Program Task Task.Ans End

/-- A thread's code as a program. -/
def ThreadProc.program (x : ThreadProc Unit) : Thread := (x ()).bind fun r => .done (End.of r)

/-- The thread of a session. -/
def messageThread (ctx : Context) (rounds : Nat) : Thread :=
  (Threadlet.trampoline (MessageProcessor.run ctx rounds) (task .destroy)).program

/-- The thread of the server. -/
def serverThread (server : Server) (rounds : Nat) : Thread :=
  (Threadlet.trampoline (ServerProcessor.run server rounds) (pure ())).program

/-- A thread on the level of the system calls. -/
abbrev Running := Program Sys Sys.Ans (Except Exn End × Members)

/-- `new MessageProcessor(fd, address)`. The lookup for the log is the server's: `ServerProcessor.round`. -/
def Members.ofConnection (host : Host) (fd : Int) : Members where
  host
  outside := { _fd := fd, _timeout := host.sockettimeout }

/-- The peer of a session is the one that its connection came from. -/
def Host.At (host : Host) (address : SocketAddress) : Prop :=
  host.ctx.address = address.address ∧ host.ctx.port = address.port

/-- A thread that is created. -/
inductive Spawn where
  | session (fd : Int) (address : SocketAddress)
  | server (fd : Int)
  deriving DecidableEq

/-- What a system call creates: nothing unless its result is 0. -/
def Sys.spawn : Event Sys.Ans → Option Spawn
  | ⟨.createThread fd address, e⟩ => if e = 0 then some (.session fd address) else none
  | ⟨.createServer fd, e⟩ => if e = 0 then some (.server fd) else none
  | _ => none

def Task.spawn : Event Task.Ans → Option Spawn
  | ⟨.server (.createThread fd address), e⟩ => if e = 0 then some (.session fd address) else none
  | ⟨.sys c, x⟩ => Sys.spawn ⟨c, x⟩
  | _ => none

/-- The program of a thread that is created, and the members that it starts with. -/
inductive Starts (hosts : Host → Prop) (rounds : Nat) : Spawn → Thread → Members → Prop
  | session {fd : Int} {address : SocketAddress} {host : Host} (hhost : hosts host)
      (haddress : host.At address) :
      Starts hosts rounds (.session fd address) (messageThread host.ctx rounds) (.ofConnection host fd)
  | server {fd : Int} {server : Server} {host : Host} (hhost : hosts host) (hfd : server._fd = fd) :
      Starts hosts rounds (.server fd) (serverThread server rounds) { host }

/-- What an event of the level above creates. -/
def Begins (hosts : Host → Prop) (rounds : Nat) : Creates Task.Ans End := fun e new =>
  match Task.spawn e with
  | none => new = []
  | some spawn => ∃ p m, Starts hosts rounds spawn p m ∧ new = [p]

/-- The threads that a system call creates. -/
def Spawns (hosts : Host → Prop) (rounds : Nat) : Creates Sys.Ans (Except Exn End × Members) := fun e new =>
  match Sys.spawn e with
  | none => new = []
  | some spawn => ∃ p m, Starts hosts rounds spawn p m ∧ new = [p.implement (perform rounds) m]

/-- What a thread must keep of a contract: its code after the lock is taken, and the end of it. -/
theorem trampoline_obeys {P : Type} {c : Contract Task.Ans P} {Q : P → Prop} {run delete : ThreadProc Unit} {p : P}
    (hname : c.permits p (.sys .setspecific))
    (hunnamed : ∀ e : Int, e ≠ 0 → Q (c.after p ⟨.sys .setspecific, e⟩))
    (htake : c.permits (c.after p ⟨.sys .setspecific, (0 : Int)⟩) (.sys .takeCPUlock))
    (hrun : run.obeys c (fun r _ p => match r with
      | .ok _ => obeys c (do delete; task (.sys .releaseCPUlock)) (fun r _ p => r = .ok () → Q p) () p
      | .error .uncaught => c.permits p (.sys .terminate)
      | .error .unfinished => True) ()
      (c.after (c.after p ⟨.sys .setspecific, (0 : Int)⟩) ⟨.sys .takeCPUlock, ()⟩)) :
    (Threadlet.trampoline run delete).program.Obeys c (fun r p => r = .returned → Q p) p := by
  have htrampoline : (Threadlet.trampoline run delete).obeys c (fun r _ p => r = .ok () → Q p) () p := by
    rw [Threadlet.trampoline, obeys_bind, obeys_call]
    refine ⟨hname, fun (e : Int) _ => ?_⟩
    dsimp only
    by_cases he : e = 0
    · subst he
      rw [if_neg (not_not_intro rfl), obeys_bind, obeys_call]
      refine ⟨htake, fun _ _ => ?_⟩
      rw [obeys_bind, obeys_handle]
      refine obeys_mono hrun fun r _ p hr => ?_
      rcases r with (_ | _) | _
      · -- `std::terminate` does not come back
        exact ⟨hr, nofun⟩
      · exact nofun
      · exact hr
    · rw [if_pos he]
      exact fun _ => hunnamed e he
  rw [ThreadProc.program, Program.obeys_bind]
  refine Program.Obeys.mono htrampoline fun r p hr => ?_
  rcases r with ⟨(_ | _) | _, _⟩
  · exact nofun
  · exact nofun
  · exact fun _ => hr rfl

end Spey.Daemon
