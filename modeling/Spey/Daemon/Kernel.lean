import Spey.Daemon.Startup
import Spey.Greylist.Concurrent
import Spey.Interaction.Ownership

/-!
# The daemon in its world

The world is the CPU lock, the descriptors and GNUTLS handles that are in use, and
the tables of greylist. A mutex is handed out when it is free, and a new descriptor or
handle is one that is not in use. Everything else is answered in any way.

A run is `Steady` if the settings are not changed while it lasts: every query of a setting finds the
same, and that is what the sessions go by.
-/

namespace Spey.Daemon

open Interaction

/-- What the system or GNUTLS gives out and wants back. -/
inductive Resource where
  | descriptor (fd : Int)
  | session (n : Nat)
  | anonymous (n : Nat)
  | certificate (n : Nat)
  deriving DecidableEq

namespace Sys

/-- What a call is made on, but for the Diffie-Hellman parameters, which are those of all threads. -/
def uses : Sys → List Resource
  | .createThread fd _ | .createServer fd | .setsockopt fd | .bind fd _ | .listen fd | .accept fd
  | .connect fd _ | .poll fd _ | .read fd | .write fd _ | .refuse fd _ | .close fd => [.descriptor fd]
  | .gnutls_deinit s | .gnutls_kx_set_priority s | .gnutls_record_check_pending s => [.session s]
  | .gnutls_handshake s fd | .gnutls_record_recv s fd | .gnutls_record_send s fd _ =>
      [.session s, .descriptor fd]
  | .gnutls_anon_free_server_credentials a | .gnutls_anon_set_server_dh_params a _ => [.anonymous a]
  | .gnutls_certificate_free_credentials c | .gnutls_certificate_set_dh_params c _
  | .gnutls_certificate_set_x509_key_file c _ _ => [.certificate c]
  | .setAnonymous s a => [.session s, .anonymous a]
  | .setCertificate s c => [.session s, .certificate c]
  | _ => []

/-- What an event brings. -/
def gains : Event Ans → Option Resource
  | ⟨.socket, fd⟩ => if fd = -1 then none else some (.descriptor fd)
  | ⟨.accept _, .ok connection⟩ => some (.descriptor connection.1)
  | ⟨.gnutls_init, made⟩ => if made.1 = 0 then some (.session made.2) else none
  | ⟨.gnutls_anon_allocate_server_credentials, a⟩ => a.map .anonymous
  | ⟨.gnutls_certificate_allocate_credentials, c⟩ => c.map .certificate
  | _ => none

/-- What an event gives back. -/
def closes : Event Ans → Option Resource
  | ⟨.close fd, _⟩ => some (.descriptor fd)
  | ⟨.gnutls_deinit s, _⟩ => some (.session s)
  | ⟨.gnutls_anon_free_server_credentials a, _⟩ => some (.anonymous a)
  | ⟨.gnutls_certificate_free_credentials c, _⟩ => some (.certificate c)
  | _ => none

/-- An accepted connection is not -1. -/
def gives : Event Ans → Prop
  | ⟨.accept _, .ok connection⟩ => connection.1 ≠ -1
  | _ => True

/-- A session of GNUTLS that was asked for was made. -/
def Makes : Event Ans → Prop
  | ⟨.gnutls_init, made⟩ => made.1 = 0
  | _ => True

end Sys

/-- The descriptor that a new thread works on. -/
def Spawn.descriptor : Spawn → Resource
  | .session fd _ | .server fd => .descriptor fd

def Sys.hands (e : Event Sys.Ans) : Option Resource := (Sys.spawn e).map Spawn.descriptor

def handling : Handling Sys.Ans Resource where
  uses c r := r ∈ Sys.uses c
  gives e := Sys.gives e ∧ Sys.Makes e
  gains := Sys.gains
  closes := Sys.closes
  hands := Sys.hands
  closes_uses := by
    intro c x r hr
    cases c <;> first | cases hr; exact List.mem_cons_self | cases hr
  hands_uses := by
    intro c x r hr
    cases c <;> try cases hr
    all_goals
      simp only [Sys.hands, Sys.spawn, Option.map_eq_some_iff, Option.ite_none_right_eq_some,
        Option.some.injEq] at hr
      obtain ⟨spawn, ⟨-, rfl⟩, rfl⟩ := hr
      exact List.mem_cons_self
  hands_keeps := by
    rintro ⟨c, x⟩ r hr
    cases c <;> first | cases hr | nofun

structure Kernel where
  /-- the CPU lock -/
  locked : Bool
  /-- what is in use -/
  live : Resource → Prop
  db : Greylist.Database

/-- What a call does to the CPU lock. -/
def LockServes : Sys → Bool → Bool → Prop
  | .takeCPUlock, locked, locked' => locked = false ∧ locked' = true
  | .releaseCPUlock, _, locked' => locked' = false
  | _, locked, locked' => locked' = locked

/-- What a call does to the tables of greylist. -/
def DbServes (LIKE : Bytes → Bytes → Bool) : Service Sys.Ans Greylist.Database
  | .greylist st, db, x, db' => Greylist.Concurrent.Serves LIKE st db x db'
  | _, db, _, db' => db' = db

structure Serves (LIKE : Bytes → Bytes → Bool) (c : Sys) (k : Kernel) (x : Sys.Ans c) (k' : Kernel) :
    Prop where
  lock : LockServes c k.locked k'.locked
  db : DbServes LIKE c k.db x k'.db
  gives : Sys.gives ⟨c, x⟩
  fresh : ∀ r, Sys.gains ⟨c, x⟩ = some r → ¬ k.live r
  live : ∀ r, k'.live r ↔
    (k.live r ∧ Sys.closes ⟨c, x⟩ ≠ some r) ∨ Sys.gains ⟨c, x⟩ = some r

/-- The runs of the program: it starts with its main thread. -/
abbrev Runs (LIKE : Bytes → Bytes → Bool) (hosts : Host → Prop) (rounds : Nat) (cli : SpeyCLI)
    (host : Host) (k₀ : Kernel) :
    List Running → Kernel → History (Shared Nat Sys.Ans) → Prop :=
  Crew (Spawns hosts rounds) (Serves LIKE) [(mainThread cli).implement (perform rounds) { host }] k₀

/-- A query of the settings finds what `found` gives; one that fails finds nothing. -/
def Finds (found : Bytes → Bytes) : Event (Shared Nat Sys.Ans) → Prop
  | ⟨(_, .setting key), (x : Option Bytes)⟩ => x.getD [] = found key
  | _ => True

/-- The settings of the host are those that are loaded where the queries find what `found` gives. -/
structure Host.Of (found : Bytes → Bytes) (host : Host) : Prop where
  settings : host.ctx.settings = (Configuration.of found).session
  sockettimeout : host.sockettimeout = .ofInt (Configuration.of found).sockettimeout
  tlscertificatefile : host.tlscertificatefile = (Configuration.of found).tlscertificatefile
  tlsprivatekeyfile : host.tlsprivatekeyfile = (Configuration.of found).tlsprivatekeyfile

/-- A run in which the settings are not changed. -/
structure Steady (LIKE : Bytes → Bytes → Bool) (found : Bytes → Bytes) (rounds : Nat) (cli : SpeyCLI) (host : Host)
    (k₀ : Kernel) (threads : List Running) (k : Kernel) (h : History (Shared Nat Sys.Ans)) : Prop where
  settings : host.Of found
  run : Runs LIKE (Host.Of found) rounds cli host k₀ threads k h
  finds : ∀ e ∈ h, Finds found e

theorem grants (LIKE : Bytes → Bytes → Bool) :
    Mutex.Grants Sys.role Kernel.locked (Serves LIKE) where
  take := by
    intro c k x k' hx hrole
    cases c <;> first | exact hx.lock | cases hrole
  release := by
    intro c k x k' hx hrole
    cases c <;> first | exact hx.lock | cases hrole
  other := by
    intro c k x k' hx htake hrelease
    cases c <;> first | exact hx.lock | exact absurd rfl htake | exact absurd rfl hrelease

/-- Where GNUTLS makes the sessions that it is asked for. -/
theorem handling_serves (LIKE : Bytes → Bytes → Bool) :
    handling.Serves Kernel.live fun c k x k' => Serves LIKE c k x k' ∧ Sys.Makes ⟨c, x⟩ where
  gives hx := ⟨hx.1.gives, hx.2⟩
  fresh {_ _ _ _ r} hx hr := hx.1.fresh r hr
  live hx := hx.1.live

/-! ## Steps of a run -/

section
variable (LIKE : Bytes → Bytes → Bool) {k : Kernel}

/-- What is in use stays in use. -/
theorem live_same {e : Event Sys.Ans} {live : Resource → Prop} (hgains : Sys.gains e = none)
    (hcloses : Sys.closes e = none) (r : Resource) :
    live r ↔ (live r ∧ Sys.closes e ≠ some r) ∨ Sys.gains e = some r := by
  rw [hgains, hcloses]
  exact ⟨fun hr => .inl ⟨hr, nofun⟩, fun hr => hr.elim And.left nofun⟩

/-- A call that has nothing to do with what the kernel keeps. -/
theorem serves_plain {c : Sys} {x : Sys.Ans c} (hlock : LockServes c k.locked k.locked)
    (hdb : DbServes LIKE c k.db x k.db) (hgives : Sys.gives ⟨c, x⟩) (hgains : Sys.gains ⟨c, x⟩ = none)
    (hcloses : Sys.closes ⟨c, x⟩ = none) : Serves LIKE c k x k where
  lock := hlock
  db := hdb
  gives := hgives
  fresh := by
    rw [hgains]
    exact nofun
  live := live_same hgains hcloses

theorem serves_take (hfree : k.locked = false) :
    Serves LIKE .takeCPUlock k () { k with locked := true } where
  lock := ⟨hfree, rfl⟩
  db := rfl
  gives := trivial
  fresh := nofun
  live := live_same rfl rfl

end

end Spey.Daemon
