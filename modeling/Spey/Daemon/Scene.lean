import Spey.Daemon.Kernel
import Spey.Interaction.Schedule

/-!
# Worlds that can be run

A scene is a world for the daemon that computes its answers: who is to connect, and what
each peer is to send, is given beforehand; every call succeeds, and one that has
nothing to wait for any more is not answered. What the threads do in a scene by some
schedule is a run of the program.
-/

namespace Spey.Daemon

open Interaction

structure Scene where
  locked : Bool := false
  /-- what is in use -/
  live : List Resource := []
  db : Greylist.Database
  /-- the next descriptor or handle -/
  fresh : Nat
  /-- who is to connect -/
  arrivals : List SocketAddress
  /-- what is to come from each peer that is connected -/
  incoming : List (Nat × Bytes)

namespace Scene

def kernel (s : Scene) : Kernel := ⟨s.locked, (· ∈ s.live), s.db⟩

/-- What has not been read of what the peer sends. -/
def unread (s : Scene) (fd : Int) : Bytes := ((s.incoming.find? fun p => p.1 = fd).map (·.2)).getD []

def gain (s : Scene) (r : Resource) : Scene := { s with live := r :: s.live, fresh := s.fresh + 1 }

def lose (s : Scene) (r : Resource) : Scene := { s with live := s.live.filter (· ≠ r) }

/-- The next byte is read. -/
def take (s : Scene) (fd : Int) : Scene :=
  { s with incoming := s.incoming.map fun p => if p.1 = fd then (p.1, p.2.drop 1) else p }

variable (found : Bytes → Bytes)

def answer : Waiting Sys.Ans Scene
  | .takeCPUlock, s => if s.locked then none else some ((), { s with locked := true })
  | .releaseCPUlock, s => some ((), { s with locked := false })
  | .setspecific, s | .createThread _ _, s | .createServer _, s => some ((0 : Int), s)
  | .pause, _ | .terminate, _ => none
  | .gettimeofday, s => some (⟨1000, 0, Nat.succ_pos 999999⟩, s)
  | .time, s => some ((1000 : Int), s)
  | .socket, s =>
      if .descriptor s.fresh ∈ s.live then none else some ((s.fresh : Int), s.gain (.descriptor s.fresh))
  | .bind _ _, s | .listen _, s | .connect _ _, s => some ((0 : Int), s)
  | .setsockopt _, s => some ((), s)
  | .accept _, s =>
      match s.arrivals with
      | [] => none
      | address :: arrivals =>
          if .descriptor s.fresh ∈ s.live then none
          else some (.ok ((s.fresh : Int), address), { s.gain (.descriptor s.fresh) with arrivals })
  | .poll fd _, s => if s.unread fd = [] then none else some ((1 : Int), s)
  | .read fd, s => some ((s.unread fd).head?, s.take fd)
  | .write _ buffer, s => some ((buffer.length : Int), s)
  | .refuse _ _, s => some ((), s)
  | .close fd, s => some ((), s.lose (.descriptor fd))
  | .gnutls_init, s => if .session s.fresh ∈ s.live then none else some ((0, s.fresh), s.gain (.session s.fresh))
  | .gnutls_deinit n, s => some ((), s.lose (.session n))
  | .gnutls_anon_allocate_server_credentials, s =>
      if .anonymous s.fresh ∈ s.live then none else some (some s.fresh, s.gain (.anonymous s.fresh))
  | .gnutls_anon_free_server_credentials n, s => some ((), s.lose (.anonymous n))
  | .gnutls_certificate_allocate_credentials, s =>
      if .certificate s.fresh ∈ s.live then none else some (some s.fresh, s.gain (.certificate s.fresh))
  | .gnutls_certificate_free_credentials n, s => some ((), s.lose (.certificate n))
  | .dh_params, s => some ((0, 0), s)
  | .gnutls_dh_params_init, s => some ((1 : Nat), s)
  | .setfreshness _, s | .gnutls_dh_params_generate2 _, s | .gnutls_anon_set_server_dh_params _ _, s
  | .gnutls_certificate_set_dh_params _ _, s | .setAnonymous _ _, s | .setCertificate _ _, s
  | .gnutls_kx_set_priority _, s => some ((), s)
  | .access _, s | .gnutls_certificate_set_x509_key_file _ _ _, s | .gnutls_handshake _ _, s => some ((0 : Int), s)
  | .gnutls_record_check_pending _, s => some (false, s)
  | .gnutls_record_recv _ fd, s => some ((s.unread fd).head?, s.take fd)
  | .gnutls_record_send _ _ buffer, s => some ((buffer.length : Int), s)
  | .gethostbyname _, s => some (none, s)
  | .resolve _, s => some (some 0x7F000001, s)
  | .gethostbyaddr _, s => some (none, s)
  | .setting key, s => some (some (found key), s)
  | .trustedhosts _, s => some (some 0, s)
  | .validrecipients _ _, s => some (some 1, s)
  | .users _ _, s => some (some 0, s)
  | .increment _, s => some (true, s)
  | .greylist st, s =>
      let result := Greylist.Statement.execute (fun _ _ => false) st s.db
      some (some result.1, { s with db := result.2 })
  | .daemon, s => some ((0 : Int), s)
  | .open _, s => some (true, s)
  | .getuid, s => some ((0 : Nat), s)
  | .getpwnam _, s | .getgrnam _, s => some (some 8, s)
  | .initgroups _ _, s | .setgid _, s | .setuid _, s => some ((0 : Int), s)

/-- The host of a session. -/
def host (address : SocketAddress) : Host where
  ctx := ⟨(Configuration.of found).session, true, address.address, address.port⟩
  sockettimeout := .ofInt (Configuration.of found).sockettimeout
  tlscertificatefile := (Configuration.of found).tlscertificatefile
  tlsprivatekeyfile := (Configuration.of found).tlsprivatekeyfile
  ToAddress := ⟨0x7F000001, 25⟩

/-- The threads that a call creates. -/
def create (rounds : Nat) (e : Event Sys.Ans) : List Running :=
  match Sys.spawn e with
  | none => []
  | some (.session fd address) =>
      [(messageThread (host found address).ctx rounds).implement (perform rounds) (.ofConnection (host found address) fd)]
  | some (.server fd) =>
      [(serverThread ⟨fd, (Configuration.of found).session⟩ rounds).implement (perform rounds)
        { host := host found ⟨0, 0⟩ }]

variable {found : Bytes → Bytes} {s : Scene} {c : Sys} {x : Sys.Ans c} {r : Resource}

section
variable (LIKE : Bytes → Bytes → Bool) {s' : Scene}

theorem serves_gain (hlock : LockServes c s.locked s.locked) (hdb : DbServes LIKE c s.db x s.db)
    (hgives : Sys.gives ⟨c, x⟩) (hgains : Sys.gains ⟨c, x⟩ = some r) (hcloses : Sys.closes ⟨c, x⟩ = none)
    (hfresh : r ∉ s.live) (hs : s'.kernel = (s.gain r).kernel) : Serves LIKE c s.kernel x s'.kernel where
  lock := hs ▸ hlock
  db := hs ▸ hdb
  gives := hgives
  fresh r' hr' := by
    obtain rfl : r = r' := Option.some.inj (hgains.symm.trans hr')
    exact hfresh
  live r' := by
    rw [hs, hgains, hcloses]
    show r' ∈ r :: s.live ↔ _
    rw [List.mem_cons, or_comm]
    exact or_congr (and_iff_left nofun).symm ⟨fun he => congrArg some he.symm, fun he => (Option.some.inj he).symm⟩

theorem serves_lose (hlock : LockServes c s.locked s.locked) (hdb : DbServes LIKE c s.db x s.db)
    (hgives : Sys.gives ⟨c, x⟩) (hgains : Sys.gains ⟨c, x⟩ = none) (hcloses : Sys.closes ⟨c, x⟩ = some r) :
    Serves LIKE c s.kernel x (s.lose r).kernel where
  lock := hlock
  db := hdb
  gives := hgives
  fresh := by
    rw [hgains]
    exact nofun
  live r' := by
    rw [hgains, hcloses]
    show r' ∈ s.live.filter (· ≠ r) ↔ _
    rw [List.mem_filter, decide_eq_true_eq]
    refine (and_congr_right fun _ => ?_).trans (or_iff_left nofun).symm
    exact ⟨fun hne he => hne (Option.some.inj he).symm, fun hne he => hne (congrArg some he.symm)⟩

end

/-- The kernel may answer as the scene does. -/
theorem answer_serves {s' : Scene} (hanswer : answer found c s = some (x, s')) :
    Serves (fun _ _ => false) c s.kernel x s'.kernel := by
  cases c with
  | takeCPUlock =>
    obtain ⟨hfree, he⟩ := Option.ite_none_left_eq_some.mp hanswer
    cases he
    exact serves_take _ (eq_false_of_ne_true hfree)
  | releaseCPUlock =>
    cases hanswer
    exact ⟨rfl, rfl, trivial, nofun, live_same rfl rfl⟩
  | pause | terminate => cases hanswer
  | poll fd delay =>
    obtain ⟨-, he⟩ := Option.ite_none_left_eq_some.mp hanswer
    cases he
    exact serves_plain _ rfl rfl trivial rfl rfl
  | socket =>
    obtain ⟨hfresh, he⟩ := Option.ite_none_left_eq_some.mp hanswer
    cases he
    have hne : (s.fresh : Int) ≠ -1 := by omega
    have hgains : Sys.gains ⟨.socket, (s.fresh : Int)⟩ = some (.descriptor s.fresh) := if_neg (t := none) hne
    exact serves_gain _ rfl rfl trivial hgains rfl hfresh rfl
  | accept fd =>
    rw [answer] at hanswer
    split at hanswer
    · cases hanswer
    · obtain ⟨hfresh, he⟩ := Option.ite_none_left_eq_some.mp hanswer
      cases he
      have hne : (s.fresh : Int) ≠ -1 := by omega
      exact serves_gain _ rfl rfl hne rfl rfl hfresh rfl
  | gnutls_init | gnutls_anon_allocate_server_credentials | gnutls_certificate_allocate_credentials =>
    obtain ⟨hfresh, he⟩ := Option.ite_none_left_eq_some.mp hanswer
    cases he
    exact serves_gain _ rfl rfl trivial rfl rfl hfresh rfl
  | close _ | gnutls_deinit _ | gnutls_anon_free_server_credentials _ | gnutls_certificate_free_credentials _ =>
    cases hanswer
    exact serves_lose _ rfl rfl trivial rfl rfl
  | greylist st =>
    cases hanswer
    exact ⟨rfl, .inr ⟨rfl, rfl⟩, trivial, nofun, live_same rfl rfl⟩
  | _ =>
    cases hanswer
    exact serves_plain _ rfl rfl trivial rfl rfl

theorem create_spawns (found : Bytes → Bytes) (rounds : Nat) (e : Event Sys.Ans) :
    Spawns (Host.Of found) rounds e (create found rounds e) := by
  have hhost : ∀ address, (host found address).Of found := fun address => ⟨rfl, rfl, rfl, rfl⟩
  unfold Spawns create
  cases Sys.spawn e with
  | none => rfl
  | some spawn =>
    cases spawn with
    | session fd address => exact ⟨_, _, .session (hhost address) ⟨rfl, rfl⟩, rfl⟩
    | server fd => exact ⟨_, _, .server (hhost _) rfl, rfl⟩

/-- The threads, the scene and what has happened, at some time. -/
abbrev Played := Moment Sys.Ans (Except Exn End × Members) Scene

/-- The program, and a scene that it starts in. -/
def start (found : Bytes → Bytes) (rounds : Nat) (cli : SpeyCLI) (s : Scene) : Played where
  threads := [(mainThread cli).implement (perform rounds) { host := host found ⟨0, 0⟩ }]
  world := s

/-- What the program does in a scene, where the threads take so many turns each. -/
def play (found : Bytes → Bytes) (rounds : Nat) (cli : SpeyCLI) (s : Scene) (turns : List (Nat × Nat)) : Option Played :=
  (start found rounds cli s).follow (answer found) (create found rounds)
    (turns.flatMap fun turn => List.replicate turn.2 turn.1)

/-- What the program does in a scene is a run with settings that are not changed, in which GNUTLS
makes every session. -/
theorem play_steady {rounds : Nat} {cli : SpeyCLI} {turns : List (Nat × Nat)} {m : Played}
    (hplay : play found rounds cli s turns = some m) :
    Steady (fun _ _ => false) found rounds cli (host found ⟨0, 0⟩) s.kernel m.threads m.world.kernel m.past ∧
      ∀ e ∈ m.past, Sys.Makes ⟨e.1.2, e.2⟩ := by
  refine ⟨⟨⟨rfl, rfl, rfl, rfl⟩, ?_, ?_⟩, ?_⟩
  · exact Moment.follow_crew (fun _ _ _ _ => answer_serves) (create_spawns found rounds) .start hplay
  · refine Moment.follow_past (fun t c x s s' hanswer => ?_) (by exact nofun) hplay
    cases c with
    | setting key =>
      cases hanswer
      rfl
    | _ => trivial
  · refine Moment.follow_past (fun t c x s s' hanswer => ?_) (by exact nofun) hplay
    cases c with
    | gnutls_init =>
      obtain ⟨-, he⟩ := Option.ite_none_left_eq_some.mp hanswer
      cases he
      rfl
    | _ => trivial

/-- What can be seen of a run that can be evaluated. -/
theorem seen (played : Option Played) (P : Played → Prop) [DecidablePred P]
    (hP : played.any (fun m => decide (P m)) = true) : ∃ m, played = some m ∧ P m := by
  obtain ⟨m, hplay, hm⟩ := (Option.any_eq_true _ _).mp hP
  exact ⟨m, hplay, of_decide_eq_true hm⟩

end Scene

/-! ## A delivery -/

namespace Delivery

/-- The settings: runtime-user-id, external-tls and tls-private-key-file are set. -/
def found (key : Bytes) : Bytes :=
  if key = text "identity" then text "mx.test"
  else if key = text "quarantine-time" then text "3600"
  else if key = text "socket-timeout" then text "30"
  else if key = text "runtime-user-id" then text "mail:mail"
  else if key = text "external-tls" then text "1"
  else if key = text "tls-private-key-file" then text "/key"
  else []

def cli : SpeyCLI := ⟨text "spey.db", text ":25", text "mx:25", true, false⟩

theorem not_inetd : ¬ cli.i = true := Bool.false_ne_true

/-- Two clients connect. The first one asks for TLS, and wants to deliver. -/
def scene : Scene where
  db := ⟨[], [], [], none, none⟩
  fresh := 3
  arrivals := [⟨0xC0000201, 1025⟩, ⟨0xC0000202, 1026⟩]
  incoming := [(4, text "STARTTLS\nMAIL FROM:<a@b>\nRCPT TO:<c@d>\nQUIT\n"), (9, text "220 \n250 \n250 \n")]

/-- The main thread, the server and the first session take so many turns, and the second one its first. -/
abbrev play (turns : Nat) : Option Scene.Played :=
  Scene.play found 20 cli scene [(0, 27), (1, 46), (2, turns), (3, 1)]

/-- Has the thread returned? -/
def finished (m : Scene.Played) (t : Nat) : Bool :=
  match m.threads[t]? with
  | some (.done (.ok .returned, _)) => true
  | _ => false

theorem finished_done {m : Scene.Played} {t : Nat} (hfinished : finished m t = true) :
    ∃ members, m.threads[t]? = some (.done (.ok .returned, members)) := by
  unfold finished at hfinished
  split at hfinished
  · next members ht => exact ⟨members, ht⟩
  · cases hfinished

end Delivery

end Spey.Daemon
