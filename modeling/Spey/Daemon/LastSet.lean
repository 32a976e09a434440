import Spey.Daemon.Privileges
import Spey.Speyctl.LastSet

/-!
# What the daemon does with the settings

speyctl and the daemon meet in the table `settings`. `Settings::reload` loads what was set
last, in the main thread and in the server, and what the main thread does before there is a
second thread it does with these values.
-/

namespace Spey.Daemon

open Interaction Interaction.Action Speyctl

/-- The main thread's queries of the settings find what `db` has; one that fails finds nothing. -/
def Main.Finds (db : Tables) : Rule Task.Ans
  | ⟨.sys (.setting key), (x : Option Bytes)⟩, _ => x.getD [] = value db key
  | _, _ => True

/-- The same for the server. -/
def Server.Finds (db : Tables) : Rule ServerCall.Ans
  | ⟨.setting key, (x : Option Bytes)⟩, _ => x.getD [] = value db key
  | _, _ => True

section
variable {db : Tables}

theorem wp_get {Q : Post Task.Ans MainExn Unit Bytes} {h : History Task.Ans} (key : String) :
    (Settings.get key).wp Q () h ↔
      ∀ x : Option Bytes, Q (.ok (x.getD [])) () (⟨.sys (.setting (text key)), x⟩ :: h) :=
  Iff.rfl

theorem reload_loads (h : History Task.Ans) :
    Settings.reload.wp (fun r _ h' => Always (Main.Finds db) h' → r = .ok (Configuration.of (value db))) () h := by
  simp only [Settings.reload, wp_bind, wp_get, wp_pure, always_cons, Main.Finds]
  intro _ _ _ _ _ _ _ _ _ _ _ hfound
  simp only [hfound, Configuration.of]

theorem wp_server_get {Q : Post ServerCall.Ans ServerExn Server Bytes} {s : Server} {h : History ServerCall.Ans}
    (key : String) : (Spey.Settings.get key).wp Q s h ↔
      ∀ x : Option Bytes, Q (.ok (x.getD [])) s (⟨.setting (text key), x⟩ :: h) := by
  refine forall_congr' fun x => ?_
  cases x with
  | none => rfl
  | some value => rfl

theorem server_reload_loads (s : Server) (h : History ServerCall.Ans) :
    Spey.Settings.reload.wp (fun r s' h' => Always (Server.Finds db) h' →
      r = .ok () ∧ s' = { s with settings := (Configuration.of (value db)).session }) s h := by
  simp only [Spey.Settings.reload, wp_bind, wp_server_get, wp_update, always_cons, Server.Finds]
  intro _ _ _ _ _ _ _ _ _ _ _ hfound
  simp only [hfound, Configuration.of, Configuration.session, and_self]

/-- A connection that is refused is given this identity. -/
def Server.Names (identity : Bytes) : Rule ServerCall.Ans
  | ⟨.write _ message, _⟩, _ => message = ServerProcessor.unavailable identity
  | _, _ => True

/-- The server has named itself as `db` says, if its queries have found what `db` has. -/
def Server.Named (db : Tables) (h : History ServerCall.Ans) : Prop :=
  Always (Server.Finds db) h → Always (Server.Names (value db (text "identity"))) h

/-- A call that is not a message. -/
theorem Server.Named.cons {h : History ServerCall.Ans} {e : Event ServerCall.Ans} (hnamed : Server.Named db h)
    (he : Server.Names (value db (text "identity")) e h) : Server.Named db (e :: h) :=
  fun hfinds => ⟨he, hnamed hfinds.2⟩

/-- After the settings were loaded, the server knows its name. -/
structure Server.Ready (db : Tables) (s : Server) (h : History ServerCall.Ans) : Prop where
  named : Server.Named db h
  identity : Always (Server.Finds db) h → s.settings.identity = value db (text "identity")

theorem Server.Ready.cons {s : Server} {h : History ServerCall.Ans} {e : Event ServerCall.Ans}
    (hready : Server.Ready db s h) (he : Server.Names (value db (text "identity")) e h) : Server.Ready db s (e :: h) :=
  ⟨hready.named.cons he, fun hfinds => hready.identity hfinds.2⟩

theorem reload_ready {s : Server} {h : History ServerCall.Ans} (hnamed : Server.Named db h) :
    Spey.Settings.reload.wp (fun _ s' h' => Server.Ready db s' h') s h := by
  simp only [Spey.Settings.reload, wp_bind, wp_server_get, wp_update]
  intro _ _ _ _ _ _ _ _ _ _ _
  refine ⟨?_, fun hfinds => ?_⟩
  · iterate 11 refine Server.Named.cons ?_ trivial
    exact hnamed
  · simp only [always_cons, Server.Finds] at hfinds
    simp only [hfinds]

theorem log_ready {s : Server} {h : History ServerCall.Ans} (address : SocketAddress) (hready : Server.Ready db s h) :
    address.log.wp (fun r s' h' => r = .ok () ∧ Server.Ready db s' h') s h := by
  simp only [SocketAddress.log, serverCall, wp_ite, wp_bind, wp_call, wp_pure]
  split
  · exact fun _ => ⟨trivial, hready.cons trivial⟩
  · exact ⟨trivial, hready⟩

theorem refuse_named {s : Server} {h : History ServerCall.Ans} (fd : Int) (address : SocketAddress)
    (hready : Server.Ready db s h) : (ServerProcessor.refuse fd address).wp (fun _ _ h' => Server.Named db h') s h := by
  rw [ServerProcessor.refuse, wp_bind]
  refine wp_mono (log_ready address hready) fun r s h hr => ?_
  obtain ⟨rfl, hready⟩ := hr
  intro _ _ hfinds
  refine ⟨trivial, ?_, hready.named hfinds.2.2⟩
  exact congrArg ServerProcessor.unavailable (hready.identity hfinds.2.2)

theorem round_named {s : Server} {h : History ServerCall.Ans} (hnamed : Server.Named db h) :
    ServerProcessor.round.wp (fun _ _ h' => Server.Named db h') s h := by
  rw [ServerProcessor.round, wp_bind]
  refine wp_mono (reload_ready hnamed) fun r s h hready => ?_
  cases r with
  | error e => exact hready.named
  | ok _ =>
    simp only [SocketServer.accept, serverCall, wp_bind, wp_getState, wp_call]
    intro x
    cases x with
    | error errno => exact hready.named.cons trivial
    | ok connection =>
      obtain ⟨fd, address⟩ := connection
      simp only [wp_pure, wp_bind, wp_handle]
      have haccepted : Server.Ready db s (⟨.accept s._fd, .ok (fd, address)⟩ :: h) := hready.cons trivial
      refine wp_mono (log_ready address haccepted) fun r s h hr => ?_
      obtain ⟨rfl, hready⟩ := hr
      simp only [Threadlet.start, serverCall, wp_bind, wp_call, wp_ite, wp_raise, wp_pure]
      intro e
      have hcreated : Server.Ready db s (⟨.createThread fd address, e⟩ :: h) := hready.cons trivial
      split
      · refine wp_mono (refuse_named fd address hcreated) fun r _ _ hr => ?_
        cases r <;> exact hr
      · exact hcreated.named

/-- Any number of rounds, and what is left to do after them. -/
theorem threadlet_named (rounds : Nat) (s : Server) :
    (ServerProcessor.threadlet rounds).wp (fun _ _ h' => Server.Named db h') s [] := by
  have hrun : ∀ s h, Server.Named db h →
      (Spey.ServerProcessor.run rounds).wp (fun _ _ h' => Server.Named db h') s h := by
    refine wp_repeatUntil (fun _ h => Server.Named db h) (fun s h hnamed => ?_) (fun s h hnamed => hnamed) rounds
    refine wp_mono (round_named hnamed) fun r _ _ hr => ?_
    rcases r with e | _ | b <;> exact hr
  have hdeinit : ∀ s h, Server.Named db h → SocketServer.deinit.wp (fun _ _ h' => Server.Named db h') s h := by
    intro s h hnamed
    simp only [SocketServer.deinit, serverCall, wp_bind, wp_getState, wp_ite, wp_call, wp_update, wp_pure]
    split
    · exact fun _ => hnamed.cons trivial
    · exact hnamed
  rw [ServerProcessor.threadlet, Spey.Threadlet.trampoline, wp_bind, serverCall, wp_call]
  intro e
  have hnamed : Server.Named db [⟨.setspecific, e⟩] := fun _ => ⟨trivial, trivial⟩
  dsimp only
  rw [wp_ite]
  split
  · exact hnamed
  · rw [wp_bind, wp_handle]
    refine wp_mono (hrun s _ hnamed) fun r s' h' hr => ?_
    rcases r with (_ | _ | _ | _) | _
    all_goals first | exact hdeinit s' h' hr | exact hr

/-- Whatever commands were run on the new database, and whichever of their calls have failed: the
main thread and the server load what was set last, and that is the identity that the server gives
for as long as it runs. -/
theorem settings_loaded (is : List Invocation) :
    let db := runs Tables.init is
    let config := Configuration.of (lastSet (value Tables.init) (assignments Tables.init is))
    (∀ r h, Settings.reload.Ends () [] r () h → Always (Main.Finds db) h → r = .ok config) ∧
      (∀ s r s' h, Spey.Settings.reload.Ends s [] r s' h → Always (Server.Finds db) h →
        r = .ok () ∧ s' = { s with settings := config.session }) ∧
      ∀ rounds s r s' h, (ServerProcessor.threadlet rounds).Ends s [] r s' h → Always (Server.Finds db) h →
        Always (Server.Names config.identity) h := by
  intro db config
  obtain ⟨c, hinit⟩ := models_init
  have hvalue : value db = lastSet (value Tables.init) (assignments Tables.init is) := runs_value hinit is
  have hconfig : Configuration.of (value db) = config := congrArg Configuration.of hvalue
  rw [← hconfig]
  exact ⟨fun r h => (wp_iff_ends _ _ _ _).mp (reload_loads []) r () h,
    fun s => (wp_iff_ends _ _ _ _).mp (server_reload_loads s []),
    fun rounds s => (wp_iff_ends _ _ _ _).mp (threadlet_named rounds s)⟩

end

def identity : Argument := ⟨text "identity", by decide +kernel⟩

/-- An environment of the server in which the queries find what `db` has. -/
def Server.finding (db : Tables) : (c : ServerCall) → Unit → ServerCall.Ans c × Unit
  | .setting key, _ => (some (value db key), ())
  | .accept _, _ => (.error 0, ())
  | .createThread _ _, _ => ((0 : Int), ())
  | .write _ _, _ => ((), ())
  | .close _, _ => ((), ())
  | .gethostbyaddr _, _ => (none, ())
  | .setspecific, _ => ((0 : Int), ())

/-- The identity is set, and not set again by a command whose INSERT fails. -/
theorem settings_loaded_identity :
    let is := [assigning identity ⟨text "mx.test", by decide +kernel⟩ fun _ => false,
      assigning identity ⟨text "other.test", by decide +kernel⟩ fun n => n = 3]
    assignments Tables.init is = [(text "identity", text "mx.test")] ∧
      ∀ s, ∃ r s' h, Spey.Settings.reload.Ends s [] r s' h ∧ s'.settings.identity = text "mx.test" := by
  intro is
  have hset : assignments Tables.init is = [(text "identity", text "mx.test")] := by decide +kernel
  refine ⟨hset, fun s => ⟨_, _, _, ends_run (Server.finding (runs Tables.init is)) _ s (), ?_⟩⟩
  have hrun := ends_run (Server.finding (runs Tables.init is)) Spey.Settings.reload s ()
  rw [((settings_loaded is).2.1 s _ _ _ hrun ⟨rfl, rfl, rfl, rfl, rfl, rfl, rfl, rfl, rfl, rfl, rfl, trivial⟩).2, hset]
  show lastSet (value Tables.init) [(text "identity", text "mx.test")] (text "identity") = text "mx.test"
  rw [lastSet, List.foldl_cons, List.foldl_nil, Function.update_self]

/-! ## Every run -/

section
variable {LIKE : Bytes → Bytes → Bool} {hosts : Host → Prop} {rounds : Nat} {cli : SpeyCLI} {host : Host}
  {k₀ k : Kernel} {threads : List Running} {h : History (Shared Nat Sys.Ans)}

/-- The process does not run as root, or is meant to, or has taken the user and the group
that `userid` names. -/
inductive RunsAs (userid : Bytes) (l : Calls) : Prop
  | user {uid : Nat} (huid : ⟨.getuid, uid⟩ ∈ l) (hne : uid ≠ 0)
  | root (hempty : userid = [])
  | dropped {username groupname : Bytes} {uid gid : Nat} {earlier : Calls}
      (huserid : userid = username ++ byte ':' :: groupname) (hname : byte ':' ∉ username)
      (hpwd : ⟨.getpwnam (cstr username), some uid⟩ ∈ l) (hgrp : ⟨.getgrnam (cstr groupname), some gid⟩ ∈ l)
      (hset : ⟨.setuid uid, (0 : Int)⟩ :: ⟨.setgid gid, (0 : Int)⟩ ::
        ⟨.initgroups (cstr username) gid, (0 : Int)⟩ :: earlier <:+ l)

/-- TLS is off, or no private key is named, or the named one can be read. -/
def KeyReadable (config : Configuration) (l : Calls) : Prop :=
  config.externaltls = false ∨ config.tlsprivatekeyfile = [] ∨
    ∃ i : Int, ⟨.access (cstr config.tlsprivatekeyfile), i⟩ ∈ l ∧ i ≠ -1

/-- What a thread has read of the settings. -/
theorem loads_stored {db : Tables} {t : Nat} {earlier : Calls} {key : String} {value' : Bytes}
    (hqueries : ∀ e ∈ h, e.thread = t → Finds (value db) e) (hs : earlier <:+ own t h) (hloads : Loads earlier key value') :
    value' = value db (text key) := by
  have hfinds : ∀ x : Option Bytes, ⟨.setting (text key), x⟩ ∈ earlier → x.getD [] = value db (text key) := fun x hx =>
    hqueries ⟨(t, .setting (text key)), x⟩ (mem_of_own (hs.subset hx)) rfl
  cases hloads with
  | read hread => exact hfinds _ hread
  | failed hfailed => exact hfinds none hfailed

/-- Where there is a second thread, the main thread has created one, and before that the privileges
of root were given up as it was set last, and so was the private key looked at. -/
theorem started_as_set (is : List Invocation) (hcrew : Runs LIKE hosts rounds cli host k₀ threads k h)
    (hqueries : ∀ e ∈ h, e.thread = 0 → Finds (value (runs Tables.init is)) e) (hsecond : 1 < threads.length) :
    let config := Configuration.of (lastSet (value Tables.init) (assignments Tables.init is))
    ∃ later c, ∃ x : Sys.Ans c, ∃ earlier, own 0 h = later ++ ⟨c, x⟩ :: earlier ∧
      (Sys.spawn ⟨c, x⟩).isSome ∧ RunsAs config.runtimeuserid earlier ∧ KeyReadable config earlier := by
  intro config
  obtain ⟨later, c, x, earlier, hown, hspawn, hlaunches⟩ := (launched_runs hcrew).started hsecond
  obtain ⟨_, hinit⟩ := models_init
  have hs : earlier <:+ own 0 h := by
    rw [hown]
    exact (List.suffix_cons _ _).trans (List.suffix_append _ _)
  have hset : ∀ {key : String} {value' : Bytes}, Loads earlier key value' →
      value' = lastSet (value Tables.init) (assignments Tables.init is) (text key) := fun hloads =>
    (loads_stored hqueries hs hloads).trans (congrFun (runs_value hinit is) _)
  have hprepared : Prepared cli earlier := by
    cases c with
    | createServer fd => exact hlaunches.2.1
    | createThread fd address => exact hlaunches.2.2
    | _ => cases hspawn
  refine ⟨later, c, x, earlier, hown, hspawn, ?_, ?_⟩
  · cases hprepared.unprivileged with
    | user huid hne => exact .user huid hne
    | root hloads => exact .root (hset hloads).symm
    | dropped hloads hname hpwd hgrp hids => exact .dropped (hset hloads).symm hname hpwd hgrp hids
  · cases hprepared.key with
    | notls hloads hzero =>
      left
      rw [hset hloads] at hzero
      exact decide_eq_false (not_not.mpr hzero)
    | nokey hloads => exact .inr (.inl (hset hloads).symm)
    | readable hloads haccess hne =>
      rw [hset hloads] at haccess
      exact .inr (.inr ⟨_, haccess, hne⟩)

end

/-- The user, TLS and its private key are set. -/
def securing : List Invocation :=
  [assigning ⟨text "runtime-user-id", by decide +kernel⟩ ⟨text "mail:mail", by decide +kernel⟩ fun _ => false,
    assigning ⟨text "external-tls", by decide +kernel⟩ ⟨text "1", by decide +kernel⟩ fun _ => false,
    assigning ⟨text "tls-private-key-file", by decide +kernel⟩ ⟨text "/key", by decide +kernel⟩ fun _ => false]

/-- The daemon that is started by root is no longer root when it creates a thread. -/
theorem started_as_set_secured :
    let config := Configuration.of (lastSet (value Tables.init) (assignments Tables.init securing))
    ∃ m, Scene.play (value (runs Tables.init securing)) 20 Delivery.cli Delivery.scene [(0, 27)] = some m ∧
      Sys.setuid 8 ∈ (own 0 m.past).map Sigma.fst ∧ config.runtimeuserid = text "mail:mail" ∧
      ∃ later c, ∃ x : Sys.Ans c, ∃ earlier, own 0 m.past = later ++ ⟨c, x⟩ :: earlier ∧
        (Sys.spawn ⟨c, x⟩).isSome ∧ RunsAs config.runtimeuserid earlier ∧ KeyReadable config earlier := by
  intro config
  have hset : config.runtimeuserid = text "mail:mail" := by decide +kernel
  obtain ⟨m, hplay, hsecond, hsetuid⟩ := Scene.seen
    (Scene.play (value (runs Tables.init securing)) 20 Delivery.cli Delivery.scene [(0, 27)])
    (fun m => 1 < m.threads.length ∧ Sys.setuid 8 ∈ (own 0 m.past).map Sigma.fst) (by decide +kernel)
  have hsteady := (Scene.play_steady hplay).1
  exact ⟨m, hplay, hsetuid, hset, started_as_set securing hsteady.run (fun e he _ => hsteady.finds e he) hsecond⟩

end Spey.Daemon
