import Spey.Daemon.Exclusion

/-!
# What has been checked before a second thread runs

The main thread creates one thread, and before that it has opened the database, given
up the privileges of root as the settings want it, and seen that the private key can
be read. In daemon mode the server's socket is bound and listening by then. The calls
that the main thread has made say so.
-/

namespace Spey.Daemon

open Interaction Interaction.Action

/-- What the main thread has called. -/
abbrev Calls := History Sys.Ans

/-- The setting was loaded with this value: it was read, or the query failed and the value is empty. -/
inductive Loads (l : Calls) (key : String) : Bytes → Prop
  | read {value : Bytes} (hread : ⟨.setting (text key), some value⟩ ∈ l) : Loads l key value
  | failed (hfailed : ⟨.setting (text key), none⟩ ∈ l) : Loads l key []

/-- The process does not run as root, or is meant to, or is taken to be meant to because the query
has failed, or it has taken the user and the group that the setting names. -/
inductive Unprivileged (l : Calls) : Prop
  | user {uid : Nat} (huid : ⟨.getuid, uid⟩ ∈ l) (hne : uid ≠ 0)
  | root (hloads : Loads l "runtime-user-id" [])
  | dropped {username groupname : Bytes} {uid gid : Nat} {earlier : Calls}
      (hloads : Loads l "runtime-user-id" (username ++ byte ':' :: groupname)) (hname : byte ':' ∉ username)
      (hpwd : ⟨.getpwnam (cstr username), some uid⟩ ∈ l) (hgrp : ⟨.getgrnam (cstr groupname), some gid⟩ ∈ l)
      (hset : ⟨.setuid uid, (0 : Int)⟩ :: ⟨.setgid gid, (0 : Int)⟩ ::
        ⟨.initgroups (cstr username) gid, (0 : Int)⟩ :: earlier <:+ l)

/-- TLS is not offered, or there is no private key, or it can be read. A query that failed counts as
one that has found nothing. -/
inductive KeyChecked (l : Calls) : Prop
  | notls {value : Bytes} (hloads : Loads l "external-tls" value) (hzero : atoi value = 0)
  | nokey (hloads : Loads l "tls-private-key-file" [])
  | readable {path : Bytes} {i : Int} (hloads : Loads l "tls-private-key-file" path)
      (haccess : ⟨.access (cstr path), i⟩ ∈ l) (hne : i ≠ -1)

structure Prepared (cli : SpeyCLI) (l : Calls) : Prop where
  opened : ⟨.open cli.d, true⟩ ∈ l
  unprivileged : Unprivileged l
  key : KeyChecked l

/-- The server's socket is bound and listens. -/
def Listens (fd : Int) (l : Calls) : Prop :=
  (∃ address, ∃ i : Int, ⟨.bind fd address, i⟩ ∈ l ∧ i ≠ -1) ∧ ∃ i : Int, ⟨.listen fd, i⟩ ∈ l ∧ i ≠ -1

/-- What must have come before a call of the main thread. -/
def Launches (cli : SpeyCLI) (l : Calls) : Sys → Prop
  | .createServer fd => cli.i = false ∧ Prepared cli l ∧ Listens fd l
  | .createThread fd _ => cli.i = true ∧ fd = 0 ∧ Prepared cli l
  | _ => True

section
variable {l l' : Calls}

theorem Loads.later {key : String} {value : Bytes} (hs : l <:+ l') (hl : Loads l key value) :
    Loads l' key value := by
  cases hl with
  | read hread => exact .read (hs.subset hread)
  | failed hfailed => exact .failed (hs.subset hfailed)

theorem Unprivileged.later (hs : l <:+ l') (hl : Unprivileged l) : Unprivileged l' := by
  cases hl with
  | user huid hne => exact .user (hs.subset huid) hne
  | root hloads => exact .root (hloads.later hs)
  | dropped hloads hname hpwd hgrp hset =>
    exact .dropped (hloads.later hs) hname (hs.subset hpwd) (hs.subset hgrp) (hset.trans hs)

end

/-! ## The main thread -/

/-- The main thread creates a thread where everything was checked. -/
def launching (cli : SpeyCLI) : Contract Sys.Ans Calls where
  permits := Launches cli
  promises _ _ := True
  after l e := e :: l

/-- The same for its tasks. -/
def launchingTasks (cli : SpeyCLI) : Contract Task.Ans Calls where
  permits l e := ∃ c, e = .sys c ∧ Launches cli l c
  promises _ _ := True
  after
    | l, ⟨.sys c, x⟩ => ⟨c, x⟩ :: l
    | l, _ => l

section
variable {cli : SpeyCLI} {l : Calls} {α β : Type}

/-- A part of the main thread that creates no thread: what it has called before is still there, and
`Q` says what else. -/
def Checks (cli : SpeyCLI) (x : MainProc α) (l : Calls) (Q : α → Calls → Prop) : Prop :=
  x.obeys (launchingTasks cli) (fun r _ l' => l <:+ l' ∧ ∀ a, r = .ok a → Q a l') () l

/-- How the main thread goes on. -/
def Goes (cli : SpeyCLI) (x : MainProc α) (l : Calls) : Prop :=
  x.obeys (launchingTasks cli) (fun _ _ _ => True) () l

theorem Checks.then {x : MainProc α} {f : α → MainProc β} {Q : α → Calls → Prop} (hx : Checks cli x l Q)
    (hf : ∀ a l', l <:+ l' → Q a l' → Goes cli (f a) l') : Goes cli (x >>= f) l := by
  rw [Goes, obeys_bind]
  refine obeys_mono hx fun r _ l' hr => ?_
  cases r with
  | ok a => exact hf a l' hr.1 (hr.2 a rfl)
  | error e => trivial

theorem Checks.bind {x : MainProc α} {f : α → MainProc β} {Q : α → Calls → Prop} {R : β → Calls → Prop}
    (hx : Checks cli x l Q) (hf : ∀ a l', l <:+ l' → Q a l' → Checks cli (f a) l' R) :
    Checks cli (x >>= f) l R := by
  rw [Checks, obeys_bind]
  refine obeys_mono hx fun r _ l' hr => ?_
  cases r with
  | ok a =>
    exact obeys_mono (hf a l' hr.1 (hr.2 a rfl)) fun r' _ l'' hr' => ⟨hr.1.trans hr'.1, hr'.2⟩
  | error e => exact ⟨hr.1, nofun⟩

theorem checks_pure {a : α} {Q : α → Calls → Prop} (hQ : Q a l) : Checks cli (pure a : MainProc α) l Q :=
  ⟨List.suffix_refl l, fun _ ha => Except.ok.inj ha ▸ hQ⟩

theorem checks_raise (e : MainExn) (Q : α → Calls → Prop) : Checks cli (raise e : MainProc α) l Q :=
  ⟨List.suffix_refl l, nofun⟩

theorem Checks.ite {q : Prop} [Decidable q] {x y : MainProc α} {Q : α → Calls → Prop}
    (hx : q → Checks cli x l Q) (hy : ¬ q → Checks cli y l Q) : Checks cli (if q then x else y) l Q := by
  split
  · exact hx ‹_›
  · exact hy ‹_›

theorem checks_ask {c : Sys} (hc : ∀ l, Launches cli l c) :
    Checks cli (ask c) l (fun x l' => l' = ⟨c, x⟩ :: l) :=
  ⟨⟨c, rfl, hc l⟩, fun x _ => ⟨List.suffix_cons _ l, fun _ ha => by cases ha; rfl⟩⟩

end

theorem checks_get {cli : SpeyCLI} (key : String) (l : Calls) :
    Checks cli (Settings.get key) l (fun value l' => Loads l' key value) := by
  refine (checks_ask (by exact fun _ => trivial)).bind fun x l₁ _ hl₁ => checks_pure ?_
  have hx : ⟨.setting (text key), x⟩ ∈ l₁ := hl₁ ▸ List.mem_cons_self
  cases x with
  | none => exact .failed hx
  | some value => exact .read hx

/-- Where a setting is used, it was read. -/
structure Configured (config : Configuration) (l : Calls) : Prop where
  runtimeuserid : Loads l "runtime-user-id" config.runtimeuserid
  tlsprivatekeyfile : Loads l "tls-private-key-file" config.tlsprivatekeyfile
  externaltls : ∃ value, Loads l "external-tls" value ∧ config.externaltls = decide (atoi value ≠ 0)

theorem Configured.later {config : Configuration} {l l' : Calls} (hs : l <:+ l') (hl : Configured config l) :
    Configured config l' where
  runtimeuserid := hl.runtimeuserid.later hs
  tlsprivatekeyfile := hl.tlsprivatekeyfile.later hs
  externaltls := hl.externaltls.imp fun _ => And.imp_left (Loads.later hs)

theorem checks_reload {cli : SpeyCLI} (l : Calls) : Checks cli Settings.reload l Configured := by
  unfold Settings.reload
  iterate 5 refine (checks_get _ _).bind fun _ _ _ _ => ?_
  refine (checks_get _ _).bind fun userid l₁ _ huserid => (checks_get _ _).bind fun _ l₂ h₂ _ => ?_
  refine (checks_get _ _).bind fun key l₃ h₃ hkey => (checks_get _ _).bind fun tls l₄ h₄ htls => ?_
  refine (checks_get _ _).bind fun _ l₅ h₅ _ => (checks_get _ _).bind fun _ l₆ h₆ _ => checks_pure ?_
  have hlater : l₄ <:+ l₆ := h₅.trans h₆
  exact {
    runtimeuserid := huserid.later (((h₂.trans h₃).trans h₄).trans hlater)
    tlsprivatekeyfile := hkey.later (h₄.trans hlater)
    externaltls := ⟨tls, htls.later hlater, rfl⟩ }

theorem checks_drop_root_privileges {cli : SpeyCLI} {usergroupid : Bytes} {l : Calls}
    (hloads : Loads l "runtime-user-id" usergroupid) :
    Checks cli (drop_root_privileges usergroupid) l (fun _ l' => Unprivileged l') := by
  refine (checks_ask (by exact fun _ => trivial)).bind fun uid l₁ h₁ hl₁ => ?_
  refine .ite (fun hne => ?_) fun _ => .ite (fun hempty => ?_) fun _ => .ite (fun _ => checks_raise _ _) fun hcolon => ?_
  · exact checks_pure (.user (hl₁ ▸ List.mem_cons_self) hne)
  · exact checks_pure (.root (hempty ▸ hloads.later h₁))
  · obtain ⟨username, groupname, rfl, hname⟩ := List.eq_append_cons_of_mem (not_not.mp hcolon)
    obtain ⟨htake, hdrop⟩ := split_first (t := groupname) hname
    rw [htake, hdrop, List.drop_one, List.tail_cons]
    refine (checks_ask (by exact fun _ => trivial)).bind fun pwd l₂ h₂ hl₂ => ?_
    refine (checks_ask (by exact fun _ => trivial)).bind fun grp l₃ h₃ hl₃ => ?_
    cases pwd with
    | none => exact checks_raise _ _
    | some userid =>
      cases grp with
      | none => exact checks_raise _ _
      | some groupid =>
        refine (checks_ask (by exact fun _ => trivial)).bind fun i l₄ h₄ hl₄ => ?_
        refine (checks_ask (by exact fun _ => trivial)).bind fun j l₅ h₅ hl₅ => ?_
        refine (checks_ask (by exact fun _ => trivial)).bind fun k l₆ h₆ hl₆ => .ite (fun _ => checks_raise _ _) fun hzero => ?_
        obtain ⟨hi, hjk⟩ := not_or.mp hzero
        obtain ⟨hj, hk⟩ := not_or.mp hjk
        obtain rfl : i = 0 := not_not.mp hi
        obtain rfl : j = 0 := not_not.mp hj
        obtain rfl : k = 0 := not_not.mp hk
        have hlater : l₃ <:+ l₆ := (h₄.trans h₅).trans h₆
        have hpwd : ⟨.getpwnam (cstr username), some userid⟩ ∈ l₆ :=
          hlater.subset (h₃.subset (hl₂ ▸ List.mem_cons_self))
        have hgrp : ⟨.getgrnam (cstr groupname), some groupid⟩ ∈ l₆ :=
          hlater.subset (hl₃ ▸ List.mem_cons_self)
        subst hl₄ hl₅ hl₆
        have hloaded := hloads.later (((h₁.trans h₂).trans h₃).trans hlater)
        exact checks_pure (.dropped hloaded hname hpwd hgrp (List.suffix_refl _))

theorem checks_check_private_key {cli : SpeyCLI} {config : Configuration} {l : Calls}
    (hconfig : Configured config l) : Checks cli (check_private_key config) l (fun _ l' => KeyChecked l') := by
  refine .ite (fun hnotls => checks_pure ?_) fun _ => .ite (fun hnokey => checks_pure ?_) fun _ => ?_
  · obtain ⟨value, hloads, hvalue⟩ := hconfig.externaltls
    rw [hvalue, decide_eq_true_eq, not_not] at hnotls
    exact .notls hloads hnotls
  · exact .nokey (hnokey ▸ hconfig.tlsprivatekeyfile)
  · refine (checks_ask (by exact fun _ => trivial)).bind fun i l₁ h₁ hl₁ => .ite (fun _ => checks_raise _ _) fun hne => ?_
    exact checks_pure (.readable (hconfig.tlsprivatekeyfile.later h₁) (hl₁ ▸ List.mem_cons_self) hne)

theorem checks_init {cli : SpeyCLI} (address : SocketAddress) (l : Calls) :
    Checks cli (SocketServer.init address) l Listens := by
  refine (checks_ask (by exact fun _ => trivial)).bind fun fd _ _ _ => .ite (fun _ => checks_raise _ _) fun _ => ?_
  refine (checks_ask (by exact fun _ => trivial)).bind fun _ l₁ _ _ => ?_
  have habandon : ∀ fd e l, Checks cli (SocketServer.abandon fd e) l Listens := fun fd e l =>
    (checks_ask (by exact fun _ => trivial)).bind fun _ _ _ _ => checks_raise e _
  refine (checks_ask (by exact fun _ => trivial)).bind fun i l₂ _ hl₂ => .ite (fun _ => habandon fd _ l₂) fun hi => ?_
  refine (checks_ask (by exact fun _ => trivial)).bind fun j l₃ h₃ hl₃ => .ite (fun _ => habandon fd _ l₃) fun hj => ?_
  have hbound : ⟨.bind fd address, i⟩ ∈ l₃ := h₃.subset (hl₂ ▸ List.mem_cons_self)
  exact checks_pure ⟨⟨address, i, hbound, hi⟩, j, hl₃ ▸ List.mem_cons_self, hj⟩

theorem checks_announce {cli : SpeyCLI} (FromAddress : SocketAddress) (l : Calls) :
    Checks cli (announce FromAddress) l (fun _ _ => True) := by
  refine .ite (fun _ => ?_) fun _ => checks_pure trivial
  exact (checks_ask (by exact fun _ => trivial)).bind fun _ _ _ _ => checks_pure trivial

theorem checks_initialise {cli : SpeyCLI} (l : Calls) :
    Checks cli (initialise cli) l (fun _ l' => ⟨.open cli.d, true⟩ ∈ l') := by
  have hsetname : ∀ a name l, Checks cli (SocketAddress.setname a name) l (fun _ _ => True) := fun a name l => by
    refine (checks_ask (by exact fun _ => trivial)).bind fun address _ _ _ => ?_
    cases address with
    | none => exact checks_raise _ _
    | some address => exact checks_pure trivial
  have hset : ∀ a name l, Checks cli (SocketAddress.set a name) l (fun _ _ => True) := fun a name l => by
    unfold SocketAddress.set
    refine .ite (fun _ => ?_) fun _ => hsetname a name l
    exact Checks.bind (.ite (fun _ => checks_pure trivial) fun _ => hsetname a _ l) fun _ _ _ _ => checks_pure trivial
  refine (checks_ask (by exact fun _ => trivial)).bind fun _ l₁ _ _ => ?_
  refine (checks_ask (by exact fun _ => trivial)).bind fun opened l₂ h₂ hl₂ => .ite (fun htrue => ?_) fun _ => checks_raise _ _
  have hopened : ⟨.open cli.d, true⟩ ∈ l₂ := htrue ▸ hl₂ ▸ List.mem_cons_self
  refine (hset _ _ l₂).bind fun _ l₃ h₃ _ => (hset _ _ l₃).bind fun _ l₄ h₄ _ => checks_pure ?_
  exact (h₃.trans h₄).subset hopened

/-- The last steps of the main thread. -/
theorem goes_start {cli : SpeyCLI} {config : Configuration} {create : MainProc Int} {l : Calls}
    (hopened : ⟨.open cli.d, true⟩ ∈ l) (hconfig : Configured config l)
    (hcreate : ∀ l', l <:+ l' → Prepared cli l' → Goes cli create l') : Goes cli (do
      drop_root_privileges config.runtimeuserid
      check_private_key config
      start create
      halt) l := by
  refine (checks_drop_root_privileges hconfig.runtimeuserid).then fun _ l₁ h₁ hunprivileged => ?_
  refine (checks_check_private_key (hconfig.later h₁)).then fun _ l₂ h₂ hkey => ?_
  have hprepared : Prepared cli l₂ := ⟨(h₁.trans h₂).subset hopened, hunprivileged.later h₂, hkey⟩
  rw [start, Action.bind_assoc]
  refine obeys_andThen (R := fun _ _ => True) (hcreate l₂ (h₁.trans h₂) hprepared) (fun _ _ _ _ => trivial) fun e _ l₃ _ => ?_
  rw [Action.ite_bind, obeys_ite]
  split
  · trivial
  · exact ⟨⟨_, rfl, trivial⟩, fun _ _ => ⟨⟨_, rfl, trivial⟩, nofun⟩⟩

theorem main_launchesTasks (cli : SpeyCLI) :
    (mainThread cli).Obeys (launchingTasks cli) (fun _ _ => True) [] := by
  have hdaemon : ∀ l, cli.i = false → Goes cli (daemonmode cli) l := fun l hi => by
    have hdaemonise : Checks cli (daemonise cli) l (fun _ _ => True) := by
      refine .ite (fun _ => checks_pure trivial) fun _ => (checks_ask (by exact fun _ => trivial)).bind fun _ _ _ _ => ?_
      exact .ite (fun _ => checks_raise _ _) fun _ => checks_pure trivial
    refine hdaemonise.then fun _ l₁ _ _ => (checks_initialise l₁).then fun a l₂ _ hopened => ?_
    refine (checks_reload l₂).then fun config l₃ h₃ hconfig => (checks_announce a.1 l₃).then fun _ l₃' h₃' _ => ?_
    refine (checks_init a.1 l₃').then fun fd l₄ h₄ hlistens => ?_
    refine goes_start (((h₃.trans h₃').trans h₄).subset hopened) (hconfig.later (h₃'.trans h₄)) fun l' h' hprepared => ?_
    obtain ⟨⟨address, i, hbind, hi'⟩, j, hlisten, hj⟩ := hlistens
    exact ⟨⟨_, rfl, hi, hprepared, ⟨address, i, h'.subset hbind, hi'⟩, j, h'.subset hlisten, hj⟩, fun _ _ => trivial⟩
  have hinetd : ∀ l, cli.i = true → Goes cli (inetdmode cli) l := fun l hi => by
    refine (checks_initialise l).then fun _ l₁ _ hopened => ?_
    rw [Goes, obeys_handle]
    refine obeys_mono ((checks_reload l₁).then fun config l₂ h₂ hconfig => ?_) fun r _ _ _ => ?_
    · exact goes_start (h₂.subset hopened) hconfig fun l' _ hprepared =>
        ⟨⟨_, rfl, hi, rfl, hprepared⟩, fun _ _ => trivial⟩
    · rcases r with (_ | _ | _ | _) | _ <;> trivial
  rw [mainThread, Program.obeys_bind]
  refine Program.Obeys.mono (Q := fun _ _ => True) ?_ fun _ _ _ => trivial
  rw [main_spey]
  split
  · exact hinetd _ ‹_›
  · exact hdaemon _ (eq_false_of_ne_true ‹_›)

theorem main_launches (cli : SpeyCLI) (host : Host) (rounds : Nat) :
    ((mainThread cli).implement (perform rounds) { host }).Obeys (launching cli) (fun _ _ => True) [] := by
  have hcalls : ((mainThread cli).implement (perform rounds)).obeys (launching cli) (fun _ _ _ => True) { host } [] := by
    refine Program.obeys_implement (I := fun _ l u => l = u) (fun e m l u hl hpermits => ?_) (fun _ _ _ _ _ _ => trivial)
      rfl (main_launchesTasks cli)
    subst hl
    obtain ⟨c, rfl, hc⟩ := hpermits
    exact ⟨hc, fun _ _ => ⟨trivial, rfl⟩⟩
  exact hcalls

/-! ## Every run -/

section
variable {LIKE : Bytes → Bytes → Bool} {hosts : Host → Prop} {rounds : Nat} {cli : SpeyCLI} {host : Host}
  {k₀ k : Kernel} {threads : List Running} {h : History (Shared Nat Sys.Ans)}

/-- The main thread has created a thread where it had checked everything. -/
def Started (cli : SpeyCLI) (l : Calls) : Prop :=
  ∃ later c, ∃ x : Sys.Ans c, ∃ earlier, l = later ++ ⟨c, x⟩ :: earlier ∧ (Sys.spawn ⟨c, x⟩).isSome ∧
    Launches cli earlier c

theorem Started.cons {l : Calls} (hl : Started cli l) (e : Event Sys.Ans) : Started cli (e :: l) := by
  obtain ⟨later, c, x, earlier, rfl, hspawn, hlaunches⟩ := hl
  exact ⟨e :: later, c, x, earlier, rfl, hspawn, hlaunches⟩

theorem spawn_of_spawns {e : Event Sys.Ans} {new : List Running} (hnew : Spawns hosts rounds e new)
    (hne : new ≠ []) : (Sys.spawn e).isSome := by
  rw [Spawns] at hnew
  split at hnew
  · exact absurd hnew hne
  · next spawn he =>
    rw [he]
    rfl

/-- What holds of the main thread, and of there being others. -/
structure Launched (cli : SpeyCLI) (threads : List Running) (h : History (Shared Nat Sys.Ans)) : Prop where
  main : ∀ p, threads[0]? = some p → p.Obeys (launching cli) (fun _ _ => True) (own 0 h)
  nonempty : 0 < threads.length
  started : 1 < threads.length → Started cli (own 0 h)

theorem launched_runs (hcrew : Runs LIKE hosts rounds cli host k₀ threads k h) : Launched cli threads h := by
  refine hcrew.invariant (I := fun threads _ h => Launched cli threads h) ⟨fun p hp => ?_, by exact Nat.one_pos, ?_⟩ ?_
  · obtain rfl := Option.some.inj hp
    exact main_launches cli host rounds
  · exact fun h => absurd h (Nat.lt_irrefl 1)
  · intro threads new k k' h t c next x _ hI ht _ hnew
    obtain ⟨hlt, -⟩ := List.getElem?_eq_some_iff.mp ht
    have hlength : (threads.set t (next x) ++ new).length = threads.length + new.length := by
      rw [List.length_append, List.length_set]
    refine ⟨fun p hp => ?_, ?_, fun hmore => ?_⟩
    · rw [getElem?_step ht] at hp
      by_cases h0 : t = 0
      · subst h0
        rw [if_pos rfl] at hp
        obtain rfl := Option.some.inj hp
        rw [own_cons_self]
        exact (hI.main _ ht).2 x trivial
      · rw [if_neg (Ne.symm h0), if_pos hI.nonempty] at hp
        rw [own_cons_ne h0]
        exact hI.main p hp
    · omega
    · by_cases hbefore : 1 < threads.length
      · have hstarted := hI.started hbefore
        by_cases h0 : t = 0
        · subst h0
          rw [own_cons_self]
          exact hstarted.cons _
        · rw [own_cons_ne h0]
          exact hstarted
      · -- the first thread that is created is created by the main thread
        have hne : new ≠ [] := by
          rintro rfl
          rw [hlength] at hmore
          exact hbefore hmore
        obtain rfl : t = 0 := by omega
        rw [own_cons_self]
        exact ⟨[], c, x, _, rfl, spawn_of_spawns hnew hne, (hI.main _ ht).1⟩

/-- Where there is a second thread, the main thread has created one, and everything was
checked before that. -/
theorem started_prepared (hcrew : Runs LIKE hosts rounds cli host k₀ threads k h) (hsecond : 1 < threads.length) :
    ∃ later c, ∃ x : Sys.Ans c, ∃ earlier, own 0 h = later ++ ⟨c, x⟩ :: earlier ∧
      (Sys.spawn ⟨c, x⟩).isSome ∧ Prepared cli earlier ∧
      ((cli.i = false ∧ ∃ fd, c = .createServer fd ∧ Listens fd earlier) ∨
        (cli.i = true ∧ ∃ address, c = .createThread 0 address)) := by
  obtain ⟨later, c, x, earlier, hown, hspawn, hlaunches⟩ := (launched_runs hcrew).started hsecond
  refine ⟨later, c, x, earlier, hown, hspawn, ?_⟩
  cases c with
  | createServer fd =>
    obtain ⟨hi, hprepared, hlistens⟩ := hlaunches
    exact ⟨hprepared, .inl ⟨hi, fd, rfl, hlistens⟩⟩
  | createThread fd address =>
    obtain ⟨hi, rfl, hprepared⟩ := hlaunches
    exact ⟨hprepared, .inr ⟨hi, address, rfl⟩⟩
  | _ => cases hspawn

/-- The daemon is started by root; the server has bound its socket, and is given up to the user. -/
theorem started_prepared_dropped : ∃ m, Delivery.play 81 = some m ∧
    Sys.setuid 8 ∈ (own 0 m.past).map Sigma.fst ∧
    ∃ later c, ∃ x : Sys.Ans c, ∃ earlier, own 0 m.past = later ++ ⟨c, x⟩ :: earlier ∧
      (Sys.spawn ⟨c, x⟩).isSome ∧ Prepared Delivery.cli earlier ∧ ∃ fd, c = .createServer fd ∧ Listens fd earlier := by
  obtain ⟨m, hplay, hsecond, hsetuid⟩ := Scene.seen (Delivery.play 81) (fun m =>
    1 < m.threads.length ∧ Sys.setuid 8 ∈ (own 0 m.past).map Sigma.fst) (by decide +kernel)
  obtain ⟨later, c, x, earlier, hown, hspawn, hprepared, hmode⟩ :=
    started_prepared (Scene.play_steady hplay).1.run hsecond
  obtain ⟨-, hserver⟩ := hmode.resolve_right fun hinetd => absurd hinetd.1 Delivery.not_inetd
  exact ⟨m, hplay, hsetuid, later, c, x, earlier, hown, hspawn, hprepared, hserver⟩

end

end Spey.Daemon
