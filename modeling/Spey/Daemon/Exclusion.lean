import Spey.Daemon.Lock
import Spey.Daemon.Scene

/-!
# One thread at a time

In every run of the program, however its threads take turns, what needs the CPU
lock is done by the one thread that holds it, and the threads do not wait for each
other in vain. What is awaited is awaited without the lock, but for the calls that
linger.
-/

namespace Spey.Daemon

open Interaction Interaction.Action Mutex

/-- The code of a thread that runs with the lock. -/
def Inside (x : ThreadProc Unit) : Prop :=
  Keeps discipline (fun _ p => p = true) (fun _ _ p => p = true) x

/-- A program whose calls are all made with the lock. -/
theorem inside_embed {E α : Type} {A : E → Type} {into : E → Task} {back : (e : E) → Task.Ans (into e) → A e}
    (hrole : ∀ e, discipline.permits true (into e) ∧ (Task.role (into e)).leads true = true)
    (p : Program E A α) (result : Unit → α → Except Escape Unit × Unit) :
    Inside fun u => p.embed into back (result u) := by
  intro u held hheld
  refine Program.obeys_embed (I := fun s _ => s = true) (fun e s u hs _ => ?_) (fun a s _ hs _ => ?_) hheld p.obeys_any
  · subst hs
    exact ⟨(hrole e).1, fun x _ => ⟨trivial, (hrole e).2⟩⟩
  · cases (result u a).1 with
    | ok _ => exact hs
    | error _ => exact hs

theorem inside_trampoline {run delete : ThreadProc Unit} (hrun : Inside run) (hdelete : Inside delete) :
    (Threadlet.trampoline run delete).program.Obeys discipline (fun r p => r = .returned → p = false)
      false := by
  refine trampoline_obeys ⟨trivial, rfl⟩ (fun _ _ => rfl) ⟨rfl, rfl⟩ (obeys_mono (hrun () _ rfl) fun r _ p hr => ?_)
  rcases r with (_ | _) | _
  · exact ⟨hr, rfl⟩
  · trivial
  · refine obeys_andThen (hdelete.always hr) (fun _ _ _ _ => nofun) fun _ _ p hp => ?_
    exact ⟨⟨hp, rfl⟩, fun _ _ _ => rfl⟩

theorem messageThread_obeys (ctx : Context) (rounds : Nat) :
    (messageThread ctx rounds).Obeys discipline (fun r p => r = .returned → p = false) false := by
  have hlookup : Inside (do let _ ← task (.sys (.gethostbyaddr ctx.address))) :=
    Keeps.bind (keeps_call fun _ _ hp => ⟨⟨hp, rfl⟩, fun _ _ => hp⟩) fun _ => keeps_pure ()
  have hlog : Inside (MessageProcessor.log ctx) := .ite (fun _ => hlookup) fun _ => keeps_pure ()
  have hprocess : Inside (MessageProcessor.process ctx rounds) := by
    refine inside_embed (fun c => ?_) _ _
    exact ⟨⟨rfl, rfl⟩, rfl⟩
  exact inside_trampoline (hlog.bind fun _ => hprocess) (keeps_call fun _ _ hp => ⟨⟨hp, rfl⟩, fun _ _ => hp⟩)

theorem serverThread_obeys (server : Server) (rounds : Nat) :
    (serverThread server rounds).Obeys discipline (fun r p => r = .returned → p = false) false := by
  have hrun : Inside (ServerProcessor.run server rounds) := by
    refine inside_embed (fun c => ?_) _ _
    cases c with
    | setspecific => exact ⟨⟨trivial, rfl⟩, rfl⟩
    | _ => exact ⟨⟨rfl, rfl⟩, rfl⟩
  exact inside_trampoline hrun (keeps_pure ())

/-! ## The main thread -/

/-- A part of the main thread, with the lock before and after or without it. -/
def MainAt (held : Bool) {α : Type} (x : MainProc α) : Prop :=
  Keeps discipline (fun _ p => p = held) (fun _ _ _ => True) x

section
variable {held : Bool} {α β : Type}

theorem mainAt_pure (a : α) : MainAt held (pure a : MainProc α) := keeps_pure a

theorem mainAt_raise (e : MainExn) : MainAt held (raise e : MainProc α) := keeps_raise fun _ _ _ => trivial

theorem MainAt.bind {x : MainProc α} {f : α → MainProc β} (hx : MainAt held x)
    (hf : ∀ a, MainAt held (f a)) : MainAt held (x >>= f) := Keeps.bind hx hf

theorem MainAt.ite {q : Prop} [Decidable q] {x y : MainProc α} (hx : MainAt held x)
    (hy : MainAt held y) : MainAt held (if q then x else y) := Keeps.ite (fun _ => hx) fun _ => hy

/-- What the main thread looks up is looked up with the lock. -/
theorem mainAt_prepares {x : MainProc α} (hx : Prepares x) : MainAt true x := by
  refine Keeps.mono (hx.keeps (I := fun p => p = true) fun c p hc hp => ?_) fun _ _ _ _ => trivial
  subst hp
  cases c <;> first | exact ⟨⟨rfl, rfl⟩, fun _ _ => rfl⟩ | exact ⟨⟨trivial, rfl⟩, fun _ _ => rfl⟩ | cases hc

end

theorem mainAt_inside {c : Sys} (hrole : Sys.role c = .inside) (hregular : (Task.sys c).regular = true) :
    MainAt true (ask c) := by
  refine keeps_call fun _ p hp => ?_
  subst hp
  show ((Sys.role c).allows true ∧ (Task.sys c).regular = true) ∧ ∀ _, True → (Sys.role c).leads true = true
  rw [hrole]
  exact ⟨⟨rfl, hregular⟩, fun _ _ => rfl⟩

theorem mainAt_start {create : MainProc Int} (hcreate : MainAt true create) : MainAt true (start create) :=
  hcreate.bind fun _ => .ite (mainAt_raise _) (mainAt_pure ())

theorem mainAt_init (address : SocketAddress) : MainAt true (SocketServer.init address) := by
  have habandon : ∀ fd e, MainAt true (SocketServer.abandon fd e) := fun fd e =>
    (mainAt_inside rfl rfl).bind fun _ => mainAt_raise e
  refine (mainAt_inside rfl rfl).bind fun fd => .ite (mainAt_raise _) ((mainAt_inside rfl rfl).bind fun _ => ?_)
  refine (mainAt_inside rfl rfl).bind fun _ => .ite (habandon fd _) ((mainAt_inside rfl rfl).bind fun _ => ?_)
  exact .ite (habandon fd _) (mainAt_pure _)

/-- The main thread keeps the discipline, however it comes to its end. -/
def Disciplined {α : Type} (held : Bool) (x : MainProc α) : Prop :=
  ∀ u, x.obeys discipline (fun _ _ _ => True) u held

theorem MainAt.andThen {held : Bool} {α β : Type} {x : MainProc α} {f : α → MainProc β}
    (hx : MainAt held x) (hf : ∀ a, Disciplined held (f a)) : Disciplined held (x >>= f) := by
  intro u
  rw [obeys_bind]
  refine obeys_mono (hx u held rfl) fun r u' p hr => ?_
  cases r with
  | ok a =>
    dsimp only at hr ⊢
    subst hr
    exact hf a u'
  | error e => trivial

/-- The main thread gives up the lock and sleeps. -/
theorem disciplined_halt : Disciplined true halt := fun _ => ⟨⟨rfl, rfl⟩, fun _ _ => ⟨⟨rfl, rfl⟩, nofun⟩⟩

theorem disciplined_initialise {α : Type} {cli : SpeyCLI} {f : SocketAddress × SocketAddress → MainProc α}
    (hf : ∀ a, Disciplined true (f a)) : Disciplined false (initialise cli >>= f) := by
  have hrest : Disciplined true (addresses cli >>= f) := (mainAt_prepares (prepares_addresses cli)).andThen hf
  exact fun u => ⟨⟨rfl, rfl⟩, fun _ _ => hrest u⟩

theorem main_obeys (cli : SpeyCLI) :
    (mainThread cli).Obeys discipline (fun r p => r = .returned → p = false) false := by
  have hdrop : ∀ config : Configuration, ∀ {create : MainProc Int}, MainAt true create → Disciplined true (do
      drop_root_privileges config.runtimeuserid
      check_private_key config
      start create
      halt) := fun config create hcreate =>
    (mainAt_prepares (prepares_drop_root_privileges _)).andThen fun _ =>
      (mainAt_prepares (prepares_check_private_key config)).andThen fun _ =>
        (mainAt_start hcreate).andThen fun _ => disciplined_halt
  have hdaemon : Disciplined false (daemonmode cli) := by
    have hdaemonise : MainAt false (daemonise cli) := by
      refine .ite (mainAt_pure ()) (MainAt.bind ?_ fun _ => .ite (mainAt_raise _) (mainAt_pure ()))
      exact keeps_call fun _ p hp => by subst hp; exact ⟨⟨rfl, rfl⟩, fun _ _ => rfl⟩
    refine hdaemonise.andThen fun _ => disciplined_initialise fun a => (mainAt_prepares prepares_reload).andThen fun config => ?_
    exact (mainAt_prepares (prepares_announce a.1)).andThen fun _ => (mainAt_init a.1).andThen fun fd => hdrop config (mainAt_inside rfl rfl)
  have hinetd : Disciplined false (inetdmode cli) := by
    refine disciplined_initialise fun _ u => ?_
    rw [obeys_handle]
    refine obeys_mono (((mainAt_prepares prepares_reload).andThen fun config => hdrop config (mainAt_inside rfl rfl)) u) fun r u p _ => ?_
    rcases r with (_ | _ | _ | _) | _ <;> trivial
  have hmain : Disciplined false (main_spey cli) := by
    rw [main_spey]
    split
    · exact hinetd
    · exact hdaemon
  rw [mainThread, Program.obeys_bind]
  exact Program.Obeys.mono (hmain ()) fun _ _ _ => nofun

/-! ## Every run -/

section
variable {LIKE : Bytes → Bytes → Bool} {hosts : Host → Prop} {rounds : Nat} {cli : SpeyCLI} {host : Host}
  {k₀ k : Kernel} {threads : List Running} {h : History (Shared Nat Sys.Ans)}

theorem spawns_obey {e : Event Sys.Ans} {new : List Running} (hnew : Spawns hosts rounds e new) :
    ∀ p ∈ new, p.Obeys (lock Sys.role) Ends false := by
  intro p hp
  rw [Spawns] at hnew
  split at hnew
  · subst hnew
    cases hp
  · obtain ⟨thread, m, hstarts, rfl⟩ := hnew
    obtain rfl := List.mem_singleton.mp hp
    cases hstarts with
    | session _ _ => exact obeys_perform _ (messageThread_obeys _ rounds)
    | server _ _ => exact obeys_perform _ (serverThread_obeys _ rounds)

/-- What holds of the lock and the threads in every run. -/
theorem exclusive_runs (hfree : k₀.locked = false)
    (hcrew : Runs LIKE hosts rounds cli host k₀ threads k h) :
    Exclusive Sys.role Kernel.locked Ends threads k h := by
  refine exclusive (grants LIKE) (fun p hp => ?_) (fun e new => spawns_obey) hfree hcrew
  obtain rfl := List.mem_singleton.mp hp
  exact obeys_perform _ (main_obeys cli)

end

/-! ## What is awaited -/

/-- What a call may be kept waiting by is awaited without the lock, unless the call lingers. -/
theorem Sys.awaits_role {c : Sys} (hawaits : c.awaits.isSome = true) (hlingers : c.lingers = false) :
    Sys.role c = .outside ∨ Sys.role c = .take := by
  cases c <;> first | exact .inl rfl | exact .inr rfl | (cases hlingers; done) | cases hawaits

section
variable {LIKE : Bytes → Bytes → Bool} {found : Bytes → Bytes} {rounds : Nat} {cli : SpeyCLI} {host : Host}
  {k₀ k : Kernel} {threads : List Running} {h : History (Shared Nat Sys.Ans)}

/-- At most one thread holds the lock; what needs it is done by the thread that
holds it, and a thread that waits for anything does not, unless its call lingers. -/
theorem cpulock_exclusion (hfree : k₀.locked = false)
    (hsteady : Steady LIKE found rounds cli host k₀ threads k h) :
    (∀ t t', Mutex.Holds Sys.role t h → Mutex.Holds Sys.role t' h → t = t') ∧
      (k.locked = true ↔ ∃ t, Mutex.Holds Sys.role t h) ∧
      ∀ (t : Nat) (c : Sys) (next : Sys.Ans c → Running), threads[t]? = some (.call c next) →
        (Sys.role c = .inside → Mutex.Holds Sys.role t h ∧ ∀ t', Mutex.Holds Sys.role t' h → t' = t) ∧
          (Sys.role c = .release → Mutex.Holds Sys.role t h) ∧
          (c.awaits.isSome = true → c.lingers = false → ¬ Mutex.Holds Sys.role t h) := by
  have hexclusive := exclusive_runs hfree hsteady.run
  refine ⟨hexclusive.sole, hexclusive.locked, fun t c next ht => ?_⟩
  refine ⟨fun hrole => hexclusive.inside ht hrole, fun hrole => ?_, fun hawaits hlingers hholds => ?_⟩
  · have hpermits : (Sys.role c).allows (holding Sys.role (own t h)) := (hexclusive.obeys t _ ht).1
    rwa [hrole] at hpermits
  · obtain ⟨htake, houtside⟩ := hexclusive.pending ht hholds
    exact (Sys.awaits_role hawaits hlingers).elim houtside htake

/-- The first session, with the lock, is about to read from its client; the second one waits for the lock. -/
theorem cpulock_exclusion_waiting : ∃ m, Delivery.play 81 = some m ∧
    m.pending = [some .pause, some (.accept 3), some (.gnutls_record_check_pending 6), some .takeCPUlock] ∧
    Mutex.Holds Sys.role 2 m.past ∧ (∀ t, Mutex.Holds Sys.role t m.past → t = 2) ∧
    ∀ t ∈ [0, 1, 3], ¬ Mutex.Holds Sys.role t m.past := by
  obtain ⟨m, hplay, hpending⟩ := Scene.seen (Delivery.play 81) (fun m => m.pending =
    [some .pause, some (.accept 3), some (.gnutls_record_check_pending 6), some .takeCPUlock]) (by decide +kernel)
  obtain ⟨-, -, hcalls⟩ := cpulock_exclusion rfl (Scene.play_steady hplay).1
  obtain ⟨_, h₀⟩ := Moment.pending_call (m := m) (t := 0) (e := .pause) (by rw [hpending]; rfl)
  obtain ⟨_, h₁⟩ := Moment.pending_call (m := m) (t := 1) (e := .accept 3) (by rw [hpending]; rfl)
  obtain ⟨_, h₂⟩ := Moment.pending_call (m := m) (t := 2) (e := .gnutls_record_check_pending 6) (by rw [hpending]; rfl)
  obtain ⟨_, h₃⟩ := Moment.pending_call (m := m) (t := 3) (e := .takeCPUlock) (by rw [hpending]; rfl)
  obtain ⟨hholds, hsole⟩ := (hcalls 2 _ _ h₂).1 rfl
  refine ⟨m, hplay, hpending, hholds, hsole, fun t ht => ?_⟩
  simp only [List.mem_cons, List.not_mem_nil, or_false] at ht
  rcases ht with rfl | rfl | rfl
  · exact (hcalls 0 _ _ h₀).2.2 rfl rfl
  · exact (hcalls 1 _ _ h₁).2.2 rfl rfl
  · exact (hcalls 3 _ _ h₃).2.2 rfl rfl

/-- A thread at a call that waits for nothing or lingers, or one that goes no further because the
process or the observation has come to its end. -/
def Unblocked (p : Running) : Prop :=
  (∃ c next, p = .call c next ∧ (c.awaits = none ∨ c.lingers = true)) ∨
    ∃ r m, p = .done (r, m) ∧ (r = .ok .exited ∨ r = .ok .unfinished ∨ r = .error .unfinished)

/-- A thread that waits for the lock can take it now, or it is held by another thread that waits
neither for the lock nor for a thread; and a thread that has returned does not hold it. -/
theorem cpulock_progress (hfree : k₀.locked = false)
    (hsteady : Steady LIKE found rounds cli host k₀ threads k h) :
    (∀ (t : Nat) (next : Unit → Running), threads[t]? = some (.call .takeCPUlock next) →
      (∃ k', Serves LIKE .takeCPUlock k () k') ∨
        ∃ t' p, t' ≠ t ∧ threads[t']? = some p ∧ Mutex.Holds Sys.role t' h ∧ Unblocked p) ∧
      ∀ (t : Nat) (m : Members), threads[t]? = some (.done (.ok .returned, m)) → ¬ Mutex.Holds Sys.role t h := by
  have hexclusive := exclusive_runs hfree hsteady.run
  refine ⟨fun t next ht => ?_, fun t m ht hholds => ?_⟩
  · by_cases hlocked : k.locked = true
    · right
      obtain ⟨t', hholds⟩ := hexclusive.locked.mp hlocked
      have hlt := hexclusive.thread t' hholds
      have ht' : threads[t']? = some threads[t'] := List.getElem?_eq_getElem hlt
      refine ⟨t', threads[t'], fun heq => ?_, ht', hholds, ?_⟩
      · subst heq
        exact (hexclusive.pending ht hholds).1 rfl
      · have hobeys := hexclusive.obeys t' _ ht'
        rw [hholds] at hobeys
        cases hp : threads[t'] with
        | call c next =>
          rw [hp] at ht'
          obtain ⟨htake, houtside⟩ := hexclusive.pending ht' hholds
          refine .inl ⟨c, next, rfl, ?_⟩
          cases hawaits : c.awaits with
          | none => exact .inl rfl
          | some awaited =>
            right
            by_contra hlingers
            exact (Sys.awaits_role (by rw [hawaits]; rfl) (eq_false_of_ne_true hlingers)).elim houtside htake
        | done r =>
          rw [hp] at hobeys
          obtain ⟨hreturned, hraised⟩ : Ends r true := hobeys
          obtain ⟨r, m⟩ := r
          refine .inr ⟨r, m, rfl, ?_⟩
          cases r with
          | error e => exact .inr (.inr (by rw [hraised e rfl]))
          | ok e =>
            cases e with
            | returned => exact absurd (hreturned rfl) nofun
            | exited => exact .inl rfl
            | unfinished => exact .inr (.inl rfl)
    · left
      exact ⟨_, serves_take LIKE (eq_false_of_ne_true hlocked)⟩
  · have hends : Ends (.ok .returned, m) (holding Sys.role (own t h)) := hexclusive.obeys t _ ht
    rw [hholds] at hends
    exact absurd (hends.1 rfl) nofun

/-- The second session waits for the first one, which waits for nothing. -/
theorem cpulock_progress_waiting : ∃ m, Delivery.play 81 = some m ∧ m.pending[3]? = some (some .takeCPUlock) ∧
    ∃ t p, t ≠ 3 ∧ m.threads[t]? = some p ∧ Mutex.Holds Sys.role t m.past ∧ Unblocked p := by
  obtain ⟨m, hplay, hpending, hlocked⟩ := Scene.seen (Delivery.play 81) (fun m =>
    m.pending[3]? = some (some .takeCPUlock) ∧ m.world.locked = true) (by decide +kernel)
  obtain ⟨next, ht⟩ := Moment.pending_call hpending
  refine ⟨m, hplay, hpending, ?_⟩
  rcases (cpulock_progress rfl (Scene.play_steady hplay).1).1 3 next ht with ⟨k', hserves⟩ | hblocked
  · exact absurd (hlocked.symm.trans hserves.lock.1) nofun
  · exact hblocked

end

end Spey.Daemon
