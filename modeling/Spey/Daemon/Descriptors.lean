import Spey.Daemon.Exclusion
import Spey.Daemon.Ownership
import Spey.Session.Lockstep

/-!
# Descriptors and handles

Every descriptor that the program works on belongs to one thread, from the call that
brings it to the call that closes it or hands it to a new thread. The inside socket
of a session is open while the session is in lockstep with the inside server.
-/

namespace Spey.Daemon

open Interaction Interaction.Action

/-! ## The calls of a session -/

/-- The inside socket is open while the session is in lockstep with the inside server. -/
def Meets (p : Phase) (fd : Int) : Prop :=
  match p with
  | .closed => fd = -1
  | .failed => True
  | _ => fd ≠ -1

section
variable {ctx : Context} {p q : Phase} {fd : Int}

theorem Meets.tell {site : ReplySite} {r : SMTPResponse} {written : Bool} (hp : Meets p fd)
    (hq : p.tell ctx site r written = some q) : Meets q fd := by
  unfold Phase.tell at hq
  cases hown : site.own with
  | true =>
    rw [if_pos hown] at hq
    cases p <;> cases hq <;> exact hp
  | false =>
    rw [if_neg (ne_true_of_eq_false hown)] at hq
    cases p with
    | answered item reply =>
      dsimp only at hq
      split_ifs at hq with hanswer hwritten
      · cases hq
        exact hp
      · cases hq
        trivial
    | _ => cases hq

/-- What happens between connecting and hanging up does not open or close the connection. -/
theorem Meets.step {c : Call} {x : Spey.Ans c} (hp : Meets p fd) (hconnect : c ≠ .connect)
    (hdeinit : c ≠ .deinit) (hq : p.step ctx ⟨c, x⟩ = some q) : Meets q fd := by
  cases c with
  | connect => exact absurd rfl hconnect
  | deinit => exact absurd rfl hdeinit
  | outReply site r => exact hp.tell hq
  | readReply =>
    rcases x with e | r
    · cases p <;> cases hq <;> trivial
    · cases p <;> cases hq <;> exact hp
  | inWriteline item =>
    obtain ⟨q', hsend, rfl⟩ := Option.map_eq_some_iff.mp hq
    have hq' : Meets q' fd := by
      unfold Phase.send at hsend
      split at hsend
      · split_ifs at hsend
        cases hsend
        exact hp
      · split_ifs at hsend
        cases hsend
        exact hp
      · split_ifs at hsend
        cases hsend
        exact hp
      · cases hsend
        split_ifs <;> exact hp
      · cases hsend
    cases x
    · trivial
    · exact hq'
  | _ =>
    cases hq
    exact hp

/-- What is read from the inside server, or written to it, finds the connection open. -/
theorem Meets.opened_read (ctx : Context) (hp : Meets p fd) (hq : (p.step ctx ⟨.readReply, .error .network⟩).isSome) :
    fd ≠ -1 := by
  cases p <;> first | exact hp | cases hq

theorem Meets.opened_write (ctx : Context) {item : Item} (hp : Meets p fd) (hq : (p.step ctx ⟨.inWriteline item, true⟩).isSome) :
    fd ≠ -1 := by
  cases p <;> cases item <;> first | exact hp | cases hq

end

section
variable {ctx : Context} {p : Phase} {m : Members} {s : Owned}

/-- Connecting opens the inside socket, if it succeeds. -/
theorem connect_obeys (rounds : Nat) (hs : Sockets m s.1) : (carry rounds .connect).obeys handling.own
    (fun r m' s' => ∀ connected, r = .ok connected → Sockets m' s'.1 ∧
      (connected = true → m'.inside._fd ≠ -1)) m s := by
  refine obeys_attempt ?_
  rw [obeys_bind, obeys_getState]
  show obeys _ (Socket.init .inside _ >>= _) _ m s
  rw [obeys_bind]
  refine obeys_mono (Socket.init_inside _ hs) fun r m' s' hr => ?_
  obtain ⟨hs', hr⟩ := hr
  cases r with
  | ok _ =>
    rintro connected hconnected
    cases hconnected
    refine ⟨{ hs' with inside := hs'.inside, known := hs'.known }, fun _ => hr⟩
  | error e =>
    subst hr
    rintro connected hconnected
    cases hconnected
    exact ⟨hs', nofun⟩

/-- Every call of a session is made on what its thread owns, if the session is in lockstep. -/
theorem carry_obeys (rounds : Nat) {c : Call} (hs : Sockets m s.1) (hp : Meets p m.inside._fd)
    (hc : (lockstep ctx).contract.permits p c) : (carry rounds c).obeys handling.own
      (fun r m' s' => ∀ x, r = .ok x → Sockets m' s'.1 ∧
        Meets ((lockstep ctx).contract.after p ⟨c, x⟩) m'.inside._fd) m s := by
  have hafter : ∀ x, ∃ q, p.step ctx ⟨c, x⟩ = some q ∧ (lockstep ctx).contract.after p ⟨c, x⟩ = q := fun x => by
    obtain ⟨q, hq⟩ := Option.isSome_iff_exists.mp (hc x)
    refine ⟨q, hq, ?_⟩
    show (p.step ctx ⟨c, x⟩).getD p = q
    exact congrArg (Option.getD · p) hq
  -- a call that stays, between connecting and hanging up
  have hstays : c ≠ .connect → c ≠ .deinit → Stays m s.1 (carry rounds c) → (carry rounds c).obeys handling.own
      (fun r m' s' => ∀ x, r = .ok x → Sockets m' s'.1 ∧
        Meets ((lockstep ctx).contract.after p ⟨c, x⟩) m'.inside._fd) m s := fun hconnect hdeinit hstays =>
    obeys_mono (hs.stays hstays) fun r m' s' hr x _ => by
      obtain ⟨hs', rfl⟩ := hr
      obtain ⟨q, hq, heq⟩ := hafter x
      exact ⟨hs', heq ▸ hp.step hconnect hdeinit hq⟩
  have hquery : ∀ {c : Sys}, c.Idle → c.uses = [] → Stays m s.1 (sys c) := fun hidle huses =>
    stays_sys hidle (by rw [huses]; exact nofun)
  cases c with
  | outReadline _ => exact hstays nofun nofun (Socket.stays_readline hs.usable_outside rounds).caught
  | outRead _ => exact hstays nofun nofun (Socket.stays_read hs.usable_outside rounds _).attempt
  | outReply _ _ => exact hstays nofun nofun (Socket.stays_writeline hs.usable_outside _).attempt
  | makesecure =>
    refine obeys_attempt (obeys_mono (Socket.makesecure_obeys hs) fun r m' s' hr => ?_)
    obtain ⟨hs', hinside⟩ := hr
    have hkept : ∀ x, Sockets m' s'.1 ∧
        Meets ((lockstep ctx).contract.after p ⟨.makesecure, x⟩) m'.inside._fd := fun x => by
      obtain ⟨q, hq, heq⟩ := hafter x
      exact ⟨hs', heq ▸ hinside ▸ hp.step (c := .makesecure) nofun nofun hq⟩
    rcases r with e | _
    · cases e <;> exact fun x _ => hkept x
    · exact fun x _ => hkept x
  | connect =>
    refine obeys_mono (connect_obeys rounds hs) fun r m' s' hr x hx => ?_
    obtain ⟨hs', hopen⟩ := hr x hx
    obtain ⟨q, hq, heq⟩ := hafter x
    refine ⟨hs', heq ▸ ?_⟩
    cases p <;> cases hq
    cases x
    · trivial
    · exact hopen rfl
  | deinit =>
    refine obeys_mono (Socket.deinit_inside hs) fun r m' s' hr x _ => ?_
    obtain ⟨-, hs', hclosed⟩ := hr
    obtain ⟨q, hq, heq⟩ := hafter x
    refine ⟨hs', heq ▸ ?_⟩
    cases p <;> cases hq
    exact hclosed
  | readReply =>
    exact hstays nofun nofun (stays_set (hs.usable_inside (hp.opened_read ctx (hc _))) rounds).caught
  | inWriteline item =>
    exact hstays nofun nofun (Socket.stays_writeline (hs.usable_inside (hp.opened_write ctx (hc true))) _).attempt
  | gethostbyname _ =>
    exact hstays nofun nofun (Stays.concurrently ((hquery (fun _ => ⟨rfl, rfl, rfl⟩) rfl).bind fun _ => rests_pure _))
  | gethostbyaddr => exact hstays nofun nofun (.getState (hquery (fun _ => ⟨rfl, rfl, rfl⟩) rfl))
  | testtrusted _ | testacceptance _ =>
    exact hstays nofun nofun ((hquery (fun _ => ⟨rfl, rfl, rfl⟩) rfl).bind fun _ => rests_pure _)
  | greylist _ _ _ => exact hstays nofun nofun (stays_greylist _ _ _)
  | users _ _ | count _ => exact hstays nofun nofun (hquery (fun _ => ⟨rfl, rfl, rfl⟩) rfl)
  | verifydomain _ | verifyaddress _ => exact hstays nofun nofun (rests_pure ())

end

/-! ## The threads -/

/-- Where the thread of a session stands. -/
inductive Stage where
  | fresh
  /-- `pthread_setspecific` has failed -/
  | unnamed
  | alive (p : Phase)
  | destroyed

namespace Stage

def permits (ctx : Context) : Stage → Task → Prop
  | .fresh, .sys c => c = .setspecific
  | .alive p, .session c => (lockstep ctx).contract.permits p c
  | .alive _, .destroy => True
  | .alive _, .sys c => c = .takeCPUlock ∨ c = .terminate ∨ ∃ address, c = .gethostbyaddr address
  | .destroyed, .sys c => c = .releaseCPUlock
  | _, _ => False

def after (ctx : Context) : Stage → Event Task.Ans → Stage
  | .fresh, ⟨.sys .setspecific, e⟩ => if e ≠ 0 then .unnamed else .alive .closed
  | .alive p, ⟨.session c, x⟩ => .alive ((lockstep ctx).contract.after p ⟨c, x⟩)
  | .alive _, ⟨.destroy, _⟩ => .destroyed
  | stage, _ => stage

/-- What the thread owns, where it stands. -/
def Meets (stage : Stage) (m : Members) (s : Owned) : Prop :=
  match stage with
  | .fresh => Sockets m s.1 ∧ m.inside._fd = -1
  | .unnamed => ∃ e : Int, e ≠ 0 ∧ ⟨.setspecific, e⟩ ∈ s.2
  | .alive p => Sockets m s.1 ∧ Daemon.Meets p m.inside._fd
  | .destroyed => ∀ fd, s.1 (.descriptor fd) → fd = -1

end Stage

/-- The thread of a session uses its sockets in lockstep, and destroys them at its end. -/
def tended (ctx : Context) : Contract Task.Ans Stage where
  permits := Stage.permits ctx
  promises _ _ := True
  after := Stage.after ctx

/-- The thread has no descriptor, or it has not got as far as running. -/
def Cleared (s : Owned) : Prop :=
  (∃ e : Int, e ≠ 0 ∧ ⟨.setspecific, e⟩ ∈ s.2) ∨ ∀ fd, s.1 (.descriptor fd) → fd = -1

def Leaves (r : Except Exn End × Members) (s : Owned) : Prop := r.1 = .ok .returned → Cleared s

instance (c : Call) : Nonempty (Spey.Ans c) := by
  cases c with
  | outReadline _ | readReply => exact ⟨.error .network⟩
  | _ => infer_instance

theorem lockstep_obeys (ctx : Context) (rounds : Nat) :
    (Spey.trampoline ctx rounds {}).Obeys (lockstep ctx).contract (fun _ _ => True) .closed := by
  refine Monitor.obeys_of_wp (Monitor.at_nil _) ?_
  have hprocess : wp (process ctx rounds) (fun _ _ h => Lockstep.Done ctx h) {} [] :=
    (wp_iff_ends _ _ _ _).mpr fun _ _ _ hrun => (Lockstep.valid ctx rounds).process hrun
  have htrampoline : wp (Spey.trampoline ctx rounds) (fun _ _ h => (lockstep ctx).Accepts h) {} [] := by
    rw [Spey.trampoline, wp_handle]
    refine wp_mono hprocess fun r s h hr => ?_
    obtain ⟨hdone, -⟩ := hr
    cases r with
    | ok _ => exact hdone
    | error e =>
      cases e with
      | networkTimeout =>
        -- the timeout is counted
        obtain ⟨p, hp⟩ := hdone
        intro x
        have hcounted : (lockstep ctx).Accepts (⟨.count .timeout, x⟩ :: h) := ⟨p, hp.cons rfl⟩
        cases x <;> exact hcounted
      | _ => exact hdone
  exact htrampoline

/-- The thread of a session takes its calls in order. -/
theorem messageThread_tended (ctx : Context) (rounds : Nat) :
    (messageThread ctx rounds).Obeys (tended ctx)
      (fun r stage => r = .returned → stage = .unnamed ∨ stage = .destroyed) .fresh := by
  have hprocess : ∀ u, (MessageProcessor.process ctx rounds).obeys (tended ctx)
      (fun _ _ stage => ∃ p, stage = .alive p) u (.alive .closed) := fun u =>
    Program.obeys_embed (I := fun stage p => stage = .alive p) (fun c stage p hstage hc => by
      subst hstage
      exact ⟨hc, fun x _ => ⟨trivial, rfl⟩⟩) (fun a stage p hstage _ => ⟨p, hstage⟩) rfl (lockstep_obeys ctx rounds)
  have hlog : Keeps (tended ctx) (fun _ stage => stage = .alive .closed) (fun _ _ stage => stage = .alive .closed)
      (MessageProcessor.log ctx) := by
    refine .ite (fun _ => Keeps.bind (keeps_call fun _ stage hstage => ?_) fun _ => keeps_pure ()) fun _ => keeps_pure ()
    subst hstage
    exact ⟨.inr (.inr ⟨_, rfl⟩), fun _ _ => rfl⟩
  have hrun : ∀ u, (MessageProcessor.run ctx rounds).obeys (tended ctx) (fun _ _ stage => ∃ p, stage = .alive p) u
      (.alive .closed) := fun u => by
    refine obeys_andThen (hlog.always rfl) (fun _ _ stage hstage => ⟨_, hstage⟩) fun _ u stage hstage => ?_
    subst hstage
    exact hprocess u
  refine trampoline_obeys rfl (fun e he => .inl (if_pos he)) (.inl rfl) (obeys_mono (hrun ()) fun r _ stage hr => ?_)
  obtain ⟨p, rfl⟩ := hr
  rcases r with (_ | _) | _
  · exact .inr (.inl rfl)
  · trivial
  · exact ⟨trivial, fun _ _ => ⟨rfl, fun _ _ _ => .inr rfl⟩⟩

/-- Each call of the thread is carried out on what it owns. -/
theorem tended_perform (ctx : Context) (rounds : Nat) {e : Task} {m : Members} {s : Owned} {stage : Stage}
    (hstage : stage.Meets m s) (hpermits : (tended ctx).permits stage e) :
    (perform rounds e).obeys handling.own
      (fun r m' s' => ∀ x, r = .ok x → ((tended ctx).after stage ⟨e, x⟩).Meets m' s') m s := by
  cases stage with
  | fresh =>
    cases e with
    | sys c =>
      obtain rfl : c = .setspecific := hpermits
      refine ⟨nofun, fun (e : Int) _ x hx => ?_⟩
      cases hx
      obtain ⟨hs, hclosed⟩ := hstage
      show (if e ≠ 0 then Stage.unnamed else .alive .closed).Meets m _
      have hkeeps : (handling.own.after s ⟨.setspecific, e⟩).1 = s.1 := keeps_idle ⟨rfl, rfl, rfl⟩
      split_ifs with he
      · exact ⟨e, he, List.mem_cons_self⟩
      · exact ⟨hkeeps ▸ hs, hclosed⟩
    | _ => exact absurd hpermits id
  | unnamed => cases e <;> exact absurd hpermits id
  | alive p =>
    obtain ⟨hs, hp⟩ := hstage
    cases e with
    | session c => exact carry_obeys rounds hs hp hpermits
    | destroy => exact obeys_mono (Socket.obeys_destroy rounds hs) fun r m' s' hr _ _ => hr.2
    | sys c =>
      have hidle : c.Idle ∧ c.uses = [] ∧ ∀ x, (tended ctx).after (.alive p) ⟨.sys c, x⟩ = .alive p := by
        rcases hpermits with rfl | rfl | ⟨address, rfl⟩
        · exact ⟨fun _ => ⟨rfl, rfl, rfl⟩, rfl, fun _ => rfl⟩
        · exact ⟨nofun, rfl, nofun⟩
        · exact ⟨fun _ => ⟨rfl, rfl, rfl⟩, rfl, fun _ => rfl⟩
      obtain ⟨hidle, huses, hafter⟩ := hidle
      refine obeys_mono (hs.stays (stays_sys hidle (by rw [huses]; exact nofun))) fun r m' s' hr x _ => ?_
      obtain ⟨hs', rfl⟩ := hr
      rw [hafter]
      exact ⟨hs', hp⟩
    | server c => exact absurd hpermits id
  | destroyed =>
    cases e with
    | sys c =>
      obtain rfl : c = .releaseCPUlock := hpermits
      refine ⟨nofun, fun u _ x _ => ?_⟩
      have hkeeps : handling.keeps s.1 ⟨.releaseCPUlock, u⟩ = s.1 := keeps_idle ⟨rfl, rfl, rfl⟩
      show ∀ fd, handling.keeps s.1 ⟨.releaseCPUlock, u⟩ (.descriptor fd) → fd = -1
      rw [hkeeps]
      exact hstage
    | _ => exact absurd hpermits id

theorem messageThread_owns (host : Host) (rounds : Nat) (fd : Int) :
    ((messageThread host.ctx rounds).implement (perform rounds) (.ofConnection host fd)).Obeys handling.own
      Leaves (fun r => some (.descriptor fd) = some r, []) := by
  have hstart : Stage.fresh.Meets (.ofConnection host fd) (fun r => some (.descriptor fd) = some r, []) :=
    ⟨⟨rfl, nofun, nofun, nofun, fun h => absurd rfl h, rfl, fun fd' he =>
      .inr (.inl (Resource.descriptor.inj (Option.some.inj he)).symm)⟩, rfl⟩
  have hcalls : ((messageThread host.ctx rounds).implement (perform rounds)).obeys handling.own
      (fun r m s => Leaves (r, m) s) (.ofConnection host fd) (fun r => some (.descriptor fd) = some r, []) := by
    refine Program.obeys_implement (I := fun m s stage => Stage.Meets stage m s) (fun e m s stage hstage hpermits => ?_)
      (fun a m s stage hstage hreturned => ?_) hstart (messageThread_tended host.ctx rounds)
    · refine obeys_mono (tended_perform host.ctx rounds hstage hpermits) fun r m' s' hr => ?_
      cases r with
      | ok x => exact ⟨trivial, hr x rfl⟩
      | error y => exact nofun
    · intro hr
      rcases hreturned (Except.ok.inj hr) with rfl | rfl
      · exact .inl hstage
      · exact .inr hstage
  exact hcalls

/-! ## The server -/

/-- The system call that a call of the server stands for. -/
def serverSys : ServerCall → Sys
  | .setting key => .setting key
  | .accept fd => .accept fd
  | .createThread fd address => .createThread fd address
  | .write fd message => .refuse fd message
  | .close fd => .close fd
  | .gethostbyaddr address => .gethostbyaddr address
  | .setspecific => .setspecific

def serverEvent : Event ServerCall.Ans → Event Sys.Ans
  | ⟨.setting key, x⟩ => ⟨.setting key, x⟩
  | ⟨.accept fd, x⟩ => ⟨.accept fd, x⟩
  | ⟨.createThread fd address, x⟩ => ⟨.createThread fd address, x⟩
  | ⟨.write fd message, x⟩ => ⟨.refuse fd message, x⟩
  | ⟨.close fd, x⟩ => ⟨.close fd, x⟩
  | ⟨.gethostbyaddr address, x⟩ => ⟨.gethostbyaddr address, x⟩
  | ⟨.setspecific, x⟩ => ⟨.setspecific, x⟩

/-- The server uses what it owns. -/
def served : Contract ServerCall.Ans Owned where
  permits s c := handling.own.permits s (serverSys c)
  promises s e := handling.own.promises s (serverEvent e)
  after s e := handling.own.after s (serverEvent e)

/-- The server owns the descriptor that it listens on, and nothing else. -/
def Listening (server : Server) (s : Owned) : Prop := ∀ r, s.1 r ↔ r = .descriptor server._fd

theorem keeps_handed {e : Event Sys.Ans} {r r' : Resource} {owned : Resource → Prop}
    (hgains : Sys.gains e = none) (hcloses : Sys.closes e = none) (hhands : Sys.hands e = some r') :
    handling.keeps owned e r ↔ owned r ∧ r ≠ r' := by
  show (owned r ∧ Sys.closes e ≠ some r ∧ Sys.hands e ≠ some r) ∨ Sys.gains e = some r ↔ _
  rw [hgains, hcloses, hhands]
  constructor
  · intro hr
    obtain ⟨hr, -, hne⟩ := hr.resolve_right nofun
    exact ⟨hr, fun he => hne (congrArg some he.symm)⟩
  · rintro ⟨hr, hne⟩
    exact .inl ⟨hr, nofun, fun he => hne (Option.some.inj he).symm⟩

theorem listening_reload : Keeps served Listening (fun _ _ _ => False) Spey.Settings.reload := by
  have hget : ∀ key, Keeps served Listening (fun _ _ _ => False) (Spey.Settings.get key) := fun key => by
    refine Keeps.handle (J := fun e s u => e = .sql ∧ Listening s u) ?_ (fun e s u hnone hr => ?_) fun e y hsome => ?_
    · refine Keeps.bind (keeps_call fun server s hs => ⟨nofun, fun value _ => ?_⟩) fun value => ?_
      · have hkeeps : (served.after s ⟨.setting (text key), value⟩).1 = s.1 := keeps_idle ⟨rfl, rfl, rfl⟩
        rw [Listening, hkeeps]
        exact hs
      · cases value with
        | none => exact keeps_raise fun _ _ hs => ⟨rfl, hs⟩
        | some value => exact keeps_pure value
    · rw [hr.1] at hnone
      cases hnone
    · refine ⟨fun _ _ hr => hr.2, ?_⟩
      cases e <;> cases hsome
      exact keeps_pure _
  unfold Spey.Settings.reload
  iterate 11 refine Keeps.bind (hget _) fun _ => ?_
  exact keeps_update fun _ _ hs => hs

/-- A lookup for the log leaves everything as it is. -/
theorem obeys_log {Q : Outcome ServerExn Server Unit Owned} (address : SocketAddress) {server : Server} {s : Owned}
    (hQ : ∀ s', s'.1 = s.1 → Q (.ok ()) server s') : address.log.obeys served Q server s := by
  rw [SocketAddress.log, obeys_ite]
  split
  · exact ⟨List.forall_mem_nil _, fun _ _ => hQ _ (keeps_idle ⟨rfl, rfl, rfl⟩)⟩
  · exact hQ s rfl

/-- One round of the server: the connection is handed over or closed. -/
theorem listening_round : Keeps served Listening (fun _ => Listening) ServerProcessor.round := by
  refine Keeps.bind (listening_reload.mono nofun) fun _ => ?_
  intro server s hs
  simp only [SocketServer.accept, obeys_bind, obeys_getState, obeys_call]
  refine ⟨fun r hr => (hs r).mpr (List.mem_singleton.mp hr), fun x hx => ?_⟩
  cases x with
  | error errno =>
    have hkeeps : (served.after s ⟨.accept server._fd, .error errno⟩).1 = s.1 := keeps_idle ⟨rfl, rfl, rfl⟩
    show Listening server _
    rw [Listening, hkeeps]
    exact hs
  | ok connection =>
    obtain ⟨fd, address⟩ := connection
    have hother : fd ≠ server._fd := fun he => hx.2 _ rfl ((hs _).mpr (congrArg Resource.descriptor he))
    let s₁ := served.after s ⟨.accept server._fd, .ok (fd, address)⟩
    have hs₁ : ∀ r, s₁.1 r ↔ r = .descriptor server._fd ∨ r = .descriptor fd := fun r =>
      (keeps_gained rfl rfl rfl).trans (or_congr_left (hs r))
    have howned : s₁.1 (.descriptor fd) := (hs₁ _).mpr (.inr rfl)
    -- whoever gets rid of the new descriptor, the old one is left
    have hleft : ∀ r, s₁.1 r ∧ r ≠ .descriptor fd ↔ r = .descriptor server._fd := fun r => by
      rw [hs₁]
      constructor
      · rintro ⟨hr, hne⟩
        exact hr.resolve_right hne
      · rintro rfl
        exact ⟨.inl rfl, fun he => hother (Resource.descriptor.inj he).symm⟩
    simp only [obeys_pure, obeys_handle, Threadlet.start, obeys_bind]
    refine obeys_log address fun s₂ hs₂ => ?_
    rw [obeys_call]
    refine ⟨fun r hr => hs₂ ▸ List.mem_singleton.mp hr ▸ howned, fun e _ => ?_⟩
    dsimp only
    by_cases he : e = 0
    · rw [if_neg (not_not_intro he)]
      have hhands : Sys.hands ⟨.createThread fd address, e⟩ = some (.descriptor fd) :=
        congrArg (Option.map Spawn.descriptor) (if_pos he)
      refine fun r => (keeps_handed rfl rfl hhands).trans ?_
      rw [hs₂]
      exact hleft r
    · rw [if_pos he]
      simp only [ServerProcessor.refuse, obeys_raise, obeys_bind]
      refine obeys_log address fun s₃ hs₃ => ?_
      have hkept : s₃.1 = s₁.1 := (hs₃.trans (keeps_idle ⟨rfl, rfl, congrArg _ (if_neg he)⟩)).trans hs₂
      simp only [obeys_getState, obeys_call]
      have hrefused : ∀ message, (served.after s₃ ⟨.write fd message, ()⟩).1 = s₁.1 := fun message =>
        (keeps_idle ⟨rfl, rfl, rfl⟩).trans hkept
      refine ⟨fun r hr => ?_, fun _ _ => ⟨fun r hr => ?_, fun _ _ r => (keeps_closed rfl rfl rfl).trans ?_⟩⟩
      · rw [hkept]
        exact List.mem_singleton.mp hr ▸ howned
      · rw [hrefused]
        exact List.mem_singleton.mp hr ▸ howned
      · rw [hrefused]
        exact hleft r

/-! ## Threads without sockets of their own -/

/-- The system call that a call of the server's or the main thread stands for. -/
def Task.plain : Task → Option Sys
  | .server c => some (serverSys c)
  | .sys c => some c
  | .session _ | .destroy => none

def Task.event : Event Task.Ans → Option (Event Sys.Ans)
  | ⟨.server c, x⟩ => some (serverEvent ⟨c, x⟩)
  | ⟨.sys c, x⟩ => some ⟨c, x⟩
  | _ => none

/-- The thread uses what it owns. -/
def plainly : Contract Task.Ans Owned where
  permits s e := ∃ c, e.plain = some c ∧ handling.own.permits s c
  promises s e := ∀ e', Task.event e = some e' → handling.own.promises s e'
  after s e := (Task.event e).elim s (handling.own.after s)

/-- The same is owned on both levels, and nothing that was called is forgotten. -/
def Agrees (s u : Owned) : Prop := s.1 = u.1 ∧ ∀ e ∈ u.2, e ∈ s.2

theorem Agrees.after {s u : Owned} (h : Agrees s u) (e : Event Sys.Ans) :
    Agrees (handling.own.after s e) (handling.own.after u e) := by
  refine ⟨congrArg (handling.keeps · e) h.1, fun e' he' => ?_⟩
  rcases List.mem_cons.mp he' with rfl | he'
  · exact List.mem_cons_self
  · exact List.mem_cons_of_mem _ (h.2 e' he')

theorem Agrees.idle {s u : Owned} {e : Event Sys.Ans} (h : Agrees s u)
    (he : Sys.gains e = none ∧ Sys.closes e = none ∧ Sys.hands e = none) :
    Agrees (handling.own.after s e) u :=
  ⟨(keeps_idle he).trans h.1, fun e' he' => List.mem_cons_of_mem _ (h.2 e' he')⟩

theorem plainly_perform (rounds : Nat) {e : Task} {m : Members} {s u : Owned} (hagrees : Agrees s u)
    (hpermits : plainly.permits u e) : (perform rounds e).obeys handling.own
      (fun r _ s' => ∀ x, r = .ok x → plainly.promises u ⟨e, x⟩ ∧ Agrees s' (plainly.after u ⟨e, x⟩)) m s := by
  have hpromise : ∀ {e : Event Sys.Ans}, handling.own.promises s e → handling.own.promises u e := fun h =>
    ⟨h.1, hagrees.1 ▸ h.2⟩
  have hsys : ∀ {c : Sys}, handling.own.permits u c → (sys c).obeys handling.own
      (fun r _ s' => ∀ x, r = .ok x → handling.own.promises u ⟨c, x⟩ ∧ Agrees s' (handling.own.after u ⟨c, x⟩)) m s :=
    fun hc => ⟨fun r hr => hagrees.1 ▸ hc r hr, fun x hx y hy => by cases hy; exact ⟨hpromise hx, hagrees.after _⟩⟩
  obtain ⟨c', hplain, hc⟩ := hpermits
  cases e with
  | sys c =>
    cases hplain
    refine obeys_mono (hsys hc) fun r _ s' hr x hx => ?_
    obtain ⟨hx, hs'⟩ := hr x hx
    exact ⟨fun e' he' => Option.some.inj he' ▸ hx, hs'⟩
  | server c =>
    cases hplain
    cases c with
    | accept fd =>
      have hreleased := hagrees.idle (e := ⟨.releaseCPUlock, ()⟩) ⟨rfl, rfl, rfl⟩
      show obeys _ (concurrently (sys (.accept fd))) _ m s
      rw [concurrently, obeys_bind, obeys_call]
      refine ⟨fun r hr => (by cases hr), fun _ _ => ?_⟩
      dsimp only
      rw [obeys_bind, obeys_handle, obeys_call]
      refine ⟨fun r hr => hreleased.1 ▸ hc r hr, fun x hx => ⟨fun r hr => (by cases hr), fun _ _ y hy => ?_⟩⟩
      cases hy
      refine ⟨fun e' he' => Option.some.inj he' ▸ ⟨hx.1, hreleased.1 ▸ hx.2⟩, ?_⟩
      exact (hreleased.after _).idle ⟨rfl, rfl, rfl⟩
    | _ =>
      refine obeys_mono (hsys hc) fun r _ s' hr x hx => ?_
      obtain ⟨hx, hs'⟩ := hr x hx
      exact ⟨fun e' he' => Option.some.inj he' ▸ hx, hs'⟩
  | _ => cases hplain

theorem plainly_owns {thread : Thread} {owned : Resource → Prop} (rounds : Nat) (m : Members)
    (hthread : thread.Obeys plainly (fun r u => r = .returned → Cleared u) (owned, [])) :
    (thread.implement (perform rounds) m).Obeys handling.own Leaves (owned, []) := by
  have hcalls : (thread.implement (perform rounds)).obeys handling.own (fun r m s => Leaves (r, m) s) m
      (owned, []) := by
    refine Program.obeys_implement (I := fun _ s u => Agrees s u) (fun e m s u hagrees hpermits => ?_)
      (fun a m s u hagrees hreturned hr => ?_) ⟨rfl, nofun⟩ hthread
    · refine obeys_mono (plainly_perform rounds hagrees hpermits) fun r _ s' hr => ?_
      cases r with
      | ok x => exact hr x rfl
      | error y => exact nofun
    · refine (hreturned (Except.ok.inj hr)).imp ?_ fun hclosed => hagrees.1 ▸ hclosed
      rintro ⟨e, he, hmem⟩
      exact ⟨e, he, hagrees.2 _ hmem⟩
  exact hcalls

/-- The destructor closes what the server listens on. -/
theorem listening_deinit {server : Server} {s : Owned} (hs : Listening server s) :
    SocketServer.deinit.obeys served (fun r _ s => r = .ok () → ∀ fd, s.1 (.descriptor fd) → fd = -1) server s := by
  simp only [SocketServer.deinit, obeys_bind, obeys_getState, obeys_ite, obeys_pure]
  split_ifs with hfd
  · refine ⟨fun r hr => (hs r).mpr (List.mem_singleton.mp hr), fun _ _ _ fd hr => ?_⟩
    obtain ⟨hr, hne⟩ := (keeps_closed rfl rfl rfl).mp hr
    exact absurd ((hs _).mp hr) hne
  · exact fun _ fd hr => (Resource.descriptor.inj ((hs _).mp hr)).trans (not_not.mp hfd)

theorem serverThread_owns (server : Server) (rounds : Nat) (m : Members) :
    ((serverThread server rounds).implement (perform rounds) m).Obeys handling.own Leaves
      (fun r => some (.descriptor server._fd) = some r, []) := by
  have hrun : ∀ u s, Listening server s → (ServerProcessor.run server rounds).obeys plainly
      (fun r _ s => r = .ok () → ∀ fd, s.1 (.descriptor fd) → fd = -1) u s := fun u s hs => by
    refine Program.obeys_embed (I := fun s s' => s = s') (d := served)
      (R := fun r s => r.1 = .ok () → ∀ fd, s.1 (.descriptor fd) → fd = -1) ?_ ?_ rfl ?_
    · rintro c s s' rfl hpermits
      exact ⟨⟨_, rfl, hpermits⟩, fun x hx => ⟨hx _ rfl, rfl⟩⟩
    · rintro ⟨r, _⟩ s s' rfl hr hx
      cases r with
      | ok _ => exact hr rfl
      | error e => cases hx
    · have hloop : Keeps served Listening (fun _ => Listening) (Spey.ServerProcessor.run rounds) :=
        listening_round.repeatUntil (fun _ _ h => h) rounds
      refine obeys_andThen (R := Listening) ?_ (fun _ _ _ _ => nofun) (fun _ _ _ hs => listening_deinit hs)
      rw [obeys_handle]
      refine obeys_mono (hloop server s hs) fun r server s hr => ?_
      cases r with
      | ok _ => exact hr
      | error e => cases e <;> exact hr
  refine plainly_owns rounds m ?_
  have hstart : Listening server (plainly.after (plainly.after
      (fun r => some (.descriptor server._fd) = some r, []) ⟨.sys .setspecific, (0 : Int)⟩) ⟨.sys .takeCPUlock, ()⟩) := by
    intro r
    have hkeeps : handling.keeps (handling.keeps (fun r => some (.descriptor server._fd) = some r)
        ⟨.setspecific, (0 : Int)⟩) ⟨.takeCPUlock, ()⟩ = fun r => some (.descriptor server._fd) = some r :=
      (keeps_idle ⟨rfl, rfl, rfl⟩).trans (keeps_idle ⟨rfl, rfl, rfl⟩)
    exact (iff_of_eq (congrFun hkeeps r)).trans ⟨fun he => (Option.some.inj he).symm, fun he => congrArg some he.symm⟩
  refine trampoline_obeys ⟨_, rfl, nofun⟩ (fun e he => .inl ⟨e, he, List.mem_cons_self⟩) ⟨_, rfl, nofun⟩
    (obeys_mono (hrun () _ hstart) fun r _ s hr => ?_)
  rcases r with (_ | _) | _
  · exact ⟨_, rfl, nofun⟩
  · trivial
  · refine ⟨⟨_, rfl, nofun⟩, fun _ _ _ => .inr ?_⟩
    show ∀ fd, handling.keeps s.1 ⟨.releaseCPUlock, ()⟩ (.descriptor fd) → fd = -1
    rw [keeps_idle ⟨rfl, rfl, rfl⟩]
    exact hr rfl

/-! ## The main thread -/

/-- The main thread uses what it owns, however it comes to its end. -/
def Safe {α : Type} (x : MainProc α) (s : Owned) : Prop := x.obeys plainly (fun _ _ _ => True) () s

theorem safe_idle {α : Type} {c : Sys} {f : Sys.Ans c → MainProc α} {s : Owned} (hc : c.Idle) (huses : c.uses = [])
    (hf : ∀ x s', s'.1 = s.1 → Safe (f x) s') : Safe (ask c >>= f) s :=
  ⟨⟨c, rfl, by rw [show handling.own.permits s c = ∀ r ∈ c.uses, s.1 r from rfl, huses]; exact nofun⟩,
    fun x _ => hf x _ (keeps_idle (hc x))⟩

/-- What is looked up leaves everything as it is. -/
theorem safe_prepares {α β : Type} {x : MainProc α} {f : α → MainProc β} {s : Owned} (hx : Prepares x)
    (hf : ∀ a (s' : Owned), s'.1 = s.1 → Safe (f a) s') : Safe (x >>= f) s := by
  have hkeeps := hx.keeps (c := plainly) (I := fun s' => s'.1 = s.1) fun c p hc hp => by
    have hidle : c.Idle ∧ c.uses = [] := by
      cases c <;> first | exact ⟨fun _ => ⟨rfl, rfl, rfl⟩, rfl⟩ | cases hc
    refine ⟨⟨c, rfl, ?_⟩, fun a _ => (keeps_idle (hidle.1 a)).trans hp⟩
    show ∀ r ∈ c.uses, p.1 r
    rw [hidle.2]
    exact nofun
  exact obeys_andThen (R := fun _ s' => s'.1 = s.1) (hkeeps.always rfl) (fun _ _ _ _ => trivial)
    fun a _ s' hs' => hf a s' hs'

theorem safe_halt (s : Owned) : Safe halt s :=
  safe_idle (fun _ => ⟨rfl, rfl, rfl⟩) rfl fun _ _ _ => ⟨⟨_, rfl, nofun⟩, nofun⟩

/-- The last steps of the main thread, where `fd` is handed to the thread that it starts. -/
theorem safe_start {config : Configuration} {create : MainProc Int} {fd : Int} {s : Owned}
    (hcreate : ∀ s', s'.1 (.descriptor fd) → Safe create s') (hs : s.1 (.descriptor fd)) :
    Safe (do
      drop_root_privileges config.runtimeuserid
      check_private_key config
      start create
      halt) s := by
  refine safe_prepares (prepares_drop_root_privileges _) fun _ s₁ hs₁ => ?_
  refine safe_prepares (prepares_check_private_key config) fun _ s₂ hs₂ => ?_
  have hfd : s₂.1 (.descriptor fd) := by rwa [hs₂, hs₁]
  rw [start, Action.bind_assoc]
  refine obeys_andThen (R := fun _ _ => True) (hcreate s₂ hfd) (fun _ _ _ _ => trivial) fun e _ s₃ _ => ?_
  rw [Action.ite_bind, obeys_ite]
  split
  · trivial
  · exact safe_halt s₃

/-- The socket that the server listens on. -/
theorem safe_init {α : Type} (address : SocketAddress) {f : Int → MainProc α} {s : Owned}
    (hf : ∀ fd (s' : Owned), s'.1 (.descriptor fd) → Safe (f fd) s') : Safe (SocketServer.init address >>= f) s := by
  have hinit : (SocketServer.init address).obeys plainly
      (fun r _ s' => ∀ fd, r = .ok fd → s'.1 (.descriptor fd)) () s := by
    simp only [SocketServer.init, obeys_bind, obeys_call, obeys_ite, obeys_raise, obeys_pure]
    refine ⟨⟨_, rfl, fun r hr => by cases hr⟩, fun fd _ => ?_⟩
    let s₁ := handling.own.after s ⟨.socket, fd⟩
    by_cases hfd : fd = -1
    · rw [if_pos hfd]
      intro _ he
      cases he
    · rw [if_neg hfd]
      have howned : s₁.1 (.descriptor fd) := .inr (if_neg hfd)
      have hidle : ∀ {e : Event Sys.Ans} {s' : Owned},
          Sys.gains e = none ∧ Sys.closes e = none ∧ Sys.hands e = none → s'.1 (.descriptor fd) →
            (handling.own.after s' e).1 (.descriptor fd) := fun he hs' =>
          (iff_of_eq (congrFun (keeps_idle he) _)).mpr hs'
      have huses : ∀ {s' : Owned}, s'.1 (.descriptor fd) → ∀ r ∈ [Resource.descriptor fd], s'.1 r :=
        fun hs' r hr => List.mem_singleton.mp hr ▸ hs'
      have h₂ : (handling.own.after s₁ ⟨.setsockopt fd, ()⟩).1 (.descriptor fd) := hidle ⟨rfl, rfl, rfl⟩ howned
      refine ⟨⟨_, rfl, huses howned⟩, fun _ _ => ⟨⟨_, rfl, huses h₂⟩, fun bound _ => ?_⟩⟩
      have h₃ := hidle (e := ⟨.bind fd address, bound⟩) ⟨rfl, rfl, rfl⟩ h₂
      -- it is closed where the constructor is left
      have habandon : ∀ {s' : Owned} (e : MainExn), s'.1 (.descriptor fd) → (SocketServer.abandon fd e).obeys plainly
          (fun r _ s' => ∀ fd, r = .ok fd → s'.1 (.descriptor fd)) () s' := fun e hs' => by
        refine ⟨⟨_, rfl, huses hs'⟩, fun _ _ _ he => ?_⟩
        cases he
      split
      · exact habandon _ h₃
      · refine ⟨⟨_, rfl, huses h₃⟩, fun listening _ => ?_⟩
        have h₄ := hidle (e := ⟨.listen fd, listening⟩) ⟨rfl, rfl, rfl⟩ h₃
        split
        · exact habandon _ h₄
        · rintro fd' he
          cases he
          exact h₄
  rw [Safe, obeys_bind]
  refine obeys_mono hinit fun r _ s' hr => ?_
  cases r with
  | ok fd => exact hf fd s' (hr fd rfl)
  | error e => trivial

theorem safe_daemonise {cli : SpeyCLI} {f : Unit → MainProc Unit} {s : Owned} (hf : ∀ s, Safe (f ()) s) :
    Safe (daemonise cli >>= f) s := by
  rw [daemonise, Action.ite_bind]
  split
  · exact hf s
  · rw [Action.bind_assoc]
    refine safe_idle (fun _ => ⟨rfl, rfl, rfl⟩) rfl fun e s₁ _ => ?_
    rw [Action.ite_bind]
    split
    · trivial
    · exact hf s₁

theorem main_owns (cli : SpeyCLI) (host : Host) (rounds : Nat) :
    ((mainThread cli).implement (perform rounds) { host }).Obeys handling.own Leaves
      (fun r => cli.i = true ∧ r = .descriptor 0, []) := by
  have hinitialise : ∀ {f : SocketAddress × SocketAddress → MainProc Unit} {s : Owned},
      (∀ a (s' : Owned), s'.1 = s.1 → Safe (f a) s') → Safe (initialise cli >>= f) s := fun hf =>
    safe_idle (fun _ => ⟨rfl, rfl, rfl⟩) rfl fun _ s₁ hs₁ =>
      safe_prepares (prepares_addresses cli) fun a s₂ hs₂ => hf a s₂ (hs₂.trans hs₁)
  have hdaemon : ∀ s, Safe (daemonmode cli) s := fun s =>
    safe_daemonise fun s => hinitialise fun a s₁ _ => safe_prepares prepares_reload fun config s₂ _ =>
      safe_prepares (prepares_announce a.1) fun _ s₃ _ => safe_init a.1 fun fd s₄ hfd =>
        safe_start (fun s' hs' => ⟨⟨_, rfl, fun r hr => List.mem_singleton.mp hr ▸ hs'⟩, fun _ _ => trivial⟩) hfd
  have hinetd : ∀ s : Owned, s.1 (.descriptor 0) → Safe (inetdmode cli) s := fun s hs => by
    refine hinitialise fun _ s₁ hs₁ => ?_
    rw [Safe, obeys_handle]
    refine obeys_mono (safe_prepares prepares_reload fun config s₂ hs₂ => safe_start
      (fun s' hs' => ⟨⟨_, rfl, fun r hr => List.mem_singleton.mp hr ▸ hs'⟩, fun _ _ => trivial⟩) ?_) fun r _ _ _ => ?_
    · rwa [hs₂, hs₁]
    · rcases r with (_ | _ | _ | _) | _ <;> trivial
  refine plainly_owns rounds _ ?_
  rw [mainThread, Program.obeys_bind]
  refine Program.Obeys.mono (Q := fun _ _ => True) ?_ fun _ _ _ hr => by cases hr
  rw [main_spey]
  split
  · exact hinetd _ ⟨‹_›, rfl⟩
  · exact hdaemon _

/-! ## Every run -/

theorem hands_spawns (hosts : Host → Prop) (rounds : Nat) : handling.Hands (Spawns hosts rounds) Leaves where
  size := by
    intro e new hnew
    show new.length = if (Sys.hands e).isSome then 1 else 0
    rw [Spawns] at hnew
    rw [Sys.hands]
    split at hnew
    · next he =>
      rw [he, hnew]
      rfl
    · next spawn he =>
      obtain ⟨p, m, -, rfl⟩ := hnew
      rw [he]
      rfl
  begins := by
    intro e new p hnew hp
    rw [Spawns] at hnew
    have hhands : ∀ spawn, Sys.spawn e = some spawn → handling.hands e = some spawn.descriptor := fun spawn he =>
      congrArg (Option.map Spawn.descriptor) he
    split at hnew
    · rw [hnew] at hp
      cases hp
    · next spawn he =>
      obtain ⟨thread, m, hstarts, rfl⟩ := hnew
      obtain rfl := List.mem_singleton.mp hp
      rw [hhands spawn he]
      cases hstarts with
      | @session fd _ host hhost haddress => exact messageThread_owns host rounds fd
      | @server fd server host hhost hfd =>
        subst hfd
        exact serverThread_owns server rounds _

/-- In inetd mode the main thread is given the connection. -/
def inherits (cli : SpeyCLI) (t : Nat) (r : Resource) : Prop := t = 0 ∧ cli.i = true ∧ r = .descriptor 0

/-- The thread that a descriptor or a handle belongs to, after what has happened. -/
def owner (cli : SpeyCLI) (h : History (Shared Nat Sys.Ans)) : Nat → Resource → Prop :=
  handling.owner 1 (inherits cli) h

section
variable {LIKE : Bytes → Bytes → Bool} {hosts : Host → Prop} {rounds : Nat} {cli : SpeyCLI} {host : Host}
  {k₀ k : Kernel} {threads : List Running} {h : History (Shared Nat Sys.Ans)}

/-- At first the main thread owns what it was given. -/
theorem owns_first (rounds : Nat) (host : Host) (hinetd : cli.i = true → k₀.live (.descriptor 0)) :
    Handling.Owns handling Kernel.live Leaves [(mainThread cli).implement (perform rounds) { host }] k₀ []
      (inherits cli) := by
  refine ⟨fun t p hp => ?_, fun t t' r ht ht' => ht.1.trans ht'.1.symm, fun t r ht => ?_, fun t r ht => ?_⟩
  · obtain ⟨rfl, rfl⟩ : t = 0 ∧ _ = p := by
      cases t with
      | zero => exact ⟨rfl, Option.some.inj hp⟩
      | succ t => cases hp
    have hstate : (fun r => cli.i = true ∧ r = .descriptor 0) = inherits cli 0 := by
      funext r
      exact propext ⟨fun hr => ⟨rfl, hr⟩, fun hr => hr.2⟩
    exact hstate ▸ main_owns cli host rounds
  · rw [ht.1]
    exact Nat.one_pos
  · obtain ⟨-, hi, rfl⟩ := ht
    exact hinetd hi

/-- What belongs to whom in every run. -/
theorem owns_runs (hmakes : ∀ e ∈ h, Sys.Makes ⟨e.1.2, e.2⟩) (hinetd : cli.i = true → k₀.live (.descriptor 0))
    (hcrew : Runs LIKE hosts rounds cli host k₀ threads k h) :
    Handling.Owns handling Kernel.live Leaves threads k h (owner cli h) ∧
      ∀ r, k.live r → (k₀.live r ∧ ∀ t, ¬ inherits cli t r) ∨ ∃ t, owner cli h t r :=
  Handling.owned (handling_serves LIKE) (hands_spawns hosts rounds) (owns_first rounds host hinetd)
    (hcrew.among hmakes)

end

section
variable {LIKE : Bytes → Bytes → Bool} {found : Bytes → Bytes} {rounds : Nat} {cli : SpeyCLI} {host : Host}
  {k₀ k : Kernel} {threads : List Running} {h : History (Shared Nat Sys.Ans)}

/-- Whatever a thread works on is there, and belongs to that thread and to no other; what is there
has an owner, if it was not there before; and a session that is over has closed its descriptors. -/
theorem descriptors_owned (hinetd : cli.i = true → k₀.live (.descriptor 0))
    (hsteady : Steady LIKE found rounds cli host k₀ threads k h) (hmakes : ∀ e ∈ h, Sys.Makes ⟨e.1.2, e.2⟩) :
    (∀ t t' r, owner cli h t r → owner cli h t' r → t = t') ∧
      (∀ t r, owner cli h t r → k.live r) ∧
      (∀ (t : Nat) (c : Sys) (next : Sys.Ans c → Running), threads[t]? = some (.call c next) →
        ∀ r ∈ c.uses, owner cli h t r) ∧
      (∀ r, k.live r → (k₀.live r ∧ ∀ t, ¬ inherits cli t r) ∨ ∃ t, owner cli h t r) ∧
      ∀ (t : Nat) (m : Members), threads[t]? = some (.done (.ok .returned, m)) →
        (∃ e : Int, e ≠ 0 ∧ ⟨.setspecific, e⟩ ∈ own t h) ∨ ∀ fd, owner cli h t (.descriptor fd) → fd = -1 := by
  obtain ⟨howns, hcover⟩ := owns_runs hmakes hinetd hsteady.run
  refine ⟨howns.sole, howns.live, fun t c next ht r hr => (howns.pending ht hr).1, hcover, fun t m ht => ?_⟩
  exact howns.obeys t _ ht rfl

/-- While the first client is served over TLS, the thread of its session works on the GNUTLS session 6;
in the end the thread has returned, and no descriptor is left to it. -/
theorem descriptors_owned_delivery :
    (∃ m, Delivery.play 81 = some m ∧ m.pending[2]? = some (some (.gnutls_record_check_pending 6)) ∧
      owner Delivery.cli m.past 2 (.session 6) ∧ (∀ t, owner Delivery.cli m.past t (.session 6) → t = 2) ∧
        m.world.kernel.live (.session 6)) ∧
    ∃ m members, Delivery.play 444 = some m ∧ m.threads[2]? = some (.done (.ok .returned, members)) ∧
      m.world.live = [.descriptor 5, .descriptor 3] ∧ ∀ fd, owner Delivery.cli m.past 2 (.descriptor fd) → fd = -1 := by
  have howned : ∀ {turns m}, Delivery.play turns = some m → _ := fun hplay =>
    descriptors_owned (absurd · Delivery.not_inetd) (Scene.play_steady hplay).1 (Scene.play_steady hplay).2
  constructor
  · obtain ⟨m, hplay, hpending⟩ := Scene.seen (Delivery.play 81) (fun m =>
      m.pending[2]? = some (some (.gnutls_record_check_pending 6))) (by decide +kernel)
    obtain ⟨hsole, hlive, hworks, -, -⟩ := howned hplay
    obtain ⟨next, ht⟩ := Moment.pending_call hpending
    have howner := hworks 2 _ _ ht (.session 6) List.mem_cons_self
    exact ⟨m, hplay, hpending, howner, fun t ht => hsole t 2 _ ht howner, hlive 2 _ howner⟩
  · obtain ⟨m, hplay, hfinished, hlive, hnamed⟩ := Scene.seen (Delivery.play 444) (fun m =>
      Delivery.finished m 2 = true ∧ m.world.live = [.descriptor 5, .descriptor 3] ∧
        ((own 2 m.past).all fun
          | ⟨.setspecific, (e : Int)⟩ => e = 0
          | _ => true) = true) (by decide +kernel)
    obtain ⟨members, ht⟩ := Delivery.finished_done hfinished
    obtain ⟨-, -, -, -, hreturned⟩ := howned hplay
    refine ⟨m, members, hplay, ht, hlive, (hreturned 2 members ht).resolve_left ?_⟩
    rintro ⟨e, hne, he⟩
    exact hne (of_decide_eq_true (List.all_eq_true.mp hnamed _ he))

end

end Spey.Daemon
