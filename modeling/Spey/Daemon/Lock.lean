import Spey.Daemon.Kernel

/-!
# The CPU lock

Every part of a thread's code keeps the discipline of the lock: `At kind held x` says so
of a part that begins with the lock or without it and ends as it began. Where a
part that gives up the lock is left by an exception, the lock has been taken again.
-/

namespace Spey.Daemon

open Interaction Interaction.Action Mutex

/-- The host is the same, and the lock is held or not. -/
def Same (host : Host) (held : Bool) (m : Members) (p : Bool) : Prop := m.host = host ∧ p = held

/-- What leaves a part of the code by an exception: one that it may raise, with everything as
it was, or the end of the observation. -/
def Raised (host : Host) (held : Bool) (raises : Exn → Prop) (e : Exn) (m : Members) (p : Bool) : Prop :=
  e = .unfinished ∨ (raises e ∧ Same host held m p)

/-- The code keeps the discipline, with the lock before and after or without it, and
makes calls of one kind only. -/
def At (kind : Sys → Prop) (held : Bool) (raises : Exn → Prop) {α : Type} (x : SysProc α) : Prop :=
  ∀ host, Keeps ((lock Sys.role).restrict kind) (Same host held) (Raised host held raises) x

/-- What the lock is taken and released by. -/
def Locking (c : Sys) : Prop := Sys.role c = .take ∨ Sys.role c = .release

/-- What the functions of a socket raise. -/
def Fails (e : Exn) : Prop := e = .network ∨ e = .networkTimeout

section
variable {kind : Sys → Prop} {held : Bool} {raises : Exn → Prop} {α β : Type}

theorem at_pure (a : α) : At kind held raises (pure a : SysProc α) := fun _ => keeps_pure a

theorem At.bind {x : SysProc α} {f : α → SysProc β} (hx : At kind held raises x)
    (hf : ∀ a, At kind held raises (f a)) : At kind held raises (x >>= f) :=
  fun host => Keeps.bind (hx host) fun a => hf a host

theorem At.ite {q : Prop} [Decidable q] {x y : SysProc α} (hx : q → At kind held raises x)
    (hy : ¬ q → At kind held raises y) : At kind held raises (if q then x else y) :=
  fun host => Keeps.ite (fun hq => hx hq host) fun hq => hy hq host

theorem at_getState : At kind held raises (getState : SysProc Members) := fun _ => keeps_getState

theorem at_raise {e : Exn} (he : raises e) : At kind held raises (raise e : SysProc α) :=
  fun _ => keeps_raise fun _ _ hs => .inr ⟨he, hs⟩

theorem at_network : At kind held Fails (raise .network : SysProc α) := at_raise (.inl rfl)

theorem at_unfinished : At kind held raises (raise .unfinished : SysProc α) :=
  fun _ => keeps_raise fun _ _ _ => .inl rfl

theorem at_assign (side : Side) (f : Socket → Socket) : At kind held raises (assign side f) :=
  fun _ => keeps_update fun m _ hs => ⟨(m.put_host side _).trans hs.1, hs.2⟩

theorem at_this (side : Side) : At kind held raises (this side) :=
  at_getState.bind fun m => at_pure (m.socket side)

/-- A call that leaves the lock as it is. -/
theorem at_sys {c : Sys} (hallows : (Sys.role c).allows held) (hleads : (Sys.role c).leads held = held)
    (hkind : kind c) : At kind held raises (sys c) := by
  refine fun host => keeps_call fun _ p hs => ?_
  obtain ⟨hhost, rfl⟩ := hs
  exact ⟨⟨hallows, hkind⟩, fun _ _ => ⟨hhost, hleads⟩⟩

/-- A call that is made with the lock only. -/
theorem at_inside {c : Sys} (hrole : Sys.role c = .inside) (hkind : kind c) : At kind true raises (sys c) := by
  refine at_sys ?_ ?_ hkind
  · rw [hrole]
    rfl
  · rw [hrole]
    rfl

theorem at_outside {c : Sys} (hrole : Sys.role c = .outside) (hkind : kind c) : At kind false raises (sys c) := by
  refine at_sys ?_ ?_ hkind
  · rw [hrole]
    rfl
  · rw [hrole]
    rfl

theorem at_free {c : Sys} (hrole : Sys.role c = .free) (hkind : kind c) : At kind held raises (sys c) := by
  refine at_sys ?_ ?_ hkind
  · rw [hrole]
    trivial
  · rw [hrole]
    rfl

/-- The destructor takes the lock again, however the scope is left. -/
theorem At.concurrently {x : SysProc α} (hlocking : ∀ c, Locking c → kind c)
    (hx : At kind false raises x) : At kind true raises (concurrently x) := by
  have htake : kind .takeCPUlock := hlocking _ (.inl rfl)
  have hrelease : kind .releaseCPUlock := hlocking _ (.inr rfl)
  rintro host s p ⟨hhost, rfl⟩
  simp only [Daemon.concurrently, obeys_bind, obeys_call, obeys_handle]
  refine ⟨⟨rfl, hrelease⟩, fun _ _ => obeys_mono (hx host s _ ⟨hhost, rfl⟩) fun r s' p' hr => ?_⟩
  cases r with
  | ok a =>
    obtain ⟨hhost', rfl⟩ := hr
    exact ⟨⟨rfl, htake⟩, fun _ _ => ⟨hhost', rfl⟩⟩
  | error e =>
    rcases hr with rfl | ⟨he, hhost', rfl⟩
    · exact .inl rfl
    · cases e with
      | unfinished => exact .inl rfl
      | _ => exact ⟨⟨rfl, htake⟩, fun _ _ => .inr ⟨he, hhost', rfl⟩⟩

end

/-! ## Socket.cc -/

/-- The calls of the sockets. -/
def Working (c : Sys) : Prop := c.working = true

theorem working_of_locking (c : Sys) (hc : Locking c) : Working c := by
  rcases hc with hrole | hrole <;> cases c <;> first | rfl | cases hrole

section
variable {raises : Exn → Prop} {c : Sys}

theorem work_inside (hrole : Sys.role c = .inside) (hwork : c.working = true) :
    At Working true raises (sys c) := at_inside hrole hwork

theorem work_outside (hrole : Sys.role c = .outside) (hwork : c.working = true) :
    At Working false raises (sys c) := at_outside hrole hwork

theorem work_free {held : Bool} (hrole : Sys.role c = .free) (hwork : c.working = true) :
    At Working held raises (sys c) := at_free hrole hwork

end

namespace Socket

variable {raises : Exn → Prop} (side : Side) (rounds : Nat)

theorem at_freeCertificate : At Working true raises (freeCertificate side) := by
  refine (at_this side).bind fun s => ?_
  cases s._gnutls_certificate_credentials with
  | none => exact at_pure ()
  | some c => exact (work_inside rfl rfl).bind fun _ => at_assign side _

theorem at_freeAnonymous : At Working true raises (freeAnonymous side) := by
  refine (at_this side).bind fun s => ?_
  cases s._gnutls_anonymous_credentials with
  | none => exact at_pure ()
  | some a => exact (work_inside rfl rfl).bind fun _ => at_assign side _

theorem at_deinit : At Working true raises (deinit side) := by
  have hclose : At Working true raises (closeDescriptor side) := by
    refine (at_this side).bind fun s => .ite (fun _ => ?_) fun _ => at_pure ()
    exact (at_this side).bind fun s => (work_inside rfl rfl).bind fun _ => at_assign side _
  have hend : At Working true raises (endTLS side) := by
    refine (at_this side).bind fun s => .ite (fun _ => ?_) fun _ => at_pure ()
    refine (at_this side).bind fun s => (work_inside rfl rfl).bind fun _ => ?_
    exact (at_freeCertificate side).bind fun _ => (at_freeAnonymous side).bind fun _ => at_assign side _
  exact hend.bind fun _ => hclose

theorem at_getname (address : UInt32) : At Working true raises (SocketAddress.getname address) :=
  .ite (fun _ => work_inside rfl rfl) fun _ => at_pure none

theorem at_init (address : SocketAddress) : At Working true Fails (init side address) := by
  refine (at_deinit side).bind fun _ => (work_inside rfl rfl).bind fun fd => (at_assign side _).bind fun _ => ?_
  refine .ite (fun _ => at_network) fun _ => (at_getname _).bind fun _ => ?_
  refine (work_inside rfl rfl).bind fun e => .ite (fun _ => ?_) fun _ => at_pure ()
  exact (work_inside rfl rfl).bind fun _ => (at_assign side _).bind fun _ => at_network

theorem at_recv : At Working true Fails (recv side) :=
  (at_this side).bind fun _ => .ite (fun _ => work_inside rfl rfl) fun _ => work_inside rfl rfl

theorem at_pollRound (timeout : UInt64) : At Working false Fails (pollRound side timeout) := by
  refine (work_free rfl rfl).bind fun now => .ite (fun _ => at_raise (.inr rfl)) fun _ => ?_
  refine (at_this side).bind fun s => (work_outside rfl rfl).bind fun n => ?_
  exact .ite (fun _ => at_pure _) fun _ => at_pure _

theorem at_read (timeoutdelta : Int32) : At Working true Fails (read side rounds timeoutdelta) := by
  have hpending : At Working true Fails (pending side) :=
    (at_this side).bind fun _ => .ite (fun _ => work_inside rfl rfl) fun _ => at_pure _
  refine hpending.bind fun _ => .ite (fun _ => at_recv side) fun _ => ?_
  refine (at_this side).bind fun s => (work_free rfl rfl).bind fun now => ?_
  refine At.bind (At.concurrently working_of_locking ?_) fun _ => at_recv side
  exact fun host => (at_pollRound side _ host).repeatUntil (fun _ _ _ => .inl rfl) rounds

theorem at_write (buffer : Bytes) : At Working true Fails (write side buffer) :=
  At.concurrently working_of_locking ((at_this side).bind fun _ => .ite (fun _ => work_outside rfl rfl) fun _ => work_outside rfl rfl)

theorem at_readline : At Working true Fails (readline side rounds) := by
  have hloop : ∀ n s, At Working true Fails (readlineLoop side rounds s n) := by
    intro n
    induction n with
    | zero => exact fun _ => at_unfinished
    | succ n ih =>
      intro s
      refine (at_read side rounds _).bind fun c => ?_
      cases c with
      | none => exact at_network
      | some c =>
        dsimp only
        split_ifs
        · exact ih s
        · exact at_pure s
        · exact ih _
  exact hloop rounds _

theorem at_writeline (l : Bytes) : At Working true Fails (writeline side l) :=
  (at_write side _).bind fun _ => .ite (fun _ => at_network) fun _ => at_pure ()

theorem at_get_dh_params : At Working true raises get_dh_params := by
  refine (work_inside rfl rfl).bind fun statics => (work_inside rfl rfl).bind fun now => ?_
  refine .ite (fun _ => at_pure _) fun _ => (work_inside rfl rfl).bind fun _ => ?_
  refine (work_inside rfl rfl).bind fun _ => (work_inside rfl rfl).bind fun dh => ?_
  exact (work_inside rfl rfl).bind fun _ => at_pure dh

theorem at_makesecure : At Working true Fails (makesecure side) := by
  have hanonymous : ∀ session, At Working true Fails (makeAnonymous side session) := fun session => by
    refine (work_inside rfl rfl).bind fun anonymous => (at_assign side _).bind fun _ => ?_
    cases anonymous with
    | none => exact at_pure ()
    | some a => exact at_get_dh_params.bind fun dh => (work_inside rfl rfl).bind fun _ => work_inside rfl rfl
  have hcertify : ∀ session c, At Working true Fails (certify session c) := fun session c => by
    refine at_get_dh_params.bind fun dh => (work_inside rfl rfl).bind fun _ => ?_
    refine at_getState.bind fun m => (work_inside rfl rfl).bind fun e => .ite (fun _ => at_network) fun _ => ?_
    refine (work_inside rfl rfl).bind fun e => .ite (fun _ => at_network) fun _ => ?_
    exact (work_inside rfl rfl).bind fun i => (work_inside rfl rfl).bind fun _ => at_pure _
  have hcertificate : ∀ session, At Working true Fails (makeCertificate side session) := fun session => by
    refine (work_inside rfl rfl).bind fun certificate => (at_assign side _).bind fun _ => ?_
    cases certificate with
    | none => exact at_pure false
    | some c => exact hcertify session c
  have hhandshake : ∀ session, At Working true Fails (handshake side session) := fun session => by
    refine (at_this side).bind fun s => At.bind (At.concurrently working_of_locking (work_outside rfl rfl)) fun e => ?_
    exact .ite (fun _ => at_network) fun _ => at_pure ()
  have hsecure : ∀ session, At Working true Fails (secure side session) := fun session => by
    refine (at_assign side _).bind fun _ => (hanonymous session).bind fun _ => (hcertificate session).bind fun valid => ?_
    have hprioritise : At Working true Fails (prioritise session valid) :=
      .ite (fun _ => at_pure ()) fun _ => work_inside rfl rfl
    exact hprioritise.bind fun _ => (at_assign side _).bind fun _ => hhandshake session
  exact (work_inside rfl rfl).bind fun made => hsecure made.2

end Socket

theorem at_set (side : Side) (rounds : Nat) : At Working true Fails (SMTPResponse.set side rounds) := by
  have hcontinuation : ∀ n a b c, At Working true Fails (SMTPResponse.setContinuation side rounds a b c n) := by
    intro n a b c
    induction n with
    | zero => exact at_unfinished
    | succ n ih =>
      refine (Socket.at_readline side rounds).bind fun l => ?_
      split
      · refine .ite (fun _ => at_network) fun _ => ?_
        exact .ite (fun _ => ih.bind fun _ => at_pure _) fun _ => at_pure _
      · exact at_network
  refine (Socket.at_readline side rounds).bind fun l => ?_
  split
  · split
    · exact at_network
    · refine .ite (fun _ => ?_) fun _ => .ite (fun _ => at_pure _) fun _ => at_network
      split
      · exact (hcontinuation _ _ _ _).bind fun _ => at_pure _
      · exact at_network
  · exact at_network

/-! ## The calls of the threads -/

/-- Nothing is raised, but for the end of the observation. -/
abbrev Settled (kind : Sys → Prop) {α : Type} (x : SysProc α) : Prop := At kind true (fun _ => False) x

/-- What the network raises is caught. -/
theorem settled_caught {kind : Sys → Prop} {α : Type} {x : SysProc α} (hx : At kind true Fails x) :
    Settled kind (caught x) := by
  have hvalue : At kind true Fails (do return Except.ok (← x) : SysProc (Except ReadFailure α)) :=
    hx.bind fun a => at_pure (Except.ok a)
  refine fun host => Keeps.handle (hvalue host) (fun e s p hnone hraised => ?_) fun e y hsome => ?_
  · rcases hraised with rfl | ⟨rfl | rfl, -⟩
    · exact .inl rfl
    · cases hnone
    · cases hnone
  · cases e with
    | network =>
      cases hsome
      exact ⟨fun _ _ hr => (hr.resolve_left nofun).2, at_pure _ host⟩
    | networkTimeout =>
      cases hsome
      exact ⟨fun _ _ hr => (hr.resolve_left nofun).2, at_pure _ host⟩
    | _ => cases hsome

theorem settled_attempt {kind : Sys → Prop} {α : Type} {x : SysProc α} (hx : At kind true Fails x) :
    Settled kind (attempt x) := (settled_caught hx).bind fun _ => at_pure _

/-- What `greylist` calls: the clock, and its statements. -/
def Greylisting (c : Sys) : Prop := c = .gettimeofday ∨ ∃ st, c = .greylist st

/-- `greylist` does not give up the lock between its statements. -/
theorem settled_greylist (sender : UInt32) (fromaddress toaddress : Bytes) :
    Settled Greylisting (greylist sender fromaddress toaddress) := by
  refine (at_free rfl (.inl rfl)).bind fun tv => at_getState.bind fun m => At.bind ?_ fun r => at_pure _
  exact fun host => Program.keeps_implement (fun st => at_inside rfl (.inr ⟨st, rfl⟩) host) _

/-- Every other call is made of calls of the sockets. -/
theorem settled_carry (rounds : Nat) {c : Call} (hc : ∀ sender fromaddress toaddress,
    c ≠ .greylist sender fromaddress toaddress) : Settled Working (carry rounds c) := by
  cases c with
  | outReadline _ => exact settled_caught (Socket.at_readline .outside rounds)
  | outRead _ => exact settled_attempt (Socket.at_read .outside rounds _)
  | outReply _ r => exact settled_attempt (Socket.at_writeline .outside _)
  | makesecure => exact settled_attempt (Socket.at_makesecure .outside)
  | connect =>
    refine settled_attempt (at_getState.bind fun m => (Socket.at_init .inside _).bind fun _ => ?_)
    exact at_getState.bind fun m => at_assign .inside _
  | deinit => exact Socket.at_deinit .inside
  | readReply => exact settled_caught (at_set .inside rounds)
  | inWriteline item => exact settled_attempt (Socket.at_writeline .inside _)
  | gethostbyname _ => exact At.concurrently working_of_locking ((work_outside rfl rfl).bind fun _ => at_pure _)
  | gethostbyaddr => exact at_getState.bind fun m => work_inside rfl rfl
  | testtrusted _ => exact (work_inside rfl rfl).bind fun _ => at_pure _
  | testacceptance _ => exact (work_inside rfl rfl).bind fun _ => at_pure _
  | greylist sender fromaddress toaddress => exact absurd rfl (hc sender fromaddress toaddress)
  | users _ _ => exact (work_inside rfl rfl).bind fun _ => at_pure _
  | count _ => exact work_inside rfl rfl
  | verifydomain _ => exact at_pure ()
  | verifyaddress _ => exact at_pure ()

theorem settled_destroy (rounds : Nat) : Settled Working (perform rounds .destroy) :=
  (Socket.at_deinit .outside).bind fun _ => Socket.at_deinit .inside

/-- How a call of a thread stands to the lock. -/
def Task.role : Task → Access
  | .session _ | .destroy => .inside
  | .server .setspecific => .free
  | .server _ => .inside
  | .sys c => Sys.role c

/-- Every call but a statement of greylist, which only the sessions issue. -/
def Task.regular : Task → Bool
  | .sys (.greylist _) => false
  | _ => true

/-- The discipline for the threads. -/
def discipline : Contract Task.Ans Bool := (lock Task.role).restrict fun e => e.regular = true

/-- Every call of a thread is carried out within the discipline. -/
theorem perform_obeys (rounds : Nat) (e : Task) (s : Members) (p : Bool) (hallows : (Task.role e).allows p) :
    (perform rounds e).obeys (lock Sys.role)
      (fun r _ p' => r = .error .unfinished ∨ ((∃ x, r = .ok x) ∧ p' = (Task.role e).leads p)) s p := by
  have hsettled : ∀ {kind : Sys → Prop} {α : Type} {x : SysProc α}, Settled kind x → p = true →
      x.obeys (lock Sys.role) (fun r _ p' => r = .error .unfinished ∨ ((∃ a, r = .ok a) ∧ p' = p)) s p := by
    intro kind α x hx hp
    refine obeys_mono (obeys_of_restrict (hx s.host s p ⟨rfl, hp⟩)) fun r s' p' hr => ?_
    cases r with
    | ok a => exact .inr ⟨⟨a, rfl⟩, hr.2.trans hp.symm⟩
    | error y => exact .inl (congrArg Except.error (hr.resolve_right fun hno => hno.1))
  have hsys : ∀ c : Sys, (Sys.role c).allows p → (sys c).obeys (lock Sys.role) (fun r _ p' =>
      r = .error .unfinished ∨ ((∃ x, r = .ok x) ∧ p' = (Sys.role c).leads p)) s p :=
    fun c hc => ⟨hc, fun x _ => .inr ⟨⟨x, rfl⟩, rfl⟩⟩
  cases e with
  | session c =>
    by_cases hc : ∃ sender fromaddress toaddress, c = .greylist sender fromaddress toaddress
    · obtain ⟨sender, fromaddress, toaddress, rfl⟩ := hc
      exact hsettled (settled_greylist sender fromaddress toaddress) hallows
    · exact hsettled (settled_carry rounds fun s f t he => hc ⟨s, f, t, he⟩) hallows
  | server c =>
    cases c with
    | accept fd => exact hsettled (At.concurrently working_of_locking (work_outside rfl rfl)) hallows
    | _ => exact hsys _ hallows
  | destroy => exact hsettled (settled_destroy rounds) hallows
  | sys c => exact hsys c hallows

/-! ## The threads -/

/-- How a thread ends: it has given up the lock when it returns. -/
def Ends (r : Except Exn End × Members) (held : Bool) : Prop :=
  (r.1 = .ok .returned → held = false) ∧ ∀ e, r.1 = .error e → e = .unfinished

theorem obeys_perform {rounds : Nat} {thread : Thread} {p : Bool} (m : Members)
    (hthread : thread.Obeys discipline (fun r p => r = .returned → p = false) p) :
    (thread.implement (perform rounds) m).Obeys (lock Sys.role) Ends p := by
  have hcalls : (thread.implement (perform rounds)).obeys (lock Sys.role) (fun r s p => Ends (r, s) p) m p := by
    refine Program.obeys_implement (I := fun _ p u => p = u) (fun e s p u hp hallows => ?_)
      (fun a s p u hp ha => ?_) rfl hthread.of_restrict
    · subst hp
      refine obeys_mono (perform_obeys rounds e s p hallows) fun r s' p' hr => ?_
      rcases hr with rfl | ⟨⟨x, rfl⟩, hp'⟩
      · exact ⟨nofun, fun e he => (Except.error.inj he).symm⟩
      · exact ⟨trivial, hp'⟩
    · subst hp
      exact ⟨fun hr => ha (Except.ok.inj hr), nofun⟩
  exact hcalls

end Spey.Daemon
