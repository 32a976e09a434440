import Spey.Daemon.Kernel
import Spey.Daemon.Parts

/-!
# What a session's thread owns

Every part of a session's code keeps the contract of ownership. Most parts leave
everything as it is, and use what is owned; the sockets bring something new or give
something back where they are opened, secured and closed. The thread owns what its two
sockets refer to.
-/

namespace Spey.Daemon

open Interaction Interaction.Action

/-- What a thread owns, and what it has called. -/
abbrev Owned := (Resource → Prop) × History Sys.Ans

/-! ## Parts that bring and end nothing -/

/-- The code uses what is owned; it leaves that and the members as they are. -/
abbrev Stays (m : Members) (owned : Resource → Prop) {α : Type} (x : SysProc α) : Prop :=
  Rests handling.own m (fun s => s.1 = owned) x

/-- A call that brings and ends nothing. -/
def Sys.Idle (c : Sys) : Prop :=
  ∀ x, Sys.gains ⟨c, x⟩ = none ∧ Sys.closes ⟨c, x⟩ = none ∧ Sys.hands ⟨c, x⟩ = none

theorem keeps_idle {e : Event Sys.Ans} {owned : Resource → Prop}
    (he : Sys.gains e = none ∧ Sys.closes e = none ∧ Sys.hands e = none) : handling.keeps owned e = owned := by
  obtain ⟨hgains, hcloses, hhands⟩ := he
  funext r
  show ((owned r ∧ Sys.closes e ≠ some r ∧ Sys.hands e ≠ some r) ∨ Sys.gains e = some r) = owned r
  rw [hgains, hcloses, hhands]
  exact propext ⟨fun hr => hr.elim And.left nofun, fun hr => .inl ⟨hr, nofun, nofun⟩⟩

section
variable {m : Members} {owned : Resource → Prop} {α β : Type}

theorem stays_sys {c : Sys} (hc : c.Idle) (huses : ∀ r ∈ c.uses, owned r) : Stays m owned (sys c) := by
  refine rests_sys fun s hs => ⟨fun r hr => hs ▸ huses r hr, fun x _ => ?_⟩
  show handling.keeps s.1 ⟨c, x⟩ = owned
  rw [keeps_idle (hc x), hs]

theorem Stays.concurrently {x : SysProc α} (hx : Stays m owned x) : Stays m owned (concurrently x) :=
  Rests.concurrently (stays_sys (fun _ => ⟨rfl, rfl, rfl⟩) nofun) (stays_sys (fun _ => ⟨rfl, rfl, rfl⟩) nofun) hx

end

/-- The descriptor of the socket is owned, and so is its session. -/
structure Usable (m : Members) (owned : Resource → Prop) (side : Side) : Prop where
  descriptor : owned (.descriptor (m.socket side)._fd)
  session : (m.socket side)._issecure = true → owned (.session (m.socket side)._gnutls_session)

section
variable {m : Members} {owned : Resource → Prop} {side : Side}

namespace Socket

theorem stays_pending (husable : Usable m owned side) : Stays m owned (pending side) := by
  refine .this (.ite (fun hsecure => stays_sys (fun _ => ⟨rfl, rfl, rfl⟩) fun r hr => ?_) fun _ => rests_pure _)
  obtain rfl := List.mem_singleton.mp hr
  exact husable.session hsecure

theorem stays_recv (husable : Usable m owned side) : Stays m owned (recv side) := by
  refine .this (.ite (fun hsecure => stays_sys (fun _ => ⟨rfl, rfl, rfl⟩) fun r hr => ?_) fun _ =>
    stays_sys (fun _ => ⟨rfl, rfl, rfl⟩) fun r hr => ?_)
  · rcases List.mem_pair.mp hr with rfl | rfl
    · exact husable.session hsecure
    · exact husable.descriptor
  · obtain rfl := List.mem_singleton.mp hr
    exact husable.descriptor

theorem polls (husable : Usable m owned side) : Polls handling.own m (fun s => s.1 = owned) side where
  take := stays_sys (fun _ => ⟨rfl, rfl, rfl⟩) nofun
  release := stays_sys (fun _ => ⟨rfl, rfl, rfl⟩) nofun
  clock := stays_sys (fun _ => ⟨rfl, rfl, rfl⟩) nofun
  poll _ := stays_sys (fun _ => ⟨rfl, rfl, rfl⟩) fun _ hr => List.mem_singleton.mp hr ▸ husable.descriptor
  pending := stays_pending husable

theorem stays_read (husable : Usable m owned side) (rounds : Nat) (timeoutdelta : Int32) :
    Stays m owned (read side rounds timeoutdelta) := by
  intro m' s hs
  obtain ⟨rfl, hs⟩ := hs
  refine (polls husable).read hs (fun e s hs => ⟨rfl, hs⟩) (fun s hs => ?_) rounds timeoutdelta
  exact stays_recv husable m' s ⟨rfl, hs⟩

theorem stays_write (husable : Usable m owned side) (buffer : Bytes) : Stays m owned (write side buffer) := by
  refine Stays.concurrently (.this (.ite (fun hsecure => stays_sys (fun _ => ⟨rfl, rfl, rfl⟩) fun r hr => ?_)
    fun _ => stays_sys (fun _ => ⟨rfl, rfl, rfl⟩) fun r hr => ?_))
  · rcases List.mem_pair.mp hr with rfl | rfl
    · exact husable.session hsecure
    · exact husable.descriptor
  · obtain rfl := List.mem_singleton.mp hr
    exact husable.descriptor

theorem stays_readline (husable : Usable m owned side) (rounds : Nat) :
    Stays m owned (readline side rounds) := by
  have hloop : ∀ n s, Stays m owned (readlineLoop side rounds s n) := by
    intro n
    induction n with
    | zero => exact fun _ => rests_raise _
    | succ n ih =>
      intro s
      refine (stays_read husable rounds _).bind fun c => ?_
      cases c with
      | none => exact rests_raise _
      | some c =>
        dsimp only
        split_ifs
        · exact ih s
        · exact rests_pure s
        · exact ih _
  exact hloop rounds _

theorem stays_writeline (husable : Usable m owned side) (l : Bytes) : Stays m owned (writeline side l) :=
  (stays_write husable _).bind fun _ => .ite (fun _ => rests_raise _) fun _ => rests_pure ()

end Socket

theorem stays_set (husable : Usable m owned side) (rounds : Nat) :
    Stays m owned (SMTPResponse.set side rounds) := by
  have hcontinuation : ∀ n a b c, Stays m owned (SMTPResponse.setContinuation side rounds a b c n) := by
    intro n a b c
    induction n with
    | zero => exact rests_raise _
    | succ n ih =>
      refine (Socket.stays_readline husable rounds).bind fun l => ?_
      split
      · refine .ite (fun _ => rests_raise _) fun _ => ?_
        exact .ite (fun _ => ih.bind fun _ => rests_pure _) fun _ => rests_pure _
      · exact rests_raise _
  refine (Socket.stays_readline husable rounds).bind fun l => ?_
  split
  · split
    · exact rests_raise _
    · refine .ite (fun _ => ?_) fun _ => .ite (fun _ => rests_pure _) fun _ => rests_raise _
      split
      · exact (hcontinuation _ _ _ _).bind fun _ => rests_pure _
      · exact rests_raise _
  · exact rests_raise _

theorem stays_greylist (sender : UInt32) (fromaddress toaddress : Bytes) :
    Stays m owned (greylist sender fromaddress toaddress) := by
  refine Rests.bind (stays_sys (fun _ => ⟨rfl, rfl, rfl⟩) nofun) fun tv => .getState (Rests.bind ?_ fun _ => rests_pure _)
  exact Program.keeps_implement (fun st => stays_sys (fun _ => ⟨rfl, rfl, rfl⟩) nofun) _

end

/-! ## The sockets of a session -/

/-- The thread of a session owns what its sockets refer to, and no other descriptor. -/
structure Sockets (m : Members) (owned : Resource → Prop) : Prop where
  outside : owned (.descriptor m.outside._fd)
  session : m.outside._issecure = true → owned (.session m.outside._gnutls_session)
  anonymous : m.outside._issecure = true →
    ∀ a, m.outside._gnutls_anonymous_credentials = some a → owned (.anonymous a)
  certificate : m.outside._issecure = true →
    ∀ c, m.outside._gnutls_certificate_credentials = some c → owned (.certificate c)
  inside : m.inside._fd ≠ -1 →
    owned (.descriptor m.inside._fd) ∧ m.inside._fd ≠ m.outside._fd
  plain : m.inside._issecure = false
  known : ∀ fd, owned (.descriptor fd) → fd = -1 ∨ fd = m.outside._fd ∨ fd = m.inside._fd

section
variable {e : Event Sys.Ans} {r r' : Resource} {owned : Resource → Prop}

/-- What is owned after something is given back. -/
theorem keeps_closed (hgains : Sys.gains e = none) (hcloses : Sys.closes e = some r')
    (hhands : Sys.hands e = none) : handling.keeps owned e r ↔ owned r ∧ r ≠ r' := by
  show (owned r ∧ Sys.closes e ≠ some r ∧ Sys.hands e ≠ some r) ∨ Sys.gains e = some r ↔ _
  rw [hgains, hcloses, hhands]
  constructor
  · intro hr
    obtain ⟨hr, hne, -⟩ := hr.resolve_right nofun
    exact ⟨hr, fun he => hne (congrArg some he.symm)⟩
  · rintro ⟨hr, hne⟩
    exact .inl ⟨hr, fun he => hne (Option.some.inj he).symm, nofun⟩

/-- No descriptor is given back with something else. -/
theorem descriptor_kept {fd : Int} (hgains : Sys.gains e = none) (hcloses : Sys.closes e = some r')
    (hhands : Sys.hands e = none) (hr' : .descriptor fd ≠ r') :
    handling.keeps owned e (.descriptor fd) ↔ owned (.descriptor fd) :=
  (keeps_closed hgains hcloses hhands).trans (and_iff_left hr')

/-- What is owned after something new has come. -/
theorem keeps_gained (hgains : Sys.gains e = some r') (hcloses : Sys.closes e = none)
    (hhands : Sys.hands e = none) : handling.keeps owned e r ↔ owned r ∨ r = r' := by
  show (owned r ∧ Sys.closes e ≠ some r ∧ Sys.hands e ≠ some r) ∨ Sys.gains e = some r ↔ _
  rw [hgains, hcloses, hhands]
  constructor
  · rintro (⟨hr, -, -⟩ | he)
    · exact .inl hr
    · exact .inr (Option.some.inj he).symm
  · rintro (hr | rfl)
    · exact .inl ⟨hr, nofun, nofun⟩
    · exact .inr rfl

end

section
variable {m : Members} {s : Owned}

theorem Sockets.usable_outside (hs : Sockets m s.1) : Usable m s.1 .outside := ⟨hs.outside, hs.session⟩

theorem Sockets.usable_inside (hs : Sockets m s.1) (hfd : m.inside._fd ≠ -1) : Usable m s.1 .inside where
  descriptor := (hs.inside hfd).1
  session hsecure := absurd hsecure (by rw [Members.socket, hs.plain]; exact Bool.false_ne_true)

/-- A part that stays leaves the sockets as they are. -/
theorem Sockets.stays {α : Type} {x : SysProc α} (hs : Sockets m s.1) (hx : Stays m s.1 x) :
    x.obeys handling.own (fun _ m' s' => Sockets m' s'.1 ∧ m' = m) m s := by
  refine obeys_mono (hx.always rfl) fun r m' s' hr => ?_
  obtain ⟨rfl, hr⟩ := hr
  exact ⟨hr ▸ hs, rfl⟩

namespace Socket

theorem obeys_assign {β : Type} {side : Side} {f : Socket → Socket} {g : Unit → SysProc β}
    {Q : Outcome Exn Members β Owned} : (assign side f >>= g).obeys handling.own Q m s ↔
      (g ()).obeys handling.own Q (m.put side (f (m.socket side))) s := Iff.rfl

theorem obeys_endTLS_plain {side : Side} {Q : Outcome Exn Members Unit Owned}
    (hplain : (m.socket side)._issecure = false) (hQ : Q (.ok ()) m s) :
    (endTLS side).obeys handling.own Q m s := by
  simp only [endTLS, this, obeys_bind, obeys_getState, obeys_pure, obeys_ite, hplain, Bool.false_eq_true,
    if_false]
  exact hQ

theorem obeys_endTLS_secure {side : Side} {Q : Outcome Exn Members Unit Owned}
    (hsecure : (m.socket side)._issecure = true) (howned : s.1 (.session (m.socket side)._gnutls_session))
    (hQ : obeys handling.own (do
        freeCertificate side
        freeAnonymous side
        assign side fun s => { s with _issecure := false }) Q m
      (handling.own.after s ⟨.gnutls_deinit (m.socket side)._gnutls_session, ()⟩)) :
    (endTLS side).obeys handling.own Q m s := by
  simp only [endTLS, this, obeys_bind, obeys_getState, obeys_pure, obeys_ite, obeys_call, hsecure, if_true]
  simp only [obeys_bind] at hQ
  exact ⟨fun r hr => List.mem_singleton.mp hr ▸ howned, fun _ _ => hQ⟩

theorem obeys_closeDescriptor {side : Side} {Q : Outcome Exn Members Unit Owned}
    (howned : (m.socket side)._fd ≠ -1 → s.1 (.descriptor (m.socket side)._fd))
    (hclosed : (m.socket side)._fd = -1 → Q (.ok ()) m s)
    (hclose : (m.socket side)._fd ≠ -1 → Q (.ok ()) (m.put side { m.socket side with _fd := -1 })
      (handling.own.after s ⟨.close (m.socket side)._fd, ()⟩)) :
    (closeDescriptor side).obeys handling.own Q m s := by
  simp only [closeDescriptor, this, assign, obeys_bind, obeys_getState, obeys_pure, obeys_ite, obeys_call,
    obeys_update]
  split_ifs with hfd
  · exact ⟨fun r hr => List.mem_singleton.mp hr ▸ howned hfd, fun _ _ => hclose hfd⟩
  · exact hclosed (not_not.mp hfd)

theorem close_inside (hs : Sockets m s.1) (hfd : m.inside._fd ≠ -1) :
    Sockets (m.put .inside { m.inside with _fd := -1 }) (handling.keeps s.1 ⟨.close m.inside._fd, ()⟩) := by
  have hne := (hs.inside hfd).2
  have hkeeps : ∀ r, handling.keeps s.1 ⟨.close m.inside._fd, ()⟩ r ↔ s.1 r ∧ r ≠ .descriptor m.inside._fd :=
    fun r => keeps_closed rfl rfl rfl
  exact {
    outside := (hkeeps _).mpr ⟨hs.outside, fun he => hne (Resource.descriptor.inj he).symm⟩
    session := fun hsecure => (hkeeps _).mpr ⟨hs.session hsecure, nofun⟩
    anonymous := fun hsecure a ha => (hkeeps _).mpr ⟨hs.anonymous hsecure a ha, nofun⟩
    certificate := fun hsecure c hc => (hkeeps _).mpr ⟨hs.certificate hsecure c hc, nofun⟩
    inside := fun h => absurd rfl h
    plain := hs.plain
    known := fun fd hr => by
      obtain ⟨hr, hother⟩ := (hkeeps _).mp hr
      rcases hs.known fd hr with h | h | h
      · exact .inl h
      · exact .inr (.inl h)
      · exact absurd (congrArg Resource.descriptor h) hother }

/-- The inside socket is closed. -/
theorem deinit_inside (hs : Sockets m s.1) :
    (deinit .inside).obeys handling.own
      (fun r m' s' => r = .ok () ∧ Sockets m' s'.1 ∧ m'.inside._fd = -1) m s := by
  rw [deinit, obeys_bind]
  exact obeys_endTLS_plain hs.plain (obeys_closeDescriptor (fun hfd => (hs.inside hfd).1)
    (fun hfd => ⟨rfl, hs, hfd⟩) fun hfd => ⟨rfl, close_inside hs hfd, rfl⟩)

theorem obeys_freeCertificate {side : Side} {Q : Outcome Exn Members Unit Owned}
    (hnone : (m.socket side)._gnutls_certificate_credentials = none → Q (.ok ()) m s)
    (hsome : ∀ c, (m.socket side)._gnutls_certificate_credentials = some c → s.1 (.certificate c) ∧
      Q (.ok ()) (m.put side { m.socket side with _gnutls_certificate_credentials := none })
        (handling.own.after s ⟨.gnutls_certificate_free_credentials c, ()⟩)) :
    (freeCertificate side).obeys handling.own Q m s := by
  simp only [freeCertificate, this, obeys_bind, obeys_getState, obeys_pure]
  split
  · next c hc =>
    obtain ⟨howned, hQ⟩ := hsome c hc
    exact ⟨fun r hr => List.mem_singleton.mp hr ▸ howned, fun _ _ => hQ⟩
  · next hc => exact hnone hc

theorem obeys_freeAnonymous {side : Side} {Q : Outcome Exn Members Unit Owned}
    (hnone : (m.socket side)._gnutls_anonymous_credentials = none → Q (.ok ()) m s)
    (hsome : ∀ a, (m.socket side)._gnutls_anonymous_credentials = some a → s.1 (.anonymous a) ∧
      Q (.ok ()) (m.put side { m.socket side with _gnutls_anonymous_credentials := none })
        (handling.own.after s ⟨.gnutls_anon_free_server_credentials a, ()⟩)) :
    (freeAnonymous side).obeys handling.own Q m s := by
  simp only [freeAnonymous, this, obeys_bind, obeys_getState, obeys_pure]
  split
  · next a ha =>
    obtain ⟨howned, hQ⟩ := hsome a ha
    exact ⟨fun r hr => List.mem_singleton.mp hr ▸ howned, fun _ _ => hQ⟩
  · next ha => exact hnone ha

/-- What GNUTLS has is given back, and nothing else. -/
theorem endTLS_outside (hs : Sockets m s.1) :
    (endTLS .outside).obeys handling.own (fun r m' s' => r = .ok () ∧ m'.inside = m.inside ∧
      m'.outside._fd = m.outside._fd ∧ ∀ fd, s'.1 (.descriptor fd) ↔ s.1 (.descriptor fd)) m s := by
  by_cases hsecure : m.outside._issecure = true
  · refine obeys_endTLS_secure hsecure (hs.session hsecure) ?_
    have hended : ∀ r, handling.keeps s.1 ⟨.gnutls_deinit m.outside._gnutls_session, ()⟩ r ↔
        s.1 r ∧ r ≠ .session m.outside._gnutls_session := fun r => keeps_closed rfl rfl rfl
    have hsame := fun fd => (hended (.descriptor fd)).trans (and_iff_left nofun)
    have hanonymous : ∀ a, m.outside._gnutls_anonymous_credentials = some a →
        handling.keeps s.1 ⟨.gnutls_deinit m.outside._gnutls_session, ()⟩ (.anonymous a) :=
      fun a ha => (hended _).mpr ⟨hs.anonymous hsecure a ha, nofun⟩
    have hrest : ∀ (m' : Members) (s' : Owned), m'.inside = m.inside → m'.outside._fd = m.outside._fd →
        (∀ a, m'.outside._gnutls_anonymous_credentials = some a → s'.1 (.anonymous a)) →
        (∀ fd, s'.1 (.descriptor fd) ↔ s.1 (.descriptor fd)) →
        obeys handling.own (do
          freeAnonymous .outside
          assign .outside fun s => { s with _issecure := false }) (fun r m' s' => r = .ok () ∧ m'.inside = m.inside ∧
            m'.outside._fd = m.outside._fd ∧ ∀ fd, s'.1 (.descriptor fd) ↔ s.1 (.descriptor fd)) m' s' := by
      intro m' s' hinside hfd howned hkept
      rw [obeys_bind]
      refine obeys_freeAnonymous (fun _ => ⟨rfl, hinside, hfd, hkept⟩) fun a ha =>
        ⟨howned a ha, rfl, hinside, hfd, fun fd => ?_⟩
      exact (descriptor_kept rfl rfl rfl (by exact nofun)).trans (hkept fd)
    rw [obeys_bind]
    refine obeys_freeCertificate (fun _ => hrest m _ rfl rfl hanonymous hsame) fun c hc =>
      ⟨(hended _).mpr ⟨hs.certificate hsecure c hc, nofun⟩, hrest _ _ rfl rfl (fun a ha => ?_) fun fd => ?_⟩
    · exact (keeps_closed rfl rfl rfl).mpr ⟨hanonymous a ha, nofun⟩
    · exact (descriptor_kept rfl rfl rfl (by exact nofun)).trans (hsame fd)
  · exact obeys_endTLS_plain (eq_false_of_ne_true hsecure) ⟨rfl, rfl, rfl, fun _ => Iff.rfl⟩

/-- `delete threadlet`: no descriptor is left. -/
theorem obeys_destroy (rounds : Nat) (hs : Sockets m s.1) :
    (perform rounds .destroy).obeys handling.own
      (fun r _ s' => r = .ok () ∧ ∀ fd, s'.1 (.descriptor fd) → fd = -1) m s := by
  have hinside : ∀ m' (s' : Owned), m'.inside = m.inside →
      (∀ fd, s'.1 (.descriptor fd) → fd = -1 ∨ fd = m.inside._fd) →
      (m.inside._fd ≠ -1 → s'.1 (.descriptor m.inside._fd)) →
      (deinit .inside).obeys handling.own
        (fun r _ s' => r = .ok () ∧ ∀ fd, s'.1 (.descriptor fd) → fd = -1) m' s' := by
    intro m' s' hm' hknown howned
    have hsocket : m'.socket .inside = m.inside := hm'
    rw [deinit, obeys_bind]
    refine obeys_endTLS_plain (by rw [hsocket]; exact hs.plain) (obeys_closeDescriptor ?_ ?_ ?_)
    · rw [hsocket]
      exact howned
    · rw [hsocket]
      exact fun hfd => ⟨rfl, fun fd hr => (hknown fd hr).elim id fun h => h.trans hfd⟩
    · rw [hsocket]
      refine fun _ => ⟨rfl, fun fd hr => ?_⟩
      obtain ⟨hr, hne⟩ := (keeps_closed rfl rfl rfl).mp hr
      exact (hknown fd hr).resolve_right fun h => hne (congrArg Resource.descriptor h)
  rw [perform, deinit, Action.bind_assoc, obeys_bind]
  refine obeys_mono (endTLS_outside hs) fun r m' s' hr => ?_
  obtain ⟨rfl, hin, hout, hsame⟩ := hr
  dsimp only
  rw [obeys_bind]
  have hsocket : (m'.socket .outside)._fd = m.outside._fd := hout
  refine obeys_closeDescriptor ?_ ?_ ?_
  · rw [hsocket]
    exact fun _ => (hsame _).mpr hs.outside
  · rw [hsocket]
    refine fun hfd => hinside m' s' hin (fun fd hr => ?_) fun hopen => (hsame _).mpr (hs.inside hopen).1
    rcases hs.known fd ((hsame fd).mp hr) with h | h | h
    · exact .inl h
    · exact .inl (h.trans hfd)
    · exact .inr h
  · rw [hsocket]
    refine fun hfd => hinside _ _ hin (fun fd hr => ?_) fun hopen => ?_
    · obtain ⟨hr, hne⟩ := (keeps_closed rfl rfl rfl).mp hr
      rcases hs.known fd ((hsame fd).mp hr) with h | h | h
      · exact .inl h
      · exact absurd (congrArg Resource.descriptor h) hne
      · exact .inr h
    · obtain ⟨howned, hne⟩ := hs.inside hopen
      exact (keeps_closed rfl rfl rfl).mpr ⟨(hsame _).mpr howned, fun he => hne (Resource.descriptor.inj he)⟩

/-- A descriptor that is new becomes the one of the inside socket. -/
theorem gain_inside {fd : Int} (hs : Sockets m s.1) (hclosed : m.inside._fd = -1)
    (hfresh : fd ≠ -1 → ¬ s.1 (.descriptor fd)) :
    Sockets (m.put .inside { m.inside with _fd := fd }) (handling.keeps s.1 ⟨.socket, fd⟩) := by
  by_cases hfd : fd = -1
  · have hkeeps : handling.keeps s.1 ⟨.socket, fd⟩ = s.1 := keeps_idle ⟨if_pos hfd, rfl, rfl⟩
    rw [hkeeps, hfd, ← hclosed]
    exact hs
  · have hkeeps : ∀ r, handling.keeps s.1 ⟨.socket, fd⟩ r ↔ s.1 r ∨ r = .descriptor fd :=
      fun r => keeps_gained (if_neg hfd) rfl rfl
    have hother : fd ≠ m.outside._fd := fun he => hfresh hfd (he ▸ hs.outside)
    exact {
      outside := (hkeeps _).mpr (.inl hs.outside)
      session := fun hsecure => (hkeeps _).mpr (.inl (hs.session hsecure))
      anonymous := fun hsecure a ha => (hkeeps _).mpr (.inl (hs.anonymous hsecure a ha))
      certificate := fun hsecure c hc => (hkeeps _).mpr (.inl (hs.certificate hsecure c hc))
      inside := fun _ => ⟨(hkeeps _).mpr (.inr rfl), hother⟩
      plain := hs.plain
      known := fun fd' hr => by
        rcases (hkeeps _).mp hr with hr | he
        · rcases hs.known fd' hr with h | h | h
          · exact .inl h
          · exact .inr (.inl h)
          · exact .inl (h.trans hclosed)
        · exact .inr (.inr (Resource.descriptor.inj he)) }

/-- A name that is looked up changes nothing. -/
theorem obeys_getname {address : UInt32} {Q : Outcome Exn Members (Option Bytes) Owned}
    (hQ : ∀ name (s' : Owned), s'.1 = s.1 → Q (.ok name) m s') :
    (SocketAddress.getname address).obeys handling.own Q m s := by
  rw [SocketAddress.getname, obeys_ite]
  split
  · exact ⟨nofun, fun name _ => hQ name _ (keeps_idle ⟨rfl, rfl, rfl⟩)⟩
  · exact hQ none s rfl

theorem init_inside (address : SocketAddress) (hs : Sockets m s.1) :
    (init .inside address).obeys handling.own (fun r m' s' => Sockets m' s'.1 ∧
      match r with
      | .ok _ => m'.inside._fd ≠ -1
      | .error e => e = .network) m s := by
  rw [init, obeys_bind]
  refine obeys_mono (deinit_inside hs) fun r m₁ s₁ hr => ?_
  obtain ⟨rfl, hs₁, hclosed⟩ := hr
  dsimp only
  rw [obeys_bind, obeys_call]
  refine ⟨nofun, fun fd hfd => obeys_assign.mpr ?_⟩
  have hgain := gain_inside hs₁ hclosed fun hne => hfd.2 _ (if_neg hne)
  rw [obeys_ite]
  split_ifs with hnone
  · exact ⟨hgain, rfl⟩
  · rw [obeys_bind]
    refine obeys_getname fun _ s₂ hs₂ => ?_
    have hgain : Sockets (m₁.put .inside { m₁.inside with _fd := fd }) s₂.1 := hs₂ ▸ hgain
    have howned := (hgain.inside hnone).1
    dsimp only
    rw [obeys_bind, obeys_call]
    refine ⟨fun r hr => List.mem_singleton.mp hr ▸ howned, fun i _ => ?_⟩
    dsimp only
    rw [obeys_ite]
    have hidle : handling.own.after s₂ ⟨.connect fd address, i⟩ = (s₂.1, _ :: s₂.2) :=
      congrArg (Prod.mk · _) (keeps_idle ⟨rfl, rfl, rfl⟩)
    rw [hidle]
    split_ifs with hfailed
    · refine ⟨fun r hr => List.mem_singleton.mp hr ▸ howned, fun _ _ => ⟨?_, rfl⟩⟩
      exact close_inside (s := (_, _)) hgain hnone
    · exact ⟨hgain, hnone⟩

/-! ### `makesecure` -/

/-- Nothing is given back, and there is no new descriptor. -/
structure Grows (owned owned' : Resource → Prop) : Prop where
  more : ∀ r, owned r → owned' r
  same : ∀ fd, owned' (.descriptor fd) → owned (.descriptor fd)

theorem grows_keeps {e : Event Sys.Ans} (owned : Resource → Prop)
    (hgains : ∀ fd, Sys.gains e ≠ some (.descriptor fd)) (hcloses : Sys.closes e = none)
    (hhands : Sys.hands e = none) : Grows owned (handling.keeps owned e) where
  more r hr := .inl ⟨hr, by rw [show handling.closes e = none from hcloses]; exact nofun,
    by rw [show handling.hands e = none from hhands]; exact nofun⟩
  same fd hr := hr.elim And.left fun hnew => absurd hnew (hgains fd)

theorem Grows.sockets {owned' : Resource → Prop} (hg : Grows s.1 owned') (hs : Sockets m s.1) :
    Sockets m owned' where
  outside := hg.more _ hs.outside
  session hsecure := hg.more _ (hs.session hsecure)
  anonymous hsecure a ha := hg.more _ (hs.anonymous hsecure a ha)
  certificate hsecure c hc := hg.more _ (hs.certificate hsecure c hc)
  inside hfd := ⟨hg.more _ (hs.inside hfd).1, (hs.inside hfd).2⟩
  plain := hs.plain
  known fd hr := hs.known fd (hg.same fd hr)

/-- In the middle of `makesecure`: what has been made so far is owned. -/
structure Making (inside : Socket) (session : Nat) (made made' : Bool) (m : Members) (owned : Resource → Prop) :
    Prop where
  sockets : Sockets m owned
  inside_eq : m.inside = inside
  owns : owned (.session session)
  current : m.outside._gnutls_session = session
  anonymous : made = true → ∀ a, m.outside._gnutls_anonymous_credentials = some a → owned (.anonymous a)
  certificate : made' = true → ∀ c, m.outside._gnutls_certificate_credentials = some c → owned (.certificate c)

variable {inside : Socket} {session : Nat} {made made' : Bool}

theorem Making.grows {owned' : Resource → Prop} (hm : Making inside session made made' m s.1)
    (hg : Grows s.1 owned') : Making inside session made made' m owned' where
  sockets := hg.sockets hm.sockets
  inside_eq := hm.inside_eq
  owns := hg.more _ hm.owns
  current := hm.current
  anonymous h a ha := hg.more _ (hm.anonymous h a ha)
  certificate h c hc := hg.more _ (hm.certificate h c hc)

theorem Making.stays {α : Type} {x : SysProc α} (hm : Making inside session made made' m s.1)
    (hx : Stays m s.1 x) :
    x.obeys handling.own (fun _ m' s' => m' = m ∧ Making inside session made made' m' s'.1) m s := by
  refine obeys_mono (hx.always rfl) fun r m' s' hr => ?_
  obtain ⟨rfl, howned⟩ := hr
  exact ⟨rfl, howned ▸ hm⟩

theorem Making.setAnonymous {anonymous : Option Nat} (hm : Making inside session made made' m s.1)
    (hnew : ∀ a, anonymous = some a → s.1 (.anonymous a)) : Making inside session true made'
      (m.put .outside { m.outside with _gnutls_anonymous_credentials := anonymous }) s.1 where
  sockets := { hm.sockets with anonymous := fun _ => hnew }
  inside_eq := hm.inside_eq
  owns := hm.owns
  current := hm.current
  anonymous _ := hnew
  certificate := hm.certificate

theorem Making.setCertificate {certificate : Option Nat} (hm : Making inside session made made' m s.1)
    (hnew : ∀ c, certificate = some c → s.1 (.certificate c)) : Making inside session made true
      (m.put .outside { m.outside with _gnutls_certificate_credentials := certificate }) s.1 where
  sockets := { hm.sockets with certificate := fun _ => hnew }
  inside_eq := hm.inside_eq
  owns := hm.owns
  current := hm.current
  anonymous := hm.anonymous
  certificate _ := hnew

theorem stays_get_dh_params {owned : Resource → Prop} : Stays m owned get_dh_params := by
  have hidle : ∀ {c : Sys}, c.Idle → c.uses = [] → Stays m owned (sys c) := fun hidle huses =>
    stays_sys hidle (by rw [huses]; exact nofun)
  refine (hidle (fun _ => ⟨rfl, rfl, rfl⟩) rfl).bind fun statics => (hidle (fun _ => ⟨rfl, rfl, rfl⟩) rfl).bind fun now => ?_
  refine .ite (fun _ => rests_pure _) fun _ => (hidle (fun _ => ⟨rfl, rfl, rfl⟩) rfl).bind fun _ => ?_
  refine (hidle (fun _ => ⟨rfl, rfl, rfl⟩) rfl).bind fun _ => (hidle (fun _ => ⟨rfl, rfl, rfl⟩) rfl).bind fun dh => ?_
  exact (hidle (fun _ => ⟨rfl, rfl, rfl⟩) rfl).bind fun _ => rests_pure dh

theorem makeAnonymous_obeys (hm : Making inside session made made' m s.1) :
    (makeAnonymous .outside session).obeys handling.own
      (fun _ m' s' => Making inside session true made' m' s'.1) m s := by
  rw [makeAnonymous, obeys_bind, obeys_call]
  refine ⟨nofun, fun anonymous _ => obeys_assign.mpr ?_⟩
  let s' := handling.own.after s ⟨.gnutls_anon_allocate_server_credentials, anonymous⟩
  have hgrown : Making inside session made made' m s'.1 :=
    hm.grows (grows_keeps s.1 (fun fd => by cases anonymous <;> exact nofun) rfl rfl)
  have hnew : ∀ a, anonymous = some a → s'.1 (.anonymous a) := by
    rintro a rfl
    exact .inr rfl
  have hmade := hgrown.setAnonymous hnew
  cases anonymous with
  | none => exact hmade
  | some a =>
    refine obeys_mono (hmade.stays (stays_get_dh_params.bind fun dh => ?_)) fun _ _ _ hr => hr.2
    refine Rests.bind (stays_sys (fun _ => ⟨rfl, rfl, rfl⟩) fun r hr => ?_) fun _ =>
      stays_sys (fun _ => ⟨rfl, rfl, rfl⟩) fun r hr => ?_
    · exact List.mem_singleton.mp hr ▸ hnew a rfl
    · rcases List.mem_pair.mp hr with rfl | rfl
      · exact hmade.owns
      · exact hnew a rfl

theorem stays_certify {owned : Resource → Prop} {c : Nat} (hsession : owned (.session session))
    (hc : owned (.certificate c)) : Stays m owned (certify session c) := by
  have hidle : ∀ path, Stays m owned (sys (.access path)) := fun path =>
    stays_sys (fun _ => ⟨rfl, rfl, rfl⟩) nofun
  refine stays_get_dh_params.bind fun dh => Rests.bind (stays_sys (fun _ => ⟨rfl, rfl, rfl⟩) fun r hr => ?_) fun _ => ?_
  · exact List.mem_singleton.mp hr ▸ hc
  refine .getState ((hidle _).bind fun _ => .ite (fun _ => rests_raise _) fun _ => ?_)
  refine (hidle _).bind fun _ => .ite (fun _ => rests_raise _) fun _ => ?_
  refine Rests.bind (stays_sys (fun _ => ⟨rfl, rfl, rfl⟩) fun r hr => ?_) fun i =>
    Rests.bind (stays_sys (fun _ => ⟨rfl, rfl, rfl⟩) fun r hr => ?_) fun _ => rests_pure _
  · exact List.mem_singleton.mp hr ▸ hc
  · rcases List.mem_pair.mp hr with rfl | rfl
    · exact hsession
    · exact hc

theorem makeCertificate_obeys (hm : Making inside session made made' m s.1) :
    (makeCertificate .outside session).obeys handling.own
      (fun _ m' s' => Making inside session made true m' s'.1) m s := by
  rw [makeCertificate, obeys_bind, obeys_call]
  refine ⟨nofun, fun certificate _ => obeys_assign.mpr ?_⟩
  let s' := handling.own.after s ⟨.gnutls_certificate_allocate_credentials, certificate⟩
  have hgrown : Making inside session made made' m s'.1 :=
    hm.grows (grows_keeps s.1 (fun fd => by cases certificate <;> exact nofun) rfl rfl)
  have hnew : ∀ c, certificate = some c → s'.1 (.certificate c) := by
    rintro c rfl
    exact .inr rfl
  have hmade := hgrown.setCertificate hnew
  cases certificate with
  | none => exact hmade
  | some c => exact obeys_mono (hmade.stays (stays_certify hmade.owns (hnew c rfl))) fun _ _ _ hr => hr.2

theorem stays_handshake {owned : Resource → Prop} {side : Side} (hsession : owned (.session session))
    (hfd : owned (.descriptor (m.socket side)._fd)) : Stays m owned (handshake side session) := by
  refine .this (Rests.bind (Stays.concurrently (stays_sys (fun _ => ⟨rfl, rfl, rfl⟩) fun r hr => ?_)) fun i =>
    .ite (fun _ => rests_raise _) fun _ => rests_pure ())
  rcases List.mem_pair.mp hr with rfl | rfl
  · exact hsession
  · exact hfd

theorem makesecure_obeys (hs : Sockets m s.1) : (makesecure .outside).obeys handling.own
    (fun _ m' s' => Sockets m' s'.1 ∧ m'.inside = m.inside) m s := by
  rw [makesecure, obeys_bind, obeys_call]
  refine ⟨nofun, fun made hmade => obeys_assign.mpr ?_⟩
  obtain ⟨result, session⟩ := made
  obtain rfl : result = 0 := hmade.1.2
  let s₁ := handling.own.after s ⟨.gnutls_init, (0, session)⟩
  have hgrows : Grows s.1 s₁.1 := grows_keeps s.1 nofun rfl rfl
  have howns : s₁.1 (.session session) := .inr rfl
  have hm₁ : Making m.inside session false false
      (m.put .outside { m.outside with _gnutls_session := session }) s₁.1 :=
    ⟨{ hgrows.sockets hs with session := fun _ => howns }, rfl, howns, rfl, nofun, nofun⟩
  refine obeys_andThen (makeAnonymous_obeys hm₁) (fun _ _ _ hm => ⟨hm.sockets, hm.inside_eq⟩) fun _ m₂ s₂ hm₂ => ?_
  refine obeys_andThen (makeCertificate_obeys hm₂) (fun _ _ _ hm => ⟨hm.sockets, hm.inside_eq⟩) fun valid m₃ s₃ hm₃ => ?_
  have hprioritise : Stays m₃ s₃.1 (prioritise session valid) :=
    .ite (fun _ => rests_pure ()) fun _ => stays_sys (fun _ => ⟨rfl, rfl, rfl⟩) fun r hr =>
      List.mem_singleton.mp hr ▸ hm₃.owns
  refine obeys_andThen (hm₃.stays hprioritise) (fun _ _ _ hm => ⟨hm.2.sockets, hm.2.inside_eq⟩) fun _ m₄ s₄ hm₄ => ?_
  obtain ⟨-, hm₄⟩ := hm₄
  -- from here on the members mean something
  have hsecure : Sockets (m₄.put .outside { m₄.outside with _issecure := true }) s₄.1 :=
    { hm₄.sockets with
      session := fun _ => hm₄.current ▸ hm₄.owns
      anonymous := fun _ => hm₄.anonymous rfl
      certificate := fun _ => hm₄.certificate rfl }
  refine obeys_assign.mpr ?_
  refine obeys_mono (hsecure.stays (stays_handshake hm₄.owns hm₄.sockets.outside)) fun r m₅ s₅ hr => ?_
  obtain ⟨hs₅, rfl⟩ := hr
  exact ⟨hs₅, hm₄.inside_eq⟩

end Socket

end

end Spey.Daemon
