import Spey.Daemon.Socket

/-!
# Parts of a session's code

Rules for what the sockets are made of, whatever the contract. A part rests where it
leaves the members as they are, and an assertion on the contract's state holds before
and after.
-/

namespace Spey.Daemon

open Interaction Interaction.Action

variable {P α β : Type} {c : Contract Sys.Ans P}

section
variable {I : Members → P → Prop} {x : SysProc α}

theorem keeps_concurrently (hrelease : Keeps c I (fun _ => I) (sys .releaseCPUlock))
    (htake : Keeps c I (fun _ => I) (sys .takeCPUlock)) (hx : Keeps c I (fun _ => I) x) :
    Keeps c I (fun _ => I) (concurrently x) := by
  refine hrelease.bind fun _ => Keeps.bind ?_ fun a => htake.bind fun _ => keeps_pure a
  refine hx.handle (fun _ _ _ _ hp => hp) fun e y hsome => ?_
  cases e <;> cases hsome <;>
    exact ⟨fun _ _ hp => hp, htake.bind fun _ => keeps_raise fun _ _ hp => hp⟩

theorem keeps_caught (hx : Keeps c I (fun _ => I) x) : Keeps c I (fun _ => I) (caught x) := by
  refine (hx.bind fun a => keeps_pure (Except.ok a)).handle (fun _ _ _ _ hp => hp) fun e y hsome => ?_
  cases e <;> cases hsome <;> exact ⟨fun _ _ hp => hp, keeps_pure _⟩

theorem keeps_attempt (hx : Keeps c I (fun _ => I) x) : Keeps c I (fun _ => I) (attempt x) :=
  (keeps_caught hx).bind fun _ => keeps_pure _

end

section
variable {m : Members} {p : P} {x : SysProc α}

theorem obeys_caught {Q : Outcome Exn Members (Except ReadFailure α) P}
    (hx : x.obeys c (fun r m' p' => match r with
      | .ok a => Q (.ok (.ok a)) m' p'
      | .error .network => Q (.ok (.error .network)) m' p'
      | .error .networkTimeout => Q (.ok (.error .timeout)) m' p'
      | .error e => Q (.error e) m' p') m p) : (caught x).obeys c Q m p := by
  rw [caught, obeys_handle, obeys_bind]
  refine obeys_mono hx fun r m' p' hr => ?_
  cases r with
  | ok a => exact hr
  | error e => cases e <;> exact hr

theorem obeys_attempt {Q : Outcome Exn Members Bool P} (hx : x.obeys c (fun r m' p' => match r with
      | .ok _ => Q (.ok true) m' p'
      | .error .network | .error .networkTimeout => Q (.ok false) m' p'
      | .error e => Q (.error e) m' p') m p) : (attempt x).obeys c Q m p := by
  rw [attempt, obeys_bind]
  refine obeys_caught (obeys_mono hx fun r m' p' hr => ?_)
  cases r with
  | ok a => exact hr
  | error e => cases e <;> exact hr

end

/-! ## Parts that leave the members alone -/

variable {m : Members} {I : P → Prop}

/-- The code keeps the contract and `I`, and leaves the members as they are. -/
def Rests (c : Contract Sys.Ans P) (m : Members) (I : P → Prop) (x : SysProc α) : Prop :=
  Keeps c (fun m' p => m' = m ∧ I p) (fun _ m' p => m' = m ∧ I p) x

theorem Rests.always {x : SysProc α} (hx : Rests c m I x) {p : P} (hp : I p) :
    x.obeys c (fun _ m' p' => m' = m ∧ I p') m p :=
  Keeps.always (I := fun m' p => m' = m ∧ I p) hx ⟨rfl, hp⟩

theorem rests_pure (a : α) : Rests c m I (pure a : SysProc α) := keeps_pure a

theorem rests_raise (e : Exn) : Rests c m I (raise e : SysProc α) := keeps_raise fun _ _ hp => hp

theorem Rests.bind {x : SysProc α} {f : α → SysProc β} (hx : Rests c m I x)
    (hf : ∀ a, Rests c m I (f a)) : Rests c m I (x >>= f) := Keeps.bind hx hf

theorem Rests.ite {q : Prop} [Decidable q] {x y : SysProc α} (hx : q → Rests c m I x)
    (hy : ¬ q → Rests c m I y) : Rests c m I (if q then x else y) := Keeps.ite hx hy

theorem Rests.getState {f : Members → SysProc α} (hf : Rests c m I (f m)) :
    Rests c m I (getState >>= f) := by
  intro m' p hp
  obtain ⟨rfl, hp⟩ := hp
  exact hf _ p ⟨rfl, hp⟩

theorem Rests.this {side : Side} {f : Socket → SysProc α} (hf : Rests c m I (f (m.socket side))) :
    Rests c m I (this side >>= f) := by
  rw [Daemon.this, Action.bind_assoc]
  exact .getState hf

theorem rests_sys {e : Sys} (he : ∀ p, I p → c.permits p e ∧
    ∀ x, c.promises p ⟨e, x⟩ → I (c.after p ⟨e, x⟩)) : Rests c m I (sys e) := by
  refine keeps_call fun _ p hp => ?_
  obtain ⟨rfl, hp⟩ := hp
  exact ⟨(he p hp).1, fun x hx => ⟨rfl, (he p hp).2 x hx⟩⟩

theorem Rests.concurrently {x : SysProc α} (hrelease : Rests c m I (sys .releaseCPUlock))
    (htake : Rests c m I (sys .takeCPUlock)) (hx : Rests c m I x) : Rests c m I (concurrently x) :=
  keeps_concurrently hrelease htake hx

theorem Rests.caught {x : SysProc α} (hx : Rests c m I x) : Rests c m I (caught x) := keeps_caught hx

theorem Rests.attempt {x : SysProc α} (hx : Rests c m I x) : Rests c m I (attempt x) := keeps_attempt hx

/-- What `Socket::read` does before it reads. -/
structure Polls (c : Contract Sys.Ans P) (m : Members) (I : P → Prop) (side : Side) : Prop where
  take : Rests c m I (sys .takeCPUlock)
  release : Rests c m I (sys .releaseCPUlock)
  clock : Rests c m I (sys .gettimeofday)
  poll : ∀ delay, Rests c m I (sys (.poll (m.socket side)._fd delay))
  pending : Rests c m I (Socket.pending side)

namespace Polls

variable {side : Side}

theorem pollRound (hpolls : Polls c m I side) (timeout : UInt64) :
    Rests c m I (Socket.pollRound side timeout) := by
  refine hpolls.clock.bind fun now => .ite (fun _ => rests_raise _) fun _ => .this ?_
  exact (hpolls.poll _).bind fun n => .ite (fun _ => rests_pure _) fun _ => rests_pure _

/-- What is read is received last. -/
theorem read (hpolls : Polls c m I side) {Q : Outcome Exn Members (Option Byte) P} {p : P} (hp : I p)
    (herror : ∀ e p, I p → Q (.error e) m p) (hrecv : ∀ p, I p → (Socket.recv side).obeys c Q m p)
    (rounds : Nat) (timeoutdelta : Int32) : (Socket.read side rounds timeoutdelta).obeys c Q m p := by
  have hthen : ∀ {γ : Type} {x : SysProc γ} {f : γ → SysProc (Option Byte)} {p : P}, Rests c m I x → I p →
      (∀ a p, I p → (f a).obeys c Q m p) → (x >>= f).obeys c Q m p := by
    intro γ x f p hx hp hf
    refine obeys_andThen (hx.always hp) (fun e m' p' hp' => ?_) fun a m' p' hp' => ?_
    · obtain ⟨rfl, hp'⟩ := hp'
      exact herror e p' hp'
    · obtain ⟨rfl, hp'⟩ := hp'
      exact hf a p' hp'
  refine hthen hpolls.pending hp fun pending p hp => ?_
  rw [obeys_ite]
  split
  · exact hrecv p hp
  · refine hthen (.this (rests_pure _)) hp fun s p hp => hthen hpolls.clock hp fun now p hp => ?_
    refine hthen (Rests.concurrently hpolls.release hpolls.take ?_) hp fun _ p hp => hrecv p hp
    exact (hpolls.pollRound _).repeatUntil (fun _ _ hp => hp) rounds

end Polls

end Spey.Daemon
