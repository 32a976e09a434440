import Spey.Interaction.History

/-!
# Monitors

A monitor follows a history with a state of its own, and rejects the first event
that has no place in its state. `m.At p h` says that `m` has followed all of `h`
and is in the state `p`; an event that has no place has no such state after it.
-/

namespace Interaction

variable {E : Type} {A : E → Type} {P : Type}

structure Monitor (A : E → Type) (P : Type) where
  start : P
  step : P → Event A → Option P

namespace Monitor

variable {m : Monitor A P} {p q : P} {e : Event A} {h h' : History A}

def track (m : Monitor A P) : History A → Option P
  | [] => some m.start
  | e :: past => (m.track past).bind fun p => m.step p e

def At (m : Monitor A P) (p : P) (h : History A) : Prop := m.track h = some p

/-- Every event of the history had its place. -/
def Accepts (m : Monitor A P) (h : History A) : Prop := ∃ p, m.At p h

theorem at_nil (m : Monitor A P) : m.At m.start [] := rfl

theorem At.cons (hp : m.At p h) (he : m.step p e = some q) : m.At q (e :: h) := by
  rw [At, track, hp, Option.bind_some, he]

theorem At.accepts (hp : m.At p h) : m.Accepts h := ⟨p, hp⟩

theorem At.of_cons (hq : m.At q (e :: h)) : ∃ p, m.At p h ∧ m.step p e = some q :=
  Option.bind_eq_some_iff.mp hq

theorem Accepts.of_suffix (hs : h <:+ h') (ha : m.Accepts h') : m.Accepts h := by
  obtain ⟨later, rfl⟩ := hs
  induction later with
  | nil => exact ha
  | cons e later ih =>
    obtain ⟨q, hq⟩ := ha
    obtain ⟨p, hp, -⟩ := hq.of_cons
    exact ih ⟨p, hp⟩

/-- What the steps of a monitor keep holds of every history that it follows. -/
theorem At.invariant {I : P → History A → Prop} (hstart : I m.start [])
    (hstep : ∀ p q e h, I p h → m.step p e = some q → I q (e :: h)) (hp : m.At p h) : I p h := by
  induction h generalizing p with
  | nil =>
    obtain rfl : m.start = p := Option.some.inj hp
    exact hstart
  | cons e h ih =>
    obtain ⟨p', hp', he⟩ := hp.of_cons
    exact hstep p' p e h (ih hp') he

end Monitor

end Interaction
