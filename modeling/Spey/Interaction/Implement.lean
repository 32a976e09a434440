import Spey.Interaction.Contract
import Spey.Interaction.Pool

/-!
# Calls carried out by other calls

`p.implement impl` is `p` with an action over another signature in the place of
each of its calls. The action keeps a state of its own from one call to the next,
and an exception that it raises ends the whole.

`p.After q h` says that the events of `h` have taken `p` to `q`. What is carried out
obeys a contract below if `p` obeys one above, and each of its calls is carried out
within the contract below.
-/

namespace Interaction

variable {E F P P' X S α β : Type} {A : E → Type} {B : F → Type}

namespace Program

/-- `p` with each call `e` carried out by `impl e`. -/
def implement (impl : (e : E) → Action B X S (A e)) : Program E A α → Action B X S α
  | .done a => pure a
  | .call e next => do (next (← impl e)).implement impl

/-- What is left of a call that is carried out, and the program after it. -/
def resume (impl : (e : E) → Action B X S (A e)) {T : Type} (next : T → Program E A α)
    (rest : Program F B (Except X T × S)) : Program F B (Except X α × S) :=
  rest.bind fun
    | (.ok x, s) => (next x).implement impl s
    | (.error y, s) => .done (.error y, s)

theorem implement_call (impl : (e : E) → Action B X S (A e)) (e : E) (next : A e → Program E A α)
    (s : S) : (Program.call e next).implement impl s = resume impl next (impl e s) := rfl

/-- `p` has come to `q` by the events of `h`. -/
abbrev After (p q : Program E A α) (h : History A) : Prop := Machine.On machine p q h

theorem After.trans {p q r : Program E A α} {h h' : History A} (hp : p.After q h)
    (hq : q.After r h') : p.After r (h' ++ h) := by
  induction hq with
  | start => exact hp
  | step _ he x ih => exact ih.step he x

/-- The first call of a program that has come somewhere. -/
theorem After.cases {p q : Program E A α} {h : History A} (hp : p.After q h) :
    (h = [] ∧ q = p) ∨ ∃ e next x h', p = .call e next ∧ h = h' ++ [⟨e, x⟩] ∧ (next x).After q h' := by
  induction hp with
  | start => exact .inl ⟨rfl, rfl⟩
  | @step c h e next hc he x ih =>
    right
    rcases ih with ⟨rfl, rfl⟩ | ⟨e', next', x', h', rfl, rfl, hafter⟩
    · cases c with
      | done a => cases he
      | call e' next' =>
        cases he
        exact ⟨e, next, x, [], rfl, rfl, .start⟩
    · exact ⟨e', next', x', _, rfl, rfl, hafter.step he x⟩

/-- Where the promises were kept, the contract holds of what is left. -/
theorem After.obeys {c : Contract A P} {Q : α → P → Prop} {p q : Program E A α} {h : History A} {s : P}
    (hq : p.After q h) (hp : p.Obeys c Q s) (hkept : c.Kept s h) : q.Obeys c Q (c.run s h) := by
  induction hq with
  | start => exact hp
  | @step c' h e next _ he x ih =>
    cases c' with
    | done a => cases he
    | call e' next' =>
      cases he
      exact (ih hkept.1).2 x hkept.2

/-- The calls of the program; the state is what it has called. -/
def recorded (prog : Program E A α) : Contract A (History A) where
  permits h e := ∃ next, prog.After (.call e next) h
  promises _ _ := True
  after h e := e :: h

theorem After.recorded {prog p : Program E A α} {h : History A} (hp : prog.After p h) :
    p.Obeys prog.recorded (fun a h => prog.After (.done a) h) h := by
  induction p generalizing h with
  | done a => exact hp
  | call e next ih => exact ⟨⟨next, hp⟩, fun x _ => ih x (hp.step rfl x)⟩

section
open Interaction.Action

variable {c : Contract B P} {d : Contract A P'} {impl : (e : E) → Action B X S (A e)}

/-- Each call is carried out within the contract below, if the program obeys the one above. -/
theorem obeys_implement {I : S → P → P' → Prop} {Q : Outcome X S α P} {R : α → P' → Prop}
    (himpl : ∀ e s p u, I s p u → d.permits u e → (impl e).obeys c (fun r s' p' => match r with
      | .ok x => d.promises u ⟨e, x⟩ ∧ I s' p' (d.after u ⟨e, x⟩)
      | .error y => Q (.error y) s' p') s p)
    (hdone : ∀ a s p u, I s p u → R a u → Q (.ok a) s p) {prog : Program E A α} {s : S} {p : P}
    {u : P'} (hI : I s p u) (hprog : prog.Obeys d R u) : (prog.implement impl).obeys c Q s p := by
  induction prog generalizing s p u with
  | done a => exact hdone a s p u hI hprog
  | call e next ih =>
    simp only [implement, Action.obeys_bind]
    refine obeys_mono (himpl e s p u hI hprog.1) fun r s' p' hr => ?_
    cases r with
    | error y => exact hr
    | ok x => exact ih x hr.2 (hprog.2 x hr.1)

theorem keeps_implement {I : S → P → Prop} {J : X → S → P → Prop} (himpl : ∀ e, Keeps c I J (impl e))
    (prog : Program E A α) : Keeps c I J (prog.implement impl) := by
  induction prog with
  | done a => exact keeps_pure a
  | call e next ih => exact (himpl e).bind ih

end

end Program

end Interaction
