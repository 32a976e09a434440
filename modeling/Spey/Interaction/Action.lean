import Spey.Interaction.Program

/-!
# Stateful actions with exceptions

An action carries a state of type `S` through its calls and ends with a value or
an exception of type `X`; an exception keeps the state it was raised in, as
member variables keep theirs when a C++ exception unwinds. `handle` is a list of
catch clauses: an exception it does not answer goes on.

A loop without a bound is `repeatUntil`, cut off after a number of rounds by an
exception of its own that no clause answers. A property of the executions at
every number of rounds is a property of every finite part of the loop's runs.
-/

namespace Interaction

variable {E : Type} {A : E → Type} {X S α β W : Type}

def Action (A : E → Type) (X S α : Type) : Type := S → Program E A (Except X α × S)

namespace Action

protected def pure (a : α) : Action A X S α := fun s => .done (.ok a, s)

protected def bind (x : Action A X S α) (f : α → Action A X S β) : Action A X S β := fun s =>
  (x s).bind fun
    | (.ok a, s') => f a s'
    | (.error e, s') => .done (.error e, s')

instance : Monad (Action A X S) where
  pure := Action.pure
  bind := Action.bind

def call (e : E) : Action A X S (A e) := fun s => .call e fun x => .done (.ok x, s)

def getState : Action A X S S := fun s => .done (.ok s, s)

def update (f : S → S) : Action A X S Unit := fun s => .done (.ok (), f s)

def raise (x : X) : Action A X S α := fun s => .done (.error x, s)

/-- Run `x`; an exception that `clauses` answers is replaced by that action. -/
def handle (x : Action A X S α) (clauses : X → Option (Action A X S α)) : Action A X S α := fun s =>
  (x s).bind fun
    | (.ok a, s') => .done (.ok a, s')
    | (.error e, s') =>
        match clauses e with
        | some y => y s'
        | none => .done (.error e, s')

/-- Repeat `body` until it gives a value, for at most `rounds` rounds. -/
def repeatUntil (cutoff : X) (body : Action A X S (Option β)) : Nat → Action A X S β
  | 0 => raise cutoff
  | rounds + 1 => do
      match ← body with
      | some b => pure b
      | none => repeatUntil cutoff body rounds

theorem pure_bind (a : α) (f : α → Action A X S β) : (pure a >>= f) = f a := rfl

theorem bind_assoc {γ : Type} (x : Action A X S α) (f : α → Action A X S β) (g : β → Action A X S γ) :
    (x >>= f) >>= g = x >>= fun a => f a >>= g := by
  funext s
  show ((x s).bind _).bind _ = (x s).bind _
  rw [Program.bind_assoc]
  congr 1
  funext r
  rcases r with ⟨e | a, s'⟩
  · rfl
  · rfl

theorem ite_bind (c : Prop) [Decidable c] (x y : Action A X S α) (f : α → Action A X S β) :
    (if c then x else y) >>= f = if c then x >>= f else y >>= f := by
  split
  · rfl
  · rfl

/-- What an action's executions from a state and a history must end in. -/
abbrev Post (A : E → Type) (X S α : Type) := Except X α → S → History A → Prop

def wp (x : Action A X S α) (Q : Post A X S α) (s : S) (h : History A) : Prop :=
  (x s).wp (fun r h' => Q r.1 r.2 h') h

/-- `x.Ends s h r s' h'`: some answers take the action from `s` and `h` to the
outcome `r`, the state `s'` and the history `h'`. -/
def Ends (x : Action A X S α) (s : S) (h : History A) (r : Except X α) (s' : S)
    (h' : History A) : Prop :=
  (x s).Reaches h (r, s') h'

theorem wp_iff_ends (x : Action A X S α) (Q : Post A X S α) (s : S) (h : History A) :
    x.wp Q s h ↔ ∀ r s' h', x.Ends s h r s' h' → Q r s' h' := by
  rw [wp, Program.wp_iff_reaches]
  exact ⟨fun hq r s' h' => hq (r, s') h', fun hq a h' => hq a.1 a.2 h'⟩

theorem wp_mono {x : Action A X S α} {Q R : Post A X S α} {s : S} {h : History A}
    (hx : x.wp Q s h) (hQR : ∀ r s' h', Q r s' h' → R r s' h') : x.wp R s h :=
  Program.wp_mono (fun r h' => hQR r.1 r.2 h') hx

/-- What holds of every longer history holds after any action. -/
theorem wp_of_suffix {x : Action A X S α} {Q : Post A X S α} {s : S} {h : History A}
    (hQ : ∀ r s' h', h <:+ h' → Q r s' h') : x.wp Q s h :=
  Program.wp_mono (fun r h' hs => hQ r.1 r.2 h' hs) (Program.wp_suffix (x s) h)

@[simp] theorem wp_pure (a : α) (Q : Post A X S α) (s : S) (h : History A) :
    wp (pure a) Q s h ↔ Q (.ok a) s h := Iff.rfl

@[simp] theorem wp_bind (x : Action A X S α) (f : α → Action A X S β) (Q : Post A X S β) (s : S)
    (h : History A) : wp (x >>= f) Q s h ↔
      wp x (fun r s' h' => match r with
        | .ok a => wp (f a) Q s' h'
        | .error e => Q (.error e) s' h') s h := by
  show ((x s).bind _).wp _ h ↔ _
  rw [Program.wp_bind]
  apply iff_of_eq
  unfold wp
  congr 1
  funext r h'
  rcases r with ⟨_ | _, s'⟩ <;> rfl

@[simp] theorem wp_call (e : E) (Q : Post A X S (A e)) (s : S) (h : History A) :
    wp (call e) Q s h ↔ ∀ x, Q (.ok x) s (⟨e, x⟩ :: h) := Iff.rfl

@[simp] theorem wp_getState (Q : Post A X S S) (s : S) (h : History A) :
    wp getState Q s h ↔ Q (.ok s) s h := Iff.rfl

@[simp] theorem wp_update (f : S → S) (Q : Post A X S Unit) (s : S) (h : History A) :
    wp (update f) Q s h ↔ Q (.ok ()) (f s) h := Iff.rfl

@[simp] theorem wp_raise (x : X) (Q : Post A X S α) (s : S) (h : History A) :
    wp (raise x) Q s h ↔ Q (.error x) s h := Iff.rfl

@[simp] theorem wp_handle (x : Action A X S α) (clauses : X → Option (Action A X S α))
    (Q : Post A X S α) (s : S) (h : History A) : wp (handle x clauses) Q s h ↔
      wp x (fun r s' h' => match r with
        | .ok a => Q (.ok a) s' h'
        | .error e => match clauses e with
          | some y => wp y Q s' h'
          | none => Q (.error e) s' h') s h := by
  show ((x s).bind _).wp _ h ↔ _
  rw [Program.wp_bind]
  apply iff_of_eq
  unfold wp
  congr 1
  funext r h'
  rcases r with ⟨e | _, s'⟩
  · dsimp only
    cases clauses e <;> rfl
  · rfl

@[simp] theorem wp_ite (c : Prop) [Decidable c] (x y : Action A X S α) (Q : Post A X S α) (s : S)
    (h : History A) : wp (if c then x else y) Q s h ↔ if c then wp x Q s h else wp y Q s h := by
  split <;> rfl

/-- The loop rule: an invariant that a round keeps while it goes on, and that
gives the postcondition where a round or the cutoff leaves the loop. -/
theorem wp_repeatUntil {cutoff : X} {body : Action A X S (Option β)} {Q : Post A X S β}
    (I : S → History A → Prop)
    (hbody : ∀ s h, I s h → wp body (fun r s' h' => match r with
        | .ok (some b) => Q (.ok b) s' h'
        | .ok none => I s' h'
        | .error e => Q (.error e) s' h') s h)
    (hcut : ∀ s h, I s h → Q (.error cutoff) s h) (rounds : Nat) :
    ∀ s h, I s h → wp (repeatUntil cutoff body rounds) Q s h := by
  induction rounds with
  | zero => exact hcut
  | succ rounds ih =>
    intro s h hI
    simp only [repeatUntil, wp_bind]
    refine wp_mono (hbody s h hI) fun r s' h' hr => ?_
    match r with
    | .ok (some b) => exact hr
    | .ok none => exact ih s' h' hr
    | .error e => exact hr

/-- The execution of an action against an environment, from the empty history. -/
def run (env : (e : E) → W → A e × W) (x : Action A X S α) (s : S) (w : W) :
    (Except X α × S) × W × History A :=
  (x s).run env w []

/-- What the execution against an environment ends in. -/
def exec (env : (e : E) → W → A e × W) (x : Action A X S α) (s : S) (w : W) :
    (Except X α × S) × W :=
  (x s).exec env w

section
variable (env : (e : E) → W → A e × W) (s : S) (w : W)

@[simp] theorem exec_pure (a : α) :
    exec env (pure a : Action A X S α) s w = ((.ok a, s), w) := rfl

@[simp] theorem exec_call (e : E) :
    exec env (call e : Action A X S (A e)) s w = ((.ok (env e w).1, s), (env e w).2) := rfl

@[simp] theorem exec_getState : exec env (getState : Action A X S S) s w = ((.ok s, s), w) := rfl

@[simp] theorem exec_update (f : S → S) :
    exec env (update f : Action A X S Unit) s w = ((.ok (), f s), w) := rfl

@[simp] theorem exec_raise (x : X) :
    exec env (raise x : Action A X S α) s w = ((.error x, s), w) := rfl

theorem exec_bind (x : Action A X S α) (f : α → Action A X S β) :
    exec env (x >>= f) s w = match exec env x s w with
      | ((.ok a, s'), w') => exec env (f a) s' w'
      | ((.error e, s'), w') => ((.error e, s'), w') := by
  show ((x s).bind _).exec env w = _
  rw [Program.exec_bind]
  show _ = match (x s).exec env w with
    | ((.ok a, s'), w') => exec env (f a) s' w'
    | ((.error e, s'), w') => ((.error e, s'), w')
  rcases (x s).exec env w with ⟨⟨e | a, s'⟩, w'⟩
  · rfl
  · rfl

theorem exec_handle (x : Action A X S α) (clauses : X → Option (Action A X S α)) :
    exec env (handle x clauses) s w = match exec env x s w with
      | ((.ok a, s'), w') => ((.ok a, s'), w')
      | ((.error e, s'), w') => match clauses e with
        | some y => exec env y s' w'
        | none => ((.error e, s'), w') := by
  show ((x s).bind _).exec env w = _
  rw [Program.exec_bind]
  rw [exec]
  rcases (x s).exec env w with ⟨⟨e | a, s'⟩, w'⟩
  · dsimp only
    cases clauses e with
    | none => rfl
    | some y => rfl
  · rfl

theorem exec_repeatUntil (cutoff : X) (body : Action A X S (Option β)) (rounds : Nat) :
    exec env (repeatUntil cutoff body (rounds + 1)) s w = match exec env body s w with
      | ((.ok (some b), s'), w') => ((.ok b, s'), w')
      | ((.ok none, s'), w') => exec env (repeatUntil cutoff body rounds) s' w'
      | ((.error e, s'), w') => ((.error e, s'), w') := by
  rw [repeatUntil, exec_bind]
  rcases exec env body s w with ⟨⟨e | _ | b, s'⟩, w'⟩
  · rfl
  · rfl
  · rfl

end

/-- A run against an environment is one of the executions. -/
theorem ends_run (env : (e : E) → W → A e × W) (x : Action A X S α) (s : S) (w : W) :
    x.Ends s [] (x.run env s w).1.1 (x.run env s w).1.2 (x.run env s w).2.2 :=
  Program.reaches_run env (x s) w []

end Action

end Interaction
