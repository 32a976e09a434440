import Spey.Interaction.Action

/-!
# Calls that are not answered

An environment may leave a call unanswered. A program that makes such a call is
blocked at it, and where it then stands is as much a result as the value of a
program that ends. `Action.awaits` is the weakest precondition for the one
execution against such an environment; `Action.Settles` is its rule for a part
of a program that is not blocked and raises nothing.
-/

namespace Interaction

variable {E : Type} {A : E → Type} {X S α β W : Type}

/-- Where a program stands: it has ended, or it is blocked at a call. -/
inductive Standing (E α : Type) where
  | finished (a : α)
  | blocked (e : E)

/-- The call that a program waits in. -/
def Standing.pending : Standing E α → Option E
  | .finished _ => none
  | .blocked e => some e

@[simp] theorem Standing.pending_finished (a : α) : (Standing.finished a : Standing E α).pending = none := rfl

@[simp] theorem Standing.pending_blocked (e : E) :
    (Standing.blocked e : Standing E α).pending = some e := rfl

/-- An environment with a state of its own; a call that it answers with `none` blocks. -/
abbrev Waiting (A : E → Type) (W : Type) := (e : E) → W → Option (A e × W)

namespace Program

/-- The execution up to its end or to the first call that is not answered. -/
def await (env : Waiting A W) : Program E A α → W → Standing E α × W
  | .done a, w => (.finished a, w)
  | .call e next, w =>
      match env e w with
      | some (x, w') => (next x).await env w'
      | none => (.blocked e, w)

theorem await_bind (env : Waiting A W) (p : Program E A α) (f : α → Program E A β) (w : W) :
    (p.bind f).await env w = match p.await env w with
      | (.finished a, w') => (f a).await env w'
      | (.blocked e, w') => (.blocked e, w') := by
  induction p generalizing w with
  | done a => rfl
  | call e next ih =>
    simp only [Program.bind, await]
    cases env e w with
    | none => rfl
    | some answer => exact ih answer.1 answer.2

end Program

namespace Action

variable {env : Waiting A W} {s : S} {w : W}

/-- Where an action may stand, with the state of its environment. -/
abbrev Stand (E X S α W : Type) := Standing E (Except X α × S) → W → Prop

/-- Against `env`, from the states `s` and `w`, the action comes to stand in `Q`. -/
def awaits (env : Waiting A W) (x : Action A X S α) (Q : Stand E X S α W) (s : S) (w : W) : Prop :=
  Q ((x s).await env w).1 ((x s).await env w).2

@[simp] theorem awaits_pure (a : α) (Q : Stand E X S α W) :
    awaits env (pure a : Action A X S α) Q s w ↔ Q (.finished (.ok a, s)) w := Iff.rfl

@[simp] theorem awaits_getState (Q : Stand E X S S W) :
    awaits env (getState : Action A X S S) Q s w ↔ Q (.finished (.ok s, s)) w := Iff.rfl

@[simp] theorem awaits_update (f : S → S) (Q : Stand E X S Unit W) :
    awaits env (update f : Action A X S Unit) Q s w ↔ Q (.finished (.ok (), f s)) w := Iff.rfl

@[simp] theorem awaits_raise (x : X) (Q : Stand E X S α W) :
    awaits env (raise x : Action A X S α) Q s w ↔ Q (.finished (.error x, s)) w := Iff.rfl

theorem awaits_call {e : E} {Q : Stand E X S (A e) W} {x : A e} {w' : W}
    (he : env e w = some (x, w')) :
    awaits env (call e : Action A X S (A e)) Q s w ↔ Q (.finished (.ok x, s)) w' := by
  unfold awaits call Program.await
  rw [he]
  rfl

theorem awaits_blocked {e : E} {Q : Stand E X S (A e) W} (he : env e w = none) :
    awaits env (call e : Action A X S (A e)) Q s w ↔ Q (.blocked e) w := by
  unfold awaits call Program.await
  rw [he]

@[simp] theorem awaits_bind (x : Action A X S α) (f : α → Action A X S β) (Q : Stand E X S β W) :
    awaits env (x >>= f) Q s w ↔ awaits env x (fun r w' => match r with
      | .finished (.ok a, s') => awaits env (f a) Q s' w'
      | .finished (.error e, s') => Q (.finished (.error e, s')) w'
      | .blocked e => Q (.blocked e) w') s w := by
  apply iff_of_eq
  show Q (((x s).bind _).await env w).1 (((x s).bind _).await env w).2 = _
  rw [Program.await_bind, awaits]
  rcases (x s).await env w with ⟨⟨e | a, s'⟩ | e, w'⟩
  · rfl
  · rfl
  · rfl

@[simp] theorem awaits_handle (x : Action A X S α) (clauses : X → Option (Action A X S α))
    (Q : Stand E X S α W) : awaits env (handle x clauses) Q s w ↔
      awaits env x (fun r w' => match r with
        | .finished (.ok a, s') => Q (.finished (.ok a, s')) w'
        | .finished (.error e, s') => match clauses e with
          | some y => awaits env y Q s' w'
          | none => Q (.finished (.error e, s')) w'
        | .blocked e => Q (.blocked e) w') s w := by
  apply iff_of_eq
  show Q (((x s).bind _).await env w).1 (((x s).bind _).await env w).2 = _
  rw [Program.await_bind, awaits]
  rcases (x s).await env w with ⟨⟨e | a, s'⟩ | e, w'⟩
  · dsimp only
    cases clauses e with
    | none => rfl
    | some y => rfl
  · rfl
  · rfl

theorem awaits_mono {x : Action A X S α} {Q R : Stand E X S α W} (hx : x.awaits env Q s w)
    (hQR : ∀ r w', Q r w' → R r w') : x.awaits env R s w :=
  hQR _ _ hx

/-- The action ends with a value, whatever the environment answers, and keeps `I`. -/
def Settles (env : Waiting A W) (I : S → W → Prop) (x : Action A X S α) : Prop :=
  ∀ s w, I s w → x.awaits env (fun r w' => ∃ a s', r = .finished (.ok a, s') ∧ I s' w') s w

namespace Settles

variable {I : S → W → Prop}

theorem awaits {x : Action A X S α} {Q : Stand E X S α W} (hx : Settles env I x) (hI : I s w)
    (hQ : ∀ a s' w', I s' w' → Q (.finished (.ok a, s')) w') : x.awaits env Q s w := by
  apply awaits_mono (hx s w hI)
  rintro r w' ⟨a, s', rfl, hI'⟩
  exact hQ a s' w' hI'

theorem pure (a : α) : Settles env I (pure a : Action A X S α) :=
  fun s _ hI => ⟨a, s, rfl, hI⟩

theorem update {f : S → S} (hf : ∀ s w, I s w → I (f s) w) :
    Settles env I (update f : Action A X S Unit) :=
  fun s w hI => ⟨(), f s, rfl, hf s w hI⟩

theorem call {e : E} (he : ∀ s w, I s w → ∃ x w', env e w = some (x, w') ∧ I s w') :
    Settles env I (call e : Action A X S (A e)) := by
  intro s w hI
  obtain ⟨x, w', hx, hI'⟩ := he s w hI
  rw [awaits_call hx]
  exact ⟨x, s, rfl, hI'⟩

theorem bind {x : Action A X S α} {f : α → Action A X S β} (hx : Settles env I x)
    (hf : ∀ a, Settles env I (f a)) : Settles env I (x >>= f) := by
  intro s w hI
  rw [awaits_bind]
  exact hx.awaits hI fun a s' w' hI' => hf a s' w' hI'

end Settles

end Action

end Interaction
