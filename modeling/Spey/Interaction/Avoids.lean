import Spey.Interaction.Action

/-!
# Calls that are never made

A program avoids a kind of call when none of its executions makes one, whatever
the answers are. `Action.Avoids` has a rule for each way to build an action.
-/

namespace Interaction

variable {E : Type} {A : E → Type} {X S α β : Type} {K : E → Prop}

/-- No execution of the program makes a call of the kind `K`. -/
def Program.Avoids (K : E → Prop) : Program E A α → Prop
  | .done _ => True
  | .call e next => ¬ K e ∧ ∀ x, (next x).Avoids K

theorem Program.Avoids.bind {p : Program E A α} {f : α → Program E A β} (hp : p.Avoids K)
    (hf : ∀ a, (f a).Avoids K) : (p.bind f).Avoids K := by
  induction p with
  | done a => exact hf a
  | call e next ih => exact ⟨hp.1, fun x => ih x (hp.2 x)⟩

/-- What an execution adds to the history has no such call. -/
theorem Program.Avoids.reaches {p : Program E A α} {a : α} {h h' : History A} (hp : p.Avoids K)
    (hr : p.Reaches h a h') : ∃ later, h' = later ++ h ∧ ∀ e ∈ later, ¬ K e.1 := by
  induction hr with
  | done a h => exact ⟨[], rfl, fun e he => absurd he List.not_mem_nil⟩
  | @call e next h h' a x hr ih =>
    obtain ⟨later, rfl, hlater⟩ := ih (hp.2 x)
    refine ⟨later ++ [⟨e, x⟩], by rw [List.append_assoc, List.singleton_append], ?_⟩
    intro e' he'
    rcases List.mem_append.mp he' with he' | he'
    · exact hlater e' he'
    · obtain rfl := List.mem_singleton.mp he'
      exact hp.1

namespace Action

/-- No execution of the action makes a call of the kind `K`, from any state. -/
def Avoids (K : E → Prop) (x : Action A X S α) : Prop := ∀ s, (x s).Avoids K

theorem avoids_pure (a : α) : Avoids K (pure a : Action A X S α) := fun _ => trivial

theorem avoids_call {e : E} (he : ¬ K e) : Avoids K (call e : Action A X S (A e)) :=
  fun _ => ⟨he, fun _ => trivial⟩

theorem avoids_getState : Avoids K (getState : Action A X S S) := fun _ => trivial

theorem avoids_update (f : S → S) : Avoids K (update f : Action A X S Unit) := fun _ => trivial

theorem avoids_raise (x : X) : Avoids K (raise x : Action A X S α) := fun _ => trivial

theorem Avoids.bind {x : Action A X S α} {f : α → Action A X S β} (hx : Avoids K x)
    (hf : ∀ a, Avoids K (f a)) : Avoids K (x >>= f) := by
  intro s
  refine (hx s).bind fun r => ?_
  rcases r with ⟨e | a, s'⟩
  · trivial
  · exact hf a s'

theorem Avoids.ite {c : Prop} [Decidable c] {x y : Action A X S α} (hx : Avoids K x)
    (hy : Avoids K y) : Avoids K (if c then x else y) := by
  split
  · exact hx
  · exact hy

theorem Avoids.handle {x : Action A X S α} {clauses : X → Option (Action A X S α)}
    (hx : Avoids K x) (hclauses : ∀ e y, clauses e = some y → Avoids K y) :
    Avoids K (handle x clauses) := by
  intro s
  refine (hx s).bind fun r => ?_
  rcases r with ⟨e | a, s'⟩
  · dsimp only
    cases hy : clauses e with
    | none => trivial
    | some y => exact hclauses e y hy s'
  · trivial

theorem Avoids.repeatUntil {cutoff : X} {body : Action A X S (Option β)} (hbody : Avoids K body)
    (rounds : Nat) : Avoids K (repeatUntil cutoff body rounds) := by
  induction rounds with
  | zero => exact avoids_raise cutoff
  | succ rounds ih =>
    refine hbody.bind fun r => ?_
    cases r with
    | none => exact ih
    | some b => exact avoids_pure b

end Action

end Interaction
