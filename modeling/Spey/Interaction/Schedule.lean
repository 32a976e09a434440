import Spey.Interaction.Await
import Spey.Interaction.Crew

/-!
# Crews that follow a schedule

A schedule says whose turn it is. In a world that computes its answers, and where it is
computed as well what a call creates, a crew that follows a schedule goes through one run,
which can be evaluated.
-/

namespace Interaction

variable {E W V α : Type} {A : E → Type}

/-- The threads, the world and what has happened, at some time of a run. -/
structure Moment (A : E → Type) (α W : Type) where
  threads : List (Program E A α)
  world : W
  past : History (Shared Nat A) := []

/-- The call that a program makes next. -/
def Program.next : Program E A α → Option E
  | .call e _ => some e
  | .done _ => none

namespace Moment

/-- What each thread calls next. -/
def pending (m : Moment A α W) : List (Option E) := m.threads.map Program.next

theorem pending_call {m : Moment A α W} {t : Nat} {e : E} (ht : m.pending[t]? = some (some e)) :
    ∃ next, m.threads[t]? = some (.call e next) := by
  rw [pending, List.getElem?_map, Option.map_eq_some_iff] at ht
  obtain ⟨p, hp, he⟩ := ht
  cases p with
  | done a => cases he
  | call e' next =>
    cases he
    exact ⟨next, hp⟩

variable (answer : Waiting A W) (create : Event A → List (Program E A α))

/-- The next call of the thread `t`; none where it has to wait, or has ended. -/
def step (m : Moment A α W) (t : Nat) : Option (Moment A α W) :=
  match m.threads[t]? with
  | some (.call e next) =>
      match answer e m.world with
      | some (x, w) => some {
          threads := m.threads.set t (next x) ++ create ⟨e, x⟩
          world := w
          past := ⟨(t, e), x⟩ :: m.past }
      | none => none
  | _ => none

/-- The threads take turns as the schedule says. -/
def follow (m : Moment A α W) : List Nat → Option (Moment A α W)
  | [] => some m
  | t :: schedule =>
      match m.step answer create t with
      | some m => m.follow schedule
      | none => none

variable {answer : Waiting A W} {create : Event A → List (Program E A α)} {m m' : Moment A α W}

theorem step_cases {t : Nat} (hstep : m.step answer create t = some m') :
    ∃ e next x w, m.threads[t]? = some (.call e next) ∧ answer e m.world = some (x, w) ∧
      m' = ⟨m.threads.set t (next x) ++ create ⟨e, x⟩, w, ⟨(t, e), x⟩ :: m.past⟩ := by
  unfold step at hstep
  split at hstep
  · next e next ht =>
    split at hstep
    · next x w hx => exact ⟨e, next, x, w, ht, hx, (Option.some.inj hstep).symm⟩
    · cases hstep
  · cases hstep

/-- What every turn keeps is kept by the schedule. -/
theorem follow_keeps {I : Moment A α W → Prop} {schedule : List Nat}
    (hstep : ∀ m m' t, I m → m.step answer create t = some m' → I m') (hm : I m)
    (hfollow : m.follow answer create schedule = some m') : I m' := by
  induction schedule generalizing m with
  | nil =>
    cases hfollow
    exact hm
  | cons t schedule ih =>
    unfold follow at hfollow
    split at hfollow
    · next m₁ hfirst => exact ih (hstep m m₁ t hm hfirst) hfollow
    · cases hfollow

variable {creates : Creates A α} {serves : Service A V} {view : W → V} {first : List (Program E A α)} {v₀ : V}

/-- What is gone through is a run of the crew in any world that allows what this one does. -/
theorem follow_crew {schedule : List Nat}
    (hserves : ∀ e x w w', answer e w = some (x, w') → serves e (view w) x (view w'))
    (hcreates : ∀ e, creates e (create e)) (hm : Crew creates serves first v₀ m.threads (view m.world) m.past)
    (hfollow : m.follow answer create schedule = some m') :
    Crew creates serves first v₀ m'.threads (view m'.world) m'.past := by
  refine follow_keeps (I := fun m => Crew creates serves first v₀ m.threads (view m.world) m.past)
    (fun m m' t hm hstep => ?_) hm hfollow
  obtain ⟨e, next, x, w, ht, hx, rfl⟩ := step_cases hstep
  exact hm.step ht (hserves e x _ _ hx) (hcreates _)

/-- Where all answers of the world are good, so are those of the run. -/
theorem follow_past {good : Event (Shared Nat A) → Prop} {schedule : List Nat}
    (hgood : ∀ t e x w w', answer e w = some (x, w') → good ⟨(t, e), x⟩) (hm : ∀ e ∈ m.past, good e)
    (hfollow : m.follow answer create schedule = some m') : ∀ e ∈ m'.past, good e := by
  refine follow_keeps (I := fun m => ∀ e ∈ m.past, good e) (fun m m' t hm hstep => ?_) hm hfollow
  obtain ⟨e, next, x, w, -, hx, rfl⟩ := step_cases hstep
  exact List.forall_mem_cons.mpr ⟨hgood t e x _ _ hx, hm⟩

end Moment

end Interaction
