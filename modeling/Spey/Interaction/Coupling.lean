import Spey.Interaction.Machine

/-!
# Two runs that look alike

A likeness says which calls an observer takes for the same, and how the answer to
the one corresponds to the answer to the other. A coupling relates the states of a
machine from which alike calls are pending and alike answers lead to related
states again. Programs that follow the machine from related states make alike
calls in every environment that answers alike calls alike.
-/

namespace Interaction

variable {E : Type} {A : E → Type} {R C W α : Type}

/-- Which calls are alike, and which answers correspond. -/
abbrev Likeness (A : E → Type) := (e₁ e₂ : E) → (A e₁ → A e₂) → Prop

/-- The pending calls are alike, and alike answers lead to `P`. -/
inductive Node.Like (K : Likeness A) (P : C → C → Prop) : Node A R C → Node A R C → Prop
  | finished (r₁ r₂ : R) : Like K P (.finished r₁) (.finished r₂)
  | call {e₁ e₂ : E} {f : A e₁ → A e₂} {next₁ : A e₁ → C} {next₂ : A e₂ → C} (he : K e₁ e₂ f)
      (hnext : ∀ x, P (next₁ x) (next₂ (f x))) : Like K P (.call e₁ next₁) (.call e₂ next₂)

/-- From related states, alike calls lead to related states. -/
def Machine.Coupled (K : Likeness A) (m : Machine A R C) (P : C → C → Prop) : Prop :=
  ∀ c₁ c₂, P c₁ c₂ → (m c₁).Like K P (m c₂)

/-- Alike calls are answered alike. -/
def Likeness.Respected (K : Likeness A) (env : (e : E) → W → A e × W) : Prop :=
  ∀ {e₁ e₂ f}, K e₁ e₂ f → ∀ w, env e₂ w = (f (env e₁ w).1, (env e₁ w).2)

/-- Alike calls with corresponding answers. -/
inductive Likeness.Events (K : Likeness A) : Event A → Event A → Prop
  | mk {e₁ e₂ : E} {f : A e₁ → A e₂} (he : K e₁ e₂ f) (x : A e₁) : Events K ⟨e₁, x⟩ ⟨e₂, f x⟩

/-- What is seen of a history, where alike events look the same. -/
theorem Likeness.filterMap_eq {K : Likeness A} {see : Event A → Option α}
    (hsee : ∀ e₁ e₂, K.Events e₁ e₂ → see e₁ = see e₂) {h₁ h₂ : History A}
    (hh : List.Forall₂ K.Events h₁ h₂) : h₁.filterMap see = h₂.filterMap see := by
  induction hh with
  | nil => rfl
  | cons he _ ih => rw [List.filterMap_cons, List.filterMap_cons, hsee _ _ he, ih]

namespace Program

variable {m : Machine A R C} {Q : α → C → Prop} {p : Program E A α} {c : C}
  (env : (e : E) → W → A e × W) (w : W) (h : History A)

/-- A program that follows a finished machine has ended. -/
theorem Follows.run_finished {r : R} (hp : p.Follows m Q c) (hc : m c = .finished r) :
    (p.run env w h).2.2 = h := by
  cases p with
  | done a => rfl
  | call e next =>
    obtain ⟨next', he, -⟩ := hp
    rw [hc] at he
    cases he

/-- A program that follows a machine makes the call that is pending. -/
theorem Follows.run_call {e : E} {next : A e → C} (hp : p.Follows m Q c) (hc : m c = .call e next)
    (hQ : ∀ a c', Q a c' → ∃ r, m c' = .finished r) : ∃ q : Program E A α,
      q.Follows m Q (next (env e w).1) ∧
        (p.run env w h).2.2 = (q.run env (env e w).2 (⟨e, (env e w).1⟩ :: h)).2.2 := by
  cases p with
  | done a =>
    obtain ⟨r, hr⟩ := hQ a c hp
    rw [hc] at hr
    cases hr
  | call e' next' =>
    obtain ⟨next'', he, hnext⟩ := hp
    rw [hc] at he
    cases he
    exact ⟨next' (env e w).1, hnext _, rfl⟩

/-- From coupled states, programs have alike histories. -/
theorem Follows.run_like {K : Likeness A} {P : C → C → Prop} (hm : m.Coupled K P)
    {env : (e : E) → W → A e × W} {w : W} (henv : K.Respected env)
    (hQ : ∀ a c', Q a c' → ∃ r, m c' = .finished r) {p₁ p₂ : Program E A α} {c₁ c₂ : C}
    (hp₁ : p₁.Follows m Q c₁) (hp₂ : p₂.Follows m Q c₂) (hc : P c₁ c₂) {h₁ h₂ : History A}
    (hh : List.Forall₂ K.Events h₁ h₂) :
    List.Forall₂ K.Events (p₁.run env w h₁).2.2 (p₂.run env w h₂).2.2 := by
  induction p₁ generalizing p₂ c₁ c₂ w h₁ h₂ with
  | done a =>
    obtain ⟨r, hr⟩ := hQ a c₁ hp₁
    have hlike := hm c₁ c₂ hc
    rw [hr] at hlike
    generalize hn : m c₂ = n at hlike
    cases hlike with
    | finished _ r₂ =>
      rw [hp₂.run_finished env w h₂ hn]
      exact hh
  | call e next ih =>
    obtain ⟨next₁, he, hnext⟩ := hp₁
    have hlike := hm c₁ c₂ hc
    rw [he] at hlike
    generalize hn : m c₂ = n at hlike
    cases hlike with
    | call hK hP =>
      obtain ⟨q, hq, hrun⟩ := hp₂.run_call env w h₂ hn hQ
      rw [hrun, henv hK w]
      rw [henv hK w] at hq
      exact ih _ (hnext _) hq (hP _) (.cons (.mk hK _) hh)

end Program

end Interaction
