import Mathlib.Logic.Function.Basic
import Spey.Interaction.History
import Spey.Interaction.Machine

/-!
# Pools

Any number of threads work on one world. In each step some thread makes the call
that it has pending, and the world serves that call in one piece; which thread is
next, and which of its ways to serve the call the world takes, is open. The
history of a pool says of each call which thread made it, so the past-time
properties of histories are there for pools too.
-/

namespace Interaction

variable {E T W R C α : Type} {A : E → Type}

/-- `serves e w x w'`: in the world `w`, the call may be answered `x` and leave `w'`. -/
abbrev Service (A : E → Type) (W : Type) := (e : E) → W → A e → W → Prop

/-- The answers to the calls of a pool. -/
abbrev Shared (T : Type) (A : E → Type) : T × E → Type := fun c => A c.2

/-- The thread that made the call. -/
abbrev Event.thread (e : Event (Shared T A)) : T := e.1.1

section
variable [DecidableEq T] {m : T → Machine A R C} {serves : Service A W} {start threads : T → C}
  {w₀ w : W} {h : History (Shared T A)}

/-- The threads, started in `start` and the world `w₀`, can get to `threads` and
`w` by the calls of `h`. -/
inductive Pool (m : T → Machine A R C) (serves : Service A W) (start : T → C) (w₀ : W) :
    (T → C) → W → History (Shared T A) → Prop
  | start : Pool m serves start w₀ start w₀ []
  | step {threads : T → C} {w w' : W} {h : History (Shared T A)} {t : T} {e : E} {next : A e → C}
      {x : A e} (hp : Pool m serves start w₀ threads w h) (he : m t (threads t) = .call e next)
      (hx : serves e w x w') :
      Pool m serves start w₀ (Function.update threads t (next x)) w' (⟨(t, e), x⟩ :: h)

/-- What holds at the start and is kept by the step of every thread holds of every run. -/
theorem Pool.invariant {I : (T → C) → W → History (Shared T A) → Prop} (hstart : I start w₀ [])
    (hstep : ∀ threads w h t, Pool m serves start w₀ threads w h → I threads w h → (m t (threads t)).All fun e c => ∀ w',
      serves e.1 w e.2 w' → I (Function.update threads t c) w' (⟨(t, e.1), e.2⟩ :: h))
    (hp : Pool m serves start w₀ threads w h) : I threads w h := by
  induction hp with
  | start => exact hstart
  | @step threads w w' h t e next x hp he hx ih =>
    have hall := hstep threads w h t hp ih
    rw [he] at hall
    exact hall x w' hx

/-- What one thread has called. -/
def own (t : T) : History (Shared T A) → History A
  | [] => []
  | ⟨(t', e), x⟩ :: past => if t' = t then ⟨e, x⟩ :: own t past else own t past

theorem mem_own {e : Event (Shared T A)} {h : History (Shared T A)} (he : e ∈ h) :
    ⟨e.1.2, e.2⟩ ∈ own e.thread h := by
  induction h with
  | nil => cases he
  | cons x past ih =>
    rw [own]
    rcases List.mem_cons.mp he with rfl | he
    · rw [if_pos rfl]
      exact List.mem_cons_self
    · split_ifs
      · exact List.mem_cons_of_mem _ (ih he)
      · exact ih he

theorem mem_of_own {t : T} {e : E} {x : A e} {h : History (Shared T A)} (he : ⟨e, x⟩ ∈ own t h) :
    ⟨(t, e), x⟩ ∈ h := by
  induction h with
  | nil => cases he
  | cons first past ih =>
    rw [own] at he
    split_ifs at he with ht
    · rcases List.mem_cons.mp he with hfirst | he
      · cases hfirst
        subst ht
        exact List.mem_cons_self
      · exact List.mem_cons_of_mem _ (ih he)
    · exact List.mem_cons_of_mem _ (ih he)

/-- Each thread does what it could do alone. -/
theorem Pool.on (hp : Pool m serves start w₀ threads w h) (t : T) :
    (m t).On (start t) (threads t) (own t h) := by
  induction hp with
  | start => exact .start
  | @step threads w w' h t' e next x hp he hx ih =>
    rw [own]
    by_cases ht : t' = t
    · subst ht
      rw [if_pos rfl, Function.update_self]
      exact ih.step he x
    · rw [if_neg ht, Function.update_of_ne (Ne.symm ht)]
      exact ih

end

section
variable {h h' : History (Shared Nat A)} (kind : E → Prop) [DecidablePred kind]

/-- The calls of a kind that the threads before `n` have made. -/
def before (n : Nat) (h : History (Shared Nat A)) : Nat := h.countP fun e => e.1.1 < n ∧ kind e.1.2

end

/-- A program as a machine: its states are the programs that are left. -/
def Program.machine : Machine A α (Program E A α)
  | .done a => .finished a
  | .call e next => .call e next

/-- Threads that follow a machine do together what the machines do together. -/
theorem Pool.follows [DecidableEq T] {m : T → Machine A R C} {Q : α → C → Prop} {serves : Service A W}
    {programs left : T → Program E A α} {start : T → C} {w₀ w : W} {h : History (Shared T A)}
    (hfollow : ∀ t, (programs t).Follows (m t) Q (start t))
    (hp : Pool (fun _ => Program.machine) serves programs w₀ left w h) :
    ∃ threads, Pool m serves start w₀ threads w h ∧ ∀ t, (left t).Follows (m t) Q (threads t) := by
  induction hp with
  | start => exact ⟨start, .start, hfollow⟩
  | @step left w w' h t e next x hp he hx ih =>
    obtain ⟨threads, hpool, hleft⟩ := ih
    have hnode : (left t).Follows (m t) Q (threads t) := hleft t
    cases hprogram : left t with
    | done a =>
      rw [hprogram] at he
      cases he
    | call e' next' =>
      rw [hprogram] at he hnode
      cases he
      obtain ⟨next'', hcall, hnext⟩ := hnode
      refine ⟨_, hpool.step hcall hx, fun t' => ?_⟩
      by_cases ht : t' = t
      · subst ht
        rw [Function.update_self, Function.update_self]
        exact hnext x
      · rw [Function.update_of_ne ht, Function.update_of_ne ht]
        exact hleft t'

/-- A run in which one thread does all that is left of it. -/
theorem Pool.alone [DecidableEq T] {serves : Service A W} {programs threads : T → Program E A α}
    {w₀ w : W} {h : History (Shared T A)} {t : T} {past past' : History A} {a : α}
    (step : Event A → W → W) (hreach : (threads t).Reaches past a past')
    (hstep : ∀ e ∈ past', ∀ w, serves e.1 w e.2 (step e w))
    (hp : Pool (fun _ => Program.machine) serves programs w₀ threads w h) :
    ∃ later left, past' = later ++ past ∧
      Pool (fun _ => Program.machine) serves programs w₀ left (later.foldr step w)
        (later.map (fun e => ⟨(t, e.1), e.2⟩) ++ h) := by
  generalize hprogram : threads t = p at hreach
  induction hreach generalizing threads w h with
  | done a past => exact ⟨[], threads, rfl, hp⟩
  | @call e next past past' a x hreach ih =>
    have hnode : Program.machine (threads t) = .call e next := by
      rw [hprogram]
      rfl
    have hlast : ⟨e, x⟩ ∈ past' :=
      ((Program.wp_iff_reaches _ _ _).mp (Program.wp_suffix _ _) _ _ hreach).subset
        List.mem_cons_self
    have hnext := hp.step hnode (hstep ⟨e, x⟩ hlast w)
    obtain ⟨later, left, rfl, hpool⟩ := ih hstep hnext (Function.update_self t (next x) threads)
    refine ⟨later ++ [⟨e, x⟩], left, ?_, ?_⟩
    · rw [List.append_assoc, List.singleton_append]
    · rw [List.foldr_append, List.map_append, List.append_assoc]
      exact hpool

/-- The run in which the threads take turns as listed. -/
def schedule [DecidableEq T] (env : (e : E) → W → A e × W) :
    List T → (T → Program E A α) → W → History (Shared T A) →
      (T → Program E A α) × W × History (Shared T A)
  | [], threads, w, h => (threads, w, h)
  | t :: ts, threads, w, h =>
      match threads t with
      | .done _ => schedule env ts threads w h
      | .call e next =>
          let x := env e w
          schedule env ts (Function.update threads t (next x.1)) x.2 (⟨(t, e), x.1⟩ :: h)

theorem Pool.schedule [DecidableEq T] {env : (e : E) → W → A e × W} {serves : Service A W}
    (hserve : ∀ e w, serves e w (env e w).1 (env e w).2) (ts : List T)
    {programs threads : T → Program E A α} {w₀ w : W} {h : History (Shared T A)}
    (hp : Pool (fun _ => Program.machine) serves programs w₀ threads w h) :
    Pool (fun _ => Program.machine) serves programs w₀ (schedule env ts threads w h).1
      (schedule env ts threads w h).2.1 (schedule env ts threads w h).2.2 := by
  induction ts generalizing threads w h with
  | nil => exact hp
  | cons t ts ih =>
    rw [Interaction.schedule]
    cases hprogram : threads t with
    | done a => exact ih hp
    | call e next =>
      have hnode : Program.machine (threads t) = .call e next := by
        rw [hprogram]
        rfl
      exact ih (hp.step hnode (hserve e w))

end Interaction
