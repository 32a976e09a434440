import Spey.Interaction.Contract
import Spey.Interaction.Pool

/-!
# Crews

A crew is a pool that grows: a call may create threads, which are numbered in the
order of their creation. Each thread is a program, and each of its steps is a call
that the world serves in one piece.

`Crew.contracts` is the assume-guarantee rule. Every thread obeys the contract
from a state of its own; an assertion on these states, the world and the history
that gives the caller of each call its promises, and is kept by the call, holds of
every run.
-/

namespace Interaction

variable {E P W α : Type} {A : E → Type}

/-- `creates e new`: with the event, the threads of `new` come to be. -/
abbrev Creates (A : E → Type) (α : Type) := Event A → List (Program E A α) → Prop

inductive Crew (creates : Creates A α) (serves : Service A W) (first : List (Program E A α))
    (w₀ : W) : List (Program E A α) → W → History (Shared Nat A) → Prop
  | start : Crew creates serves first w₀ first w₀ []
  | step {threads new : List (Program E A α)} {w w' : W} {h : History (Shared Nat A)} {t : Nat}
      {e : E} {next : A e → Program E A α} {x : A e} (hcrew : Crew creates serves first w₀ threads w h)
      (ht : threads[t]? = some (.call e next)) (hx : serves e w x w') (hnew : creates ⟨e, x⟩ new) :
      Crew creates serves first w₀ (threads.set t (next x) ++ new) w' (⟨(t, e), x⟩ :: h)

section Lists
variable {β : Type} {l : List β} {t : Nat}

/-- The threads after a step: the one that called, the others, and the new ones. -/
theorem getElem?_step {b b' : β} {new : List β} {t' : Nat} (ht : l[t]? = some b) :
    (l.set t b' ++ new)[t']? =
      if t' = t then some b' else if t' < l.length then l[t']? else new[t' - l.length]? := by
  obtain ⟨hlt, -⟩ := List.getElem?_eq_some_iff.mp ht
  rw [List.getElem?_append, List.length_set]
  split_ifs with h h' h'
  · subst h'
    rw [List.getElem?_set_self hlt]
  · rw [List.getElem?_set_ne (Ne.symm h')]
  · omega
  · rfl

end Lists

section
variable {creates : Creates A α} {serves : Service A W} {first threads : List (Program E A α)}
  {w₀ w : W} {h : History (Shared Nat A)}

/-- What holds at the start and is kept by every step holds of every run. -/
theorem Crew.invariant {I : List (Program E A α) → W → History (Shared Nat A) → Prop}
    (hstart : I first w₀ [])
    (hstep : ∀ threads new w w' h t e next x, Crew creates serves first w₀ threads w h →
      I threads w h → threads[t]? = some (.call e next) → serves e w x w' → creates ⟨e, x⟩ new →
      I (threads.set t (next x) ++ new) w' (⟨(t, e), x⟩ :: h))
    (hcrew : Crew creates serves first w₀ threads w h) : I threads w h := by
  induction hcrew with
  | start => exact hstart
  | step hcrew ht hx hnew ih => exact hstep _ _ _ _ _ _ _ _ _ hcrew ih ht hx hnew

/-- The assume-guarantee rule. The state of each thread is read off the history. -/
theorem Crew.contracts {c : Contract A P} {Q : α → P → Prop} {J : W → History (Shared Nat A) → Prop}
    (state : Nat → History (Shared Nat A) → P)
    (hfirst : ∀ t (p : Program E A α), first[t]? = some p → p.Obeys c Q (state t [])) (hstart : J w₀ [])
    (hstep : ∀ threads w w' h t e x new, Crew creates serves first w₀ threads w h → J w h →
      t < threads.length → c.permits (state t h) e → serves e w x w' → creates ⟨e, x⟩ new →
      c.promises (state t h) ⟨e, x⟩ ∧
        state t (⟨(t, e), x⟩ :: h) = c.after (state t h) ⟨e, x⟩ ∧
        (∀ t' < threads.length, t' ≠ t → state t' (⟨(t, e), x⟩ :: h) = state t' h) ∧
        (∀ i (p : Program E A α), new[i]? = some p → p.Obeys c Q (state (threads.length + i) (⟨(t, e), x⟩ :: h))) ∧
        J w' (⟨(t, e), x⟩ :: h))
    (hcrew : Crew creates serves first w₀ threads w h) :
    (∀ t (p : Program E A α), threads[t]? = some p → p.Obeys c Q (state t h)) ∧ J w h := by
  induction hcrew with
  | start => exact ⟨hfirst, hstart⟩
  | @step threads new w w' h t e next x hcrew ht hx hnew ih =>
    obtain ⟨hobey, hJ⟩ := ih
    have hcall := hobey t _ ht
    obtain ⟨hlt, -⟩ := List.getElem?_eq_some_iff.mp ht
    obtain ⟨hpromise, hself, hothers, hfresh, hJ'⟩ := hstep _ _ _ _ _ _ _ _ hcrew hJ hlt hcall.1 hx hnew
    refine ⟨fun t' p hp => ?_, hJ'⟩
    rw [getElem?_step ht] at hp
    split_ifs at hp with heq hlt'
    · cases hp
      subst heq
      rw [hself]
      exact hcall.2 x hpromise
    · rw [hothers t' hlt' heq]
      exact hobey t' p hp
    · have hindex : threads.length + (t' - threads.length) = t' := by omega
      rw [← hindex]
      exact hfresh _ p hp

/-- A run in which all answers are good is one in a world that gives good answers. -/
theorem Crew.among {good : Event A → Prop} (hcrew : Crew creates serves first w₀ threads w h)
    (hgood : ∀ e ∈ h, good ⟨e.1.2, e.2⟩) :
    Crew creates (fun e w x w' => serves e w x w' ∧ good ⟨e, x⟩) first w₀ threads w h := by
  induction hcrew with
  | start => exact .start
  | step hcrew ht hx hnew ih =>
    obtain ⟨hlast, hearlier⟩ := List.forall_mem_cons.mp hgood
    exact (ih hearlier).step ht ⟨hx, hlast⟩ hnew

/-- Calls of one kind only, in all threads. -/
theorem Crew.only {kind : E → Prop} {Q : α → Unit → Prop}
    (hfirst : ∀ p ∈ first, p.Obeys (.only kind) Q ())
    (hnew : ∀ e new, creates e new → ∀ p ∈ new, p.Obeys (.only kind) Q ())
    (hcrew : Crew creates serves first w₀ threads w h) : ∀ e ∈ h, kind e.1.2 := by
  have hkept := hcrew.contracts (c := .only kind) (Q := Q) (J := fun _ h => ∀ e ∈ h, kind e.1.2)
    (fun _ _ => ()) (fun t p hp => hfirst p (List.mem_of_getElem? hp)) nofun
    fun threads w w' h t e x new hcrew hJ hlt hpermits hx hcreate =>
      ⟨trivial, rfl, fun _ _ _ => rfl,
        fun i p hp => hnew _ new hcreate p (List.mem_of_getElem? hp), fun e' he' => by
          rcases List.mem_cons.mp he' with rfl | he'
          · exact hpermits
          · exact hJ e' he'⟩
  exact hkept.2

theorem own_cons_self {t : Nat} {e : E} {x : A e} :
    own t (⟨(t, e), x⟩ :: h) = ⟨e, x⟩ :: own t h := by
  rw [own, if_pos rfl]

theorem own_cons_ne {t t' : Nat} {e : E} {x : A e} (ht : t' ≠ t) :
    own t (⟨(t', e), x⟩ :: h) = own t h := by
  rw [own, if_neg ht]

/-- A thread that is still to come has done nothing. -/
theorem Crew.own_nil (hcrew : Crew creates serves first w₀ threads w h) :
    ∀ t, threads.length ≤ t → own t h = [] := by
  induction hcrew with
  | start => exact fun _ _ => rfl
  | @step threads new w w' h t e next x hcrew ht hx hnew ih =>
    intro t' hle
    obtain ⟨hlt, -⟩ := List.getElem?_eq_some_iff.mp ht
    rw [List.length_append, List.length_set] at hle
    rw [own_cons_ne (by omega)]
    exact ih t' (by omega)

/-- Each thread does what it could do alone: it was there at first, or an event created it. -/
theorem Crew.alone (hcrew : Crew creates serves first w₀ threads w h) {t : Nat}
    {left : Program E A α} (ht : threads[t]? = some left) :
    ∃ p, (p ∈ first ∨ ∃ e ∈ h, ∃ new, creates ⟨e.1.2, e.2⟩ new ∧ p ∈ new) ∧
      Machine.On Program.machine p left (own t h) := by
  induction hcrew generalizing t left with
  | start => exact ⟨left, .inl (List.mem_of_getElem? ht), .start⟩
  | @step threads new w w' h t' e next x hcrew ht' hx hnew ih =>
    rw [getElem?_step ht'] at ht
    split_ifs at ht with heq hlt
    · cases ht
      subst heq
      obtain ⟨p, hp, hon⟩ := ih ht'
      refine ⟨p, hp.imp_right fun ⟨e', he', hcreate⟩ => ⟨e', List.mem_cons_of_mem _ he', hcreate⟩, ?_⟩
      rw [own_cons_self]
      exact hon.step rfl x
    · obtain ⟨p, hp, hon⟩ := ih ht
      refine ⟨p, hp.imp_right fun ⟨e', he', hcreate⟩ => ⟨e', List.mem_cons_of_mem _ he', hcreate⟩, ?_⟩
      rw [own_cons_ne (Ne.symm heq)]
      exact hon
    · refine ⟨left, .inr ⟨_, List.mem_cons_self, new, hnew, List.mem_of_getElem? ht⟩, ?_⟩
      rw [own_cons_ne (Ne.symm heq), hcrew.own_nil t (Nat.le_of_not_lt hlt)]
      exact .start

end

end Interaction
