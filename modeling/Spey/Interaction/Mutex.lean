import Spey.Interaction.Crew

/-!
# One lock

The threads of a crew share a lock. The discipline is a contract: a thread takes
the lock when it does not hold it and releases it when it does, and each other call is
made with the lock, without it, or either way. If the world hands out the lock
only when it is free, and every thread keeps the discipline, then at most one
thread holds it, and a thread that waits for it waits for one that does not.
-/

namespace Interaction

/-- How a call stands to the lock. -/
inductive Access where
  | take
  | release
  /-- made with the lock only -/
  | inside
  /-- made without the lock only -/
  | outside
  | free
  deriving DecidableEq

namespace Access

/-- Who may make the call: one that holds the lock, or one that does not. -/
def allows : Access → Bool → Prop
  | take, held | outside, held => held = false
  | release, held | inside, held => held = true
  | free, _ => True

/-- Whether the lock is held after the call. -/
def leads : Access → Bool → Bool
  | take, _ => true
  | release, _ => false
  | inside, held | outside, held | free, held => held

end Access

namespace Mutex

variable {E W : Type} {A : E → Type} {role : E → Access}

/-- The discipline; the state is whether the thread holds the lock. -/
def lock (role : E → Access) : Contract A Bool where
  permits held e := (role e).allows held
  promises _ _ := True
  after held e := (role e.1).leads held

/-- Whether a thread holds the lock, by what it has called. -/
def holding (role : E → Access) : History A → Bool
  | [] => false
  | e :: past => (lock role).after (holding role past) e

/-- The thread `t` holds the lock. -/
abbrev Holds (role : E → Access) (t : Nat) (h : History (Shared Nat A)) : Prop :=
  holding role (own t h) = true

/-- The world hands out the lock when it is free. -/
structure Grants (role : E → Access) (locked : W → Bool) (serves : Service A W) : Prop where
  take : ∀ {e w x w'}, serves e w x w' → role e = .take → locked w = false ∧ locked w' = true
  release : ∀ {e w x w'}, serves e w x w' → role e = .release → locked w' = false
  other : ∀ {e w x w'}, serves e w x w' → role e ≠ .take → role e ≠ .release → locked w' = locked w

/-- Where the lock is. -/
structure Held (role : E → Access) (locked : W → Bool) (w : W) (h : History (Shared Nat A)) : Prop where
  sole : ∀ t t', Holds role t h → Holds role t' h → t = t'
  locked : locked w = true ↔ ∃ t, Holds role t h

variable {locked : W → Bool} {w w' : W} {h : History (Shared Nat A)} {t : Nat} {e : E} {x : A e}

theorem holds_cons_self : Holds role t (⟨(t, e), x⟩ :: h) ↔
    (role e).leads (holding role (own t h)) = true := by
  rw [Holds, own_cons_self, holding, lock]

theorem holds_cons_ne {t' : Nat} (ht : t ≠ t') :
    Holds role t' (⟨(t, e), x⟩ :: h) ↔ Holds role t' h := by
  rw [Holds, own_cons_ne ht]

/-- A call that leaves the lock alone. -/
theorem holds_cons_other (htake : role e ≠ .take) (hrelease : role e ≠ .release) (t' : Nat) :
    Holds role t' (⟨(t, e), x⟩ :: h) ↔ Holds role t' h := by
  by_cases ht : t = t'
  · subst ht
    rw [holds_cons_self]
    cases hrole : role e with
    | take => exact absurd hrole htake
    | release => exact absurd hrole hrelease
    | inside | outside | free => rfl
  · exact holds_cons_ne ht

/-- One call of a thread that keeps the discipline. -/
theorem Held.step {serves : Service A W} (hgrants : Grants role locked serves)
    (hheld : Held role locked w h) (hpermits : (role e).allows (holding role (own t h)))
    (hx : serves e w x w') : Held role locked w' (⟨(t, e), x⟩ :: h) := by
  by_cases htake : role e = .take
  · obtain ⟨hfree, hlocked⟩ := hgrants.take hx htake
    have hnone : ∀ t', ¬ Holds role t' h := fun t' ht' => by
      rw [hheld.locked.mpr ⟨t', ht'⟩] at hfree
      cases hfree
    have hself : Holds role t (⟨(t, e), x⟩ :: h) := by
      rw [holds_cons_self, htake, Access.leads]
    have honly : ∀ t', Holds role t' (⟨(t, e), x⟩ :: h) → t = t' := fun t' ht' => by
      by_contra hne
      exact hnone t' ((holds_cons_ne hne).mp ht')
    exact ⟨fun t₁ t₂ h₁ h₂ => (honly t₁ h₁).symm.trans (honly t₂ h₂), fun _ => ⟨t, hself⟩,
      fun _ => hlocked⟩
  by_cases hrelease : role e = .release
  · have hfree := hgrants.release hx hrelease
    have hself : Holds role t h := by
      rwa [hrelease] at hpermits
    have hnone : ∀ t', ¬ Holds role t' (⟨(t, e), x⟩ :: h) := fun t' ht' => by
      by_cases hne : t = t'
      · subst hne
        rw [holds_cons_self, hrelease] at ht'
        cases ht'
      · exact hne (hheld.sole t t' hself ((holds_cons_ne hne).mp ht'))
    refine ⟨fun t₁ _ h₁ => absurd h₁ (hnone t₁), fun hlocked => ?_, fun ⟨t', ht'⟩ => absurd ht' (hnone t')⟩
    rw [hfree] at hlocked
    cases hlocked
  · have hsame := holds_cons_other (x := x) (t := t) (h := h) htake hrelease
    refine ⟨fun t₁ t₂ h₁ h₂ => hheld.sole t₁ t₂ ((hsame t₁).mp h₁) ((hsame t₂).mp h₂), ?_⟩
    rw [hgrants.other hx htake hrelease, hheld.locked]
    exact exists_congr fun t' => (hsame t').symm

variable {α : Type} {creates : Creates A α} {serves : Service A W}
  {first threads : List (Program E A α)} {w₀ : W} {Q : α → Bool → Prop}

/-- What the threads and the lock are at any time. -/
structure Exclusive (role : E → Access) (locked : W → Bool) (Q : α → Bool → Prop)
    (threads : List (Program E A α)) (w : W) (h : History (Shared Nat A)) : Prop
    extends Held role locked w h where
  obeys : ∀ t (p : Program E A α), threads[t]? = some p → p.Obeys (lock role) Q (holding role (own t h))
  thread : ∀ t, Holds role t h → t < threads.length

theorem exclusive (hgrants : Grants role locked serves)
    (hfirst : ∀ p ∈ first, p.Obeys (lock role) Q false)
    (hnew : ∀ e new, creates e new → ∀ p ∈ new, p.Obeys (lock role) Q false)
    (hfree : locked w₀ = false) (hcrew : Crew creates serves first w₀ threads w h) :
    Exclusive role locked Q threads w h := by
  have hstart : Held role locked w₀ ([] : History (Shared Nat A)) := by
    refine ⟨fun t _ ht => (nomatch ht), fun hlocked => ?_, fun ⟨t, ht⟩ => (nomatch ht)⟩
    rw [hfree] at hlocked
    cases hlocked
  have hkept : (∀ t (p : Program E A α), threads[t]? = some p →
      p.Obeys (lock role) Q (holding role (own t h))) ∧ Held role locked w h := by
    refine hcrew.contracts (fun t h => holding role (own t h))
      (fun t p hp => hfirst p (List.mem_of_getElem? hp)) hstart ?_
    intro threads w w' h t e x new hcrew hheld hlt hpermits hx hcreate
    refine ⟨trivial, by rw [own_cons_self, holding], fun t' _ ht' => by rw [own_cons_ne (Ne.symm ht')],
      fun i p hp => ?_, hheld.step hgrants hpermits hx⟩
    rw [own_cons_ne (by omega), hcrew.own_nil _ (Nat.le_add_right _ i)]
    exact hnew _ new hcreate p (List.mem_of_getElem? hp)
  refine ⟨hkept.2, hkept.1, fun t ht => ?_⟩
  by_contra hle
  rw [Holds, hcrew.own_nil t (Nat.le_of_not_lt hle)] at ht
  cases ht

/-- Who holds the lock is not waiting for it, nor for anything that is awaited without it. -/
theorem Exclusive.pending (hexclusive : Exclusive role locked Q threads w h) {next : A e → Program E A α}
    (ht : threads[t]? = some (.call e next)) (hholds : Holds role t h) :
    role e ≠ .take ∧ role e ≠ .outside := by
  have hpermits : (role e).allows (holding role (own t h)) := (hexclusive.obeys t _ ht).1
  rw [hholds] at hpermits
  constructor
  · intro hrole
    rw [hrole] at hpermits
    cases hpermits
  · intro hrole
    rw [hrole] at hpermits
    cases hpermits

/-- A call that needs the lock is made by the one thread that holds it. -/
theorem Exclusive.inside (hexclusive : Exclusive role locked Q threads w h)
    {next : A e → Program E A α} (ht : threads[t]? = some (.call e next)) (hrole : role e = .inside) :
    Holds role t h ∧ ∀ t', Holds role t' h → t' = t := by
  have hpermits : (role e).allows (holding role (own t h)) := (hexclusive.obeys t _ ht).1
  rw [hrole] at hpermits
  exact ⟨hpermits, fun t' ht' => hexclusive.sole t' t ht' hpermits⟩

end Mutex

end Interaction
