import Spey.Interaction.Program

/-!
# Past-time properties of histories

A rule judges one event given the history before it. `Always rule h` says that
every event of `h` obeyed the rule when it happened; `Since p r h` says that `p`
happened in `h` and `r` has not happened after it. Both unfold along the latest
event, so an invariant that mentions them is carried call by call.
-/

namespace Interaction

variable {E : Type} {A : E → Type}

/-- A statement about one event and the history it happened after. -/
abbrev Rule (A : E → Type) := Event A → History A → Prop

def Always (rule : Rule A) : History A → Prop
  | [] => True
  | e :: past => rule e past ∧ Always rule past

def Since (p r : Rule A) : History A → Prop
  | [] => False
  | e :: past => p e past ∨ (¬ r e past ∧ Since p r past)

/-- The event happened at some time. -/
abbrev Once (p : Rule A) : History A → Prop := Since p fun _ _ => False

@[simp] theorem always_nil (rule : Rule A) : Always rule [] := trivial

@[simp] theorem always_cons (rule : Rule A) (e : Event A) (past : History A) :
    Always rule (e :: past) ↔ rule e past ∧ Always rule past := Iff.rfl

@[simp] theorem since_nil (p r : Rule A) : ¬ Since p r [] := id

@[simp] theorem since_cons (p r : Rule A) (e : Event A) (past : History A) :
    Since p r (e :: past) ↔ p e past ∨ (¬ r e past ∧ Since p r past) := Iff.rfl

theorem Since.cons {p r : Rule A} {e : Event A} {past : History A} (hr : ¬ r e past)
    (hs : Since p r past) : Since p r (e :: past) :=
  .inr ⟨hr, hs⟩

theorem Since.happened {p r : Rule A} {h : History A} (hs : Since p r h) : ∃ e past, p e past := by
  induction h with
  | nil => exact absurd hs (since_nil p r)
  | cons e past ih =>
    rcases hs with hp | ⟨-, hs⟩
    · exact ⟨e, past, hp⟩
    · exact ih hs

/-- What happened is one of a family of things. -/
theorem Since.choose {ι : Type} {p r : Rule A} {q : ι → Rule A} {h : History A}
    (hq : ∀ e past, p e past → ∃ i, q i e past) (hs : Since p r h) : ∃ i, Since (q i) r h := by
  induction h with
  | nil => exact absurd hs (since_nil p r)
  | cons e past ih =>
    rcases hs with hp | ⟨hr, hs⟩
    · obtain ⟨i, hi⟩ := hq e past hp
      exact ⟨i, .inl hi⟩
    · obtain ⟨i, hi⟩ := ih hs
      exact ⟨i, hi.cons hr⟩

instance decidableAlways (rule : Rule A) [∀ e past, Decidable (rule e past)] :
    (h : History A) → Decidable (Always rule h)
  | [] => isTrue trivial
  | e :: past =>
      haveI := decidableAlways rule past
      inferInstanceAs (Decidable (rule e past ∧ Always rule past))

instance decidableSince (p r : Rule A) [∀ e past, Decidable (p e past)]
    [∀ e past, Decidable (r e past)] : (h : History A) → Decidable (Since p r h)
  | [] => isFalse id
  | e :: past =>
      haveI := decidableSince p r past
      inferInstanceAs (Decidable (p e past ∨ (¬ r e past ∧ Since p r past)))

theorem Always.of_suffix {rule : Rule A} {h h' : History A} (hs : h <:+ h') (hr : Always rule h') :
    Always rule h := by
  obtain ⟨later, rfl⟩ := hs
  induction later with
  | nil => exact hr
  | cons x later ih => exact ih hr.2

theorem Always.mono {rule rule' : Rule A} {h : History A}
    (himp : ∀ e past, rule e past → rule' e past) (hr : Always rule h) : Always rule' h := by
  induction h with
  | nil => trivial
  | cons e past ih => exact ⟨himp e past hr.1, ih hr.2⟩

theorem Always.and {rule rule' : Rule A} {h : History A} (hr : Always rule h)
    (hr' : Always rule' h) : Always (fun e past => rule e past ∧ rule' e past) h := by
  induction h with
  | nil => trivial
  | cons e past ih => exact ⟨⟨hr.1, hr'.1⟩, ih hr.2 hr'.2⟩

/-- `h'` goes on from `h` with events of one kind only. -/
def Extends (kind : Event A → Prop) (h h' : History A) : Prop :=
  ∃ later, h' = later ++ h ∧ ∀ e ∈ later, kind e

namespace Extends

variable {kind : Event A → Prop} {h h' h'' : History A}

theorem refl (kind : Event A → Prop) (h : History A) : Extends kind h h := ⟨[], rfl, nofun⟩

theorem cons {e : Event A} (he : kind e) (hh : Extends kind h h') : Extends kind h (e :: h') := by
  obtain ⟨later, rfl, hlater⟩ := hh
  refine ⟨e :: later, rfl, ?_⟩
  intro x hx
  rcases List.mem_cons.mp hx with rfl | hx
  · exact he
  · exact hlater x hx

theorem mono {kind' : Event A → Prop} (hkind : ∀ e, kind e → kind' e) (hh : Extends kind h h') :
    Extends kind' h h' := by
  obtain ⟨later, rfl, hlater⟩ := hh
  exact ⟨later, rfl, fun e he => hkind e (hlater e he)⟩

theorem trans (h₁ : Extends kind h h') (h₂ : Extends kind h' h'') : Extends kind h h'' := by
  obtain ⟨l₁, rfl, hl₁⟩ := h₁
  obtain ⟨l₂, rfl, hl₂⟩ := h₂
  refine ⟨l₂ ++ l₁, by rw [List.append_assoc], ?_⟩
  intro x hx
  rcases List.mem_append.mp hx with hx | hx
  · exact hl₂ x hx
  · exact hl₁ x hx

/-- An invariant that events of the kind keep. -/
theorem invariant {P : History A → Prop} (hP : ∀ e past, kind e → P past → P (e :: past))
    (hh : Extends kind h h') (hp : P h) : P h' := by
  obtain ⟨later, rfl, hlater⟩ := hh
  induction later with
  | nil => exact hp
  | cons e later ih =>
    have hkind := hlater e List.mem_cons_self
    exact hP e _ hkind (ih fun x hx => hlater x (List.mem_cons_of_mem _ hx))

theorem always {rule : Rule A} (hrule : ∀ e past, kind e → rule e past) (hh : Extends kind h h')
    (ha : Always rule h) : Always rule h' :=
  hh.invariant (fun e past hk hp => ⟨hrule e past hk, hp⟩) ha

/-- Events that neither start nor end what `Since` looks for do not change it. -/
theorem since_iff {p r : Rule A} (hp : ∀ e past, kind e → ¬ p e past ∧ ¬ r e past)
    (hh : Extends kind h h') : Since p r h' ↔ Since p r h :=
  hh.invariant (P := fun x => Since p r x ↔ Since p r h)
    (fun e past hk ih => by rw [since_cons, ih]; simp [hp e past hk]) Iff.rfl

end Extends

end Interaction
