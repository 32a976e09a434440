import Spey.Interaction.Crew
import Spey.Interaction.Implement

/-!
# Resources that one thread owns

A call may use resources, and an event may bring a new one, end one, or hand one
over to a thread that it creates. The contract asks that a thread uses what it
owns. If the world brings only resources that are not in use, and every thread
keeps the contract, then no two threads ever use the same resource, none is used
before it came or after it ended, and none is lost but with a thread that ends as
its owner.
-/

namespace Interaction

/-- What calls and events do with resources. -/
structure Handling {E : Type} (A : E → Type) (R : Type) where
  uses : E → R → Prop
  /-- what the world may answer -/
  gives : Event A → Prop
  gains : Event A → Option R
  closes : Event A → Option R
  hands : Event A → Option R
  closes_uses : ∀ {e x r}, closes ⟨e, x⟩ = some r → uses e r
  hands_uses : ∀ {e x r}, hands ⟨e, x⟩ = some r → uses e r
  hands_keeps : ∀ {e r}, hands e = some r → closes e ≠ some r

namespace Handling

variable {E R W α : Type} {A : E → Type}

/-- What is owned after an event. -/
def keeps (k : Handling A R) (owned : R → Prop) (e : Event A) (r : R) : Prop :=
  (owned r ∧ k.closes e ≠ some r ∧ k.hands e ≠ some r) ∨ k.gains e = some r

/-- A thread uses what it owns; the state is what it owns, and what it has called. -/
def own (k : Handling A R) : Contract A ((R → Prop) × History A) where
  permits s e := ∀ r, k.uses e r → s.1 r
  promises s e := k.gives e ∧ ∀ r, k.gains e = some r → ¬ s.1 r
  after s e := (k.keeps s.1 e, e :: s.2)

/-- The world brings what is not in use. -/
structure Serves (k : Handling A R) (live : W → R → Prop) (serves : Service A W) : Prop where
  gives : ∀ {e w x w'}, serves e w x w' → k.gives ⟨e, x⟩
  fresh : ∀ {e w x w' r}, serves e w x w' → k.gains ⟨e, x⟩ = some r → ¬ live w r
  live : ∀ {e w x w'}, serves e w x w' → ∀ r, live w' r ↔
    (live w r ∧ k.closes ⟨e, x⟩ ≠ some r) ∨ k.gains ⟨e, x⟩ = some r

/-- A thread is created where something is handed over, and begins with that. -/
structure Hands (k : Handling A R) (creates : Creates A α) (Q : α → (R → Prop) × History A → Prop) :
    Prop where
  size : ∀ {e new}, creates e new → new.length = if (k.hands e).isSome then 1 else 0
  begins : ∀ {e new} {p : Program E A α}, creates e new → p ∈ new →
    p.Obeys k.own Q (fun r => k.hands e = some r, [])

/-- Who owns what after an event of the thread `t`, where `n` threads were there before. -/
def passed (k : Handling A R) (owner : Nat → R → Prop) (t n : Nat) (e : Event A) (t' : Nat) (r : R) : Prop :=
  if t' = t then k.keeps (owner t) e r
  else if t' = n then k.hands e = some r
  else owner t' r

/-- How many threads there are, if there were `n` at first. -/
def crewSize (k : Handling A R) (n : Nat) : History (Shared Nat A) → Nat
  | [] => n
  | ⟨(_, e), x⟩ :: h => k.crewSize n h + if (k.hands ⟨e, x⟩).isSome then 1 else 0

/-- Who owns what, read off what has happened. -/
def owner (k : Handling A R) (n : Nat) (starts : Nat → R → Prop) :
    History (Shared Nat A) → Nat → R → Prop
  | [] => starts
  | ⟨(t, e), x⟩ :: h => k.passed (k.owner n starts h) t (k.crewSize n h) ⟨e, x⟩

/-- The threads keep the contract with what they own, which is there and theirs alone. -/
structure Owns (k : Handling A R) (live : W → R → Prop) (Q : α → (R → Prop) × History A → Prop)
    (threads : List (Program E A α)) (w : W) (h : History (Shared Nat A)) (owner : Nat → R → Prop) :
    Prop where
  obeys : ∀ t (p : Program E A α), threads[t]? = some p → p.Obeys k.own Q (owner t, Interaction.own t h)
  sole : ∀ t t' r, owner t r → owner t' r → t = t'
  thread : ∀ t r, owner t r → t < threads.length
  live : ∀ t r, owner t r → live w r

variable {k : Handling A R} {live : W → R → Prop} {creates : Creates A α} {serves : Service A W}
  {Q : α → (R → Prop) × History A → Prop} {first threads : List (Program E A α)} {w₀ w : W}
  {h : History (Shared Nat A)} {owner : Nat → R → Prop}

/-- A resource in use is one that is there, and no other thread uses it. -/
theorem Owns.pending (howns : Owns k live Q threads w h owner) {t : Nat} {e : E}
    {next : A e → Program E A α} (ht : threads[t]? = some (.call e next)) {r : R} (hr : k.uses e r) :
    owner t r ∧ live w r := by
  have howned : owner t r := (howns.obeys t _ ht).1 r hr
  exact ⟨howned, howns.live t r howned⟩

section
variable {t t' n : Nat} {e : Event A} {r : R}

theorem passed_self : passed k owner t n e t = k.keeps (owner t) e := by
  funext r
  rw [passed, if_pos rfl]

theorem passed_new (ht : t < n) : passed k owner t n e n = fun r => k.hands e = some r := by
  funext r
  rw [passed, if_neg (by omega), if_pos rfl]

theorem passed_other (ht : t' ≠ t) (hn : t' ≠ n) : passed k owner t n e t' = owner t' := by
  funext r
  rw [passed, if_neg ht, if_neg hn]

end

/-- One event. -/
theorem Owns.step (hserves : k.Serves live serves) (hhands : k.Hands creates Q)
    (hnone : ∀ t, threads.length ≤ t → Interaction.own t h = [])
    (howns : Owns k live Q threads w h owner) {t : Nat} {e : E} {next : A e → Program E A α} {x : A e}
    {w' : W} {new : List (Program E A α)} (ht : threads[t]? = some (.call e next))
    (hx : serves e w x w') (hnew : creates ⟨e, x⟩ new) :
    Owns k live Q (threads.set t (next x) ++ new) w' (⟨(t, e), x⟩ :: h)
      (passed k owner t threads.length ⟨e, x⟩) := by
  have hcall := howns.obeys t _ ht
  obtain ⟨hlt, -⟩ := List.getElem?_eq_some_iff.mp ht
  have hgains : ∀ t' r, k.gains ⟨e, x⟩ = some r → ¬ owner t' r := fun t' r hr ht' =>
    hserves.fresh hx hr (howns.live t' r ht')
  have hhanded : ∀ r, k.hands ⟨e, x⟩ = some r → owner t r := fun r hr => hcall.1 r (k.hands_uses hr)
  -- what each thread owns comes from what was owned before, or is new
  have hfrom : ∀ t' r, passed k owner t threads.length ⟨e, x⟩ t' r →
      (t' = t ∧ k.gains ⟨e, x⟩ = some r) ∨
      (t' = threads.length ∧ owner t r ∧ k.hands ⟨e, x⟩ = some r) ∨
      (owner t' r ∧ k.closes ⟨e, x⟩ ≠ some r ∧ k.hands ⟨e, x⟩ ≠ some r) := by
    intro t' r hr
    by_cases hself : t' = t
    · subst hself
      rw [passed_self] at hr
      exact hr.elim (fun hold => .inr (.inr hold)) fun hnew => .inl ⟨rfl, hnew⟩
    · by_cases hn : t' = threads.length
      · subst hn
        rw [passed_new hlt] at hr
        exact .inr (.inl ⟨rfl, hhanded r hr, hr⟩)
      · rw [passed_other hself hn] at hr
        refine .inr (.inr ⟨hr, fun hclose => ?_, fun hhand => ?_⟩)
        · exact hself (howns.sole t' t r hr (hcall.1 r (k.closes_uses hclose)))
        · exact hself (howns.sole t' t r hr (hhanded r hhand))
  refine ⟨fun t' p hp => ?_, fun t₁ t₂ r h₁ h₂ => ?_, fun t' r hr => ?_, fun t' r hr => ?_⟩
  · rw [getElem?_step ht] at hp
    split_ifs at hp with heq hlt'
    · cases hp
      subst heq
      rw [passed_self, own_cons_self]
      exact hcall.2 x ⟨hserves.gives hx, fun r hr => hgains t' r hr⟩
    · rw [passed_other heq (by omega), own_cons_ne (Ne.symm heq)]
      exact howns.obeys t' p hp
    · -- at most one thread is new
      obtain ⟨hindex, -⟩ := List.getElem?_eq_some_iff.mp hp
      have hsize := hhands.size hnew
      obtain rfl : t' = threads.length := by
        split_ifs at hsize with hsome
        · omega
        · omega
      rw [passed_new hlt, own_cons_ne (Ne.symm heq), hnone _ (Nat.le_refl _)]
      exact hhands.begins hnew (List.mem_of_getElem? hp)
  · rcases hfrom t₁ r h₁ with ⟨rfl, hg₁⟩ | ⟨rfl, ho₁, hh₁⟩ | ⟨ho₁, hc₁, hh₁⟩
    · rcases hfrom t₂ r h₂ with ⟨rfl, -⟩ | ⟨rfl, ho₂, -⟩ | ⟨ho₂, -, -⟩
      · rfl
      · exact absurd ho₂ (hgains _ r hg₁)
      · exact absurd ho₂ (hgains _ r hg₁)
    · rcases hfrom t₂ r h₂ with ⟨rfl, hg₂⟩ | ⟨rfl, -, -⟩ | ⟨-, -, hh₂⟩
      · exact absurd ho₁ (hgains _ r hg₂)
      · rfl
      · exact absurd hh₁ hh₂
    · rcases hfrom t₂ r h₂ with ⟨rfl, hg₂⟩ | ⟨rfl, -, hh₂⟩ | ⟨ho₂, -, -⟩
      · exact absurd ho₁ (hgains _ r hg₂)
      · exact absurd hh₂ hh₁
      · exact howns.sole t₁ t₂ r ho₁ ho₂
  · rw [List.length_append, List.length_set]
    rcases hfrom t' r hr with ⟨rfl, -⟩ | ⟨rfl, -, hh⟩ | ⟨ho, -, -⟩
    · omega
    · have hsize := hhands.size hnew
      rw [hh, Option.isSome_some, if_pos rfl] at hsize
      omega
    · have hbound := howns.thread t' r ho
      omega
  · rw [hserves.live hx]
    rcases hfrom t' r hr with ⟨rfl, hg⟩ | ⟨rfl, ho, hh⟩ | ⟨ho, hc, -⟩
    · exact .inr hg
    · exact .inl ⟨howns.live t r ho, k.hands_keeps hh⟩
    · exact .inl ⟨howns.live t' r ho, hc⟩

/-- There are as many threads as were created. -/
theorem size (hhands : k.Hands creates Q) (hcrew : Crew creates serves first w₀ threads w h) :
    threads.length = k.crewSize first.length h := by
  induction hcrew with
  | start => rfl
  | step hcrew ht hx hnew ih => rw [List.length_append, List.length_set, ih, hhands.size hnew, crewSize]

/-- In every run, what is in use is owned, but for what was in use before and owned by nobody. -/
theorem owned (hserves : k.Serves live serves) (hhands : k.Hands creates Q)
    {starts : Nat → R → Prop} (hstart : Owns k live Q first w₀ [] starts)
    (hcrew : Crew creates serves first w₀ threads w h) :
    Owns k live Q threads w h (k.owner first.length starts h) ∧
      ∀ r, live w r → (live w₀ r ∧ ∀ t, ¬ starts t r) ∨ ∃ t, k.owner first.length starts h t r := by
  induction hcrew with
  | start =>
    refine ⟨hstart, fun r hr => ?_⟩
    by_cases howned : ∃ t, starts t r
    · exact .inr howned
    · exact .inl ⟨hr, fun t ht => howned ⟨t, ht⟩⟩
  | @step threads new w w' h t e next x hcrew ht hx hnew ih =>
    obtain ⟨hlt, -⟩ := List.getElem?_eq_some_iff.mp ht
    have hbefore := size hhands hcrew
    obtain ⟨howns, hcover⟩ := ih
    have hstep := howns.step hserves hhands hcrew.own_nil ht hx hnew
    rw [owner, ← hbefore]
    refine ⟨hstep, fun r hr => ?_⟩
    rcases (hserves.live hx r).mp hr with ⟨hlive, hclose⟩ | hg
    · rcases hcover r hlive with hold | ⟨t', ht'⟩
      · exact .inl hold
      · right
        by_cases hself : t' = t
        · subst hself
          by_cases hh : k.hands ⟨e, x⟩ = some r
          · exact ⟨threads.length, by rw [passed_new hlt]; exact hh⟩
          · exact ⟨t', by rw [passed_self]; exact .inl ⟨ht', hclose, hh⟩⟩
        · have hbound := howns.thread t' r ht'
          exact ⟨t', by rw [passed_other hself (by omega)]; exact ht'⟩
    · exact .inr ⟨t, by rw [passed_self]; exact .inr hg⟩

theorem crewSize_suffix {n : Nat} {l : History (Shared Nat A)} (hl : l <:+ h) : k.crewSize n l ≤ k.crewSize n h := by
  induction h with
  | nil =>
    obtain rfl := List.suffix_nil.mp hl
    exact Nat.le_refl _
  | cons e h ih =>
    rcases List.suffix_cons_iff.mp hl with rfl | hl
    · exact Nat.le_refl _
    · exact Nat.le_trans (ih hl) (Nat.le_add_right _ _)

/-- How the thread `t` came to be: its program, and what it owned at first. -/
inductive Born (k : Handling A R) (creates : Creates A α) (first : List (Program E A α))
    (starts : Nat → R → Prop) (h : History (Shared Nat A)) (t : Nat) : Program E A α → (R → Prop) → Prop
  | first {p : Program E A α} (hp : first[t]? = some p) : Born k creates first starts h t p (starts t)
  | created (later earlier : History (Shared Nat A)) {p : Program E A α} {new : List (Program E A α)}
      {t' : Nat} {e : E} {x : A e} (hh : h = later ++ ⟨(t', e), x⟩ :: earlier)
      (ht : k.crewSize first.length earlier = t) (hnew : creates ⟨e, x⟩ new) (hp : p ∈ new) :
      Born k creates first starts h t p (fun r => k.hands ⟨e, x⟩ = some r)

theorem Born.later {starts : Nat → R → Prop} {t : Nat} {p : Program E A α} {start : R → Prop}
    (hb : Born k creates first starts h t p start) (e : Event (Shared Nat A)) :
    Born k creates first starts (e :: h) t p start := by
  cases hb with
  | first hp => exact .first hp
  | created later earlier hh ht hnew hp =>
    exact .created (e :: later) earlier (congrArg (e :: ·) hh) ht hnew hp

/-- Each thread does what it could do alone, and the promises to it are kept. -/
theorem born (hserves : k.Serves live serves) (hhands : k.Hands creates Q) {starts : Nat → R → Prop}
    (hstart : Owns k live Q first w₀ [] starts) (hcrew : Crew creates serves first w₀ threads w h) {t : Nat}
    {left : Program E A α} (ht : threads[t]? = some left) :
    ∃ p start, Born k creates first starts h t p start ∧ p.After left (Interaction.own t h) ∧
      k.own.Kept (start, []) (Interaction.own t h) ∧
      k.own.run (start, []) (Interaction.own t h) = (k.owner first.length starts h t, Interaction.own t h) := by
  induction hcrew generalizing t left with
  | start => exact ⟨left, starts t, .first ht, .start, trivial, rfl⟩
  | @step threads new w w' h t' e next x hcrew ht' hx hnew ih =>
    obtain ⟨howns, -⟩ := owned hserves hhands hstart hcrew
    have hsize := size hhands hcrew
    obtain ⟨hlt, -⟩ := List.getElem?_eq_some_iff.mp ht'
    rw [owner, ← hsize]
    rw [getElem?_step ht'] at ht
    split_ifs at ht with heq hlt'
    · cases ht
      subst heq
      obtain ⟨p, start, hborn, hafter, hkept, hrun⟩ := ih ht'
      rw [own_cons_self, passed_self]
      refine ⟨p, start, hborn.later _, hafter.step rfl x, ⟨hkept, ?_⟩, ?_⟩
      · rw [hrun]
        exact ⟨hserves.gives hx, fun r hr howned => hserves.fresh hx hr (howns.live t r howned)⟩
      · rw [Contract.run, hrun]
        rfl
    · obtain ⟨p, start, hborn, halone⟩ := ih ht
      rw [own_cons_ne (Ne.symm heq), passed_other heq (by omega)]
      exact ⟨p, start, hborn.later _, halone⟩
    · -- at most one thread is new
      obtain ⟨hindex, -⟩ := List.getElem?_eq_some_iff.mp ht
      have hcount := hhands.size hnew
      obtain rfl : t = threads.length := by
        split_ifs at hcount with hsome
        · omega
        · omega
      rw [own_cons_ne (Ne.symm heq), hcrew.own_nil _ (Nat.le_refl _), passed_new hlt]
      exact ⟨left, _, .created [] h rfl hsize.symm hnew (List.mem_of_getElem? ht), .start,
        trivial, rfl⟩

end Handling

end Interaction
