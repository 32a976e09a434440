import Spey.Interaction.Action
import Spey.Interaction.Monitor

/-!
# Contracts

A contract has a state that follows the events of a program. In each state it
permits some calls, and promises that some answers are not given. A program
obeys the contract when it makes permitted calls only, as long as the promises
are kept; what may be said of its end is part of the statement. `Action.obeys`
has a rule for each way to build an action, and `Action.Keeps` is the special
case of an assertion that holds before and after.
-/

namespace Interaction

variable {E : Type} {A : E → Type} {P P' X S α β : Type}

structure Contract (A : E → Type) (P : Type) where
  /-- what the program may call -/
  permits : P → E → Prop
  /-- what it may be answered -/
  promises : P → Event A → Prop
  after : P → Event A → P

namespace Contract

/-- Calls of one kind only. -/
def only (kind : E → Prop) : Contract A Unit where
  permits _ e := kind e
  promises _ _ := True
  after _ _ := ()

/-- The contract, with calls of one kind only. -/
def restrict (c : Contract A P) (kind : E → Prop) : Contract A P where
  permits p e := c.permits p e ∧ kind e
  promises := c.promises
  after := c.after

/-- Both contracts, side by side. -/
def prod (c : Contract A P) (d : Contract A P') : Contract A (P × P') where
  permits p e := c.permits p.1 e ∧ d.permits p.2 e
  promises p e := c.promises p.1 e ∧ d.promises p.2 e
  after p e := (c.after p.1 e, d.after p.2 e)

/-- Where the events lead. -/
def run (c : Contract A P) (p : P) : History A → P
  | [] => p
  | e :: h => c.after (c.run p h) e

/-- What was promised was kept. -/
def Kept (c : Contract A P) (p : P) : History A → Prop
  | [] => True
  | e :: h => c.Kept p h ∧ c.promises (c.run p h) e

variable {c : Contract A P} {d : Contract A P'} {p : P} {p' : P'} {h : History A}

theorem run_prod (h : History A) : (c.prod d).run (p, p') h = (c.run p h, d.run p' h) := by
  induction h with
  | nil => rfl
  | cons e h ih => rw [run, ih]; rfl

theorem Kept.always (hpromises : ∀ p e, c.promises p e) (h : History A) : c.Kept p h := by
  induction h with
  | nil => trivial
  | cons e h ih => exact ⟨ih, hpromises _ e⟩

theorem Kept.prod (hc : c.Kept p h) (hd : d.Kept p' h) : (c.prod d).Kept (p, p') h := by
  induction h with
  | nil => trivial
  | cons e h ih =>
    refine ⟨ih hc.1 hd.1, ?_⟩
    rw [run_prod]
    exact ⟨hc.2, hd.2⟩

end Contract

namespace Program

/-- The program obeys the contract from the state `p`, and ends in `Q`. -/
def Obeys (c : Contract A P) (Q : α → P → Prop) : Program E A α → P → Prop
  | .done a, p => Q a p
  | .call e next, p => c.permits p e ∧
      ∀ x, c.promises p ⟨e, x⟩ → (next x).Obeys c Q (c.after p ⟨e, x⟩)

variable {c : Contract A P} {d : Contract A P'}

theorem obeys_bind (p : Program E A α) (f : α → Program E A β) (Q : β → P → Prop) (s : P) :
    (p.bind f).Obeys c Q s ↔ p.Obeys c (fun a s' => (f a).Obeys c Q s') s := by
  induction p generalizing s with
  | done a => rfl
  | call e next ih =>
    exact and_congr_right fun _ => forall_congr' fun x => imp_congr_right fun _ => ih x _

theorem Obeys.mono {p : Program E A α} {Q R : α → P → Prop} {s : P} (hp : p.Obeys c Q s)
    (hQR : ∀ a s', Q a s' → R a s') : p.Obeys c R s := by
  induction p generalizing s with
  | done a => exact hQR a s hp
  | call e next ih => exact ⟨hp.1, fun x hx => ih x (hp.2 x hx)⟩

theorem Obeys.prod {p : Program E A α} {Q : α → P → Prop} {R : α → P' → Prop} {s : P} {s' : P'}
    (hc : p.Obeys c Q s) (hd : p.Obeys d R s') :
    p.Obeys (c.prod d) (fun a t => Q a t.1 ∧ R a t.2) (s, s') := by
  induction p generalizing s s' with
  | done a => exact ⟨hc, hd⟩
  | call e next ih =>
    exact ⟨⟨hc.1, hd.1⟩, fun x hx => ih x (hc.2 x hx.1) (hd.2 x hx.2)⟩

theorem Obeys.only_mono {kind kind' : E → Prop} {p : Program E A α} {Q : α → Unit → Prop}
    (hp : p.Obeys (.only kind) Q ()) (hkind : ∀ e, kind e → kind' e) : p.Obeys (.only kind') Q () := by
  induction p with
  | done a => exact hp
  | call e next ih => exact ⟨hkind e hp.1, fun x hx => ih x (hp.2 x hx)⟩

theorem Obeys.of_restrict {kind : E → Prop} {p : Program E A α} {Q : α → P → Prop} {s : P}
    (hp : p.Obeys (c.restrict kind) Q s) : p.Obeys c Q s := by
  induction p generalizing s with
  | done a => exact hp
  | call e next ih => exact ⟨hp.1.1, fun x hx => ih x (hp.2 x hx)⟩

theorem Obeys.only {kind : E → Prop} {p : Program E A α} {Q : α → P → Prop} {s : P}
    (hp : p.Obeys (c.restrict kind) Q s) (hpromises : ∀ s e, c.promises s e) :
    p.Obeys (.only kind) (fun _ _ => True) () := by
  induction p generalizing s with
  | done a => trivial
  | call e next ih => exact ⟨hp.1.2, fun x _ => ih x (hp.2 x (hpromises _ _))⟩

/-- Every program makes calls of some kind. -/
theorem obeys_any (p : Program E A α) : p.Obeys (.only fun _ => True) (fun _ _ => True) () := by
  induction p with
  | done a => trivial
  | call e next ih => exact ⟨trivial, fun x _ => ih x⟩

/-- A program whose calls are embedded in a larger signature. -/
theorem obeys_embed {E' : Type} {A' : E' → Type} {b : Contract A' P} {into : E → E'}
    {back : (e : E) → A' (into e) → A e} {result : α → β} {I : P → P' → Prop} {Q : β → P → Prop}
    {R : α → P' → Prop}
    (hcall : ∀ e s u, I s u → d.permits u e → b.permits s (into e) ∧
      ∀ x, b.promises s ⟨into e, x⟩ →
        d.promises u ⟨e, back e x⟩ ∧ I (b.after s ⟨into e, x⟩) (d.after u ⟨e, back e x⟩))
    (hdone : ∀ a s u, I s u → R a u → Q (result a) s) {p : Program E A α} {s : P} {u : P'}
    (hI : I s u) (hp : p.Obeys d R u) : (p.embed into back result).Obeys b Q s := by
  induction p generalizing s u with
  | done a => exact hdone a s u hI hp
  | call e next ih =>
    obtain ⟨hpermits, hnext⟩ := hcall e s u hI hp.1
    refine ⟨hpermits, fun x hx => ?_⟩
    obtain ⟨hpromise, hI'⟩ := hnext x hx
    exact ih _ hI' (hp.2 _ hpromise)

end Program

namespace Action

variable {c : Contract A P} {s : S} {p : P}

/-- Which outcome, state and contract state an action must end in. -/
abbrev Outcome (X S α P : Type) := Except X α → S → P → Prop

def obeys (c : Contract A P) (x : Action A X S α) (Q : Outcome X S α P) (s : S) (p : P) : Prop :=
  (x s).Obeys c (fun r p' => Q r.1 r.2 p') p

theorem obeys_mono {x : Action A X S α} {Q R : Outcome X S α P} (hx : x.obeys c Q s p)
    (hQR : ∀ r s' p', Q r s' p' → R r s' p') : x.obeys c R s p :=
  Program.Obeys.mono hx fun r p' => hQR r.1 r.2 p'

theorem obeys_of_restrict {kind : E → Prop} {x : Action A X S α} {Q : Outcome X S α P}
    (hx : x.obeys (c.restrict kind) Q s p) : x.obeys c Q s p := Program.Obeys.of_restrict hx

theorem obeys_prod {d : Contract A P'} {p' : P'} {x : Action A X S α} {Q : Outcome X S α P}
    {R : Outcome X S α P'} (hc : x.obeys c Q s p) (hd : x.obeys d R s p') :
    x.obeys (c.prod d) (fun r s t => Q r s t.1 ∧ R r s t.2) s (p, p') := Program.Obeys.prod hc hd

@[simp] theorem obeys_pure (a : α) (Q : Outcome X S α P) :
    obeys c (pure a : Action A X S α) Q s p ↔ Q (.ok a) s p := Iff.rfl

@[simp] theorem obeys_bind (x : Action A X S α) (f : α → Action A X S β) (Q : Outcome X S β P) :
    obeys c (x >>= f) Q s p ↔ obeys c x (fun r s' p' => match r with
      | .ok a => obeys c (f a) Q s' p'
      | .error e => Q (.error e) s' p') s p := by
  show ((x s).bind _).Obeys c _ p ↔ _
  rw [Program.obeys_bind]
  apply iff_of_eq
  unfold obeys
  congr 1
  funext r p'
  rcases r with ⟨_ | _, s'⟩ <;> rfl

/-- What holds however the first part ends. -/
theorem obeys_andThen {x : Action A X S α} {f : α → Action A X S β} {Q : Outcome X S β P} {R : S → P → Prop}
    (hx : x.obeys c (fun _ s' p' => R s' p') s p) (herror : ∀ e s' p', R s' p' → Q (.error e) s' p')
    (hf : ∀ a s' p', R s' p' → (f a).obeys c Q s' p') : (x >>= f).obeys c Q s p := by
  rw [obeys_bind]
  refine obeys_mono hx fun r s' p' hr => ?_
  cases r with
  | ok a => exact hf a s' p' hr
  | error e => exact herror e s' p' hr

@[simp] theorem obeys_call (e : E) (Q : Outcome X S (A e) P) :
    obeys c (call e : Action A X S (A e)) Q s p ↔ c.permits p e ∧
      ∀ x, c.promises p ⟨e, x⟩ → Q (.ok x) s (c.after p ⟨e, x⟩) := Iff.rfl

@[simp] theorem obeys_getState (Q : Outcome X S S P) :
    obeys c (getState : Action A X S S) Q s p ↔ Q (.ok s) s p := Iff.rfl

@[simp] theorem obeys_update (f : S → S) (Q : Outcome X S Unit P) :
    obeys c (update f : Action A X S Unit) Q s p ↔ Q (.ok ()) (f s) p := Iff.rfl

@[simp] theorem obeys_raise (x : X) (Q : Outcome X S α P) :
    obeys c (raise x : Action A X S α) Q s p ↔ Q (.error x) s p := Iff.rfl

@[simp] theorem obeys_handle (x : Action A X S α) (clauses : X → Option (Action A X S α))
    (Q : Outcome X S α P) : obeys c (handle x clauses) Q s p ↔
      obeys c x (fun r s' p' => match r with
        | .ok a => Q (.ok a) s' p'
        | .error e => match clauses e with
          | some y => obeys c y Q s' p'
          | none => Q (.error e) s' p') s p := by
  show ((x s).bind _).Obeys c _ p ↔ _
  rw [Program.obeys_bind]
  apply iff_of_eq
  unfold obeys
  congr 1
  funext r p'
  rcases r with ⟨e | _, s'⟩
  · dsimp only
    cases clauses e <;> rfl
  · rfl

@[simp] theorem obeys_ite (q : Prop) [Decidable q] (x y : Action A X S α) (Q : Outcome X S α P) :
    obeys c (if q then x else y) Q s p ↔ if q then obeys c x Q s p else obeys c y Q s p := by
  split <;> rfl

/-- The loop rule. -/
theorem obeys_repeatUntil {cutoff : X} {body : Action A X S (Option β)} {Q : Outcome X S β P}
    (I : S → P → Prop)
    (hbody : ∀ s p, I s p → obeys c body (fun r s' p' => match r with
        | .ok (some b) => Q (.ok b) s' p'
        | .ok none => I s' p'
        | .error e => Q (.error e) s' p') s p)
    (hcut : ∀ s p, I s p → Q (.error cutoff) s p) (rounds : Nat) :
    ∀ s p, I s p → obeys c (repeatUntil cutoff body rounds) Q s p := by
  induction rounds with
  | zero => exact hcut
  | succ rounds ih =>
    intro s p hI
    simp only [repeatUntil, obeys_bind]
    refine obeys_mono (hbody s p hI) fun r s' p' hr => ?_
    rcases r with e | _ | b
    · exact hr
    · exact ih s' p' hr
    · exact hr

/-! ## Assertions that are kept -/

/-- From where `I` holds, the action obeys the contract; it returns where `I` holds,
and an exception leaves it where `J` does. -/
def Keeps (c : Contract A P) (I : S → P → Prop) (J : X → S → P → Prop) (x : Action A X S α) : Prop :=
  ∀ s p, I s p → x.obeys c (fun r s' p' => match r with
    | .ok _ => I s' p'
    | .error e => J e s' p') s p

section
variable {cutoff : X} {I : S → P → Prop} {J J' : X → S → P → Prop} {x : Action A X S α}
  {f : α → Action A X S β}

theorem keeps_pure (a : α) : Keeps c I J (pure a : Action A X S α) := fun _ _ hI => hI

theorem keeps_raise {e : X} (he : ∀ s p, I s p → J e s p) :
    Keeps c I J (raise e : Action A X S α) := he

theorem keeps_getState : Keeps c I J (getState : Action A X S S) := fun _ _ hI => hI

theorem keeps_update {f : S → S} (hf : ∀ s p, I s p → I (f s) p) :
    Keeps c I J (update f : Action A X S Unit) := hf

theorem keeps_call {e : E} (he : ∀ s p, I s p → c.permits p e ∧
      ∀ a, c.promises p ⟨e, a⟩ → I s (c.after p ⟨e, a⟩)) :
    Keeps c I J (call e : Action A X S (A e)) := he

theorem Keeps.mono (hx : Keeps c I J x) (hJ : ∀ e s p, J e s p → J' e s p) : Keeps c I J' x := by
  intro s p hI
  refine obeys_mono (hx s p hI) fun r s' p' hr => ?_
  rcases r with e | a
  · exact hJ e s' p' hr
  · exact hr

theorem Keeps.bind (hx : Keeps c I J x) (hf : ∀ a, Keeps c I J (f a)) : Keeps c I J (x >>= f) := by
  intro s p hI
  rw [obeys_bind]
  refine obeys_mono (hx s p hI) fun r s' p' hr => ?_
  rcases r with e | a
  · exact hr
  · exact hf a s' p' hr

/-- What is caught is dealt with from where `I` holds. -/
theorem Keeps.handle {clauses : X → Option (Action A X S α)} (hx : Keeps c I J x)
    (hnone : ∀ e s p, clauses e = none → J e s p → J' e s p)
    (hsome : ∀ e y, clauses e = some y → (∀ s p, J e s p → I s p) ∧ Keeps c I J' y) :
    Keeps c I J' (handle x clauses) := by
  intro s p hI
  rw [obeys_handle]
  refine obeys_mono (hx s p hI) fun r s' p' hr => ?_
  rcases r with e | a
  · dsimp only at hr ⊢
    cases hclause : clauses e with
    | none => exact hnone e s' p' hclause hr
    | some y =>
      obtain ⟨hcaught, hy⟩ := hsome e y hclause
      exact hy s' p' (hcaught s' p' hr)
  · exact hr

/-- What is kept however the action ends. -/
theorem Keeps.always (hx : Keeps c I (fun _ => I) x) {s : S} {p : P} (hI : I s p) :
    x.obeys c (fun _ s' p' => I s' p') s p :=
  obeys_mono (hx s p hI) fun r _ _ hr => by cases r <;> exact hr

/-- What every call of the kind keeps is kept by an action that makes no other. -/
theorem Keeps.of_only {kind : E → Prop} {I : P → Prop}
    (hx : Keeps (.only kind) (fun _ _ => True) (fun _ _ _ => True) x)
    (hkind : ∀ e p, kind e → I p → c.permits p e ∧ ∀ a, c.promises p ⟨e, a⟩ → I (c.after p ⟨e, a⟩)) :
    Keeps c (fun _ p => I p) (fun _ _ p => I p) x := by
  have hprogram : ∀ {q : Program E A (Except X α × S)} {p : P}, q.Obeys (.only kind) (fun _ _ => True) () → I p →
      q.Obeys c (fun _ p' => I p') p := by
    intro q
    induction q with
    | done r => exact fun _ hI => hI
    | call e next ih =>
      intro p hq hI
      obtain ⟨hpermits, hkeeps⟩ := hkind e p hq.1 hI
      exact ⟨hpermits, fun a ha => ih a (hq.2 a trivial) (hkeeps a ha)⟩
  intro s p hI
  have honly : (x s).Obeys (.only kind) (fun _ _ => True) () :=
    Program.Obeys.mono (hx s () trivial) fun _ _ _ => trivial
  refine Program.Obeys.mono (hprogram honly hI) fun r p' hr => ?_
  obtain ⟨r, s'⟩ := r
  cases r <;> exact hr

theorem Keeps.ite {q : Prop} [Decidable q] {y : Action A X S α} (hx : q → Keeps c I J x)
    (hy : ¬ q → Keeps c I J y) : Keeps c I J (if q then x else y) := by
  split
  · exact hx ‹_›
  · exact hy ‹_›

theorem Keeps.repeatUntil {body : Action A X S (Option β)} (hbody : Keeps c I J body)
    (hcut : ∀ s p, I s p → J cutoff s p) (rounds : Nat) :
    Keeps c I J (repeatUntil cutoff body rounds) := by
  refine obeys_repeatUntil I (fun s p hI => ?_) hcut rounds
  refine obeys_mono (hbody s p hI) fun r s' p' hr => ?_
  rcases r with e | _ | b
  · exact hr
  · exact hr
  · exact hr

end

end Action

/-! ## Monitors as contracts -/

/-- A program may call where every answer has its place. -/
def Monitor.contract (m : Monitor A P) : Contract A P where
  permits p e := ∀ x, (m.step p ⟨e, x⟩).isSome
  promises _ _ := True
  after p e := (m.step p e).getD p

theorem Program.exists_reaches [∀ e, Nonempty (A e)] (p : Program E A α) (h : History A) :
    ∃ a h', p.Reaches h a h' := by
  induction p generalizing h with
  | done a => exact ⟨a, h, .done a h⟩
  | call e next ih =>
    obtain ⟨x⟩ := (inferInstance : Nonempty (A e))
    obtain ⟨a, h', hr⟩ := ih x (⟨e, x⟩ :: h)
    exact ⟨a, h', .call x hr⟩

/-- Where the monitor accepts every execution to its end, the program obeys it all along. -/
theorem Monitor.obeys_of_wp [∀ e, Nonempty (A e)] {m : Monitor A P} {prog : Program E A α} {p : P}
    {h : History A} (hp : m.At p h) (hprog : prog.wp (fun _ h' => m.Accepts h') h) :
    prog.Obeys m.contract (fun _ _ => True) p := by
  induction prog generalizing p h with
  | done a => trivial
  | call e next ih =>
    have hplace : ∀ x, ∃ q, m.step p ⟨e, x⟩ = some q := fun x => by
      obtain ⟨a, h', hr⟩ := (next x).exists_reaches (⟨e, x⟩ :: h)
      have haccepts : m.Accepts h' := (Program.wp_iff_reaches _ _ _).mp (hprog x) a h' hr
      have hsuffix : (⟨e, x⟩ :: h) <:+ h' := (Program.wp_iff_reaches _ _ _).mp (Program.wp_suffix _ _) a h' hr
      obtain ⟨q, hq⟩ := haccepts.of_suffix hsuffix
      obtain ⟨p', hp', hstep⟩ := hq.of_cons
      obtain rfl : p' = p := Option.some.inj (hp'.symm.trans hp)
      exact ⟨q, hstep⟩
    refine ⟨fun x => ?_, fun x _ => ?_⟩
    · obtain ⟨q, hq⟩ := hplace x
      rw [hq]
      rfl
    · obtain ⟨q, hq⟩ := hplace x
      have hafter : m.contract.after p ⟨e, x⟩ = q := by
        show (m.step p ⟨e, x⟩).getD p = q
        rw [hq]
        rfl
      rw [hafter]
      exact ih x (hp.cons hq) (hprog x)

end Interaction
