import Spey.Interaction.Action
import Spey.Interaction.History

/-!
# Machines

A machine is a program cut at its calls: in each of its states it is finished,
or one call is pending and any answer leads to another state. A program follows
a machine when it makes the calls that the machine has pending and ends where
the machine is asked to be; `Action.follows` has a rule for each way to build an
action, and every execution of a program that follows a machine is one of the
machine's, so what the machine's steps keep holds of the program's histories.
-/

namespace Interaction

variable {E : Type} {A : E → Type} {R C X S α β : Type}

/-- What a machine does in a state. -/
inductive Node (A : E → Type) (R C : Type) where
  | finished (r : R)
  | call (e : E) (next : A e → C)

/-- Whatever the pending call is answered leads to `P`. -/
def Node.All (P : Event A → C → Prop) : Node A R C → Prop
  | .finished _ => True
  | .call e next => ∀ x, P ⟨e, x⟩ (next x)

@[simp] theorem Node.all_finished (P : Event A → C → Prop) (r : R) :
    (Node.finished r : Node A R C).All P ↔ True := Iff.rfl

@[simp] theorem Node.all_call (P : Event A → C → Prop) (e : E) (next : A e → C) :
    (Node.call e next : Node A R C).All P ↔ ∀ x, P ⟨e, x⟩ (next x) := Iff.rfl

theorem Node.All.mono {P Q : Event A → C → Prop} {n : Node A R C} (hn : n.All P)
    (hPQ : ∀ e c, P e c → Q e c) : n.All Q := by
  cases n with
  | finished r => trivial
  | call e next => exact fun x => hPQ _ _ (hn x)

theorem Node.All.and {P Q : Event A → C → Prop} {n : Node A R C} (hP : n.All P) (hQ : n.All Q) :
    n.All fun e c => P e c ∧ Q e c := by
  cases n with
  | finished r => trivial
  | call e next => exact fun x => ⟨hP x, hQ x⟩

/-- The call is the pending one, and its answers lead to `P`. -/
def Node.Asks (e : E) (P : A e → C → Prop) (n : Node A R C) : Prop :=
  ∃ next, n = .call e next ∧ ∀ x, P x (next x)

abbrev Machine (A : E → Type) (R C : Type) := C → Node A R C

namespace Machine

variable {m : Machine A R C} {start c : C} {h : History A}

/-- The machine, started in `start`, is in `c` once `h` has happened. -/
inductive On (m : Machine A R C) (start : C) : C → History A → Prop
  | start : On m start start []
  | step {c : C} {h : History A} {e : E} {next : A e → C} (hc : On m start c h)
      (he : m c = .call e next) (x : A e) : On m start (next x) (⟨e, x⟩ :: h)

/-- What holds at the start and is kept by every step holds of every run. -/
theorem On.invariant {I : C → History A → Prop} (hstart : I start [])
    (hstep : ∀ c h, I c h → (m c).All fun e c' => I c' (e :: h)) (hc : m.On start c h) : I c h := by
  induction hc with
  | start => exact hstart
  | step _ he x ih =>
    have hall := hstep _ _ ih
    rw [he] at hall
    exact hall x

/-- As `On.invariant`, where `K` is known already of every run: before the step and
after it. -/
theorem On.strengthen {I K : C → History A → Prop} (hK : ∀ {c h}, m.On start c h → K c h)
    (hstart : I start [])
    (hstep : ∀ c h, K c h → I c h → (m c).All fun e c' => K c' (e :: h) → I c' (e :: h))
    (hc : m.On start c h) : I c h := by
  induction hc with
  | start => exact hstart
  | step hc he x ih =>
    have hall := hstep _ _ (hK hc) ih
    rw [he] at hall
    exact hall x (hK (hc.step he x))

/-- What has happened decides the state. -/
theorem On.unique {c' : C} (hc : m.On start c h) (hc' : m.On start c' h) : c = c' := by
  induction hc generalizing c' with
  | start =>
    cases hc'
    rfl
  | step _ he x ih =>
    cases hc' with
    | step hc'' he' x' =>
      obtain rfl := ih hc''
      rw [he] at he'
      cases he'
      rfl

/-- The state that the last event happened in. -/
theorem On.before {e : E} {x : A e} (hc : m.On start c (⟨e, x⟩ :: h)) :
    ∃ c' next, m.On start c' h ∧ m c' = .call e next ∧ c = next x := by
  cases hc with
  | step hc' he x => exact ⟨_, _, hc', he, rfl⟩

theorem On.of_suffix {past : History A} (hs : past <:+ h) (hc : m.On start c h) :
    ∃ c', m.On start c' past := by
  obtain ⟨later, rfl⟩ := hs
  induction later generalizing c with
  | nil => exact ⟨c, hc⟩
  | cons e later ih =>
    obtain ⟨c', -, hc', -, -⟩ := hc.before
    exact ih hc'

/-- A rule that the last event of every run obeys. -/
theorem On.always {rule : Rule A}
    (hrule : ∀ {c e past}, m.On start c (e :: past) → rule e past) (hc : m.On start c h) :
    Always rule h := by
  induction h generalizing c with
  | nil => trivial
  | cons e past ih =>
    obtain ⟨c', -, hc', -, -⟩ := hc.before
    exact ⟨hrule hc, ih hc'⟩

/-- The last step of a run. -/
theorem On.last {P : Event A → C → Prop} {c' : C} {e : Event A} (hc : m.On start c h)
    (hc' : m.On start c' (e :: h)) (hall : (m c).All P) : P e c' := by
  cases hc' with
  | step hc'' he x =>
    obtain rfl := hc.unique hc''
    rw [he] at hall
    exact hall x

end Machine

namespace Program

variable {m : Machine A R C}

/-- The program makes the calls that the machine has pending, and ends in `Q`. -/
def Follows (m : Machine A R C) (Q : α → C → Prop) : Program E A α → C → Prop
  | .done a, c => Q a c
  | .call e next, c => (m c).Asks e fun x c' => (next x).Follows m Q c'

theorem follows_bind (p : Program E A α) (f : α → Program E A β) (Q : β → C → Prop) (c : C) :
    (p.bind f).Follows m Q c ↔ p.Follows m (fun a c' => (f a).Follows m Q c') c := by
  induction p generalizing c with
  | done a => rfl
  | call e next ih =>
    constructor
    · rintro ⟨next', he, hnext⟩
      exact ⟨next', he, fun x => (ih x _).mp (hnext x)⟩
    · rintro ⟨next', he, hnext⟩
      exact ⟨next', he, fun x => (ih x _).mpr (hnext x)⟩

theorem Follows.mono {p : Program E A α} {Q Q' : α → C → Prop} {c : C} (hp : p.Follows m Q c)
    (hQ : ∀ a c', Q a c' → Q' a c') : p.Follows m Q' c := by
  induction p generalizing c with
  | done a => exact hQ a c hp
  | call e next ih =>
    obtain ⟨next', he, hnext⟩ := hp
    exact ⟨next', he, fun x => ih x (hnext x)⟩

/-- The executions of a program that follows a machine are the machine's. -/
theorem Follows.on {p : Program E A α} {Q : α → C → Prop} {start c : C} {h h' : History A} {a : α}
    (hp : p.Follows m Q c) (hc : m.On start c h) (hr : p.Reaches h a h') :
    ∃ c', Q a c' ∧ m.On start c' h' := by
  induction hr generalizing c with
  | done a h => exact ⟨c, hp, hc⟩
  | call x hr ih =>
    obtain ⟨next', he, hnext⟩ := hp
    exact ih (hnext x) (hc.step he x)

end Program

namespace Action

variable {m : Machine A R C} {s : S} {c : C}

/-- Which outcome, state and machine state an action must end in. -/
abbrev Goal (X S α C : Type) := Except X α → S → C → Prop

/-- The action follows the machine from the states `s` and `c`, and ends in `Q`. -/
def follows (m : Machine A R C) (x : Action A X S α) (Q : Goal X S α C) (s : S) (c : C) : Prop :=
  (x s).Follows m (fun r c' => Q r.1 r.2 c') c

theorem follows_mono {x : Action A X S α} {Q Q' : Goal X S α C} (hx : x.follows m Q s c)
    (hQ : ∀ r s' c', Q r s' c' → Q' r s' c') : x.follows m Q' s c :=
  Program.Follows.mono hx fun r c' => hQ r.1 r.2 c'

@[simp] theorem follows_pure (a : α) (Q : Goal X S α C) :
    follows m (pure a : Action A X S α) Q s c ↔ Q (.ok a) s c := Iff.rfl

@[simp] theorem follows_bind (x : Action A X S α) (f : α → Action A X S β) (Q : Goal X S β C) :
    follows m (x >>= f) Q s c ↔ follows m x (fun r s' c' => match r with
      | .ok a => follows m (f a) Q s' c'
      | .error e => Q (.error e) s' c') s c := by
  show ((x s).bind _).Follows m _ c ↔ _
  rw [Program.follows_bind]
  apply iff_of_eq
  unfold follows
  congr 1
  funext r c'
  rcases r with ⟨_ | _, s'⟩ <;> rfl

@[simp] theorem follows_call (e : E) (Q : Goal X S (A e) C) :
    follows m (call e : Action A X S (A e)) Q s c ↔ (m c).Asks e fun x c' => Q (.ok x) s c' := Iff.rfl

@[simp] theorem follows_getState (Q : Goal X S S C) :
    follows m (getState : Action A X S S) Q s c ↔ Q (.ok s) s c := Iff.rfl

@[simp] theorem follows_update (f : S → S) (Q : Goal X S Unit C) :
    follows m (update f : Action A X S Unit) Q s c ↔ Q (.ok ()) (f s) c := Iff.rfl

@[simp] theorem follows_raise (x : X) (Q : Goal X S α C) :
    follows m (raise x : Action A X S α) Q s c ↔ Q (.error x) s c := Iff.rfl

@[simp] theorem follows_handle (x : Action A X S α) (clauses : X → Option (Action A X S α))
    (Q : Goal X S α C) : follows m (handle x clauses) Q s c ↔
      follows m x (fun r s' c' => match r with
        | .ok a => Q (.ok a) s' c'
        | .error e => match clauses e with
          | some y => follows m y Q s' c'
          | none => Q (.error e) s' c') s c := by
  show ((x s).bind _).Follows m _ c ↔ _
  rw [Program.follows_bind]
  apply iff_of_eq
  unfold follows
  congr 1
  funext r c'
  rcases r with ⟨e | _, s'⟩
  · dsimp only
    cases clauses e <;> rfl
  · rfl

@[simp] theorem follows_ite (p : Prop) [Decidable p] (x y : Action A X S α) (Q : Goal X S α C) :
    follows m (if p then x else y) Q s c ↔ if p then follows m x Q s c else follows m y Q s c := by
  split <;> rfl

/-- The loop rule: the assertion at the head of the loop may speak about the
rounds that are left. -/
theorem follows_repeatUntil {cutoff : X} {body : Action A X S (Option β)} {Q : Goal X S β C}
    (I : Nat → S → C → Prop)
    (hbody : ∀ n s c, I (n + 1) s c → follows m body (fun r s' c' => match r with
        | .ok (some b) => Q (.ok b) s' c'
        | .ok none => I n s' c'
        | .error e => Q (.error e) s' c') s c)
    (hcut : ∀ s c, I 0 s c → Q (.error cutoff) s c) (rounds : Nat) :
    ∀ s c, I rounds s c → follows m (repeatUntil cutoff body rounds) Q s c := by
  induction rounds with
  | zero => exact hcut
  | succ rounds ih =>
    intro s c hI
    simp only [repeatUntil, follows_bind]
    refine follows_mono (hbody rounds s c hI) fun r s' c' hr => ?_
    rcases r with e | _ | b
    · exact hr
    · exact ih s' c' hr
    · exact hr

/-- The executions of an action that follows a machine are the machine's. -/
theorem follows_ends {x : Action A X S α} {Q : Goal X S α C} {start : C} {r : Except X α} {s' : S}
    {h h' : History A} (hx : x.follows m Q s c) (hc : m.On start c h) (hr : x.Ends s h r s' h') :
    ∃ c', Q r s' c' ∧ m.On start c' h' := by
  have hp : (x s).Follows m (fun r c' => Q r.1 r.2 c') c := hx
  exact hp.on hc hr

end Action

end Interaction
