import Mathlib.Data.List.Basic

/-!
# Programs that call an environment

A program over a signature is a well-founded tree: it is finished, or it makes
one call and goes on with any answer of the type the signature gives that call.
Nothing is assumed about the environment: an execution picks the answers freely.
The history of an execution lists its calls with their answers, latest first.

`Program.wp` is the weakest precondition over all answers, `Program.Reaches` the
executions themselves, and `Program.run` the one execution against a given
environment that keeps a state of its own.
-/

namespace Interaction

variable {E : Type} {A : E → Type} {α β W : Type}

inductive Program (E : Type) (A : E → Type) (α : Type) where
  | done (a : α)
  | call (e : E) (next : A e → Program E A α)

/-- A call together with the answer it got. -/
abbrev Event (A : E → Type) := Sigma A

/-- Calls and answers so far, the latest one first. -/
abbrev History (A : E → Type) := List (Event A)

namespace Program

def bind : Program E A α → (α → Program E A β) → Program E A β
  | .done a, f => f a
  | .call e next, f => .call e fun x => (next x).bind f

/-- `p.Reaches h a h'`: started after `h`, some answers lead `p` to the result
`a` with the history `h'`. -/
inductive Reaches : Program E A α → History A → α → History A → Prop
  | done (a : α) (h : History A) : Reaches (.done a) h a h
  | call {e : E} {next : A e → Program E A α} {h h' : History A} {a : α} (x : A e) :
      Reaches (next x) (⟨e, x⟩ :: h) a h' → Reaches (.call e next) h a h'

/-- Every execution from the history `h` ends in `Q`. -/
def wp : Program E A α → (α → History A → Prop) → History A → Prop
  | .done a, Q, h => Q a h
  | .call e next, Q, h => ∀ x : A e, (next x).wp Q (⟨e, x⟩ :: h)

theorem wp_bind (p : Program E A α) (f : α → Program E A β) (Q : β → History A → Prop)
    (h : History A) : (p.bind f).wp Q h ↔ p.wp (fun a h' => (f a).wp Q h') h := by
  induction p generalizing h with
  | done a => rfl
  | call e next ih => exact forall_congr' fun x => ih x _

theorem wp_mono {p : Program E A α} {Q R : α → History A → Prop} {h : History A}
    (hQR : ∀ a h', Q a h' → R a h') (hp : p.wp Q h) : p.wp R h := by
  induction p generalizing h with
  | done a => exact hQR a h hp
  | call e next ih => exact fun x => ih x (hp x)

/-- What has happened stays in the history. -/
theorem wp_suffix (p : Program E A α) (h : History A) : p.wp (fun _ h' => h <:+ h') h := by
  induction p generalizing h with
  | done a => exact List.suffix_refl h
  | call e next ih =>
    intro x
    exact wp_mono (fun _ h' hs => (List.suffix_cons _ h).trans hs) (ih x (⟨e, x⟩ :: h))

theorem bind_assoc {γ : Type} (p : Program E A α) (f : α → Program E A β) (g : β → Program E A γ) :
    (p.bind f).bind g = p.bind fun a => (f a).bind g := by
  induction p with
  | done a => rfl
  | call e next ih => exact congrArg (Program.call e) (funext ih)

/-- The weakest precondition speaks about exactly the executions. -/
theorem wp_iff_reaches (p : Program E A α) (Q : α → History A → Prop) (h : History A) :
    p.wp Q h ↔ ∀ a h', p.Reaches h a h' → Q a h' := by
  induction p generalizing h with
  | done a =>
    constructor
    · intro hq a' h' hr
      cases hr
      exact hq
    · intro hq
      exact hq a h (.done a h)
  | call e next ih =>
    constructor
    · intro hq a' h' hr
      cases hr with
      | call x hr => exact (ih x _).mp (hq x) a' h' hr
    · intro hq x
      exact (ih x _).mpr fun a' h' hr => hq a' h' (.call x hr)

/-- The execution against an environment that answers from its own state. -/
def run (env : (e : E) → W → A e × W) : Program E A α → W → History A → α × W × History A
  | .done a, w, h => (a, w, h)
  | .call e next, w, h =>
      let x := env e w
      (next x.1).run env x.2 (⟨e, x.1⟩ :: h)

/-- A run against an environment is one of the executions. -/
theorem reaches_run (env : (e : E) → W → A e × W) (p : Program E A α) (w : W) (h : History A) :
    p.Reaches h (p.run env w h).1 (p.run env w h).2.2 := by
  induction p generalizing w h with
  | done a => exact .done a h
  | call e next ih => exact .call _ (ih _ _ _)

/-- What each answer keeps holds between the environment and the history at every
moment of a run. -/
theorem run_invariant {env : (e : E) → W → A e × W} {I : W → History A → Prop}
    (hstep : ∀ e w h, I w h → I (env e w).2 (⟨e, (env e w).1⟩ :: h)) (p : Program E A α) {w : W}
    {h past : History A} (hw : I w h) (hpast : past <:+ (p.run env w h).2.2) (hh : h <:+ past) :
    ∃ w', I w' past := by
  induction p generalizing w h with
  | done a =>
    obtain rfl : h = past := hh.eq_of_length_le hpast.length_le
    exact ⟨w, hw⟩
  | call e next ih =>
    have hnext : (⟨e, (env e w).1⟩ :: h) <:+ (((next (env e w).1).run env (env e w).2
        (⟨e, (env e w).1⟩ :: h))).2.2 :=
      (wp_iff_reaches _ _ _).mp (wp_suffix _ _) _ _ (reaches_run env _ _ _)
    rcases List.suffix_or_suffix_of_suffix hpast hnext with hle | hle
    · rcases List.suffix_cons_iff.mp hle with rfl | hle
      · exact ⟨_, hstep e w h hw⟩
      · obtain rfl : h = past := hh.eq_of_length_le hle.length_le
        exact ⟨w, hw⟩
    · exact ih _ (hstep e w h hw) hpast hle

/-- The program over a larger signature, with a result of another type. -/
def embed {E' : Type} {A' : E' → Type} (into : E → E') (back : (e : E) → A' (into e) → A e)
    (result : α → β) : Program E A α → Program E' A' β
  | .done a => .done (result a)
  | .call e next => .call (into e) fun x => (next (back e x)).embed into back result

/-- An execution of the program is one in the larger signature. -/
theorem Reaches.embed {E' : Type} {A' : E' → Type} (into : E → E')
    (back : (e : E) → A' (into e) → A e) (forth : (e : E) → A e → A' (into e))
    (hback : ∀ e x, back e (forth e x) = x) (result : α → β) {p : Program E A α} {a : α}
    {h h' : History A} (hr : p.Reaches h a h') :
    (p.embed into back result).Reaches (h.map fun e => ⟨into e.1, forth e.1 e.2⟩) (result a)
      (h'.map fun e => ⟨into e.1, forth e.1 e.2⟩) := by
  induction hr with
  | done a h => exact .done _ _
  | @call e next h h' a x hr ih =>
    refine .call (forth e x) ?_
    rw [hback]
    exact ih

/-- The result of the execution against an environment, without its history. -/
def exec (env : (e : E) → W → A e × W) : Program E A α → W → α × W
  | .done a, w => (a, w)
  | .call e next, w => (next (env e w).1).exec env (env e w).2

theorem exec_bind (env : (e : E) → W → A e × W) (p : Program E A α) (f : α → Program E A β)
    (w : W) : (p.bind f).exec env w = (f (p.exec env w).1).exec env (p.exec env w).2 := by
  induction p generalizing w with
  | done a => rfl
  | call e next ih => exact ih _ _

end Program

end Interaction
