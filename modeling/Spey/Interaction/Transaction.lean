import Spey.Interaction.Action

/-!
# Transactions

A client works on a database with statements, which change it, and queries, which
only read it. In a transaction they work on a copy: `commit` stores the copy,
and `rollback` drops it, as does the end of the connection. Each call may fail, and
then changes nothing. `locked` is a guard object around a piece of code: it begins a
transaction, and where the scope is left, by an exception too, its destructor
ends the transaction in one way or the other.

`Within` is the rule for code in a transaction, `Atomic` the one for all the code
of a connection: where it raises an exception, the database is what it was.
-/

namespace Interaction.Transaction

variable {D S Q X α β : Type} {R : Q → Type}

inductive Call (S Q : Type) where
  | begin
  | commit
  | rollback
  | exec (s : S)
  | query (q : Q)

/-- The answers; `false` and `none` are failures. -/
abbrev Ans (R : Q → Type) : Call S Q → Type
  | .begin => Bool
  | .commit => Bool
  | .rollback => Bool
  | .exec _ => Bool
  | .query q => Option (R q)

/-- What statements and queries mean; a statement that breaks a constraint has no result. -/
structure Meaning (D S : Type) (R : Q → Type) where
  exec : S → D → Option D
  query : (q : Q) → D → R q

/-- A connection to a database: what is stored, the copy of the open transaction, and
which of the calls to come fail. -/
structure Connection (D : Type) where
  stored : D
  working : Option D
  faults : Nat → Bool

namespace Connection

def start (d : D) (faults : Nat → Bool) : Connection D := ⟨d, none, faults⟩

def next (w : Connection D) : Connection D := { w with faults := fun n => w.faults (n + 1) }

/-- What statements and queries work on. -/
def view (w : Connection D) : D := w.working.getD w.stored

def write (w : Connection D) (d : D) : Connection D :=
  match w.working with
  | none => { w with stored := d }
  | some _ => { w with working := some d }

end Connection

def answer (M : Meaning D S R) : (c : Call S Q) → Connection D → Ans R c × Connection D
  | .begin, w =>
      if w.faults 0 ∨ w.working.isSome then (false, w.next)
      else (true, { w.next with working := some w.stored })
  | .commit, w =>
      match w.working with
      | none => (false, w.next)
      | some d =>
          if w.faults 0 then (false, w.next)
          else (true, { w.next with stored := d, working := none })
  | .rollback, w =>
      if w.faults 0 ∨ w.working.isNone then (false, w.next)
      else (true, { w.next with working := none })
  | .exec s, w =>
      if w.faults 0 then (false, w.next)
      else
        match M.exec s w.view with
        | none => (false, w.next)
        | some d => (true, w.next.write d)
  | .query q, w => (if w.faults 0 then none else some (M.query q w.view), w.next)

/-- The member of the guard object. -/
structure Lock where
  committed : Bool

/-- A part of the client's code. -/
abbrev Proc (S : Type) (R : Q → Type) (X α : Type) := Action (Ans (S := S) R) X Lock α

abbrev ask (c : Call S Q) : Proc S R X (Ans R c) := Action.call c

def exec (failure : X) (s : S) : Proc S R X Unit := do
  if ← ask (.exec s) then pure () else Action.raise failure

def query (failure : X) (q : Q) : Proc S R X (R q) := do
  match ← ask (.query q) with
  | some x => pure x
  | none => Action.raise failure

/-- `commit()`: the destructor will do it. -/
def commit : Proc S R X Unit := Action.update fun _ => ⟨true⟩

/-- The destructor of the guard object. -/
def unlock (failure : X) : Proc S R X Unit := do
  if (← Action.getState).committed then
    if ← ask .commit then pure () else Action.raise failure
  else
    if ← ask .rollback then pure () else Action.raise failure

/-- `body` in the scope of a guard object. An exception from the destructor ends the program
if it is thrown while another one unwinds the scope. -/
def locked (failure terminate : X) (body : Proc S R X α) : Proc S R X α := do
  if ← ask .begin then
    Action.update fun _ => ⟨false⟩
    let a ← Action.handle body fun e => some do
      Action.handle (unlock failure) fun _ => some (Action.raise terminate)
      Action.raise e
    unlock failure
    pure a
  else Action.raise failure

section
variable {M : Meaning D S R} {d : D}

/-- A statement is executed on what the connection sees, or it raises the exception. -/
theorem exec_cases (M : Meaning D S R) (failure : X) (s : S) (l : Lock) (w : Connection D) :
    (exec failure s : Proc S R X Unit).exec (answer M) l w = ((.error failure, l), w.next) ∨
      ∃ d, M.exec s w.view = some d ∧
        (exec failure s : Proc S R X Unit).exec (answer M) l w = ((.ok (), l), w.next.write d) := by
  have hcall : Action.exec (answer M) (ask (.exec s) : Proc S R X Bool) l w =
      ((.ok (answer M (.exec s) w).1, l), (answer M (.exec s) w).2) := rfl
  rw [exec, Action.exec_bind, hcall, answer]
  split_ifs with hfault
  · exact .inl rfl
  · cases hexec : M.exec s w.view with
    | none => exact .inl rfl
    | some d => exact .inr ⟨d, rfl, rfl⟩

theorem query_cases (M : Meaning D S R) (failure : X) (q : Q) (l : Lock) (w : Connection D) :
    (query failure q : Proc S R X (R q)).exec (answer M) l w = ((.error failure, l), w.next) ∨
      (query failure q : Proc S R X (R q)).exec (answer M) l w =
        ((.ok (M.query q w.view), l), w.next) := by
  have hcall : Action.exec (answer M) (ask (.query q) : Proc S R X (Option (R q))) l w =
      ((.ok (answer M (.query q) w).1, l), (answer M (.query q) w).2) := rfl
  rw [query, Action.exec_bind, hcall, answer]
  split_ifs with hfault
  · exact .inl rfl
  · exact .inr rfl

/-! ## Code in a transaction -/

/-- In a transaction on the copy `d`, the code leaves what is stored alone. A value that it
ends with is as `P` says of the value, the guard and the copy; an exception comes before
`commit()`. -/
def Within (M : Meaning D S R) (x : Proc S R X α) (P : α → Lock → D → Prop) (l : Lock) (d : D) : Prop :=
  ∀ w : Connection D, w.working = some d →
    let out := x.exec (answer M) l w
    out.2.stored = w.stored ∧ ∃ d', out.2.working = some d' ∧
      (∀ e, out.1.1 = .error e → out.1.2.committed = false) ∧ ∀ a, out.1.1 = .ok a → P a out.1.2 d'

namespace Within

variable {l : Lock}

theorem pure {P : α → Lock → D → Prop} {a : α} (ha : P a l d) :
    Within M (Pure.pure a : Proc S R X α) P l d := by
  intro w hw
  refine ⟨rfl, d, hw, by simp, ?_⟩
  rintro _ ⟨⟩
  exact ha

theorem raise (e : X) (P : α → Lock → D → Prop) :
    Within M (Action.raise e : Proc S R X α) P ⟨false⟩ d :=
  fun _ hw => ⟨rfl, d, hw, fun _ _ => rfl, by simp⟩

theorem bind {x : Proc S R X α} {f : α → Proc S R X β} {P : α → Lock → D → Prop}
    {P' : β → Lock → D → Prop} (hx : Within M x P l d)
    (hf : ∀ a l' d', P a l' d' → Within M (f a) P' l' d') : Within M (x >>= f) P' l d := by
  intro w hw
  obtain ⟨hstored, d', hworking, herror, hpost⟩ := hx w hw
  rw [Action.exec_bind]
  rcases hrun : x.exec (answer M) l w with ⟨⟨e | a, l'⟩, w'⟩
  · rw [hrun] at hstored hworking herror
    exact ⟨hstored, d', hworking, fun _ _ => herror e rfl, by simp⟩
  · rw [hrun] at hstored hworking hpost
    obtain ⟨hstored', hrest⟩ := hf a l' d' (hpost a rfl) w' hworking
    exact ⟨hstored'.trans hstored, hrest⟩

theorem commit {P : Unit → D → Prop} (hP : P () d) :
    Within M (commit : Proc S R X Unit) (fun u l' d' => l'.committed = true ∧ P u d') l d :=
  fun _ hw => ⟨rfl, d, hw, by rintro _ ⟨⟩, fun _ _ => ⟨rfl, hP⟩⟩

/-- A statement is executed, or it raises the exception. -/
theorem exec (failure : X) (s : S) :
    Within M (exec failure s : Proc S R X Unit)
      (fun _ l' d' => l' = ⟨false⟩ ∧ M.exec s d = some d') ⟨false⟩ d := by
  intro w hw
  have hview : w.view = d := by rw [Connection.view, hw, Option.getD_some]
  rcases exec_cases M failure s ⟨false⟩ w with hout | ⟨d', hexec, hout⟩
  · rw [hout]
    exact ⟨rfl, d, hw, fun _ _ => rfl, by simp⟩
  · have hwrite : w.next.write d' = { w.next with working := some d' } := by
      rw [Connection.write, Connection.next, hw]
    rw [hout, hwrite]
    rw [hview] at hexec
    exact ⟨rfl, d', rfl, by simp, fun _ _ => ⟨rfl, hexec⟩⟩

theorem query (failure : X) (q : Q) :
    Within M (query failure q : Proc S R X (R q))
      (fun x l' d' => l' = ⟨false⟩ ∧ d' = d ∧ x = M.query q d) ⟨false⟩ d := by
  intro w hw
  have hview : w.view = d := by rw [Connection.view, hw, Option.getD_some]
  rcases query_cases M failure q ⟨false⟩ w with hout | hout
  · rw [hout]
    exact ⟨rfl, d, hw, fun _ _ => rfl, by simp⟩
  · rw [hout, hview]
    exact ⟨rfl, d, hw, by simp, by simp⟩

end Within

/-- The destructor on the copy `d`: what is stored is `d` after a commit, and as before if it
rolls back or fails. -/
theorem unlock_exec (failure : X) (l : Lock) {w : Connection D} (hw : w.working = some d) :
    let out := (unlock failure : Proc S R X Unit).exec (answer M) l w
    (∀ e, out.1.1 = .error e → out.2.stored = w.stored) ∧
      (l.committed = false → out.2.stored = w.stored) ∧
      ∀ u, out.1.1 = .ok u → out.2.working = none ∧ (l.committed = true → out.2.stored = d) := by
  obtain ⟨committed⟩ := l
  cases committed with
  | false =>
    have hcall : Action.exec (answer M) (ask .rollback : Proc S R X Bool) ⟨false⟩ w =
        ((.ok (answer M .rollback w).1, ⟨false⟩), (answer M .rollback w).2) := rfl
    simp only [unlock, Action.exec_bind, Action.exec_getState, Bool.false_eq_true, ↓reduceIte, hcall]
    by_cases hfault : w.faults 0 = true ∨ w.working.isNone = true
    · have hanswer : answer M .rollback w = (false, w.next) := if_pos hfault
      rw [hanswer]
      exact ⟨fun _ _ => rfl, fun _ => rfl, by simp⟩
    · have hanswer : answer M .rollback w = (true, { w.next with working := none }) := if_neg hfault
      rw [hanswer]
      exact ⟨fun _ _ => rfl, fun _ => rfl, fun _ _ => ⟨rfl, False.elim⟩⟩
  | true =>
    have hcall : Action.exec (answer M) (ask .commit : Proc S R X Bool) ⟨true⟩ w =
        ((.ok (answer M .commit w).1, ⟨true⟩), (answer M .commit w).2) := rfl
    simp only [unlock, Action.exec_bind, Action.exec_getState, ↓reduceIte, hcall]
    by_cases hfault : w.faults 0 = true
    · have hanswer : answer M .commit w = (false, w.next) := by
        rw [answer, hw]
        exact if_pos hfault
      rw [hanswer]
      exact ⟨fun _ _ => rfl, fun _ => rfl, by simp⟩
    · have hanswer : answer M .commit w = (true, { w.next with stored := d, working := none }) := by
        rw [answer, hw]
        exact if_neg hfault
      rw [hanswer]
      exact ⟨by simp, by simp, fun _ _ => ⟨rfl, fun _ => rfl⟩⟩

/-! ## Code of a connection -/

/-- Where no transaction is open and `d` is stored, an exception leaves `d` stored, and a value
leaves no transaction open and what `P` says. -/
def Atomic (M : Meaning D S R) (x : Proc S R X α) (P : α → D → Prop) (d : D) : Prop :=
  ∀ (l : Lock) (w : Connection D), w.stored = d → w.working = none →
    let out := x.exec (answer M) l w
    (∀ e, out.1.1 = .error e → out.2.stored = d) ∧
      ∀ a, out.1.1 = .ok a → out.2.working = none ∧ P a out.2.stored

namespace Atomic

theorem pure {P : α → D → Prop} {a : α} (ha : P a d) :
    Atomic M (Pure.pure a : Proc S R X α) P d := by
  intro l w hd hw
  refine ⟨by simp [Action.exec_pure], fun a' ha' => ⟨hw, ?_⟩⟩
  obtain rfl : a = a' := Except.ok.inj ha'
  exact hd.symm ▸ ha

theorem raise (e : X) (P : α → D → Prop) : Atomic M (Action.raise e : Proc S R X α) P d := by
  intro l w hd hw
  exact ⟨fun _ _ => hd, by simp [Action.exec_raise]⟩

theorem mono {x : Proc S R X α} {P P' : α → D → Prop} (hx : Atomic M x P d)
    (hP : ∀ a d', P a d' → P' a d') : Atomic M x P' d := by
  intro l w hd hw
  obtain ⟨herror, hok⟩ := hx l w hd hw
  exact ⟨herror, fun a ha => ⟨(hok a ha).1, hP _ _ (hok a ha).2⟩⟩

theorem ite {p : Prop} [Decidable p] {x y : Proc S R X α} {P : α → D → Prop}
    (hx : p → Atomic M x P d) (hy : ¬ p → Atomic M y P d) : Atomic M (if p then x else y) P d := by
  by_cases hp : p
  · rw [if_pos hp]
    exact hx hp
  · rw [if_neg hp]
    exact hy hp

/-- Code that changes nothing, and then more. -/
theorem bind {x : Proc S R X α} {f : α → Proc S R X β} {P : α → Prop} {P' : β → D → Prop}
    (hx : Atomic M x (fun a d' => P a ∧ d' = d) d) (hf : ∀ a, P a → Atomic M (f a) P' d) :
    Atomic M (x >>= f) P' d := by
  intro l w hd hw
  obtain ⟨herror, hok⟩ := hx l w hd hw
  rw [Action.exec_bind]
  rcases hrun : x.exec (answer M) l w with ⟨⟨e | a, l'⟩, w'⟩
  · rw [hrun] at herror
    exact ⟨fun _ _ => herror e rfl, by simp⟩
  · rw [hrun] at hok
    obtain ⟨hw', ha, hd'⟩ := hok a rfl
    exact hf a ha l' w' hd' hw'

/-- Code with a result of its own behind it. -/
theorem result {x : Proc S R X α} {P : D → Prop} (hx : Atomic M x (fun _ d' => P d') d) (b : β) :
    Atomic M (x >>= fun _ => Pure.pure b) (fun _ d' => P d') d := by
  intro l w hd hw
  obtain ⟨herror, hok⟩ := hx l w hd hw
  rw [Action.exec_bind]
  rcases hrun : x.exec (answer M) l w with ⟨⟨e | a, l'⟩, w'⟩
  · rw [hrun] at herror
    exact ⟨fun _ _ => herror e rfl, by simp⟩
  · rw [hrun] at hok
    exact ⟨by simp, fun _ _ => hok a rfl⟩

/-- A statement by itself. -/
theorem exec (failure : X) (s : S) :
    Atomic M (exec failure s : Proc S R X Unit) (fun _ d' => M.exec s d = some d') d := by
  intro l w hd hw
  have hview : w.view = d := by rw [Connection.view, hw, Option.getD_none, hd]
  rcases exec_cases M failure s l w with hout | ⟨d', hexec, hout⟩
  · rw [hout]
    exact ⟨fun _ _ => hd, by simp⟩
  · have hwrite : w.next.write d' = { w.next with stored := d' } := by
      rw [Connection.write, Connection.next, hw]
    rw [hout, hwrite]
    rw [hview] at hexec
    exact ⟨by simp, fun _ _ => ⟨hw, hexec⟩⟩

theorem query (failure : X) (q : Q) :
    Atomic M (query failure q : Proc S R X (R q)) (fun x d' => x = M.query q d ∧ d' = d) d := by
  intro l w hd hw
  have hview : w.view = d := by rw [Connection.view, hw, Option.getD_none, hd]
  rcases query_cases M failure q l w with hout | hout
  · rw [hout]
    exact ⟨fun _ _ => hd, by simp⟩
  · rw [hout, hview]
    refine ⟨by simp, fun x hx => ⟨hw, ?_, hd⟩⟩
    exact (Except.ok.inj hx).symm

/-- The guard object: the changes of the scope are stored where it ends with `commit()` done,
and dropped otherwise. -/
theorem locked {failure terminate : X} {body : Proc S R X α} {P : α → D → Prop}
    (hbody : Within M body (fun a l' d' => l'.committed = true ∧ P a d') ⟨false⟩ d) :
    Atomic M (locked failure terminate body) P d := by
  intro l w hd hw
  have hcall : Action.exec (answer M) (ask .begin : Proc S R X Bool) l w =
      ((.ok (answer M .begin w).1, l), (answer M .begin w).2) := rfl
  rw [Transaction.locked, Action.exec_bind, hcall]
  by_cases hfault : w.faults 0 = true ∨ w.working.isSome = true
  · have hanswer : answer M .begin w = (false, w.next) := if_pos hfault
    rw [hanswer]
    exact ⟨fun _ _ => hd, by simp⟩
  · have hanswer : answer M .begin w = (true, { w.next with working := some d }) := by
      rw [← hd]
      exact if_neg hfault
    rw [hanswer]
    dsimp only
    obtain ⟨hstored, d', hworking, herror, hpost⟩ := hbody { w.next with working := some d } rfl
    replace hstored := hstored.trans hd
    simp only [↓reduceIte, Action.exec_bind, Action.exec_update, Action.exec_handle]
    rcases hrun : body.exec (answer M) ⟨false⟩ { w.next with working := some d } with ⟨⟨e | a, l'⟩, w'⟩
    · rw [hrun] at hstored hworking herror
      obtain ⟨-, hback, -⟩ := unlock_exec (M := M) failure l' hworking
      replace hback := (hback (herror e rfl)).trans hstored
      dsimp only
      rcases hunlock : (unlock failure : Proc S R X Unit).exec (answer M) l' w' with ⟨⟨e' | u, l''⟩, w''⟩
      · rw [hunlock] at hback
        exact ⟨fun _ _ => hback, by simp⟩
      · rw [hunlock] at hback
        exact ⟨fun _ _ => hback, by simp⟩
    · rw [hrun] at hstored hworking hpost
      obtain ⟨hcommitted, ha⟩ := hpost a rfl
      obtain ⟨hfails, -, hdone⟩ := unlock_exec (M := M) failure l' hworking
      dsimp only
      rcases hunlock : (unlock failure : Proc S R X Unit).exec (answer M) l' w' with ⟨⟨e' | u, l''⟩, w''⟩
      · rw [hunlock] at hfails
        exact ⟨fun _ _ => (hfails e' rfl).trans hstored, by simp⟩
      · rw [hunlock] at hdone
        obtain ⟨hclosed, hd''⟩ := hdone u rfl
        refine ⟨by simp, ?_⟩
        rintro _ ⟨⟩
        exact ⟨hclosed, (hd'' hcommitted).symm ▸ ha⟩

end Atomic

end

end Interaction.Transaction
