import Spey.Greylist.Statements
import Spey.Interaction.Pool

/-!
# Many calls at a time

In inetd mode every connection has a process of its own, and the processes share
one database. Any number of calls of `greylist` run there as a pool, one statement
at a time. Between its `SELECT` and its last statement a call relies on what it
has read, and no lock or constraint sees to that: two calls for a new triple may
both insert it, and two calls may both count on from the same number. Where no
other call has come between, the table keeps one row for each triple, and its
count goes up with every call that accepts.
-/

namespace Spey.Greylist

open Interaction

/-- The arguments of a call, with the clock and the setting that it reads. -/
structure Request where
  quarantinetime : Int
  lastseen : Int
  sender : UInt32
  fromaddress : Bytes
  toaddress : Bytes

namespace Request

/-- The triple that a request is about. -/
def key (q : Request) : Key :=
  ⟨q.sender, cstr (if q.fromaddress = [] then text "(probe)" else q.fromaddress), cstr q.toaddress⟩

/-- The call of `greylist`. -/
def call (q : Request) : Program Statement Statement.Ans (Except Exn GreylistResponse × Unit) :=
  Statement.greylist q.quarantinetime q.lastseen q.sender q.fromaddress q.toaddress ()

def machine (q : Request) : Machine Statement.Ans (Except Exn GreylistResponse) Statement.Stage :=
  Statement.machine q.quarantinetime q.lastseen q.key

theorem call_follows (q : Request) :
    q.call.Follows q.machine (fun r c => Statement.Finished r.1 r.2 c) .white :=
  Statement.white_follows q.quarantinetime q.lastseen q.key ()

end Request

namespace Concurrent

open Statement

variable {T : Type}

/-- The statements of all calls. -/
abbrev Log (T : Type) := History (Shared T Statement.Ans)

/-- A statement is executed, or it raises an exception and changes nothing. -/
def Serves (LIKE : Bytes → Bytes → Bool) : Service Statement.Ans Database := fun st db x db' =>
  (x = none ∧ db' = db) ∨ (x = some (execute LIKE st db).1 ∧ db' = (execute LIKE st db).2)

/-- The triple that is inserted. -/
def inserts : Event (Shared T Statement.Ans) → Option Key
  | ⟨(_, .insertTriple _ k), some _⟩ => some k
  | _ => none

/-- The triple that is updated, with the count that is written. -/
def updates : Event (Shared T Statement.Ans) → Option (Key × Int)
  | ⟨(_, .updateTriple _ timesseen k), some _⟩ => some (k, timesseen)
  | _ => none

/-- The row that a call has found. -/
def found : History Statement.Ans → Option (Int × Int)
  | [] => none
  | ⟨.selectTriple _, some rows⟩ :: _ => rows.head?
  | _ :: past => found past

variable [DecidableEq T]

def selects : Event (Shared T Statement.Ans) → Bool
  | ⟨(_, .selectTriple _), some _⟩ => true
  | _ => false

/-- The call of `t` looks for its triple. -/
@[simp] def looks (t : T) (e : Event (Shared T Statement.Ans)) (_ : Log T) : Prop :=
  (decide (e.thread = t)) ∧ selects e
  deriving Decidable

/-- A row is inserted for the triple. -/
@[simp] def created (k : Key) (e : Event (Shared T Statement.Ans)) (_ : Log T) : Prop := inserts e = some k
  deriving Decidable

/-- A call writes another count for the triple than it has read. -/
@[simp] def counted (k : Key) (e : Event (Shared T Statement.Ans)) (past : Log T) : Prop :=
  (updates e).any fun u => u.1 = k ∧ (found (own e.thread past)).any fun row => u.2 ≠ getint row.2
  deriving Decidable

/-- The count can be read, and counted on, as an `int`. -/
def Countable (row : Int × Int) : Prop := -2 ^ 31 ≤ row.2 ∧ row.2 + 1 < 2 ^ 31
  deriving Decidable

/-- Between its `SELECT` and this statement, no other call has come. -/
@[simp] def alone (e : Event (Shared T Statement.Ans)) (past : Log T) : Prop :=
  ((inserts e).all fun k => Since (looks e.thread) (created k) past) ∧
    (updates e).all fun u => Since (looks e.thread) (counted u.1) past ∧
      (found (own e.thread past)).all fun row => Countable row
  deriving Decidable

/-- What a call has returned. -/
def returned : Program Statement Statement.Ans (Except Exn GreylistResponse × Unit) →
    Option GreylistResponse
  | .done (.ok answer, _) => some answer
  | _ => none

/-- How many calls have returned `Accepted` from the record of a triple. -/
def acceptances (answers : T → Option GreylistResponse) (k : Key) (h : Log T) : Nat :=
  h.countP fun e => (updates e).any (fun u => u.1 = k) && answers e.thread = some .Accepted

/-- The count that a record starts from: the one it had, or that of a new record. -/
def base (db : Database) (k : Key) : Int :=
  ((Table.select Triple.key k db.triples).head?.map Triple.timesseen).getD 1

/-! ## One call -/

section
variable {q : Request} {c : Stage} {h : History Statement.Ans}

def writes : Event Statement.Ans → Bool
  | ⟨.updateTriple _ _ _, some _⟩ => true
  | _ => false

/-- What a call knows of itself. -/
structure Own (c : Stage) (h : History Statement.Ans) : Prop where
  found : ∀ row, c = .store row → Concurrent.found h = some row
  once : (∀ r, c ≠ .finished r) → ∀ e ∈ h, writes e = false

theorem counted_store {answer : GreylistResponse} {next : Stage} {rows : List Int} {row : Int × Int}
    (hnext : next ≠ .store row) : Stage.counted answer next rows ≠ .store row := by
  cases rows with
  | nil => exact fun hrow => Stage.noConfusion hrow
  | cons n rows =>
    rw [Stage.counted]
    split_ifs
    · exact fun hrow => Stage.noConfusion hrow
    · exact hnext

/-- A count is there, so the triple is not looked for in vain. -/
theorem counted_create {answer : GreylistResponse} {next : Stage} {rows : List Int}
    (hrows : ∃ n, rows = [n]) (hnext : next ≠ .create) :
    Stage.counted answer next rows ≠ .create := by
  obtain ⟨n, rfl⟩ := hrows
  rw [Stage.counted]
  split_ifs
  · exact fun hrow => Stage.noConfusion hrow
  · exact hnext

theorem own_step (hs : Own c h) : (q.machine c).All fun e c' => Own c' (e :: h) := by
  have hread : ∀ {st : Statement} {next : Rows st → Stage} {x : Statement.Ans st},
      (∀ r, c ≠ .finished r) → writes ⟨st, x⟩ = false →
      (∀ row, Stage.querying next x = .store row → Concurrent.found (⟨st, x⟩ :: h) = some row) →
      Own (Stage.querying next x) (⟨st, x⟩ :: h) := by
    intro st next x hc hwrite hfound
    refine ⟨hfound, fun _ e he => ?_⟩
    rcases List.mem_cons.mp he with rfl | he
    · exact hwrite
    · exact hs.once hc e he
  cases c with
  | white | black =>
    intro x
    refine hread (fun _ hover => Stage.noConfusion hover) rfl fun row hrow => ?_
    cases x with
    | none => exact Stage.noConfusion hrow
    | some rows => exact absurd hrow (counted_store fun hstore => Stage.noConfusion hstore)
  | look =>
    intro x
    refine hread (fun _ hover => Stage.noConfusion hover) rfl fun row hrow => ?_
    cases x with
    | none => exact Stage.noConfusion hrow
    | some rows =>
      cases rows with
      | nil => exact Stage.noConfusion hrow
      | cons row' rows => exact congrArg some (Stage.store.inj hrow)
  | create =>
    intro x
    refine hread (fun _ hover => Stage.noConfusion hover) rfl fun row hrow => ?_
    cases x <;> exact Stage.noConfusion hrow
  | store row =>
    intro x
    cases x with
    | none => exact hread (fun _ hover => Stage.noConfusion hover) rfl fun row hrow => Stage.noConfusion hrow
    | some done => exact ⟨fun row hrow => Stage.noConfusion hrow, fun hover => absurd rfl (hover _)⟩
  | finished r => trivial

theorem own_spec (hc : q.machine.On .white c h) : Own c h :=
  hc.invariant ⟨fun _ hrow => Stage.noConfusion hrow, fun _ _ he => absurd he List.not_mem_nil⟩
    fun _ _ hs => own_step hs

end

/-! ## All calls -/

/-- What a call that is over has returned. -/
def answered : Stage → Option GreylistResponse
  | .finished (.ok answer) => some answer
  | _ => none

section
variable {T : Type} [DecidableEq T] {LIKE : Bytes → Bytes → Bool} {requests : T → Request}
  {db₀ db : Database} {threads : T → Stage} {h : Log T} {m : Key → Option Triple} {t : T}

/-- The table has one row for each triple, with its count, and a call that nobody
has come between still has it as it was read. -/
structure Inv (requests : T → Request) (db₀ : Database) (threads : T → Stage) (db : Database)
    (h : Log T) (m : Key → Option Triple) : Prop where
  table : Table.Represents Triple.key db.triples m
  free : ∀ t, threads t = .create → Since (looks t) (created (requests t).key) h →
    m (requests t).key = none
  held : ∀ t row, threads t = .store row → Since (looks t) (counted (requests t).key) h →
    ∃ r, m (requests t).key = some r ∧ r.timesseen = row.2
  count : ∀ k, ((m k).map Triple.timesseen).getD 1 =
    base db₀ k + acceptances (fun t => answered (threads t)) k h

theorem since_other {e : Event (Shared T Statement.Ans)} {r : Rule (Shared T Statement.Ans)}
    (ht : t ≠ e.thread) (hs : Since (looks t) r (e :: h)) : ¬ r e h ∧ Since (looks t) r h := by
  rcases hs with hlook | hs
  · exact absurd (of_decide_eq_true hlook.1).symm ht
  · exact hs

omit [DecidableEq T] in
theorem accepted_cons (answers : T → Option GreylistResponse) (k : Key)
    (e : Event (Shared T Statement.Ans)) : acceptances answers k (e :: h) = acceptances answers k h +
      if (updates e).any (fun u => u.1 = k) && answers e.thread = some .Accepted then 1 else 0 :=
  List.countP_cons ..

/-- What a call writes does not count before it is over. -/
theorem accepted_move (hown : ∀ e ∈ h, e.thread = t → updates e = none) (c : Stage) (k : Key) :
    acceptances (fun t' => answered (Function.update threads t c t')) k h =
      acceptances (fun t' => answered (threads t')) k h := by
  apply List.countP_congr
  intro e he
  by_cases ht : e.thread = t
  · rw [hown e he ht]
    rfl
  · simp only [Function.update_of_ne ht]

/-- What an update adds when its call is over. -/
theorem accepted_update (hown : ∀ e ∈ h, e.thread = t → updates e = none) {lastseen n : Int}
    {answer : GreylistResponse} {done : Unit} (k k' : Key) :
    acceptances (fun t' => answered (Function.update threads t (.finished (.ok answer)) t')) k'
        (⟨(t, .updateTriple lastseen n k), some done⟩ :: h) =
      acceptances (fun t' => answered (threads t')) k' h +
        if k = k' ∧ answer = .Accepted then 1 else 0 := by
  have hanswered : answered (Function.update threads t (.finished (.ok answer)) t) = some answer := by
    rw [Function.update_self]
    rfl
  have hupdates : ((updates (⟨(t, .updateTriple lastseen n k), some done⟩ :
      Event (Shared T Statement.Ans))).any fun u => u.1 = k') = decide (k = k') := rfl
  rw [accepted_cons, accepted_move hown, hupdates, hanswered]
  simp

/-- A thread that is now at another place than the one that has just moved. -/
theorem stage_other {t' : T} {c c' : Stage} (hc : Function.update threads t c t' = c')
    (hne : c ≠ c') : t' ≠ t ∧ threads t' = c' := by
  by_cases ht : t' = t
  · subst ht
    rw [Function.update_self] at hc
    exact absurd hc hne
  · rw [Function.update_of_ne ht] at hc
    exact ⟨ht, hc⟩

theorem updates_own (hown : Own (threads t) (own t h)) (hover : ∀ r, threads t ≠ .finished r) :
    ∀ e ∈ h, e.thread = t → updates e = none := by
  intro e he ht
  have hwrite := hown.once hover _ (ht ▸ mem_own he)
  obtain ⟨⟨t', st⟩, x⟩ := e
  cases st with
  | updateTriple lastseen timesseen k =>
    cases x with
    | none => rfl
    | some done => cases hwrite
  | _ => rfl

theorem alone_insert {lastseen : Int} {k : Key} {done : Unit}
    (ha : alone ⟨(t, .insertTriple lastseen k), some done⟩ h) : Since (looks t) (created k) h := by
  have hall := ha.1
  simp only [inserts, Option.all_some, decide_eq_true_eq] at hall
  exact hall

theorem alone_update {lastseen n : Int} {k : Key} {done : Unit} {row : Int × Int}
    (ha : alone ⟨(t, .updateTriple lastseen n k), some done⟩ h) (hfound : found (own t h) = some row) :
    Since (looks t) (counted k) h ∧ Countable row := by
  have hall := ha.2
  simp only [updates, Option.all_some, decide_eq_true_eq] at hall
  obtain ⟨hsince, hcountable⟩ := hall
  simp only [hfound, Option.all_some, decide_eq_true_eq] at hcountable
  exact ⟨hsince, hcountable⟩

/-- A statement that changes nothing. -/
theorem Inv.read (hs : Inv requests db₀ threads db h m) (hown : ∀ e ∈ h, e.thread = t → updates e = none)
    {st : Statement} {x : Statement.Ans st} {c : Stage}
    (hinserts : inserts ⟨(t, st), x⟩ = none) (hupdates : updates ⟨(t, st), x⟩ = none)
    (hfree : c = .create → m (requests t).key = none)
    (hheld : ∀ row, c = .store row → ∃ r, m (requests t).key = some r ∧ r.timesseen = row.2) :
    Inv requests db₀ (Function.update threads t c) db (⟨(t, st), x⟩ :: h) m := by
  constructor
  · exact hs.table
  · intro t' hc hsince
    by_cases ht : t' = t
    · subst ht
      rw [Function.update_self] at hc
      exact hfree hc
    · rw [Function.update_of_ne ht] at hc
      exact hs.free t' hc (since_other ht hsince).2
  · intro t' row hc hsince
    by_cases ht : t' = t
    · subst ht
      rw [Function.update_self] at hc
      exact hheld row hc
    · rw [Function.update_of_ne ht] at hc
      exact hs.held t' row hc (since_other ht hsince).2
  · intro k
    rw [hs.count k, accepted_cons, hupdates, accepted_move hown]
    rfl

/-- A row for a triple that has none. -/
theorem Inv.insert (hs : Inv requests db₀ threads db h m)
    (hown : ∀ e ∈ h, e.thread = t → updates e = none) {lastseen : Int} {answer : GreylistResponse}
    {rows : Unit} (hnone : m (requests t).key = none) :
    ∃ m, Inv requests db₀ (Function.update threads t (.finished (.ok answer)))
      { db with triples := db.triples ++ [⟨(requests t).key, 1, lastseen, lastseen⟩] }
      (⟨(t, .insertTriple lastseen (requests t).key), some rows⟩ :: h) m := by
  have htable := hs.table.insert (r := ⟨(requests t).key, 1, lastseen, lastseen⟩) hnone
  refine ⟨_, htable, ?_, ?_, ?_⟩
  · intro t' hc hsince
    obtain ⟨ht, hc⟩ := stage_other hc fun he => Stage.noConfusion he
    obtain ⟨hne, hsince⟩ := since_other ht hsince
    have hkey : (requests t').key ≠ (requests t).key := fun he => hne (congrArg some he.symm)
    rw [Function.update_of_ne hkey]
    exact hs.free t' hc hsince
  · intro t' row hc hsince
    obtain ⟨ht, hc⟩ := stage_other hc fun he => Stage.noConfusion he
    obtain ⟨r, hr, hcount⟩ := hs.held t' row hc (since_other ht hsince).2
    have hkey : (requests t').key ≠ (requests t).key := fun he => by
      rw [he, hnone] at hr
      cases hr
    rw [Function.update_of_ne hkey]
    exact ⟨r, hr, hcount⟩
  · intro k
    rw [accepted_cons, accepted_move hown]
    have hold := hs.count k
    by_cases hk : k = (requests t).key
    · subst hk
      rw [Function.update_self]
      rw [hnone] at hold
      exact hold
    · rw [Function.update_of_ne hk]
      exact hold

/-- The count that is written for a triple that is as it was read. -/
theorem timesseen_eq {quarantinetime lastseen : Int} {row : Int × Int} (hrow : Countable row) :
    timesseen quarantinetime lastseen row =
      row.2 + if answer quarantinetime lastseen row = .Accepted then 1 else 0 := by
  have hread : getint row.2 = row.2 := by
    apply getint_eq
    · exact hrow.1
    · have hbound := hrow.2
      omega
  unfold timesseen answer
  rw [hread]
  by_cases hfailed : failed quarantinetime lastseen row
  · rw [if_pos hfailed, if_pos hfailed, if_neg (by decide), Int.add_zero]
  · rw [if_neg hfailed, if_neg hfailed, if_pos rfl]
    apply getint_eq
    · have hbound := hrow.1
      omega
    · exact hrow.2

/-- A new count for a triple that is as it was read. -/
theorem Inv.update (hs : Inv requests db₀ threads db h m)
    (hown : ∀ e ∈ h, e.thread = t → updates e = none) {lastseen n : Int} {answer : GreylistResponse}
    {row : Int × Int} {r : Triple} {done : Unit} (hfound : found (own t h) = some row)
    (hread : getint row.2 = row.2) (hn : n = row.2 + if answer = .Accepted then 1 else 0)
    (hr : m (requests t).key = some r) (hcount : r.timesseen = row.2) :
    ∃ m, Inv requests db₀ (Function.update threads t (.finished (.ok answer)))
      { db with
        triples := Table.modify Triple.key (requests t).key
          (fun row => { row with lastseen := lastseen, timesseen := n }) db.triples }
      (⟨(t, .updateTriple lastseen n (requests t).key), some done⟩ :: h) m := by
  have htable := hs.table.modify (requests t).key
    (f := fun row => { row with lastseen := lastseen, timesseen := n }) fun _ => rfl
  refine ⟨_, htable, ?_, ?_, ?_⟩
  · intro t' hc hsince
    obtain ⟨ht, hc⟩ := stage_other hc fun he => Stage.noConfusion he
    have hnone := hs.free t' hc (since_other ht hsince).2
    have hkey : (requests t').key ≠ (requests t).key := fun he => by
      rw [he, hr] at hnone
      cases hnone
    rw [Function.update_of_ne hkey]
    exact hnone
  · intro t' row' hc hsince
    obtain ⟨ht, hc⟩ := stage_other hc fun he => Stage.noConfusion he
    obtain ⟨hcounted, hsince⟩ := since_other ht hsince
    obtain ⟨r', hr', hcount'⟩ := hs.held t' row' hc hsince
    by_cases hkey : (requests t').key = (requests t).key
    · -- the count is the one that was there, so the other call has read it too
      rw [hkey, hr] at hr'
      obtain rfl := Option.some.inj hr'
      have hsame : n = getint row.2 := by
        by_contra hne
        apply hcounted
        show Option.any _ (some _) = true
        simp only [Option.any_some, hkey, hfound, hne, ne_eq, not_false_eq_true, decide_true, and_self]
      rw [hkey, Function.update_self, hr]
      refine ⟨_, rfl, ?_⟩
      show n = row'.2
      rw [hsame, hread, ← hcount, hcount']
    · rw [Function.update_of_ne hkey]
      exact ⟨r', hr', hcount'⟩
  · intro k
    rw [accepted_update hown]
    have hold := hs.count k
    by_cases hk : (requests t).key = k
    · subst hk
      rw [hr] at hold
      have hcounted : r.timesseen = base db₀ (requests t).key +
        acceptances (fun t => answered (threads t)) (requests t).key h := hold
      rw [Function.update_self, hr]
      show n = _
      rw [hn, ← hcount, hcounted]
      cases answer with
      | Accepted =>
        rw [if_pos rfl, if_pos ⟨rfl, rfl⟩]
        omega
      | GreyListed | BlackListed =>
        rw [if_neg (by decide), if_neg (by simp)]
        omega
    · rw [Function.update_of_ne (Ne.symm hk), if_neg fun hboth => hk hboth.1]
      exact hold

/-- A statement that fails changes nothing, so only the one that is executed matters. -/
theorem inv_querying {st : Statement} {next : Rows st → Stage}
    (hown : ∀ e ∈ h, e.thread = t → updates e = none)
    (hs : Always alone h → ∃ m, Inv requests db₀ threads db h m)
    (hdone : ∀ m, Inv requests db₀ threads db h m → alone ⟨(t, st), some (execute LIKE st db).1⟩ h →
      ∃ m, Inv requests db₀ (Function.update threads t (next (execute LIKE st db).1))
        (execute LIKE st db).2 (⟨(t, st), some (execute LIKE st db).1⟩ :: h) m) :
    (Node.call st (Stage.querying next) : Node Statement.Ans (Except Exn GreylistResponse) Stage).All
      fun e c => ∀ db', Serves LIKE e.1 db e.2 db' → Always alone (⟨(t, e.1), e.2⟩ :: h) →
        ∃ m, Inv requests db₀ (Function.update threads t c) db' (⟨(t, e.1), e.2⟩ :: h) m := by
  intro x db' hserves halone
  dsimp only at hserves halone ⊢
  obtain ⟨m, hm⟩ := hs halone.2
  rcases hserves with ⟨rfl, rfl⟩ | ⟨rfl, rfl⟩
  · refine ⟨m, hm.read hown ?_ ?_ (fun hc => Stage.noConfusion hc) fun _ hc => Stage.noConfusion hc⟩
    · cases st <;> rfl
    · cases st <;> rfl
  · exact hdone m hm halone.1

theorem inv_step (hon : ∀ t, (requests t).machine.On .white (threads t) (own t h)) (t : T)
    (hs : Always alone h → ∃ m, Inv requests db₀ threads db h m) :
    ((requests t).machine (threads t)).All fun e c => ∀ db', Serves LIKE e.1 db e.2 db' →
      Always alone (⟨(t, e.1), e.2⟩ :: h) →
      ∃ m, Inv requests db₀ (Function.update threads t c) db' (⟨(t, e.1), e.2⟩ :: h) m := by
  have hown := own_spec (hon t)
  have hupdates := fun hover => updates_own hown hover
  cases hstage : threads t with
  | white | black =>
    rw [hstage] at hupdates
    have hquiet := hupdates fun r hover => Stage.noConfusion hover
    refine inv_querying hquiet hs fun m hm _ => ?_
    refine ⟨m, hm.read hquiet rfl rfl (fun hc => ?_) fun row hc => ?_⟩
    · exact absurd hc (counted_create ⟨_, rfl⟩ fun hnext => Stage.noConfusion hnext)
    · exact absurd hc (counted_store fun hnext => Stage.noConfusion hnext)
  | look =>
    rw [hstage] at hupdates
    have hquiet := hupdates fun r hover => Stage.noConfusion hover
    refine inv_querying hquiet hs fun m hm _ => ?_
    have hselect := hm.table (requests t).key
    refine ⟨m, hm.read hquiet rfl rfl (fun hc => ?_) fun row hc => ?_⟩
    · simp only [execute, hselect] at hc
      cases hr : m (requests t).key with
      | none => rfl
      | some r =>
        rw [hr] at hc
        exact Stage.noConfusion hc
    · simp only [execute, hselect] at hc
      cases hr : m (requests t).key with
      | none =>
        rw [hr] at hc
        exact Stage.noConfusion hc
      | some r =>
        rw [hr] at hc
        exact ⟨r, rfl, congrArg Prod.snd (Stage.store.inj hc)⟩
  | create =>
    rw [hstage] at hupdates
    have hquiet := hupdates fun r hover => Stage.noConfusion hover
    refine inv_querying hquiet hs fun m hm halone => ?_
    exact hm.insert hquiet (hm.free t hstage (alone_insert halone))
  | store row =>
    rw [hstage] at hupdates
    have hquiet := hupdates fun r hover => Stage.noConfusion hover
    refine inv_querying hquiet hs fun m hm halone => ?_
    have hfound := hown.found row hstage
    obtain ⟨hsince, hrow⟩ := alone_update halone hfound
    obtain ⟨r, hr, hcount⟩ := hm.held t row hstage hsince
    have hread : getint row.2 = row.2 := by
      have hbound := hrow.2
      exact getint_eq hrow.1 (by omega)
    exact hm.update hquiet hfound hread (timesseen_eq hrow) hr hcount
  | finished r => trivial

/-- A table with one row for each triple. -/
theorem represents_unique (hunique : ∀ k, (Table.select Triple.key k db.triples).length ≤ 1) :
    Table.Represents Triple.key db.triples fun k => (Table.select Triple.key k db.triples).head? := by
  intro k
  have hlength := hunique k
  dsimp only
  generalize Table.select Triple.key k db.triples = rows at hlength ⊢
  cases rows with
  | nil => rfl
  | cons row rows =>
    rw [List.length_cons] at hlength
    obtain rfl : rows = [] := List.eq_nil_of_length_eq_zero (by omega)
    rfl

theorem inv_run (hunique : ∀ k, (Table.select Triple.key k db₀.triples).length ≤ 1)
    (hpool : Pool (fun t => (requests t).machine) (Serves LIKE) (fun _ => .white) db₀ threads db h) :
    Always alone h → ∃ m, Inv requests db₀ threads db h m := by
  apply hpool.invariant (I := fun threads db h => Always alone h → ∃ m, Inv requests db₀ threads db h m)
  · intro _
    refine ⟨_, represents_unique hunique, ?_, ?_, fun k => ?_⟩
    · exact fun t hc => Stage.noConfusion hc
    · exact fun t row hc => Stage.noConfusion hc
    · exact (Int.add_zero _).symm
  · intro threads db h t hp hs
    exact inv_step hp.on t hs

/-- What the rest of a program has returned is what its stage says. -/
theorem returned_eq {q : Request} {p : Program Statement Statement.Ans (Except Exn GreylistResponse × Unit)}
    {c : Stage} (hp : p.Follows q.machine (fun r c => Finished r.1 r.2 c) c) : returned p = answered c := by
  cases p with
  | done r =>
    obtain ⟨r, u⟩ := r
    obtain rfl : c = .finished r := hp
    cases r <;> rfl
  | call st next =>
    obtain ⟨next', hc, -⟩ := hp
    cases c with
    | finished r => cases hc
    | _ => rfl

end

end Concurrent

open Concurrent

/-- Where each call finds the table as it has left it, `triples` has one row for a
triple, and its count goes up by one with every call that accepts. -/
theorem greylist_concurrent {T : Type} [DecidableEq T] (LIKE : Bytes → Bytes → Bool)
    (requests : T → Request) {db₀ db : Database} {h : Concurrent.Log T}
    {left : T → Program Statement Statement.Ans (Except Exn GreylistResponse × Unit)}
    (hunique : ∀ k, (Table.select Triple.key k db₀.triples).length ≤ 1)
    (hrun : Pool (fun _ => Program.machine) (Serves LIKE) (fun t => (requests t).call) db₀ left db h)
    (halone : Always alone h) (k : Key) :
    (Table.select Triple.key k db.triples).length ≤ 1 ∧
      ∀ row ∈ Table.select Triple.key k db.triples,
        row.timesseen = base db₀ k + acceptances (fun t => returned (left t)) k h := by
  obtain ⟨threads, hpool, hleft⟩ := hrun.follows fun t => (requests t).call_follows
  obtain ⟨m, hm⟩ := inv_run hunique hpool halone
  have hreturned : (fun t => returned (left t)) = fun t => answered (threads t) :=
    funext fun t => returned_eq (hleft t)
  have hselect := hm.table k
  have hcount := hm.count k
  rw [hreturned, hselect]
  cases hr : m k with
  | none => exact ⟨Nat.zero_le 1, fun row hrow => absurd hrow List.not_mem_nil⟩
  | some r =>
    refine ⟨Nat.le_refl 1, fun row hrow => ?_⟩
    rw [List.mem_singleton.mp hrow]
    rw [hr] at hcount
    exact hcount

/-- Calls for one triple, a minute after each other, in the order of their statements. -/
@[irreducible] def inTurns (turns : List Bool) (db : Database) :
    (Bool → Program Statement Statement.Ans (Except Exn GreylistResponse × Unit)) × Database ×
      Concurrent.Log Bool :=
  schedule (Statement.serve fun _ _ => false) turns
    (fun second => Request.call
      { quarantinetime := 300, lastseen := if second then 1060 else 1000, sender := 0x7F000000
        fromaddress := text "a@b", toaddress := text "c@d" }) db []

/-- The triple of these calls, seen once at the time 0. -/
def seenTriple : Triple := ⟨⟨0x7F000000, text "a@b", text "c@d"⟩, 1, 0, 0⟩

/-- A database with these rows. -/
def Database.ofTriples (triples : List Triple) : Database :=
  { whitelist := [], blacklist := [], triples, invalidexpiry := none, validexpiry := none }

theorem ofTriples_unique {triples : List Triple} (hlength : triples.length ≤ 1) (k : Key) :
    (Table.select Triple.key k (Database.ofTriples triples).triples).length ≤ 1 :=
  (List.length_filter_le _ triples).trans hlength

/-- Both calls look for the triple before one of them writes. -/
def racing : List Bool := [false, false, false, true, true, true, false, true]

/-- The second call begins when the first one is over. -/
def inOrder : List Bool := [false, false, false, false, true, true, true, true]

theorem inTurns_pool (turns : List Bool) (db : Database) :
    ∃ requests : Bool → Request, Pool (fun _ => Program.machine) (Serves fun _ _ => false)
      (fun t => (requests t).call) db (inTurns turns db).1 (inTurns turns db).2.1
      (inTurns turns db).2.2 := by
  unfold inTurns
  refine ⟨_, Pool.schedule (fun st db => ?_) turns .start⟩
  exact .inr ⟨rfl, rfl⟩

/-- Two calls at a time insert a new triple twice, and count a known one once. -/
theorem racing_calls_corrupt :
    (¬ ∀ (LIKE : Bytes → Bytes → Bool) (requests : Bool → Request) (db₀ db : Database)
      (h : Concurrent.Log Bool)
      (left : Bool → Program Statement Statement.Ans (Except Exn GreylistResponse × Unit)),
      (∀ k, (Table.select Triple.key k db₀.triples).length ≤ 1) →
      Pool (fun _ => Program.machine) (Serves LIKE) (fun t => (requests t).call) db₀ left db h →
      ∀ k, (Table.select Triple.key k db.triples).length ≤ 1) ∧
    ¬ ∀ (LIKE : Bytes → Bytes → Bool) (requests : Bool → Request) (db₀ db : Database)
      (h : Concurrent.Log Bool)
      (left : Bool → Program Statement Statement.Ans (Except Exn GreylistResponse × Unit)),
      (∀ k, (Table.select Triple.key k db₀.triples).length ≤ 1) →
      Pool (fun _ => Program.machine) (Serves LIKE) (fun t => (requests t).call) db₀ left db h →
      ∀ k, ∀ row ∈ Table.select Triple.key k db.triples,
        row.timesseen = base db₀ k + acceptances (fun t => returned (left t)) k h := by
  constructor
  · intro hall
    obtain ⟨requests, hpool⟩ := inTurns_pool racing (.ofTriples [])
    have hunique := hall _ requests _ _ _ _ (ofTriples_unique (by decide)) hpool seenTriple.key
    revert hunique
    decide +kernel
  · intro hall
    obtain ⟨requests, hpool⟩ := inTurns_pool racing (.ofTriples [seenTriple])
    have hcount := hall _ requests _ _ _ _ (ofTriples_unique (by decide)) hpool seenTriple.key
    revert hcount
    decide +kernel

theorem calls_in_order_count :
    ((Table.select Triple.key seenTriple.key (inTurns inOrder (.ofTriples [seenTriple])).2.1.triples).map
        Triple.timesseen = [3]) ∧
      ∀ row ∈ Table.select Triple.key seenTriple.key
          (inTurns inOrder (.ofTriples [seenTriple])).2.1.triples,
        row.timesseen = base (.ofTriples [seenTriple]) seenTriple.key +
          acceptances (fun t => returned ((inTurns inOrder (.ofTriples [seenTriple])).1 t)) seenTriple.key
            (inTurns inOrder (.ofTriples [seenTriple])).2.2 := by
  obtain ⟨requests, hpool⟩ := inTurns_pool inOrder (.ofTriples [seenTriple])
  refine ⟨by decide +kernel, ?_⟩
  exact (greylist_concurrent _ requests (ofTriples_unique (by decide)) hpool (by decide +kernel)
    seenTriple.key).2

end Spey.Greylist
