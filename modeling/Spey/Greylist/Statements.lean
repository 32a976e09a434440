import Spey.Greylist.Engine
import Spey.Interaction.Machine

/-!
# The statements of greylist.cc

`greylist` as the sequence of SQL statements that it issues. Each of them is one
call to the database, which is served in one piece or raises an `SQLException`;
nothing holds the database between two of them. On a database that nobody else
uses they make up the function `Greylist.greylist`.
-/

namespace Spey.Greylist

open Interaction

inductive Statement where
  /-- `SELECT COUNT(*) FROM whitelist WHERE ..` -/
  | countWhite (k : Key)
  /-- `SELECT COUNT(*) FROM blacklist WHERE ..` -/
  | countBlack (k : Key)
  /-- `SELECT firstseen, timesseen FROM triples WHERE ..` -/
  | selectTriple (k : Key)
  /-- `UPDATE triples SET lastseen=.., timesseen=.. WHERE ..` -/
  | updateTriple (lastseen timesseen : Int) (k : Key)
  /-- `INSERT INTO triples VALUES ..` -/
  | insertTriple (lastseen : Int) (k : Key)
  deriving DecidableEq

namespace Statement

/-- The rows that a statement gives; a change of the table gives none. -/
abbrev Rows : Statement → Type
  | .countWhite _ | .countBlack _ => List Int
  | .selectTriple _ => List (Int × Int)
  | .updateTriple _ _ _ | .insertTriple _ _ => Unit

/-- `none` is the `SQLException`. -/
abbrev Ans (st : Statement) : Type := Option (Rows st)

/-- What a statement does to the tables. -/
def execute (LIKE : Bytes → Bytes → Bool) : (st : Statement) → Database → Rows st × Database
  | .countWhite k, db => (selectCount LIKE db.whitelist k, db)
  | .countBlack k, db => (selectCount LIKE db.blacklist k, db)
  | .selectTriple k, db =>
      ((Table.select Triple.key k db.triples).map fun row => (row.firstseen, row.timesseen), db)
  | .updateTriple lastseen timesseen k, db =>
      ((), { db with
        triples := Table.modify Triple.key k
          (fun row => { row with lastseen := lastseen, timesseen := timesseen }) db.triples })
  | .insertTriple lastseen k, db =>
      ((), { db with triples := db.triples ++ [⟨k, 1, lastseen, lastseen⟩] })

/-- A database that serves every statement. -/
def serve (LIKE : Bytes → Bytes → Bool) (st : Statement) (db : Database) : Ans st × Database :=
  (some (execute LIKE st db).1, (execute LIKE st db).2)

/-- A part of `greylist`. -/
abbrev Query := Action Ans Exn Unit

/-- `SQLQuery` and its `step`. -/
def query (st : Statement) : Query (Rows st) := do
  match ← Action.call st with
  | none => Action.raise .sql
  | some rows => pure rows

/-- The label `notfound:`. -/
def notfound (lastseen : Int) (k : Key) : Query GreylistResponse := do
  let _ ← query (.insertTriple lastseen k)
  pure .GreyListed

/-- The data path of a triple that was seen before. -/
def seen (quarantinetime lastseen : Int) (k : Key) (row : Int × Int) : Query GreylistResponse := do
  let firstseen := getint row.1
  let failed := ¬ quarantinetime < long (lastseen - firstseen)
  let timesseen := if failed then getint row.2 else getint (getint row.2 + 1)
  let _ ← query (.updateTriple lastseen timesseen k)
  pure (if failed then .GreyListed else .Accepted)

/-- The look at `triples`. -/
def lookup (quarantinetime lastseen : Int) (k : Key) : Query GreylistResponse := do
  match ← query (.selectTriple k) with
  | [] => notfound lastseen k
  | row :: _ => seen quarantinetime lastseen k row

/-- The look at `blacklist`, and what comes after it. -/
def black (quarantinetime lastseen : Int) (k : Key) : Query GreylistResponse := do
  match ← query (.countBlack k) with
  | [] => notfound lastseen k
  | n :: _ => if getint n ≠ 0 then pure .BlackListed else lookup quarantinetime lastseen k

/-- The look at `whitelist`, and what comes after it. -/
def white (quarantinetime lastseen : Int) (k : Key) : Query GreylistResponse := do
  match ← query (.countWhite k) with
  | [] => notfound lastseen k
  | n :: _ => if getint n ≠ 0 then pure .Accepted else black quarantinetime lastseen k

/-- `greylist`, at the time `lastseen`. -/
def greylist (quarantinetime lastseen : Int) (sender : UInt32) (fromaddress toaddress : Bytes) :
    Query GreylistResponse :=
  let fromaddress := if fromaddress = [] then text "(probe)" else fromaddress
  white quarantinetime lastseen ⟨sender, cstr fromaddress, cstr toaddress⟩

/-! ## Without anybody else -/

section
variable (LIKE : Bytes → Bytes → Bool) (quarantinetime lastseen : Int) (k : Key) (db : Database)

end

/-! ## Step by step -/

/-- How far a call has come. -/
inductive Stage where
  | white | black | look | create
  | store (row : Int × Int)
  | finished (r : Except Exn GreylistResponse)

namespace Stage

/-- Away from a statement that has failed. -/
def querying {α : Type} (next : α → Stage) : Option α → Stage
  | none => finished (.error .sql)
  | some rows => next rows

/-- After the count of a list. -/
def counted (answer : GreylistResponse) (next : Stage) : List Int → Stage
  | [] => create
  | n :: _ => if getint n ≠ 0 then finished (.ok answer) else next

def looked : List (Int × Int) → Stage
  | [] => create
  | row :: _ => store row

end Stage

variable (quarantinetime lastseen : Int) (k : Key)

/-- Is the triple still in quarantine? -/
def failed (row : Int × Int) : Prop := ¬ quarantinetime < long (lastseen - getint row.1)

instance (row : Int × Int) : Decidable (failed quarantinetime lastseen row) :=
  inferInstanceAs (Decidable (¬ _))

/-- The answer to a triple that was seen before. -/
def answer (row : Int × Int) : GreylistResponse :=
  if failed quarantinetime lastseen row then .GreyListed else .Accepted

/-- The count that is written for it. -/
def timesseen (row : Int × Int) : Int :=
  if failed quarantinetime lastseen row then getint row.2 else getint (getint row.2 + 1)

/-- One step of a call. -/
def machine : Machine Ans (Except Exn GreylistResponse) Stage
  | .white => .call (.countWhite k) (Stage.querying (Stage.counted .Accepted .black))
  | .black => .call (.countBlack k) (Stage.querying (Stage.counted .BlackListed .look))
  | .look => .call (.selectTriple k) (Stage.querying Stage.looked)
  | .create => .call (.insertTriple lastseen k) (Stage.querying fun _ => .finished (.ok .GreyListed))
  | .store row => .call (.updateTriple lastseen (timesseen quarantinetime lastseen row) k)
      (Stage.querying fun _ => .finished (.ok (answer quarantinetime lastseen row)))
  | .finished r => .finished r

/-- Where a call ends. -/
def Finished : Action.Goal Exn Unit GreylistResponse Stage := fun r _ c => c = .finished r

theorem query_follows {st : Statement} {α : Type} {f : Rows st → Query α} {Q : Action.Goal Exn Unit α Stage}
    {c : Stage} {next : Rows st → Stage} {u : Unit}
    (hc : machine quarantinetime lastseen k c = .call st (Stage.querying next))
    (hf : ∀ rows, (f rows).follows (machine quarantinetime lastseen k) Q u (next rows))
    (hfail : Q (.error .sql) u (.finished (.error .sql))) :
    (query st >>= f).follows (machine quarantinetime lastseen k) Q u c := by
  simp only [query, Action.follows_bind, Action.follows_call]
  refine ⟨_, hc, fun x => ?_⟩
  cases x with
  | none => exact hfail
  | some rows => exact hf rows

theorem notfound_follows (u : Unit) :
    (notfound lastseen k).follows (machine quarantinetime lastseen k) Finished u .create :=
  query_follows quarantinetime lastseen k rfl (fun _ => rfl) rfl

theorem lookup_follows (u : Unit) : (lookup quarantinetime lastseen k).follows
    (machine quarantinetime lastseen k) Finished u .look := by
  refine query_follows quarantinetime lastseen k rfl (fun rows => ?_) rfl
  cases rows with
  | nil => exact notfound_follows quarantinetime lastseen k u
  | cons row rows => exact query_follows quarantinetime lastseen k rfl (fun _ => rfl) rfl

theorem black_follows (u : Unit) : (black quarantinetime lastseen k).follows
    (machine quarantinetime lastseen k) Finished u .black := by
  refine query_follows quarantinetime lastseen k rfl (fun rows => ?_) rfl
  cases rows with
  | nil => exact notfound_follows quarantinetime lastseen k u
  | cons n rows =>
    simp only [Stage.counted, Action.follows_ite]
    split_ifs
    · rfl
    · exact lookup_follows quarantinetime lastseen k u

theorem white_follows (u : Unit) : (white quarantinetime lastseen k).follows
    (machine quarantinetime lastseen k) Finished u .white := by
  refine query_follows quarantinetime lastseen k rfl (fun rows => ?_) rfl
  cases rows with
  | nil => exact notfound_follows quarantinetime lastseen k u
  | cons n rows =>
    simp only [Stage.counted, Action.follows_ite]
    split_ifs
    · rfl
    · exact black_follows quarantinetime lastseen k u

/-! ## Failing statements -/

/-- The statement raised an exception. -/
def raises : Event Ans → Bool
  | ⟨_, none⟩ => true
  | ⟨_, some _⟩ => false

/-- A failing statement is the last one, and its exception leaves the call. -/
def Stops (c : Stage) (h : History Ans) : Prop :=
  (∀ e ∈ h, raises e = false) ∨
    (c = .finished (.error .sql) ∧ ∃ e past, h = e :: past ∧ raises e = true ∧ ∀ e ∈ past, raises e = false)

theorem stops_step {c : Stage} {h : History Ans} (hs : Stops c h) :
    (machine quarantinetime lastseen k c).All fun e c' => Stops c' (e :: h) := by
  have hquery : ∀ {st : Statement} {next : Rows st → Stage}, (∀ e ∈ h, raises e = false) →
      ∀ x, Stops (Stage.querying next x) (⟨st, x⟩ :: h) := by
    intro st next hsound x
    cases x with
    | none => exact .inr ⟨rfl, _, h, rfl, rfl, hsound⟩
    | some rows =>
      refine .inl fun e he => ?_
      rcases List.mem_cons.mp he with rfl | he
      · rfl
      · exact hsound e he
  have hsound : (∀ r, c ≠ .finished r) → ∀ e ∈ h, raises e = false := fun hc =>
    hs.resolve_right fun hover => hc _ hover.1
  cases c with
  | finished r => trivial
  | _ => exact hquery (hsound fun _ hover => Stage.noConfusion hover)

/-- Whichever statement of `greylist` fails, its `SQLException` leaves the call. -/
theorem greylist_stops {sender : UInt32} {fromaddress toaddress : Bytes}
    {r : Except Exn GreylistResponse} {u u' : Unit} {h : History Ans}
    (hrun : (greylist quarantinetime lastseen sender fromaddress toaddress).Ends u [] r u' h) :
    (∀ e ∈ h, raises e = false) ∨
      (r = .error .sql ∧ ∃ e past, h = e :: past ∧ raises e = true ∧ ∀ e ∈ past, raises e = false) := by
  obtain ⟨c, rfl, hc⟩ := Action.follows_ends (white_follows quarantinetime lastseen _ u) .start hrun
  have hs : Stops (.finished r) h :=
    hc.invariant (.inl fun e he => absurd he List.not_mem_nil)
      fun c h hs => stops_step quarantinetime lastseen _ hs
  rcases hs with hsound | ⟨hr, hlast⟩
  · exact .inl hsound
  · exact .inr ⟨Stage.finished.inj hr, hlast⟩

end Statement

end Spey.Greylist
