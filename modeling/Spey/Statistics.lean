import Mathlib.Data.List.Nodup
import Spey.World
import Spey.Interaction.Pool
import Spey.Speyctl.Atomicity

/-!
# Statistics.cc

Any number of sessions and of operators with speyctl work on one database. A
session counts an event by an `UPDATE` of the row with the event's key. Where the
table has such a row, it holds the number of times that the event was recorded since the
counters were last reset. `init.sql` gives every counter its row but one: what is
recorded as `blacklisted` is lost.
-/

namespace Spey

/-- The key of a counter in `statistics`. -/
def Counter.key : Counter → Bytes
  | .malformedDomain => text "malformed-domain"
  | .malformedAddress => text "malformed-address"
  | .spokeTooSoon => text "spoke-too-soon"
  | .timeout => text "timeout"
  | .illegalRelaying => text "illegal-relay"
  | .greylisted => text "greylisted"
  | .accepted => text "accepted"
  | .blacklisted => text "blacklisted"
  | .whitelisted => text "whitelisted"
  | .blackholed => text "blackholed"

theorem Counter.key_injective {a b : Counter} (h : a.key = b.key) : a = b := by
  revert h
  cases a <;> cases b <;> decide

/-- `Threadlet::trampoline`, for the thread of a session. -/
def trampoline (ctx : Context) (rounds : Nat) : Proc Unit :=
  Interaction.Action.handle (process ctx rounds) fun
    | .networkTimeout => some (count .timeout)
    | .unfinished => none
    | .network | .invalidSMTPCommand | .malformedDomain | .malformedAddress | .illegalRelaying
    | .sql | .authenticationCancelled => some (pure ())

namespace Statistics

open Interaction Speyctl

/-- What the threads and the operators call: a run of speyctl is one call. -/
inductive SystemCall where
  | session (c : Call)
  | speyctl (parameters : List Argument)

abbrev SystemAns : SystemCall → Type
  | .session c => Ans c
  | .speyctl _ => Except CtlExn Bytes

abbrev SystemLog (T : Type) := History (Shared T SystemAns)

/-- The thread of a session, or an operator who runs commands. -/
inductive Thread where
  | session (ctx : Context) (rounds : Nat)
  | operator (commands : List (List Argument))

def operate : List (List Argument) → Program SystemCall SystemAns Unit
  | [] => .done ()
  | parameters :: commands => .call (.speyctl parameters) fun _ => operate commands

/-- A session is answered as it is by itself. -/
def fromSystem (c : Call) (x : SystemAns (.session c)) : Ans c := x

def toSystem (c : Call) (x : Ans c) : SystemAns (.session c) := x

def Thread.program : Thread → Program SystemCall SystemAns Unit
  | .session ctx rounds =>
      (trampoline ctx rounds {}).embed SystemCall.session fromSystem fun _ => ()
  | .operator commands => operate commands

/-- `Statistics::count` updates the row of the counter or fails; the other calls of a session do not
change these tables. Any of the calls that speyctl makes may fail. -/
def Serves : Service SystemAns Tables
  | .session (.count counter), db, x, db' =>
      (x = false ∧ db' = db) ∨ (x = true ∧ Sql.execute (.increment counter.key) db = some db')
  | .session _, db, _, db' => db' = db
  | .speyctl parameters, db, x, db' => ∃ faults, (Invocation.mk parameters faults).run db = (x, db')

variable {T : Type}

/-- The counter that is recorded. -/
def records : Event (Shared T SystemAns) → Option Counter
  | ⟨(_, .session (.count counter)), true⟩ => some counter
  | _ => none

/-- `speyctl statsreset`, without an error -/
def resets : Event (Shared T SystemAns) → Bool
  | ⟨(_, .speyctl parameters), .ok _⟩ => parameters.map Argument.bytes = [text "statsreset"]
  | _ => false

/-- How many times the counter was recorded since the counters were last reset. -/
def recorded (counter : Counter) : SystemLog T → Nat
  | [] => 0
  | e :: past =>
      if resets e then 0
      else if records e = some counter then recorded counter past + 1
      else recorded counter past

/-- What `speyctl stats` prints where nothing fails. -/
def stats (db : Tables) : Except CtlExn Bytes :=
  ((Invocation.mk [⟨text "stats", by decide⟩] fun _ => false).run db).1

def row (counter : Counter) (n : Nat) : Row := (some (.text counter.key), some (.integer n))

/-- The value `n` is stored under the key of the counter, and `speyctl stats` lists it so, once. -/
def Tells (db : Tables) (counter : Counter) (n : Nat) : Prop :=
  ∃ front back : List Row,
    db .statistics = front ++ row counter n :: back ∧
      (∀ r ∈ front ++ back, r.1 ≠ some (.text counter.key)) ∧
      stats db = .ok (pairs "Counter                  Value" (front ++ row counter n :: back))

theorem stats_eq (db : Tables) :
    stats db = .ok (pairs "Counter                  Value" (db .statistics)) := rfl

/-! ## One step -/

/-- What names the row of a counter. -/
def counterName (counter : Counter) : Row := (some (.text counter.key), none)

/-- There is a row for each counter but one, with the number of times it was recorded. -/
def Counts (h : SystemLog T) (c : Contents) : Prop :=
  ∀ counter, c .statistics (counterName counter) =
    if counter = .blacklisted then none else some (row counter (recorded counter h))

variable {db db' : Tables} {c : Contents} {h : SystemLog T}

/-- The `UPDATE` on the contents. -/
def increment (counter : Counter) (c : Contents) : Contents :=
  Function.update c .statistics (Function.update (c .statistics) (counterName counter)
    ((c .statistics (counterName counter)).map fun r => (r.1, Sql.increased r.2)))

theorem models_increment (hm : Models db c) (counter : Counter)
    (hexec : Sql.execute (.increment counter.key) db = some db') :
    Models db' (increment counter c) := by
  cases hexec
  apply hm.update
  have hrows := (hm .statistics).modify (counterName counter)
    (f := fun r => (r.1, Sql.increased r.2)) fun r => rfl
  have hname : ∀ r : Row,
      name .statistics r = counterName counter ↔ r.1 = some (.text counter.key) := by
    intro r
    rw [name_keyed rfl, counterName]
    simp
  simpa only [Table.modify, hname] using hrows

theorem counterName_injective {a b : Counter} (h : counterName a = counterName b) : a = b := by
  rw [counterName, counterName, Prod.mk.injEq, Option.some.injEq, Value.text.injEq] at h
  exact Counter.key_injective h.1

theorem recorded_other {e : Event (Shared T SystemAns)} (hreset : resets e = false)
    (hrecord : records e = none) (counter : Counter) : recorded counter (e :: h) = recorded counter h := by
  rw [recorded, hreset, hrecord]
  rfl

theorem counts_other {e : Event (Shared T SystemAns)} (hc : Counts h c) (hreset : resets e = false)
    (hrecord : records e = none) : Counts (e :: h) c := by
  intro counter
  rw [hc counter, recorded_other hreset hrecord]

/-- An event is counted. -/
theorem counts_record (hc : Counts h c) (t : T) (counter : Counter) :
    Counts (⟨(t, .session (.count counter)), true⟩ :: h) (increment counter c) := by
  intro other
  have hrecorded : recorded other (⟨(t, .session (.count counter)), true⟩ :: h) =
      if counter = other then recorded other h + 1 else recorded other h := by
    rw [recorded]
    simp [resets, records]
  rw [increment, Function.update_self, hrecorded]
  by_cases he : counter = other
  · subst he
    rw [Function.update_self, hc counter, if_pos rfl]
    split_ifs
    · rfl
    · rfl
  · have hne : counterName other ≠ counterName counter := fun h => he (counterName_injective h).symm
    rw [Function.update_of_ne hne, hc other, if_neg he]

theorem spells_not_statistics {parameters : List Argument} {table : TableName} {r : Row}
    (h : Spells parameters table r) : table ≠ .statistics := by
  cases h <;> decide

/-- The edits of a command, on the statistics. -/
theorem edit_statistics {parameters : List Argument} {e : Edit} (he : Names parameters e) :
    (e = .zero ∧ parameters.map Argument.bytes = [text "statsreset"]) ∨
      (e.on c .statistics = c .statistics ∧
        parameters.map Argument.bytes ≠ [text "statsreset"]) := by
  have hcommand₀ : ∀ value, getparameter parameters 0 = value → value ≠ text "statsreset" →
      parameters.map Argument.bytes ≠ [text "statsreset"] := fun value hvalue hne hreset =>
    hne (hvalue.symm.trans (getparameter_single hreset).1)
  have hsub₀ : ∀ value, getparameter parameters 1 = value → value ≠ [] →
      parameters.map Argument.bytes ≠ [text "statsreset"] := fun value hvalue hne hreset =>
    hne (hvalue.symm.trans (getparameter_single hreset).2)
  cases he with
  | set hcommand _ => exact .inr ⟨rfl, hcommand₀ _ hcommand (by decide)⟩
  | unset hcommand _ => exact .inr ⟨rfl, hcommand₀ _ hcommand (by decide)⟩
  | add hspells hsub =>
    exact .inr ⟨Function.update_of_ne (spells_not_statistics hspells).symm _ _,
      hsub₀ _ hsub (by decide)⟩
  | sub hspells hsub =>
    exact .inr ⟨Function.update_of_ne (spells_not_statistics hspells).symm _ _,
      hsub₀ _ hsub (by decide)⟩
  | statsreset hparameters => exact .inl ⟨rfl, hparameters⟩
  | listing hcommand hsub => exact .inr ⟨rfl, hsub₀ _ hsub (by decide)⟩
  | other hcommand =>
    refine .inr ⟨rfl, fun hreset => ?_⟩
    rw [(getparameter_single hreset).1] at hcommand
    exact absurd hcommand (by decide)

/-! ## Runs -/

theorem speyctl_keeps {parameters : List Argument} {faults : Nat → Bool} {x : Except CtlExn Bytes}
    (hm : Models db c) (hc : Counts h c) (t : T)
    (hrun : (Invocation.mk parameters faults).run db = (x, db')) :
    ∃ c', Models db' c' ∧ Counts (⟨(t, .speyctl parameters), x⟩ :: h) c' := by
  obtain ⟨herror, hok⟩ := run_edits hm ⟨parameters, faults⟩
  rw [hrun] at herror hok
  cases x with
  | error e =>
    obtain rfl := herror e rfl
    exact ⟨c, hm, counts_other hc rfl rfl⟩
  | ok output =>
    obtain ⟨e, hnames, -, hm'⟩ := hok output rfl
    refine ⟨_, hm', fun counter => ?_⟩
    have hresets : resets (⟨(t, .speyctl parameters), .ok output⟩ : Event (Shared T SystemAns)) =
        decide (parameters.map Argument.bytes = [text "statsreset"]) := rfl
    rcases edit_statistics (c := c) hnames with ⟨rfl, hreset⟩ | ⟨hsame, hreset⟩
    · rw [recorded, hresets, decide_eq_true hreset, if_pos rfl, Edit.on, Function.update_self,
        hc counter]
      split_ifs
      · rfl
      · rfl
    · rw [hsame, recorded_other (hresets.trans (decide_eq_false hreset)) rfl, hc counter]

theorem step_keeps {e : SystemCall} {x : SystemAns e} (hm : Models db c) (hc : Counts h c) (t : T)
    (hserves : Serves e db x db') : ∃ c', Models db' c' ∧ Counts (⟨(t, e), x⟩ :: h) c' := by
  cases e with
  | speyctl parameters =>
    obtain ⟨faults, hrun⟩ := hserves
    exact speyctl_keeps hm hc t hrun
  | session call =>
    cases call with
    | count counter =>
      rcases hserves with ⟨rfl, rfl⟩ | ⟨rfl, hexec⟩
      · exact ⟨c, hm, counts_other hc rfl rfl⟩
      · exact ⟨_, models_increment hm counter hexec, counts_record hc t counter⟩
    | _ =>
      obtain rfl := hserves
      exact ⟨c, hm, counts_other hc rfl rfl⟩

theorem counts_init : ∃ c, Models Tables.init c ∧ Counts ([] : SystemLog T) c := by
  refine ⟨_, fun table => Table.represents_of_nodup (init_nodup table), fun counter => ?_⟩
  cases counter <;> rfl

/-- A row of the contents is in the table, once. -/
theorem tells_of_counts (hm : Models db c) (hc : Counts h c) (counter : Counter) :
    Tells db counter (recorded counter h) ↔ counter ≠ .blacklisted := by
  have hname : ∀ n, name .statistics (row counter n) = counterName counter := fun n => rfl
  constructor
  · rintro ⟨front, back, hrows, -, -⟩ rfl
    have hmem : row .blacklisted (recorded .blacklisted h) ∈ db .statistics := by
      rw [hrows]
      exact List.mem_append_right _ List.mem_cons_self
    have hsome := (hm.mem_iff _ _).mp hmem
    rw [hname, hc .blacklisted, if_pos rfl] at hsome
    cases hsome
  · intro hcounter
    have hmem : row counter (recorded counter h) ∈ db .statistics := by
      rw [hm.mem_iff, hname, hc counter, if_neg hcounter]
    obtain ⟨front, back, hrows⟩ := List.append_of_mem hmem
    refine ⟨front, back, hrows, fun r hr hkey => ?_, by rw [stats_eq, hrows]⟩
    have hnodup := (hm .statistics).nodup
    rw [hrows, List.map_append, List.map_cons, List.nodup_middle, List.nodup_cons, ← List.map_append]
      at hnodup
    refine hnodup.1 (List.mem_map.mpr ⟨r, hr, ?_⟩)
    rw [hname, name_keyed rfl, hkey]
    rfl

variable [DecidableEq T] {threads : T → Thread} {left : T → Program SystemCall SystemAns Unit}

/-- The threads and operators have run from the database that init.sql leaves. -/
abbrev System (threads : T → Thread) :
    (T → Program SystemCall SystemAns Unit) → Tables → SystemLog T → Prop :=
  Pool (fun _ => Program.machine) Serves (fun t => (threads t).program) Tables.init

theorem system_keeps (hp : System threads left db h) : ∃ c, Models db c ∧ Counts h c := by
  induction hp with
  | start => exact counts_init
  | @step threads w w' h t e next x hp he hx ih =>
    obtain ⟨c, hm, hc⟩ := ih
    exact step_keeps hm hc t hx

/-- In every run, the value of a counter is the number of times it was recorded since the counters
were last reset, except for `blacklisted`. -/
theorem statistics_iff (hp : System threads left db h) (counter : Counter) :
    Tells db counter (recorded counter h) ↔ counter ≠ .blacklisted := by
  obtain ⟨c, hm, hc⟩ := system_keeps hp
  exact tells_of_counts hm hc counter

/-! ## One session -/

/-- What the thread of a session does against a world. -/
@[irreducible] def threadLog (w : World) (ctx : Context) (rounds : Nat) : Log :=
  ((trampoline ctx rounds {}).run World.answer w []).2.2

def ofSession (e : Event Ans) : Event SystemAns := ⟨.session e.1, e.2⟩

/-- The tables after an event of a session. -/
def countEvent (e : Event SystemAns) (db : Tables) : Tables :=
  match e with
  | ⟨.session (.count counter), true⟩ => (Sql.execute (.increment counter.key) db).getD db
  | _ => db

theorem countEvent_serves (e : Event Ans) (db : Tables) :
    Serves (ofSession e).1 db (ofSession e).2 (countEvent (ofSession e) db) := by
  obtain ⟨call, x⟩ := e
  cases call with
  | count counter =>
    cases x with
    | false => exact .inl ⟨rfl, rfl⟩
    | true => exact .inr ⟨rfl, rfl⟩
  | _ => rfl

/-- The log of a single session, as one of the system. -/
def alone (h : Log) : SystemLog Unit := (h.map ofSession).map fun e => ⟨((), e.1), e.2⟩

theorem threadLog_system (w : World) (ctx : Context) (rounds : Nat) :
    ∃ left db, System (fun _ : Unit => .session ctx rounds) left db (alone (threadLog w ctx rounds)) := by
  have hreach : (Thread.session ctx rounds).program.Reaches [] ()
      ((threadLog w ctx rounds).map ofSession) := by
    unfold threadLog
    exact Program.Reaches.embed SystemCall.session fromSystem toSystem (fun _ _ => rfl) (fun _ => ())
      (Program.reaches_run World.answer (trampoline ctx rounds {}) w [])
  have hserves : ∀ e ∈ (threadLog w ctx rounds).map ofSession, ∀ db,
      Serves e.1 db e.2 (countEvent e db) := by
    intro e he db
    obtain ⟨e', -, rfl⟩ := List.mem_map.mp he
    exact countEvent_serves e' db
  have hstart : System (fun _ : Unit => .session ctx rounds)
      (fun _ => (Thread.session ctx rounds).program) Tables.init [] := .start
  obtain ⟨later, left, hlater, hpool⟩ := hstart.alone (t := ()) countEvent hreach hserves
  rw [List.append_nil] at hlater hpool
  rw [← hlater] at hpool
  exact ⟨left, _, hpool⟩

/-- A client whose mail `greylist` rejects as blacklisted. -/
def blacklistedClient : World :=
  .ofLines .BlackListed ["HELO a.b", "MAIL FROM:<x@y.z>", "RCPT TO:<u@v.w>", "QUIT"]
    ["220 in", "250 ok", "250 ok", "250 ok"]

/-- The session records that it was blacklisted, but there is no such value. -/
theorem blacklisted_lost :
    (∃ left db h, System (fun _ : Unit => .session (.sample 0 .NoAuth) 9) left db h ∧
      recorded .blacklisted h = 1 ∧ ¬ Tells db .blacklisted 1) ∧
      ¬ ∀ (threads : Unit → Thread) (left : Unit → Program SystemCall SystemAns Unit) (db : Tables)
          (h : SystemLog Unit), System threads left db h →
        ∀ counter, Tells db counter (recorded counter h) := by
  obtain ⟨left, db, hsystem⟩ := threadLog_system blacklistedClient (.sample 0 .NoAuth) 9
  have hrecorded : recorded .blacklisted (alone (threadLog blacklistedClient (.sample 0 .NoAuth) 9)) = 1 := by
    decide +kernel
  obtain ⟨c, hm, hc⟩ := system_keeps hsystem
  have hlost : ¬ Tells db .blacklisted 1 := fun htells =>
    (tells_of_counts hm hc .blacklisted).mp (hrecorded.symm ▸ htells) rfl
  refine ⟨⟨left, db, _, hsystem, hrecorded, hlost⟩, fun hall => hlost ?_⟩
  rw [← hrecorded]
  exact hall _ left db _ hsystem .blacklisted

/-- The timeouts of that session are counted. -/
theorem blacklistedClient_counted : ∃ left db h,
    System (fun _ : Unit => .session (.sample 0 .NoAuth) 9) left db h ∧
      (Tells db .timeout (recorded .timeout h) ↔ Counter.timeout ≠ .blacklisted) := by
  obtain ⟨left, db, hsystem⟩ := threadLog_system blacklistedClient (.sample 0 .NoAuth) 9
  exact ⟨left, db, _, hsystem, statistics_iff hsystem .timeout⟩

end Statistics

end Spey
