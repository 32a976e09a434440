import Spey.Speyctl.Edits

/-!
# The speyctl commands are atomic

Any number of speyctl commands are run on the database that init.sql leaves, and
any of their calls to the database may fail. A command that throws leaves every
table as it was. One that succeeds changes the row that its parameters
name and no other, so the tables stay sets, and there is one row for each user and each
setting.
-/

namespace Spey.Speyctl

open Interaction Transaction

/-- A user that is added was not there, and one that is taken away was. -/
def Edit.Applies : Edit → Tables → Prop
  | .put .users row, db => ∀ row' ∈ db .users, row'.1 ≠ row.1
  | .drop .users n, db => ∃ row' ∈ db .users, name .users row' = n
  | _, _ => True

/-- The effect of an edit on the rows. -/
def Edit.Effect : Edit → Tables → Tables → Prop
  | .keep, db, db' => ∀ table row, row ∈ db' table ↔ row ∈ db table
  | .put table row, db, db' => ∀ table' row', row' ∈ db' table' ↔
      (table' = table ∧ row' = row) ∨
        (row' ∈ db table' ∧ ¬ (table' = table ∧ name table row' = name table row))
  | .drop table n, db, db' => ∀ table' row', row' ∈ db' table' ↔
      row' ∈ db table' ∧ ¬ (table' = table ∧ name table row' = n)
  | .zero, db, db' => ∀ table row, table ≠ .statistics → (row ∈ db' table ↔ row ∈ db table)

/-- No two rows are equal, or have one user name or one key. -/
structure Sets (db : Tables) : Prop where
  trustedhosts : (db .trustedhosts).Nodup
  validrecipients : (db .validrecipients).Nodup
  whitelist : (db .whitelist).Nodup
  blacklist : (db .blacklist).Nodup
  users : ((db .users).map fun row => row.1).Nodup
  settings : ((db .settings).map fun row => row.1).Nodup

section
variable {db db' : Tables} {c : Contents}

theorem Models.mem_iff (h : Models db c) (table : TableName) (row : Row) :
    row ∈ db table ↔ c table (name table row) = some row :=
  (h table).mem_iff row

theorem Models.nodup_whole (h : Models db c) {table : TableName} (ht : keyed table = false) :
    (db table).Nodup := by
  have hnames := (h table).nodup
  have hid : name table = id := funext (name_whole ht)
  rwa [hid, List.map_id] at hnames

theorem Models.nodup_keyed (h : Models db c) {table : TableName} (ht : keyed table = true) :
    ((db table).map fun row => row.1).Nodup := by
  have hnames := (h table).nodup
  have hcomp : name table = (fun left => (left, none)) ∘ fun row => row.1 :=
    funext (name_keyed ht)
  rw [hcomp, ← List.map_map] at hnames
  exact List.Pairwise.of_map _ (fun _ _ hne he => hne (he ▸ rfl)) hnames

theorem Models.sets (h : Models db c) : Sets db where
  trustedhosts := h.nodup_whole rfl
  validrecipients := h.nodup_whole rfl
  whitelist := h.nodup_whole rfl
  blacklist := h.nodup_whole rfl
  users := h.nodup_keyed rfl
  settings := h.nodup_keyed rfl

/-- What is found under the name of a row, where one name of one table is changed. -/
theorem update_name (c : Contents) (table table' : TableName) (n row : Row) (r : Option Row) :
    Function.update c table (Function.update (c table) n r) table' (name table' row) =
      if table' = table ∧ name table row = n then r else c table' (name table' row) := by
  by_cases ht : table' = table
  · subst ht
    rw [Function.update_self]
    by_cases hn : name table' row = n
    · rw [hn, Function.update_self, if_pos ⟨rfl, rfl⟩]
    · rw [Function.update_of_ne hn, if_neg fun h => hn h.2]
  · rw [Function.update_of_ne ht, if_neg fun h => ht h.1]

/-- An edit of the contents is what it is said to be on the rows. -/
theorem Edit.effect {e : Edit} (h : Models db c) (h' : Models db' (e.on c)) : e.Effect db db' := by
  cases e with
  | keep =>
    intro table row
    rw [h.mem_iff, h'.mem_iff]
    rfl
  | put table row =>
    intro table' row'
    rw [h.mem_iff, h'.mem_iff, Edit.on, update_name]
    split_ifs with hsame
    · simp [hsame, eq_comm]
    · have hne : ¬ (table' = table ∧ row' = row) := fun hrow => hsame ⟨hrow.1, hrow.2 ▸ rfl⟩
      simp only [hne, hsame, not_false_eq_true, and_true, false_or]
  | drop table n =>
    intro table' row'
    rw [h.mem_iff, h'.mem_iff, Edit.on, update_name]
    split_ifs with hsame
    · simp [hsame]
    · simp only [hsame, not_false_eq_true, and_true]
  | zero =>
    intro table row ht
    rw [h.mem_iff, h'.mem_iff, Edit.on, Function.update_of_ne ht]

theorem Edit.applies {e : Edit} (h : Models db c) (he : e.Allowed c) : e.Applies db := by
  cases e with
  | keep | zero => trivial
  | put table row =>
    cases table <;> try exact trivial
    intro row' hrow hsame
    have hname : name .users row' = name .users row := by
      rw [name_keyed rfl, name_keyed rfl, hsame]
    rw [h.mem_iff, hname] at hrow
    exact Option.some_ne_none row' (hrow.symm.trans he)
  | drop table n =>
    cases table <;> try exact trivial
    obtain ⟨row', hrow⟩ := Option.ne_none_iff_exists'.mp he
    have hname : name .users row' = n := (h .users).key_eq hrow
    exact ⟨row', (h.mem_iff .users row').mpr (hname ▸ hrow), hname⟩

/-- One command. -/
theorem run_edits (h : Models db c) (i : Invocation) :
    (∀ e, (i.run db).1 = .error e → (i.run db).2 = db) ∧
      ∀ s, (i.run db).1 = .ok s →
        ∃ e, Names i.parameters e ∧ e.Allowed c ∧ Models (i.run db).2 (e.on c) := by
  obtain ⟨herror, hok⟩ :=
    main_speyctl_edits h i.parameters ⟨false⟩ (Connection.start db i.faults) rfl rfl
  exact ⟨herror, fun s hs => (hok s hs).2⟩

theorem run_models (h : Models db c) (i : Invocation) : ∃ c', Models (i.run db).2 c' := by
  obtain ⟨herror, hok⟩ := run_edits h i
  cases hresult : (i.run db).1 with
  | error e => exact ⟨c, (herror e hresult).symm ▸ h⟩
  | ok s =>
    obtain ⟨e, -, -, h'⟩ := hok s hresult
    exact ⟨_, h'⟩

/-- What every command keeps holds after any number of them. -/
theorem runs_invariant {P : Tables → Prop} (hstep : ∀ db i, P db → P (Invocation.run i db).2)
    (h : P db) (is : List Invocation) : P (runs db is) := by
  induction is generalizing db with
  | nil => exact h
  | cons i is ih => exact ih (hstep db i h)

theorem runs_models (h : Models db c) (is : List Invocation) : ∃ c', Models (runs db is) c' := by
  refine runs_invariant (P := fun db => ∃ c, Models db c) ?_ ⟨c, h⟩ is
  rintro db i ⟨c, h⟩
  exact run_models h i

end

theorem init_nodup (table : TableName) : ((Tables.init table).map (name table)).Nodup := by
  cases table <;> decide

theorem models_init : ∃ c, Models Tables.init c :=
  ⟨_, fun table => Table.represents_of_nodup (init_nodup table)⟩

/-- Whatever was run before, the tables are sets; the next command leaves them as they are if it
throws, and has the effect of the edit that its parameters name if it does not. A user is added
only where there was none of that name, and taken away only where there was one. -/
theorem speyctl_atomic (is : List Invocation) (i : Invocation) :
    let db := runs Tables.init is
    Sets db ∧ (∀ e, (i.run db).1 = .error e → (i.run db).2 = db) ∧
      ∀ s, (i.run db).1 = .ok s →
        ∃ e, Names i.parameters e ∧ e.Applies db ∧ e.Effect db (i.run db).2 := by
  obtain ⟨c₀, hinit⟩ := models_init
  obtain ⟨c, h⟩ := runs_models hinit is
  obtain ⟨herror, hok⟩ := run_edits h i
  refine ⟨h.sets, herror, fun s hs => ?_⟩
  obtain ⟨e, hnames, hallowed, h'⟩ := hok s hs
  exact ⟨e, hnames, e.applies h hallowed, e.effect h h'⟩

end Spey.Speyctl
