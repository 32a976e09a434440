import Spey.Speyctl.Atomicity

/-!
# What was set last

After any number of commands, any of whose calls to the database may fail, the value of a
setting is the one that a `set` without an error has given it last. The other commands leave
the table, and a `set` that fails leaves it as well.
-/

namespace Spey.Speyctl

/-- `SELECT value FROM settings WHERE key=..`, as `getstring` gives it: empty where there is no row. -/
def value (db : Tables) (key : Bytes) : Bytes :=
  match (db .settings).find? fun row => row.1 = some (.text key) with
  | none => []
  | some row => getstring row.2

/-- The key that a command sets, and the value; the row is removed where the value is empty. A
command that throws sets nothing. -/
def Invocation.assignment (i : Invocation) (db : Tables) : Option (Bytes × Bytes) :=
  if getparameter i.parameters 0 = text "set" ∧ (i.run db).1.isOk then
    some (getparameter i.parameters 1, getparameter i.parameters 2)
  else none

/-- What the commands set, one after the other. -/
def assignments : Tables → List Invocation → List (Bytes × Bytes)
  | _, [] => []
  | db, i :: is => (i.assignment db).toList ++ assignments (i.run db).2 is

/-- The value that a key was given last, or had before. -/
def lastSet (before : Bytes → Bytes) (set : List (Bytes × Bytes)) : Bytes → Bytes :=
  set.foldl (fun values a => Function.update values a.1 a.2) before

/-- `speyctl set` -/
def assigning (key value : Argument) (faults : Nat → Bool) : Invocation where
  parameters := [⟨text "set", by decide⟩, key, value]
  faults

section
variable {db db' : Tables} {c : Contents}

theorem Models.value_eq (h : Models db c) (key : Bytes) :
    value db key = ((c .settings (some (.text key), none)).map fun row => getstring row.2).getD [] := by
  have hselect := h .settings (some (.text key), none)
  have hname : ∀ row : Row, name .settings row = (some (.text key), none) ↔ row.1 = some (.text key) := by
    intro row
    rw [name_keyed rfl]
    simp
  simp only [Table.select, hname] at hselect
  rw [value, ← List.head?_filter, hselect]
  cases c .settings (some (.text key), none) with
  | none => rfl
  | some row => rfl

/-- A change of another table. -/
theorem Models.value_of_eq {c' : Contents} (h : Models db c) (h' : Models db' c')
    (hc : c' .settings = c .settings) : value db' = value db := by
  funext key
  rw [h'.value_eq, h.value_eq, hc]

/-- A change of the row of one key. -/
theorem Models.value_update {c' : Contents} {key : Bytes} {row : Option Row} (h : Models db c) (h' : Models db' c')
    (hc : c' .settings = Function.update (c .settings) (some (.text key), none) row) :
    value db' = Function.update (value db) key ((row.map fun row => getstring row.2).getD []) := by
  funext key'
  rw [h'.value_eq, hc]
  by_cases hkey : key' = key
  · subst hkey
    rw [Function.update_self, Function.update_self]
  · rw [Function.update_of_ne hkey, Function.update_of_ne, h.value_eq]
    simpa using hkey

theorem Spells.ne_settings {parameters : List Argument} {table : TableName} {row : Row}
    (h : Spells parameters table row) : table ≠ .settings ∧ getparameter parameters 0 ≠ text "set" := by
  cases h with
  | trust _ _ hcommand => exact ⟨nofun, by rw [hcommand]; decide⟩
  | recipient _ _ hcommand => exact ⟨nofun, by rw [hcommand]; decide⟩
  | whitelist _ _ hcommand => exact ⟨nofun, by rw [hcommand]; decide⟩
  | blacklist _ _ hcommand => exact ⟨nofun, by rw [hcommand]; decide⟩
  | user hcommand => exact ⟨nofun, by rw [hcommand]; decide⟩

/-- The commands other than `set` leave the settings. -/
theorem Names.leaves_settings {parameters : List Argument} {e : Edit} (h : Names parameters e)
    (hcommand : getparameter parameters 0 ≠ text "set") (c : Contents) : (e.on c) .settings = c .settings := by
  cases h with
  | set hset => exact absurd hset hcommand
  | unset hset => exact absurd hset hcommand
  | add hspells => exact Function.update_of_ne hspells.ne_settings.1.symm _ _
  | sub hspells => exact Function.update_of_ne hspells.ne_settings.1.symm _ _
  | statsreset => exact Function.update_of_ne (show TableName.settings ≠ .statistics by decide) _ _
  | listing => rfl
  | other => rfl

/-- `set` puts the row, or drops it where there is no value. -/
theorem Names.of_set {parameters : List Argument} {e : Edit} (h : Names parameters e)
    (hcommand : getparameter parameters 0 = text "set") :
    let key := getparameter parameters 1
    let value := getparameter parameters 2
    (value ≠ [] ∧ e = .put .settings (some (.text key), some (.text value))) ∨
      (value = [] ∧ e = .drop .settings (some (.text key), none)) := by
  cases h with
  | set _ hvalue => exact .inl ⟨hvalue, rfl⟩
  | unset _ hvalue => exact .inr ⟨hvalue, rfl⟩
  | add hspells => exact absurd hcommand hspells.ne_settings.2
  | sub hspells => exact absurd hcommand hspells.ne_settings.2
  | statsreset hparameters =>
    obtain ⟨a, rfl, ha⟩ := List.map_eq_singleton_iff.mp hparameters
    exact absurd (ha.symm.trans hcommand) (by decide)
  | listing hother => exact absurd (hcommand ▸ hother) (by decide)
  | other hother => exact absurd (hcommand ▸ hother) (by decide)

theorem Edit.on_put (table : TableName) (row : Row) (c : Contents) :
    (Edit.put table row).on c table = Function.update (c table) (name table row) (some row) :=
  Function.update_self _ _ _

theorem Edit.on_drop (table : TableName) (n : Row) (c : Contents) :
    (Edit.drop table n).on c table = Function.update (c table) n none :=
  Function.update_self _ _ _

/-- One command. -/
theorem run_value (h : Models db c) (i : Invocation) :
    value (i.run db).2 = lastSet (value db) (i.assignment db).toList := by
  obtain ⟨herror, hok⟩ := run_edits h i
  cases hresult : (i.run db).1 with
  | error e =>
    rw [herror e hresult, Invocation.assignment, hresult, if_neg (by simp [Except.isOk, Except.toBool])]
    rfl
  | ok s =>
    obtain ⟨e, hnames, -, h'⟩ := hok s hresult
    by_cases hcommand : getparameter i.parameters 0 = text "set"
    · rw [Invocation.assignment, hresult, if_pos ⟨hcommand, rfl⟩]
      rcases hnames.of_set hcommand with ⟨-, rfl⟩ | ⟨hvalue, rfl⟩
      · exact h.value_update h' (Edit.on_put _ _ c)
      · rw [hvalue]
        exact h.value_update h' (Edit.on_drop _ _ c)
    · rw [Invocation.assignment, if_neg fun hset => hcommand hset.1]
      exact h.value_of_eq h' (hnames.leaves_settings hcommand c)

theorem lastSet_append (before : Bytes → Bytes) (set set' : List (Bytes × Bytes)) :
    lastSet before (set ++ set') = lastSet (lastSet before set) set' :=
  List.foldl_append

/-- Any number of commands. -/
theorem runs_value (h : Models db c) (is : List Invocation) :
    value (runs db is) = lastSet (value db) (assignments db is) := by
  induction is generalizing db c with
  | nil => rfl
  | cons i is ih =>
    obtain ⟨c', h'⟩ := run_models h i
    rw [assignments, lastSet_append, ← run_value h]
    exact ih h'

end

end Spey.Speyctl
