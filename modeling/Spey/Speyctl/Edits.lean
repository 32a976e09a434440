import Spey.Speyctl
import Spey.Table

/-!
# What a speyctl command changes

In each table a row has a name: its key where there is one, and else the whole
row. The database is a partial map from the names to the rows of each table, and what a
command does to it is one `Edit`. The statements of the command's transaction make
up the edit, and the rules for transactions see to the rest: a command that
throws has changed nothing.
-/

namespace Spey.Speyctl

open Interaction Transaction

/-- The tables in which the first column names the row. -/
def keyed : TableName → Bool
  | .settings | .statistics | .users => true
  | .trustedhosts | .validrecipients | .whitelist | .blacklist => false

/-- The name of a row. -/
def name (table : TableName) (row : Row) : Row := if keyed table then (row.1, none) else row

theorem name_keyed {table : TableName} (ht : keyed table = true) (row : Row) :
    name table row = (row.1, none) :=
  if_pos ht

theorem name_whole {table : TableName} (ht : keyed table = false) (row : Row) :
    name table row = row := by
  rw [name, ht]
  rfl

abbrev Contents := TableName → Row → Option Row

/-- The tables hold these rows under their names, and no two rows of a table have one name. -/
def Models (db : Tables) (c : Contents) : Prop :=
  ∀ table, Table.Represents (name table) (db table) (c table)

inductive Edit where
  | keep
  | put (table : TableName) (row : Row)
  | drop (table : TableName) (n : Row)
  /-- the counters are set back to zero -/
  | zero

def Edit.on : Edit → Contents → Contents
  | .keep, c => c
  | .put table row, c =>
      Function.update c table (Function.update (c table) (name table row) (some row))
  | .drop table n, c => Function.update c table (Function.update (c table) n none)
  | .zero, c =>
      Function.update c .statistics fun n =>
        (c .statistics n).map fun row => (row.1, some (.integer 0))

/-- A user that is added was not there, and one that is taken away was. -/
def Edit.Allowed : Edit → Contents → Prop
  | .put .users row, c => c .users (name .users row) = none
  | .drop .users n, c => c .users n ≠ none
  | _, _ => True

theorem allowed_put {table : TableName} (ht : table ≠ .users) (row : Row) (c : Contents) :
    (Edit.put table row).Allowed c := by
  cases table <;> first | exact absurd rfl ht | exact trivial

theorem allowed_drop {table : TableName} (ht : table ≠ .users) (n : Row) (c : Contents) :
    (Edit.drop table n).Allowed c := by
  cases table <;> first | exact absurd rfl ht | exact trivial

/-! ## Statements -/

section
variable {db db' : Tables} {c : Contents} {table : TableName} {left right : Value}

theorem Models.update {rows : List Row} {m : Row → Option Row} (h : Models db c)
    (hrows : Table.Represents (name table) rows m) :
    Models (Function.update db table rows) (Function.update c table m) := by
  intro t
  by_cases ht : t = table
  · subst ht
    rw [Function.update_self, Function.update_self]
    exact hrows
  · rw [Function.update_of_ne ht, Function.update_of_ne ht]
    exact h t

theorem Models.delete (h : Models db c) (ht : keyed table = false)
    (hexec : Spey.Sql.execute (.delete table left right) db = some db') :
    Models db' ((Edit.drop table (some left, some right)).on c) := by
  cases hexec
  apply h.update
  have hrows := (h table).erase (some left, some right)
  simpa only [name_whole ht] using hrows

theorem Models.deleteKey (h : Models db c) (ht : keyed table = true)
    (hexec : Spey.Sql.execute (.deleteKey table left) db = some db') :
    Models db' ((Edit.drop table (some left, none)).on c) := by
  cases hexec
  apply h.update
  have hrows := (h table).erase (some left, none)
  have hname : ∀ row : Row, name table row ≠ (some left, none) ↔ row.1 ≠ some left := by
    intro row
    rw [name_keyed ht]
    simp
  simpa only [hname] using hrows

theorem Models.insert (h : Models db c) (hfree : c table (name table (some left, some right)) = none)
    (hexec : Spey.Sql.execute (.insert table left right) db = some db') :
    Models db' ((Edit.put table (some left, some right)).on c) := by
  rw [Spey.Sql.execute] at hexec
  split_ifs at hexec
  cases hexec
  exact h.update ((h table).insert hfree)

theorem Models.statsreset (h : Models db c)
    (hexec : Spey.Sql.execute .statsreset db = some db') : Models db' (Edit.zero.on c) := by
  cases hexec
  apply h.update
  exact (h .statistics).map fun row => rfl

/-- A row under a name that was made free. -/
theorem Models.replace {n : Row} (h : Models db ((Edit.drop table n).on c))
    (hn : name table (some left, some right) = n)
    (hexec : Spey.Sql.execute (.insert table left right) db = some db') :
    Models db' ((Edit.put table (some left, some right)).on c) := by
  subst hn
  have hfree : (Edit.drop table (name table (some left, some right))).on c table
      (name table (some left, some right)) = none := by
    simp only [Edit.on, Function.update_self]
  have hput := h.insert hfree hexec
  simpa only [Edit.on, Function.update_self, Function.update_idem] using hput

end

/-! ## Commands -/

/-- The row of a spec, with `add` or without. -/
def rowEdit (command : Bytes) (table : TableName) (row : Row) : Edit :=
  if command = text "add" then .put table row else .drop table (name table row)

section
variable {db : Tables} {c : Contents}

/-- `P` holds of the tables that the command leaves, unless it throws and leaves them as they were. -/
abbrev Leaves {α : Type} (cmd : Ctl α) (P : Tables → Prop) (db : Tables) : Prop :=
  Atomic Spey.Sql.meaning cmd (fun _ db' => P db') db

theorem exec_within (s : Spey.Sql.Statement) (db : Tables) :
    Within Spey.Sql.meaning (Sql.exec s)
      (fun _ l db' => l = ⟨false⟩ ∧ Spey.Sql.execute s db = some db') ⟨false⟩ db :=
  Within.exec CtlExn.sql s

theorem query_within (q : Spey.Sql.Query) (db : Tables) :
    Within Spey.Sql.meaning (Sql.query q)
      (fun rows l db' => l = ⟨false⟩ ∧ db' = db ∧ rows = Spey.Sql.select q db) ⟨false⟩ db :=
  Within.query CtlExn.sql q

theorem exec_leaves (s : Spey.Sql.Statement) (db : Tables) :
    Leaves (Sql.exec s) (fun db' => Spey.Sql.execute s db = some db') db :=
  Atomic.exec CtlExn.sql s

/-- The rows of a query are only printed. -/
theorem query_leaves (q : Spey.Sql.Query) (print : q.Rows → Bytes) :
    Leaves (do
      let rows ← Sql.query q
      pure (print rows)) (fun db' => db' = db) db :=
  Atomic.bind (Atomic.query CtlExn.sql q) fun _ _ => Atomic.pure rfl

theorem editRow_leaves (h : Models db c) {table : TableName} (ht : keyed table = false)
    (command : Bytes) (left right : Value) :
    Leaves (editRow table command left right)
      (fun db' => Models db' ((rowEdit command table (some left, some right)).on c)) db := by
  apply Atomic.locked
  apply (exec_within (.delete table left right) db).bind
  rintro _ _ db₁ ⟨rfl, hdelete⟩
  have h₁ := h.delete ht hdelete
  by_cases hadd : command = text "add"
  · rw [if_pos hadd, rowEdit, if_pos hadd]
    apply (exec_within (.insert table left right) db₁).bind
    rintro _ _ db₂ ⟨rfl, hinsert⟩
    exact Within.commit (h₁.replace (name_whole ht _) hinsert)
  · rw [if_neg hadd, rowEdit, if_neg hadd, name_whole ht]
    exact Within.commit h₁

theorem cmd_set_leaves (h : Models db c) (key value : Bytes) :
    Leaves (cmd_set key value) (fun db' => Models db'
      ((if value ≠ [] then Edit.put .settings (some (.text (cstr key)), some (.text (cstr value)))
        else Edit.drop .settings (some (.text (cstr key)), none)).on c)) db := by
  apply Atomic.locked
  apply (exec_within (.deleteKey .settings (.text (cstr key))) db).bind
  rintro _ _ db₁ ⟨rfl, hdelete⟩
  have h₁ := h.deleteKey rfl hdelete
  by_cases hvalue : value ≠ []
  · rw [if_pos hvalue, if_pos hvalue]
    apply (exec_within (.insert .settings (.text (cstr key)) (.text (cstr value))) db₁).bind
    rintro _ _ db₂ ⟨rfl, hinsert⟩
    exact Within.commit (h₁.replace (name_keyed rfl _) hinsert)
  · rw [if_neg hvalue, if_neg hvalue]
    exact Within.commit h₁

/-- The name is free exactly if no row is counted under it. -/
theorem count_keyed (h : Models db c) {table : TableName} (ht : keyed table = true) (left : Value) :
    getint ((db table).countP (fun row => row.1 = some left) : Nat) = 0 ↔
      c table (some left, none) = none := by
  have hselect := h table (some left, none)
  have hname : ∀ row : Row, name table row = (some left, none) ↔ row.1 = some left := by
    intro row
    rw [name_keyed ht]
    simp
  simp only [Table.select, hname] at hselect
  rw [List.countP_eq_length_filter, hselect]
  cases c table (some left, none) with
  | none => exact iff_of_true (getint_eq (by decide) (by decide)) rfl
  | some row =>
    have hone : getint ((some row).toList.length : Nat) = 1 := getint_eq (n := 1) (by decide) (by decide)
    exact iff_of_false (by rw [hone]; decide) (Option.some_ne_none row)

theorem editUser_leaves (h : Models db c) (command username password : Bytes) :
    let e := rowEdit command .users (some (.text (cstr username)), some (.text (cstr password)))
    Leaves (SQLCommitLock (editUser command username password))
      (fun db' => e.Allowed c ∧ Models db' (e.on c)) db := by
  apply Atomic.locked
  apply (query_within (.count .users (.text (cstr username))) db).bind
  rintro count _ _ ⟨rfl, rfl, rfl⟩
  have hkeyed : keyed .users = true := rfl
  have hfree := count_keyed h hkeyed (.text (cstr username))
  by_cases hadd : command = text "add"
  · rw [if_pos hadd, rowEdit, if_pos hadd]
    split_ifs with hpassword hcount
    · exact Within.raise _ _
    · exact Within.raise _ _
    · have hnone := hfree.mp (not_not.mp hcount)
      apply (exec_within (.insert .users (.text (cstr username)) (.text (cstr password))) _).bind
      rintro _ _ db₁ ⟨rfl, hinsert⟩
      exact Within.commit ⟨hnone, h.insert hnone hinsert⟩
  · rw [if_neg hadd, rowEdit, if_neg hadd]
    split_ifs with hpassword hcount
    · exact Within.raise _ _
    · exact Within.raise _ _
    · have hsome := mt hfree.mpr hcount
      apply (exec_within (.deleteKey .users (.text (cstr username))) _).bind
      rintro _ _ db₁ ⟨rfl, hdelete⟩
      exact Within.commit ⟨hsome, h.deleteKey rfl hdelete⟩

end

/-! ## The edit that the parameters name -/

/-- The row that the parameters of `add` or `sub` spell. -/
inductive Spells (parameters : List Argument) : TableName → Row → Prop where
  | trust (left right : UInt32) (hcommand : getparameter parameters 0 = text "trust")
      (hspec : trustSpec (getparameter parameters 2) = .ok (left, right)) :
      Spells parameters .trustedhosts (some (.integer left.toNat), some (.integer right.toNat))
  | recipient (left right : Bytes) (hcommand : getparameter parameters 0 = text "recipient")
      (hspec : getparameter parameters 2 = left ++ byte '@' :: right) (hleft : byte '@' ∉ left)
      (hright : byte '@' ∉ right) :
      Spells parameters .validrecipients (some (.text left), some (.text right))
  | whitelist (sender recipient : Bytes) (hcommand : getparameter parameters 0 = text "whitelist")
      (hspec : getparameter parameters 2 = sender ++ byte ':' :: recipient)
      (hsender : byte ':' ∉ sender) (hrecipient : byte ':' ∉ recipient) :
      Spells parameters .whitelist (some (.text (strip sender)), some (.text (strip recipient)))
  | blacklist (sender recipient : Bytes) (hcommand : getparameter parameters 0 = text "blacklist")
      (hspec : getparameter parameters 2 = sender ++ byte ':' :: recipient)
      (hsender : byte ':' ∉ sender) (hrecipient : byte ':' ∉ recipient) :
      Spells parameters .blacklist (some (.text (strip sender)), some (.text (strip recipient)))
  | user (hcommand : getparameter parameters 0 = text "user") :
      Spells parameters .users
        (some (.text (getparameter parameters 2)), some (.text (getparameter parameters 3)))

inductive Names (parameters : List Argument) : Edit → Prop where
  | set (hcommand : getparameter parameters 0 = text "set") (hvalue : getparameter parameters 2 ≠ []) :
      Names parameters (.put .settings
        (some (.text (getparameter parameters 1)), some (.text (getparameter parameters 2))))
  | unset (hcommand : getparameter parameters 0 = text "set")
      (hvalue : getparameter parameters 2 = []) :
      Names parameters (.drop .settings (some (.text (getparameter parameters 1)), none))
  | add {table : TableName} {row : Row} (hspells : Spells parameters table row)
      (hsub : getparameter parameters 1 = text "add") : Names parameters (.put table row)
  | sub {table : TableName} {row : Row} (hspells : Spells parameters table row)
      (hsub : getparameter parameters 1 = text "sub") :
      Names parameters (.drop table (name table row))
  | statsreset (hparameters : parameters.map Argument.bytes = [text "statsreset"]) :
      Names parameters .zero
  | listing (hcommand : getparameter parameters 0 ∈
        ["trust", "recipient", "whitelist", "blacklist", "user"].map text)
      (hsub : getparameter parameters 1 = text "list") : Names parameters .keep
  /-- The commands that look at these tables only, or not at all. -/
  | other (hcommand : getparameter parameters 0 ∈
        ["help", "init", "list", "stats", "showdb", "purge"].map text) : Names parameters .keep

/-- What the command leaves is its edit of what it found. -/
abbrev Edits {α : Type} (parameters : List Argument) (cmd : Ctl α) (c : Contents) (db : Tables) : Prop :=
  Leaves cmd (fun db' => ∃ e, Names parameters e ∧ e.Allowed c ∧ Models db' (e.on c)) db

section
variable {db : Tables} {c : Contents} {parameters : List Argument}

theorem getparameter_nulFree (i : Nat) : 0 ∉ getparameter parameters i := by
  rw [getparameter]
  cases parameters[i]? with
  | none => exact List.not_mem_nil
  | some a => exact a.nulFree

theorem cstr_getparameter (i : Nat) :
    cstr (getparameter parameters i) = getparameter parameters i :=
  cstr_eq (getparameter_nulFree i)

theorem getparameter_single {command : Bytes}
    (h : parameters.map Argument.bytes = [command]) :
    getparameter parameters 0 = command ∧ getparameter parameters 1 = [] := by
  obtain ⟨a, rfl, rfl⟩ := List.map_eq_singleton_iff.mp h
  exact ⟨rfl, rfl⟩

theorem splitSpec_some {separator : Byte} {value left right : Bytes}
    (h : splitSpec separator value = some (left, right)) :
    value = left ++ separator :: right ∧ separator ∉ left ∧ separator ∉ right := by
  rw [splitSpec] at h
  cases hrest : value.dropWhile (· ≠ separator) with
  | nil =>
    rw [hrest] at h
    cases h
  | cons c rest =>
    rw [hrest] at h
    dsimp only at h
    split_ifs at h with hright
    cases h
    have hc : c = separator := by
      have hhead := List.head?_dropWhile_not (fun x => decide (x ≠ separator)) value
      rw [hrest] at hhead
      simpa using hhead
    refine ⟨?_, fun hmem => ?_, hright⟩
    · subst hc
      rw [← hrest, List.takeWhile_append_dropWhile]
    · simpa using List.mem_takeWhile_imp hmem

theorem Spells.names {table : TableName} {row : Row} (hspells : Spells parameters table row)
    (hsub : getparameter parameters 1 = text "add" ∨ getparameter parameters 1 = text "sub") :
    Names parameters (rowEdit (getparameter parameters 1) table row) := by
  rw [rowEdit]
  split_ifs with hadd
  · exact .add hspells hadd
  · exact .sub hspells (hsub.resolve_left hadd)

theorem allowed_rowEdit {table : TableName} (ht : keyed table = false) (command : Bytes) (row : Row) :
    (rowEdit command table row).Allowed c := by
  have hne : table ≠ .users := fun hu => by
    rw [hu] at ht
    cases ht
  rw [rowEdit]
  split_ifs
  · exact allowed_put hne row c
  · exact allowed_drop hne _ c

theorem edits_editRow (h : Models db c) {table : TableName} (ht : keyed table = false)
    {left right : Value} (hspells : Spells parameters table (some left, some right))
    (hsub : getparameter parameters 1 = text "add" ∨ getparameter parameters 1 = text "sub") :
    Edits parameters (do
      editRow table (getparameter parameters 1) left right
      pure ([] : Bytes)) c db := by
  apply Atomic.result
  apply (editRow_leaves h ht _ left right).mono
  intro _ db' h'
  exact ⟨_, hspells.names hsub, allowed_rowEdit ht _ _, h'⟩

/-- The rows are printed, and nothing is changed. -/
theorem listing_edits (h : Models db c) (he : Names parameters .keep) (q : Spey.Sql.Query)
    (print : q.Rows → Bytes) :
    Edits parameters (do
      let rows ← Sql.query q
      pure (print rows)) c db := by
  apply (query_leaves q print).mono
  rintro _ _ rfl
  exact ⟨.keep, he, trivial, h⟩

/-- One of the three subcommands. -/
abbrev Subcommand (sub : Bytes) : Prop := sub = text "list" ∨ sub = text "add" ∨ sub = text "sub"

theorem cmd_trust_edits (h : Models db c) (hcommand : getparameter parameters 0 = text "trust")
    (hsub : Subcommand (getparameter parameters 1)) :
    Edits parameters (cmd_trust (getparameter parameters 1) (getparameter parameters 2)) c db := by
  rw [cmd_trust]
  split_ifs with hlist
  · exact listing_edits h (.listing (by simp [hcommand]) hlist) _ _
  · cases hspec : trustSpec (getparameter parameters 2) with
    | error e => exact Atomic.raise e _
    | ok address =>
      obtain ⟨left, right⟩ := address
      exact edits_editRow h rfl (.trust left right hcommand hspec) (hsub.resolve_left hlist)

/-- The two parts of a spec, as C strings. -/
theorem split_parameter {separator : Byte} {left right : Bytes} {i : Nat}
    (h : splitSpec separator (getparameter parameters i) = some (left, right)) :
    getparameter parameters i = left ++ separator :: right ∧ separator ∉ left ∧
      separator ∉ right ∧ 0 ∉ left ∧ 0 ∉ right := by
  obtain ⟨hspec, hleft, hright⟩ := splitSpec_some h
  have hnul : 0 ∉ getparameter parameters i := getparameter_nulFree i
  rw [hspec, List.mem_append, List.mem_cons, not_or, not_or] at hnul
  exact ⟨hspec, hleft, hright, hnul.1, hnul.2.2⟩

theorem cmd_recipient_edits (h : Models db c)
    (hcommand : getparameter parameters 0 = text "recipient")
    (hsub : Subcommand (getparameter parameters 1)) :
    Edits parameters (cmd_recipient (getparameter parameters 1) (getparameter parameters 2)) c db := by
  rw [cmd_recipient]
  split_ifs with hlist
  · exact listing_edits h (.listing (by simp [hcommand]) hlist) _ _
  · cases hsplit : splitSpec (byte '@') (getparameter parameters 2) with
    | none => exact Atomic.raise _ _
    | some parts =>
      obtain ⟨left, right⟩ := parts
      obtain ⟨hspec, hleft, hright, hleft₀, hright₀⟩ := split_parameter hsplit
      apply edits_editRow h rfl _ (hsub.resolve_left hlist)
      rw [cstr_eq hleft₀, cstr_eq hright₀]
      exact .recipient left right hcommand hspec hleft hright

theorem strip_sublist (s : Bytes) : (strip s).Sublist s := by
  let blank (c : Byte) : Bool := c = SP ∨ c = 9
  have hfront : (if s.all blank then s else s.dropWhile blank).Sublist s := by
    split_ifs
    · exact List.Sublist.refl s
    · exact List.dropWhile_sublist _
  have hback : ∀ t : Bytes, (if t.all blank then t else (t.reverse.dropWhile blank).reverse).Sublist t := by
    intro t
    split_ifs
    · exact List.Sublist.refl t
    · have hrest := (List.dropWhile_sublist blank (l := t.reverse)).reverse
      rwa [List.reverse_reverse] at hrest
  exact (hback _).trans hfront

theorem cstr_strip {s : Bytes} (h : 0 ∉ s) : cstr (strip s) = strip s :=
  cstr_eq fun hmem => h ((strip_sublist s).subset hmem)

theorem cmd_Xlist_edits (h : Models db c) {table : TableName} (ht : keyed table = false)
    (hcommand : getparameter parameters 0 ∈
      ["trust", "recipient", "whitelist", "blacklist", "user"].map text)
    (hspells : ∀ sender recipient,
      getparameter parameters 2 = sender ++ byte ':' :: recipient → byte ':' ∉ sender →
        byte ':' ∉ recipient →
          Spells parameters table (some (.text (strip sender)), some (.text (strip recipient))))
    (hsub : Subcommand (getparameter parameters 1)) :
    Edits parameters (cmd_Xlist (getparameter parameters 0) table (getparameter parameters 1)
      (getparameter parameters 2)) c db := by
  rw [cmd_Xlist]
  split_ifs with hlist
  · exact listing_edits h (.listing hcommand hlist) _ _
  · cases hsplit : splitSpec (byte ':') (getparameter parameters 2) with
    | none => exact Atomic.raise _ _
    | some parts =>
      obtain ⟨sender, recipient⟩ := parts
      obtain ⟨hspec, hsender, hrecipient, hsender₀, hrecipient₀⟩ := split_parameter hsplit
      apply edits_editRow h ht _ (hsub.resolve_left hlist)
      rw [cstr_strip hsender₀, cstr_strip hrecipient₀]
      exact hspells sender recipient hspec hsender hrecipient

theorem cmd_user_edits (h : Models db c) (hcommand : getparameter parameters 0 = text "user")
    (hsub : Subcommand (getparameter parameters 1)) :
    Edits parameters (cmd_user (getparameter parameters 1) (getparameter parameters 2)
      (getparameter parameters 3)) c db := by
  rw [cmd_user]
  split_ifs with hlist
  · exact listing_edits h (.listing (by simp [hcommand]) hlist) _ _
  · apply Atomic.result
    apply (editUser_leaves h _ _ _).mono
    intro _ db' h'
    rw [cstr_getparameter, cstr_getparameter] at h'
    exact ⟨_, (Spells.user hcommand).names (hsub.resolve_left hlist), h'⟩

theorem cmd_set_edits (h : Models db c) (hcommand : getparameter parameters 0 = text "set") :
    Edits parameters (silent (cmd_set (getparameter parameters 1) (getparameter parameters 2))) c db := by
  apply Atomic.result
  apply (cmd_set_leaves h _ _).mono
  intro _ db' h'
  rw [cstr_getparameter, cstr_getparameter] at h'
  split_ifs at h' with hvalue
  · exact ⟨_, .set hcommand hvalue, trivial, h'⟩
  · exact ⟨_, .unset hcommand (not_not.mp hvalue), trivial, h'⟩

/-- A statement that leaves these tables alone, or cannot be executed. -/
theorem statement_edits (h : Models db c) {s : Spey.Sql.Statement}
    (hs : ∀ db', Spey.Sql.execute s db = some db' → db' = db) (he : Names parameters .keep) :
    Edits parameters (silent (Sql.exec s)) c db := by
  apply Atomic.result
  apply (exec_leaves s db).mono
  intro _ db' hexec
  obtain rfl := hs db' hexec
  exact ⟨.keep, he, trivial, h⟩

/-- What is left of a check for the three subcommands. -/
theorem subcommand_of_not {sub : Bytes}
    (h : ¬ (sub ≠ text "list" ∧ sub ≠ text "add" ∧ sub ≠ text "sub")) : Subcommand sub := by
  by_contra hnone
  rw [not_or, not_or] at hnone
  exact h hnone

theorem specCommand_edits (h : Models db c)
    (hcommand : getparameter parameters 0 = text "trust" ∨
      getparameter parameters 0 = text "recipient" ∨ getparameter parameters 0 = text "whitelist" ∨
      getparameter parameters 0 = text "blacklist") :
    Edits parameters (specCommand (getparameter parameters 0) (getparameter parameters 1)
      (getparameter parameters 2)) c db := by
  rw [specCommand]
  split_ifs with hsyntax htrust hrecipient hwhitelist
  · exact Atomic.raise _ _
  · exact cmd_trust_edits h htrust (subcommand_of_not hsyntax)
  · exact cmd_recipient_edits h hrecipient (subcommand_of_not hsyntax)
  · apply cmd_Xlist_edits h rfl _ _ (subcommand_of_not hsyntax)
    · simp [hwhitelist]
    · exact fun sender recipient => .whitelist sender recipient hwhitelist
  · have hblacklist := ((hcommand.resolve_left htrust).resolve_left hrecipient).resolve_left hwhitelist
    apply cmd_Xlist_edits h rfl _ _ (subcommand_of_not hsyntax)
    · simp [hblacklist]
    · exact fun sender recipient => .blacklist sender recipient hblacklist

/-- A command that takes no parameters. -/
theorem plain_edits {cmd : Ctl Bytes}
    (hcmd : parameters.length = 1 → Edits parameters cmd c db) :
    Edits parameters (plain parameters cmd) c db := by
  rw [plain]
  split_ifs with hlength
  · exact Atomic.raise _ _
  · exact hcmd (not_not.mp hlength)

theorem statsreset_edits (h : Models db c) (hcommand : getparameter parameters 0 = text "statsreset")
    (hlength : parameters.length = 1) : Edits parameters (silent cmd_statsreset) c db := by
  apply Atomic.result
  apply (exec_leaves .statsreset db).mono
  intro _ db' hexec
  refine ⟨.zero, .statsreset ?_, trivial, h.statsreset hexec⟩
  obtain ⟨a, rfl⟩ := List.length_eq_one_iff.mp hlength
  rw [List.map_singleton, ← hcommand]
  rfl

theorem main_speyctl_edits (h : Models db c) (parameters : List Argument) :
    Edits parameters (main_speyctl parameters) c db := by
  rw [main_speyctl]
  have hopen : Leaves (Sql.exec .synchronousOff) (fun db' => True ∧ db' = db) db := by
    apply (exec_leaves .synchronousOff db).mono
    rintro _ _ ⟨⟩
    exact ⟨trivial, rfl⟩
  apply Atomic.bind hopen
  intro _ _
  apply Atomic.ite
  · intro hhelp
    exact Atomic.pure ⟨.keep, .other (by simp [hhelp]), trivial, h⟩
  intro _
  apply Atomic.ite
  · intro hinit
    apply Atomic.ite
    · exact fun _ => Atomic.raise _ _
    · exact fun _ => statement_edits h (by rintro _ ⟨⟩) (.other (by simp [hinit]))
  intro _
  apply Atomic.ite
  · intro hset
    apply Atomic.ite
    · exact fun _ => Atomic.raise _ _
    intro _
    apply Atomic.ite
    · exact fun _ => Atomic.raise _ _
    · exact fun _ => cmd_set_edits h hset
  intro _
  apply Atomic.ite
  · intro hlist
    exact plain_edits fun _ => listing_edits h (.other (by simp [hlist])) _ _
  intro _
  apply Atomic.ite
  · intro hstats
    exact plain_edits fun _ => listing_edits h (.other (by simp [hstats])) _ _
  intro _
  apply Atomic.ite
  · intro hreset
    exact plain_edits fun hlength => statsreset_edits h hreset hlength
  intro _
  apply Atomic.ite
  · intro hshow
    exact plain_edits fun _ => Atomic.pure ⟨.keep, .other (by simp [hshow]), trivial, h⟩
  intro _
  apply Atomic.ite
  · intro hpurge
    exact plain_edits fun _ => statement_edits h (by rintro _ ⟨⟩; rfl) (.other (by simp [hpurge]))
  intro _
  apply Atomic.ite
  · intro hspec
    apply Atomic.ite
    · exact fun _ => Atomic.raise _ _
    · exact fun _ => specCommand_edits h hspec
  intro _
  apply Atomic.ite
  · intro huser
    apply Atomic.ite
    · exact fun _ => Atomic.raise _ _
    intro _
    apply Atomic.ite
    · exact fun _ => Atomic.raise _ _
    · exact fun hsub => cmd_user_edits h huser (subcommand_of_not hsub)
  · exact fun _ => Atomic.raise _ _

end

end Spey.Speyctl
