import Spey.Speyctl.TrustSpec

/-!
# The list of trusted hosts as input

`trust list` prints a line for each row of `trustedhosts`. The text of such a line is a spec
for `trust add` and `trust sub`, unless it is the line of the row that init.sql
puts there: a host of its own has the size 32, and the commands take sizes up to 31.
-/

namespace Spey.TrustedHosts

open Speyctl

def trustRow (left right : UInt32) : Row := (some (.integer left.toNat), some (.integer right.toNat))

/-- The row of init.sql, 127.0.0.1/32. -/
def localhost : Row := (some (.integer 2130706433), some (.integer 32))

/-- A command `trust`. -/
def trusting (sub line : Argument) (faults : Nat → Bool) : Invocation where
  parameters := [⟨text "trust", by decide⟩, sub, line]
  faults := faults

theorem add_nul : 0 ∉ text "add" := by decide

def add : Argument := ⟨text "add", add_nul⟩

theorem sub_nul : 0 ∉ text "sub" := by decide

def sub : Argument := ⟨text "sub", sub_nul⟩

/-- `trust list`, on a database that does not fail. -/
def trustList : Invocation where
  parameters := [⟨text "trust", by decide⟩, ⟨text "list", by decide⟩]
  faults _ := false

theorem trustLine_nul (row : Row) : 0 ∉ trustLine row := by
  have hdecimal : ∀ n, 0 ∉ signed n := fun n => decimal_nul _
  have hpoint : (0 : Byte) ≠ byte '.' := by decide
  have hslash : (0 : Byte) ≠ byte '/' := by decide
  rw [trustLine]
  simp only [List.mem_append, List.mem_cons, not_or]
  exact ⟨⟨⟨⟨hdecimal _, hpoint, hdecimal _⟩, hpoint, hdecimal _⟩, hpoint, hdecimal _⟩, hslash,
    hdecimal _⟩

/-- The text of the line of a row. -/
def lineOf (row : Row) : Argument := ⟨trustLine row, trustLine_nul row⟩

/-- `trust sub` with the line of a row, on a database that does not fail. -/
def removal (row : Row) : Invocation := trusting sub (lineOf row) fun _ => false

def addition (row : Row) : Invocation := trusting add (lineOf row) fun _ => false

/-- The line that is printed for a row serves to remove the row, and to add it again. -/
structure Removable (db : Tables) (row : Row) : Prop where
  listed : ∃ above below, (trustList.run db).1 = .ok (above ++ (trustLine row ++ LF :: below))
  accepted : ((removal row).run db).1 = .ok []
  removed : ∀ table row', row' ∈ ((removal row).run db).2 table ↔
    row' ∈ db table ∧ ¬ (table = .trustedhosts ∧ row' = row)
  accepted_again : ((addition row).run ((removal row).run db).2).1 = .ok []
  restored : ∀ table row', row' ∈ ((addition row).run ((removal row).run db).2).2 table ↔
    row' ∈ db table

/-! ## The commands on a database that does not fail -/

variable (db : Tables)

theorem trustList_run : (trustList.run db).1 =
    .ok ((db .trustedhosts).map fun row => trustLine row ++ [LF]).flatten := rfl

theorem trusting_sub (line : Argument) {left right : UInt32}
    (h : trustSpec line.bytes = .ok (left, right)) :
    (trusting sub line fun _ => false).run db = (.ok [], Function.update db .trustedhosts
      ((db .trustedhosts).filter fun row => row ≠ trustRow left right)) := by
  have hcommand : main_speyctl (trusting sub line fun _ => false).parameters = (do
      Speyctl.Sql.exec .synchronousOff
      cmd_trust (text "sub") line.bytes) := rfl
  have hsub : cmd_trust (text "sub") line.bytes = (do
      editRow .trustedhosts (text "sub") (.integer left.toNat) (.integer right.toNat)
      pure []) := by
    have hlist : text "sub" ≠ text "list" := by decide
    rw [cmd_trust, if_neg hlist, h]
  rw [Invocation.run, hcommand, hsub]
  rfl

theorem trusting_add (line : Argument) {left right : UInt32}
    (h : trustSpec line.bytes = .ok (left, right)) :
    (trusting add line fun _ => false).run db = (.ok [],
      Function.update (Function.update db .trustedhosts
        ((db .trustedhosts).filter fun row => row ≠ trustRow left right)) .trustedhosts
          ((db .trustedhosts).filter (fun row => row ≠ trustRow left right) ++ [trustRow left right])) := by
  have hcommand : main_speyctl (trusting add line fun _ => false).parameters = (do
      Speyctl.Sql.exec .synchronousOff
      cmd_trust (text "add") line.bytes) := rfl
  have hadd : cmd_trust (text "add") line.bytes = (do
      editRow .trustedhosts (text "add") (.integer left.toNat) (.integer right.toNat)
      pure []) := by
    have hlist : text "add" ≠ text "list" := by decide
    rw [cmd_trust, if_neg hlist, h]
  rw [Invocation.run, hcommand, hadd]
  rfl

/-! ## What the line spells -/

theorem signed_small {n : UInt32} (h : n.toNat < 2 ^ 31) : signed n = decimal n.toNat := by
  rw [signed, Int.bmod_eq_of_le (by omega) (by omega)]

/-- The octets of an address, with the size of a net. -/
def specOf (left right : UInt32) : Spec :=
  ⟨UInt8.ofNat (left.toNat / 2 ^ 24), UInt8.ofNat (left.toNat / 2 ^ 16),
    UInt8.ofNat (left.toNat / 2 ^ 8), UInt8.ofNat left.toNat, right.toNat⟩

theorem specOf_left (left right : UInt32) : (specOf left right).left = left := by
  have hlt := left.toNat_lt
  apply UInt32.toNat.inj
  rw [Spec.left, pack_toNat]
  simp only [specOf, UInt8.toNat_ofNat']
  omega

theorem getunsigned_word (n : UInt32) : getunsigned (some (.integer n.toNat)) = n := by
  have hread := strtoul_all (plain_decimal n.toNat)
  have hlt := n.toNat_lt
  rw [if_neg (by omega)] at hread
  rw [getunsigned, getstring, hread]
  exact UInt32.ofNat_toNat

theorem mask_toNat (n : UInt32) : (n &&& 0xFF).toNat = n.toNat % 2 ^ 8 := by
  have hbits : (0xFF : UInt32).toNat = 2 ^ 8 - 1 := rfl
  rw [UInt32.toNat_and, hbits, Nat.and_two_pow_sub_one_eq_mod]

/-- An octet of a word, as it is printed. -/
theorem signed_octet {n : UInt32} {m : Nat} (h : n.toNat = m) :
    Plain (signed (n &&& 0xFF)) (UInt8.ofNat m).toNat := by
  have hmask := mask_toNat n
  rw [signed_small (by omega), hmask, h, UInt8.toNat_ofNat']
  exact plain_decimal _

theorem append_parts (x y : Byte) (a b c d n : Bytes) :
    a ++ x :: b ++ x :: c ++ x :: d ++ y :: n = a ++ x :: (b ++ x :: (c ++ x :: (d ++ y :: n))) := by
  simp only [List.append_assoc, List.cons_append]

theorem trustLine_spelt (left : UInt32) {right : UInt32} (h : right.toNat < 2 ^ 31) :
    (specOf left right).Spelt (trustLine (trustRow left right)) := by
  have hshift : ∀ k < 32, (left >>> UInt32.ofNat k).toNat = left.toNat / 2 ^ k := by
    intro k hk
    have hsize : (UInt32.ofNat k).toNat = k := UInt32.toNat_ofNat_of_lt' (Nat.lt_trans hk (by decide))
    rw [UInt32.toNat_shiftRight, hsize, Nat.mod_eq_of_lt hk, Nat.shiftRight_eq_div_pow]
  have h24 : (left >>> 24).toNat = left.toNat / 2 ^ 24 := hshift 24 (by decide)
  have h16 : (left >>> 16).toNat = left.toNat / 2 ^ 16 := hshift 16 (by decide)
  have h8 : (left >>> 8).toNat = left.toNat / 2 ^ 8 := hshift 8 (by decide)
  refine ⟨_, _, _, _, _, ?_, signed_octet h24, signed_octet h16, signed_octet h8, signed_octet rfl,
    plain_decimal right.toNat⟩
  have hleft : getunsigned (trustRow left right).1 = left := getunsigned_word left
  have hright : getunsigned (trustRow left right).2 = right := getunsigned_word right
  rw [trustLine, hleft, hright, signed_small h]
  exact append_parts _ _ _ _ _ _ _

/-- The line of a row with a size up to 31 spells the row. -/
theorem trustSpec_line (left : UInt32) {right : UInt32} (h : right ≤ 31) :
    trustSpec (lineOf (trustRow left right)).bytes = .ok (left, right) := by
  have hle : right.toNat ≤ 31 := h
  have hscanned : scanned (specOf left right).size = right :=
    UInt32.toNat.inj (scanned_toNat right.toNat_lt)
  have hspec := trustSpec_spelt (trustLine_spelt left (show right.toNat < 2 ^ 31 by omega))
  rw [hscanned, if_neg (UInt32.not_lt.mpr h), specOf_left] at hspec
  exact hspec

/-! ## The rows that there can be -/

/-- A row of the table is the one of init.sql or was accepted by `cmd_trust`. -/
def Ruled (db : Tables) : Prop :=
  ∀ row ∈ db .trustedhosts, row = localhost ∨ ∃ left right, right ≤ 31 ∧ row = trustRow left right

theorem names_put {parameters : List Argument} {row : Row}
    (h : Names parameters (.put .trustedhosts row)) :
    ∃ left right, right ≤ 31 ∧ row = trustRow left right := by
  cases h with
  | add hspells hsub =>
    cases hspells with
    | trust left right hcommand hspec => exact ⟨left, right, trustSpec_le hspec, rfl⟩

theorem run_ruled {db : Tables} {c : Contents} (hm : Models db c) (h : Ruled db) (i : Invocation) :
    Ruled (i.run db).2 := by
  obtain ⟨herror, hok⟩ := run_edits hm i
  cases hresult : (i.run db).1 with
  | error e => rwa [herror e hresult]
  | ok output =>
    obtain ⟨e, hnames, -, hm'⟩ := hok output hresult
    have heffect := Edit.effect hm hm'
    intro row hrow
    cases e with
    | keep => exact h row ((heffect _ _).mp hrow)
    | zero => exact h row ((heffect _ _ (by decide)).mp hrow)
    | drop table n => exact h row ((heffect _ _).mp hrow).1
    | put table row' =>
      rcases (heffect _ _).mp hrow with ⟨rfl, rfl⟩ | ⟨hbefore, -⟩
      · exact .inr (names_put hnames)
      · exact h row hbefore

theorem runs_ruled {db : Tables} {c : Contents} (hm : Models db c) (h : Ruled db)
    (is : List Invocation) : Ruled (runs db is) := by
  refine (runs_invariant (P := fun db => (∃ c, Models db c) ∧ Ruled db) ?_ ⟨⟨c, hm⟩, h⟩ is).2
  rintro db i ⟨⟨c, hm⟩, h⟩
  exact ⟨run_models hm i, run_ruled hm h i⟩

theorem init_ruled : Ruled Tables.init := fun _ hrow => .inl (List.mem_singleton.mp hrow)

/-! ## The round trip -/

section
variable {db : Tables} {left right : UInt32}

theorem sub_rows (line : Argument) (h : trustSpec line.bytes = .ok (left, right)) (table : TableName) (row : Row) :
    row ∈ ((trusting sub line fun _ => false).run db).2 table ↔
      row ∈ db table ∧ ¬ (table = .trustedhosts ∧ row = trustRow left right) := by
  rw [trusting_sub db line h]
  dsimp only
  by_cases ht : table = .trustedhosts
  · subst ht
    rw [Function.update_self, List.mem_filter]
    simp
  · rw [Function.update_of_ne ht]
    simp [ht]

theorem add_rows (line : Argument) (h : trustSpec line.bytes = .ok (left, right)) (table : TableName) (row : Row) :
    row ∈ ((trusting add line fun _ => false).run db).2 table ↔
      row ∈ db table ∨ (table = .trustedhosts ∧ row = trustRow left right) := by
  rw [trusting_add db line h]
  dsimp only
  by_cases ht : table = .trustedhosts
  · subst ht
    rw [Function.update_self, List.mem_append, List.mem_filter, List.mem_singleton]
    simp only [decide_eq_true_eq, true_and]
    by_cases hrow : row = trustRow left right
    · simp only [hrow, or_true]
    · simp only [hrow, ne_eq, not_false_eq_true, and_true]
  · rw [Function.update_of_ne ht, Function.update_of_ne ht]
    simp [ht]

theorem removable (h : right ≤ 31) (hrow : trustRow left right ∈ db .trustedhosts) :
    Removable db (trustRow left right) := by
  have hspec := trustSpec_line left h
  obtain ⟨above, below, hrows⟩ := List.append_of_mem hrow
  constructor
  · rw [trustList_run, hrows, List.map_append, List.flatten_append, List.map_cons,
      List.flatten_cons, List.append_assoc, List.singleton_append]
    exact ⟨_, _, rfl⟩
  · rw [removal, trusting_sub db _ hspec]
  · rw [removal]
    exact sub_rows _ hspec
  · rw [addition, trusting_add _ _ hspec]
  · intro table row
    rw [addition, removal, add_rows _ hspec, sub_rows _ hspec]
    by_cases hsame : table = .trustedhosts ∧ row = trustRow left right
    · obtain ⟨rfl, rfl⟩ := hsame
      exact ⟨fun _ => hrow, fun _ => .inr ⟨rfl, rfl⟩⟩
    · simp only [hsame, not_false_eq_true, and_true, or_false]

end

/-- The line of init.sql's row is refused, for its size. -/
theorem localhost_refused : trustSpec (lineOf localhost).bytes =
    .error (.invocation (text "IP address size is out of range (0-31)")) := by
  have hspec := trustSpec_spelt (trustLine_spelt 2130706433 (show (32 : UInt32).toNat < 2 ^ 31 by decide))
  have hsize : 31 < scanned (specOf 2130706433 32).size := by decide
  have hrow : localhost = trustRow 2130706433 32 := rfl
  rw [if_pos hsize] at hspec
  rw [lineOf, hrow]
  exact hspec

theorem localhost_not_removable (db : Tables) : ¬ Removable db localhost := by
  intro h
  have hcommand : main_speyctl (removal localhost).parameters = (do
      Speyctl.Sql.exec .synchronousOff
      cmd_trust (text "sub") (lineOf localhost).bytes) := rfl
  have hlist : text "sub" ≠ text "list" := by decide
  have hrefused := h.accepted
  rw [Invocation.run, hcommand, cmd_trust, if_neg hlist, localhost_refused] at hrefused
  cases hrefused

/-- In every database that speyctl commands can make, the line of a row serves to remove it
and to add it again, unless the row is the one of init.sql. -/
theorem removable_iff (is : List Invocation) {row : Row}
    (hrow : row ∈ runs Tables.init is .trustedhosts) :
    Removable (runs Tables.init is) row ↔ row ≠ localhost := by
  constructor
  · rintro h rfl
    exact localhost_not_removable _ h
  · intro hne
    obtain ⟨c, hinit⟩ := models_init
    obtain hlocal | ⟨left, right, hsize, rfl⟩ := runs_ruled hinit init_ruled is row hrow
    · exact absurd hlocal hne
    · exact removable hsize hrow

/-- A net. -/
def netLine : Argument := ⟨text "10.0.0.0/8", by decide +kernel⟩

/-- It is added on the new database. -/
theorem net_removable :
    let is := [trusting add netLine fun _ => false]
    Removable (runs Tables.init is) (trustRow 167772160 8) :=
  (removable_iff _ (by decide +kernel)).mpr (by decide)

/-- On the new database `trust list` prints `127.0.0.1/32`, which `trust sub` refuses. -/
theorem localhost_listed : localhost ∈ runs Tables.init [] .trustedhosts ∧
    ¬ ∀ is row, row ∈ runs Tables.init is .trustedhosts → Removable (runs Tables.init is) row := by
  have hrow : localhost ∈ runs Tables.init [] .trustedhosts := List.mem_singleton_self _
  exact ⟨hrow, fun hall => localhost_not_removable _ (hall [] localhost hrow)⟩

end Spey.TrustedHosts
