import Mathlib.Logic.Function.Basic
import Spey.Bytes
import Spey.Interaction.Transaction

/-!
# init.sql, and the statements on its tables

The tables have two columns each; `triples`, which has more, is left out. Each
statement or query is one that the program makes, with the table and the values
as parameters.
-/

namespace Spey

/-- A value in a column. -/
inductive Value where
  | integer (n : Int)
  | text (s : Bytes)
  deriving DecidableEq

/-- The two columns of a row; `none` is NULL. -/
abbrev Row := Option Value × Option Value

inductive TableName where
  | trustedhosts | validrecipients | settings | statistics | whitelist | blacklist | users
  deriving DecidableEq

abbrev Tables := TableName → List Row

namespace Sql

/-- The tables whose first column is the PRIMARY KEY. -/
def primary : TableName → Bool
  | .settings | .statistics => true
  | .trustedhosts | .validrecipients | .whitelist | .blacklist | .users => false

inductive Statement where
  /-- `DELETE FROM table WHERE left=.. AND right=..` -/
  | delete (table : TableName) (left right : Value)
  /-- `DELETE FROM table WHERE left=..` -/
  | deleteKey (table : TableName) (left : Value)
  /-- `INSERT INTO table VALUES (.., ..)` -/
  | insert (table : TableName) (left right : Value)
  /-- `UPDATE statistics SET value=value+1 WHERE key=..` -/
  | increment (key : Bytes)
  /-- statsreset.sql -/
  | statsreset
  /-- init.sql -/
  | init
  /-- purge.sql -/
  | purge
  /-- `PRAGMA synchronous=OFF` -/
  | synchronousOff

inductive Query where
  /-- `SELECT left, right FROM table` -/
  | rows (table : TableName)
  /-- `SELECT COUNT(*) FROM table WHERE left=..` -/
  | count (table : TableName) (left : Value)

abbrev Query.Rows : Query → Type
  | .rows _ => List Row
  | .count _ _ => Nat

/-- `value+1` -/
def increased : Option Value → Option Value
  | none => none
  | some (.integer n) => some (.integer (n + 1))
  | some (.text s) => some (.integer (leadingNumber s + 1))

def execute : Statement → Tables → Option Tables
  | .delete table left right, db =>
      some (Function.update db table ((db table).filter fun row => row ≠ (some left, some right)))
  | .deleteKey table left, db =>
      some (Function.update db table ((db table).filter fun row => row.1 ≠ some left))
  | .insert table left right, db =>
      if primary table ∧ ∃ row ∈ db table, row.1 = some left then none
      else some (Function.update db table (db table ++ [(some left, some right)]))
  | .increment key, db =>
      some (Function.update db .statistics ((db .statistics).map fun row =>
        if row.1 = some (.text key) then (row.1, increased row.2) else row))
  | .statsreset, db =>
      some (Function.update db .statistics ((db .statistics).map fun row =>
        (row.1, some (.integer 0))))
  -- the tables are there already
  | .init, _ => none
  -- only `triples` is changed
  | .purge, db => some db
  | .synchronousOff, db => some db

def select : (q : Query) → Tables → q.Rows
  | .rows table, db => db table
  | .count table left, db => (db table).countP fun row => row.1 = some left

def meaning : Interaction.Transaction.Meaning Tables Statement Query.Rows := ⟨execute, select⟩

end Sql

def Tables.setting (key value : String) : Row := (some (.text (text key)), some (.text (text value)))

def Tables.counter (key : String) : Row := (some (.text (text key)), some (.integer 0))

open Tables in
/-- What `speyctl init` leaves. -/
def Tables.init : Tables
  | .trustedhosts => [(some (.integer 2130706433), some (.integer 32))]
  | .settings =>
      [setting "identity" "yourdomain.invalid", setting "intolerant" "1",
        setting "quarantine-time" "60", setting "socket-timeout" "30",
        setting "invalid-expiry" "86400", setting "valid-expiry" "1209600",
        setting "runtime-user-id" "spey:spey", setting "greet-pause" "2",
        setting "external-auth-mode" "none"]
  | .statistics =>
      [counter "malformed-domain", counter "malformed-address", counter "illegal-relay",
        counter "timeout", counter "greylisted", counter "accepted", counter "whitelisted",
        counter "spoke-too-soon", counter "blackholed"]
  | .validrecipients | .whitelist | .blacklist | .users => []

end Spey
