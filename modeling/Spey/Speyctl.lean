import Mathlib.Algebra.Group.Int.Defs
import Mathlib.Algebra.Group.Nat.Defs
import Spey.SQL

/-!
# main_speyctl.cc

A speyctl command works on the database over a connection of its own. What it
prints is its result; the usage text is left out, and so is the listing of the
triples. The parameters are C strings, which have no NUL.
-/

namespace Spey

/-- A string of `argv`. -/
structure Argument where
  bytes : Bytes
  nulFree : 0 ∉ bytes
  deriving DecidableEq

namespace Speyctl

open Interaction Transaction

inductive CtlExn where
  | invocation (reason : Bytes)
  | sql
  /-- `std::terminate` -/
  | terminate
  deriving DecidableEq

abbrev Ctl (α : Type) := Transaction.Proc Sql.Statement Sql.Query.Rows CtlExn α

namespace Sql

/-- `SQL::exec` -/
def exec (s : Spey.Sql.Statement) : Ctl Unit := Transaction.exec .sql s

/-- `SQLQuery`, and `step` through its rows -/
def query (q : Spey.Sql.Query) : Ctl q.Rows := Transaction.query .sql q

end Sql

/-- The scope of an `SQLCommitLock`. -/
def SQLCommitLock {α : Type} (scope : Ctl α) : Ctl α := locked .sql .terminate scope

/-! ## Columns -/

/-- strtoul(3) to the base 10, where a `long` has 64 bits: the number and what follows it, or
`none` if there are no digits. -/
def strtoul (s : Bytes) : Option (Nat × Bytes) :=
  let s := s.dropWhile isspace
  let negative := s.head? = some (byte '-')
  let s := if negative ∨ s.head? = some (byte '+') then s.drop 1 else s
  let digits := s.takeWhile isdigit
  if digits = [] then none
  else
    let n : Nat := digits.foldl (fun n c => 10 * n + (c.toNat - 48)) 0
    let value :=
      if 2 ^ 64 ≤ n then 2 ^ 64 - 1
      else if negative then (2 ^ 64 - n) % 2 ^ 64
      else n
    some (value, s.dropWhile isdigit)

/-- `SQLQuery::getstring` -/
def getstring : Option Value → Bytes
  | none => []
  | some (.integer n) => decimal n
  | some (.text s) => s

/-- `SQLQuery::getunsigned` -/
def getunsigned (v : Option Value) : UInt32 :=
  match strtoul (getstring v) with
  | none => 0
  | some (n, _) => UInt32.ofNat n

/-- `%-24s` and the like -/
def padRight (width : Nat) (s : Bytes) : Bytes := s ++ List.replicate (width - s.length) SP

/-- `%30s` and the like -/
def padLeft (width : Nat) (s : Bytes) : Bytes := List.replicate (width - s.length) SP ++ s

/-- `%d` of an `unsigned` -/
def signed (n : UInt32) : Bytes := decimal ((n.toNat : Int).bmod (2 ^ 32))

/-- A heading, and a line for each row. -/
def listing (heading : List String) (line : Row → Bytes) (rows : List Row) : Bytes :=
  (heading.map fun l => text l ++ [LF]).flatten ++ (rows.map fun row => line row ++ [LF]).flatten

/-! ## Specs -/

/-- What is before the only `separator` of a spec, and what is after it. -/
def splitSpec (separator : Byte) (value : Bytes) : Option (Bytes × Bytes) :=
  match value.dropWhile (· ≠ separator) with
  | [] => none
  | _ :: right =>
      if separator ∈ right then none else some (value.takeWhile (· ≠ separator), right)

/-- `%u` -/
def scan_u (s : Bytes) : Option (UInt32 × Bytes) :=
  (strtoul s).map fun p => (UInt32.ofNat p.1, p.2)

/-- A character of a format that stands for itself. -/
def scan_literal (c : Char) : Bytes → Option Bytes
  | [] => none
  | d :: s => if d = byte c then some s else none

/-- The five numbers and the length of `sscanf(s, "%u.%u.%u.%u/%u%n", ..)`, if all are there. -/
def scan_address (s : Bytes) : Option (UInt32 × UInt32 × UInt32 × UInt32 × UInt32 × Nat) := do
  let (b1, rest) ← scan_u s
  let (b2, rest) ← scan_u (← scan_literal '.' rest)
  let (b3, rest) ← scan_u (← scan_literal '.' rest)
  let (b4, rest) ← scan_u (← scan_literal '.' rest)
  let (right, rest) ← scan_u (← scan_literal '/' rest)
  return (b1, b2, b3, b4, right, s.length - rest.length)

def Xlistsyntaxerror (cmd : Bytes) : CtlExn :=
  .invocation (text "syntax error: speyctl " ++ cmd ++ text " [add or sub or list] [<spec>]")

def usersyntaxerror : CtlExn :=
  .invocation (text "syntax error: speyctl user [add or sub or list] [<username>] [<password>]")

/-- The address and the size that a spec of `trust` gives. -/
def trustSpec (value : Bytes) : Except CtlExn (UInt32 × UInt32) :=
  match scan_address (cstr value) with
  | none => .error (Xlistsyntaxerror (text "trust"))
  | some (b1, b2, b3, b4, right, tail) =>
      if value.length ≠ tail then .error (Xlistsyntaxerror (text "trust"))
      else if 31 < right then
        .error (.invocation (text "IP address size is out of range (0-31)"))
      else if 0xFF < b1 ||| b2 ||| b3 ||| b4 then
        .error (.invocation (text "IP address element is out of range (0-255)"))
      else .ok ((b1 <<< 24) ||| (b2 <<< 16) ||| (b3 <<< 8) ||| b4, right)

/-- `strip` -/
def strip (s : Bytes) : Bytes :=
  let blank (c : Byte) : Bool := c = SP ∨ c = 9
  let s := if s.all blank then s else s.dropWhile blank
  if s.all blank then s else (s.reverse.dropWhile blank).reverse

/-! ## Commands -/

def cmd_init : Ctl Unit := Sql.exec .init

def cmd_set (key value : Bytes) : Ctl Unit :=
  SQLCommitLock do
    Sql.exec (.deleteKey .settings (.text (cstr key)))
    if value ≠ [] then Sql.exec (.insert .settings (.text (cstr key)) (.text (cstr value)))
    else pure ()
    commit

/-- The listings of `settings` and `statistics`. -/
def pairs (heading : String) (rows : List Row) : Bytes :=
  listing [heading, "----------------------------------------------------------"]
    (fun row => padRight 24 (getstring row.1) ++ SP :: getstring row.2) rows

def cmd_list : Ctl Bytes := do
  let rows ← Sql.query (.rows .settings)
  pure (pairs "Variable                 Value" rows)

def cmd_stats : Ctl Bytes := do
  let rows ← Sql.query (.rows .statistics)
  pure (pairs "Counter                  Value" rows)

def cmd_statsreset : Ctl Unit := Sql.exec .statsreset

def cmd_purge : Ctl Unit := Sql.exec .purge

/-- The transaction of `add` and `sub`: the row is deleted, and inserted by `add`. -/
def editRow (table : TableName) (command : Bytes) (left right : Value) : Ctl Unit :=
  SQLCommitLock do
    Sql.exec (.delete table left right)
    if command = text "add" then Sql.exec (.insert table left right) else pure ()
    commit

/-- A line of the list of trusted hosts. -/
def trustLine (row : Row) : Bytes :=
  let left := getunsigned row.1
  signed (left >>> 24 &&& 0xFF) ++ byte '.' :: signed (left >>> 16 &&& 0xFF) ++
    byte '.' :: signed (left >>> 8 &&& 0xFF) ++ byte '.' :: signed (left &&& 0xFF) ++
    byte '/' :: signed (getunsigned row.2)

def cmd_trust (command value : Bytes) : Ctl Bytes := do
  if command = text "list" then
    let rows ← Sql.query (.rows .trustedhosts)
    pure (listing [] trustLine rows)
  else
    match trustSpec value with
    | .error e => Action.raise e
    | .ok (left, right) => do
        editRow .trustedhosts command (.integer left.toNat) (.integer right.toNat)
        pure []

def cmd_recipient (command value : Bytes) : Ctl Bytes := do
  if command = text "list" then
    let rows ← Sql.query (.rows .validrecipients)
    pure (listing [] (fun row => getstring row.1 ++ byte '@' :: getstring row.2) rows)
  else
    match splitSpec (byte '@') value with
    | none => Action.raise (Xlistsyntaxerror (text "recipient"))
    | some (left, right) => do
        editRow .validrecipients command (.text (cstr left)) (.text (cstr right))
        pure []

def cmd_Xlist (list : Bytes) (table : TableName) (command value : Bytes) : Ctl Bytes := do
  if command = text "list" then
    let rows ← Sql.query (.rows table)
    pure (listing
      ["                        Sender   Recipient",
        "------------------------------   ------------------------------"]
      (fun row => padLeft 30 (getstring row.1) ++ text " : " ++ getstring row.2) rows)
  else
    match splitSpec (byte ':') value with
    | none => Action.raise (Xlistsyntaxerror list)
    | some (sender, recipient) => do
        editRow table command (.text (cstr (strip sender))) (.text (cstr (strip recipient)))
        pure []

/-- The scope of the lock in `cmd_user`. -/
def editUser (command username password : Bytes) : Ctl Unit := do
  let count ← Sql.query (.count .users (.text (cstr username)))
  if command = text "add" then
    if password = [] then Action.raise usersyntaxerror
    else if getint count ≠ 0 then
      Action.raise (.invocation (text "the user '" ++ username ++ text "' already exists"))
    else
      Sql.exec (.insert .users (.text (cstr username)) (.text (cstr password)))
      commit
  else
    if password ≠ [] then Action.raise usersyntaxerror
    else if getint count = 0 then
      Action.raise (.invocation (text "the user '" ++ username ++ text "' does not exist"))
    else
      Sql.exec (.deleteKey .users (.text (cstr username)))
      commit

def cmd_user (command username password : Bytes) : Ctl Bytes := do
  if command = text "list" then
    let rows ← Sql.query (.rows .users)
    pure (listing ["       Username   Password", "---------------   ---------------"]
      (fun row => padLeft 15 (getstring row.1) ++ text "   " ++ getstring row.2) rows)
  else
    SQLCommitLock (editUser command username password)
    pure []

def toomanyparameters : CtlExn := .invocation (text "too many parameters --- try --help for help")

def unknowncommand : CtlExn := .invocation (text "unknown command --- try --help for help")

/-- `SpeyCtlCLI::getparameter` -/
def getparameter (parameters : List Argument) (i : Nat) : Bytes :=
  (parameters[i]?.map Argument.bytes).getD []

/-- A command without parameters of its own. -/
def plain (parameters : List Argument) (cmd : Ctl Bytes) : Ctl Bytes :=
  if parameters.length ≠ 1 then Action.raise toomanyparameters else cmd

/-- A command that does not print anything. -/
def silent (cmd : Ctl Unit) : Ctl Bytes := do
  cmd
  pure []

/-- The commands with a spec. -/
def specCommand (command subcommand value : Bytes) : Ctl Bytes :=
  if subcommand ≠ text "list" ∧ subcommand ≠ text "add" ∧ subcommand ≠ text "sub" then
    Action.raise (Xlistsyntaxerror command)
  else if command = text "trust" then cmd_trust subcommand value
  else if command = text "recipient" then cmd_recipient subcommand value
  else if command = text "whitelist" then cmd_Xlist command .whitelist subcommand value
  else cmd_Xlist command .blacklist subcommand value

def main_speyctl (parameters : List Argument) : Ctl Bytes := do
  Sql.exec .synchronousOff
  let command := getparameter parameters 0
  if command = text "help" then pure []
  else if command = text "init" then
    if 1 < parameters.length then Action.raise toomanyparameters else silent cmd_init
  else if command = text "set" then
    if 3 < parameters.length then Action.raise toomanyparameters
    else if getparameter parameters 1 = [] then
      Action.raise (.invocation (text "syntax: speyctl set <key> [<value>]"))
    else silent (cmd_set (getparameter parameters 1) (getparameter parameters 2))
  else if command = text "list" then plain parameters cmd_list
  else if command = text "stats" then plain parameters cmd_stats
  else if command = text "statsreset" then plain parameters (silent cmd_statsreset)
  else if command = text "showdb" then plain parameters (pure [])
  else if command = text "purge" then plain parameters (silent cmd_purge)
  else if command = text "trust" ∨ command = text "recipient" ∨ command = text "whitelist" ∨
      command = text "blacklist" then
    if parameters.length < 2 ∨ 3 < parameters.length then Action.raise toomanyparameters
    else specCommand command (getparameter parameters 1) (getparameter parameters 2)
  else if command = text "user" then
    if parameters.length < 2 ∨ 4 < parameters.length then Action.raise toomanyparameters
    else
      let subcommand := getparameter parameters 1
      if subcommand ≠ text "list" ∧ subcommand ≠ text "add" ∧ subcommand ≠ text "sub" then
        Action.raise usersyntaxerror
      else cmd_user subcommand (getparameter parameters 2) (getparameter parameters 3)
  else Action.raise unknowncommand

/-- One run of speyctl: its parameters, and which of its calls to the database fail. -/
structure Invocation where
  parameters : List Argument
  faults : Nat → Bool

/-- What a run prints or throws, and the tables after it. -/
def Invocation.run (i : Invocation) (db : Tables) : Except CtlExn Bytes × Tables :=
  let out := (main_speyctl i.parameters).exec (answer Spey.Sql.meaning) ⟨false⟩
    (Connection.start db i.faults)
  (out.1.1, out.2.stored)

/-- Runs, one after the other. -/
def runs (db : Tables) (is : List Invocation) : Tables := is.foldl (fun db i => (i.run db).2) db

end Speyctl

end Spey
