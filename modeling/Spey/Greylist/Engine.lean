import Mathlib.Algebra.Group.Int.Defs
import Mathlib.Algebra.Group.Nat.Defs
import Mathlib.Data.List.TakeWhile
import Spey.Calls
import Spey.Table

/-!
# greylist.cc and purge.sql

The database is the tables that the two read. Each SQL statement is a function
on them; `LIKE` is a parameter, since how it folds case depends on the library.
The column `id` of `triples` is left out: it is never read.
-/

namespace Spey

/-- A difference of two `long`s, of 64 bits. -/
def long (difference : Int) : Int := difference.bmod (2 ^ 64)

theorem long_eq {n : Int} (hl : -2 ^ 63 ≤ n) (hu : n < 2 ^ 63) : long n = n := by
  rw [long]
  apply Int.bmod_eq_of_le
  · omega
  · omega

namespace Greylist

/-- A row of `whitelist` or `blacklist`; a column may be NULL. -/
structure Listing where
  sender : Option Bytes
  recipient : Option Bytes

/-- What identifies a triple. -/
structure Key where
  sender : UInt32
  fromaddress : Bytes
  toaddress : Bytes
  deriving DecidableEq

/-- A row of `triples`. -/
structure Triple where
  key : Key
  timesseen : Int
  firstseen : Int
  lastseen : Int
  deriving DecidableEq

structure Database where
  whitelist : List Listing
  blacklist : List Listing
  triples : List Triple
  /-- the rows `invalid-expiry` and `valid-expiry` of `settings` -/
  invalidexpiry : Option Int
  validexpiry : Option Int

variable (LIKE : Bytes → Bytes → Bool)

/-- `(%Q LIKE sender) AND (%Q LIKE recipient)` -/
def Listing.matched (k : Key) (row : Listing) : Bool :=
  row.sender.any (LIKE k.fromaddress) && row.recipient.any (LIKE k.toaddress)

/-- `SELECT COUNT(*)` from one of the two lists. -/
def selectCount (list : List Listing) (k : Key) : List Int :=
  [(list.countP (Listing.matched LIKE k) : Int)]

/-- The label `notfound:`. -/
def notfound (lastseen : Int) (k : Key) (db : Database) : GreylistResponse × Database :=
  (.GreyListed, { db with triples := db.triples ++ [⟨k, 1, lastseen, lastseen⟩] })

/-- The data path of a triple that was seen before. -/
def seen (quarantinetime lastseen : Int) (k : Key) (row : Triple) (db : Database) :
    GreylistResponse × Database :=
  let firstseen := getint row.firstseen
  let failed := ¬ quarantinetime < long (lastseen - firstseen)
  let timesseen := if failed then getint row.timesseen else getint (getint row.timesseen + 1)
  (if failed then .GreyListed else .Accepted,
    { db with
      triples := Table.modify Triple.key k
        (fun row => { row with lastseen := lastseen, timesseen := timesseen }) db.triples })

/-- The look at `triples`. -/
def lookup (quarantinetime lastseen : Int) (k : Key) (db : Database) :
    GreylistResponse × Database :=
  match Table.select Triple.key k db.triples with
  | [] => notfound lastseen k db
  | row :: _ => seen quarantinetime lastseen k row db

/-- `greylist`, at the time `lastseen`. -/
def greylist (quarantinetime lastseen : Int) (sender : UInt32) (fromaddress toaddress : Bytes)
    (db : Database) : GreylistResponse × Database :=
  let fromaddress := if fromaddress = [] then text "(probe)" else fromaddress
  let k : Key := ⟨sender, cstr fromaddress, cstr toaddress⟩
  match selectCount LIKE db.whitelist k with
  | [] => notfound lastseen k db
  | white :: _ =>
    if getint white ≠ 0 then (.Accepted, db)
    else
      match selectCount LIKE db.blacklist k with
      | [] => notfound lastseen k db
      | black :: _ =>
        if getint black ≠ 0 then (.BlackListed, db)
        else lookup quarantinetime lastseen k db

/-- `lastseen < (STRFTIME('%s', 'now') - expiry)`; a missing setting is NULL. -/
def expired (now : Int) (expiry : Option Int) (row : Triple) : Bool :=
  expiry.any fun expiry => row.lastseen < now - expiry

/-- The first `DELETE` of purge.sql. -/
def deleteInvalid (now : Int) (db : Database) : Database :=
  { db with
    triples := db.triples.filter fun row =>
      !(decide (row.timesseen = 1) && expired now db.invalidexpiry row) }

/-- The second `DELETE` of purge.sql. -/
def deleteValid (now : Int) (db : Database) : Database :=
  { db with
    triples := db.triples.filter fun row =>
      !(decide (1 < row.timesseen) && expired now db.validexpiry row) }

/-- purge.sql: each statement reads the clock. -/
def purge (now now' : Int) (db : Database) : Database := deleteValid now' (deleteInvalid now db)

end Greylist

end Spey
