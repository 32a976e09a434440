import Spey.Greylist.Concurrent

/-!
# Greylisting and the date

`greylist` writes the time of the first call as a long, and reads it back through
`getint` as an int. A date that fits an int survives that. A date after 2038 comes
back as one from before 1970, so the quarantine is over at once; a date before
1970 is early enough for the difference of the two to overflow a long.
-/

namespace Spey.Greylist

/-- The call, on a database that it has to itself. -/
def Request.answered (LIKE : Bytes → Bytes → Bool) (q : Request) (db : Database) :
    GreylistResponse × Database :=
  Greylist.greylist LIKE q.quarantinetime q.lastseen q.sender q.fromaddress q.toaddress db

/-- The database after some calls, one after the other. -/
def after (LIKE : Bytes → Bytes → Bool) (calls : List Request) (db : Database) : Database :=
  calls.foldl (fun db q => (q.answered LIKE db).2) db

/-- Neither list has a row for the pair. -/
structure NotListed (LIKE : Bytes → Bytes → Bool) (k : Key) (db : Database) : Prop where
  white : db.whitelist.countP (Listing.matched LIKE k) = 0
  black : db.blacklist.countP (Listing.matched LIKE k) = 0

/-- Two calls for one triple, which is in no list and not in the table before the
first of them; the clock is a `time_t`. -/
structure Revisit (LIKE : Bytes → Bytes → Bool) (first second : Request) (db : Database) : Prop where
  same : second.key = first.key
  notListed : NotListed LIKE first.key db
  fresh : Table.select Triple.key first.key db.triples = []
  later : first.lastseen ≤ second.lastseen
  clock : second.lastseen < 2 ^ 63

/-- What greylisting is to do with a triple that is first seen at `firstseen`,
whatever other calls there are in between. -/
def Quarantines (quarantinetime firstseen : Int) : Prop :=
  ∀ (LIKE : Bytes → Bytes → Bool) (first second : Request) (between : List Request) (db : Database),
    Revisit LIKE first second db → first.lastseen = firstseen →
    second.quarantinetime = quarantinetime →
      let answer := (second.answered LIKE (after LIKE (first :: between) db)).1
      (second.lastseen ≤ firstseen + quarantinetime → answer = .GreyListed) ∧
        (firstseen + quarantinetime < second.lastseen → answer = .Accepted)

section
variable {LIKE : Bytes → Bytes → Bool} {q : Request} {k : Key} {db : Database} {firstseen : Int}

/-! ## The row of a triple -/

/-- The triple is in the table, first seen at that time. -/
def FirstSeen (k : Key) (firstseen : Int) (db : Database) : Prop :=
  ∃ row rows, Table.select Triple.key k db.triples = row :: rows ∧ row.firstseen = firstseen

/-- What a call leaves of the database. -/
inductive Leaves (k : Key) (lastseen : Int) (db : Database) : Database → Prop
  | same : Leaves k lastseen db db
  | inserted : Leaves k lastseen db { db with triples := db.triples ++ [⟨k, 1, lastseen, lastseen⟩] }
  | updated (timesseen : Int) : Leaves k lastseen db
      { db with
        triples := Table.modify Triple.key k
          (fun row => { row with lastseen := lastseen, timesseen := timesseen }) db.triples }

/-- What a call looks at, in order. -/
theorem Request.answered_eq (LIKE : Bytes → Bytes → Bool) (q : Request) (db : Database) :
    q.answered LIKE db =
      if getint (db.whitelist.countP (Listing.matched LIKE q.key)) ≠ 0 then (.Accepted, db)
      else if getint (db.blacklist.countP (Listing.matched LIKE q.key)) ≠ 0 then (.BlackListed, db)
      else lookup q.quarantinetime q.lastseen q.key db := rfl

theorem greylist_leaves (LIKE : Bytes → Bytes → Bool) (q : Request) (db : Database) :
    Leaves q.key q.lastseen db (q.answered LIKE db).2 := by
  rw [Request.answered_eq]
  split_ifs with hwhite hblack
  · exact .same
  · exact .same
  · rw [lookup]
    split
    · exact .inserted
    · exact .updated _

/-- A call leaves the two lists. -/
theorem Leaves.notListed {lastseen : Int} {db' : Database} {k' : Key} (h : Leaves k' lastseen db db')
    (hk : NotListed LIKE k db) : NotListed LIKE k db' := by
  cases h with
  | same => exact hk
  | inserted => exact ⟨hk.white, hk.black⟩
  | updated timesseen => exact ⟨hk.white, hk.black⟩

/-- The time of the first call is not written again. -/
theorem Leaves.firstSeen {lastseen : Int} {db' : Database} {k' : Key} (h : Leaves k' lastseen db db')
    (hk : FirstSeen k firstseen db) : FirstSeen k firstseen db' := by
  obtain ⟨row, rows, hselect, hrow⟩ := hk
  cases h with
  | same => exact ⟨row, rows, hselect, hrow⟩
  | inserted =>
    refine ⟨row, rows ++ Table.select Triple.key k [⟨k', 1, lastseen, lastseen⟩], ?_, hrow⟩
    rw [Table.select_append, hselect, List.cons_append]
  | updated timesseen =>
    have hkey : ∀ r : Triple, (if r.key = k' then
        { r with lastseen := lastseen, timesseen := timesseen } else r).key = r.key := by
      intro r
      split_ifs
      · rfl
      · rfl
    have hmap := Table.select_map hkey k db.triples
    rw [hselect, List.map_cons] at hmap
    refine ⟨_, _, hmap, ?_⟩
    split_ifs
    · exact hrow
    · exact hrow

theorem after_cons (calls : List Request) :
    after LIKE (q :: calls) db = after LIKE calls (q.answered LIKE db).2 := by
  rw [after, List.foldl_cons, after]

theorem after_keeps (calls : List Request) (hlist : NotListed LIKE k db)
    (hseen : FirstSeen k firstseen db) :
    NotListed LIKE k (after LIKE calls db) ∧ FirstSeen k firstseen (after LIKE calls db) := by
  induction calls generalizing db with
  | nil => exact ⟨hlist, hseen⟩
  | cons q calls ih =>
    have hleaves := greylist_leaves LIKE q db
    rw [after_cons]
    exact ih (hleaves.notListed hlist) (hleaves.firstSeen hseen)

theorem greylist_notListed (h : NotListed LIKE q.key db) :
    q.answered LIKE db = lookup q.quarantinetime q.lastseen q.key db := by
  have hzero : ¬ getint (0 : Nat) ≠ 0 := not_not.mpr (getint_eq (by decide) (by decide))
  simp only [Request.answered_eq, h.white, h.black, hzero, if_false]

/-- The first call makes the row. -/
theorem first_call (h : NotListed LIKE q.key db)
    (hfresh : Table.select Triple.key q.key db.triples = []) :
    FirstSeen q.key q.lastseen (q.answered LIKE db).2 := by
  rw [greylist_notListed h, lookup, hfresh]
  refine ⟨⟨q.key, 1, q.lastseen, q.lastseen⟩, [], ?_, rfl⟩
  rw [notfound, Table.select_append, hfresh, List.nil_append, Table.select]
  simp

/-- A later call compares with what it reads of the time of the first. -/
theorem later_call (h : NotListed LIKE q.key db) (hseen : FirstSeen q.key firstseen db) :
    (q.answered LIKE db).1 =
      if q.quarantinetime < long (q.lastseen - getint firstseen) then .Accepted else .GreyListed := by
  obtain ⟨row, rows, hselect, rfl⟩ := hseen
  rw [greylist_notListed h, lookup, hselect]
  simp only [seen, ite_not]

end

/-! ## The difference of the times -/

section
variable {quarantinetime firstseen lastseen : Int}

theorem getint_spec (n : Int) : ∃ m, getint n = n - 2 ^ 32 * m ∧ -2 ^ 31 ≤ getint n ∧ getint n < 2 ^ 31 := by
  refine ⟨n.bdiv (2 ^ 32), ?_, ?_, ?_⟩
  · exact Int.bmod_eq_self_sub_mul_bdiv n (2 ^ 32)
  · exact Int.le_bmod (by decide)
  · exact Int.bmod_lt (by decide)

theorem long_spec (n : Int) : ∃ m, long n = n - 2 ^ 64 * m ∧ -2 ^ 63 ≤ long n ∧ long n < 2 ^ 63 := by
  refine ⟨n.bdiv (2 ^ 64), ?_, ?_, ?_⟩
  · exact Int.bmod_eq_self_sub_mul_bdiv n (2 ^ 64)
  · exact Int.le_bmod (by decide)
  · exact Int.bmod_lt (by decide)

/-- The code's test decides as the dates do, at every later time on the clock. -/
def Decides (quarantinetime firstseen : Int) : Prop :=
  ∀ lastseen, firstseen ≤ lastseen → lastseen < 2 ^ 63 →
    (quarantinetime < long (lastseen - getint firstseen) ↔ firstseen + quarantinetime < lastseen)

/-- A date that fits an int, or one so late that the quarantine outlasts the clock:
there the difference is too large for a long and comes out negative. -/
theorem decides_iff (hq : 0 ≤ quarantinetime ∧ quarantinetime < 2 ^ 31)
    (hfirst : -2 ^ 63 ≤ firstseen ∧ firstseen < 2 ^ 63) : Decides quarantinetime firstseen ↔
      (0 ≤ firstseen ∧ firstseen < 2 ^ 31) ∨
        (2 ^ 63 - 2 ^ 31 ≤ firstseen ∧ 2 ^ 63 - 1 ≤ firstseen + quarantinetime) := by
  obtain ⟨m, hread, hlo, hhi⟩ := getint_spec firstseen
  constructor
  · intro h
    by_contra hcond
    rw [not_or] at hcond
    by_cases hbefore : firstseen < 0
    · -- the row reads as the date or a later one: too late for the end of the quarantine,
      -- or so early that the end of the clock is too far away
      obtain ⟨m₁, h₁⟩ := long_spec (firstseen + quarantinetime + 1 - getint firstseen)
      obtain ⟨m₂, h₂⟩ := long_spec (2 ^ 63 - 1 - getint firstseen)
      have hend := h (firstseen + quarantinetime + 1) (by omega) (by omega)
      have hlast := h (2 ^ 63 - 1) (by omega) (by omega)
      omega
    · obtain ⟨m₁, h₁⟩ := long_spec (firstseen - getint firstseen)
      obtain ⟨m₂, h₂⟩ := long_spec (2 ^ 63 - 1 - getint firstseen)
      have hstart := h firstseen (by omega) (by omega)
      have hlast := h (2 ^ 63 - 1) (by omega) (by omega)
      omega
  · intro hcond lastseen hlater hclock
    obtain ⟨m', h'⟩ := long_spec (lastseen - getint firstseen)
    omega

end

/-! ## The law -/

/-- A second call decides by what is read of the time of the first. -/
theorem revisit_answer {LIKE : Bytes → Bytes → Bool} {first second : Request} {db : Database}
    (h : Revisit LIKE first second db) (between : List Request) :
    (second.answered LIKE (after LIKE (first :: between) db)).1 =
      if second.quarantinetime < long (second.lastseen - getint first.lastseen) then .Accepted
      else .GreyListed := by
  have hfirst := first_call h.notListed h.fresh
  have hleaves := greylist_leaves LIKE first db
  obtain ⟨hlist, hseen⟩ := after_keeps between (hleaves.notListed h.notListed) hfirst
  rw [after_cons]
  rw [← h.same] at hlist hseen
  exact later_call hlist hseen

/-- Two calls on an empty database, with nothing in between. -/
def visitAt (quarantinetime lastseen : Int) : Request where
  quarantinetime
  lastseen
  sender := 0x7F000001
  fromaddress := text "a@b"
  toaddress := text "c@d"

theorem revisit_visitAt {firstseen lastseen : Int} (quarantinetime : Int)
    (hlater : firstseen ≤ lastseen) (hclock : lastseen < 2 ^ 63) :
    Revisit (fun _ _ => false) (visitAt quarantinetime firstseen) (visitAt quarantinetime lastseen)
      (.ofTriples []) where
  same := rfl
  notListed := ⟨rfl, rfl⟩
  fresh := rfl
  later := hlater
  clock := hclock

theorem quarantines_iff_decides (quarantinetime firstseen : Int) :
    Quarantines quarantinetime firstseen ↔ Decides quarantinetime firstseen := by
  constructor
  · intro h lastseen hlater hclock
    have hrevisit := revisit_visitAt quarantinetime hlater hclock
    obtain ⟨hgrey, haccepted⟩ := h _ _ _ [] _ hrevisit rfl rfl
    rw [revisit_answer hrevisit] at hgrey haccepted
    dsimp only [visitAt] at hgrey haccepted
    constructor
    · intro hover
      by_contra hwithin
      have hanswer := hgrey (Int.not_lt.mp hwithin)
      simp [hover] at hanswer
    · intro hover
      by_contra hwithin
      have hanswer := haccepted hover
      simp [hwithin] at hanswer
  · rintro h LIKE first second between db hrevisit rfl rfl
    have hdecides := h second.lastseen hrevisit.later hrevisit.clock
    dsimp only
    rw [revisit_answer hrevisit]
    constructor
    · intro hwithin
      exact if_neg fun hover => absurd (hdecides.mp hover) (Int.not_lt.mpr hwithin)
    · intro hover
      exact if_pos (hdecides.mpr hover)

/-- Greylisting holds for the triples that are first seen at a date that fits an
int from 1970 on. -/
theorem quarantines_iff {quarantinetime firstseen : Int}
    (hq : 0 ≤ quarantinetime ∧ quarantinetime < 2 ^ 31)
    (hfirst : -2 ^ 63 ≤ firstseen ∧ firstseen < 2 ^ 63) : Quarantines quarantinetime firstseen ↔
      (0 ≤ firstseen ∧ firstseen < 2 ^ 31) ∨
        (2 ^ 63 - 2 ^ 31 ≤ firstseen ∧ 2 ^ 63 - 1 ≤ firstseen + quarantinetime) := by
  rw [quarantines_iff_decides]
  exact decides_iff hq hfirst

/-- Ten minutes, first seen in 2025. -/
theorem quarantines_2025 : Quarantines 600 1750000000 :=
  (quarantines_iff (by decide) (by decide)).mpr (.inl (by decide))

/-- The first second that does not fit an int. -/
theorem quarantine_over_2038 : ¬ Quarantines 600 (2 ^ 31) := by
  rw [quarantines_iff_decides]
  intro h
  have hnow := h (2 ^ 31) (by decide) (by decide)
  exact absurd (hnow.mp (by decide)) (by decide)

end Spey.Greylist
