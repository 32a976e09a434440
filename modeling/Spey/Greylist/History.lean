import Mathlib.Data.List.Induction
import Spey.Greylist.Engine

/-!
# The greylist decides by history

The record of a triple is what happened to it since its last removal: the calls
that neither list matched, with their answers. A run of calls and purges keeps
`triples` equal to the records that its history has, and each answer follows
from the record that the history had before it.
-/

namespace Spey.Greylist

/-- What stays the same during a run. -/
structure Site where
  LIKE : Bytes → Bytes → Bool
  whitelist : List Listing
  blacklist : List Listing
  quarantinetime : Int
  invalidexpiry : Option Int
  validexpiry : Option Int

inductive Op where
  | call (now : Int) (sender : UInt32) (fromaddress toaddress : Bytes)
  /-- The two statements of a purge read the clock one after the other. -/
  | purge (now now' : Int)

inductive Entry where
  | called (now : Int) (k : Key) (answer : GreylistResponse)
  | purged (now now' : Int)

/-- The key that a call is filed under: an empty sender is a probe. -/
def keyOf (sender : UInt32) (fromaddress toaddress : Bytes) : Key :=
  ⟨sender, if fromaddress = [] then text "(probe)" else fromaddress, toaddress⟩

/-- The key that its statements have: a C string ends at its first NUL. -/
def storedKey (sender : UInt32) (fromaddress toaddress : Bytes) : Key :=
  ⟨sender, cstr (if fromaddress = [] then text "(probe)" else fromaddress), cstr toaddress⟩

structure Visit where
  time : Int
  answer : GreylistResponse
  deriving DecidableEq

/-- How many of the visits were accepted. -/
def accepted (visits : List Visit) : Nat := visits.countP fun v => v.answer = .Accepted

/-- When the record was started. -/
def started (visits : List Visit) : Option Int := visits.getLast?.map Visit.time

/-- The row of a record. -/
def record (k : Key) (visits : List Visit) : Option Triple :=
  visits.head?.bind fun last =>
    (started visits).map fun first => ⟨k, 1 + accepted visits, first, last.time⟩

namespace Site

variable (site : Site)

/-- The pair of the key matches a row of the list. -/
def Listed (list : List Listing) (k : Key) : Prop := ∃ row ∈ list, row.matched site.LIKE k

instance (list : List Listing) (k : Key) : Decidable (site.Listed list k) :=
  inferInstanceAs (Decidable (∃ row ∈ list, row.matched site.LIKE k))

def Unlisted (k : Key) : Prop := ¬ site.Listed site.whitelist k ∧ ¬ site.Listed site.blacklist k
  deriving Decidable

/-- A purge removes a record whose last visit is older than its class allows: a
record that never accepted anything is invalid. -/
def removes (now now' : Int) (visits : List Visit) : Bool :=
  visits.head?.any fun last =>
    if accepted visits = 0 then site.invalidexpiry.any fun expiry => last.time < now - expiry
    else site.validexpiry.any fun expiry => last.time < now' - expiry

/-- The visits of a key since its last removal, the newest first. -/
def visits (k : Key) : List Entry → List Visit
  | [] => []
  | .called now k' answer :: past =>
      if k' = k ∧ site.Unlisted k then ⟨now, answer⟩ :: visits k past else visits k past
  | .purged now now' :: past =>
      if site.removes now now' (visits k past) then [] else visits k past

/-- The answer that the history before a call asks for. -/
structure Decided (now : Int) (k : Key) (answer : GreylistResponse) (past : List Entry) : Prop where
  white : site.Listed site.whitelist k → answer = .Accepted
  black : ¬ site.Listed site.whitelist k → site.Listed site.blacklist k → answer = .BlackListed
  accepted : site.Unlisted k →
    (answer = .Accepted ↔ ∃ t, started (site.visits k past) = some t ∧ site.quarantinetime < now - t)
  grey : site.Unlisted k → answer = .Accepted ∨ answer = .GreyListed

/-- The database and what happened so far, the newest first. -/
structure State where
  db : Database
  history : List Entry

/-- The tables as init.sql leaves them. -/
def initial : State where
  db :=
    { whitelist := site.whitelist
      blacklist := site.blacklist
      triples := []
      invalidexpiry := site.invalidexpiry
      validexpiry := site.validexpiry }
  history := []

def step (s : State) : Op → State
  | .call now sender fromaddress toaddress =>
      let result := greylist site.LIKE site.quarantinetime now sender fromaddress toaddress s.db
      ⟨result.2, .called now (keyOf sender fromaddress toaddress) result.1 :: s.history⟩
  | .purge now now' => ⟨purge now now' s.db, .purged now now' :: s.history⟩

def run (ops : List Op) : State := ops.foldl site.step site.initial

/-- Addresses have no NUL, and times and counts fit in an `int`. -/
def Fits : List Entry → Prop
  | [] => True
  | .called now k answer :: past =>
      (0 ∉ k.fromaddress ∧ 0 ∉ k.toaddress) ∧ (-2 ^ 31 ≤ now ∧ now < 2 ^ 31) ∧
        site.whitelist.countP (Listing.matched site.LIKE k) < 2 ^ 31 ∧
        site.blacklist.countP (Listing.matched site.LIKE k) < 2 ^ 31 ∧
        1 + Greylist.accepted (site.visits k (.called now k answer :: past)) < 2 ^ 31 ∧ Fits past
  | .purged _ _ :: past => Fits past

end Site

/-! ## Records -/

section Records

variable {k : Key} {visits : List Visit} {row : Triple}

@[simp] theorem record_nil (k : Key) : record k [] = none := rfl

theorem record_some (h : record k visits = some row) :
    ∃ last t, visits.head? = some last ∧ started visits = some t ∧
      row = ⟨k, 1 + accepted visits, t, last.time⟩ := by
  obtain ⟨last, hlast, h⟩ := Option.bind_eq_some_iff.mp h
  obtain ⟨t, ht, h⟩ := Option.map_eq_some_iff.mp h
  exact ⟨last, t, hlast, ht, h.symm⟩

theorem record_eq_none : record k visits = none ↔ visits = [] := by
  refine ⟨fun h => ?_, fun h => by rw [h, record_nil]⟩
  cases visits with
  | nil => rfl
  | cons v visits => simp [record, started] at h

theorem started_mem {t : Int} (h : started visits = some t) : ∃ v ∈ visits, v.time = t := by
  obtain ⟨v, hv, ht⟩ := Option.map_eq_some_iff.mp h
  exact ⟨v, List.mem_of_getLast? hv, ht⟩

theorem accepted_cons (v : Visit) (visits : List Visit) :
    accepted (v :: visits) = accepted visits + if v.answer = .Accepted then 1 else 0 := by
  simp [accepted, List.countP_cons]

/-- A visit of a record that exists changes two columns. -/
theorem record_cons (v : Visit) (h : record k visits = some row) :
    record k (v :: visits) = some { row with
      timesseen := row.timesseen + if v.answer = .Accepted then 1 else 0
      lastseen := v.time } := by
  obtain ⟨last, t, hlast, ht, rfl⟩ := record_some h
  have hstarted : started (v :: visits) = some t := by
    rw [started, List.getLast?_cons]
    obtain ⟨first, hfirst, rfl⟩ := Option.map_eq_some_iff.mp ht
    simp [hfirst]
  simp only [record, List.head?_cons, Option.bind_some, hstarted, Option.map_some, accepted_cons]
  congr 2
  split
  · omega
  · omega

end Records

/-! ## Histories -/

namespace Site

variable {site : Site} {k : Key} {now : Int} {answer : GreylistResponse} {past : List Entry}

theorem visits_called (h : site.Unlisted k) :
    site.visits k (.called now k answer :: past) = ⟨now, answer⟩ :: site.visits k past := by
  simp [visits, h]

theorem visits_called_listed (h : ¬ site.Unlisted k) (k' : Key) :
    site.visits k' (.called now k answer :: past) = site.visits k' past := by
  rw [visits, if_neg]
  rintro ⟨rfl, hk⟩
  exact h hk

theorem visits_called_other {k' : Key} (h : k' ≠ k) :
    site.visits k' (.called now k answer :: past) = site.visits k' past := by
  rw [visits, if_neg]
  rintro ⟨rfl, -⟩
  exact h rfl

/-- The rows that a history asks for. -/
def records (site : Site) (past : List Entry) (k : Key) : Option Triple :=
  record k (site.visits k past)

theorem records_called (h : site.Unlisted k) :
    site.records (.called now k answer :: past)
      = Function.update (site.records past) k (record k (⟨now, answer⟩ :: site.visits k past)) := by
  funext k'
  by_cases he : k' = k
  · subst he
    rw [Function.update_self, records, visits_called h]
  · rw [Function.update_of_ne he, records, visits_called_other he, records]

/-- What a history that fits says about a record. -/
theorem Fits.record (hfits : site.Fits past) (k : Key) :
    (∀ v ∈ site.visits k past, -2 ^ 31 ≤ v.time ∧ v.time < 2 ^ 31) ∧
      1 + Greylist.accepted (site.visits k past) < 2 ^ 31 := by
  induction past with
  | nil =>
    rw [visits]
    exact ⟨nofun, by decide⟩
  | cons e past ih =>
    cases e with
    | purged now now' =>
      have hpast := ih hfits
      rw [visits]
      split
      · exact ⟨nofun, by decide⟩
      · exact hpast
    | called now k' answer =>
      obtain ⟨-, hnow, -, -, hcount, hfits⟩ := hfits
      have hpast := ih hfits
      by_cases h : k' = k ∧ site.Unlisted k
      · obtain ⟨rfl, hk⟩ := h
        refine ⟨fun v hv => ?_, hcount⟩
        rw [visits_called hk] at hv
        rcases List.mem_cons.mp hv with rfl | hv
        · exact hnow
        · exact hpast.1 v hv
      · rw [visits, if_neg h]
        exact hpast

theorem storedKey_eq {sender : UInt32} {fromaddress toaddress : Bytes}
    (hfrom : 0 ∉ (keyOf sender fromaddress toaddress).fromaddress) (hto : 0 ∉ toaddress) :
    storedKey sender fromaddress toaddress = keyOf sender fromaddress toaddress := by
  unfold storedKey keyOf at *
  rw [cstr_eq hfrom, cstr_eq hto]

theorem getint_count (list : List Listing)
    (hcount : list.countP (Listing.matched site.LIKE k) < 2 ^ 31) :
    getint (list.countP (Listing.matched site.LIKE k) : Int) ≠ 0 ↔ site.Listed list k := by
  rw [getint_eq (by omega) (by omega), Listed, ← List.countP_pos_iff]
  omega

/-- What a call looks at, in order. -/
theorem greylist_eq {sender : UInt32} {fromaddress toaddress : Bytes}
    (hk : storedKey sender fromaddress toaddress = k) (hfits : site.Fits (.called now k answer :: past))
    {db : Database} (hwhite : db.whitelist = site.whitelist) (hblack : db.blacklist = site.blacklist) :
    greylist site.LIKE site.quarantinetime now sender fromaddress toaddress db
      = if site.Listed site.whitelist k then (.Accepted, db)
        else if site.Listed site.blacklist k then (.BlackListed, db)
        else lookup site.quarantinetime now k db := by
  obtain ⟨-, -, hw, hb, -, -⟩ := hfits
  subst hk
  rw [storedKey] at hw hb ⊢
  simp only [greylist, selectCount, hwhite, hblack, getint_count _ hw, getint_count _ hb]

/-- The data path of a record whose numbers fit. -/
theorem seen_eq {visits : List Visit} {row : Triple} (hrow : record k visits = some row)
    (htimes : ∀ v ∈ visits, -2 ^ 31 ≤ v.time ∧ v.time < 2 ^ 31)
    (hnow : -2 ^ 31 ≤ now ∧ now < 2 ^ 31) (db : Database)
    (hcount : 1 + Greylist.accepted (⟨now, (seen site.quarantinetime now k row db).1⟩ :: visits) < 2 ^ 31) :
    ∃ t, started visits = some t ∧
      seen site.quarantinetime now k row db
        = let answer := if site.quarantinetime < now - t then .Accepted else .GreyListed
          (answer, { db with
            triples := Table.modify Triple.key k
              (fun row => { row with
                lastseen := now
                timesseen := 1 + Greylist.accepted visits + if answer = .Accepted then 1 else 0 })
              db.triples }) := by
  obtain ⟨last, t, -, ht, rfl⟩ := record_some hrow
  obtain ⟨v, hv, rfl⟩ := started_mem ht
  obtain ⟨hl, hu⟩ := htimes v hv
  refine ⟨v.time, ht, ?_⟩
  have hlong : long (now - v.time) = now - v.time := long_eq (by omega) (by omega)
  rw [accepted_cons] at hcount
  simp only [seen, getint_eq hl hu, hlong] at hcount ⊢
  by_cases hq : site.quarantinetime < now - v.time
  · simp only [hq, not_true_eq_false, ↓reduceIte] at hcount ⊢
    rw [getint_eq (n := 1 + (Greylist.accepted visits : Int)) (by omega) (by omega), getint_eq (by omega) (by omega)]
  · simp only [hq, not_false_eq_true, ↓reduceIte, reduceCtorEq] at hcount ⊢
    rw [getint_eq (by omega) (by omega)]
    simp

/-! ## Runs -/

/-- What every run keeps. -/
structure Inv (site : Site) (s : State) : Prop where
  constant : { s.db with triples := [] } = site.initial.db
  rows : Table.Represents Triple.key s.db.triples (site.records s.history)
  decided : ∀ now k answer past, .called now k answer :: past <:+ s.history →
    site.Decided now k answer past

theorem Inv.initial : site.Inv site.initial where
  constant := rfl
  rows := Table.represents_nil
  decided := by
    intro now k answer past hs
    simp [Site.initial] at hs

/-- A purge leaves the rows of the records that it does not remove. -/
theorem record_removes (now now' : Int) (k : Key) (visits : List Visit) :
    ((record k visits).filter fun row =>
        !(decide (row.timesseen = 1) && expired now site.invalidexpiry row)).filter
      (fun row => !(decide (1 < row.timesseen) && expired now' site.validexpiry row))
      = record k (if site.removes now now' visits then [] else visits) := by
  cases hrow : record k visits with
  | none =>
    rw [record_eq_none.mp hrow, ite_self]
    rfl
  | some row =>
    obtain ⟨last, t, hlast, ht, rfl⟩ := record_some hrow
    have hremoves : site.removes now now' visits
        = if Greylist.accepted visits = 0
          then site.invalidexpiry.any fun expiry => last.time < now - expiry
          else site.validexpiry.any fun expiry => last.time < now' - expiry := by
      rw [removes, hlast, Option.any_some]
    rw [hremoves]
    by_cases ha : Greylist.accepted visits = 0
    · cases hold : site.invalidexpiry.any fun expiry => decide (last.time < now - expiry) with
      | false => simp [Option.filter_some, expired, ha, hold, hrow]
      | true => simp [Option.filter_some, expired, ha, hold]
    · have hcount : (1 : Int) < 1 + Greylist.accepted visits := by omega
      have hne : (1 : Int) + Greylist.accepted visits ≠ 1 := by omega
      cases hold : site.validexpiry.any fun expiry => decide (last.time < now' - expiry) with
      | false => simp [Option.filter_some, expired, ha, hne, hold, hrow]
      | true => simp [Option.filter_some, expired, ha, hne, hcount, hold]

theorem Inv.purge {s : State} (hs : site.Inv s) (now now' : Int) :
    site.Inv ⟨Greylist.purge now now' s.db, .purged now now' :: s.history⟩ where
  constant := by
    rw [Greylist.purge, deleteValid, deleteInvalid]
    exact hs.constant
  rows := by
    have hinvalid : s.db.invalidexpiry = site.invalidexpiry :=
      congrArg Database.invalidexpiry hs.constant
    have hvalid : s.db.validexpiry = site.validexpiry := congrArg Database.validexpiry hs.constant
    have hrecords : site.records (.purged now now' :: s.history) = fun k =>
        ((site.records s.history k).filter fun row =>
          !(decide (row.timesseen = 1) && expired now s.db.invalidexpiry row)).filter
        fun row => !(decide (1 < row.timesseen) && expired now' s.db.validexpiry row) := by
      funext k
      rw [hinvalid, hvalid]
      exact (record_removes now now' k _).symm
    rw [hrecords, Greylist.purge, deleteValid, deleteInvalid]
    exact (hs.rows.filter _).filter _
  decided := by
    intro now k answer past hsuffix
    rcases List.suffix_cons_iff.mp hsuffix with he | hsuffix
    · cases he
    · exact hs.decided now k answer past hsuffix

theorem Inv.decided_cons {s : State} (hs : site.Inv s) (hdecided : site.Decided now k answer s.history) :
    ∀ now' k' answer' past, .called now' k' answer' :: past <:+ .called now k answer :: s.history →
      site.Decided now' k' answer' past := by
  intro now' k' answer' past hsuffix
  rcases List.suffix_cons_iff.mp hsuffix with he | hsuffix
  · cases he
    exact hdecided
  · exact hs.decided now' k' answer' past hsuffix

/-- A key that is listed leaves everything as it is. -/
theorem Inv.listed {s : State} (hs : site.Inv s) (hk : ¬ site.Unlisted k)
    (hdecided : site.Decided now k answer s.history) :
    site.Inv ⟨s.db, .called now k answer :: s.history⟩ where
  constant := hs.constant
  rows := by
    have hrecords : site.records (.called now k answer :: s.history) = site.records s.history := by
      funext k'
      rw [records, visits_called_listed hk, records]
    rw [hrecords]
    exact hs.rows
  decided := hs.decided_cons hdecided

/-- The first visit of a record. -/
theorem Inv.notfound {s : State} (hs : site.Inv s) (hk : site.Unlisted k)
    (hnone : site.visits k s.history = []) :
    site.Inv ⟨(Greylist.notfound now k s.db).2, .called now k .GreyListed :: s.history⟩ where
  constant := hs.constant
  rows := by
    have hfree : site.records s.history k = none := by rw [records, hnone, record_nil]
    have hrow : record k [⟨now, .GreyListed⟩] = some ⟨k, 1, now, now⟩ := rfl
    rw [records_called hk, hnone, hrow]
    exact hs.rows.insert hfree
  decided := by
    refine hs.decided_cons ⟨fun hw => absurd hw hk.1, fun _ hb => absurd hb hk.2, fun _ => ?_, fun _ => .inr rfl⟩
    simp [hnone, started]

/-- Every other visit. -/
theorem Inv.seen {s : State} (hs : site.Inv s) (hk : site.Unlisted k) {row : Triple} {db : Database}
    (hrow : site.records s.history k = some row)
    (heq : Greylist.seen site.quarantinetime now k row s.db = (answer, db))
    (hfits : site.Fits (.called now k answer :: s.history)) :
    site.Inv ⟨db, .called now k answer :: s.history⟩ := by
  have hcount := hfits.record k
  rw [visits_called hk] at hcount
  obtain ⟨-, hnow, -, -, -, hpast⟩ := hfits
  have hbound : 1 + Greylist.accepted (⟨now, (Greylist.seen site.quarantinetime now k row s.db).1⟩ ::
      site.visits k s.history) < 2 ^ 31 := by
    rw [heq]
    exact hcount.2
  obtain ⟨t, ht, hseen⟩ := seen_eq hrow (hpast.record k).1 hnow s.db hbound
  rw [heq] at hseen
  obtain ⟨rfl, rfl⟩ := Prod.mk.inj hseen
  refine ⟨hs.constant, ?_, hs.decided_cons ⟨fun hw => absurd hw hk.1, fun _ hb => absurd hb hk.2, fun _ => ?_, fun _ => ?_⟩⟩
  · rw [records_called hk, record_cons _ hrow]
    obtain ⟨last, t', -, -, rfl⟩ := record_some hrow
    have hmodify := hs.rows.modify k (f := fun row => { row with
      lastseen := now
      timesseen := 1 + Greylist.accepted (site.visits k s.history)
        + if (if site.quarantinetime < now - t then GreylistResponse.Accepted else .GreyListed)
            = .Accepted then 1 else 0 }) fun _ => rfl
    rw [hrow] at hmodify
    exact hmodify
  · simp only [ht, ite_eq_left_iff, reduceCtorEq, imp_false, not_not, Option.some.injEq,
      exists_eq_left']
  · split
    · exact .inl rfl
    · exact .inr rfl

theorem Inv.lookup {s : State} (hs : site.Inv s) (hk : site.Unlisted k) {db : Database}
    (heq : Greylist.lookup site.quarantinetime now k s.db = (answer, db))
    (hfits : site.Fits (.called now k answer :: s.history)) :
    site.Inv ⟨db, .called now k answer :: s.history⟩ := by
  rw [Greylist.lookup, hs.rows k] at heq
  cases hrow : site.records s.history k with
  | none =>
    rw [hrow] at heq
    obtain ⟨rfl, rfl⟩ := Prod.mk.inj heq
    exact hs.notfound hk (record_eq_none.mp hrow)
  | some row =>
    rw [hrow] at heq
    exact hs.seen hk hrow heq hfits

/-- One call, under the key that its statements have. -/
theorem Inv.stored {s : State} (hs : site.Inv s) {sender : UInt32} {fromaddress toaddress : Bytes} {db : Database}
    (hk : storedKey sender fromaddress toaddress = k)
    (heq : greylist site.LIKE site.quarantinetime now sender fromaddress toaddress s.db = (answer, db))
    (hfits : site.Fits (.called now k answer :: s.history)) :
    site.Inv ⟨db, .called now k answer :: s.history⟩ ∧ (¬ site.Unlisted k → db = s.db) := by
  have hwhite : s.db.whitelist = site.whitelist := congrArg Database.whitelist hs.constant
  have hblack : s.db.blacklist = site.blacklist := congrArg Database.blacklist hs.constant
  rw [greylist_eq hk hfits hwhite hblack] at heq
  by_cases hw : site.Listed site.whitelist k
  · rw [if_pos hw] at heq
    obtain ⟨rfl, rfl⟩ := Prod.mk.inj heq
    have hk : ¬ site.Unlisted k := fun hk => hk.1 hw
    exact ⟨hs.listed hk ⟨fun _ => rfl, fun h => absurd hw h, fun h => absurd h hk, fun h => absurd h hk⟩,
      fun _ => rfl⟩
  by_cases hb : site.Listed site.blacklist k
  · rw [if_neg hw, if_pos hb] at heq
    obtain ⟨rfl, rfl⟩ := Prod.mk.inj heq
    have hk : ¬ site.Unlisted k := fun hk => hk.2 hb
    exact ⟨hs.listed hk ⟨fun h => absurd h hw, fun _ _ => rfl, fun h => absurd h hk, fun h => absurd h hk⟩,
      fun _ => rfl⟩
  · rw [if_neg hw, if_neg hb] at heq
    have hk : site.Unlisted k := ⟨hw, hb⟩
    exact ⟨hs.lookup hk heq hfits, fun h => absurd hk h⟩

theorem Inv.call {s : State} (hs : site.Inv s) {sender : UInt32} {fromaddress toaddress : Bytes}
    (hfits : site.Fits (site.step s (.call now sender fromaddress toaddress)).history) :
    site.Inv (site.step s (.call now sender fromaddress toaddress)) ∧
      (¬ site.Unlisted (keyOf sender fromaddress toaddress) →
        (site.step s (.call now sender fromaddress toaddress)).db = s.db) := by
  rw [step] at hfits ⊢
  generalize heq : greylist site.LIKE site.quarantinetime now sender fromaddress toaddress s.db
    = result at hfits ⊢
  obtain ⟨answer, db⟩ := result
  exact hs.stored (storedKey_eq hfits.1.1 hfits.1.2) heq hfits

theorem Fits.of_cons {e : Entry} (hfits : site.Fits (e :: past)) : site.Fits past := by
  cases e with
  | called now k answer => exact hfits.2.2.2.2.2
  | purged now now' => exact hfits

theorem Inv.step {s : State} (hs : site.Inv s) (op : Op) (hfits : site.Fits (site.step s op).history) :
    site.Inv (site.step s op) := by
  cases op with
  | call now sender fromaddress toaddress => exact (hs.call hfits).1
  | purge now now' => exact hs.purge now now'

theorem run_append (ops : List Op) (op : Op) : site.run (ops ++ [op]) = site.step (site.run ops) op := by
  rw [run, List.foldl_append, List.foldl_cons, List.foldl_nil, run]

theorem step_history (s : State) (op : Op) : ∃ e, (site.step s op).history = e :: s.history := by
  cases op with
  | call now sender fromaddress toaddress => exact ⟨_, rfl⟩
  | purge now now' => exact ⟨_, rfl⟩

theorem fits_before {ops ops' : List Op} (h : ops <+: ops') (hfits : site.Fits (site.run ops').history) :
    site.Fits (site.run ops).history := by
  obtain ⟨later, rfl⟩ := h
  induction later using List.reverseRecOn with
  | nil => simpa using hfits
  | append_singleton later op ih =>
    rw [← List.append_assoc, run_append] at hfits
    obtain ⟨e, he⟩ := site.step_history (site.run (ops ++ later)) op
    rw [he] at hfits
    exact ih hfits.of_cons

theorem Inv.run (ops : List Op) (hfits : site.Fits (site.run ops).history) : site.Inv (site.run ops) := by
  induction ops using List.reverseRecOn with
  | nil => exact Inv.initial
  | append_singleton ops op ih =>
    have hbefore := fits_before (List.prefix_append ops [op]) hfits
    rw [run_append] at hfits ⊢
    exact (ih hbefore).step op hfits

instance decidableFits : (past : List Entry) → Decidable (site.Fits past)
  | [] => .isTrue trivial
  | .called _ _ _ :: past =>
      have := decidableFits past
      inferInstanceAs (Decidable (_ ∧ _))
  | .purged _ _ :: past => decidableFits past

end Site

/-- Every run of calls and purges, from the empty table: each answer is the one
that the history before it asks for, a call whose key is listed changes nothing,
and `triples` has the rows of the records and no others. -/
theorem greylist_by_history (site : Site) (ops : List Op)
    (hfits : site.Fits (site.run ops).history) :
    (∀ now k answer past, .called now k answer :: past <:+ (site.run ops).history →
      site.Decided now k answer past) ∧
    (∀ before now sender fromaddress toaddress,
      before ++ [.call now sender fromaddress toaddress] <+: ops →
      ¬ site.Unlisted (keyOf sender fromaddress toaddress) →
      (site.run (before ++ [.call now sender fromaddress toaddress])).db = (site.run before).db) ∧
    Table.Represents Triple.key (site.run ops).db.triples (site.records (site.run ops).history) := by
  have hinv := Site.Inv.run ops hfits
  refine ⟨hinv.decided, fun before now sender fromaddress toaddress hbefore hk => ?_, hinv.rows⟩
  have hcall := Site.fits_before hbefore hfits
  have hstart := Site.Inv.run before (Site.fits_before (List.prefix_append before _) hcall)
  rw [Site.run_append] at hcall ⊢
  exact (hstart.call hcall).2 hk

/-- A site that lists one sender. -/
def Site.sample : Site where
  LIKE := fun s pattern => s = pattern
  whitelist := [⟨some (text "w@x"), some (text "c@d")⟩]
  blacklist := []
  quarantinetime := 60
  invalidexpiry := some 86400
  validexpiry := some 1209600

/-- A probe that comes back after the quarantine, a listed call, and a purge
after the class of records that never accepted anything has expired. -/
def probed : List Op :=
  [.call 0 0 [] (text "c@d"), .call 10 0 (text "a@b") (text "c@d"), .call 100 0 [] (text "c@d"),
    .call 110 0 (text "w@x") (text "c@d"), .purge 90000 90001]

theorem probed_by_history :
    Site.sample.Fits (Site.sample.run probed).history ∧
      Table.Represents Triple.key (Site.sample.run probed).db.triples
        (Site.sample.records (Site.sample.run probed).history) :=
  ⟨by decide +kernel, (greylist_by_history Site.sample probed (by decide +kernel)).2.2⟩

example : (Site.sample.run probed).db.triples = [⟨keyOf 0 [] (text "c@d"), 2, 0, 100⟩] := by
  decide +kernel

end Spey.Greylist
