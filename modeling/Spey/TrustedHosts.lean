import Mathlib.Data.List.Perm.Subperm
import Mathlib.Data.Set.Card
import Spey.Greylist.Engine
import Spey.Speyctl.TrustList

/-!
# Trusted hosts by prefix

`testtrusted` compares the address of the client with each row of `trustedhosts`,
both shifted to the right until only the bits of the row's size are left. The rows
are those of the specs that were added and not removed, and the one of init.sql.
So a client is trusted if it agrees with one of them in so many leading bits, where the
sizes are what `%u` can hold and an int can hold the count.
-/

namespace Spey

/-- `struct in_addr`: an address in network byte order. -/
structure InAddr where
  a : UInt8
  b : UInt8
  c : UInt8
  d : UInt8
  deriving DecidableEq

/-- `SocketAddress::operator unsigned int` -/
def InAddr.ntohl (x : InAddr) : UInt32 :=
  Speyctl.pack x.a.toUInt32 x.b.toUInt32 x.c.toUInt32 x.d.toUInt32

namespace Settings

/-- A value where a number is wanted. -/
def number : Value → Int
  | .integer n => n
  | .text s => leadingNumber s

/-- `x >> n`, which goes the other way where `n` is negative -/
def shiftRight (x n : Int) : Int := if 0 ≤ n then x / 2 ^ n.toNat else x * 2 ^ (-n).toNat

/-- `(%u >> (32-right)) = (left >> (32-right))` -/
def trusts (sender : UInt32) : Row → Bool
  | (some left, some right) =>
      shiftRight sender.toNat (32 - number right) = shiftRight (number left) (32 - number right)
  | _ => false

/-- `Settings::testtrusted`, on the rows of `trustedhosts` -/
def testtrusted (rows : List Row) (sender : UInt32) : Bool := getint (rows.countP (trusts sender)) ≠ 0

end Settings

namespace TrustedHosts

open Speyctl

/-! ## What was added and removed -/

/-- A command `trust add` or `trust sub`, with a spec in plain decimal. -/
structure Trust where
  adds : Bool
  spec : Spec
  line : Argument
  spelt : spec.Spelt line.bytes
  faults : Nat → Bool

def Trust.invocation (t : Trust) : Invocation := trusting (if t.adds then add else sub) t.line t.faults

/-- The database after the commands, the last of them first. -/
def after : List Trust → Tables
  | [] => Tables.init
  | t :: past => (t.invocation.run (after past)).2

/-- The command does not throw. -/
def Done (t : Trust) (past : List Trust) : Prop :=
  ∃ output, (t.invocation.run (after past)).1 = .ok output

/-- The spec was added, and has not been removed since. -/
def Stands (p : Spec) : List Trust → Prop
  | [] => False
  | t :: past => (Done t past ∧ t.adds = true ∧ t.spec = p) ∨
      (Stands p past ∧ ¬ (Done t past ∧ t.adds = false ∧ t.spec = p))

/-- No accepted spec has a size beyond what `%u` can hold. -/
def SizesFit : List Trust → Prop
  | [] => True
  | t :: past => (Done t past → t.spec.size < 2 ^ 32) ∧ SizesFit past

/-- The first bits of the address are those of the spec, as many as its size says. -/
def Covers (p : Spec) (x : InAddr) : Prop :=
  ∀ i < p.size, i < 32 → x.ntohl.toNat.testBit (31 - i) = p.left.toNat.testBit (31 - i)

/-- After the commands the client is trusted just where it should be. -/
def ExactPrefix (past : List Trust) (x : InAddr) : Prop :=
  Settings.testtrusted (after past .trustedhosts) x.ntohl = true ↔
    x = ⟨127, 0, 0, 1⟩ ∨ ∃ p, Stands p past ∧ Covers p x

/-- How often the client is trusted: by the specs that stand and cover it, and by the row of
init.sql. -/
noncomputable def covering (past : List Trust) (x : InAddr) : Nat :=
  {p | Stands p past ∧ Covers p x}.ncard + if x = ⟨127, 0, 0, 1⟩ then 1 else 0

/-! ## The rows -/

def rowOf (p : Spec) : Row := trustRow p.left (scanned p.size)

theorem rowOf_inj {p q : Spec} (hp : p.size < 2 ^ 32) (hq : q.size < 2 ^ 32)
    (h : rowOf p = rowOf q) : p = q := by
  obtain ⟨a, b, c, d, m⟩ := p
  obtain ⟨a', b', c', d', n⟩ := q
  rw [rowOf, rowOf, trustRow, trustRow, Prod.mk.injEq, Option.some.injEq, Option.some.injEq,
    Value.integer.injEq, Value.integer.injEq] at h
  obtain ⟨hleft, hright⟩ := h
  have hsize := Int.ofNat.inj hright
  rw [scanned_toNat hp, scanned_toNat hq] at hsize
  obtain ⟨rfl, rfl, rfl, rfl⟩ := pack_inj (UInt32.toNat.inj (Int.ofNat.inj hleft))
  dsimp only at hsize
  rw [hsize]

theorem rowOf_ne_localhost {p : Spec} (h : scanned p.size ≤ 31) : rowOf p ≠ localhost := by
  intro he
  have hsize := congrArg Prod.snd he
  rw [rowOf, trustRow, localhost, Option.some.injEq, Value.integer.injEq] at hsize
  have hle : (scanned p.size).toNat ≤ 31 := h
  omega

theorem spelt_row {t : Trust} {left right : UInt32} (h : trustSpec t.line.bytes = .ok (left, right)) :
    scanned t.spec.size ≤ 31 ∧ trustRow left right = rowOf t.spec := by
  rw [trustSpec_spelt t.spelt] at h
  split_ifs at h with hsize
  cases h
  exact ⟨UInt32.not_lt.mp hsize, rfl⟩

/-- The edit of a command that does not throw. -/
theorem names_trust {t : Trust} {e : Edit} (h : Names t.invocation.parameters e) :
    scanned t.spec.size ≤ 31 ∧
      e = if t.adds then .put .trustedhosts (rowOf t.spec) else .drop .trustedhosts (rowOf t.spec) := by
  have htrust : getparameter t.invocation.parameters 0 = text "trust" := rfl
  have hword : getparameter t.invocation.parameters 1 =
      if t.adds then text "add" else text "sub" := by
    show (if t.adds then add else sub).bytes = _
    cases t.adds <;> rfl
  have hrow : ∀ {table : TableName} {row : Row}, Spells t.invocation.parameters table row →
      scanned t.spec.size ≤ 31 ∧ table = .trustedhosts ∧ row = rowOf t.spec := by
    intro table row hspells
    cases hspells with
    | trust left right _ hspec =>
      obtain ⟨hsize, hrow⟩ := spelt_row hspec
      exact ⟨hsize, rfl, hrow⟩
    | recipient _ _ h _ _ _ | whitelist _ _ h _ _ _ | blacklist _ _ h _ _ _ | user h =>
      exact absurd (htrust.symm.trans h) (by decide)
  cases h with
  | set h _ | unset h _ => exact absurd (htrust.symm.trans h) (by decide)
  | statsreset h => exact absurd (htrust.symm.trans (getparameter_single h).1) (by decide)
  | other h =>
    rw [htrust] at h
    exact absurd h (by decide)
  | listing _ h =>
    have hlist : ∀ adds : Bool, (if adds then text "add" else text "sub") ≠ text "list" := by decide
    exact absurd (hword.symm.trans h) (hlist t.adds)
  | add hspells h =>
    rw [hword] at h
    obtain ⟨hsize, rfl, rfl⟩ := hrow hspells
    cases hadds : t.adds with
    | true => exact ⟨hsize, rfl⟩
    | false =>
      rw [hadds] at h
      exact absurd h (by decide)
  | sub hspells h =>
    rw [hword] at h
    obtain ⟨hsize, rfl, rfl⟩ := hrow hspells
    cases hadds : t.adds with
    | true =>
      rw [hadds] at h
      exact absurd h (by decide)
    | false =>
      rw [name_whole rfl]
      exact ⟨hsize, rfl⟩

theorem after_models (past : List Trust) : ∃ c, Models (after past) c := by
  induction past with
  | nil => exact models_init
  | cons t past ih =>
    obtain ⟨c, hm⟩ := ih
    exact run_models hm t.invocation

/-- A command that does not throw puts the row of its spec into the table, or takes it away. -/
theorem done_rows {t : Trust} {past : List Trust} (h : Done t past) :
    scanned t.spec.size ≤ 31 ∧ ∀ row, row ∈ after (t :: past) .trustedhosts ↔
      if t.adds then row = rowOf t.spec ∨ row ∈ after past .trustedhosts
      else row ∈ after past .trustedhosts ∧ row ≠ rowOf t.spec := by
  obtain ⟨c, hm⟩ := after_models past
  obtain ⟨output, hok⟩ := h
  obtain ⟨e, hnames, -, hm'⟩ := (run_edits hm t.invocation).2 output hok
  obtain ⟨hsize, he⟩ := names_trust hnames
  have heffect := Edit.effect hm hm'
  subst he
  refine ⟨hsize, fun row => ?_⟩
  have hwhole : ∀ r : Row, name .trustedhosts r = r := name_whole rfl
  cases hadds : t.adds with
  | true =>
    rw [hadds, if_pos rfl] at heffect
    have hrow := heffect .trustedhosts row
    rw [hwhole, hwhole] at hrow
    simp only [true_and] at hrow
    rw [if_pos rfl]
    refine hrow.trans ?_
    by_cases hsame : row = rowOf t.spec
    · simp only [hsame, true_or]
    · simp only [hsame, not_false_eq_true, and_true]
  | false =>
    rw [hadds, if_neg Bool.false_ne_true] at heffect
    have hrow := heffect .trustedhosts row
    rw [hwhole] at hrow
    simp only [true_and] at hrow
    rw [if_neg Bool.false_ne_true]
    exact hrow

theorem not_done {t : Trust} {past : List Trust} (h : ¬ Done t past) : after (t :: past) = after past := by
  obtain ⟨c, hm⟩ := after_models past
  cases hresult : (t.invocation.run (after past)).1 with
  | error e => exact (run_edits hm t.invocation).1 e hresult
  | ok output => exact absurd ⟨output, hresult⟩ h

variable {past : List Trust}

theorem stands_added {t : Trust} (hdone : Done t past) (hadds : t.adds = true) (p : Spec) :
    Stands p (t :: past) ↔ t.spec = p ∨ Stands p past := by
  simp only [Stands, hdone, hadds, true_and, Bool.true_eq_false, false_and, and_false,
    not_false_eq_true, and_true]

theorem stands_removed {t : Trust} (hdone : Done t past) (hadds : t.adds = false) (p : Spec) :
    Stands p (t :: past) ↔ Stands p past ∧ t.spec ≠ p := by
  simp only [Stands, hdone, hadds, true_and, Bool.false_eq_true, false_and, and_false, false_or,
    ne_eq]

theorem stands_not_done {t : Trust} (hdone : ¬ Done t past) (p : Spec) :
    Stands p (t :: past) ↔ Stands p past := by
  simp only [Stands, hdone, false_and, false_or, not_false_eq_true, and_true]

/-- A spec that stands was accepted. -/
theorem Stands.accepted {p : Spec} (h : Stands p past) : scanned p.size ≤ 31 := by
  induction past with
  | nil => exact h.elim
  | cons t past ih =>
    obtain ⟨hdone, -, rfl⟩ | ⟨hbefore, -⟩ := h
    · exact (done_rows hdone).1
    · exact ih hbefore

theorem Stands.small {p : Spec} (h : Stands p past) (hfit : SizesFit past) : p.size < 2 ^ 32 := by
  induction past with
  | nil => exact h.elim
  | cons t past ih =>
    obtain ⟨hdone, -, rfl⟩ | ⟨hbefore, -⟩ := h
    · exact hfit.1 hdone
    · exact ih hbefore hfit.2

/-- The rows are those of the specs that stand, and the one of init.sql. -/
theorem mem_after (hfit : SizesFit past) (row : Row) :
    row ∈ after past .trustedhosts ↔ row = localhost ∨ ∃ p, Stands p past ∧ row = rowOf p := by
  induction past with
  | nil =>
    have hinit : row ∈ after [] .trustedhosts ↔ row = localhost := List.mem_singleton
    rw [hinit]
    exact ⟨.inl, fun h => h.resolve_right fun ⟨p, hp, _⟩ => hp⟩
  | cons t past ih =>
    have hbefore := ih hfit.2
    by_cases hdone : Done t past
    · obtain ⟨hsize, hrows⟩ := done_rows hdone
      rw [hrows, hbefore]
      cases hadds : t.adds with
      | true =>
        simp only [stands_added hdone hadds, if_true]
        constructor
        · rintro (hrow | hrow | ⟨p, hp, hrow⟩)
          · exact .inr ⟨t.spec, .inl rfl, hrow⟩
          · exact .inl hrow
          · exact .inr ⟨p, .inr hp, hrow⟩
        · rintro (hrow | ⟨p, rfl | hp, hrow⟩)
          · exact .inr (.inl hrow)
          · exact .inl hrow
          · exact .inr (.inr ⟨p, hp, hrow⟩)
      | false =>
        simp only [stands_removed hdone hadds, if_neg Bool.false_ne_true]
        constructor
        · rintro ⟨hrow | ⟨p, hp, rfl⟩, hne⟩
          · exact .inl hrow
          · exact .inr ⟨p, ⟨hp, fun he => hne (he ▸ rfl)⟩, rfl⟩
        · rintro (rfl | ⟨p, ⟨hp, hne⟩, rfl⟩)
          · exact ⟨.inl rfl, (rowOf_ne_localhost hsize).symm⟩
          · refine ⟨.inr ⟨p, hp, rfl⟩, fun he => hne ?_⟩
            exact rowOf_inj (hfit.1 hdone) (hp.small hfit.2) he.symm
    · rw [not_done hdone, hbefore]
      simp only [stands_not_done hdone]

/-! ## What a row matches -/

/-- What is left of two words after a shift is equal where their first bits are. -/
theorem shifted_eq_iff {x y n : Nat} (hx : x < 2 ^ 32) (hy : y < 2 ^ 32) (hn : n ≤ 32) :
    x / 2 ^ (32 - n) = y / 2 ^ (32 - n) ↔ ∀ i < n, x.testBit (31 - i) = y.testBit (31 - i) := by
  constructor
  · intro h i hi
    have hbit := congrArg (fun z => z.testBit (n - 1 - i)) h
    simp only [Nat.testBit_div_two_pow] at hbit
    have hplace : n - 1 - i + (32 - n) = 31 - i := by omega
    rwa [hplace] at hbit
  · intro h
    apply Nat.eq_of_testBit_eq
    intro j
    rw [Nat.testBit_div_two_pow, Nat.testBit_div_two_pow]
    by_cases hj : j < n
    · have hbit := h (n - 1 - j) (by omega)
      have hplace : 31 - (n - 1 - j) = j + (32 - n) := by omega
      rwa [hplace] at hbit
    · have hle : 2 ^ 32 ≤ 2 ^ (j + (32 - n)) := Nat.pow_le_pow_right (by decide) (by omega)
      rw [Nat.testBit_lt_two_pow (Nat.lt_of_lt_of_le hx hle),
        Nat.testBit_lt_two_pow (Nat.lt_of_lt_of_le hy hle)]

/-- A row of a size up to 32 compares the first bits. -/
theorem trusts_iff (sender left : UInt32) {size : Nat} (hsize : size ≤ 32) :
    Settings.trusts sender (some (.integer left.toNat), some (.integer size)) = true ↔
      ∀ i < size, sender.toNat.testBit (31 - i) = left.toNat.testBit (31 - i) := by
  have hshift : ∀ w : UInt32, Settings.shiftRight w.toNat (32 - size) =
      ((w.toNat / 2 ^ (32 - size) : Nat) : Int) := by
    intro w
    have hpos : (0 : Int) ≤ 32 - size := by omega
    have hnat : ((32 : Int) - size).toNat = 32 - size := by omega
    rw [Settings.shiftRight, if_pos hpos, hnat]
    push_cast
    rfl
  rw [Settings.trusts, decide_eq_true_iff]
  simp only [Settings.number]
  rw [hshift, hshift, Int.ofNat_inj]
  exact shifted_eq_iff sender.toNat_lt left.toNat_lt hsize

theorem trusts_localhost (x : InAddr) :
    Settings.trusts x.ntohl localhost = true ↔ x = ⟨127, 0, 0, 1⟩ := by
  have hshift : ∀ n : Int, Settings.shiftRight n (32 - 32) = n := fun n => Int.ediv_one n
  have hword : (2130706433 : Int) = ((⟨127, 0, 0, 1⟩ : InAddr).ntohl.toNat : Int) := by decide
  rw [localhost, Settings.trusts, decide_eq_true_iff]
  simp only [Settings.number]
  rw [hshift, hshift, hword, Int.ofNat_inj]
  constructor
  · intro h
    obtain ⟨a, b, c, d⟩ := x
    obtain ⟨rfl, rfl, rfl, rfl⟩ := pack_inj (UInt32.toNat.inj h)
    rfl
  · intro h
    rw [h]

theorem trusts_rowOf (x : InAddr) {p : Spec} (hsmall : p.size < 2 ^ 32) (h : scanned p.size ≤ 31) :
    Settings.trusts x.ntohl (rowOf p) = true ↔ Covers p x := by
  have hle : (scanned p.size).toNat ≤ 31 := h
  rw [scanned_toNat hsmall] at hle
  rw [rowOf, trustRow, scanned_toNat hsmall, trusts_iff _ _ (by omega)]
  refine forall₂_congr fun i hi => ?_
  have hbit : i < 32 := by omega
  exact ⟨fun heq _ => heq, fun heq => heq hbit⟩

/-- The number of rows that match the client. -/
def matching (past : List Trust) (x : InAddr) : Nat :=
  (after past .trustedhosts).countP (Settings.trusts x.ntohl)

/-- The rows that match the client are those of the specs that stand and cover it, and for
127.0.0.1 the one of init.sql. -/
theorem mem_matching (hfit : SizesFit past) (x : InAddr) (row : Row) :
    row ∈ (after past .trustedhosts).filter (Settings.trusts x.ntohl) ↔
      row ∈ rowOf '' {p | Stands p past ∧ Covers p x} ∪ {r | r = localhost ∧ x = ⟨127, 0, 0, 1⟩} := by
  rw [List.mem_filter, mem_after hfit]
  constructor
  · rintro ⟨rfl | ⟨p, hp, rfl⟩, htrusts⟩
    · exact .inr ⟨rfl, (trusts_localhost x).mp htrusts⟩
    · exact .inl ⟨p, ⟨hp, (trusts_rowOf x (hp.small hfit) hp.accepted).mp htrusts⟩, rfl⟩
  · rintro (⟨p, ⟨hp, hcovers⟩, rfl⟩ | ⟨rfl, hlocal⟩)
    · exact ⟨.inr ⟨p, hp, rfl⟩, (trusts_rowOf x (hp.small hfit) hp.accepted).mpr hcovers⟩
    · exact ⟨.inl rfl, (trusts_localhost x).mpr hlocal⟩

theorem nodup_after (past : List Trust) : (after past .trustedhosts).Nodup := by
  obtain ⟨c, hm⟩ := after_models past
  exact hm.sets.trustedhosts

/-- One row for each spec: the table is a set, and no two specs have one row. -/
theorem matching_eq (hfit : SizesFit past) (x : InAddr) : matching past x = covering past x := by
  let rows := (after past .trustedhosts).filter (Settings.trusts x.ntohl)
  let specs := {p | Stands p past ∧ Covers p x}
  let own : Set Row := {r | r = localhost ∧ x = ⟨127, 0, 0, 1⟩}
  have hrows : (rows.toFinset : Set Row) = rowOf '' specs ∪ own := by
    ext row
    rw [List.coe_toFinset]
    exact mem_matching hfit x row
  have hfinite : (rowOf '' specs ∪ own).Finite := hrows ▸ rows.toFinset.finite_toSet
  have hdisjoint : Disjoint (rowOf '' specs) own := by
    rw [Set.disjoint_left]
    rintro _ ⟨p, ⟨hp, -⟩, rfl⟩ ⟨hlocal, -⟩
    exact rowOf_ne_localhost hp.accepted hlocal
  have hinj : Set.InjOn rowOf specs := fun p hp q hq =>
    rowOf_inj (hp.1.small hfit) (hq.1.small hfit)
  have hown : own.ncard = if x = ⟨127, 0, 0, 1⟩ then 1 else 0 := by
    split_ifs with hlocal
    · have hone : own = {localhost} := Set.ext fun r => and_iff_left hlocal
      rw [hone, Set.ncard_singleton]
    · have hnone : own = ∅ := Set.ext fun r => iff_of_false (fun h => hlocal h.2) id
      rw [hnone, Set.ncard_empty]
  calc matching past x = rows.length := List.countP_eq_length_filter
    _ = rows.toFinset.card := (List.toFinset_card_of_nodup ((nodup_after past).filter _)).symm
    _ = (rowOf '' specs ∪ own).ncard := by rw [← hrows, Set.ncard_coe_finset]
    _ = (rowOf '' specs).ncard + own.ncard :=
      Set.ncard_union_eq hdisjoint (hfinite.subset Set.subset_union_left)
        (hfinite.subset Set.subset_union_right)
    _ = covering past x := by rw [hinj.ncard_image, hown, covering]

theorem covering_pos (hfit : SizesFit past) (x : InAddr) :
    0 < covering past x ↔ x = ⟨127, 0, 0, 1⟩ ∨ ∃ p, Stands p past ∧ Covers p x := by
  rw [← matching_eq hfit, matching, List.countP_eq_length_filter, List.length_pos_iff_exists_mem]
  simp only [mem_matching hfit]
  constructor
  · rintro ⟨_, ⟨p, hp, rfl⟩ | ⟨rfl, hlocal⟩⟩
    · exact .inr ⟨p, hp⟩
    · exact .inl hlocal
  · rintro (hlocal | ⟨p, hp⟩)
    · exact ⟨localhost, .inr ⟨rfl, hlocal⟩⟩
    · exact ⟨rowOf p, .inl ⟨p, hp, rfl⟩⟩

/-- A command adds one row at most. -/
theorem length_after (past : List Trust) : (after past .trustedhosts).length ≤ past.length + 1 := by
  induction past with
  | nil => exact Nat.le_refl 1
  | cons t past ih =>
    by_cases hdone : Done t past
    · have hsub : after (t :: past) .trustedhosts ⊆ rowOf t.spec :: after past .trustedhosts := by
        intro row hrow
        have hrow := ((done_rows hdone).2 row).mp hrow
        split_ifs at hrow
        · exact List.mem_cons.mpr hrow
        · exact List.mem_cons_of_mem _ hrow.1
      have hle := ((nodup_after (t :: past)).subperm hsub).length_le
      rw [List.length_cons] at hle ⊢
      omega
    · rw [not_done hdone, List.length_cons]
      omega

theorem covering_le (hfit : SizesFit past) (x : InAddr) : covering past x ≤ past.length + 1 := by
  rw [← matching_eq hfit]
  exact List.countP_le_length.trans (length_after past)

/-- The count is read as an int. -/
theorem testtrusted_iff (hfit : SizesFit past) (x : InAddr) :
    Settings.testtrusted (after past .trustedhosts) x.ntohl = true ↔ ¬ 2 ^ 32 ∣ covering past x := by
  have hzero : getint (matching past x) = 0 ↔ 2 ^ 32 ∣ matching past x := by
    rw [getint, ← Int.dvd_iff_bmod_eq_zero]
    exact Int.natCast_dvd_natCast
  rw [Settings.testtrusted, decide_eq_true_iff, ne_eq, ← matching_eq hfit]
  exact not_congr hzero

theorem exactPrefix_iff_dvd (hfit : SizesFit past) (x : InAddr) :
    ExactPrefix past x ↔ (2 ^ 32 ∣ covering past x → covering past x = 0) := by
  rw [ExactPrefix, testtrusted_iff hfit, ← covering_pos hfit]
  constructor
  · intro h hdvd
    by_contra hne
    exact h.mpr (Nat.pos_of_ne_zero hne) hdvd
  · intro h
    constructor
    · intro hdvd
      exact Nat.pos_of_ne_zero fun hzero => hdvd (hzero ▸ Nat.dvd_zero _)
    · intro hpos hdvd
      exact hpos.ne' (h hdvd)

/-- Where no size is beyond what `%u` can hold, the client is trusted just where it should be,
unless the number of specs that cover it becomes 0 as an int. There is at most one more of them
than there were commands. -/
theorem exactPrefix_iff (hfit : SizesFit past) (x : InAddr) :
    (ExactPrefix past x ↔ ¬ (0 < covering past x ∧ 2 ^ 32 ∣ covering past x)) ∧
      covering past x ≤ past.length + 1 := by
  refine ⟨?_, covering_le hfit x⟩
  rw [exactPrefix_iff_dvd hfit, not_and', Nat.pos_iff_ne_zero]
  exact forall_congr' fun _ => not_not.symm

/-- So it is after fewer commands than an unsigned int can count. -/
theorem exactPrefix_of_short (hfit : SizesFit past) (hshort : past.length + 1 < 2 ^ 32) (x : InAddr) :
    ExactPrefix past x := by
  rw [exactPrefix_iff_dvd hfit]
  intro hdvd
  exact Nat.eq_zero_of_dvd_of_lt hdvd ((covering_le hfit x).trans_lt hshort)

theorem plain_zero : Plain (text "0") 0 := ⟨by decide +kernel, by decide +kernel, by decide +kernel⟩

theorem plain_ten : Plain (text "10") 10 :=
  ⟨by decide +kernel, by decide +kernel, by decide +kernel⟩

/-- `trust add 10.0.0.0/8` -/
def net : Trust where
  adds := true
  spec := ⟨10, 0, 0, 0, 8⟩
  line := netLine
  spelt := ⟨text "10", text "0", text "0", text "0", text "8", by decide +kernel, plain_ten,
    plain_zero, plain_zero, plain_zero, ⟨by decide +kernel, by decide +kernel, by decide +kernel⟩⟩
  faults _ := false

theorem exactPrefix_net : ExactPrefix [net] ⟨10, 1, 2, 3⟩ := by
  have hfit : SizesFit [net] := ⟨fun _ => by decide, trivial⟩
  obtain ⟨hiff, hle⟩ := exactPrefix_iff hfit ⟨10, 1, 2, 3⟩
  refine hiff.mpr fun ⟨hpos, hdvd⟩ => ?_
  have hlarge := Nat.le_of_dvd hpos hdvd
  rw [List.length_singleton] at hle
  omega

/-- `trust add 10.0.0.0/4294967301`, whose size is scanned as 5 -/
def wide : Trust where
  adds := true
  spec := ⟨10, 0, 0, 0, 4294967301⟩
  line := ⟨text "10.0.0.0/4294967301", by decide +kernel⟩
  spelt := ⟨text "10", text "0", text "0", text "0", text "4294967301", by decide +kernel, plain_ten,
    plain_zero, plain_zero, plain_zero, ⟨by decide +kernel, by decide +kernel, by decide +kernel⟩⟩
  faults _ := false

/-- It makes a trusted host of 15.0.0.0, of which it shares the first 5 bits only. -/
theorem wide_trusted : ¬ ExactPrefix [wide] ⟨15, 0, 0, 0⟩ := by
  intro h
  have htrusted : Settings.testtrusted (after [wide] .trustedhosts)
      (⟨15, 0, 0, 0⟩ : InAddr).ntohl = true := by
    decide +kernel
  obtain hlocal | ⟨p, ⟨-, -, rfl⟩ | ⟨hp, -⟩, hcovers⟩ := h.mp htrusted
  · exact absurd hlocal (by decide)
  · exact absurd (hcovers 5 (by decide) (by decide)) (by decide)
  · exact hp

end TrustedHosts

end Spey
