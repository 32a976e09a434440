import Spey.Decimal
import Spey.Speyctl.Atomicity

/-!
# The specs of trusted hosts

What `sscanf` reads of the text `A.B.C.D/N`, with its numbers in plain decimal, and
the word that `cmd_trust` packs the octets into.
-/

namespace Spey.Speyctl

/-- What `%u` makes of a number: strtoul(3) stops at its maximum, and the upper half is lost. -/
def scanned (n : Nat) : UInt32 := UInt32.ofNat (if 2 ^ 64 ≤ n then 2 ^ 64 - 1 else n)

theorem scanned_toNat {n : Nat} (h : n < 2 ^ 32) : (scanned n).toNat = n := by
  rw [scanned, if_neg (by omega)]
  exact UInt32.toNat_ofNat_of_lt' h

theorem isdigit_sign {c : Byte} (h : isdigit c = true) :
    isspace c = false ∧ c ≠ byte '-' ∧ c ≠ byte '+' := by
  unfold isdigit byte at h
  unfold isspace SP byte
  grind

theorem strtoul_plain {s rest : Bytes} {n : Nat} (h : Plain s n)
    (hrest : ∀ c ∈ rest.head?, isdigit c = false) :
    strtoul (s ++ rest) = some (if 2 ^ 64 ≤ n then 2 ^ 64 - 1 else n, rest) := by
  obtain ⟨c, t, rfl⟩ := List.exists_cons_of_ne_nil h.ne
  obtain ⟨hspace, hminus, hplus⟩ := isdigit_sign (h.digits c List.mem_cons_self)
  have hblank : ((c :: t) ++ rest).dropWhile isspace = (c :: t) ++ rest :=
    List.dropWhile_cons_of_neg (by rw [hspace]; decide)
  have htail : rest.takeWhile isdigit = [] ∧ rest.dropWhile isdigit = rest := by
    cases rest with
    | nil => exact ⟨rfl, rfl⟩
    | cons d rest =>
      have hd : ¬ isdigit d = true := by
        rw [hrest d rfl]
        decide
      exact ⟨List.takeWhile_cons_of_neg hd, List.dropWhile_cons_of_neg hd⟩
  have hdigits : ((c :: t) ++ rest).takeWhile isdigit = c :: t := by
    rw [List.takeWhile_append_of_pos h.digits, htail.1, List.append_nil]
  have hafter : ((c :: t) ++ rest).dropWhile isdigit = rest := by
    rw [List.dropWhile_append_of_pos h.digits, htail.2]
  have hhead : ((c :: t) ++ rest).head? = some c := rfl
  have hm : some c ≠ some (byte '-') := fun he => hminus (Option.some.inj he)
  have hp : some c ≠ some (byte '+') := fun he => hplus (Option.some.inj he)
  unfold strtoul
  dsimp only
  rw [hblank, hhead, if_neg (not_or.mpr ⟨hm, hp⟩), hdigits, if_neg (List.cons_ne_nil c t), hafter,
    h.value]
  simp only [hm, if_false]

theorem strtoul_all {s : Bytes} {n : Nat} (h : Plain s n) :
    strtoul s = some (if 2 ^ 64 ≤ n then 2 ^ 64 - 1 else n, []) := by
  have hend : ∀ c ∈ ([] : Bytes).head?, isdigit c = false := by simp
  have hread := strtoul_plain h hend
  rwa [List.append_nil] at hread

theorem scan_u_plain {s rest : Bytes} {n : Nat} (h : Plain s n)
    (hrest : ∀ c ∈ rest.head?, isdigit c = false) : scan_u (s ++ rest) = some (scanned n, rest) := by
  rw [scan_u, strtoul_plain h hrest]
  rfl

/-- An address with the size of a net. -/
structure Spec where
  a : UInt8
  b : UInt8
  c : UInt8
  d : UInt8
  size : Nat
  deriving DecidableEq

/-- The string is the text of the spec, its numbers in plain decimal. -/
def Spec.Spelt (p : Spec) (s : Bytes) : Prop :=
  ∃ a b c d n, s = a ++ byte '.' :: (b ++ byte '.' :: (c ++ byte '.' :: (d ++ byte '/' :: n))) ∧
    Plain a p.a.toNat ∧ Plain b p.b.toNat ∧ Plain c p.c.toNat ∧ Plain d p.d.toNat ∧ Plain n p.size

/-- Octets in a word. -/
def pack (b1 b2 b3 b4 : UInt32) : UInt32 := (b1 <<< 24) ||| (b2 <<< 16) ||| (b3 <<< 8) ||| b4

def Spec.left (p : Spec) : UInt32 := pack p.a.toUInt32 p.b.toUInt32 p.c.toUInt32 p.d.toUInt32

theorem scan_address_spelt {p : Spec} {s : Bytes} (h : p.Spelt s) : scan_address s =
    some (p.a.toUInt32, p.b.toUInt32, p.c.toUInt32, p.d.toUInt32, scanned p.size, s.length) := by
  obtain ⟨a, b, c, d, n, rfl, ha, hb, hc, hd, hn⟩ := h
  have hoctet : ∀ o : UInt8, scanned o.toNat = o.toUInt32 := by
    intro o
    have hlt := o.toNat_lt
    apply UInt32.toNat.inj
    rw [scanned_toNat (by omega), UInt8.toNat_toUInt32]
  -- a number is read up to the literal behind it, and the literal is dropped
  have hpart : ∀ {t : Bytes} {o : UInt8} (x : Char) (rest : Bytes), Plain t o.toNat →
      isdigit (byte x) = false →
      scan_u (t ++ byte x :: rest) = some (o.toUInt32, byte x :: rest) := by
    intro t o x rest ht hx
    rw [← hoctet o]
    exact scan_u_plain ht fun y hy => Option.some.inj hy ▸ hx
  have hliteral : ∀ (x : Char) (rest : Bytes), scan_literal x (byte x :: rest) = some rest :=
    fun x rest => if_pos rfl
  have hlast : scan_u n = some (scanned p.size, []) := by
    rw [scan_u, strtoul_all hn]
    rfl
  simp only [scan_address, hpart '.' _ ha (by decide), hpart '.' _ hb (by decide),
    hpart '.' _ hc (by decide), hpart '/' _ hd (by decide), hliteral, hlast, Option.bind_eq_bind,
    Option.bind_some, List.length_nil, Nat.sub_zero]
  rfl

theorem Spec.Spelt.nul {p : Spec} {s : Bytes} (h : p.Spelt s) : 0 ∉ s := by
  obtain ⟨a, b, c, d, n, rfl, ha, hb, hc, hd, hn⟩ := h
  simp only [List.mem_append, List.mem_cons, not_or]
  have hpoint : (0 : Byte) ≠ byte '.' := by decide
  have hslash : (0 : Byte) ≠ byte '/' := by decide
  exact ⟨ha.nul, hpoint, hb.nul, hpoint, hc.nul, hpoint, hd.nul, hslash, hn.nul⟩

/-! ## Octets in a word -/

theorem shifted_octet (o : UInt8) {k : Nat} (h : k ≤ 24) :
    (o.toUInt32 <<< UInt32.ofNat k).toNat = 2 ^ k * o.toNat := by
  have ho := o.toNat_lt
  have hle : 2 ^ k ≤ 2 ^ 24 := Nat.pow_le_pow_right (by decide) h
  have hlt : 2 ^ k * o.toNat < 2 ^ 32 := calc
    2 ^ k * o.toNat ≤ 2 ^ 24 * o.toNat := Nat.mul_le_mul_right _ hle
    _ < 2 ^ 32 := by omega
  have hk : (UInt32.ofNat k).toNat = k := UInt32.toNat_ofNat_of_lt' (Nat.lt_of_le_of_lt h (by decide))
  rw [UInt32.toNat_shiftLeft, UInt8.toNat_toUInt32, hk, Nat.mod_eq_of_lt (b := 32) (by omega),
    Nat.shiftLeft_eq, Nat.mul_comm, Nat.mod_eq_of_lt hlt]

/-- The word has an octet in each of its bytes. -/
theorem pack_toNat (a b c d : UInt8) :
    (pack a.toUInt32 b.toUInt32 c.toUInt32 d.toUInt32).toNat =
      2 ^ 24 * a.toNat + 2 ^ 16 * b.toNat + 2 ^ 8 * c.toNat + d.toNat := by
  have hb := b.toNat_lt
  have hc := c.toNat_lt
  have hd := d.toNat_lt
  have h24 : (a.toUInt32 <<< 24).toNat = 2 ^ 24 * a.toNat := shifted_octet a (k := 24) (by decide)
  have h16 : (b.toUInt32 <<< 16).toNat = 2 ^ 16 * b.toNat := shifted_octet b (k := 16) (by decide)
  have h8 : (c.toUInt32 <<< 8).toNat = 2 ^ 8 * c.toNat := shifted_octet c (k := 8) (by decide)
  have hor₁ := Nat.two_pow_add_eq_or_of_lt (i := 24) (b := 2 ^ 16 * b.toNat) (by omega) a.toNat
  have hor₂ := Nat.two_pow_add_eq_or_of_lt (i := 16) (b := 2 ^ 8 * c.toNat) (by omega)
    (2 ^ 8 * a.toNat + b.toNat)
  have hor₃ := Nat.two_pow_add_eq_or_of_lt (i := 8) hd
    (2 ^ 16 * a.toNat + 2 ^ 8 * b.toNat + c.toNat)
  have hsum₁ : 2 ^ 24 * a.toNat + 2 ^ 16 * b.toNat = 2 ^ 16 * (2 ^ 8 * a.toNat + b.toNat) := by
    omega
  have hsum₂ : 2 ^ 16 * (2 ^ 8 * a.toNat + b.toNat) + 2 ^ 8 * c.toNat =
      2 ^ 8 * (2 ^ 16 * a.toNat + 2 ^ 8 * b.toNat + c.toNat) := by
    omega
  rw [pack, UInt32.toNat_or, UInt32.toNat_or, UInt32.toNat_or, h24, h16, h8, UInt8.toNat_toUInt32,
    ← hor₁, hsum₁, ← hor₂, hsum₂, ← hor₃]

theorem pack_inj {a b c d a' b' c' d' : UInt8}
    (h : pack a.toUInt32 b.toUInt32 c.toUInt32 d.toUInt32 =
      pack a'.toUInt32 b'.toUInt32 c'.toUInt32 d'.toUInt32) : a = a' ∧ b = b' ∧ c = c' ∧ d = d' := by
  have hword := congrArg UInt32.toNat h
  rw [pack_toNat, pack_toNat] at hword
  have hb := b.toNat_lt
  have hc := c.toNat_lt
  have hd := d.toNat_lt
  have hb' := b'.toNat_lt
  have hc' := c'.toNat_lt
  have hd' := d'.toNat_lt
  refine ⟨UInt8.toNat.inj ?_, UInt8.toNat.inj ?_, UInt8.toNat.inj ?_, UInt8.toNat.inj ?_⟩
  all_goals omega

/-! ## What `cmd_trust` accepts -/

theorem octets_in_range (a b c d : UInt8) :
    ¬ (0xFF < a.toUInt32 ||| b.toUInt32 ||| c.toUInt32 ||| d.toUInt32) := by
  have hor : ∀ {m n : Nat}, m < 2 ^ 8 → n < 2 ^ 8 → m ||| n < 2 ^ 8 := Nat.or_lt_two_pow
  have hlt : (a.toUInt32 ||| b.toUInt32 ||| c.toUInt32 ||| d.toUInt32).toNat < 2 ^ 8 := by
    simp only [UInt32.toNat_or, UInt8.toNat_toUInt32]
    exact hor (hor (hor a.toNat_lt b.toNat_lt) c.toNat_lt) d.toNat_lt
  rw [UInt32.lt_iff_toNat_lt]
  show ¬ 255 < _
  omega

/-- The octets fit always, and the size is looked at as it was scanned. -/
theorem trustSpec_spelt {p : Spec} {s : Bytes} (h : p.Spelt s) : trustSpec s =
    if 31 < scanned p.size then
      .error (.invocation (text "IP address size is out of range (0-31)"))
    else .ok (p.left, scanned p.size) := by
  rw [trustSpec, cstr_eq h.nul, scan_address_spelt h]
  dsimp only
  rw [if_neg (not_not.mpr rfl), if_neg (octets_in_range p.a p.b p.c p.d)]
  rfl

/-- What it accepts of any text has a size of at most 31. -/
theorem trustSpec_le {s : Bytes} {left right : UInt32} (h : trustSpec s = .ok (left, right)) :
    right ≤ 31 := by
  rw [trustSpec] at h
  cases hscan : scan_address (cstr s) with
  | none =>
    rw [hscan] at h
    cases h
  | some parts =>
    obtain ⟨b1, b2, b3, b4, size, tail⟩ := parts
    rw [hscan] at h
    dsimp only at h
    split_ifs at h with htail hsize hoctets
    cases h
    exact UInt32.not_lt.mp hsize

end Spey.Speyctl
