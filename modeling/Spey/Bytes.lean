import Mathlib.Algebra.Group.Int.Defs
import Mathlib.Algebra.Group.Nat.Defs
import Mathlib.Data.List.Basic
import Mathlib.Data.List.TakeWhile

/-!
# Byte strings

Strings are lists of bytes, as the C++ strings are: nothing is assumed about
their encoding. `text` and `byte` write the literals of the source as bytes. `OneLine` strings have
no CR and no LF; `Line` carries that as a field, since every line that comes off
a socket has it.
-/

namespace Spey

abbrev Byte := UInt8
abbrev Bytes := List Byte

def LF : Byte := 10
def CR : Byte := 13
def SP : Byte := 32

def text (s : String) : Bytes := s.toList.map fun c => UInt8.ofNat c.toNat

def byte (c : Char) : Byte := UInt8.ofNat c.toNat

/-- `s << n` on a stream: plain decimal, with a sign where it is negative. -/
def decimal (n : Int) : Bytes := text (toString n)

/-- tolower(3) in the C locale, on a byte passed through a signed char. -/
def tolower (c : Byte) : Byte := if byte 'A' ≤ c ∧ c ≤ byte 'Z' then c + 32 else c

def isdigit (c : Byte) : Bool := byte '0' ≤ c ∧ c ≤ byte '9'

/-- isspace(3) in the C locale, as the stream extractor `>>` skips it. -/
def isspace (c : Byte) : Bool := c = SP ∨ (9 ≤ c ∧ c ≤ 13)

/-- The number that a string starts with: blanks, a sign, and decimal digits up to the first
other byte. -/
def leadingNumber (s : Bytes) : Int :=
  let s := s.dropWhile isspace
  let digits (t : Bytes) : Int :=
    (t.takeWhile isdigit).foldl (fun n c => 10 * n + ((c.toNat : Int) - 48)) 0
  match s with
  | [] => 0
  | c :: t => if c = byte '-' then - digits t else if c = byte '+' then digits t else digits s

/-- strtol(3) in base 10: a `long` of 64 bits, the nearest one where the number is none. -/
def strtol (s : Bytes) : Int := max (-2 ^ 63) (min (leadingNumber s) (2 ^ 63 - 1))

/-- atoi(3): the low 32 bits of what strtol(3) returns, as an int. -/
def atoi (s : Bytes) : Int := (strtol s).bmod (2 ^ 32)

example : atoi (text " 30s") = 30 ∧ atoi (text "4294967296") = 0 := by decide

/-- An SQL integer as `getint` returns it: `atoi` of its decimal text. -/
def getint (value : Int) : Int := value.bmod (2 ^ 32)

theorem getint_eq {n : Int} (hl : -2 ^ 31 ≤ n) (hu : n < 2 ^ 31) : getint n = n := by
  rw [getint]
  apply Int.bmod_eq_of_le
  · omega
  · omega

/-- What stands before the first `c` of a string, and what begins with it. -/
theorem split_first {c : Byte} {s : Bytes} (h : c ∉ s) (t : Bytes) :
    (s ++ c :: t).takeWhile (· ≠ c) = s ∧ (s ++ c :: t).dropWhile (· ≠ c) = c :: t := by
  have hs : ∀ d ∈ s, decide (d ≠ c) = true := fun d hd => decide_eq_true fun he => h (he ▸ hd)
  constructor
  · rw [List.takeWhile_append_of_pos hs, List.takeWhile_cons_of_neg (by simp), List.append_nil]
  · rw [List.dropWhile_append_of_pos hs, List.dropWhile_cons_of_neg (by simp)]

/-- A byte string as C code sees it through `c_str()`: up to the first NUL. -/
def cstr (s : Bytes) : Bytes := s.takeWhile (· ≠ 0)

theorem cstr_eq {s : Bytes} (h : 0 ∉ s) : cstr s = s := by
  rw [cstr, List.takeWhile_eq_self_iff]
  intro c hc
  have hne : c ≠ 0 := fun he => h (he ▸ hc)
  simpa using hne

theorem cstr_nul {s : Bytes} (h : 0 ∉ s) (t : Bytes) : cstr (s ++ 0 :: t) = s :=
  (split_first h t).1

theorem zero_not_mem_cstr (s : Bytes) : 0 ∉ cstr s := fun h => by
  simpa using List.mem_takeWhile_imp h

/-- The words that `stream >> word` extracts, one after the other. -/
def words (s : Bytes) : List Bytes := (s.splitOnP isspace).filter (· ≠ [])

def OneLine (s : Bytes) : Prop := ∀ c ∈ s, c ≠ CR ∧ c ≠ LF

instance (s : Bytes) : Decidable (OneLine s) :=
  List.decidableBAll (fun c => c ≠ CR ∧ c ≠ LF) s

/-- A string that came off a socket as one line. -/
structure Line where
  bytes : Bytes
  oneLine : OneLine bytes
  deriving DecidableEq

theorem Line.eq_of_bytes {l l' : Line} (h : l.bytes = l'.bytes) : l = l' := by
  obtain ⟨b, hb⟩ := l
  obtain ⟨b', hb'⟩ := l'
  obtain rfl : b = b' := h
  rfl

theorem oneLine_nil : OneLine [] := by simp [OneLine]

@[simp] theorem oneLine_cons (c : Byte) (s : Bytes) :
    OneLine (c :: s) ↔ (c ≠ CR ∧ c ≠ LF) ∧ OneLine s := by
  simp [OneLine]

@[simp] theorem oneLine_append (s t : Bytes) : OneLine (s ++ t) ↔ OneLine s ∧ OneLine t := by
  simp only [OneLine, List.mem_append]
  exact ⟨fun h => ⟨fun c hc => h c (.inl hc), fun c hc => h c (.inr hc)⟩,
    fun h c hc => hc.elim (h.1 c) (h.2 c)⟩

theorem OneLine.sublist {s t : Bytes} (h : OneLine t) (hs : s.Sublist t) : OneLine s :=
  fun c hc => h c (hs.subset hc)

theorem tolower_tolower (c : Byte) : tolower (tolower c) = tolower c := by
  unfold tolower byte
  split <;> grind

/-- Only letters change, and they become letters. -/
theorem tolower_eq_of_not_lower {c d : Byte} (hd : d < byte 'A' ∨ byte 'z' < d) :
    tolower c = d ↔ c = d := by
  unfold tolower byte at *
  split <;> grind

theorem OneLine.map_tolower {s : Bytes} (h : OneLine s) : OneLine (s.map tolower) := by
  intro c hc
  obtain ⟨d, hd, rfl⟩ := List.mem_map.mp hc
  have hd' := h d hd
  refine ⟨fun he => hd'.1 ?_, fun he => hd'.2 ?_⟩
  · exact (tolower_eq_of_not_lower (by decide)).mp he
  · exact (tolower_eq_of_not_lower (by decide)).mp he

@[simp] theorem map_tolower_map_tolower (s : Bytes) :
    (s.map tolower).map tolower = s.map tolower := by
  rw [List.map_map]
  exact List.map_congr_left fun c _ => tolower_tolower c

end Spey
