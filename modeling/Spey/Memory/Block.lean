import Mathlib.Data.List.Basic

/-!
# Arrays with checked accesses

A block is an array of a fixed number of cells, which are indeterminate until
they are written. An access outside the block, or a load from an indeterminate
cell, is a fault. A program that fills a block from its front is followed by
`Holds`, which gives the whole contents: what was stored, and nothing behind it.
`walk`, `cstring` and `tally` are the loops over a terminated string in a block.
-/

namespace Memory

variable {α : Type} {size : Nat}

inductive Fault where
  | outOfBounds
  | indeterminate
  deriving DecidableEq, Repr

abbrev Checked := Except Fault

structure Block (α : Type) (size : Nat) where
  cells : List (Option α)
  length_cells : cells.length = size

namespace Block

/-- A block on the stack, before anything is written to it. -/
def fresh (α : Type) (size : Nat) : Block α size :=
  ⟨List.replicate size none, List.length_replicate⟩

def ofList (xs : List α) : Block α xs.length := ⟨xs.map some, List.length_map _⟩

def load (b : Block α size) (i : Nat) : Checked α :=
  match b.cells[i]? with
  | none => .error .outOfBounds
  | some none => .error .indeterminate
  | some (some x) => .ok x

def store (b : Block α size) (i : Nat) (x : α) : Checked (Block α size) :=
  if i < size then .ok ⟨b.cells.set i (some x), by rw [List.length_set, b.length_cells]⟩
  else .error .outOfBounds

/-- The block holds `xs` from its front, and nothing was written behind it. -/
structure Holds (b : Block α size) (xs : List α) : Prop where
  fits : xs.length ≤ size
  cells : b.cells = xs.map some ++ List.replicate (size - xs.length) none

variable {b : Block α size} {xs : List α}

theorem Holds.load (hb : b.Holds xs) {i : Nat} (hi : i < xs.length) : b.load i = .ok xs[i] := by
  have hcell : b.cells[i]? = some (some xs[i]) := by
    rw [hb.cells, List.getElem?_append_left (by rwa [List.length_map]), List.getElem?_map,
      List.getElem?_eq_getElem hi, Option.map_some]
  rw [Block.load, hcell]

/-- A store right behind what the block holds. -/
theorem Holds.store (hb : b.Holds xs) (hroom : xs.length < size) (x : α) :
    ∃ b', b.store xs.length x = .ok b' ∧ b'.Holds (xs ++ [x]) := by
  refine ⟨_, if_pos hroom, ?_, ?_⟩
  · rw [List.length_append, List.length_singleton]
    exact hroom
  · obtain ⟨n, hn⟩ : ∃ n, size - xs.length = n + 1 := ⟨size - xs.length - 1, by omega⟩
    have hn' : size - (xs ++ [x]).length = n := by
      rw [List.length_append, List.length_singleton]
      omega
    have hlen : xs.length = (xs.map some).length := (List.length_map _).symm
    show b.cells.set xs.length (some x) = _
    rw [hb.cells, hn, hn', List.replicate_succ, hlen, List.set_append_right _ _ (Nat.le_refl _),
      Nat.sub_self, List.set_cons_zero, List.map_append, List.append_assoc]
    rfl

/-- `*q++ = x` for each of the elements, from the index `q` on. -/
def storeAll (b : Block α size) (q : Nat) : List α → Checked (Block α size)
  | [] => .ok b
  | x :: xs => do
      let b ← b.store q x
      b.storeAll (q + 1) xs

theorem Holds.storeAll (hb : b.Holds xs) {ys : List α} (hroom : xs.length + ys.length ≤ size) :
    ∃ b', b.storeAll xs.length ys = .ok b' ∧ b'.Holds (xs ++ ys) := by
  induction ys generalizing b xs with
  | nil => exact ⟨b, rfl, by rwa [List.append_nil]⟩
  | cons y ys ih =>
    rw [List.length_cons] at hroom
    obtain ⟨b₁, hstore, hb₁⟩ := hb.store (by omega) y
    have hlen : (xs ++ [y]).length = xs.length + 1 := by simp
    obtain ⟨b₂, hrest, hb₂⟩ := ih hb₁ (by omega)
    rw [hlen] at hrest
    refine ⟨b₂, ?_, by rwa [List.append_assoc, List.singleton_append] at hb₂⟩
    rw [Block.storeAll, hstore]
    exact hrest

/-- One cell of what the block holds, and the rest behind it. -/
theorem Holds.front {front rest : List α} {c : α} (hb : b.Holds (front ++ c :: rest)) :
    front.length < size ∧ b.load front.length = .ok c ∧ b.Holds ((front ++ [c]) ++ rest) := by
  have hi : front.length < (front ++ c :: rest).length := by simp
  refine ⟨Nat.lt_of_lt_of_le hi hb.fits, ?_, ?_⟩
  · rw [hb.load hi]
    simp
  · rwa [List.append_assoc, List.singleton_append]

/-! ## Terminated strings -/

section
variable [DecidableEq α] (z : α)

/-- `while (*p++) ;` from the index `i`, with the terminator `z`. -/
def walk (b : Block α size) (i : Nat) : Checked Nat :=
  if i < size then do
    let c ← b.load i
    if c = z then return i + 1 else b.walk (i + 1)
  else .error .outOfBounds
  termination_by size - i

/-- The string that begins at the index `i`, read up to its terminator. -/
def cstring (b : Block α size) (i : Nat) : Checked (List α) :=
  if i < size then do
    let c ← b.load i
    if c = z then return []
    else
      let s ← b.cstring (i + 1)
      return c :: s
  else .error .outOfBounds
  termination_by size - i

/-- How many of the first `len` cells contain `z`, counted from the index `i` on. -/
def tally (b : Block α size) (len i : Nat) : Checked Nat :=
  if i < len then do
    let c ← b.load i
    let n ← b.tally len (i + 1)
    return (if c = z then n + 1 else n)
  else .ok 0
  termination_by len - i

variable {z}

/-- The walk from the front of a string ends behind its terminator. -/
theorem Holds.walk {front w rest : List α} (hb : b.Holds (front ++ (w ++ z :: rest))) (hw : z ∉ w) :
    b.walk z front.length = .ok (front.length + w.length + 1) := by
  induction w generalizing front with
  | nil =>
    obtain ⟨hsize, hload, -⟩ := hb.front
    rw [Block.walk, if_pos hsize, hload]
    exact if_pos rfl
  | cons c w ih =>
    rw [List.mem_cons, not_or] at hw
    obtain ⟨hsize, hload, hnext⟩ := hb.front
    have hrest := ih hnext hw.2
    rw [List.length_append, List.length_singleton] at hrest
    rw [Block.walk, if_pos hsize, hload, List.length_cons, Nat.add_comm w.length 1, ← Nat.add_assoc,
      ← hrest]
    exact if_neg (Ne.symm hw.1)

theorem Holds.cstring {front w rest : List α} (hb : b.Holds (front ++ (w ++ z :: rest)))
    (hw : z ∉ w) : b.cstring z front.length = .ok w := by
  induction w generalizing front with
  | nil =>
    obtain ⟨hsize, hload, -⟩ := hb.front
    rw [Block.cstring, if_pos hsize, hload]
    exact if_pos rfl
  | cons c w ih =>
    rw [List.mem_cons, not_or] at hw
    obtain ⟨hsize, hload, hnext⟩ := hb.front
    have hrest := ih hnext hw.2
    rw [List.length_append, List.length_singleton] at hrest
    rw [Block.cstring, if_pos hsize, hload, hrest]
    exact if_neg (Ne.symm hw.1)

theorem Holds.tally {front w rest : List α} (hb : b.Holds (front ++ (w ++ rest))) :
    b.tally z (front.length + w.length) front.length = .ok (w.count z) := by
  induction w generalizing front with
  | nil => rw [Block.tally, if_neg (by simp), List.count_nil]
  | cons c w ih =>
    obtain ⟨-, hload, hnext⟩ := hb.front
    have hlen : front.length < front.length + (c :: w).length := by simp
    have hrest := ih hnext
    rw [List.length_append, List.length_singleton, Nat.add_assoc, Nat.add_comm 1] at hrest
    rw [Block.tally, if_pos hlen, hload, List.length_cons, hrest, List.count_cons]
    show Except.ok (if c = z then w.count z + 1 else w.count z) = _
    by_cases hz : c = z
    · simp [hz]
    · simp [hz]

end

end Block

end Memory
