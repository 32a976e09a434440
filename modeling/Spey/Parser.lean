import Spey.Bytes

/-!
# Parser.cc

A parser is represented by what it has not read yet, `data[index..]`. A `none`
is a `ParseErrorException`.
-/

namespace Spey.Parser

open Spey

/-- `Parser::expect`: the given text, in any letter case. -/
def expect : Bytes → Bytes → Option Bytes
  | [], rest => some rest
  | _ :: _, [] => none
  | e :: es, c :: rest => if tolower c = tolower e then expect es rest else none

/-- `Parser::whitespace`: any number of spaces, but not up to the end. -/
def whitespace : Bytes → Option Bytes
  | [] => none
  | c :: rest => if c = SP then whitespace rest else some (c :: rest)

/-- `Parser::peek`: 0 at the end. -/
def peek : Bytes → Byte
  | [] => 0
  | c :: _ => c

/-- `Parser::getword`: up to the delimiter or the end, the bytes mapped by the
predicate; then the unread rest, the delimiter included. -/
def getword (predicate : Byte → Byte) (delimiter : Byte) : Bytes → Bytes × Bytes
  | [] => ([], [])
  | c :: rest =>
      if c = delimiter then ([], c :: rest)
      else (predicate c :: (getword predicate delimiter rest).1, (getword predicate delimiter rest).2)

/-- `Parser::eol`: nothing but spaces up to the end. -/
def eol : Bytes → Option Unit
  | [] => some ()
  | c :: rest => if c = SP then eol rest else none

variable {f : Byte → Byte} {d : Byte}

/-- What `getword` returns stands in front of what it leaves, mapped, and
without the delimiter; the rest is empty or starts with the delimiter. -/
theorem getword_spec (f : Byte → Byte) (d : Byte) (p : Bytes) :
    ∃ w, p = w ++ (getword f d p).2 ∧ (getword f d p).1 = w.map f ∧ d ∉ w ∧
      ((getword f d p).2 = [] ∨ ∃ rest, (getword f d p).2 = d :: rest) := by
  induction p with
  | nil => exact ⟨[], by simp [getword]⟩
  | cons c rest ih =>
    by_cases hc : c = d
    · exact ⟨[], by simp [getword, hc]⟩
    · obtain ⟨w, hw, hm, hd, hr⟩ := ih
      refine ⟨c :: w, ?_, ?_, ?_, ?_⟩
      · simp only [getword, hc, ↓reduceIte, List.cons_append, List.cons.injEq, true_and]
        exact hw
      · simp only [getword, hc, ↓reduceIte, List.map_cons, hm]
      · simp only [List.mem_cons, not_or]
        exact ⟨fun h => hc h.symm, hd⟩
      · simpa only [getword, hc, ↓reduceIte] using hr

/-- Reading on from a word without the delimiter, up to a delimiter. -/
theorem getword_append {w : Bytes} (hw : d ∉ w) (rest : Bytes) :
    getword f d (w ++ d :: rest) = (w.map f, d :: rest) := by
  induction w with
  | nil => simp [getword]
  | cons c w ih =>
    simp only [List.mem_cons, not_or] at hw
    simp [getword, Ne.symm hw.1, ih hw.2]

/-- Reading on from a word without the delimiter, up to the end. -/
theorem getword_all {w : Bytes} (hw : d ∉ w) : getword f d w = (w.map f, []) := by
  induction w with
  | nil => rfl
  | cons c w ih =>
    simp only [List.mem_cons, not_or] at hw
    simp [getword, Ne.symm hw.1, ih hw.2]

theorem expect_append (e rest : Bytes) : expect e (e ++ rest) = some rest := by
  induction e with
  | nil => rfl
  | cons c e ih => simp [expect, ih]

theorem expect_sublist {e p rest : Bytes} (h : expect e p = some rest) : rest.Sublist p := by
  induction e generalizing p with
  | nil =>
    obtain rfl := Option.some.inj h
    exact List.Sublist.refl _
  | cons c e ih =>
    cases p with
    | nil => cases h
    | cons x p =>
      unfold expect at h
      split_ifs at h
      exact (ih h).trans (List.sublist_cons_self x p)

/-- `whitespace` leaves the first byte that is not a space. -/
theorem whitespace_spec {p rest : Bytes} (h : whitespace p = some rest) :
    rest.Sublist p ∧ ∃ c tail, rest = c :: tail ∧ c ≠ SP := by
  induction p with
  | nil => cases h
  | cons c p ih =>
    by_cases hc : c = SP
    · rw [whitespace, if_pos hc] at h
      exact ⟨(ih h).1.trans (List.sublist_cons_self c p), (ih h).2⟩
    · rw [whitespace, if_neg hc] at h
      obtain rfl := Option.some.inj h
      exact ⟨List.Sublist.refl _, c, p, rfl, hc⟩

theorem whitespace_sublist {p rest : Bytes} (h : whitespace p = some rest) : rest.Sublist p :=
  (whitespace_spec h).1

/-- The word after a `whitespace` is not empty. -/
theorem word_of_whitespace (f : Byte → Byte) {p q : Bytes} (h : whitespace p = some q) :
    ∃ w : Bytes, w.Sublist p ∧ w ≠ [] ∧ SP ∉ w ∧ (getword f SP q).1 = w.map f ∧
      (getword f SP q).2.Sublist p := by
  obtain ⟨hsub, c, tail, rfl, hc⟩ := whitespace_spec h
  obtain ⟨w, hw, hmap, hsp, -⟩ := getword_spec f SP (c :: tail)
  refine ⟨w, ?_, ?_, hsp, hmap, ?_⟩
  · refine List.Sublist.trans ?_ hsub
    rw [hw]
    exact List.sublist_append_left w _
  · rintro rfl
    rw [getword, if_neg hc] at hmap
    cases hmap
  · refine List.Sublist.trans ?_ hsub
    conv_rhs => rw [hw]
    exact List.sublist_append_right w _

theorem whitespace_cons {c : Byte} (hc : c ≠ SP) (p : Bytes) :
    whitespace (c :: p) = some (c :: p) := by
  simp [whitespace, hc]

end Spey.Parser
