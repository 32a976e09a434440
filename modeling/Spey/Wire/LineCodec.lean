import Spey.Wire.Lines

/-!
# The line codec

What `writeline` emits for a number of lines is read back as these lines, and a
text with line feeds in it goes out as its parts would one by one. Reading a
stream and writing its lines again leaves a stream whose line ends are all CR LF,
with the same lines.
-/

namespace Spey.Socket

/-- `n` calls of `readline`, one after the other. -/
def readlines : Nat → Feed → Except ReadFailure (List Line) × Feed
  | 0, input => (.ok [], input)
  | n + 1, input =>
      match readline input with
      | (.error e, input) => (.error e, input)
      | (.ok l, input) =>
          match readlines n input with
          | (.error e, input) => (.error e, input)
          | (.ok ls, input) => (.ok (l :: ls), input)

/-- The lines of all calls of `readline` up to the one that fails. -/
def readAll (input : Feed) : List Line :=
  match _hl : readline input with
  | (.error _, _) => []
  | (.ok l, rest) => l :: readAll rest
  termination_by input.bytes.length
  decreasing_by exact readline_length _hl

/-- The lines, each given to `writeline`. -/
def writelines (ls : List Line) : Bytes := ls.flatMap fun l => writeline l.bytes

/-- Every LF has exactly one CR in front of it, and no CR stands elsewhere. -/
structure LineEnds (p : Bytes) : Prop where
  lf : ∀ s t, p = s ++ LF :: t → ∃ s', s = s' ++ [CR] ∧ s'.getLast? ≠ some CR
  cr : ∀ s t, p = s ++ CR :: t → ∃ t', t = LF :: t'

/-! ## Reading what was written -/

theorem writelines_cons (l : Line) (ls : List Line) :
    writelines (l :: ls) = l.bytes ++ [CR, LF] ++ writelines ls := by
  rw [writelines, List.flatMap_cons, writeline_oneLine l.oneLine, writelines]

/-- The first line of a written stream is read, and the others are left. -/
theorem readline_writelines (l : Line) (ls : List Line) (rest : Bytes) (ending : ReadFailure) :
    readline ⟨writelines (l :: ls) ++ rest, ending⟩ = (.ok l, ⟨writelines ls ++ rest, ending⟩) := by
  rw [writelines_cons, List.append_assoc]
  exact readline_written l.oneLine _ ending

theorem readlines_writelines (ls : List Line) (rest : Bytes) (ending : ReadFailure) :
    readlines ls.length ⟨writelines ls ++ rest, ending⟩ = (.ok ls, ⟨rest, ending⟩) := by
  induction ls with
  | nil => rfl
  | cons l ls ih =>
    rw [List.length_cons, readlines, readline_writelines]
    dsimp only
    rw [ih]

theorem readAll_of_ok {input rest : Feed} {l : Line} (h : readline input = (.ok l, rest)) :
    readAll input = l :: readAll rest := by
  rw [readAll]
  split
  next e rest' he => cases h.symm.trans he
  next l' rest' he =>
    obtain ⟨hl, rfl⟩ := Prod.mk.inj (h.symm.trans he)
    obtain rfl := Except.ok.inj hl
    rfl

theorem readAll_of_error {input rest : Feed} {e : ReadFailure}
    (h : readline input = (.error e, rest)) : readAll input = [] := by
  rw [readAll]
  split
  next => rfl
  next l' rest' he => cases h.symm.trans he

theorem readAll_writelines (ls : List Line) (ending : ReadFailure) :
    readAll ⟨writelines ls, ending⟩ = ls := by
  induction ls with
  | nil => exact readAll_of_error (readline_end List.not_mem_nil ending)
  | cons l ls ih =>
    have hread := readline_writelines l ls [] ending
    rw [List.append_nil, List.append_nil] at hread
    rw [readAll_of_ok hread, ih]

/-- What `readAll` gives are the complete lines of the stream. -/
theorem readAll_lines (p : Bytes) (ending : ReadFailure) :
    (readAll ⟨p, ending⟩).map (·.bytes) = lines p := by
  by_cases hp : LF ∈ p
  · obtain ⟨a, p, rfl, ha⟩ := List.eq_append_cons_of_mem hp
    obtain ⟨l, hl, hread⟩ := readline_line ha p ending
    rw [readAll_of_ok hread, List.map_cons, hl, readAll_lines p ending, lines_cons ha]
  · rw [readAll_of_error (readline_end hp ending), lines_eq_nil.mpr hp]
    rfl
termination_by p.length

/-! ## Writing parts -/

/-- The parts of a text go out as they would in calls of their own. -/
theorem writeline_parts (l : Bytes) : writeline l = (l.splitOn LF).flatMap writeline := by
  by_cases hl : LF ∈ l
  · obtain ⟨a, l, rfl, ha⟩ := List.eq_append_cons_of_mem hl
    rw [List.splitOn_append_cons_self_of_not_mem ha, List.flatMap_cons, ← writeline_parts l]
    simp only [writeline, encode_append, encode, ↓reduceIte, List.append_assoc, List.cons_append,
      List.nil_append]
  · rw [List.splitOn_eq_singleton hl, List.flatMap_singleton]
termination_by l.length

/-! ## The line ends of a written stream -/

theorem LineEnds.nil : LineEnds [] :=
  ⟨fun s t h => absurd h.symm (List.append_ne_nil_of_right_ne_nil s (List.cons_ne_nil LF t)),
    fun s t h => absurd h.symm (List.append_ne_nil_of_right_ne_nil s (List.cons_ne_nil CR t))⟩

/-- A byte that is neither CR nor LF stands in front of nothing that counts. -/
theorem LineEnds.cons {c : Byte} {p : Bytes} (hc : c ≠ CR ∧ c ≠ LF) (h : LineEnds p) :
    LineEnds (c :: p) := by
  constructor
  · intro s t he
    cases s with
    | nil => exact absurd (List.cons.inj he).1 hc.2
    | cons d s =>
      obtain ⟨rfl, hp⟩ := List.cons.inj he
      obtain ⟨s', rfl, hlast⟩ := h.lf s t hp
      refine ⟨c :: s', rfl, ?_⟩
      cases s' with
      | nil => simpa using hc.1
      | cons d s' => rwa [List.getLast?_cons_cons]
  · intro s t he
    cases s with
    | nil => exact absurd (List.cons.inj he).1 hc.1
    | cons d s => exact h.cr s t (List.cons.inj he).2

theorem LineEnds.crlf {p : Bytes} (h : LineEnds p) : LineEnds (CR :: LF :: p) := by
  have hne : CR ≠ LF := by decide
  constructor
  · intro s t he
    cases s with
    | nil => exact absurd (List.cons.inj he).1 hne
    | cons d s =>
      obtain ⟨rfl, hp⟩ := List.cons.inj he
      cases s with
      | nil => exact ⟨[], rfl, nofun⟩
      | cons d s =>
        obtain ⟨rfl, htail⟩ := List.cons.inj hp
        obtain ⟨s', rfl, hlast⟩ := h.lf s t htail
        refine ⟨CR :: LF :: s', rfl, ?_⟩
        cases s' with
        | nil => simpa using hne.symm
        | cons d s' => rwa [List.getLast?_cons_cons, List.getLast?_cons_cons]
  · intro s t he
    cases s with
    | nil => exact ⟨p, (List.cons.inj he).2.symm⟩
    | cons d s =>
      cases s with
      | nil => exact absurd (List.cons.inj (List.cons.inj he).2).1 hne.symm
      | cons d s => exact h.cr s t (List.cons.inj (List.cons.inj he).2).2

theorem LineEnds.line {l p : Bytes} (hl : OneLine l) (h : LineEnds p) :
    LineEnds (l ++ [CR, LF] ++ p) := by
  induction l with
  | nil => exact h.crlf
  | cons c l ih =>
    obtain ⟨hc, hl⟩ := (oneLine_cons c l).mp hl
    exact (ih hl).cons hc

theorem writelines_lineEnds (ls : List Line) : LineEnds (writelines ls) := by
  induction ls with
  | nil => exact .nil
  | cons l ls ih =>
    rw [writelines_cons]
    exact ih.line l.oneLine

/-- The codec: lines come back as they were written and nothing more is read, the
parts of a text are lines of their own, and a stream that is read and written
again has the same lines and clean line ends. -/
theorem line_codec :
    (∀ (ls : List Line) (rest : Bytes) (ending : ReadFailure),
      readlines ls.length ⟨writelines ls ++ rest, ending⟩ = (.ok ls, ⟨rest, ending⟩)) ∧
    (∀ l : Bytes, writeline l = (l.splitOn LF).flatMap writeline) ∧
    (∀ (p : Bytes) (ending ending' : ReadFailure),
      readAll ⟨writelines (readAll ⟨p, ending⟩), ending'⟩ = readAll ⟨p, ending⟩ ∧
        LineEnds (writelines (readAll ⟨p, ending⟩))) :=
  ⟨readlines_writelines, writeline_parts, fun p ending ending' =>
    ⟨readAll_writelines (readAll ⟨p, ending⟩) ending', writelines_lineEnds (readAll ⟨p, ending⟩)⟩⟩

end Spey.Socket
