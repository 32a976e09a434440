import Spey.Socket

/-!
# The lines of a byte stream

`readline` ends a line at each LF and drops every CR, so the lines of a stream
are what is left of it without CR, cut at LF. A peer that keeps to the standard
cuts at CR LF only. `Takes` is the reader's view, with the bytes it leaves.
-/

namespace Spey.Socket

def dropCR (s : Bytes) : Bytes := s.filter (· ≠ CR)

/-- The complete lines of a stream, in order. -/
def lines (p : Bytes) : List Bytes := ((dropCR p).splitOn LF).dropLast

/-- The first lines of a stream, with what follows the last of them. -/
inductive Takes : Bytes → List Bytes → Bytes → Prop
  | nil (p : Bytes) : Takes p [] p
  | cons {a p rest : Bytes} {ls : List Bytes} (ha : LF ∉ a) (hp : Takes p ls rest) :
      Takes (a ++ LF :: p) (dropCR a :: ls) rest

theorem oneLine_dropCR {a : Bytes} (ha : LF ∉ a) : OneLine (dropCR a) := by
  intro c hc
  obtain ⟨hmem, hcr⟩ := List.mem_filter.mp hc
  refine ⟨by simpa using hcr, ?_⟩
  rintro rfl
  exact ha hmem

theorem lf_not_mem_dropCR {a : Bytes} (ha : LF ∉ a) : LF ∉ dropCR a :=
  fun h => ha (List.mem_filter.mp h).1

theorem dropCR_line (a p : Bytes) : dropCR (a ++ LF :: p) = dropCR a ++ LF :: dropCR p := by
  rw [dropCR, List.filter_append, List.filter_cons_of_pos (by decide), dropCR, dropCR]

/-- Any beginning that ends with LF is a number of complete lines. -/
theorem lines_append (s q : Bytes) : lines (s ++ LF :: q) = (dropCR s).splitOn LF ++ lines q := by
  rw [lines, dropCR_line, List.splitOn_append_cons_self, lines,
    List.dropLast_append_of_ne_nil (List.splitOn_ne_nil _ _)]

theorem lines_cons {a : Bytes} (ha : LF ∉ a) (p : Bytes) :
    lines (a ++ LF :: p) = dropCR a :: lines p := by
  rw [lines_append, List.splitOn_eq_singleton (lf_not_mem_dropCR ha), List.singleton_append]

theorem lines_eq_nil {p : Bytes} : lines p = [] ↔ LF ∉ p := by
  constructor
  · intro h hmem
    obtain ⟨a, p', rfl, ha⟩ := List.eq_append_cons_of_mem hmem
    rw [lines_cons ha] at h
    cases h
  · intro h
    rw [lines, List.splitOn_eq_singleton (lf_not_mem_dropCR h)]
    rfl

namespace Takes

variable {p q rest rest' : Bytes} {ls ls' : List Bytes}

theorem of_cons {l : Bytes} (h : Takes p (l :: ls) rest) :
    ∃ a p', LF ∉ a ∧ dropCR a = l ∧ p = a ++ LF :: p' ∧ Takes p' ls rest := by
  cases h with
  | cons ha hp => exact ⟨_, _, ha, rfl, rfl, hp⟩

theorem append (h : Takes p ls rest) (h' : Takes rest ls' rest') : Takes p (ls ++ ls') rest' := by
  induction h with
  | nil p => exact h'
  | cons ha hp ih => exact .cons ha (ih h')

theorem lines_eq (h : Takes p ls rest) : lines p = ls ++ lines rest := by
  induction h with
  | nil p => rfl
  | cons ha hp ih => rw [lines_cons ha, ih, List.cons_append]

theorem oneLine (h : Takes p ls rest) : ∀ l ∈ ls, OneLine l := by
  induction h with
  | nil p => exact fun l hl => absurd hl List.not_mem_nil
  | cons ha hp ih =>
    intro l hl
    rcases List.mem_cons.mp hl with rfl | hl
    · exact oneLine_dropCR ha
    · exact ih l hl

/-- The bytes that were taken: complete lines, and nothing more. -/
theorem front (h : Takes p ls rest) : ∃ front, p = front ++ rest ∧ lines front = ls ∧
    (front = [] ∨ front.getLast? = some LF) := by
  induction h with
  | nil p => exact ⟨[], rfl, rfl, .inl rfl⟩
  | @cons a p rest ls ha hp ih =>
    obtain ⟨front, rfl, rfl, hfront⟩ := ih
    refine ⟨a ++ LF :: front, ?_, lines_cons ha front, .inr ?_⟩
    · rw [List.append_assoc, List.cons_append]
    · rw [List.getLast?_append, List.getLast?_cons]
      rcases hfront with rfl | hlast
      · rfl
      · rw [hlast]
        rfl

/-- Whatever lines a stream begins with can be taken. -/
theorem of_lines (h : lines p = ls ++ ls') : ∃ rest, Takes p ls rest ∧ lines rest = ls' := by
  induction ls generalizing p with
  | nil => exact ⟨p, .nil p, h⟩
  | cons l ls ih =>
    have hmem : LF ∈ p := by
      by_contra hmem
      rw [lines_eq_nil.mpr hmem] at h
      cases h
    obtain ⟨a, p, rfl, ha⟩ := List.eq_append_cons_of_mem hmem
    rw [lines_cons ha, List.cons_append] at h
    obtain ⟨rfl, htail⟩ := List.cons.inj h
    obtain ⟨rest, hrest, hlines⟩ := ih htail
    exact ⟨rest, .cons ha hrest, hlines⟩

/-- Everything up to an LF. -/
theorem of_append (s q : Bytes) : Takes (s ++ LF :: q) ((dropCR s).splitOn LF) q := by
  by_cases hmem : LF ∈ s
  · obtain ⟨a, s', rfl, ha⟩ := List.eq_append_cons_of_mem hmem
    rw [dropCR_line, List.splitOn_append_cons_self_of_not_mem (lf_not_mem_dropCR ha),
      List.append_assoc, List.cons_append]
    exact .cons ha (of_append s' q)
  · rw [List.splitOn_eq_singleton (lf_not_mem_dropCR hmem)]
    exact .cons hmem (.nil q)
termination_by s.length

end Takes

/-! ## The reader -/

theorem readlineLoop_line {a : Bytes} (ha : LF ∉ a) (s : Line) (p : Bytes) :
    ∃ l : Line, l.bytes = s.bytes ++ dropCR a ∧ readlineLoop s (a ++ LF :: p) = (some l, p) := by
  induction a generalizing s with
  | nil => exact ⟨s, by rw [dropCR, List.filter_nil, List.append_nil], rfl⟩
  | cons c a ih =>
    rw [List.mem_cons, not_or] at ha
    obtain ⟨hc, ha⟩ := ha
    by_cases hcr : c = CR
    · obtain ⟨l, hl, hread⟩ := ih ha s
      refine ⟨l, ?_, ?_⟩
      · rw [hl, dropCR, dropCR, List.filter_cons_of_neg (by simpa using hcr)]
      · rw [List.cons_append, readlineLoop, dif_pos hcr, hread]
    · have hone : OneLine (s.bytes ++ [c]) := by simp [s.oneLine, hcr, Ne.symm hc, oneLine_nil]
      obtain ⟨l, hl, hread⟩ := ih ha ⟨s.bytes ++ [c], hone⟩
      refine ⟨l, ?_, ?_⟩
      · rw [hl, dropCR, dropCR, List.filter_cons_of_pos (by simpa using hcr), List.append_assoc,
          List.singleton_append]
      · rw [List.cons_append, readlineLoop, dif_neg hcr, dif_neg (Ne.symm hc), hread]

theorem readlineLoop_end {p : Bytes} (hp : LF ∉ p) (s : Line) : readlineLoop s p = (none, []) := by
  induction p generalizing s with
  | nil => rfl
  | cons c p ih =>
    rw [List.mem_cons, not_or] at hp
    obtain ⟨hc, hp⟩ := hp
    rw [readlineLoop]
    split_ifs with hcr hlf
    · exact ih hp s
    · exact absurd hlf.symm hc
    · exact ih hp _

/-- `readline` takes the first line of the stream. -/
theorem readline_line {a : Bytes} (ha : LF ∉ a) (p : Bytes) (ending : ReadFailure) :
    ∃ l : Line, l.bytes = dropCR a ∧ readline ⟨a ++ LF :: p, ending⟩ = (.ok l, ⟨p, ending⟩) := by
  obtain ⟨l, hl, hread⟩ := readlineLoop_line ha ⟨[], oneLine_nil⟩ p
  refine ⟨l, hl, ?_⟩
  rw [readline, hread]

theorem readline_end {p : Bytes} (hp : LF ∉ p) (ending : ReadFailure) :
    readline ⟨p, ending⟩ = (.error ending, ⟨[], ending⟩) := by
  rw [readline, readlineLoop_end hp]

/-- A line that was written is read as it is. -/
theorem readline_written {l : Bytes} (hl : OneLine l) (p : Bytes) (ending : ReadFailure) :
    readline ⟨l ++ [CR, LF] ++ p, ending⟩ = (.ok ⟨l, hl⟩, ⟨p, ending⟩) := by
  have hlf : LF ∉ l ++ [CR] := by
    intro h
    rcases List.mem_append.mp h with h | h
    · exact (hl LF h).2 rfl
    · exact absurd h (by decide)
  have hdrop : dropCR (l ++ [CR]) = l := by
    have hkeep : l.filter (· ≠ CR) = l := List.filter_eq_self.mpr fun c hc => by
      simpa using (hl c hc).1
    rw [dropCR, List.filter_append, hkeep]
    exact List.append_nil l
  obtain ⟨line, hline, hread⟩ := readline_line hlf p ending
  obtain rfl : line = ⟨l, hl⟩ := Line.eq_of_bytes (hline.trans hdrop)
  rw [← hread]
  simp only [List.append_assoc, List.cons_append, List.nil_append]

/-! ## A receiver that keeps to the standard -/

/-- The lines of a stream, each ended by CR LF, and the unfinished rest; `cur`
has been received of the current line. -/
def crlfLoop (cur : Bytes) : Bytes → List Bytes × Bytes
  | [] => ([], cur)
  | c :: p =>
      if c = LF ∧ cur.getLast? = some CR then
        (cur.dropLast :: (crlfLoop [] p).1, (crlfLoop [] p).2)
      else crlfLoop (cur ++ [c]) p

def crlfLines (p : Bytes) : List Bytes × Bytes := crlfLoop [] p

theorem crlfLoop_line {l : Bytes} (hl : OneLine l) (cur p : Bytes) :
    crlfLoop cur (l ++ [CR, LF] ++ p) = ((cur ++ l) :: (crlfLines p).1, (crlfLines p).2) := by
  induction l generalizing cur with
  | nil =>
    have hcr : CR ≠ LF := by decide
    simp [crlfLoop, crlfLines, hcr]
  | cons c l ih =>
    obtain ⟨hc, hl⟩ := (oneLine_cons c l).mp hl
    rw [List.cons_append, List.cons_append, crlfLoop, if_neg fun h => hc.2 h.1, ih hl,
      List.append_assoc, List.singleton_append]

/-- The receiver sees the lines that were written. -/
theorem crlfLines_writeline {ls : List Bytes} (hls : ∀ l ∈ ls, OneLine l) :
    crlfLines (ls.flatMap writeline) = (ls, []) := by
  induction ls with
  | nil => rfl
  | cons l ls ih =>
    have hl := hls l List.mem_cons_self
    have htail := ih fun l' hl' => hls l' (List.mem_cons_of_mem _ hl')
    rw [List.flatMap_cons, writeline_oneLine hl, crlfLines, crlfLoop_line hl, htail, List.nil_append]

end Spey.Socket
