import Spey.Wire.ReplyFormat

/-!
# The grammar of replies

`WellFormed` lines are one reply of the inside server: a single line, or lines of
code 250 of which all but the last have a hyphen after the code and the last has a
space. `SMTPResponse::set` takes exactly these lines off the socket and throws at
the first line with which no reply goes on, but for one kind of stream. The
fourth character of the first line is looked at in all its values; in a line of
the continuation only a hyphen is told from the rest, so any other character
ends the reply as a space does.
-/

namespace Spey.SMTPResponse

/-- A line of code 250 with `c` after the code. -/
def line250 (c : Byte) (t : Bytes) : Bytes := byte '2' :: byte '5' :: byte '0' :: c :: t

/-- The lines after the first of a reply of code 250, with their texts. -/
inductive Continues : List Bytes → List Bytes → Prop
  | last (t : Bytes) : Continues [line250 SP t] [t]
  | more (t : Bytes) {ls ts : List Bytes} (h : Continues ls ts) :
      Continues (line250 (byte '-') t :: ls) (t :: ts)

/-- The lines of one reply, with its code and the texts of its continuation. -/
inductive WellFormed : List Bytes → Nat → List Bytes → Prop
  | single {a b c : Byte} (t : Bytes) (h : isdigit a ∧ isdigit b ∧ isdigit c) :
      WellFormed [a :: b :: c :: SP :: t] (status a b c) []
  | multiline (t : Bytes) {ls ts : List Bytes} (h : Continues ls ts) :
      WellFormed (line250 (byte '-') t :: ls) 250 ts

/-- A reply may go on from these lines. -/
def Begins (ls : List Bytes) : Prop := ∃ more code ts, WellFormed (ls ++ more) code ts

/-- What `SMTPResponse::set` is to do with a stream: take a reply that the stream
begins with, throw on any other stream, and read no line beyond the first one
that no reply has in its place. -/
structure ReadsExactly (p : Bytes) (ending : ReadFailure) : Prop where
  accepts : ∀ {ls ts rest code}, Socket.Takes p ls rest → WellFormed ls code ts →
    ∃ reply : Reply, read ⟨p, ending⟩ = (.ok reply, ⟨rest, ending⟩) ∧
      reply.response.code = code ∧ reply.response.continuation = ts
  rejects : (∀ ls ts rest code, Socket.Takes p ls rest → ¬ WellFormed ls code ts) →
    ∃ e rest, read ⟨p, ending⟩ = (.error e, rest) ∧ e.exn.isNetwork
  stops : ∀ {ls l rest}, Socket.Takes p (ls ++ [l]) rest → Begins ls → ¬ Begins (ls ++ [l]) →
    rest <:+ (read ⟨p, ending⟩).2.bytes

/-- Lines of code 250, of which the last has neither a hyphen nor a space after
the code. -/
inductive EndsBadly : List Bytes → Prop
  | last {c : Byte} (t : Bytes) (hc : c ≠ SP ∧ c ≠ byte '-') : EndsBadly [line250 c t]
  | more (t : Bytes) {ls : List Bytes} (h : EndsBadly ls) :
      EndsBadly (line250 (byte '-') t :: ls)

/-- The stream begins with a reply whose last line ends badly. -/
def BadEnd (p : Bytes) : Prop :=
  ∃ t ls rest, Socket.Takes p (line250 (byte '-') t :: ls) rest ∧ EndsBadly ls

/-! ## Lines -/

section
variable {p rest : Bytes} {l : Bytes} {ls : List Bytes}

/-- `readline` takes the first of the lines. -/
theorem readline_takes (h : Socket.Takes p (l :: ls) rest) (ending : ReadFailure) :
    ∃ (hl : OneLine l) (p' : Bytes),
      Socket.readline ⟨p, ending⟩ = (.ok ⟨l, hl⟩, ⟨p', ending⟩) ∧ Socket.Takes p' ls rest := by
  obtain ⟨a, p', ha, rfl, rfl, htakes⟩ := h.of_cons
  obtain ⟨line, hline, hread⟩ := Socket.readline_line ha p' ending
  have hone := Socket.oneLine_dropCR ha
  obtain rfl : line = ⟨Socket.dropCR a, hone⟩ := Line.eq_of_bytes hline
  exact ⟨hone, p', hread, htakes⟩

/-- What is left after some lines ends what was there before them. -/
theorem takes_suffix (h : Socket.Takes p ls rest) : rest <:+ p := by
  obtain ⟨front, rfl, -, -⟩ := h.front
  exact List.suffix_append front rest

theorem takes_nil (h : Socket.Takes p [] rest) : p = rest := by
  cases h
  rfl

end

theorem line250_oneLine {c : Byte} {t : Bytes} (h : OneLine (line250 c t)) : OneLine t := by
  simp only [line250, oneLine_cons] at h
  exact h.2.2.2.2

theorem digit_eq {c : Byte} (h : isdigit c) : c = UInt8.ofNat (48 + digit c) := by
  unfold isdigit at h
  have hlo : byte '0' ≤ c := by simpa using (of_decide_eq_true h).1
  have hn : 48 ≤ c.toNat := UInt8.le_iff_toNat_le.mp hlo
  rw [digit, Nat.add_sub_cancel' hn, UInt8.ofNat_toNat]

/-- The digits of 250. -/
theorem status_250 {a b c : Byte} (h : isdigit a ∧ isdigit b ∧ isdigit c)
    (hcode : status a b c = 250) : a = byte '2' ∧ b = byte '5' ∧ c = byte '0' := by
  have ha := digit_lt h.1
  have hb := digit_lt h.2.1
  have hc := digit_lt h.2.2
  unfold status at hcode
  have hda : digit a = 2 := by omega
  have hdb : digit b = 5 := by omega
  have hdc : digit c = 0 := by omega
  refine ⟨?_, ?_, ?_⟩
  · rw [digit_eq h.1, hda]
    rfl
  · rw [digit_eq h.2.1, hdb]
    rfl
  · rw [digit_eq h.2.2, hdc]
    rfl

/-! ## The continuation -/

/-- The loop over the continuation of a 250 reply. -/
abbrev read250 (input : Feed) : Except ReadFailure (List Line) × Feed :=
  readContinuation (byte '2') (byte '5') (byte '0') input

section
variable {input rest : Feed}

theorem read250_malformed {l : Line} (h : ∀ c t, l.bytes ≠ line250 c t)
    (hl : Socket.readline input = (.ok l, rest)) : read250 input = (.error .network, rest) := by
  unfold read250
  rw [readContinuation]
  split
  next e rest' he => cases hl.symm.trans he
  next l' rest' he =>
    obtain ⟨hll, rfl⟩ := Prod.mk.inj (hl.symm.trans he)
    obtain rfl := Except.ok.inj hll
    split
    next a b c d t hone he =>
      split_ifs with hcode
      · rfl
      · simp only [not_or, not_not] at hcode
        obtain ⟨rfl, rfl, rfl⟩ := hcode
        exact absurd rfl (h d t)
      · simp only [not_or, not_not] at hcode
        obtain ⟨rfl, rfl, rfl⟩ := hcode
        exact absurd rfl (h d t)
    next => rfl

theorem read250_end {e : ReadFailure} (hl : Socket.readline input = (.error e, rest)) :
    read250 input = (.error e, rest) := by
  unfold read250
  rw [readContinuation]
  split
  next e' rest' he =>
    cases hl.symm.trans he
    rfl
  next l rest' he => cases hl.symm.trans he

/-- After a line with a hyphen the loop goes on with what is left, also to fail. -/
theorem read250_more_error {t : Bytes} {h : OneLine (line250 (byte '-') t)} {e : ReadFailure}
    {rest' : Feed} (hl : Socket.readline input = (.ok ⟨line250 (byte '-') t, h⟩, rest))
    (he : read250 rest = (.error e, rest')) : read250 input = (.error e, rest') := by
  unfold read250 at he ⊢
  rw [readContinuation]
  split
  next e' rest'' hread => cases hl.symm.trans hread
  next l rest'' hread =>
    cases hl.symm.trans hread
    simp [line250, he]

theorem read250_more {t : Bytes} {h : OneLine (line250 (byte '-') t)}
    (hl : Socket.readline input = (.ok ⟨line250 (byte '-') t, h⟩, rest)) :
    (read250 input).2 = (read250 rest).2 := by
  cases he : read250 rest with
  | mk r rest' =>
    cases r with
    | error e => rw [read250_more_error hl he]
    | ok ls => rw [read250, readContinuation_more hl (line250_oneLine h) he]

end

section
variable {p rest : Bytes} {ls ts : List Bytes}

/-- The lines of a continuation are taken, with their texts. -/
theorem read250_continues (h : Continues ls ts) (hp : Socket.Takes p ls rest)
    (ending : ReadFailure) : ∃ read : List Line,
      read250 ⟨p, ending⟩ = (.ok read, ⟨rest, ending⟩) ∧ read.map (·.bytes) = ts := by
  induction h generalizing p with
  | last t =>
    obtain ⟨hl, p', hread, hp'⟩ := readline_takes hp ending
    obtain rfl := takes_nil hp'
    exact ⟨_, readContinuation_last (by decide) hread (line250_oneLine hl), rfl⟩
  | more t h ih =>
    obtain ⟨hl, p', hread, hp'⟩ := readline_takes hp ending
    obtain ⟨read, hrest, rfl⟩ := ih hp'
    exact ⟨_, readContinuation_more hread (line250_oneLine hl) hrest, rfl⟩

/-- Lines that end badly are taken too. -/
theorem read250_endsBadly (h : EndsBadly ls) (hp : Socket.Takes p ls rest)
    (ending : ReadFailure) : ∃ read : List Line,
      read250 ⟨p, ending⟩ = (.ok read, ⟨rest, ending⟩) := by
  induction h generalizing p with
  | last t hc =>
    obtain ⟨hl, p', hread, hp'⟩ := readline_takes hp ending
    obtain rfl := takes_nil hp'
    exact ⟨_, readContinuation_last hc.2 hread (line250_oneLine hl)⟩
  | more t h ih =>
    obtain ⟨hl, p', hread, hp'⟩ := readline_takes hp ending
    obtain ⟨read, hrest⟩ := ih hp'
    exact ⟨_, readContinuation_more hread (line250_oneLine hl) hrest⟩

/-- Every stream begins with a continuation or with lines that end badly, or the
loop throws. -/
theorem read250_cases (p : Bytes) (ending : ReadFailure) :
    (∃ ls ts rest, Socket.Takes p ls rest ∧ Continues ls ts) ∨
    (∃ ls rest, Socket.Takes p ls rest ∧ EndsBadly ls) ∨
    ∃ e rest, read250 ⟨p, ending⟩ = (.error e, rest) := by
  by_cases hlf : LF ∈ p
  · obtain ⟨a, p, rfl, ha⟩ := List.eq_append_cons_of_mem hlf
    obtain ⟨⟨l, hl⟩, rfl, hread⟩ := Socket.readline_line ha p ending
    by_cases hform : ∃ c t, Socket.dropCR a = line250 c t
    · obtain ⟨c, t, hct⟩ := hform
      have hone : ∀ {ls rest}, Socket.Takes p ls rest →
          Socket.Takes (a ++ LF :: p) (line250 c t :: ls) rest :=
        fun h => hct ▸ .cons ha h
      by_cases hsp : c = SP
      · subst hsp
        exact .inl ⟨_, _, _, hone (.nil p), .last t⟩
      by_cases hhyphen : c = byte '-'
      · subst hhyphen
        rcases read250_cases p ending with ⟨ls, ts, rest, hp, h⟩ | ⟨ls, rest, hp, h⟩ | ⟨e, rest, h⟩
        · exact .inl ⟨_, _, _, hone hp, .more t h⟩
        · exact .inr (.inl ⟨_, _, hone hp, .more t h⟩)
        · simp only [hct] at hread
          exact .inr (.inr ⟨e, rest, read250_more_error hread h⟩)
      · exact .inr (.inl ⟨_, _, hone (.nil p), .last t ⟨hsp, hhyphen⟩⟩)
    · refine .inr (.inr ⟨_, _, read250_malformed (fun c t he => hform ⟨c, t, he⟩) hread⟩)
  · exact .inr (.inr ⟨_, _, read250_end (Socket.readline_end hlf ending)⟩)
termination_by p.length

/-- A continuation does not end badly. -/
theorem Continues.not_endsBadly {ls' more more' : List Bytes} (h : Continues ls ts)
    (h' : EndsBadly ls') (heq : ls ++ more = ls' ++ more') : False := by
  induction h generalizing ls' with
  | last t =>
    cases h' with
    | last t' hc =>
      simp only [line250, List.cons_append, List.cons.injEq] at heq
      exact hc.1 heq.1.2.2.2.1.symm
    | more t' h' =>
      simp only [line250, List.cons_append, List.cons.injEq] at heq
      exact absurd heq.1.2.2.2.1 (by decide)
  | more t h ih =>
    cases h' with
    | last t' hc =>
      simp only [line250, List.cons_append, List.cons.injEq] at heq
      exact hc.2 heq.1.2.2.2.1.symm
    | more t' h' => exact ih h' (List.cons.inj heq).2

/-- The loop reads no further than the first line with which the continuation
does not go on. -/
theorem read250_stops {l : Bytes} {more : List Bytes} (h : Continues (ls ++ more) ts)
    (hstop : ∀ more' ts', ¬ Continues (ls ++ [l] ++ more') ts') (hgood : ¬ EndsBadly (ls ++ [l]))
    (hp : Socket.Takes p (ls ++ [l]) rest) (ending : ReadFailure) :
    rest <:+ (read250 ⟨p, ending⟩).2.bytes := by
  induction ls generalizing p ts with
  | nil =>
    obtain ⟨hl, p', hread, hp'⟩ := readline_takes hp ending
    obtain rfl := takes_nil hp'
    have hform : ∀ c t, l ≠ line250 c t := by
      rintro c t rfl
      by_cases hsp : c = SP
      · subst hsp
        exact hstop [] [t] (.last t)
      by_cases hhyphen : c = byte '-'
      · subst hhyphen
        exact hstop [line250 SP []] [t, []] (.more t (.last []))
      · exact hgood (.last t ⟨hsp, hhyphen⟩)
    have hstopped := read250_malformed hform hread
    exact hstopped ▸ List.suffix_refl p'
  | cons x ls ih =>
    obtain ⟨hl, p', hread, hp'⟩ := readline_takes hp ending
    generalize hlines : x :: ls ++ more = lines at h
    cases h with
    | last t =>
      obtain ⟨rfl, hnil⟩ := List.cons.inj hlines
      rw [read250, readContinuation_last (by decide) hread (line250_oneLine hl)]
      exact takes_suffix hp'
    | @more t ls' ts' h =>
      obtain ⟨rfl, rfl⟩ := List.cons.inj hlines
      rw [read250_more hread]
      refine ih h (fun more' ts' hc => ?_) (fun hbad => hgood (.more t hbad)) hp'
      exact hstop more' (t :: ts') (.more t hc)

end

/-! ## The reply -/

section
variable {input rest : Feed}

theorem read_end {e : ReadFailure} (hl : Socket.readline input = (.error e, rest)) :
    read input = (.error e, rest) := by
  rw [read, hl]

/-- A first line that begins no reply is taken, and nothing after it. -/
theorem read_malformed {l : Line} (hl : Socket.readline input = (.ok l, rest))
    (hbegins : ¬ Begins [l.bytes]) : read input = (.error .network, rest) := by
  rw [read, hl]
  dsimp only
  split
  next a b c d t hone =>
    split_ifs with hdigits hhyphen hcode hsp
    · obtain ⟨rfl, rfl, rfl⟩ := status_250 hdigits hcode
      subst hhyphen
      exact absurd ⟨[line250 SP []], 250, [[]], .multiline t (.last [])⟩ hbegins
    · rfl
    · subst hsp
      exact absurd ⟨[], _, _, .single t hdigits⟩ hbegins
    · rfl
    · rfl
  next => rfl

theorem read_multi_error {t : Bytes} {h : OneLine (line250 (byte '-') t)} {e : ReadFailure}
    {rest' : Feed} (hl : Socket.readline input = (.ok ⟨line250 (byte '-') t, h⟩, rest))
    (he : read250 rest = (.error e, rest')) : read input = (.error e, rest') := by
  have hdigits : ¬ ¬ (isdigit (byte '2') ∧ isdigit (byte '5') ∧ isdigit (byte '0')) := by decide
  have hstatus : status (byte '2') (byte '5') (byte '0') = 250 := by decide
  unfold read250 at he
  rw [read, hl]
  dsimp only [line250]
  rw [dif_neg hdigits, if_pos rfl, dif_pos hstatus, he]

theorem read_multi_rest {t : Bytes} {h : OneLine (line250 (byte '-') t)}
    (hl : Socket.readline input = (.ok ⟨line250 (byte '-') t, h⟩, rest)) :
    (read input).2 = (read250 rest).2 := by
  cases he : read250 rest with
  | mk r rest' =>
    cases r with
    | error e => rw [read_multi_error hl he]
    | ok ls =>
      obtain ⟨reply, hreply, -, -⟩ := read_multi hl he
      rw [hreply]

end

section
variable {p rest : Bytes} {ls ts : List Bytes} {code : Nat}

theorem read_wellFormed (h : WellFormed ls code ts) (hp : Socket.Takes p ls rest)
    (ending : ReadFailure) : ∃ reply : Reply, read ⟨p, ending⟩ = (.ok reply, ⟨rest, ending⟩) ∧
      reply.response.code = code ∧ reply.response.continuation = ts := by
  obtain ⟨t, hdigits⟩ | ⟨t, h⟩ := h
  · obtain ⟨hl, p', hread, hp'⟩ := readline_takes hp ending
    obtain rfl := takes_nil hp'
    exact read_single hdigits hread
  · obtain ⟨hl, p', hread, hp'⟩ := readline_takes hp ending
    obtain ⟨read, hrest, rfl⟩ := read250_continues h hp' ending
    exact read_multi hread hrest

/-- A stream that does not begin with a reply, nor with one that ends badly, is
refused. -/
theorem read_cases (p : Bytes) (ending : ReadFailure) :
    (∃ ls ts rest code, Socket.Takes p ls rest ∧ WellFormed ls code ts) ∨ BadEnd p ∨
    ∃ e rest, read ⟨p, ending⟩ = (.error e, rest) := by
  by_cases hlf : LF ∈ p
  · obtain ⟨a, p, rfl, ha⟩ := List.eq_append_cons_of_mem hlf
    obtain ⟨⟨l, hl⟩, rfl, hread⟩ := Socket.readline_line ha p ending
    by_cases hbegins : Begins [Socket.dropCR a]
    · obtain ⟨more, code, ts, h⟩ := hbegins
      generalize hlines : [Socket.dropCR a] ++ more = lines at h
      cases h with
      | single t hdigits =>
        obtain ⟨hline, -⟩ := List.cons.inj hlines
        exact .inl ⟨_, _, p, _, hline ▸ .cons ha (.nil p), .single t hdigits⟩
      | multiline t h =>
        obtain ⟨hline, -⟩ := List.cons.inj hlines
        have hone : ∀ {ls rest}, Socket.Takes p ls rest →
            Socket.Takes (a ++ LF :: p) (line250 (byte '-') t :: ls) rest :=
          fun h => hline ▸ .cons ha h
        rcases read250_cases p ending with ⟨ls, ts, rest, hp, h⟩ | ⟨ls, rest, hp, h⟩ | ⟨e, rest, h⟩
        · exact .inl ⟨_, _, _, _, hone hp, .multiline t h⟩
        · exact .inr (.inl ⟨t, ls, rest, hone hp, h⟩)
        · simp only [hline] at hread
          exact .inr (.inr ⟨e, rest, read_multi_error hread h⟩)
    · exact .inr (.inr ⟨_, _, read_malformed hread hbegins⟩)
  · exact .inr (.inr ⟨_, _, read_end (Socket.readline_end hlf ending)⟩)

theorem read_stops {l : Bytes} (hbad : ¬ BadEnd p) (hp : Socket.Takes p (ls ++ [l]) rest)
    (hbegins : Begins ls) (hstop : ¬ Begins (ls ++ [l])) (ending : ReadFailure) :
    rest <:+ (read ⟨p, ending⟩).2.bytes := by
  cases ls with
  | nil =>
    obtain ⟨hl, p', hread, hp'⟩ := readline_takes hp ending
    obtain rfl := takes_nil hp'
    have hstopped := read_malformed hread hstop
    exact hstopped ▸ List.suffix_refl p'
  | cons x ls =>
    obtain ⟨hl, p', hread, hp'⟩ := readline_takes hp ending
    obtain ⟨more, code, ts, h⟩ := hbegins
    generalize hlines : x :: ls ++ more = lines at h
    cases h with
    | single t hdigits =>
      obtain ⟨rfl, hnil⟩ := List.cons.inj hlines
      obtain ⟨reply, hreply, -, -⟩ := read_single hdigits hread
      rw [hreply]
      exact takes_suffix hp'
    | @multiline t ls' ts' h =>
      obtain ⟨rfl, rfl⟩ := List.cons.inj hlines
      rw [read_multi_rest hread]
      refine read250_stops h (fun more' ts' hc => ?_) (fun hends => ?_) hp' ending
      · exact hstop ⟨more', 250, _, .multiline t hc⟩
      · exact hbad ⟨t, _, _, hp, hends⟩

end

/-- A reply that ends badly is taken, although the stream begins with no reply. -/
theorem BadEnd.not_readsExactly {p : Bytes} (h : BadEnd p) (ending : ReadFailure) :
    ¬ ReadsExactly p ending := by
  intro hexact
  obtain ⟨t, ls, rest, hp, hends⟩ := h
  obtain ⟨hl, p', hread, hp'⟩ := readline_takes hp ending
  obtain ⟨read, hrest⟩ := read250_endsBadly hends hp' ending
  obtain ⟨reply, hreply, -, -⟩ := read_multi hread hrest
  obtain ⟨e, rest', herror, -⟩ := hexact.rejects fun ls' ts' rest' code hp'' h => by
    have heq := hp''.lines_eq.symm.trans hp.lines_eq
    cases h with
    | single t' hdigits =>
      simp only [line250, List.cons_append, List.cons.injEq] at heq
      exact absurd heq.1.2.2.2.1 (by decide)
    | multiline t' h => exact h.not_endsBadly hends (List.cons.inj heq).2
  cases hreply.symm.trans herror

/-- `SMTPResponse::set` reads the replies and nothing else, but where a line of
the continuation has neither a hyphen nor a space after the code. -/
theorem readsExactly_iff (p : Bytes) (ending : ReadFailure) :
    ReadsExactly p ending ↔ ¬ BadEnd p := by
  constructor
  · exact fun hexact hbad => hbad.not_readsExactly ending hexact
  · intro hbad
    refine ⟨fun hp h => read_wellFormed h hp ending, fun hnone => ?_,
      fun hp hbegins hstop => read_stops hbad hp hbegins hstop ending⟩
    rcases read_cases p ending with ⟨ls, ts, rest, code, hp, h⟩ | h | ⟨e, rest, h⟩
    · exact absurd h (hnone ls ts rest code hp)
    · exact absurd h hbad
    · refine ⟨e, rest, h, ?_⟩
      cases e with
      | network => rfl
      | timeout => rfl

/-- With a letter after the code the second line is the last one. -/
theorem letter_ends_reply :
    ¬ ReadsExactly (text "250-first\r\n250xlast\r\n") .network := by
  have hlines : Socket.lines (text "250-first\r\n250xlast\r\n") =
      [line250 (byte '-') (text "first"), line250 (byte 'x') (text "last")] ++ [] := by
    decide +kernel
  obtain ⟨rest, hp, -⟩ := Socket.Takes.of_lines hlines
  have hbad : BadEnd (text "250-first\r\n250xlast\r\n") :=
    ⟨_, _, rest, hp, .last _ (by decide)⟩
  exact hbad.not_readsExactly .network

end Spey.SMTPResponse
