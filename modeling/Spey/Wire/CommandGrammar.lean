import Spey.Wire.CommandRoundTrip

/-!
# The grammar of commands

`Reads l verb a` says that the line `l` is a form of the command `verb` with the
argument `a`: the grammar as it is meant, without a word on how a line is read.
`SMTPCommand::set` accepts the lines of this grammar and gives their reading,
but for one kind of line. After the mechanism of `AUTH` a space is taken to
announce an initial response, and `Parser::whitespace` throws where the line
ends instead; every other verb ends in `Parser::eol`, which takes the same
spaces.
-/

namespace Spey

/-- The word that names a verb on the wire. -/
def Verb.keyword : Verb → Bytes
  | .HELO => text "HELO"
  | .EHLO => text "EHLO"
  | .MAIL => text "MAIL"
  | .RCPT => text "RCPT"
  | .DATA => text "DATA"
  | .VRFY => text "VRFY"
  | .RSET => text "RSET"
  | .EXPN => text "EXPN"
  | .HELP => text "HELP"
  | .NOOP => text "NOOP"
  | .QUIT => text "QUIT"
  | .AUTH => text "AUTH"
  | .STARTTLS => text "STARTTLS"

namespace SMTPCommand

open Spey.Parser

def Spaces (s : Bytes) : Prop := ∀ c ∈ s, c = SP

instance (s : Bytes) : Decidable (Spaces s) := List.decidableBAll (· = SP) s

def Gap (s : Bytes) : Prop := s ≠ [] ∧ Spaces s

def Word (w : Bytes) : Prop := w ≠ [] ∧ SP ∉ w

/-- The word `k` spells `keyword`, in any letter case. -/
def Spells (keyword k : Bytes) : Prop := k.map tolower = keyword.map tolower

/-- A word ends here: the line does, or a space follows. -/
def Ends (rest : Bytes) : Prop := rest = [] ∨ rest.head? = some SP

/-- `Path p a rest`: the text `p` gives the address `a`, and `rest` comes after it. -/
inductive Path : Bytes → Bytes → Bytes → Prop
  | bracketed {a rest : Bytes} (ha : byte '>' ∉ a) :
      Path (byte '<' :: (a ++ byte '>' :: rest)) (a.map tolower) rest
  | bare {w rest : Bytes} (hw : Word w) (hopen : w.head? ≠ some (byte '<')) (hend : Ends rest) :
      Path (w ++ rest) (w.map tolower) rest

inductive Reads : Bytes → Verb → Option Bytes → Prop
  | hello {verb : Verb} {k s w t : Bytes} (hverb : verb = .HELO ∨ verb = .EHLO)
      (hk : Spells verb.keyword k) (hs : Gap s) (hw : Word w) (ht : Spaces t) :
      Reads (k ++ (s ++ (w ++ t))) verb (some (w.map tolower))
  | mail {k s f s' p a rest : Bytes} (hk : Spells Verb.MAIL.keyword k) (hs : Gap s)
      (hf : Spells (text "FROM:") f) (hs' : Spaces s') (hp : Path p a rest) :
      Reads (k ++ (s ++ (f ++ (s' ++ p)))) .MAIL (some a)
  | rcpt {k s f s' p a t : Bytes} (hk : Spells Verb.RCPT.keyword k) (hs : Gap s)
      (hf : Spells (text "TO:") f) (hs' : Spaces s') (hp : Path p a t) (ht : Spaces t) :
      Reads (k ++ (s ++ (f ++ (s' ++ p)))) .RCPT (some a)
  | bare {verb : Verb} {k t : Bytes}
      (hverb : verb ∈ [.DATA, .QUIT, .RSET, .HELP, .NOOP, .STARTTLS])
      (hk : Spells verb.keyword k) (ht : Spaces t) : Reads (k ++ t) verb none
  | auth {k s m t : Bytes} (hk : Spells Verb.AUTH.keyword k) (hs : Gap s) (hm : Word m)
      (ht : Spaces t) : Reads (k ++ (s ++ (m ++ t))) .AUTH (some (m.map tolower))
  | authInitial {k s m s' i t : Bytes} (hk : Spells Verb.AUTH.keyword k) (hs : Gap s)
      (hm : Word m) (hs' : Gap s') (hi : Word i) (ht : Spaces t) :
      Reads (k ++ (s ++ (m ++ (s' ++ (i ++ t))))) .AUTH (some (m.map tolower ++ SP :: i))

/-- `AUTH` and a mechanism, with spaces behind it. -/
def AuthThenSpaces (l : Bytes) : Prop :=
  ∃ k s m t, Spells Verb.AUTH.keyword k ∧ Gap s ∧ Word m ∧ Gap t ∧ l = k ++ (s ++ (m ++ t))

/-! ## The primitives of the parser on pieces of a line -/

theorem spaces_nil : Spaces [] := by simp [Spaces]

@[simp] theorem spaces_cons (c : Byte) (s : Bytes) : Spaces (c :: s) ↔ c = SP ∧ Spaces s := by
  simp [Spaces]

theorem Word.head {w : Bytes} (h : Word w) : ∃ c v, w = c :: v ∧ c ≠ SP := by
  cases w with
  | nil => exact absurd rfl h.1
  | cons c v => exact ⟨c, v, rfl, fun hc => h.2 (hc ▸ List.mem_cons_self)⟩

theorem Gap.ends {s : Bytes} (h : Gap s) (rest : Bytes) : Ends (s ++ rest) := by
  cases s with
  | nil => exact absurd rfl h.1
  | cons c s => exact .inr (congrArg some ((spaces_cons c s).mp h.2).1)

theorem Spaces.ends {t : Bytes} (h : Spaces t) : Ends t := by
  cases t with
  | nil => exact .inl rfl
  | cons c t => exact .inr (congrArg some ((spaces_cons c t).mp h).1)

/-- Spaces that stand between a word and another one are a gap. -/
theorem gap_of_ends {s w rest : Bytes} (hs : Spaces s) (hw : Word w) (h : Ends (s ++ (w ++ rest))) :
    Gap s := by
  refine ⟨?_, hs⟩
  rintro rfl
  obtain ⟨c, v, rfl, hc⟩ := hw.head
  rcases h with h | h
  · cases h
  · exact hc (Option.some.inj h)

theorem whitespace_spaces {s : Bytes} (hs : Spaces s) (rest : Bytes) :
    whitespace (s ++ rest) = whitespace rest := by
  induction s with
  | nil => rfl
  | cons c s ih =>
    obtain ⟨hc, hs⟩ := (spaces_cons c s).mp hs
    rw [List.cons_append, whitespace, if_pos hc, ih hs]

theorem whitespace_gap {s w : Bytes} (hs : Spaces s) (hw : Word w) (rest : Bytes) :
    whitespace (s ++ (w ++ rest)) = some (w ++ rest) := by
  obtain ⟨c, v, rfl, hc⟩ := hw.head
  rw [whitespace_spaces hs, List.cons_append, whitespace_cons hc]

/-- Where the line ends in spaces, `whitespace` throws. -/
theorem whitespace_end {t : Bytes} (ht : Spaces t) : whitespace t = none := by
  have h := whitespace_spaces ht []
  rwa [List.append_nil] at h

theorem whitespace_some {p q : Bytes} (h : whitespace p = some q) :
    ∃ s, Spaces s ∧ p = s ++ q ∧ ∃ c v, q = c :: v ∧ c ≠ SP := by
  induction p with
  | nil => cases h
  | cons c p ih =>
    by_cases hc : c = SP
    · rw [whitespace, if_pos hc] at h
      obtain ⟨s, hs, rfl, hq⟩ := ih h
      exact ⟨c :: s, (spaces_cons c s).mpr ⟨hc, hs⟩, rfl, hq⟩
    · rw [whitespace, if_neg hc] at h
      obtain rfl := Option.some.inj h
      exact ⟨[], spaces_nil, rfl, c, p, rfl, hc⟩

theorem expect_iff (e p q : Bytes) : expect e p = some q ↔ ∃ k, Spells e k ∧ p = k ++ q := by
  induction e generalizing p with
  | nil =>
    constructor
    · intro h
      exact ⟨[], rfl, Option.some.inj h⟩
    · rintro ⟨k, hk, rfl⟩
      obtain rfl : k = [] := List.map_eq_nil_iff.mp hk
      rfl
  | cons x e ih =>
    cases p with
    | nil =>
      refine iff_of_false (fun h => by cases h) ?_
      rintro ⟨k, hk, h⟩
      obtain ⟨rfl, -⟩ := List.append_eq_nil_iff.mp h.symm
      cases hk
    | cons c p =>
      constructor
      · intro h
        unfold expect at h
        split_ifs at h with hc
        obtain ⟨k, hk, rfl⟩ := (ih p).mp h
        exact ⟨c :: k, congrArg₂ List.cons hc hk, rfl⟩
      · rintro ⟨k, hk, h⟩
        cases k with
        | nil => cases hk
        | cons c' k =>
          obtain ⟨rfl, rfl⟩ := List.cons.inj h
          obtain ⟨hc, hk⟩ := List.cons.inj hk
          rw [expect, if_pos hc]
          exact (ih (k ++ q)).mpr ⟨k, hk, rfl⟩

theorem getword_word (f : Byte → Byte) {w rest : Bytes} (hw : SP ∉ w) (hend : Ends rest) :
    getword f SP (w ++ rest) = (w.map f, rest) := by
  rcases hend with rfl | h
  · rw [List.append_nil, getword_all hw]
  · obtain ⟨v, rfl⟩ := List.head?_eq_some_iff.mp h
    exact getword_append hw v

/-- What `getword` has read is a piece of the line that ends where a word does. -/
theorem getword_some {f : Byte → Byte} {p a rest : Bytes} (h : getword f SP p = (a, rest)) :
    ∃ w, p = w ++ rest ∧ a = w.map f ∧ SP ∉ w ∧ Ends rest := by
  obtain ⟨w, hp, ha, hw, hrest⟩ := getword_spec f SP p
  rw [h] at hp ha hrest
  refine ⟨w, hp, ha, hw, ?_⟩
  rcases hrest with rfl | ⟨v, rfl⟩
  · exact .inl rfl
  · exact .inr rfl

theorem eol_iff (t : Bytes) (u : Unit) : eol t = some u ↔ Spaces t := by
  induction t with
  | nil => simp [eol, spaces_nil]
  | cons c t ih =>
    by_cases hc : c = SP
    · rw [eol, if_pos hc, ih, spaces_cons]
      exact ⟨fun h => ⟨hc, h⟩, And.right⟩
    · rw [eol, if_neg hc, spaces_cons]
      exact iff_of_false (fun h => by cases h) fun h => hc h.1

/-- After `whitespace`, the word that `getword` reads is a word. -/
theorem word_some {f : Byte → Byte} {p q : Bytes} (h : whitespace p = some q) :
    ∃ s w rest, Spaces s ∧ Word w ∧ Ends rest ∧ p = s ++ (w ++ rest) ∧ q = w ++ rest ∧
      getword f SP q = (w.map f, rest) := by
  obtain ⟨s, hs, rfl, c, v, rfl, hc⟩ := whitespace_some h
  obtain ⟨w, hq, ha, hw, hend⟩ := getword_some (f := f) (p := c :: v) rfl
  refine ⟨s, w, _, hs, ⟨?_, hw⟩, hend, congrArg (s ++ ·) hq, hq, Prod.ext ha rfl⟩
  rintro rfl
  have hc' : (getword f SP (c :: v)).1 = f c :: (getword f SP v).1 := by simp [getword, hc]
  cases hc'.symm.trans ha

/-! ## The rules of the verbs -/

theorem setHello_eq {verb : Verb} {s w t : Bytes} (hs : Spaces s) (hw : Word w) (ht : Spaces t) :
    setHello verb (s ++ (w ++ t)) = some (verb, some (w.map tolower)) := by
  simp [setHello, whitespace_gap hs hw, getword_word tolower hw.2 ht.ends, (eol_iff t ()).mpr ht]

theorem setHello_reads {verb : Verb} {p : Bytes} {r : Parsed} (h : setHello verb p = some r) :
    ∃ s w t, Spaces s ∧ Word w ∧ Spaces t ∧ p = s ++ (w ++ t) ∧
      r = (verb, some (w.map tolower)) := by
  simp only [setHello, Option.bind_eq_bind, Option.bind_eq_some_iff] at h
  obtain ⟨q, hq, u, hu, hr⟩ := h
  obtain ⟨s, w, t, hs, hw, -, rfl, rfl, hword⟩ := word_some (f := tolower) hq
  rw [hword] at hu hr
  exact ⟨s, w, t, hs, hw, (eol_iff t u).mp hu, rfl, (Option.some.inj hr).symm⟩

theorem setBare_iff {verb : Verb} {p : Bytes} {r : Parsed} :
    setBare verb p = some r ↔ Spaces p ∧ r = (verb, none) := by
  simp only [setBare, Option.bind_eq_bind, Option.bind_eq_some_iff, eol_iff]
  constructor
  · rintro ⟨-, hp, hr⟩
    exact ⟨hp, (Option.some.inj hr).symm⟩
  · rintro ⟨hp, rfl⟩
    exact ⟨(), hp, rfl⟩

/-- A path starts with another byte than a space. -/
theorem Path.head {p a rest : Bytes} (h : Path p a rest) : ∃ c v, p = c :: v ∧ c ≠ SP := by
  cases h with
  | bracketed _ => exact ⟨_, _, rfl, by decide⟩
  | bare hw _ _ =>
    obtain ⟨c, v, rfl, hc⟩ := hw.head
    exact ⟨c, v ++ rest, rfl, hc⟩

theorem address_eq {p a rest : Bytes} (h : Path p a rest) : address p = some (a, rest) := by
  cases h with
  | bracketed ha => exact address_bracketed ha _
  | @bare w rest hw hopen hend =>
    have hpeek : peek (w ++ rest) ≠ byte '<' := by
      obtain ⟨c, v, rfl, -⟩ := hw.head
      exact fun hc => hopen (congrArg some hc)
    rw [address, if_neg hpeek, getword_word tolower hw.2 hend]

theorem address_path {c : Byte} {v a rest : Bytes} (hc : c ≠ SP)
    (h : address (c :: v) = some (a, rest)) : Path (c :: v) a rest := by
  unfold address at h
  split_ifs at h with hp
  · obtain rfl : c = byte '<' := hp
    have hopen : expect (text "<") (byte '<' :: v) = some v := expect_append (text "<") v
    simp only [hopen, Option.bind_eq_bind, Option.bind_eq_some_iff] at h
    obtain ⟨q, hq, h⟩ := h
    obtain rfl := Option.some.inj hq
    obtain ⟨q, hq, hr⟩ := h
    obtain ⟨rfl, rfl⟩ := Prod.mk.inj (Option.some.inj hr)
    obtain ⟨w, hw, hmap, hd, hrest⟩ := getword_spec tolower (byte '>') v
    rcases hrest with hrest | ⟨t, hrest⟩
    · rw [hrest] at hq
      cases hq
    · rw [hrest] at hq
      obtain rfl : t = q := Option.some.inj ((expect_append (text ">") t).symm.trans hq)
      rw [hmap, hw, hrest]
      exact .bracketed hd
  · obtain ⟨w, hw, rfl, hsp, hend⟩ := getword_some (Option.some.inj h)
    rw [hw]
    refine .bare ⟨?_, hsp⟩ ?_ hend
    · rintro rfl
      obtain rfl : c :: v = rest := hw
      rcases hend with h | h
      · cases h
      · exact hc (Option.some.inj h)
    · intro hopen
      obtain ⟨w', rfl⟩ := List.head?_eq_some_iff.mp hopen
      exact hp (List.cons.inj hw).1

theorem pathAt_eq {e s f s' p a rest : Bytes} (hs : Spaces s) (hf : Spells e f) (hfw : Word f)
    (hs' : Spaces s') (hp : Path p a rest) : pathAt e (s ++ (f ++ (s' ++ p))) = some p := by
  obtain ⟨c, v, rfl, hc⟩ := hp.head
  have hexpect : expect e (f ++ (s' ++ c :: v)) = some (s' ++ c :: v) :=
    (expect_iff e _ _).mpr ⟨f, hf, rfl⟩
  simp [pathAt, whitespace_gap hs hfw, hexpect, whitespace_spaces hs', whitespace_cons hc]

theorem pathAt_some {e p q : Bytes} (h : pathAt e p = some q) :
    ∃ s f s', Spaces s ∧ Spells e f ∧ Spaces s' ∧ p = s ++ (f ++ (s' ++ q)) ∧
      ∃ c v, q = c :: v ∧ c ≠ SP := by
  simp only [pathAt, Option.bind_eq_bind, Option.bind_eq_some_iff] at h
  obtain ⟨q₁, h₁, q₂, h₂, h₃⟩ := h
  obtain ⟨s, hs, rfl, -⟩ := whitespace_some h₁
  obtain ⟨f, hf, rfl⟩ := (expect_iff e _ _).mp h₂
  obtain ⟨s', hs', rfl, hq⟩ := whitespace_some h₃
  exact ⟨s, f, s', hs, hf, hs', rfl, hq⟩

theorem setMail_path {s f s' p a rest : Bytes} (hs : Spaces s) (hf : Spells (text "from:") f)
    (hfw : Word f) (hs' : Spaces s') (hp : Path p a rest) :
    setMail (s ++ (f ++ (s' ++ p))) = some (.MAIL, some a) := by
  rw [setMail_eq, pathAt_eq hs hf hfw hs' hp, Option.bind_some, address_eq hp, Option.map_some]

theorem setRcpt_path {s f s' p a t : Bytes} (hs : Spaces s) (hf : Spells (text "to:") f)
    (hfw : Word f) (hs' : Spaces s') (hp : Path p a t) (ht : Spaces t) :
    setRcpt (s ++ (f ++ (s' ++ p))) = some (.RCPT, some a) := by
  rw [setRcpt_eq, pathAt_eq hs hf hfw hs' hp, Option.bind_some, address_eq hp, Option.bind_some,
    (eol_iff t ()).mpr ht, Option.map_some]

theorem setAuth_word {s m : Bytes} (hs : Spaces s) (hm : Word m) :
    setAuth (s ++ m) = some (.AUTH, some (m.map tolower)) := by
  have hgap := whitespace_gap hs hm []
  rw [List.append_nil] at hgap
  have hpeek : peek [] ≠ SP := by decide
  simp [setAuth, hgap, getword_all hm.2, hpeek, eol]

theorem peek_gap {s : Bytes} (hs : Gap s) (rest : Bytes) : peek (s ++ rest) = SP := by
  cases s with
  | nil => exact absurd rfl hs.1
  | cons c s => exact ((spaces_cons c s).mp hs.2).1

theorem setAuth_words {s m s' i t : Bytes} (hs : Spaces s) (hm : Word m) (hs' : Gap s')
    (hi : Word i) (ht : Spaces t) : setAuth (s ++ (m ++ (s' ++ (i ++ t)))) =
      some (.AUTH, some (m.map tolower ++ SP :: i)) := by
  have hmech := getword_word tolower hm.2 (hs'.ends (i ++ t))
  have hinit := getword_word id hi.2 ht.ends
  rw [List.map_id] at hinit
  simp only [setAuth, whitespace_gap hs hm, hmech, peek_gap hs', whitespace_gap hs'.2 hi, hinit,
    (eol_iff t ()).mpr ht, Option.bind_eq_bind, Option.bind_some, ↓reduceIte, List.append_assoc]
  rfl

/-- The space behind the mechanism promises an initial response, which does not come. -/
theorem setAuth_spaces {s m t : Bytes} (hs : Spaces s) (hm : Word m) (ht : Gap t) :
    setAuth (s ++ (m ++ t)) = none := by
  have hmech := getword_word tolower hm.2 ht.2.ends
  have hpeek := peek_gap ht []
  rw [List.append_nil] at hpeek
  simp [setAuth, whitespace_gap hs hm, hmech, hpeek, whitespace_end ht.2]

theorem setAuth_reads {p : Bytes} {r : Parsed} (h : setAuth p = some r) :
    (∃ s m, Spaces s ∧ Word m ∧ p = s ++ m ∧ r = (.AUTH, some (m.map tolower))) ∨
      ∃ s m s' i t, Spaces s ∧ Word m ∧ Gap s' ∧ Word i ∧ Spaces t ∧
        p = s ++ (m ++ (s' ++ (i ++ t))) ∧ r = (.AUTH, some (m.map tolower ++ SP :: i)) := by
  have hall := h
  simp only [setAuth, Option.bind_eq_bind, Option.bind_eq_some_iff] at h
  obtain ⟨q, hq, h⟩ := h
  obtain ⟨s, m, rest, hs, hm, hend, rfl, rfl, hword⟩ := word_some (f := tolower) hq
  rw [hword] at h
  split_ifs at h with hpeek
  · simp only [Option.bind_eq_some_iff] at h
    obtain ⟨q', hq', u, hu, -⟩ := h
    obtain ⟨s', i, t, hs', hi, -, rfl, rfl, hinit⟩ := word_some (f := id) hq'
    rw [hinit] at hu
    have hgap : Gap s' := gap_of_ends hs' hi hend
    have ht := (eol_iff t u).mp hu
    refine .inr ⟨s, m, s', i, t, hs, hm, hgap, hi, ht, rfl, ?_⟩
    exact (Option.some.inj ((setAuth_words hs hm hgap hi ht).symm.trans hall)).symm
  · simp only [Option.bind_eq_some_iff] at h
    obtain ⟨u, hu, -⟩ := h
    have hrest : rest = [] := by
      rcases hend with hnil | hsp
      · exact hnil
      · obtain ⟨v, rfl⟩ := List.head?_eq_some_iff.mp hsp
        exact absurd rfl hpeek
    subst hrest
    rw [List.append_nil] at hall ⊢
    exact .inl ⟨s, m, hs, hm, rfl, (Option.some.inj ((setAuth_word hs hm).symm.trans hall)).symm⟩

/-! ## A line and its reading -/

theorem Spells.word {keyword k : Bytes} (h : Spells keyword k) (hw : Word keyword) : Word k := by
  have hsp : SP < byte 'A' ∨ byte 'z' < SP := .inl (by decide)
  refine ⟨?_, fun hk => hw.2 ?_⟩
  · rintro rfl
    exact hw.1 (List.map_eq_nil_iff.mp h.symm)
  · rw [← mem_map_tolower hsp, ← h, mem_map_tolower hsp]
    exact hk

theorem keyword_word (verb : Verb) : Word verb.keyword := by
  cases verb <;> exact ⟨by decide, by decide⟩

/-- The parser has the two keywords in small letters. -/
theorem spells_from (f : Bytes) : Spells (text "from:") f ↔ Spells (text "FROM:") f := by
  have hsmall : (text "from:").map tolower = (text "FROM:").map tolower := by decide +kernel
  rw [Spells, Spells, hsmall]

theorem spells_to (f : Bytes) : Spells (text "to:") f ↔ Spells (text "TO:") f := by
  have hsmall : (text "to:").map tolower = (text "TO:").map tolower := by decide +kernel
  rw [Spells, Spells, hsmall]

/-- The first word of a line chooses the branch. -/
theorem parse_spells {verb : Verb} {k rest : Bytes} (hk : Spells verb.keyword k) (hend : Ends rest) :
    parse (k ++ rest) = branch (verb.keyword.map tolower) rest := by
  rw [parse, getword_word tolower (hk.word (keyword_word verb)).2 hend, hk]

theorem reads_hello {verb v : Verb} {k rest : Bytes} {a : Option Bytes}
    (hverb : verb = .HELO ∨ verb = .EHLO) (hk : Spells verb.keyword k) (hend : Ends rest)
    (h : setHello verb rest = some (v, a)) : Reads (k ++ rest) v a := by
  obtain ⟨s, w, t, hs, hw, ht, rfl, hr⟩ := setHello_reads h
  obtain ⟨rfl, rfl⟩ := Prod.mk.inj hr
  exact .hello hverb hk (gap_of_ends hs hw hend) hw ht

theorem reads_mail {v : Verb} {k rest : Bytes} {a : Option Bytes} (hk : Spells Verb.MAIL.keyword k)
    (hend : Ends rest) (h : setMail rest = some (v, a)) : Reads (k ++ rest) v a := by
  rw [setMail_eq] at h
  obtain ⟨q, hq, h⟩ := Option.bind_eq_some_iff.mp h
  obtain ⟨⟨a, tail⟩, ha, hr⟩ := Option.map_eq_some_iff.mp h
  obtain ⟨rfl, rfl⟩ := Prod.mk.inj hr
  obtain ⟨s, f, s', hs, hf, hs', rfl, c, v, rfl, hc⟩ := pathAt_some hq
  have hspells : Spells (text "FROM:") f := (spells_from f).mp hf
  have hword : Word f := hspells.word ⟨by decide, by decide⟩
  exact .mail hk (gap_of_ends hs hword hend) hspells hs' (address_path hc ha)

theorem reads_rcpt {v : Verb} {k rest : Bytes} {a : Option Bytes} (hk : Spells Verb.RCPT.keyword k)
    (hend : Ends rest) (h : setRcpt rest = some (v, a)) : Reads (k ++ rest) v a := by
  rw [setRcpt_eq] at h
  obtain ⟨q, hq, h⟩ := Option.bind_eq_some_iff.mp h
  obtain ⟨⟨a, tail⟩, ha, h⟩ := Option.bind_eq_some_iff.mp h
  obtain ⟨u, hu, hr⟩ := Option.map_eq_some_iff.mp h
  obtain ⟨rfl, rfl⟩ := Prod.mk.inj hr
  obtain ⟨s, f, s', hs, hf, hs', rfl, c, v, rfl, hc⟩ := pathAt_some hq
  have hspells : Spells (text "TO:") f := (spells_to f).mp hf
  have hword : Word f := hspells.word ⟨by decide, by decide⟩
  exact .rcpt hk (gap_of_ends hs hword hend) hspells hs' (address_path hc ha) ((eol_iff tail u).mp hu)

theorem reads_bare (verb : Verb) {v : Verb} {k rest : Bytes} {a : Option Bytes}
    (hverb : verb ∈ [.DATA, .QUIT, .RSET, .HELP, .NOOP, .STARTTLS]) (hk : Spells verb.keyword k)
    (h : setBare verb rest = some (v, a)) : Reads (k ++ rest) v a := by
  obtain ⟨ht, hr⟩ := setBare_iff.mp h
  obtain ⟨rfl, rfl⟩ := Prod.mk.inj hr
  exact .bare hverb hk ht

theorem reads_auth {v : Verb} {k rest : Bytes} {a : Option Bytes} (hk : Spells Verb.AUTH.keyword k)
    (hend : Ends rest) (h : setAuth rest = some (v, a)) : Reads (k ++ rest) v a := by
  obtain ⟨s, m, hs, hm, rfl, hr⟩ | ⟨s, m, s', i, t, hs, hm, hs', hi, ht, rfl, hr⟩ := setAuth_reads h
  · obtain ⟨rfl, rfl⟩ := Prod.mk.inj hr
    rw [← List.append_nil m] at hend
    have hread := Reads.auth hk (gap_of_ends hs hm hend) hm spaces_nil
    rwa [List.append_nil] at hread
  · obtain ⟨rfl, rfl⟩ := Prod.mk.inj hr
    exact .authInitial hk (gap_of_ends hs hm hend) hm hs' hi ht

/-- What is accepted is a form of the command. -/
theorem parse_reads {l : Bytes} {verb : Verb} {a : Option Bytes} (h : parse l = some (verb, a)) :
    Reads l verb a := by
  obtain ⟨k, hl, hcmd, -, hend⟩ := getword_some (f := tolower) (p := l) rfl
  rw [parse, hcmd] at h
  generalize (getword tolower SP l).2 = rest at h hl hend
  rw [hl]
  unfold branch at h
  obtain ⟨hc, h⟩ | ⟨-, h⟩ := ite_eq_iff.mp h
  · exact reads_hello (.inl rfl) hc hend h
  obtain ⟨hc, h⟩ | ⟨-, h⟩ := ite_eq_iff.mp h
  · exact reads_hello (.inr rfl) hc hend h
  obtain ⟨hc, h⟩ | ⟨-, h⟩ := ite_eq_iff.mp h
  · exact reads_mail hc hend h
  obtain ⟨hc, h⟩ | ⟨-, h⟩ := ite_eq_iff.mp h
  · exact reads_rcpt hc hend h
  obtain ⟨hc, h⟩ | ⟨-, h⟩ := ite_eq_iff.mp h
  · exact reads_bare .DATA (by decide) hc h
  obtain ⟨hc, h⟩ | ⟨-, h⟩ := ite_eq_iff.mp h
  · exact reads_bare .QUIT (by decide) hc h
  obtain ⟨hc, h⟩ | ⟨-, h⟩ := ite_eq_iff.mp h
  · exact reads_bare .RSET (by decide) hc h
  obtain ⟨hc, h⟩ | ⟨-, h⟩ := ite_eq_iff.mp h
  · exact reads_bare .HELP (by decide) hc h
  obtain ⟨hc, h⟩ | ⟨-, h⟩ := ite_eq_iff.mp h
  · exact reads_bare .NOOP (by decide) hc h
  obtain ⟨hc, h⟩ | ⟨-, h⟩ := ite_eq_iff.mp h
  · exact reads_auth hc hend h
  obtain ⟨hc, h⟩ | ⟨-, h⟩ := ite_eq_iff.mp h
  · exact reads_bare .STARTTLS (by decide) hc h
  cases h

/-- A form of a command is accepted as that command, where nothing but spaces
does not follow a mechanism. -/
theorem reads_parse {l : Bytes} {verb : Verb} {a : Option Bytes} (h : Reads l verb a)
    (hauth : ¬ AuthThenSpaces l) : parse l = some (verb, a) := by
  cases h with
  | hello hverb hk hs hw ht =>
    rw [parse_spells hk (hs.ends _)]
    rcases hverb with rfl | rfl
    · exact setHello_eq hs.2 hw ht
    · exact setHello_eq hs.2 hw ht
  | mail hk hs hf hs' hp =>
    have hfw := hf.word ⟨by decide, by decide⟩
    rw [parse_spells hk (hs.ends _)]
    exact setMail_path hs.2 ((spells_from _).mpr hf) hfw hs' hp
  | rcpt hk hs hf hs' hp ht =>
    have hfw := hf.word ⟨by decide, by decide⟩
    rw [parse_spells hk (hs.ends _)]
    exact setRcpt_path hs.2 ((spells_to _).mpr hf) hfw hs' hp ht
  | @bare verb k t hverb hk ht =>
    have hrest : setBare verb t = some (verb, none) := setBare_iff.mpr ⟨ht, rfl⟩
    rw [parse_spells hk ht.ends]
    simp only [List.mem_cons, List.not_mem_nil, or_false] at hverb
    rcases hverb with rfl | rfl | rfl | rfl | rfl | rfl <;> exact hrest
  | @auth k s m t hk hs hm ht =>
    have hnil : t = [] := by
      by_contra hne
      exact hauth ⟨k, s, m, t, hk, hs, hm, ⟨hne, ht⟩, rfl⟩
    rw [parse_spells hk (hs.ends _), hnil, List.append_nil]
    exact setAuth_word hs.2 hm
  | authInitial hk hs hm hs' hi ht =>
    rw [parse_spells hk (hs.ends _)]
    exact setAuth_words hs.2 hm hs' hi ht

theorem authThenSpaces_rejected {l : Bytes} (h : AuthThenSpaces l) : parse l = none := by
  obtain ⟨k, s, m, t, hk, hs, hm, ht, rfl⟩ := h
  rw [parse_spells hk (hs.ends _)]
  exact setAuth_spaces hs.2 hm ht

/-- A line is read by its grammar: each form of a command gives that command with
its argument, and every other line is refused. -/
def ReadByGrammar (l : Line) : Prop :=
  ∀ this : SMTPCommand,
    (∀ verb a, Reads l.bytes verb a →
      ∃ c, this.set l = some c ∧ c.cmd = verb ∧ c.argument = a) ∧
    ((¬ ∃ verb a, Reads l.bytes verb a) → this.set l = none)

/-- Every line is read by its grammar but `AUTH` and a mechanism with spaces behind it. -/
theorem readByGrammar_iff (l : Line) : ReadByGrammar l ↔ ¬ AuthThenSpaces l.bytes := by
  constructor
  · intro h hauth
    obtain ⟨k, s, m, t, hk, hs, hm, ht, hl⟩ := hauth
    have hread := Reads.auth hk hs hm ht.2
    rw [← hl] at hread
    obtain ⟨c, hc, -, -⟩ := (h {}).1 _ _ hread
    have hrej := authThenSpaces_rejected ⟨k, s, m, t, hk, hs, hm, ht, hl⟩
    cases hrej.symm.trans (set_some hc)
  · intro hauth this
    constructor
    · intro verb a hread
      have hp := reads_parse hread hauth
      obtain ⟨c, hc⟩ := set_of_parse hp this
      obtain ⟨hcmd, harg⟩ := Prod.mk.inj (Option.some.inj ((set_some hc).symm.trans hp))
      exact ⟨c, hc, hcmd, harg⟩
    · intro hnone
      by_contra hne
      obtain ⟨c, hc⟩ := Option.ne_none_iff_exists'.mp hne
      exact hnone ⟨c.cmd, c.argument, parse_reads (set_some hc)⟩

/-- `EHLO client ` is accepted and `AUTH login ` is not. -/
theorem auth_trailing_space :
    Reads (text "AUTH login ") .AUTH (some (text "login")) ∧
      (∃ c, SMTPCommand.set {} ⟨text "EHLO client ", by decide⟩ = some c) ∧
      SMTPCommand.set {} ⟨text "AUTH login ", by decide⟩ = none ∧
      ¬ ∀ l : Line, ReadByGrammar l := by
  have hread : Reads (text "AUTH login ") .AUTH (some (text "login")) :=
    Reads.auth (k := text "AUTH") (s := [SP]) (m := text "login") (t := [SP]) rfl
      ⟨by decide, by decide⟩ ⟨by decide, by decide⟩ (by decide)
  refine ⟨hread, ⟨_, rfl⟩, rfl, fun h => ?_⟩
  obtain ⟨c, hc, -, -⟩ := (h ⟨text "AUTH login ", by decide⟩ {}).1 _ _ hread
  cases hc

end SMTPCommand

end Spey
