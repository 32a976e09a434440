import Spey.SMTPCommand

/-!
# Commands that are printed and parsed again

What `SMTPCommand::set` returns is printed by `operator string` as a line that
parses to the same command again, whatever the letter case, the spaces and the
ignored rest of the first line were. The exception is an address that was given
without angle brackets: it may have a `>` in it, and is printed within brackets.
-/

namespace Spey.SMTPCommand

open Spey.Parser

/-- The command's own line is accepted, whatever was parsed before it, as the
same command with the same argument. -/
def RoundTrips (c : SMTPCommand) : Prop :=
  ∃ h : OneLine c.string, ∀ this : SMTPCommand, ∃ c', this.set ⟨c.string, h⟩ = some c' ∧
    c'.cmd = c.cmd ∧ c'.argument = c.argument

/-- Where the address starts, after the verb. -/
def pathAt (keyword p : Bytes) : Option Bytes := do
  let p ← whitespace p
  let p ← expect keyword p
  whitespace p

/-- Where the address of a `MAIL` or `RCPT` line starts. -/
def addressAt (l : Bytes) : Option Bytes :=
  let (cmd, p) := getword tolower SP l
  if cmd = text "mail" then pathAt (text "from:") p
  else if cmd = text "rcpt" then pathAt (text "to:") p
  else none

/-- The line gives an address without angle brackets that has a `>` in it. -/
def BareWithBracket (l : Bytes) : Prop :=
  ∃ q, addressAt l = some q ∧ peek q ≠ byte '<' ∧ byte '>' ∈ (getword id SP q).1

theorem setMail_eq (p : Bytes) : setMail p =
    (pathAt (text "from:") p).bind fun q => (address q).map fun a => (.MAIL, some a.1) := by
  simp only [setMail, Option.pure_def, Option.bind_eq_bind, pathAt, Option.map_eq_bind,
    Function.comp_def, Option.bind_assoc]

theorem setRcpt_eq (p : Bytes) : setRcpt p =
    (pathAt (text "to:") p).bind fun q => (address q).bind fun a =>
      (eol a.2).map fun _ => (.RCPT, some a.1) := by
  simp only [setRcpt, Option.pure_def, Option.bind_eq_bind, pathAt, Option.map_eq_bind,
    Function.comp_def, Option.bind_assoc]

/-! ## The printed line -/

theorem roundTrips_iff_parse (c : SMTPCommand) :
    RoundTrips c ↔ parse c.string = some (c.cmd, c.argument) := by
  constructor
  · rintro ⟨h, hset⟩
    obtain ⟨c', hc', hcmd, harg⟩ := hset c
    have hp := set_some hc'
    rw [hcmd, harg] at hp
    exact hp
  · intro hp
    refine ⟨string_oneLine c, fun this => ?_⟩
    obtain ⟨c', hc'⟩ := set_of_parse (l := ⟨c.string, string_oneLine c⟩) hp this
    have hp' := (set_some hc').symm.trans hp
    obtain ⟨hcmd, harg⟩ := Prod.mk.inj (Option.some.inj hp')
    exact ⟨c', hc', hcmd, harg⟩

/-! ## Parsing what was printed -/

theorem whitespace_word {a : Bytes} (hne : a ≠ []) (hsp : SP ∉ a) : whitespace (SP :: a) = some a := by
  cases a with
  | nil => exact absurd rfl hne
  | cons c a =>
    have hc : c ≠ SP := fun h => hsp (h ▸ List.mem_cons_self)
    rw [whitespace, if_pos rfl, whitespace_cons hc]

theorem setHello_word (verb : Verb) {a : Bytes} (hne : a ≠ []) (hsp : SP ∉ a) :
    setHello verb (SP :: a) = some (verb, some (a.map tolower)) := by
  simp [setHello, whitespace_word hne hsp, getword_all hsp, eol]

theorem pathAt_from (t : Bytes) :
    pathAt (text "from:") (text " FROM: " ++ byte '<' :: t) = some (byte '<' :: t) := rfl

theorem pathAt_to (t : Bytes) :
    pathAt (text "to:") (text " TO: " ++ byte '<' :: t) = some (byte '<' :: t) := rfl

/-- A bracketed address ends at its first `>`. -/
theorem address_bracketed {a : Bytes} (ha : byte '>' ∉ a) (rest : Bytes) :
    address (byte '<' :: (a ++ byte '>' :: rest)) = some (a.map tolower, rest) := by
  have hpeek : peek (byte '<' :: (a ++ byte '>' :: rest)) = byte '<' := rfl
  have hopen : expect (text "<") (byte '<' :: (a ++ byte '>' :: rest)) =
      some (a ++ byte '>' :: rest) := expect_append (text "<") _
  have hclose : expect (text ">") (byte '>' :: rest) = some rest := expect_append (text ">") _
  simp [address, hpeek, hopen, hclose, getword_append ha]

theorem setAuth_mechanism {m : Bytes} (hne : m ≠ []) (hsp : SP ∉ m) :
    setAuth (SP :: m) = some (.AUTH, some (m.map tolower)) := by
  have hpeek : peek [] ≠ SP := by decide
  simp [setAuth, whitespace_word hne hsp, getword_all hsp, hpeek, eol]

theorem setAuth_initial {m i : Bytes} (hm : m ≠ []) (hmsp : SP ∉ m) (hi : i ≠ []) (hisp : SP ∉ i) :
    setAuth (SP :: (m ++ SP :: i)) = some (.AUTH, some (m.map tolower ++ text " " ++ i)) := by
  have hword : whitespace (SP :: (m ++ SP :: i)) = some (m ++ SP :: i) := by
    cases m with
    | nil => exact absurd rfl hm
    | cons c m =>
      have hc : c ≠ SP := fun h => hmsp (h ▸ List.mem_cons_self)
      rw [whitespace, if_pos rfl, List.cons_append, whitespace_cons hc]
  have hpeek : peek (SP :: i) = SP := rfl
  simp [setAuth, hword, getword_append hmsp, hpeek, whitespace_word hi hisp, getword_all hisp, eol]

/-- A verb and its argument are taken apart at the first space. -/
theorem parse_verb (verb : Bytes) (hsp : SP ∉ verb) (rest : Bytes) :
    parse (verb ++ SP :: rest) = branch (verb.map tolower) (SP :: rest) := by
  rw [parse, getword_append hsp]

theorem parse_helo (a : Bytes) : parse (text "HELO " ++ a) = setHello .HELO (SP :: a) :=
  parse_verb (text "HELO") (by decide) a

theorem parse_ehlo (a : Bytes) : parse (text "EHLO " ++ a) = setHello .EHLO (SP :: a) :=
  parse_verb (text "EHLO") (by decide) a

theorem parse_auth (a : Bytes) : parse (text "AUTH " ++ a) = setAuth (SP :: a) :=
  parse_verb (text "AUTH") (by decide) a

theorem parse_mail (a : Bytes) : parse (text "MAIL FROM: <" ++ a ++ text ">") =
    (address (byte '<' :: (a ++ byte '>' :: []))).map fun a => (.MAIL, some a.1) := by
  have hparse : parse (text "MAIL FROM: <" ++ a ++ text ">") =
      setMail (text " FROM: " ++ byte '<' :: (a ++ byte '>' :: [])) :=
    parse_verb (text "MAIL") (by decide) _
  rw [hparse, setMail_eq, pathAt_from, Option.bind_some]

theorem parse_rcpt (a : Bytes) : parse (text "RCPT TO: <" ++ a ++ text ">") =
    (address (byte '<' :: (a ++ byte '>' :: []))).bind fun a =>
      (eol a.2).map fun _ => (.RCPT, some a.1) := by
  have hparse : parse (text "RCPT TO: <" ++ a ++ text ">") =
      setRcpt (text " TO: " ++ byte '<' :: (a ++ byte '>' :: [])) :=
    parse_verb (text "RCPT") (by decide) _
  rw [hparse, setRcpt_eq, pathAt_to, Option.bind_some]

/-- An address with a `>` in it is cut short when it is read within brackets. -/
theorem address_cut {a b rest rest' : Bytes} (ha : byte '>' ∈ a)
    (h : address (byte '<' :: (a ++ byte '>' :: rest)) = some (b, rest')) : b.length < a.length := by
  obtain ⟨u, v, rfl, hu⟩ := List.eq_append_cons_of_mem ha
  have hcut := address_bracketed hu (v ++ byte '>' :: rest)
  rw [List.append_assoc, List.cons_append, hcut] at h
  obtain ⟨rfl, -⟩ := Prod.mk.inj (Option.some.inj h)
  simp only [List.length_map, List.length_append, List.length_cons]
  omega

theorem parse_mail_iff {a : Bytes} (hlow : a.map tolower = a) :
    parse (text "MAIL FROM: <" ++ a ++ text ">") = some (.MAIL, some a) ↔ byte '>' ∉ a := by
  rw [parse_mail]
  constructor
  · intro h ha
    obtain ⟨⟨b, rest⟩, hb, hr⟩ := Option.map_eq_some_iff.mp h
    have hlt := address_cut ha hb
    obtain rfl := Option.some.inj (Prod.mk.inj hr).2
    exact absurd hlt (Nat.lt_irrefl _)
  · intro ha
    rw [address_bracketed ha, Option.map_some, hlow]

theorem parse_rcpt_iff {a : Bytes} (hlow : a.map tolower = a) :
    parse (text "RCPT TO: <" ++ a ++ text ">") = some (.RCPT, some a) ↔ byte '>' ∉ a := by
  rw [parse_rcpt]
  constructor
  · intro h ha
    obtain ⟨⟨b, rest⟩, hb, h⟩ := Option.bind_eq_some_iff.mp h
    obtain ⟨-, -, hr⟩ := Option.map_eq_some_iff.mp h
    have hlt := address_cut ha hb
    obtain rfl := Option.some.inj (Prod.mk.inj hr).2
    exact absurd hlt (Nat.lt_irrefl _)
  · intro ha
    simp [address_bracketed ha, hlow, eol]

/-! ## The round trip -/

theorem mem_map_tolower {d : Byte} (hd : d < byte 'A' ∨ byte 'z' < d) {w : Bytes} :
    d ∈ w.map tolower ↔ d ∈ w := by
  rw [List.mem_map]
  constructor
  · rintro ⟨c, hc, he⟩
    rwa [← (tolower_eq_of_not_lower hd).mp he]
  · intro h
    exact ⟨d, h, (tolower_eq_of_not_lower hd).mpr rfl⟩

/-- Whether an address has a `>` in it shows where it starts. -/
theorem bracket_mem_address {q a rest : Bytes} (h : address q = some (a, rest)) :
    a.map tolower = a ∧
      (byte '>' ∈ a ↔ peek q ≠ byte '<' ∧ byte '>' ∈ (getword id SP q).1) := by
  have hclose : byte '>' < byte 'A' ∨ byte 'z' < byte '>' := .inl (by decide)
  by_cases hq : peek q = byte '<'
  · obtain ⟨w, -, rfl, hw⟩ := address_some h
    refine ⟨map_tolower_map_tolower w, ?_⟩
    rw [mem_map_tolower hclose]
    exact ⟨fun hin => absurd hin (hw hq), fun hin => absurd hq hin.1⟩
  · rw [address, if_neg hq] at h
    obtain ⟨w, hw, hlow, hsp, hrest⟩ := getword_spec tolower SP q
    have ha : a = w.map tolower := by
      rw [← hlow]
      exact (congrArg Prod.fst (Option.some.inj h)).symm
    have hword : (getword id SP q).1 = w := by
      rw [hw]
      rcases hrest with hr | ⟨t, hr⟩
      · rw [hr, List.append_nil, getword_all hsp, List.map_id]
      · rw [hr, getword_append hsp, List.map_id]
    refine ⟨by rw [ha, map_tolower_map_tolower], ?_⟩
    rw [ha, mem_map_tolower hclose, hword]
    exact ⟨fun hin => ⟨hq, hin⟩, And.right⟩

theorem not_bareWithBracket {l : Bytes}
    (h : (getword tolower SP l).1 ≠ text "mail" ∧ (getword tolower SP l).1 ≠ text "rcpt") :
    ¬ BareWithBracket l := by
  rintro ⟨q, hq, -⟩
  simp only [addressAt, if_neg h.1, if_neg h.2] at hq
  cases hq

/-- The line's own address decides, where there is one. -/
theorem bareWithBracket_iff {l q a rest : Bytes} (hq : addressAt l = some q)
    (ha : address q = some (a, rest)) : BareWithBracket l ↔ byte '>' ∈ a := by
  rw [(bracket_mem_address ha).2]
  constructor
  · rintro ⟨q', hq', h⟩
    rw [hq] at hq'
    obtain rfl := Option.some.inj hq'
    exact h
  · intro h
    exact ⟨q, hq, h⟩

/-- What was accepted once is accepted again in its lower-case form. -/
theorem setHello_again {verb : Verb} {q a : Bytes} (h : setHello verb q = some (verb, some a)) :
    setHello verb (SP :: a) = some (verb, some a) := by
  obtain ⟨w, -, hne, hsp, hr⟩ := setHello_some h
  obtain rfl : a = w.map tolower := Option.some.inj (Prod.mk.inj hr).2
  have hne' : w.map tolower ≠ [] := by simpa using hne
  have hsp' : SP ∉ w.map tolower := by rwa [mem_map_tolower (.inl (by decide))]
  rw [setHello_word verb hne' hsp', map_tolower_map_tolower]

theorem setAuth_again {q a : Bytes} (h : setAuth q = some (.AUTH, some a)) :
    setAuth (SP :: a) = some (.AUTH, some a) := by
  obtain ⟨m, -, hne, hsp, hr⟩ := setAuth_some h
  have hne' : m.map tolower ≠ [] := by simpa using hne
  have hsp' : SP ∉ m.map tolower := by rwa [mem_map_tolower (.inl (by decide))]
  rcases hr with hr | ⟨i, -, hine, hisp, hr⟩
  · obtain rfl : a = m.map tolower := Option.some.inj (Prod.mk.inj hr).2
    rw [setAuth_mechanism hne' hsp', map_tolower_map_tolower]
  · obtain rfl : a = m.map tolower ++ SP :: i := by
      rw [Option.some.inj (Prod.mk.inj hr).2, List.append_assoc]
      rfl
    rw [setAuth_initial hne' hsp' hine hisp, map_tolower_map_tolower, List.append_assoc]
    rfl

/-- An accepted command prints a line that is accepted as the same command with
the same argument, unless its line gave a bare address with a `>` in it. -/
theorem roundTrips_iff (this c : SMTPCommand) (l : Line) (h : this.set l = some c) :
    RoundTrips c ↔ ¬ BareWithBracket l.bytes := by
  rw [roundTrips_iff_parse]
  have hp := set_some h
  obtain ⟨cmd, parameter⟩ := c
  cases branch_some hp with
  | helo hcmd h =>
    have hnot := not_bareWithBracket (l := l.bytes) (by rw [hcmd]; decide)
    obtain ⟨_, -, -, -, hr⟩ := setHello_some h
    obtain rfl : cmd = .HELO := (Prod.mk.inj hr).1
    refine iff_of_true ?_ hnot
    simp only [string, argument, parse_helo]
    exact setHello_again h
  | ehlo hcmd h =>
    have hnot := not_bareWithBracket (l := l.bytes) (by rw [hcmd]; decide)
    obtain ⟨_, -, -, -, hr⟩ := setHello_some h
    obtain rfl : cmd = .EHLO := (Prod.mk.inj hr).1
    refine iff_of_true ?_ hnot
    simp only [string, argument, parse_ehlo]
    exact setHello_again h
  | mail hcmd h =>
    rw [setMail_eq] at h
    obtain ⟨q, hq, h⟩ := Option.bind_eq_some_iff.mp h
    obtain ⟨⟨a, rest⟩, ha, hr⟩ := Option.map_eq_some_iff.mp h
    obtain ⟨rfl, harg⟩ := Prod.mk.inj hr
    obtain rfl : a = parameter.bytes := Option.some.inj harg
    have hat : addressAt l.bytes = some q := by simp only [addressAt, hcmd, ↓reduceIte, hq]
    rw [bareWithBracket_iff hat ha]
    exact parse_mail_iff (bracket_mem_address ha).1
  | rcpt hcmd h =>
    rw [setRcpt_eq] at h
    obtain ⟨q, hq, h⟩ := Option.bind_eq_some_iff.mp h
    obtain ⟨⟨a, rest⟩, ha, h⟩ := Option.bind_eq_some_iff.mp h
    obtain ⟨-, -, hr⟩ := Option.map_eq_some_iff.mp h
    obtain ⟨rfl, harg⟩ := Prod.mk.inj hr
    obtain rfl : a = parameter.bytes := Option.some.inj harg
    have hmail : text "rcpt" ≠ text "mail" := by decide
    have hat : addressAt l.bytes = some q := by
      simp only [addressAt, hcmd, if_neg hmail, ↓reduceIte, hq]
    rw [bareWithBracket_iff hat ha]
    exact parse_rcpt_iff (bracket_mem_address ha).1
  | auth hcmd h =>
    have hnot := not_bareWithBracket (l := l.bytes) (by rw [hcmd]; decide)
    have hauth : cmd = .AUTH := by
      obtain ⟨_, -, -, -, hr | ⟨_, -, -, -, hr⟩⟩ := setAuth_some h
      · exact (Prod.mk.inj hr).1
      · exact (Prod.mk.inj hr).1
    subst hauth
    refine iff_of_true ?_ hnot
    simp only [string, argument, parse_auth]
    exact setAuth_again h
  | bare verb hverb hcmd h =>
    refine iff_of_true ?_ (not_bareWithBracket hcmd)
    obtain ⟨rfl, -⟩ := Prod.mk.inj (setBare_some h)
    simp only [List.mem_cons, List.not_mem_nil, or_false] at hverb
    rcases hverb with rfl | rfl | rfl | rfl | rfl | rfl <;> rfl

/-- The bare address `a@b>c` is checked, but `a@b` is what the printed line says. -/
theorem bare_bracket_differs :
    SMTPCommand.set {} ⟨text "MAIL FROM:a@b>c", by decide⟩ =
        some ⟨.MAIL, ⟨text "a@b>c", by decide⟩⟩ ∧
      SMTPCommand.set {} ⟨text "MAIL FROM: <a@b>c>", by decide⟩ =
        some ⟨.MAIL, ⟨text "a@b", by decide⟩⟩ ∧
      ¬ ∀ (this : SMTPCommand) (l : Line) (c : SMTPCommand), this.set l = some c → RoundTrips c := by
  refine ⟨rfl, rfl, fun h => ?_⟩
  obtain ⟨_, hset⟩ := h {} ⟨text "MAIL FROM:a@b>c", by decide⟩ _ rfl
  obtain ⟨c', hc', -, harg⟩ := hset {}
  obtain rfl : c' = ⟨.MAIL, ⟨text "a@b", by decide⟩⟩ := Option.some.inj (hc'.symm.trans rfl)
  exact absurd harg (by decide)

theorem roundTrips_mail :
    SMTPCommand.set {} ⟨text "mail  From: <A@b> SIZE=10", by decide⟩ =
        some ⟨.MAIL, ⟨text "a@b", by decide⟩⟩ ∧
      (RoundTrips ⟨.MAIL, ⟨text "a@b", by decide⟩⟩ ↔
        ¬ BareWithBracket (text "mail  From: <A@b> SIZE=10")) :=
  ⟨rfl, roundTrips_iff {} _ ⟨text "mail  From: <A@b> SIZE=10", by decide⟩ rfl⟩

end Spey.SMTPCommand
