import Spey.Parser

/-!
# SMTPCommand.cc

`SMTPCommand.set` parses one line that was read from the client; `none` is an
`InvalidSMTPCommandException`. The source writes the members of the object while
it parses, so a line that fails half way leaves them changed; nothing reads them
before the next line has been parsed, and the model keeps the old ones there.
Commands without an argument leave the parameter of an earlier command in place.
A parameter is part of a line, so it has no line breaks either.
-/

namespace Spey

inductive Verb where
  | HELO | EHLO | MAIL | RCPT | DATA | VRFY | RSET | EXPN | HELP | NOOP | QUIT | AUTH | STARTTLS
  deriving DecidableEq, Repr

structure SMTPCommand where
  cmd : Verb := .HELO
  parameter : Line := ⟨[], oneLine_nil⟩
  deriving DecidableEq

namespace SMTPCommand

open Spey.Parser

/-- What a line assigns: the command and, for a verb with an argument, the parameter. -/
abbrev Parsed := Verb × Option Bytes

/-- `HELO` and `EHLO` after the verb. -/
def setHello (verb : Verb) (p : Bytes) : Option Parsed := do
  let p ← whitespace p
  let (parameter, p) := getword tolower SP p
  eol p
  return (verb, some parameter)

/-- The address of `MAIL` and `RCPT`, in angle brackets or as a bare word. -/
def address (p : Bytes) : Option (Bytes × Bytes) :=
  if peek p = byte '<' then do
    let p ← expect (text "<") p
    let (parameter, p) := getword tolower (byte '>') p
    let p ← expect (text ">") p
    return (parameter, p)
  else some (getword tolower SP p)

def setMail (p : Bytes) : Option Parsed := do
  let p ← whitespace p
  let p ← expect (text "from:") p
  let p ← whitespace p
  -- the rest of the line is ignored: mailers add SIZE=1234 there
  let (parameter, _) ← address p
  return (.MAIL, some parameter)

def setRcpt (p : Bytes) : Option Parsed := do
  let p ← whitespace p
  let p ← expect (text "to:") p
  let p ← whitespace p
  let (parameter, p) ← address p
  eol p
  return (.RCPT, some parameter)

def setAuth (p : Bytes) : Option Parsed := do
  let p ← whitespace p
  let (mechanism, p) := getword tolower SP p
  if peek p = SP then
    let p ← whitespace p
    let (initial, p) := getword id SP p
    eol p
    return (.AUTH, some (mechanism ++ text " " ++ initial))
  else
    eol p
    return (.AUTH, some mechanism)

/-- A verb that stands alone on its line. -/
def setBare (verb : Verb) (p : Bytes) : Option Parsed := do
  eol p
  return (verb, none)

/-- The branches over the first word of the line. -/
def branch (cmd p : Bytes) : Option Parsed :=
  if cmd = text "helo" then setHello .HELO p
  else if cmd = text "ehlo" then setHello .EHLO p
  else if cmd = text "mail" then setMail p
  else if cmd = text "rcpt" then setRcpt p
  else if cmd = text "data" then setBare .DATA p
  else if cmd = text "quit" then setBare .QUIT p
  else if cmd = text "rset" then setBare .RSET p
  else if cmd = text "help" then setBare .HELP p
  else if cmd = text "noop" then setBare .NOOP p
  else if cmd = text "auth" then setAuth p
  else if cmd = text "starttls" then setBare .STARTTLS p
  else none

def parse (l : Bytes) : Option Parsed :=
  branch (getword tolower SP l).1 (getword tolower SP l).2

theorem setHello_some {verb : Verb} {p : Bytes} {r : Parsed} (h : setHello verb p = some r) :
    ∃ w : Bytes, w.Sublist p ∧ w ≠ [] ∧ SP ∉ w ∧ r = (verb, some (w.map tolower)) := by
  simp only [setHello, Option.bind_eq_bind, Option.bind_eq_some_iff] at h
  obtain ⟨q, hq, -, -, hr⟩ := h
  obtain ⟨w, hw, hne, hsp, hword, -⟩ := word_of_whitespace tolower hq
  exact ⟨w, hw, hne, hsp, by rw [← hword]; exact (Option.some.inj hr).symm⟩

/-- A bracketed address has no `>`, a bare one has no space and starts with
another byte than `<`. -/
theorem address_some {p a rest : Bytes} (h : address p = some (a, rest)) :
    ∃ w : Bytes, w.Sublist p ∧ a = w.map tolower ∧ (peek p = byte '<' → byte '>' ∉ w) := by
  unfold address at h
  split_ifs at h with hp
  · simp only [Option.bind_eq_bind, Option.bind_eq_some_iff] at h
    obtain ⟨q, hq, q', -, hr⟩ := h
    obtain ⟨w, hw, hmap, hd, -⟩ := getword_spec tolower (byte '>') q
    refine ⟨w, ?_, ?_, fun _ => hd⟩
    · have hsub : w.Sublist q := by rw [hw]; exact List.sublist_append_left w _
      exact hsub.trans (expect_sublist hq)
    · rw [← hmap]
      exact (congrArg Prod.fst (Option.some.inj hr)).symm
  · obtain ⟨w, hw, hmap, -, -⟩ := getword_spec tolower SP p
    refine ⟨w, ?_, ?_, fun he => absurd he hp⟩
    · conv_rhs => rw [hw]
      exact List.sublist_append_left w _
    · rw [← hmap]
      exact (congrArg Prod.fst (Option.some.inj h)).symm

theorem setMail_some {p : Bytes} {r : Parsed} (h : setMail p = some r) :
    ∃ q a rest : Bytes, q.Sublist p ∧ address q = some (a, rest) ∧ r = (.MAIL, some a) := by
  simp only [setMail, Option.bind_eq_bind, Option.bind_eq_some_iff] at h
  obtain ⟨q₁, h₁, q₂, h₂, q₃, h₃, ⟨a, rest⟩, ha, hr⟩ := h
  exact ⟨q₃, a, rest, (whitespace_sublist h₃).trans
    ((expect_sublist h₂).trans (whitespace_sublist h₁)), ha, (Option.some.inj hr).symm⟩

theorem setRcpt_some {p : Bytes} {r : Parsed} (h : setRcpt p = some r) :
    ∃ q a rest : Bytes, q.Sublist p ∧ address q = some (a, rest) ∧ r = (.RCPT, some a) := by
  simp only [setRcpt, Option.bind_eq_bind, Option.bind_eq_some_iff] at h
  obtain ⟨q₁, h₁, q₂, h₂, q₃, h₃, ⟨a, rest⟩, ha, -, -, hr⟩ := h
  exact ⟨q₃, a, rest, (whitespace_sublist h₃).trans
    ((expect_sublist h₂).trans (whitespace_sublist h₁)), ha, (Option.some.inj hr).symm⟩

/-- The parameter of AUTH is a mechanism, or a mechanism and an initial response. -/
theorem setAuth_some {p : Bytes} {r : Parsed} (h : setAuth p = some r) :
    ∃ m : Bytes, m.Sublist p ∧ m ≠ [] ∧ SP ∉ m ∧ (r = (.AUTH, some (m.map tolower)) ∨
      ∃ i : Bytes, i.Sublist p ∧ i ≠ [] ∧ SP ∉ i ∧
        r = (.AUTH, some (m.map tolower ++ text " " ++ i))) := by
  simp only [setAuth, Option.bind_eq_bind, Option.bind_eq_some_iff] at h
  obtain ⟨q, hq, hr⟩ := h
  obtain ⟨m, hm, hne, hsp, hword, hrest⟩ := word_of_whitespace tolower hq
  refine ⟨m, hm, hne, hsp, ?_⟩
  rw [hword] at hr
  split_ifs at hr with hpeek
  · simp only [Option.bind_eq_some_iff] at hr
    obtain ⟨q', hq', -, -, hr⟩ := hr
    obtain ⟨i, hi, hine, hisp, hiword, -⟩ := word_of_whitespace id hq'
    refine .inr ⟨i, hi.trans hrest, hine, hisp, ?_⟩
    rw [hiword, List.map_id] at hr
    exact (Option.some.inj hr).symm
  · simp only [Option.bind_eq_some_iff] at hr
    obtain ⟨-, -, hr⟩ := hr
    exact .inl (Option.some.inj hr).symm

theorem setBare_some {verb : Verb} {p : Bytes} {r : Parsed} (h : setBare verb p = some r) :
    r = (verb, none) := by
  simp only [setBare, Option.bind_eq_bind, Option.bind_eq_some_iff] at h
  obtain ⟨-, -, hr⟩ := h
  exact (Option.some.inj hr).symm

/-- The branch that the first word `cmd` of a line takes, with the rest `p` of the line. -/
inductive Taken (cmd p : Bytes) (r : Parsed) : Prop
  | helo (hcmd : cmd = text "helo") (h : setHello .HELO p = some r)
  | ehlo (hcmd : cmd = text "ehlo") (h : setHello .EHLO p = some r)
  | mail (hcmd : cmd = text "mail") (h : setMail p = some r)
  | rcpt (hcmd : cmd = text "rcpt") (h : setRcpt p = some r)
  | auth (hcmd : cmd = text "auth") (h : setAuth p = some r)
  | bare (verb : Verb) (hverb : verb ∈ [.DATA, .QUIT, .RSET, .HELP, .NOOP, .STARTTLS])
      (hcmd : cmd ≠ text "mail" ∧ cmd ≠ text "rcpt") (h : setBare verb p = some r)

theorem branch_some {cmd p : Bytes} {r : Parsed} (h : branch cmd p = some r) : Taken cmd p r := by
  unfold branch at h
  obtain ⟨hc, h⟩ | ⟨-, h⟩ := ite_eq_iff.mp h
  · exact .helo hc h
  obtain ⟨hc, h⟩ | ⟨-, h⟩ := ite_eq_iff.mp h
  · exact .ehlo hc h
  obtain ⟨hc, h⟩ | ⟨hmail, h⟩ := ite_eq_iff.mp h
  · exact .mail hc h
  obtain ⟨hc, h⟩ | ⟨hrcpt, h⟩ := ite_eq_iff.mp h
  · exact .rcpt hc h
  obtain ⟨-, h⟩ | ⟨-, h⟩ := ite_eq_iff.mp h
  · exact .bare .DATA (by decide) ⟨hmail, hrcpt⟩ h
  obtain ⟨-, h⟩ | ⟨-, h⟩ := ite_eq_iff.mp h
  · exact .bare .QUIT (by decide) ⟨hmail, hrcpt⟩ h
  obtain ⟨-, h⟩ | ⟨-, h⟩ := ite_eq_iff.mp h
  · exact .bare .RSET (by decide) ⟨hmail, hrcpt⟩ h
  obtain ⟨-, h⟩ | ⟨-, h⟩ := ite_eq_iff.mp h
  · exact .bare .HELP (by decide) ⟨hmail, hrcpt⟩ h
  obtain ⟨-, h⟩ | ⟨-, h⟩ := ite_eq_iff.mp h
  · exact .bare .NOOP (by decide) ⟨hmail, hrcpt⟩ h
  obtain ⟨hc, h⟩ | ⟨-, h⟩ := ite_eq_iff.mp h
  · exact .auth hc h
  obtain ⟨-, h⟩ | ⟨-, h⟩ := ite_eq_iff.mp h
  · exact .bare .STARTTLS (by decide) ⟨hmail, hrcpt⟩ h
  cases h

/-- The parameter is made of pieces of the line, so it is one line like it. -/
theorem parse_oneLine {l a : Bytes} {verb : Verb} (h : parse l = some (verb, some a))
    (hl : OneLine l) : OneLine a := by
  have hp : OneLine (getword tolower SP l).2 := by
    obtain ⟨w, hw, -, -, -⟩ := getword_spec tolower SP l
    rw [hw, oneLine_append] at hl
    exact hl.2
  cases branch_some h with
  | helo _ h | ehlo _ h =>
    obtain ⟨w, hw, -, -, hr⟩ := setHello_some h
    obtain rfl := Option.some.inj (Prod.mk.inj hr).2
    exact (hp.sublist hw).map_tolower
  | mail _ h =>
    obtain ⟨q, a', rest, hq, ha, hr⟩ := setMail_some h
    obtain rfl := Option.some.inj (Prod.mk.inj hr).2
    obtain ⟨w, hw, rfl, -⟩ := address_some ha
    exact (hp.sublist (hw.trans hq)).map_tolower
  | rcpt _ h =>
    obtain ⟨q, a', rest, hq, ha, hr⟩ := setRcpt_some h
    obtain rfl := Option.some.inj (Prod.mk.inj hr).2
    obtain ⟨w, hw, rfl, -⟩ := address_some ha
    exact (hp.sublist (hw.trans hq)).map_tolower
  | auth _ h =>
    obtain ⟨m, hm, -, -, hr | ⟨i, hi, -, -, hr⟩⟩ := setAuth_some h
    · obtain rfl := Option.some.inj (Prod.mk.inj hr).2
      exact (hp.sublist hm).map_tolower
    · obtain rfl := Option.some.inj (Prod.mk.inj hr).2
      simp only [oneLine_append]
      exact ⟨⟨(hp.sublist hm).map_tolower, by decide⟩, hp.sublist hi⟩
  | bare verb' _ _ h => cases (Prod.mk.inj (setBare_some h)).2

/-- `SMTPCommand::set(Socket&)`, on the line it has read. -/
def set (this : SMTPCommand) (l : Line) : Option SMTPCommand :=
  match h : parse l.bytes with
  | none => none
  | some (verb, none) => some { this with cmd := verb }
  | some (verb, some parameter) => some ⟨verb, parameter, parse_oneLine h l.oneLine⟩

/-- `SMTPCommand::operator string`. -/
def string (this : SMTPCommand) : Bytes :=
  match this.cmd with
  | .HELO => text "HELO " ++ this.parameter.bytes
  | .EHLO => text "EHLO " ++ this.parameter.bytes
  | .MAIL => text "MAIL FROM: <" ++ this.parameter.bytes ++ text ">"
  | .RCPT => text "RCPT TO: <" ++ this.parameter.bytes ++ text ">"
  | .DATA => text "DATA"
  | .HELP => text "HELP"
  | .NOOP => text "NOOP"
  | .RSET => text "RSET"
  | .QUIT => text "QUIT"
  | .AUTH => text "AUTH " ++ this.parameter.bytes
  | .STARTTLS => text "STARTTLS"
  | .VRFY | .EXPN => []

/-- The argument a command carries, where its verb has one. -/
def argument (this : SMTPCommand) : Option Bytes :=
  match this.cmd with
  | .HELO | .EHLO | .MAIL | .RCPT | .AUTH => some this.parameter.bytes
  | _ => none

/-- A verb comes with an argument exactly when its rule gives one. -/
theorem parse_argument {l : Bytes} {verb : Verb} {a : Option Bytes}
    (h : parse l = some (verb, a)) (this : SMTPCommand) (ha : ∀ b, a = some b → this.parameter.bytes = b) :
    SMTPCommand.argument { this with cmd := verb } = a := by
  cases branch_some h with
  | helo _ h | ehlo _ h =>
    obtain ⟨w, -, -, -, hr⟩ := setHello_some h
    obtain ⟨rfl, rfl⟩ := Prod.mk.inj hr
    exact congrArg some (ha _ rfl)
  | mail _ h =>
    obtain ⟨q, b, rest, -, -, hr⟩ := setMail_some h
    obtain ⟨rfl, rfl⟩ := Prod.mk.inj hr
    exact congrArg some (ha _ rfl)
  | rcpt _ h =>
    obtain ⟨q, b, rest, -, -, hr⟩ := setRcpt_some h
    obtain ⟨rfl, rfl⟩ := Prod.mk.inj hr
    exact congrArg some (ha _ rfl)
  | auth _ h =>
    obtain ⟨m, -, -, -, hr | ⟨i, -, -, -, hr⟩⟩ := setAuth_some h
    · obtain ⟨rfl, rfl⟩ := Prod.mk.inj hr
      exact congrArg some (ha _ rfl)
    · obtain ⟨rfl, rfl⟩ := Prod.mk.inj hr
      exact congrArg some (ha _ rfl)
  | bare verb' hverb _ h =>
    obtain ⟨rfl, rfl⟩ := Prod.mk.inj (setBare_some h)
    simp only [List.mem_cons, List.not_mem_nil, or_false] at hverb
    rcases hverb with rfl | rfl | rfl | rfl | rfl | rfl <;> rfl

theorem set_some {this c : SMTPCommand} {l : Line} (h : this.set l = some c) :
    parse l.bytes = some (c.cmd, c.argument) := by
  unfold set at h
  split at h
  next => cases h
  next verb hp =>
    obtain rfl := Option.some.inj h
    have harg := parse_argument hp this nofun
    exact hp.trans (congrArg (fun a => some (verb, a)) harg.symm)
  next verb parameter hp =>
    obtain rfl := Option.some.inj h
    have harg := parse_argument hp ⟨verb, ⟨parameter, parse_oneLine hp l.oneLine⟩⟩
      fun b hb => Option.some.inj hb
    exact hp.trans (congrArg (fun a => some (verb, a)) harg.symm)

theorem set_none {this : SMTPCommand} {l : Line} (h : this.set l = none) : parse l.bytes = none := by
  unfold set at h
  split at h
  next hp => exact hp
  next => cases h
  next => cases h

theorem set_of_parse {l : Line} {r : Parsed} (h : parse l.bytes = some r) (this : SMTPCommand) :
    ∃ c, this.set l = some c := by
  unfold set
  split
  next hp => rw [hp] at h; cases h
  next => exact ⟨_, rfl⟩
  next => exact ⟨_, rfl⟩

/-- No command prints a line break: its parameter is a line. -/
theorem string_oneLine (c : SMTPCommand) : OneLine c.string := by
  obtain ⟨cmd, parameter, hp⟩ := c
  cases cmd <;> simp only [string, oneLine_append, hp, and_true] <;> decide

end SMTPCommand

end Spey
