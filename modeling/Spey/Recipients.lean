import Mathlib.Data.List.Perm.Subperm
import Spey.Greylist.Engine
import Spey.Speyctl.Atomicity
import Spey.Wire.CommandRoundTrip

/-!
# A recipient rule and the address that it spells

`speyctl recipient add` puts the two halves of its argument into
`validrecipients` as they are. `testacceptance` compares the halves of an address
with them, but the address went through the parser, which makes its letters
small, and SQL compares the letters exactly. So the rule admits the address it spells if
there is no capital letter in it, and otherwise no address at all.
-/

namespace Spey

namespace Settings

/-- `recipient.substr(0, i)`, where `i` is the place of the first `@`, or -1. -/
def addressPart (recipient : Bytes) : Bytes := recipient.takeWhile (· ≠ byte '@')

/-- `recipient.substr(i + 1)` -/
def domainPart (recipient : Bytes) : Bytes :=
  if byte '@' ∈ recipient then (recipient.dropWhile (· ≠ byte '@')).drop 1 else recipient

/-- `((left = '') OR (left = %Q)) AND ((right = '') OR (right = %Q))` -/
def Matches (address domain : Bytes) (row : Row) : Prop :=
  (row.1 = some (.text []) ∨ row.1 = some (.text address)) ∧
    (row.2 = some (.text []) ∨ row.2 = some (.text domain))
  deriving Decidable

/-- `Settings::testacceptance`, on the rows of `validrecipients` -/
def testacceptance (rows : List Row) (recipient : Bytes) : Bool :=
  getint (rows.countP fun row =>
    Matches (cstr (addressPart recipient)) (cstr (domainPart recipient)) row) ≠ 0

variable {rows : List Row} {recipient : Bytes}

theorem matches_of_accepts (h : testacceptance rows recipient = true) : ∃ row ∈ rows,
    Matches (cstr (addressPart recipient)) (cstr (domainPart recipient)) row := by
  by_contra hnone
  have hcount : rows.countP (fun row =>
      Matches (cstr (addressPart recipient)) (cstr (domainPart recipient)) row) = 0 := by
    rw [List.countP_eq_zero]
    intro row hrow hmatches
    exact hnone ⟨row, hrow, of_decide_eq_true hmatches⟩
  rw [testacceptance, hcount] at h
  exact absurd h (by decide)

/-- At most four different rows match an address. -/
theorem count_matches (hrows : rows.Nodup) (address domain : Bytes) :
    rows.countP (fun row => Matches address domain row) ≤ 4 := by
  rw [List.countP_eq_length_filter]
  have hsubset : rows.filter (fun row => Matches address domain row) ⊆
      [(some (.text []), some (.text [])), (some (.text []), some (.text domain)),
        (some (.text address), some (.text [])), (some (.text address), some (.text domain))] := by
    intro row hrow
    have hmatches : Matches address domain row := by simpa using (List.mem_filter.mp hrow).2
    obtain ⟨left, right⟩ := row
    obtain ⟨hleft | hleft, hright | hright⟩ := hmatches
    all_goals
      dsimp only at hleft hright
      rw [hleft, hright]
      simp
  exact (List.Nodup.subperm (hrows.filter _) hsubset).length_le

theorem accepts_of_matches (hrows : rows.Nodup) {row : Row} (hrow : row ∈ rows)
    (h : Matches (cstr (addressPart recipient)) (cstr (domainPart recipient)) row) :
    testacceptance rows recipient = true := by
  have hle := count_matches hrows (cstr (addressPart recipient)) (cstr (domainPart recipient))
  have hpos : 0 < rows.countP (fun row =>
      Matches (cstr (addressPart recipient)) (cstr (domainPart recipient)) row) :=
    List.countP_pos_iff.mpr ⟨row, hrow, decide_eq_true h⟩
  have hint := getint_eq (n := (rows.countP (fun row =>
      Matches (cstr (addressPart recipient)) (cstr (domainPart recipient)) row) : Int))
    (by omega) (by omega)
  rw [testacceptance, hint]
  simp only [ne_eq, decide_eq_true_eq]
  omega

end Settings

/-- A half of an address that a line can bring in angle brackets, without a second `@`, which
`recipient add` does not take. -/
structure Half where
  bytes : Bytes
  ne : bytes ≠ []
  free : ∀ c ∈ bytes, c ≠ byte '@' ∧ c ≠ byte '>' ∧ c ≠ byte '<' ∧ c ≠ SP ∧ c ≠ 0 ∧ c ≠ CR ∧ c ≠ LF

namespace Recipients

open Speyctl Interaction Transaction

/-- `L@R` -/
def spec (L R : Half) : Bytes := L.bytes ++ byte '@' :: R.bytes

def rule (L R : Half) : Row := (some (.text L.bytes), some (.text R.bytes))

theorem not_mem_at (L : Half) : byte '@' ∉ L.bytes := fun h => (L.free _ h).1 rfl

theorem nul_not_mem (L : Half) : 0 ∉ L.bytes := fun h => (L.free _ h).2.2.2.2.1 rfl

theorem spec_free (L R : Half) {c : Byte} (hc : c ∈ spec L R) : c ≠ byte '>' ∧ c ≠ 0 ∧ c ≠ CR ∧ c ≠ LF := by
  rcases List.mem_append.mp hc with hc | hc
  · exact ⟨(L.free c hc).2.1, (L.free c hc).2.2.2.2⟩
  · rcases List.mem_cons.mp hc with rfl | hc
    · decide
    · exact ⟨(R.free c hc).2.1, (R.free c hc).2.2.2.2⟩

/-- The line `RCPT TO:<L@R>`. -/
def rcptLine (L R : Half) : Line where
  bytes := text "RCPT TO:<" ++ (spec L R ++ text ">")
  oneLine := by
    rw [oneLine_append, oneLine_append]
    exact ⟨by decide, fun c hc => (spec_free L R hc).2.2, by decide⟩

/-- The line gives a recipient that `testacceptance` accepts. -/
def Admits (db : Tables) (l : Line) : Prop :=
  ∀ this, ∃ c, SMTPCommand.set this l = some c ∧ c.cmd = .RCPT ∧
    Settings.testacceptance (db .validrecipients) c.parameter.bytes = true

/-- A run of `speyctl recipient` with this subcommand and this spec that succeeds. -/
def Does (i : Invocation) (db : Tables) (sub spec : Bytes) : Prop :=
  getparameter i.parameters 0 = text "recipient" ∧ getparameter i.parameters 1 = sub ∧
    getparameter i.parameters 2 = spec ∧ ∃ output, (i.run db).1 = .ok output

/-- One of the runs removes the rule. -/
def Removed (spec : Bytes) : Tables → List Invocation → Prop
  | _, [] => False
  | db, i :: is => Does i db (text "sub") spec ∨ Removed spec (i.run db).2 is

/-! ## What the parser makes of the line -/

theorem parse_rcptLine (L R : Half) : SMTPCommand.parse (rcptLine L R).bytes =
    some (.RCPT, some ((spec L R).map tolower)) := by
  have hparse : SMTPCommand.parse (text "RCPT TO:<" ++ (spec L R ++ text ">")) =
      SMTPCommand.setRcpt (text " TO:<" ++ (spec L R ++ text ">")) :=
    SMTPCommand.parse_verb (text "RCPT") (by decide) _
  have hpath : SMTPCommand.pathAt (text "to:") (text " TO:<" ++ (spec L R ++ text ">")) =
      some (byte '<' :: (spec L R ++ byte '>' :: [])) := rfl
  have hclosed : byte '>' ∉ spec L R := fun h => (spec_free L R h).1 rfl
  rw [rcptLine, hparse, SMTPCommand.setRcpt_eq, hpath, Option.bind_some,
    SMTPCommand.address_bracketed hclosed]
  rfl

theorem at_of_tolower {s : Bytes} (h : byte '@' ∉ s) : byte '@' ∉ s.map tolower := by
  intro hmem
  obtain ⟨c, hc, hat⟩ := List.mem_map.mp hmem
  rw [tolower_eq_of_not_lower (by decide)] at hat
  exact h (hat ▸ hc)

theorem nul_of_tolower {s : Bytes} (h : 0 ∉ s) : 0 ∉ s.map tolower := by
  intro hmem
  obtain ⟨c, hc, hnul⟩ := List.mem_map.mp hmem
  rw [tolower_eq_of_not_lower (by decide)] at hnul
  exact h (hnul ▸ hc)

theorem addressPart_append {a : Bytes} (ha : byte '@' ∉ a) (d : Bytes) :
    Settings.addressPart (a ++ byte '@' :: d) = a :=
  (split_first ha d).1

theorem domainPart_append {a : Bytes} (ha : byte '@' ∉ a) (d : Bytes) :
    Settings.domainPart (a ++ byte '@' :: d) = d := by
  have hmem : byte '@' ∈ a ++ byte '@' :: d := List.mem_append_right _ List.mem_cons_self
  rw [Settings.domainPart, if_pos hmem, (split_first ha d).2]
  rfl

/-- The recipient is in small letters. -/
theorem admits_iff (db : Tables) (L R : Half) : Admits db (rcptLine L R) ↔
    Settings.testacceptance (db .validrecipients) ((spec L R).map tolower) = true := by
  have hparameter : ∀ {this c : SMTPCommand}, SMTPCommand.set this (rcptLine L R) = some c →
      c.cmd = .RCPT ∧ c.parameter.bytes = (spec L R).map tolower := by
    intro this c hc
    have hp := (SMTPCommand.set_some hc).symm.trans (parse_rcptLine L R)
    obtain ⟨hcmd, harg⟩ := Prod.mk.inj (Option.some.inj hp)
    rw [SMTPCommand.argument, hcmd] at harg
    exact ⟨hcmd, Option.some.inj harg⟩
  obtain ⟨c₀, hc₀⟩ := SMTPCommand.set_of_parse (parse_rcptLine L R) {}
  constructor
  · intro h
    obtain ⟨c, hc, -, haccepts⟩ := h {}
    rwa [(hparameter hc).2] at haccepts
  · intro h this
    obtain ⟨c, hc⟩ := SMTPCommand.set_of_parse (parse_rcptLine L R) this
    obtain ⟨hcmd, hbytes⟩ := hparameter hc
    exact ⟨c, hc, hcmd, hbytes.symm ▸ h⟩

/-- How the rule looks at the recipient. -/
theorem parts_spec (L R : Half) :
    cstr (Settings.addressPart ((spec L R).map tolower)) = L.bytes.map tolower ∧
      cstr (Settings.domainPart ((spec L R).map tolower)) = R.bytes.map tolower := by
  have hat : tolower (byte '@') = byte '@' := by decide
  have hL := at_of_tolower (not_mem_at L)
  rw [spec, List.map_append, List.map_cons, hat, addressPart_append hL, domainPart_append hL,
    cstr_eq (nul_of_tolower (nul_not_mem L)), cstr_eq (nul_of_tolower (nul_not_mem R))]
  exact ⟨rfl, rfl⟩

theorem tolower_half (L : Half) :
    L.bytes.map tolower = L.bytes ↔ ∀ c ∈ L.bytes, ¬ (byte 'A' ≤ c ∧ c ≤ byte 'Z') := by
  have hletter : ∀ c : Byte, tolower c = c ↔ ¬ (byte 'A' ≤ c ∧ c ≤ byte 'Z') := by
    intro c
    unfold tolower byte
    split <;> grind
  have hmap : L.bytes.map tolower = L.bytes ↔ L.bytes.map tolower = L.bytes.map id := by
    rw [List.map_id]
  rw [hmap, List.map_inj_left]
  exact forall₂_congr fun c _ => hletter c

/-! ## The rule in the table -/

section
variable {db : Tables} {c : Contents} {L R : Half}

theorem spells_rule {parameters : List Argument} {row : Row}
    (h : Spells parameters .validrecipients row) (hspec : getparameter parameters 2 = spec L R) :
    row = rule L R := by
  cases h with
  | recipient left right _ hparts hleft hright =>
    rw [hspec, spec, List.append_cons_inj_of_notMem (not_mem_at L) (not_mem_at R)] at hparts
    rw [← hparts.1, ← hparts.2.2, rule]

/-- The edit of an `add`. -/
theorem names_add {parameters : List Argument} {e : Edit} (he : Names parameters e)
    (hcommand : getparameter parameters 0 = text "recipient")
    (hsub : getparameter parameters 1 = text "add")
    (hspec : getparameter parameters 2 = spec L R) : e = .put .validrecipients (rule L R) := by
  cases he with
  | set h _ | unset h _ => exact absurd (hcommand.symm.trans h) (by decide)
  | sub _ h | listing _ h => exact absurd (hsub.symm.trans h) (by decide)
  | statsreset h => exact absurd (hcommand.symm.trans (getparameter_single h).1) (by decide)
  | other h =>
    rw [hcommand] at h
    exact absurd h (by decide)
  | add hspells _ =>
    cases hspells with
    | trust _ _ h _ | whitelist _ _ h _ _ _ | blacklist _ _ h _ _ _ | user h =>
      exact absurd (hcommand.symm.trans h) (by decide)
    | recipient left right h hparts hleft hright =>
      rw [spells_rule (.recipient left right h hparts hleft hright) hspec]

/-- Only `sub` takes the rule away. -/
theorem names_drop {parameters : List Argument} {e : Edit} (he : Names parameters e)
    (hdrop : e = .drop .validrecipients (rule L R)) :
    getparameter parameters 0 = text "recipient" ∧ getparameter parameters 1 = text "sub" ∧
      getparameter parameters 2 = spec L R := by
  cases he with
  | set | add | statsreset | listing | other => cases hdrop
  | unset =>
    injection hdrop with htable
    cases htable
  | sub hspells hsub =>
    injection hdrop with htable hname
    subst htable
    cases hspells with
    | recipient left right hcommand hparts _ _ =>
      rw [name_whole rfl, rule, Prod.mk.injEq, Option.some.injEq, Option.some.injEq,
        Value.text.injEq, Value.text.injEq] at hname
      rw [hname.1, hname.2] at hparts
      exact ⟨hcommand, hsub, hparts⟩

theorem rule_added (hm : Models db c) {i : Invocation} (hi : Does i db (text "add") (spec L R)) :
    rule L R ∈ (i.run db).2 .validrecipients := by
  obtain ⟨hcommand, hsub, hspec, output, hok⟩ := hi
  obtain ⟨e, hnames, -, hm'⟩ := (run_edits hm i).2 output hok
  obtain rfl := names_add hnames hcommand hsub hspec
  exact (Edit.effect hm hm' .validrecipients (rule L R)).mpr (.inl ⟨rfl, rfl⟩)

theorem rule_kept (hm : Models db c) (hrow : rule L R ∈ db .validrecipients) {i : Invocation}
    (hi : ¬ Does i db (text "sub") (spec L R)) : rule L R ∈ (i.run db).2 .validrecipients := by
  obtain ⟨herror, hok⟩ := run_edits hm i
  cases hresult : (i.run db).1 with
  | error e => rwa [herror e hresult]
  | ok output =>
    obtain ⟨e, hnames, -, hm'⟩ := hok output hresult
    have heffect := Edit.effect hm hm'
    cases e with
    | keep => exact (heffect _ _).mpr hrow
    | zero => exact (heffect _ _ (by decide)).mpr hrow
    | put table row =>
      rw [heffect]
      by_cases hsame : TableName.validrecipients = table ∧ name table (rule L R) = name table row
      · obtain ⟨rfl, hname⟩ := hsame
        exact .inl ⟨rfl, hname⟩
      · exact .inr ⟨hrow, hsame⟩
    | drop table n =>
      rw [heffect]
      refine ⟨hrow, ?_⟩
      rintro ⟨rfl, rfl⟩
      have hwhole : name .validrecipients (rule L R) = rule L R := name_whole rfl _
      obtain ⟨hcommand, hsub, hspec⟩ := names_drop hnames (by rw [hwhole])
      exact hi ⟨hcommand, hsub, hspec, output, hresult⟩

theorem rule_stays (hm : Models db c) (hrow : rule L R ∈ db .validrecipients) {is : List Invocation}
    (his : ¬ Removed (spec L R) db is) : rule L R ∈ runs db is .validrecipients := by
  induction is generalizing db c with
  | nil => exact hrow
  | cons i is ih =>
    rw [Removed, not_or] at his
    obtain ⟨c', hm'⟩ := run_models hm i
    exact ih hm' (rule_kept hm hrow his.1) his.2

theorem spec_nulFree (L R : Half) : 0 ∉ spec L R := fun h => (spec_free L R h).2.1 rfl

/-- The command `recipient add L@R`, on a database that does not fail. -/
def addition (L R : Half) : Invocation where
  parameters := [⟨text "recipient", by decide⟩, ⟨text "add", by decide⟩,
    ⟨spec L R, spec_nulFree L R⟩]
  faults _ := false

theorem split_spec (L R : Half) : splitSpec (byte '@') (spec L R) = some (L.bytes, R.bytes) := by
  obtain ⟨hleft, hright⟩ := split_first (not_mem_at L) R.bytes
  rw [splitSpec, spec, hleft, hright]
  exact if_neg (not_mem_at R)

/-- It leaves the rule as the only row on a database without rules. -/
theorem addition_run (L R : Half) (hempty : db .validrecipients = []) :
    ((addition L R).run db).1 = .ok [] ∧
      ((addition L R).run db).2 .validrecipients = [rule L R] := by
  have hcommand : main_speyctl (addition L R).parameters = (do
      Speyctl.Sql.exec .synchronousOff
      cmd_recipient (text "add") (spec L R)) := rfl
  have hadd : cmd_recipient (text "add") (spec L R) = (do
      editRow .validrecipients (text "add") (.text L.bytes) (.text R.bytes)
      pure []) := by
    have hlist : text "add" ≠ text "list" := by decide
    rw [cmd_recipient, if_neg hlist, split_spec]
    dsimp only
    rw [cstr_eq (nul_not_mem L), cstr_eq (nul_not_mem R)]
  rw [Invocation.run, hcommand, hadd]
  refine ⟨rfl, ?_⟩
  show (db .validrecipients).filter (fun row => row ≠ rule L R) ++ [rule L R] = [rule L R]
  rw [hempty]
  rfl

end

/-- While the rule has not been removed, the address that it spells is accepted. -/
def RuleHolds (L R : Half) : Prop :=
  ∀ (is : List Invocation) (i : Invocation) (js : List Invocation),
    let added := (i.run (runs Tables.init is)).2
    Does i (runs Tables.init is) (text "add") (spec L R) → ¬ Removed (spec L R) added js →
      Admits (runs added js) (rcptLine L R)

/-- A rule admits the address that it spells if there is no capital letter in it, and only then. -/
theorem recipient_rule_iff (L R : Half) :
    RuleHolds L R ↔ ∀ c ∈ L.bytes ++ R.bytes, ¬ (byte 'A' ≤ c ∧ c ≤ byte 'Z') := by
  have hsmall : (∀ c ∈ L.bytes ++ R.bytes, ¬ (byte 'A' ≤ c ∧ c ≤ byte 'Z')) ↔
      L.bytes.map tolower = L.bytes ∧ R.bytes.map tolower = R.bytes := by
    rw [tolower_half, tolower_half]
    exact List.forall_mem_append
  rw [hsmall]
  constructor
  · intro hholds
    have hempty : Tables.init .validrecipients = [] := rfl
    obtain ⟨hok, hrows⟩ := addition_run L R hempty
    have hadmits := hholds [] (addition L R) [] ⟨rfl, rfl, rfl, [], hok⟩ id
    have haccepts := (admits_iff _ L R).mp hadmits
    obtain ⟨row, hrow, hmatches⟩ := Settings.matches_of_accepts haccepts
    have hrow' : row ∈ [rule L R] := hrows ▸ hrow
    rw [List.mem_singleton] at hrow'
    subst hrow'
    rw [(parts_spec L R).1, (parts_spec L R).2, Settings.Matches, rule] at hmatches
    simpa [L.ne, R.ne, eq_comm] using hmatches
  · rintro ⟨hL, hR⟩ is i js added hadd hremoved
    obtain ⟨c₀, hinit⟩ := models_init
    obtain ⟨c₁, hbefore⟩ := runs_models hinit is
    obtain ⟨c₂, hadded⟩ := run_models hbefore i
    obtain ⟨c₃, hafter⟩ := runs_models hadded js
    have hrow := rule_stays hadded (rule_added hbefore hadd) hremoved
    rw [admits_iff]
    refine Settings.accepts_of_matches hafter.sets.validrecipients hrow ?_
    rw [(parts_spec L R).1, (parts_spec L R).2, hL, hR]
    exact ⟨.inr rfl, .inr rfl⟩

/-- The rule `User@b.c` does not admit `RCPT TO:<User@b.c>`. -/
theorem capital_not_admitted :
    let L : Half := ⟨text "User", by decide, by decide +kernel⟩
    let R : Half := ⟨text "b.c", by decide, by decide +kernel⟩
    Does (addition L R) Tables.init (text "add") (spec L R) ∧
      ¬ Admits ((addition L R).run Tables.init).2 (rcptLine L R) ∧ ¬ ∀ L R, RuleHolds L R := by
  intro L R
  have hdoes : Does (addition L R) Tables.init (text "add") (spec L R) :=
    ⟨rfl, rfl, rfl, [], (addition_run L R rfl).1⟩
  have hrefused : ¬ Admits ((addition L R).run Tables.init).2 (rcptLine L R) := by
    rw [admits_iff, (addition_run L R rfl).2]
    decide +kernel
  exact ⟨hdoes, hrefused, fun hall => hrefused (hall L R [] (addition L R) [] hdoes id)⟩

end Recipients

end Spey
