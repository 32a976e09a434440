import Spey.Interaction.Avoids
import Spey.Session.Steps
import Spey.Wire.CommandGrammar
import Spey.Wire.CommandRoundTrip

/-!
# Letter case

A line in lower case is parsed as the line itself, with an argument in lower
case. The arguments of all commands but `AUTH` are in lower case already, so two
lines that differ in the case of letters only are the same command, and the rest
of the round is the same program. After `AUTH` it may differ, but it asks nothing
about addresses.
-/

namespace Spey

namespace Parser

variable {d : Byte}

/-! ## The parser on a line in lower case -/

theorem whitespace_lower (p : Bytes) :
    whitespace (p.map tolower) = (whitespace p).map (·.map tolower) := by
  induction p with
  | nil => rfl
  | cons c p ih =>
    have hc : tolower c = SP ↔ c = SP := tolower_eq_of_not_lower (by decide)
    rw [List.map_cons, whitespace, whitespace]
    by_cases hsp : c = SP
    · rw [if_pos (hc.mpr hsp), if_pos hsp, ih]
    · rw [if_neg (mt hc.mp hsp), if_neg hsp, Option.map_some, List.map_cons]

theorem expect_lower (e p : Bytes) :
    expect e (p.map tolower) = (expect e p).map (·.map tolower) := by
  induction e generalizing p with
  | nil => rfl
  | cons a e ih =>
    cases p with
    | nil => rfl
    | cons c p =>
      rw [List.map_cons, expect, expect, tolower_tolower]
      split_ifs with hc
      · exact ih p
      · rfl

theorem peek_lower (p : Bytes) : peek (p.map tolower) = tolower (peek p) := by
  cases p with
  | nil => rfl
  | cons c p => rfl

theorem getword_lower (f : Byte → Byte) (hf : ∀ c, f (tolower c) = tolower (f c))
    (hd : d < byte 'A' ∨ byte 'z' < d) (p : Bytes) : getword f d (p.map tolower) =
      ((getword f d p).1.map tolower, (getword f d p).2.map tolower) := by
  induction p with
  | nil => rfl
  | cons c p ih =>
    have hc : tolower c = d ↔ c = d := tolower_eq_of_not_lower hd
    rw [List.map_cons, getword, getword]
    by_cases hdelim : c = d
    · rw [if_pos (hc.mpr hdelim), if_pos hdelim, List.map_nil, List.map_cons]
    · rw [if_neg (mt hc.mp hdelim), if_neg hdelim, ih, List.map_cons, hf]

theorem eol_lower (p : Bytes) : eol (p.map tolower) = eol p := by
  induction p with
  | nil => rfl
  | cons c p ih =>
    have hc : tolower c = SP ↔ c = SP := tolower_eq_of_not_lower (by decide)
    rw [List.map_cons, eol, eol, ih]
    simp only [hc]

end Parser

namespace SMTPCommand
open Spey.Parser

/-- What a line assigns, in lower case. -/
def Parsed.lower (r : Parsed) : Parsed := (r.1, r.2.map (·.map tolower))

theorem address_lower (p : Bytes) : address (p.map tolower) =
    (address p).map fun r => (r.1.map tolower, r.2.map tolower) := by
  have hpeek : tolower (peek p) = byte '<' ↔ peek p = byte '<' :=
    tolower_eq_of_not_lower (by decide)
  rw [address, address, peek_lower]
  by_cases hp : peek p = byte '<'
  · rw [if_pos (hpeek.mpr hp), if_pos hp, expect_lower]
    cases expect (text "<") p with
    | none => rfl
    | some q =>
      simp only [Option.bind_eq_bind, Option.map_some, Option.bind_some,
        getword_lower tolower (fun _ => rfl) (d := byte '>') (by decide), expect_lower]
      cases expect (text ">") (getword tolower (byte '>') q).2 with
      | none => rfl
      | some rest => rfl
  · rw [if_neg (mt hpeek.mp hp), if_neg hp, getword_lower tolower (fun _ => rfl) (by decide)]
    rfl

theorem setHello_lower (verb : Verb) (p : Bytes) :
    setHello verb (p.map tolower) = (setHello verb p).map Parsed.lower := by
  rw [setHello, setHello, whitespace_lower]
  cases whitespace p with
  | none => rfl
  | some q =>
    simp only [Option.bind_eq_bind, Option.map_some, Option.bind_some,
        getword_lower tolower (fun _ => rfl) (d := SP) (by decide), eol_lower]
    cases eol (getword tolower SP q).2 with
    | none => rfl
    | some u => rfl

theorem pathAt_lower (keyword p : Bytes) :
    pathAt keyword (p.map tolower) = (pathAt keyword p).map (·.map tolower) := by
  rw [pathAt, pathAt, whitespace_lower]
  cases whitespace p with
  | none => rfl
  | some q =>
    simp only [Option.bind_eq_bind, Option.map_some, Option.bind_some, expect_lower]
    cases expect keyword q with
    | none => rfl
    | some q => exact whitespace_lower q

theorem setMail_lower (p : Bytes) :
    setMail (p.map tolower) = (setMail p).map Parsed.lower := by
  rw [setMail_eq, setMail_eq, pathAt_lower]
  cases pathAt (text "from:") p with
  | none => rfl
  | some q =>
    simp only [Option.map_some, Option.bind_some, address_lower]
    cases address q with
    | none => rfl
    | some r => rfl

theorem setRcpt_lower (p : Bytes) :
    setRcpt (p.map tolower) = (setRcpt p).map Parsed.lower := by
  rw [setRcpt_eq, setRcpt_eq, pathAt_lower]
  cases pathAt (text "to:") p with
  | none => rfl
  | some q =>
    simp only [Option.map_some, Option.bind_some, address_lower]
    cases address q with
    | none => rfl
    | some r =>
      simp only [Option.map_some, Option.bind_some, eol_lower]
      cases eol r.2 with
      | none => rfl
      | some u => rfl

theorem setAuth_lower (p : Bytes) :
    setAuth (p.map tolower) = (setAuth p).map Parsed.lower := by
  rw [setAuth, setAuth, whitespace_lower]
  cases whitespace p with
  | none => rfl
  | some q =>
    have hpeek : tolower (peek (getword tolower SP q).2) = SP ↔ peek (getword tolower SP q).2 = SP :=
      tolower_eq_of_not_lower (by decide)
    simp only [Option.bind_eq_bind, Option.map_some, Option.bind_some,
      getword_lower tolower (fun _ => rfl) (d := SP) (by decide), peek_lower, hpeek]
    split_ifs with hsp
    · rw [whitespace_lower]
      cases whitespace (getword tolower SP q).2 with
      | none => rfl
      | some q' =>
        simp only [Option.map_some, Option.bind_some,
          getword_lower id (fun _ => rfl) (d := SP) (by decide), eol_lower]
        cases eol (getword id SP q').2 with
        | none => rfl
        | some u =>
          have hsep : (text " ").map tolower = text " " := rfl
          simp only [Option.bind_some, Option.pure_def, Option.map_some, Parsed.lower,
            List.map_append, hsep]
    · rw [eol_lower]
      cases eol (getword tolower SP q).2 with
      | none => rfl
      | some u => rfl

theorem setBare_lower (verb : Verb) (p : Bytes) :
    setBare verb (p.map tolower) = (setBare verb p).map Parsed.lower := by
  rw [setBare, setBare, eol_lower]
  cases eol p with
  | none => rfl
  | some u => rfl

theorem branch_lower (cmd p : Bytes) :
    branch cmd (p.map tolower) = (branch cmd p).map Parsed.lower := by
  simp only [branch, setHello_lower, setMail_lower, setRcpt_lower, setBare_lower, setAuth_lower,
    apply_ite (Option.map Parsed.lower), Option.map_none]

/-- A line in lower case is parsed as the line is, with the argument in lower case. -/
theorem parse_lower (l : Bytes) : parse (l.map tolower) = (parse l).map Parsed.lower := by
  obtain ⟨w, -, hw, -, -⟩ := getword_spec tolower SP l
  rw [parse, getword_lower tolower (fun _ => rfl) (by decide), branch_lower, hw,
    map_tolower_map_tolower, ← hw, parse]

/-! ## Two lines -/

/-- The strings differ in the case of letters at most. -/
def SameLetters (l l' : Bytes) : Prop := l.map tolower = l'.map tolower

instance (l l' : Bytes) : Decidable (SameLetters l l') :=
  inferInstanceAs (Decidable (l.map tolower = l'.map tolower))

/-- Neither line is a command, or they are the same one. Of `AUTH` the mechanism
is the same, and an initial response is what stands in the line. -/
inductive SameCommand (l l' : Line) : Option SMTPCommand → Option SMTPCommand → Prop
  | rejected : SameCommand l l' none none
  | same (c : SMTPCommand) : SameCommand l l' (some c) (some c)
  | auth {m i i' : Bytes} {p p' : Line} (hm : SP ∉ m) (hp : p.bytes = m ++ SP :: i)
      (hp' : p'.bytes = m ++ SP :: i') (hi : i <:+: l.bytes) (hi' : i' <:+: l'.bytes)
      (h : SameLetters i i') : SameCommand l l' (some ⟨.AUTH, p⟩) (some ⟨.AUTH, p'⟩)

/-- The argument of a verb other than `AUTH` is in lower case. -/
theorem reads_lower {l a : Bytes} {verb : Verb} (h : Reads l verb (some a)) (hverb : verb ≠ .AUTH) :
    a.map tolower = a := by
  have hpath : ∀ {p a rest : Bytes}, Path p a rest → a.map tolower = a := by
    intro p a rest hp
    cases hp with
    | bracketed ha => exact map_tolower_map_tolower _
    | bare hw hopen hend => exact map_tolower_map_tolower _
  cases h with
  | hello hv hk hs hw ht => exact map_tolower_map_tolower _
  | mail hk hs hf hs' hp => exact hpath hp
  | rcpt hk hs hf hs' hp ht => exact hpath hp
  | auth hk hs hm ht => exact absurd rfl hverb
  | authInitial hk hs hm hs' hi ht => exact absurd rfl hverb

/-- The argument of `AUTH` is in lower case, but for an initial response. -/
theorem reads_auth_lower {l a : Bytes} (h : Reads l .AUTH (some a)) :
    (a.map tolower = a ∧ SP ∉ a) ∨
      ∃ m i : Bytes, a = m.map tolower ++ SP :: i ∧ SP ∉ m.map tolower ∧ i <:+: l := by
  have hsp : ∀ {m : Bytes}, SP ∉ m → SP ∉ m.map tolower := by
    intro m hm hmem
    obtain ⟨c, hc, hlower⟩ := List.mem_map.mp hmem
    exact hm ((tolower_eq_of_not_lower (by decide)).mp hlower ▸ hc)
  cases h with
  | hello hv => rcases hv with hv | hv <;> cases hv
  | @auth k s m t hk hs hm ht => exact .inl ⟨map_tolower_map_tolower m, hsp hm.2⟩
  | @authInitial k s m s' i t hk hs hm hs' hi ht =>
    refine .inr ⟨m, i, rfl, hsp hm.2, k ++ (s ++ (m ++ s')), t, ?_⟩
    simp only [List.append_assoc]

theorem first_space {m m' i i' : Bytes} (hm : SP ∉ m) (hm' : SP ∉ m')
    (h : m ++ SP :: i = m' ++ SP :: i') : m = m' ∧ i = i' := by
  obtain ⟨htake, hdrop⟩ := split_first hm i
  obtain ⟨htake', hdrop'⟩ := split_first hm' i'
  rw [h] at htake hdrop
  exact ⟨htake.symm.trans htake', (List.cons.inj (hdrop.symm.trans hdrop')).2⟩

theorem set_of_none {l : Line} (h : parse l.bytes = none) (this : SMTPCommand) :
    this.set l = none := by
  unfold set
  split
  next => rfl
  next verb hp => cases hp.symm.trans h
  next verb parameter hp => cases hp.symm.trans h

theorem set_of_bare {l : Line} {verb : Verb} (h : parse l.bytes = some (verb, none))
    (this : SMTPCommand) : this.set l = some { this with cmd := verb } := by
  unfold set
  split
  next hp => cases hp.symm.trans h
  next verb' hp =>
    cases hp.symm.trans h
    rfl
  next verb' parameter hp => cases hp.symm.trans h

theorem set_of_argument {l : Line} {verb : Verb} {a : Bytes}
    (h : parse l.bytes = some (verb, some a)) (this : SMTPCommand) :
    ∃ p : Line, p.bytes = a ∧ this.set l = some ⟨verb, p⟩ := by
  unfold set
  split
  next hp => cases hp.symm.trans h
  next verb' hp => cases hp.symm.trans h
  next verb' parameter hp =>
    cases hp.symm.trans h
    exact ⟨⟨a, parse_oneLine h l.oneLine⟩, rfl, rfl⟩

/-- Two arguments of `AUTH` that are the same in lower case. -/
theorem sameCommand_auth {l l' p p' : Line} (hl : Reads l.bytes .AUTH (some p.bytes))
    (hl' : Reads l'.bytes .AUTH (some p'.bytes)) (h : SameLetters p.bytes p'.bytes) :
    SameCommand l l' (some ⟨.AUTH, p⟩) (some ⟨.AUTH, p'⟩) := by
  have hsep : ∀ m i : Bytes,
      (m.map tolower ++ SP :: i).map tolower = m.map tolower ++ SP :: i.map tolower := by
    intro m i
    have hsp : tolower SP = SP := rfl
    rw [List.map_append, map_tolower_map_tolower, List.map_cons, hsp]
  unfold SameLetters at h
  rcases reads_auth_lower hl with ⟨hlower, hsp⟩ | ⟨m, i, hp, hm, hi⟩
  · rcases reads_auth_lower hl' with ⟨hlower', -⟩ | ⟨m', i', hp', -, -⟩
    · obtain rfl : p = p' := Line.eq_of_bytes (by rw [← hlower, h, hlower'])
      exact .same _
    · rw [← hlower, h, hp', hsep] at hsp
      exact absurd (List.mem_append_right _ List.mem_cons_self) hsp
  · rcases reads_auth_lower hl' with ⟨hlower', hsp'⟩ | ⟨m', i', hp', hm', hi'⟩
    · rw [← hlower', ← h, hp, hsep] at hsp'
      exact absurd (List.mem_append_right _ List.mem_cons_self) hsp'
    · rw [hp, hp', hsep, hsep] at h
      obtain ⟨hmm, hii⟩ := first_space hm hm' h
      exact .auth hm hp (hmm ▸ hp') hi hi' hii

theorem sameCommand {l l' : Line} (h : SameLetters l.bytes l'.bytes) (this : SMTPCommand) :
    SameCommand l l' (this.set l) (this.set l') := by
  have hlower : (parse l.bytes).map Parsed.lower = (parse l'.bytes).map Parsed.lower := by
    rw [← parse_lower, ← parse_lower, h]
  cases hp : parse l.bytes with
  | none =>
    rw [hp] at hlower
    have hp' := Option.map_eq_none_iff.mp hlower.symm
    rw [set_of_none hp, set_of_none hp']
    exact .rejected
  | some r =>
    obtain ⟨verb, a⟩ := r
    rw [hp] at hlower
    obtain ⟨⟨verb', a'⟩, hp', hsame⟩ := Option.map_eq_some_iff.mp hlower.symm
    obtain ⟨rfl, hargument⟩ : verb' = verb ∧ a'.map (·.map tolower) = a.map (·.map tolower) :=
      Prod.mk.inj hsame
    cases a with
    | none =>
      obtain rfl := Option.map_eq_none_iff.mp hargument
      rw [set_of_bare hp, set_of_bare hp']
      exact .same _
    | some a =>
      obtain ⟨a', rfl, ha⟩ := Option.map_eq_some_iff.mp hargument
      obtain ⟨p, rfl, hset⟩ := set_of_argument hp this
      obtain ⟨p', rfl, hset'⟩ := set_of_argument hp' this
      rw [hset, hset']
      by_cases hverb : verb' = .AUTH
      · subst hverb
        exact sameCommand_auth (parse_reads hp) (parse_reads hp') ha.symm
      · have hl := reads_lower (parse_reads hp) hverb
        have hl' := reads_lower (parse_reads hp') hverb
        obtain rfl : p = p' := Line.eq_of_bytes (by rw [← hl, ← hl', ha])
        exact .same _

end SMTPCommand

/-! ## The rest of the round -/

open Interaction
open Interaction.Action

/-- The loop body once a line has been read, from what the line parses to. -/
def obey (ctx : Context) (rounds : Nat) : Option SMTPCommand → Proc Jump
  | none => do
      respond (.set 500)
      writeoutside .syntaxError
      if ctx.settings.intolerant ≠ 0 then pure .abort else pure .next
  | some c => do
      update fun s => { s with command := c }
      match ← screen ctx with
      | .fall => do
          connectInside
          match ← auth ctx rounds with
          | .fall => forward ctx rounds
          | j => pure j
      | j => pure j

/-- The loop body reads a line and obeys what it parses to. -/
theorem command_obey (ctx : Context) (rounds : Nat) (s : Session) :
    ∃ next, command ctx rounds s = .call (.outReadline .command) next ∧
      ∀ l : Line, next (.ok l) = obey ctx rounds (s.command.set l) s := by
  refine ⟨_, rfl, fun l => ?_⟩
  cases hset : s.command.set l with
  | none =>
    simp only [Program.bind, Pure.pure, Action.pure, Bind.bind, Action.bind, getState, hset]
    rfl
  | some c =>
    simp only [Program.bind, Pure.pure, Action.pure, Bind.bind, Action.bind, getState, hset]
    rfl

/-- The calls that look at an address. -/
def Consults : Call → Prop
  | .verifyaddress _ | .testacceptance _ | .greylist _ _ _ => True
  | _ => False

theorem readinside_avoids : Avoids Consults readinside := by
  refine (avoids_call id).bind fun r => ?_
  cases r with
  | error e => exact avoids_raise _
  | ok r => exact avoids_update _

theorem inWriteline_avoids (item : Item) : Avoids Consults (inWriteline item) :=
  (avoids_call id).bind fun _ => (avoids_pure _).ite (avoids_raise _)

theorem writeinside_avoids : Avoids Consults writeinside :=
  avoids_getState.bind fun _ => inWriteline_avoids _

theorem outReadline_avoids (site : ReadSite) : Avoids Consults (outReadline site) := by
  refine (avoids_call id).bind fun r => ?_
  cases r with
  | error e => exact avoids_raise _
  | ok l => exact avoids_pure _

theorem writeoutside_avoids (site : ReplySite) : Avoids Consults (writeoutside site) :=
  avoids_getState.bind fun _ => (avoids_call id).bind fun _ => (avoids_pure _).ite (avoids_raise _)

theorem connectInside_avoids : Avoids Consults connectInside := by
  refine avoids_getState.bind fun s => (avoids_pure _).ite (Avoids.handle ?_ fun e y hy => ?_)
  · refine (avoids_call id).bind fun _ => Avoids.ite ?_ (avoids_raise _)
    exact readinside_avoids.bind fun _ => avoids_getState.bind fun _ =>
      (avoids_update _).ite (avoids_raise _)
  · split at hy
    · obtain rfl := Option.some.inj hy
      exact (avoids_update _).bind fun _ => (writeoutside_avoids _).bind fun _ => avoids_raise _
    · cases hy

theorem authRound_avoids : Avoids Consults authRound :=
  (outReadline_avoids _).bind fun _ => (inWriteline_avoids _).bind fun _ =>
    readinside_avoids.bind fun _ => (writeoutside_avoids _).bind fun _ =>
      avoids_getState.bind fun _ => (avoids_pure _).ite (avoids_pure _)

theorem proxyAuth_avoids (rounds : Nat) : Avoids Consults (proxyAuth rounds) := by
  refine writeinside_avoids.bind fun _ => readinside_avoids.bind fun _ =>
    (writeoutside_avoids _).bind fun _ => avoids_getState.bind fun _ => (avoids_pure _).ite ?_
  exact (authRound_avoids.repeatUntil rounds).bind fun _ => avoids_getState.bind fun _ =>
    (avoids_pure _).ite ((avoids_update _).bind fun _ => avoids_pure _)

theorem conversation_avoids (message : Bytes) : Avoids Consults (conversation message) := by
  refine (avoids_call id).bind fun _ => Avoids.ite ?_ (avoids_raise _)
  refine (avoids_call id).bind fun r => ?_
  cases r with
  | error e => exact avoids_raise _
  | ok s => exact (avoids_raise _).ite (avoids_pure _)

theorem check_credentials_avoids (username password : Bytes) :
    Avoids Consults (check_credentials username password) := by
  refine (avoids_call id).bind fun r => ?_
  cases r with
  | none => exact avoids_pure _
  | some n => exact (avoids_pure _).ite (avoids_pure _)

theorem auth_plain_avoids (initial : Bytes) : Avoids Consults (auth_plain initial) := by
  refine Avoids.ite ((conversation_avoids []).bind fun s => ?_)
    ((avoids_pure initial).bind fun s => ?_)
  all_goals
    dsimp only
    cases base64_decode s with
    | none => exact avoids_pure _
    | some buffer => exact (avoids_pure _).ite (check_credentials_avoids _ _)

theorem auth_login_avoids (initial : Bytes) : Avoids Consults (auth_login initial) := by
  refine (avoids_pure _).ite ((conversation_avoids _).bind fun username64 =>
    (conversation_avoids _).bind fun password64 => ?_)
  cases base64_decode username64 with
  | none => exact avoids_pure _
  | some username =>
    cases base64_decode password64 with
    | none => exact avoids_pure _
    | some password => exact check_credentials_avoids _ _

theorem authenticator_avoids {a : Bytes} {auth_cb : Proc Nat} (h : authenticator a = some auth_cb) :
    Avoids Consults auth_cb := by
  unfold authenticator at h
  obtain ⟨-, h⟩ | ⟨-, h⟩ := ite_eq_iff.mp h
  · obtain rfl := Option.some.inj h
    exact auth_plain_avoids _
  obtain ⟨-, h⟩ | ⟨-, h⟩ := ite_eq_iff.mp h
  · obtain rfl := Option.some.inj h
    exact auth_plain_avoids _
  obtain ⟨-, h⟩ | ⟨-, h⟩ := ite_eq_iff.mp h
  · obtain rfl := Option.some.inj h
    exact auth_login_avoids _
  cases h

theorem deny_avoids (r : SMTPResponse) (j : Jump) :
    Avoids Consults (do defer r; pure j) :=
  (avoids_update _).bind fun _ => avoids_pure _

theorem internalAuth_avoids : Avoids Consults internalAuth := by
  refine avoids_getState.bind fun s => (deny_avoids _ _).ite ?_
  cases h : authenticator s.command.parameter.bytes with
  | none => exact deny_avoids _ _
  | some auth_cb =>
    refine (Avoids.handle (authenticator_avoids h) fun e y hy => ?_).bind fun result =>
      (deny_avoids _ _).ite ?_
    · split at hy
      · obtain rfl := Option.some.inj hy
        exact avoids_pure _
      · cases hy
    · exact (avoids_update _).bind fun _ => (writeoutside_avoids _).bind fun _ =>
        (avoids_update _).bind fun _ => avoids_pure _

theorem auth_avoids (ctx : Context) (rounds : Nat) : Avoids Consults (auth ctx rounds) := by
  refine avoids_getState.bind fun s => Avoids.ite ?_ (avoids_pure _)
  cases ctx.settings.externalauthmode with
  | NoAuth => exact deny_avoids _ _
  | ProxyAuth => exact proxyAuth_avoids rounds
  | InternalAuth => exact internalAuth_avoids

theorem getname_avoids (ctx : Context) : Avoids Consults (getname ctx) := by
  refine (avoids_pure _).ite ((avoids_call id).bind fun r => ?_)
  cases r with
  | none => exact avoids_pure _
  | some name => exact avoids_pure _

theorem transfer_avoids (ctx : Context) (rounds : Nat) : Avoids Consults (transfer ctx rounds) := by
  have hround : Avoids Consults bodyRound := (outReadline_avoids _).bind fun _ =>
    (inWriteline_avoids _).bind fun _ => (avoids_pure _).ite (avoids_pure _)
  refine (getname_avoids ctx).bind fun _ => (getname_avoids ctx).bind fun _ =>
    avoids_getState.bind fun _ => (inWriteline_avoids _).bind fun _ => ?_
  exact (hround.repeatUntil rounds).bind fun _ => readinside_avoids.bind fun _ =>
    writeoutside_avoids _

theorem deliver_avoids (ctx : Context) (rounds : Nat) : Avoids Consults (deliver ctx rounds) := by
  refine avoids_getState.bind fun s => ?_
  split
  · exact ((transfer_avoids ctx rounds).bind fun _ => avoids_pure _).ite (avoids_pure _)
  · exact avoids_pure _
  · exact avoids_pure _

theorem forward_avoids (ctx : Context) (rounds : Nat) : Avoids Consults (forward ctx rounds) :=
  writeinside_avoids.bind fun _ => readinside_avoids.bind fun _ => (avoids_update _).bind fun _ =>
    (writeoutside_avoids _).bind fun _ => avoids_getState.bind fun _ =>
      (avoids_pure _).ite (deliver_avoids ctx rounds)

/-- A round of `AUTH` asks nothing about addresses. -/
theorem obey_auth (ctx : Context) (rounds : Nat) (s : Session) (p : Line) :
    (obey ctx rounds (some ⟨.AUTH, p⟩) s).Avoids Consults := by
  have hrest : Avoids Consults (do
      connectInside
      match ← auth ctx rounds with
      | .fall => forward ctx rounds
      | j => pure j) := by
    refine connectInside_avoids.bind fun _ => (auth_avoids ctx rounds).bind fun j => ?_
    split
    · exact forward_avoids ctx rounds
    · exact avoids_pure _
  exact hrest { s with command := ⟨.AUTH, p⟩ }

/-- So no address is looked at while it lasts. -/
theorem auth_consults_nobody {ctx : Context} {rounds : Nat} {s s' : Session} {p : Line} {h h' : Log}
    {r : Except Exn Jump} (hrun : (obey ctx rounds (some ⟨.AUTH, p⟩)).Ends s h r s' h') :
    ∃ later, h' = later ++ h ∧ ∀ e ∈ later, ¬ Consults e.1 :=
  (obey_auth ctx rounds s p).reaches hrun

/-- Of two lines that differ in letter case only the parser makes the same
command, up to the initial response of `AUTH`. The rest of the loop body is the
same program with the same calls, or asks nothing about addresses. -/
theorem letter_case {l l' : Line} (h : SMTPCommand.SameLetters l.bytes l'.bytes) :
    (∀ this : SMTPCommand, SMTPCommand.SameCommand l l' (this.set l) (this.set l')) ∧
    ∀ (ctx : Context) (rounds : Nat) (s : Session), ∃ next,
      command ctx rounds s = .call (.outReadline .command) next ∧
      (next (.ok l) = next (.ok l') ∨
        (next (.ok l)).Avoids Consults ∧ (next (.ok l')).Avoids Consults) := by
  refine ⟨SMTPCommand.sameCommand h, fun ctx rounds s => ?_⟩
  obtain ⟨next, hcommand, hnext⟩ := command_obey ctx rounds s
  refine ⟨next, hcommand, ?_⟩
  rw [hnext, hnext]
  have hsame := SMTPCommand.sameCommand h s.command
  generalize s.command.set l = c at hsame
  generalize s.command.set l' = c' at hsame
  cases hsame with
  | rejected => exact .inl rfl
  | same c => exact .inl rfl
  | auth => exact .inr ⟨obey_auth ctx rounds s _, obey_auth ctx rounds s _⟩

def mixedMail : Line := ⟨text "Mail From:<Joe@Example.ORG> SIZE=10", by decide⟩

def lowerMail : Line := ⟨text "mail from:<joe@example.org> size=10", by decide⟩

theorem letter_case_mail : SMTPCommand.SameLetters mixedMail.bytes lowerMail.bytes ∧
    SMTPCommand.SameCommand mixedMail lowerMail
      (({} : SMTPCommand).set mixedMail) (({} : SMTPCommand).set lowerMail) ∧
    (({} : SMTPCommand).set mixedMail).isSome := by
  have h : SMTPCommand.SameLetters mixedMail.bytes lowerMail.bytes := by decide +kernel
  exact ⟨h, (letter_case h).1 {}, by decide +kernel⟩

end Spey
