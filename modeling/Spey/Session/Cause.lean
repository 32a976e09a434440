import Spey.Session.Deferred

/-!
# The cause of a deferred refusal

Every error of a session goes through one object, `deferrederror`. A verdict of
`greylist` leaves its text there for a DATA that comes much later, and another error
may be put there in between, but it is written at once, and then there is no verdict left.
So a DATA that is refused for a verdict is refused with the text of the last one.
-/

namespace Spey

open Interaction

/-- The verdict of `greylist` that refuses a recipient. -/
def verdict : Event Ans → Option GreylistResponse
  | ⟨.greylist _ _ _, some .GreyListed⟩ => some .GreyListed
  | ⟨.greylist _ _ _, some .BlackListed⟩ => some .BlackListed
  | _ => none

/-- The last such verdict. -/
def lastVerdict : Log → Option GreylistResponse
  | [] => none
  | e :: past => (verdict e).or (lastVerdict past)

/-- The session has `errorstate` set once this has happened. -/
def ErrorState (ctx : Context) (rounds : Nat) (h : Log) : Prop :=
  ∃ c, (machine ctx rounds).On (initial rounds) c h ∧ c.session.errorstate = true

/-- The line of a reply that is given for a verdict. -/
def verdictLine (ctx : Context) : GreylistResponse → Bytes
  | .GreyListed => text "451 " ++ (text "Greylisted - try again in " ++
      decimal (ctx.settings.quarantinetime.tdiv 60) ++
      text " minutes and your message will be accepted")
  | .BlackListed => text "554 You have been blacklisted. Your message will not be accepted."
  | .Accepted => []

/-- The refusal of a DATA, and what came before it. -/
structure Reports (ctx : Context) (rounds : Nat) (r : SMTPResponse) (past : Log) : Prop where
  /-- `errorstate` is set -/
  refused : ErrorState ctx rounds past
  /-- the reply is that of the last recipient that was refused -/
  cause : ∃ v, lastVerdict past = some v ∧ r.string = verdictLine ctx v ∧
    r.code = if v = .BlackListed then 554 else 451
  /-- a recipient was refused since `errorstate` was last false -/
  since : ∀ later earlier, past = later ++ earlier → ¬ ErrorState ctx rounds earlier →
    ∃ e ∈ later, refuses e

/-- A refusal of DATA reports its cause. -/
def reportsCause (ctx : Context) (rounds : Nat) (e : Event Ans) (past : Log) : Prop :=
  ∀ r written, e = ⟨.outReply .refusal r, written⟩ → dataRead past → Reports ctx rounds r past

namespace Cause

variable {ctx : Context} {rounds left : Nat} {s : Session} {d : SMTPResponse} {h : Log}

/-- The reply that a verdict leaves. -/
def reply (ctx : Context) (v : GreylistResponse) : SMTPResponse :=
  if v = .BlackListed then Config.blacklisted else Config.greylisted ctx

/-- The deferred error is `d` still or none of a verdict, and a refusal that is pending
shows it. -/
structure Stays (ctx : Context) (d : SMTPResponse) (p : Point) (s : Session) : Prop where
  same : Verdict ctx s.deferrederror → s.deferrederror = d
  shown : p = .refusal → s.response = s.deferrederror

theorem Stays.of_eq {p : Point} (hd : s.deferrederror = d) (hp : p ≠ .refusal) : Stays ctx d p s :=
  ⟨fun _ => hd, fun he => absurd he hp⟩

theorem Stays.own {p : Point} (hown : ¬ Verdict ctx s.deferrederror)
    (hshown : p = .refusal → s.response = s.deferrederror) : Stays ctx d p s :=
  ⟨fun hv => absurd hv hown, hshown⟩

theorem deny_stays (code : Nat) : (Config.deny s left (.set code)).Meets (Stays ctx d) :=
  .own (Reached.not_verdict_set code) fun _ => rfl

theorem second_stays (hd : s.deferrederror = d) : Config.Second (Stays ctx d) s where
  send _ := .of_eq hd Point.noConfusion
  authSend _ := .of_eq hd Point.noConfusion
  challenge _ _ _ := .of_eq hd Point.noConfusion
  lookup _ _ _ _ := .of_eq hd Point.noConfusion
  deny _ code _ := .own (Reached.not_verdict_set code) fun _ => rfl

theorem proceed_stays (hd : s.deferrederror = d) : Config.Proceed (Stays ctx d) s where
  dial _ := .of_eq hd Point.noConfusion
  second _ := second_stays hd

theorem dispatch_stays (hd : s.deferrederror = d) : Config.Dispatch ctx (Stays ctx d) s where
  help _ := .of_eq hd Point.noConfusion
  quit _ := .of_eq hd Point.noConfusion
  starttls _ _ := .of_eq hd Point.noConfusion
  deny _ code _ := .own (Reached.not_verdict_set code) fun _ => rfl
  domain _ _ := .of_eq hd Point.noConfusion
  sender _ _ := .of_eq hd Point.noConfusion
  mail _ _ := proceed_stays hd
  recipient _ _ := .of_eq hd Point.noConfusion
  accepted _ _ := .of_eq hd Point.noConfusion
  rset _ := proceed_stays hd
  refused _ _ := ⟨fun _ => hd, fun _ => rfl⟩
  data _ _ := proceed_stays hd
  passed _ _ := proceed_stays hd
  other _ := proceed_stays hd

theorem again_stays (hd : s.deferrederror = d) : (Config.again s left).Meets (Stays ctx d) :=
  Config.again_meets (.of_eq hd Point.noConfusion) (.of_eq hd Point.noConfusion)

theorem zones_stays (hd : s.deferrederror = d) {rbls : List Bytes} :
    (Config.zones ctx s left rbls).Meets (Stays ctx d) :=
  Config.zones_meets (fun _ _ => .of_eq hd Point.noConfusion) (.of_eq hd Point.noConfusion)
    (.of_eq hd Point.noConfusion)

theorem credentials_stays (hd : s.deferrederror = d) {found : Option (Bytes × Bytes)} :
    (Config.credentials s left found).Meets (Stays ctx d) :=
  Config.credentials_meets (.own (Reached.not_verdict_set 535) fun _ => rfl)
    fun _ _ => .of_eq hd Point.noConfusion

/-- No step but that of a verdict puts the reply of one into the deferred error. -/
theorem stays_step (ctx : Context) (rounds : Nat) {c : Config} (hc : c.point ≠ .greylisting) :
    (machine ctx rounds c).All fun _ c' => c'.Meets (Stays ctx c.session.deferrederror) := by
  obtain ⟨point, s, left⟩ := c
  -- where a step leads on with the deferred error that there was
  have hon : ∀ {p : Point}, p ≠ .refusal → Stays ctx s.deferrederror p s := fun hp => .of_eq rfl hp
  have hend : ∀ {r : Except Exn Unit}, Stays ctx s.deferrederror (.finished r) s :=
    hon Point.noConfusion
  have hagain : (Config.again s left).Meets (Stays ctx s.deferrederror) := again_stays rfl
  cases point with
  | greylisting => exact absurd rfl hc
  | opening =>
    have hd : ({ s with trusted := false } : Session).deferrederror = s.deferrederror := rfl
    rintro (_ | _ | _)
    · exact hend
    · exact zones_stays hd
    · exact .of_eq rfl Point.noConfusion
  | zone rbl =>
    rintro (_ | _)
    · exact zones_stays rfl
    · exact .own (Reached.own_listed rbl).verdict Point.noConfusion
  | pause =>
    rintro (_ | _)
    · exact .of_eq rfl Point.noConfusion
    · exact .own Reached.own_tooSoon.verdict Point.noConfusion
  | head =>
    apply Config.reading_meets fun _ => hend
    intro l
    exact Config.parsed_meets (fun _ => .of_eq rfl Point.noConfusion) fun _ _ => dispatch_stays rfl
  | syntaxError =>
    apply Config.orRaise_meets hend
    exact Config.ite_meets (fun _ => hend) fun _ => hagain
  | handshake =>
    intro done
    cases done with
    | false => exact hend
    | true => exact Config.ite_meets (fun _ => .of_eq rfl Point.noConfusion) fun _ => again_stays rfl
  | hangUp => exact fun _ => hagain
  | domain =>
    intro _
    exact Config.ite_meets (fun _ => (proceed_stays rfl).meets) fun _ =>
      .own Reached.own_illegalDomain.verdict Point.noConfusion
  | sender =>
    intro _
    exact Config.ite_meets (fun _ => (proceed_stays rfl).meets) fun _ =>
      .own (Reached.not_verdict_set 501) Point.noConfusion
  | recipient =>
    intro _
    exact Config.ite_meets (fun _ => hon Point.noConfusion) fun _ =>
      .own (Reached.not_verdict_set 551) Point.noConfusion
  | acceptance =>
    apply Config.querying_meets hend
    intro _
    exact Config.ite_meets (fun _ => hon Point.noConfusion) fun _ =>
      .own Reached.own_notPermitted.verdict Point.noConfusion
  | counting counter passes =>
    apply Config.orRaise_meets hend
    cases passes with
    | false => exact ⟨fun _ => rfl, fun _ => rfl⟩
    | true => exact (proceed_stays rfl).meets
  | refusal =>
    apply Config.orRaise_meets hend
    exact Config.refused_meets (fun _ => hend) fun _ => again_stays rfl
  | dial =>
    intro connected
    cases connected with
    | false => exact .of_eq rfl Point.noConfusion
    | true => exact hon Point.noConfusion
  | greeting =>
    intro greeting
    cases greeting with
    | error _ => exact .of_eq rfl Point.noConfusion
    | ok r =>
      have hd : ({ s with response := r.response, connected := true } : Session).deferrederror =
        s.deferrederror := rfl
      exact Config.ite_meets (fun _ => (second_stays hd).meets) fun _ =>
        .of_eq rfl Point.noConfusion
  | noDownstream => exact fun _ => hend
  | reply | authReply | authAnswer | bodyReply =>
    exact Config.reading_meets (fun _ => hend) fun _ => .of_eq rfl Point.noConfusion
  | relay =>
    apply Config.orRaise_meets hend
    exact Config.third_meets (fun _ _ => hend)
      (fun _ _ => Config.naming_meets (hon Point.noConfusion) fun _ _ => hon Point.noConfusion)
      (fun _ => hend) fun _ => hagain
  | authRelay =>
    apply Config.orRaise_meets hend
    exact Config.ite_meets (fun _ => Config.exchange_meets (fun _ => hon Point.noConfusion) hend)
      fun _ => hagain
  | authPass k =>
    apply Config.orRaise_meets hend
    apply Config.ite_meets fun _ => Config.exchange_meets (fun _ => hon Point.noConfusion) hend
    exact fun _ => Config.ite_meets (fun _ => again_stays rfl) fun _ => hagain
  | conversation stage =>
    apply Config.reading_meets fun _ => hend
    intro l
    exact Config.ite_meets (fun _ => deny_stays 501) fun _ =>
      Config.answered_meets (fun _ => hon Point.noConfusion) fun _ => credentials_stays rfl
  | lookup =>
    intro found
    cases found with
    | none => exact deny_stays 535
    | some n =>
      exact Config.ite_meets (fun _ => deny_stays 535) fun _ => .of_eq rfl Point.noConfusion
  | authenticated => exact Config.orRaise_meets hend (again_stays rfl)
  | name | name' => exact fun _ => hon Point.noConfusion
  | header =>
    exact Config.orRaise_meets hend (Config.body_meets (fun _ => hon Point.noConfusion) hend)
  | bodyForward k l =>
    apply Config.orRaise_meets hend
    exact Config.ite_meets (fun _ => hon Point.noConfusion) fun _ =>
      Config.body_meets (fun _ => hon Point.noConfusion) hend
  | banner | help | bodyRelay => exact Config.orRaise_meets hend hagain
  | starttls | send | authSend | authForward | challenge =>
    exact Config.orRaise_meets hend (hon Point.noConfusion)
  | authLine | bodyLine => exact Config.reading_meets (fun _ => hend) fun _ => hon Point.noConfusion
  | finished => trivial

/-! ## The invariant -/

/-- What the history tells about the deferred error. -/
structure Caused (ctx : Context) (c : Config) (h : Log) : Prop where
  deferred : Verdict ctx c.session.deferrederror →
    ∃ v, lastVerdict h = some v ∧ c.session.deferrederror = reply ctx v
  shown : c.point = .refusal → c.session.response = c.session.deferrederror
  data : c.point = .refusal → dataRead h →
    c.session.errorstate = true ∧ Verdict ctx c.session.deferrederror

theorem deferred_cons {c c' : Config} {e : Event Ans} (hs : Caused ctx c h) (he : verdict e = none)
    (hstays : c'.Meets (Stays ctx c.session.deferrederror)) :
    Verdict ctx c'.session.deferrederror →
      ∃ v, lastVerdict (e :: h) = some v ∧ c'.session.deferrederror = reply ctx v := by
  intro hv
  have hsame := hstays.same hv
  rw [hsame] at hv ⊢
  obtain ⟨v, hlast, hreply⟩ := hs.deferred hv
  refine ⟨v, ?_, hreply⟩
  rw [lastVerdict, he, Option.none_or, hlast]

/-- An event that is neither a verdict nor a DATA. -/
theorem caused_cons {c c' : Config} {e : Event Ans} (hs : Caused ctx c h) (he : verdict e = none)
    (hread : ¬ readsData e) (hstays : c'.Meets (Stays ctx c.session.deferrederror)) :
    Caused ctx c' (e :: h) :=
  ⟨deferred_cons hs he hstays, hstays.shown, fun _ hdata => absurd hdata hread⟩

theorem dispatch_data (ctx : Context) (left : Nat) (hcmd : s.command.cmd = .DATA) :
    Config.dispatch ctx s left =
      if s.errorstate then Config.refuse s left else Config.proceed ctx s left := by
  rw [Config.dispatch, hcmd]

/-- DATA goes on to the inside server. -/
theorem proceed_passes (ctx : Context) (left : Nat) (hcmd : s.command.cmd = .DATA) :
    (Config.proceed ctx s left).point ≠ .refusal := by
  have hauth : s.command.cmd ≠ .AUTH := by
    rw [hcmd]
    decide
  have hsecond : Config.Second (fun p _ => p ≠ .refusal) s :=
    ⟨fun _ => Point.noConfusion, fun _ => Point.noConfusion, fun h => absurd h hauth,
      fun h => absurd h hauth, fun h => absurd h hauth⟩
  exact Config.Proceed.meets (P := fun p _ => p ≠ .refusal) ⟨fun _ => Point.noConfusion, fun _ => hsecond⟩

/-- A command is read; DATA is refused only if a verdict is left. -/
theorem caused_read (hk : Known ctx ⟨.head, s, left⟩ h) (hs : Caused ctx ⟨.head, s, left⟩ h) :
    (machine ctx rounds ⟨.head, s, left⟩).All fun e c => Caused ctx c (e :: h) := by
  intro line
  have hstays := stays_step ctx rounds (c := ⟨.head, s, left⟩) Point.noConfusion line
  refine ⟨deferred_cons hs rfl hstays, hstays.shown, fun hpoint hdata => ?_⟩
  obtain e | l := line
  · cases hpoint
  have hpoint : (Config.parsed ctx s left l).point = .refusal := hpoint
  show (Config.parsed ctx s left l).session.errorstate = true ∧
    Verdict ctx (Config.parsed ctx s left l).session.deferrederror
  unfold Config.parsed at hpoint ⊢
  cases hset : s.command.set l with
  | none =>
    rw [hset] at hpoint
    cases hpoint
  | some c =>
    have hcmd : c.cmd = .DATA := by simpa [SMTPCommand.set_some hset] using hdata
    rw [hset] at hpoint
    have hpoint : (Config.dispatch ctx { s with command := c } left).point = .refusal := hpoint
    show (Config.dispatch ctx { s with command := c } left).session.errorstate = true ∧
      Verdict ctx (Config.dispatch ctx { s with command := c } left).session.deferrederror
    rw [dispatch_data ctx left hcmd] at hpoint ⊢
    split_ifs at hpoint ⊢ with herror
    · exact ⟨herror, hk.armed rfl herror⟩
    · exact absurd hpoint (proceed_passes ctx left hcmd)

theorem caused_step (c : Config) (h : Log) (hk : Known ctx c h) (hs : Caused ctx c h) :
    (machine ctx rounds c).All fun e c => Known ctx c (e :: h) → Caused ctx c (e :: h) := by
  by_cases hgrey : c.point = .greylisting
  · obtain ⟨point, s, left⟩ := c
    obtain rfl : point = .greylisting := hgrey
    rintro (_ | _ | _ | _) -
    · exact caused_cons hs rfl (by simp) (.of_eq rfl Point.noConfusion)
    · exact caused_cons hs rfl (by simp) (.of_eq rfl Point.noConfusion)
    · exact ⟨fun _ => ⟨.BlackListed, rfl, rfl⟩, Point.noConfusion, Point.noConfusion⟩
    · exact ⟨fun _ => ⟨.GreyListed, rfl, rfl⟩, Point.noConfusion, Point.noConfusion⟩
  · have hstays := stays_step ctx rounds hgrey
    obtain ⟨point, s, left⟩ := c
    cases point with
    | greylisting => exact absurd rfl hgrey
    | head => exact (caused_read hk hs).mono fun e c hc _ => hc
    | finished => trivial
    | _ =>
      intro x _
      exact caused_cons hs rfl (by simp) (hstays x)

theorem verdict_code {r : SMTPResponse} (hr : Verdict ctx r) : r.code ≠ 0 := by
  rcases hr with rfl | rfl
  · exact Nat.succ_ne_zero 450
  · exact Nat.succ_ne_zero 553

theorem caused {c : Config} (hc : (machine ctx rounds).On (initial left) c h) : Caused ctx c h := by
  refine hc.strengthen known ⟨fun hv => ?_, Point.noConfusion, Point.noConfusion⟩ caused_step
  exact absurd rfl (verdict_code hv)

/-- A refused recipient lies behind the last time that no verdict was left. -/
theorem since_split {later earlier : Log} (h : Since refusal cleared (later ++ earlier))
    (hnot : ¬ Since refusal cleared earlier) : ∃ e ∈ later, refuses e := by
  induction later with
  | nil => exact absurd h hnot
  | cons e later ih =>
    rw [List.cons_append, since_cons] at h
    obtain he | ⟨-, hrest⟩ := h
    · exact ⟨e, List.mem_cons_self, he⟩
    · obtain ⟨e', he', hrefuses⟩ := ih hrest
      exact ⟨e', List.mem_cons_of_mem e he', hrefuses⟩

theorem setMessage_string (code : Nat) {m : Bytes} (hm : m ≠ []) :
    (SMTPResponse.setMessage code m).string = decimal code ++ text " " ++ m := by
  rw [SMTPResponse.string, SMTPResponse.setMessage]
  simp only [hm, SMTPResponse.printContinuation, ne_eq, not_true_eq_false, if_true, if_false,
    List.append_nil]

theorem reply_line {v : GreylistResponse} (hv : v ≠ .Accepted) :
    (reply ctx v).string = verdictLine ctx v ∧
      (reply ctx v).code = if v = .BlackListed then 554 else 451 := by
  cases v with
  | Accepted => exact absurd rfl hv
  | BlackListed =>
    have hline : Config.blacklisted.string =
        text "554 You have been blacklisted. Your message will not be accepted." := by
      decide +kernel
    exact ⟨hline, rfl⟩
  | GreyListed =>
    have hcode : decimal (451 : Nat) ++ text " " = text "451 " := by decide +kernel
    have hline : (Config.greylisted ctx).string = verdictLine ctx .GreyListed := by
      have htext : greytext ctx ≠ [] :=
        List.append_ne_nil_of_left_ne_nil
          (List.append_ne_nil_of_left_ne_nil (List.cons_ne_nil _ _) _) _
      rw [Config.greylisted, setMessage_string 451 htext, hcode]
      rfl
    exact ⟨hline, rfl⟩

theorem verdict_ne {e : Event Ans} {v : GreylistResponse} (he : verdict e = some v) :
    v ≠ .Accepted := by
  obtain ⟨c, x⟩ := e
  cases c with
  | greylist =>
    rcases x with _ | _ | _ | _
    · cases he
    · cases he
    · cases he
      decide
    · cases he
      decide
  | _ => cases he

theorem lastVerdict_ne {v : GreylistResponse} (hv : lastVerdict h = some v) : v ≠ .Accepted := by
  induction h with
  | nil => cases hv
  | cons e past ih =>
    rw [lastVerdict] at hv
    cases he : verdict e with
    | none =>
      rw [he] at hv
      exact ih hv
    | some v' =>
      rw [he] at hv
      cases hv
      exact verdict_ne he

/-- While a session goes on, `errorstate` is set just where a verdict is left. -/
theorem errorState_iff {c : Config} {e : Call} {x : Ans e}
    (hc : (machine ctx rounds).On (initial rounds) c (⟨e, x⟩ :: h)) :
    ErrorState ctx rounds h ↔ Since refusal cleared h := by
  obtain ⟨c', next, hc', hcall, -⟩ := hc.before
  have hlive : c'.point.live = true := by
    obtain ⟨point, s, left⟩ := c'
    cases point with
    | finished => cases hcall
    | _ => rfl
  rw [← ((known hc').flags hlive).errorstate]
  constructor
  · rintro ⟨c'', hc'', herror⟩
    rwa [hc''.unique hc'] at herror
  · exact fun herror => ⟨c', hc', herror⟩

theorem errorState_earlier {later earlier : Log} {c : Config} {e : Event Ans}
    (hc : (machine ctx rounds).On (initial rounds) c (e :: (later ++ earlier))) :
    ErrorState ctx rounds earlier ↔ Since refusal cleared earlier := by
  induction later generalizing c e with
  | nil => exact errorState_iff hc
  | cons e' later ih =>
    obtain ⟨c', -, hc', -, -⟩ := hc.before
    exact ih hc'

/-- A refusal of DATA is written. -/
theorem reports {c : Config} {r : SMTPResponse} {written : Bool}
    (hc : (machine ctx rounds).On (initial rounds) c (⟨.outReply .refusal r, written⟩ :: h))
    (hdata : dataRead h) : Reports ctx rounds r h := by
  obtain ⟨⟨point, s, left⟩, next, hc', hcall, -⟩ := hc.before
  have hs := caused hc'
  cases point with
  | refusal =>
    cases hcall
    obtain ⟨herror, hverdict⟩ := hs.data rfl hdata
    obtain ⟨v, hlast, hreply⟩ := hs.deferred hverdict
    have hshown : s.response = reply ctx v := (hs.shown rfl).trans hreply
    have hstate : ErrorState ctx rounds h := ⟨_, hc', herror⟩
    refine ⟨hstate, ⟨v, hlast, ?_⟩, ?_⟩
    · rw [hshown]
      exact reply_line (lastVerdict_ne hlast)
    · rintro later earlier rfl hfalse
      have hleft := (errorState_iff hc).mp hstate
      exact since_split hleft fun hsince => hfalse ((errorState_earlier hc).mpr hsince)
  | _ => cases hcall

end Cause

/-- A DATA that is refused because of `errorstate` gets the reply of the last recipient
that was refused, and that was since `errorstate` was last false. -/
theorem refused_data_reports_cause (ctx : Context) (rounds : Nat) {r : Except Exn Unit} {s : Session}
    {h : Log} (hrun : (process ctx rounds).Ends {} [] r s h) : Always (reportsCause ctx rounds) h := by
  obtain ⟨left, hc⟩ := process_on hrun
  refine hc.always ?_
  rintro c e past hc r written rfl hdata
  exact Cause.reports hc hdata

/-- A client that makes an error of its own before its second recipient is greylisted. -/
def erringClient : World := twoRecipients
  ["HELO a.b", "AUTH PLAIN", "MAIL FROM:<a@b>", "RCPT TO:<e@f>", "RCPT TO:<c@d>", "DATA"]
  ["220 in", "250 ok", "250 ok", "250 ok", "250 ok"]

theorem erringClient_reports :
    Once (fun e past => refusesCommand e ∧ dataRead past)
        (erringClient.history (.sample 0 .InternalAuth) 9) ∧
      Always (reportsCause (.sample 0 .InternalAuth) 9) (erringClient.history (.sample 0 .InternalAuth) 9) := by
  refine ⟨by decide +kernel, ?_⟩
  obtain ⟨r, s, hrun⟩ := erringClient.history_ends (.sample 0 .InternalAuth) 9
  exact refused_data_reports_cause (.sample 0 .InternalAuth) 9 hrun

end Spey
