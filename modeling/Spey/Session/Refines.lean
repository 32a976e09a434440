import Spey.Session.Machine

/-!
# `process` follows the machine

One lemma for each part of `process`, from the configuration it begins in to the
ones it can leave for. What an invariant of the machine says about finished
configurations is then true of every execution of `process`.
-/

namespace Spey

open Interaction Interaction.Action

variable {ctx : Context} {rounds left : Nat} {s : Session} {c : Config}

/-- What `process` does before its loop. -/
def opening (ctx : Context) : Proc Unit := do
  let trusted ← sql (.testtrusted ctx.address) id
  update fun s => { s with trusted := trusted }
  if ← door ctx then
    let _ ← settle ctx .error
    pure ()
  else
    respond { code := 220, parameter := ctx.settings.identity }
    writeoutside .banner

theorem process_eq (ctx : Context) (rounds : Nat) :
    process ctx rounds = opening ctx >>= fun _ => session ctx rounds := by
  simp only [process, opening, bind_assoc, ite_bind, pure_bind]

namespace Refines

/-- The machine is where a part that ends in this jump leaves it. -/
@[simp] def lands (left : Nat) (fall : Session → Config) : Goal Exn Session Jump Config
  | .ok .fall, s, c => c = fall s
  | .ok .next, s, c => c = .again s left
  | .ok .error, s, c => c = .refuse s left
  | .ok .abort, s, c => c = .raise s left .network
  | .ok .ret, s, c => c = ⟨.finished (.ok ()), s, left⟩
  | .error e, s, c => c = .raise s left e

/-- The same for a part that only goes on or throws. -/
@[simp] def yields {α : Type} (left : Nat) (next : α → Session → Config) :
    Goal Exn Session α Config
  | .ok a, s, c => c = next a s
  | .error e, s, c => c = .raise s left e

section
variable {m : Machine Ans (Except Exn Unit × Session) Config}

@[simp] theorem follows_respond {Q : Goal Exn Session Unit Config} (r : SMTPResponse) :
    follows m (respond r) Q s c ↔ Q (.ok ()) { s with response := r } c := Iff.rfl

@[simp] theorem follows_defer {Q : Goal Exn Session Unit Config} (r : SMTPResponse) :
    follows m (defer r) Q s c ↔ Q (.ok ()) { s with deferrederror := r } c := Iff.rfl

theorem ask_follows {e : Call} {next : Ans e → Config} {Q : Goal Exn Session (Ans e) Config}
    (hc : m c = .call e next) (hQ : ∀ x, Q (.ok x) s (next x)) : follows m (ask e) Q s c :=
  ⟨next, hc, hQ⟩

theorem inWriteline_follows {item : Item} {next : Bool → Config} {Q : Goal Exn Session Unit Config}
    (hc : m c = .call (.inWriteline item) next) (herror : Q (.error .network) s (next false))
    (hok : Q (.ok ()) s (next true)) : follows m (inWriteline item) Q s c := by
  simp only [inWriteline, follows_bind, follows_ite, follows_pure, follows_raise]
  refine ask_follows hc fun x => ?_
  cases x with
  | false => exact herror
  | true => exact hok

theorem writeinside_follows {next : Bool → Config} {Q : Goal Exn Session Unit Config}
    (hc : m c = .call (.inWriteline (.command s.command)) next)
    (herror : Q (.error .network) s (next false)) (hok : Q (.ok ()) s (next true)) :
    follows m writeinside Q s c :=
  inWriteline_follows hc herror hok

theorem writeoutside_follows {site : ReplySite} {next : Bool → Config}
    {Q : Goal Exn Session Unit Config} (hc : m c = .call (.outReply site s.response) next)
    (herror : Q (.error .network) s (next false)) (hok : Q (.ok ()) s (next true)) :
    follows m (writeoutside site) Q s c := by
  simp only [writeoutside, follows_bind, follows_getState, follows_ite, follows_pure, follows_raise]
  refine ask_follows hc fun x => ?_
  cases x with
  | false => exact herror
  | true => exact hok

theorem count_follows {counter : Counter} {next : Bool → Config} {Q : Goal Exn Session Unit Config}
    (hc : m c = .call (.count counter) next) (herror : Q (.error .sql) s (next false))
    (hok : Q (.ok ()) s (next true)) : follows m (count counter) Q s c := by
  simp only [count, follows_bind, follows_ite, follows_pure, follows_raise]
  refine ask_follows hc fun x => ?_
  cases x with
  | false => exact herror
  | true => exact hok

theorem outReadline_follows {site : ReadSite} {next : Except ReadFailure Line → Config}
    {Q : Goal Exn Session Line Config} (hc : m c = .call (.outReadline site) next)
    (herror : ∀ e : ReadFailure, Q (.error e.exn) s (next (.error e)))
    (hok : ∀ l, Q (.ok l) s (next (.ok l))) : follows m (outReadline site) Q s c := by
  simp only [outReadline, follows_bind]
  refine ask_follows hc fun x => ?_
  cases x with
  | error e => exact herror e
  | ok l => exact hok l

theorem readinside_follows {next : Except ReadFailure Reply → Config}
    {Q : Goal Exn Session Unit Config} (hc : m c = .call .readReply next)
    (herror : ∀ e : ReadFailure, Q (.error e.exn) s (next (.error e)))
    (hok : ∀ r, Q (.ok ()) { s with response := r.response } (next (.ok r))) :
    follows m readinside Q s c := by
  simp only [readinside, follows_bind]
  refine ask_follows hc fun x => ?_
  cases x with
  | error e => exact herror e
  | ok r => exact hok r

theorem sql_follows {α : Type} {e : Call} {answer : Ans e → Option α} {next : Ans e → Config}
    {Q : Goal Exn Session α Config} (hc : m c = .call e next)
    (herror : ∀ x, answer x = none → Q (.error .sql) s (next x))
    (hok : ∀ x a, answer x = some a → Q (.ok a) s (next x)) : follows m (sql e answer) Q s c := by
  simp only [sql, follows_bind]
  refine ask_follows hc fun x => ?_
  dsimp only
  cases hx : answer x with
  | none => exact herror x hx
  | some a => exact hok x a hx

end

/-! ## The first switch -/

theorem starttls_follows {fall : Session → Config} :
    follows (machine ctx rounds) (starttls ctx) (lands left fall) s
      (if ctx.gnutls ∧ ctx.settings.externaltls then
        if s.secure then .deny s left (.set 503)
        else ⟨.starttls, { s with response := .set 220 }, left⟩
      else .deny s left (.set 502)) := by
  simp only [starttls, follows_ite, follows_bind, follows_getState, follows_defer, follows_pure,
    follows_respond, follows_update, follows_raise]
  split_ifs with htls hsecure hconnected
  · rfl
  · refine writeoutside_follows rfl rfl (ask_follows rfl fun secured => ?_)
    cases secured with
    | false => rfl
    | true =>
      simp only [hconnected, ↓reduceIte]
      exact ask_follows rfl fun _ => rfl
  · refine writeoutside_follows rfl rfl (ask_follows rfl fun secured => ?_)
    cases secured with
    | false => rfl
    | true => exact if_neg hconnected
  · rfl

/-- The machine goes past the checks of a client that is exempt from them. -/
theorem exempt_iff : (!s.authenticated && !s.trusted) = !s.exempt := by
  simp only [Session.exempt, Bool.not_or]

theorem hello_follows : follows (machine ctx rounds) hello (lands left (Config.proceed ctx · left)) s
    (if s.exempt then .proceed ctx s left else ⟨.domain, s, left⟩) := by
  simp only [hello, verifydomain, exempt_iff, follows_bind, follows_getState, follows_ite,
    follows_pure, follows_handle]
  cases hexempt : s.exempt with
  | true => rfl
  | false =>
    simp only [Bool.not_false, ↓reduceIte, Bool.false_eq_true]
    refine ask_follows rfl fun _ => ?_
    by_cases hdot : byte '.' ∈ s.command.parameter.bytes
    · simp only [hdot, ↓reduceIte]
      rfl
    · simp only [hdot, ↓reduceIte, follows_raise, follows_bind, follows_defer, follows_pure]
      exact count_follows rfl rfl rfl

theorem mail_follows : follows (machine ctx rounds) mail (lands left (Config.proceed ctx · left)) s
    (if s.exempt then .proceed ctx s left
      else if s.command.parameter.bytes = [] then
        .proceed ctx { s with _from := s.command.parameter } left
      else ⟨.sender, { s with _from := s.command.parameter }, left⟩) := by
  simp only [mail, verifyaddress, exempt_iff, follows_bind, follows_getState, follows_ite,
    follows_pure, follows_handle, follows_update]
  cases hexempt : s.exempt with
  | true => rfl
  | false =>
    simp only [Bool.not_false, ↓reduceIte, Bool.false_eq_true]
    by_cases hempty : s.command.parameter.bytes = []
    · simp only [hempty, ne_eq, not_true_eq_false, ↓reduceIte]
      rfl
    · simp only [hempty, ne_eq, not_false_eq_true, ↓reduceIte]
      refine ask_follows rfl fun _ => ?_
      by_cases hat : byte '@' ∈ s.command.parameter.bytes
      · simp only [hat, ↓reduceIte]
        rfl
      · simp only [hat, ↓reduceIte, follows_raise, follows_bind, follows_defer, follows_pure]
        exact count_follows rfl rfl rfl

/-- A refused recipient is counted, and goes on to the inside server. -/
theorem judged_follows (verdict : GreylistResponse) :
    follows (machine ctx rounds) (match verdict with
      | .Accepted => do
          count .accepted
          pure .fall
      | .GreyListed => greymessage ctx
      | .BlackListed => blackmessage) (lands left (Config.proceed ctx · left)) s
      (.judged ctx s left verdict) := by
  cases verdict with
  | Accepted =>
    simp only [follows_bind, follows_pure]
    exact count_follows rfl rfl rfl
  | GreyListed =>
    simp only [greymessage, follows_bind, follows_pure, follows_defer, follows_update]
    exact count_follows rfl rfl rfl
  | BlackListed =>
    simp only [blackmessage, follows_bind, follows_pure, follows_defer, follows_update]
    exact count_follows rfl rfl rfl

theorem judge_follows : follows (machine ctx rounds) (judge ctx) (fun r s' c' => match r with
      | .ok none => c' = .refuse s' left
      | .ok (some verdict) => c' = .judged ctx s' left verdict
      | .error e => c' = .raise s' left e) s ⟨.recipient, s, left⟩ := by
  simp only [judge, verifyaddress, follows_bind, follows_getState, follows_handle, follows_ite,
    follows_pure, follows_raise]
  refine ask_follows rfl fun _ => ?_
  by_cases hat : byte '@' ∈ s.command.parameter.bytes
  · simp only [hat, ↓reduceIte]
    refine sql_follows rfl ?_ ?_
    · rintro _ rfl
      rfl
    · rintro _ accepted rfl
      cases accepted with
      | false =>
        simp only [Bool.false_eq_true, ↓reduceIte, follows_defer]
        exact count_follows rfl rfl rfl
      | true =>
        simp only [↓reduceIte]
        refine sql_follows rfl ?_ ?_
        · rintro _ rfl
          rfl
        · rintro _ verdict rfl
          rfl
  · simp only [hat, ↓reduceIte, follows_defer]
    exact count_follows rfl rfl rfl

theorem rcpt_follows : follows (machine ctx rounds) (rcpt ctx)
    (lands left (Config.proceed ctx · left)) s
    (if s.exempt then ⟨.counting .accepted true, s, left⟩ else ⟨.recipient, s, left⟩) := by
  simp only [rcpt, exempt_iff, follows_bind, follows_getState, follows_ite, follows_pure]
  cases hexempt : s.exempt with
  | true =>
    simp only [Bool.not_true, Bool.false_eq_true, ↓reduceIte]
    exact count_follows rfl rfl rfl
  | false =>
    simp only [Bool.not_false, ↓reduceIte, Bool.false_eq_true]
    refine follows_mono judge_follows fun r s' c' hr => ?_
    rcases r with e | _ | verdict
    · exact hr
    · exact hr
    · obtain rfl : c' = _ := hr
      cases verdict with
      | Accepted => exact judged_follows .Accepted
      | BlackListed => exact judged_follows .BlackListed
      | GreyListed => exact judged_follows .GreyListed

theorem screen_follows : follows (machine ctx rounds) (screen ctx)
    (lands left (Config.proceed ctx · left)) s (.dispatch ctx s left) := by
  simp only [screen, follows_bind, follows_getState, Config.dispatch]
  cases s.command.cmd with
  | HELP =>
    simp only [follows_bind, follows_respond, follows_pure]
    exact writeoutside_follows rfl rfl rfl
  | QUIT => rfl
  | STARTTLS => exact starttls_follows
  | HELO => exact hello_follows
  | EHLO => exact hello_follows
  | MAIL => exact mail_follows
  | RCPT => exact rcpt_follows
  | RSET => rfl
  | DATA =>
    simp only [data, follows_bind, follows_getState, follows_ite, follows_pure]
    split_ifs
    · rfl
    · rfl
  | VRFY => rfl
  | EXPN => rfl
  | NOOP => rfl
  | AUTH => rfl

/-! ## The inside server -/

theorem connectInside_follows : follows (machine ctx rounds) connectInside
    (yields left fun _ s => .second ctx s left) s (.proceed ctx s left) := by
  simp only [connectInside, Config.proceed, follows_bind, follows_getState, follows_ite,
    follows_pure, follows_handle, follows_raise, follows_update]
  cases hconnected : s.connected with
  | true => rfl
  | false =>
    simp only [Bool.false_eq_true, ↓reduceIte]
    have hgive : ∀ (s : Session) (c : Config),
        c = ⟨.noDownstream, { s with response := .set 421 }, left⟩ →
        follows (machine ctx rounds) (do
            respond (.set 421)
            writeoutside .noDownstream
            raise .network) (yields left fun (_ : Unit) s => .second ctx s left) s c := by
      rintro s _ rfl
      simp only [follows_bind, follows_respond, follows_raise]
      exact writeoutside_follows rfl rfl rfl
    refine ask_follows rfl fun x => ?_
    cases x with
    | false => exact hgive s _ rfl
    | true =>
      simp only [↓reduceIte]
      refine readinside_follows rfl ?_ ?_
      · intro e
        cases e with
        | network => exact hgive s _ rfl
        | timeout => exact hgive s _ rfl
      · intro r
        by_cases hcode : r.response.code = 220
        · simp only [hcode, ↓reduceIte]
          rfl
        · simp only [hcode, ↓reduceIte]
          exact hgive _ _ rfl

theorem authRound_follows (k : Nat) : follows (machine ctx rounds) authRound (fun r s' c' => match r with
      | .ok none => c' = .exchange s' left k
      | .ok (some ()) => c' = if s'.response.code = 235 then
          .again { s' with authenticated := true } left else .again s' left
      | .error e => c' = .raise s' left e) s ⟨.authLine k, s, left⟩ := by
  simp only [authRound, follows_bind, follows_getState, follows_ite, follows_pure]
  refine outReadline_follows rfl (fun _ => rfl) fun l => ?_
  refine inWriteline_follows rfl rfl ?_
  refine readinside_follows rfl (fun _ => rfl) fun r => ?_
  refine writeoutside_follows rfl rfl ?_
  by_cases hcode : r.response.code = 334
  · simp only [hcode, ↓reduceIte]
    rfl
  · simp only [hcode, ↓reduceIte]
    rfl

theorem proxyAuth_follows {fall : Session → Config} : follows (machine ctx rounds) (proxyAuth rounds)
    (lands left fall) s ⟨.authSend, s, left⟩ := by
  simp only [proxyAuth, follows_bind, follows_getState, follows_ite, follows_pure, follows_update]
  refine writeinside_follows rfl rfl ?_
  refine readinside_follows rfl (fun _ => rfl) fun r => ?_
  refine writeoutside_follows rfl rfl ?_
  by_cases hcode : r.response.code = 334
  · simp only [hcode, ne_eq, not_true_eq_false, ↓reduceIte]
    refine follows_repeatUntil (fun k s c => c = Config.exchange s left k) ?_ ?_ rounds _ _ rfl
    · rintro k s _ rfl
      refine follows_mono (authRound_follows k) fun r s' c' hr => ?_
      rcases r with e | _ | _
      · exact hr
      · exact hr
      · obtain rfl : c' = _ := hr
        split_ifs with hdone
        · rfl
        · rfl
    · rintro s _ rfl
      rfl
  · simp only [hcode, ne_eq, not_false_eq_true, ↓reduceIte]
    rfl

theorem conversation_follows (stage : Challenge) : follows (machine ctx rounds)
    (conversation (Config.message stage)) (fun r s' c' => s' = s ∧ match r with
      | .ok a => c' = .answered s left a stage
      | .error .authenticationCancelled => c' = .deny s left (.set 501)
      | .error e => c' = .raise s left e) s ⟨.challenge stage, s, left⟩ := by
  simp only [conversation, follows_bind, follows_ite, follows_raise]
  refine ask_follows rfl fun written => ?_
  cases written with
  | false => exact ⟨rfl, rfl⟩
  | true =>
    simp only [↓reduceIte]
    refine ask_follows rfl fun l => ?_
    rcases l with (_ | _) | l
    · exact ⟨rfl, rfl⟩
    · exact ⟨rfl, rfl⟩
    · by_cases hcancel : l.bytes = text "*"
      · simp only [hcancel, ↓reduceIte]
        exact ⟨rfl, if_pos hcancel⟩
      · simp only [hcancel, ↓reduceIte]
        exact ⟨rfl, if_neg hcancel⟩

/-- Where an authenticator leaves the machine: its result is the code of a reply. -/
@[simp] def concludes (s : Session) (left : Nat) : Goal Exn Session Nat Config
  | .ok code, s', c => s' = s ∧ c = if code = 235 then
      ⟨.authenticated, { s with response := .set 235 }, left⟩ else .deny s left (.set code)
  | .error .authenticationCancelled, s', c => s' = s ∧ c = .deny s left (.set 501)
  | .error e, s', c => s' = s ∧ c = .raise s left e

theorem check_credentials_follows {username password : Bytes} :
    follows (machine ctx rounds) (check_credentials username password) (concludes s left) s
      ⟨.lookup username password, s, left⟩ := by
  simp only [check_credentials, follows_bind]
  refine ask_follows rfl fun x => ?_
  rcases x with _ | n
  · exact ⟨rfl, rfl⟩
  · by_cases hn : n = 0
    · subst hn
      exact ⟨rfl, rfl⟩
    · simp only [if_neg hn]
      exact ⟨rfl, rfl⟩

theorem decoded_follows {a : Bytes} : follows (machine ctx rounds)
    (match base64_decode a with
      | none => pure 535
      | some buffer =>
          if buffer.count 0 ≠ 2 then pure 535
          else check_credentials (cstr (afterNul buffer)) (cstr (afterNul (afterNul buffer))))
    (concludes s left) s (.credentials s left (plainCredentials a)) := by
  unfold plainCredentials
  cases base64_decode a with
  | none => exact ⟨rfl, rfl⟩
  | some buffer =>
    simp only [Option.bind_eq_bind, Option.bind_some, follows_ite, follows_pure]
    split_ifs
    · exact ⟨rfl, rfl⟩
    · exact check_credentials_follows

theorem auth_plain_follows (initial : Bytes) : follows (machine ctx rounds) (auth_plain initial)
    (concludes s left) s (if initial = [] then ⟨.challenge .plain, s, left⟩
      else .credentials s left (plainCredentials initial)) := by
  simp only [auth_plain, follows_bind, follows_ite, follows_pure]
  split_ifs
  · refine follows_mono (conversation_follows .plain) ?_
    rintro r _ c' ⟨rfl, hr⟩
    rcases r with e | a
    · cases e <;> exact ⟨rfl, hr⟩
    · obtain rfl : c' = _ := hr
      exact decoded_follows
  · exact decoded_follows

theorem auth_login_follows : follows (machine ctx rounds) (auth_login []) (concludes s left) s
    ⟨.challenge .username, s, left⟩ := by
  simp only [auth_login, ne_eq, not_true_eq_false, ↓reduceIte, follows_bind]
  refine follows_mono (conversation_follows .username) ?_
  rintro r _ c' ⟨rfl, hr⟩
  rcases r with e | username64
  · cases e <;> exact ⟨rfl, hr⟩
  obtain rfl : c' = _ := hr
  refine follows_mono (conversation_follows (.password username64)) ?_
  rintro r _ c' ⟨rfl, hr⟩
  rcases r with e | password64
  · cases e <;> exact ⟨rfl, hr⟩
  obtain rfl : c' = _ := hr
  simp only [Config.answered, loginCredentials]
  cases base64_decode username64 with
  | none => exact ⟨rfl, rfl⟩
  | some username =>
    cases base64_decode password64 with
    | none => exact ⟨rfl, rfl⟩
    | some password => exact check_credentials_follows

/-- What `internalAuth` does with the result of an authenticator. -/
theorem conclude_follows {fall : Session → Config} {auth_cb : Proc Nat}
    (hauth : follows (machine ctx rounds) auth_cb (concludes s left) s c) :
    follows (machine ctx rounds) (do
      let result ← handle auth_cb fun
        | .authenticationCancelled => some (pure 501)
        | _ => none
      if result ≠ 235 then
        defer (.set result)
        pure .error
      else
        respond (.set result)
        writeoutside .authenticated
        update fun s => { s with authenticated := true }
        pure .next) (lands left fall) s c := by
  simp only [follows_bind, follows_handle, follows_ite, follows_defer, follows_pure,
    follows_respond, follows_update]
  refine follows_mono hauth fun r s' c' hr => ?_
  rcases r with e | code
  · cases e with
    | authenticationCancelled =>
      obtain ⟨rfl, rfl⟩ := hr
      rfl
    | _ =>
      obtain ⟨rfl, rfl⟩ := hr
      rfl
  · obtain ⟨rfl, rfl⟩ := hr
    by_cases hcode : code = 235
    · subst hcode
      simp only [ne_eq, not_true_eq_false, ↓reduceIte]
      exact writeoutside_follows rfl rfl rfl
    · simp only [hcode, ne_eq, not_false_eq_true, ↓reduceIte]
      rfl

theorem internalAuth_follows {fall : Session → Config} : follows (machine ctx rounds) internalAuth
    (lands left fall) s (.internal s left) := by
  simp only [internalAuth, authenticator, Config.internal, follows_bind, follows_getState, follows_ite]
  cases hsecure : s.secure with
  | false => rfl
  | true =>
    simp only [Bool.not_true, Bool.false_eq_true, ↓reduceIte]
    have hinitial : ∀ initial : Bytes, follows (machine ctx rounds) (auth_plain initial)
        (concludes s left) s (if initial = [] then ⟨.challenge .plain, s, left⟩
          else .credentials s left (plainCredentials initial)) := auth_plain_follows
    split_ifs with hplain hempty
    · have hauth := hinitial (s.command.parameter.bytes.drop 6)
      rw [if_pos hempty] at hauth
      exact conclude_follows hauth
    · have hauth := hinitial (s.command.parameter.bytes.drop 6)
      rw [if_neg hempty] at hauth
      exact conclude_follows hauth
    · exact conclude_follows (auth_plain_follows [])
    · exact conclude_follows auth_login_follows
    · rfl

theorem auth_follows : follows (machine ctx rounds) (auth ctx rounds)
    (lands left fun s => ⟨.send, s, left⟩) s (.second ctx s left) := by
  simp only [auth, Config.second, follows_bind, follows_getState, follows_ite, follows_pure]
  split_ifs
  · cases ctx.settings.externalauthmode with
    | NoAuth => rfl
    | ProxyAuth => exact proxyAuth_follows
    | InternalAuth => exact internalAuth_follows
  · rfl

theorem bodyRound_follows (k : Nat) : follows (machine ctx rounds) bodyRound (fun r s' c' => match r with
      | .ok none => c' = .body s' left k
      | .ok (some ()) => c' = ⟨.bodyReply, s', left⟩
      | .error e => c' = .raise s' left e) s ⟨.bodyLine k, s, left⟩ := by
  simp only [bodyRound, follows_bind, follows_ite, follows_pure]
  refine outReadline_follows rfl (fun _ => rfl) fun l => ?_
  refine inWriteline_follows rfl rfl ?_
  by_cases hdot : l.bytes = text "."
  · simp only [hdot, ↓reduceIte]
    rfl
  · simp only [hdot, ↓reduceIte]
    rfl

/-- The header and the rounds of the body, once the names are known. -/
theorem body_follows {name name' : Bytes} : follows (machine ctx rounds) (do
      let s ← getState
      inWriteline (.header (received name name' ctx.port s._from.bytes))
      repeatUntil .unfinished bodyRound rounds
      readinside
      writeoutside .bodyResult) (yields left fun (_ : Unit) s => .again s left) s
      ⟨.header name name', s, left⟩ := by
  simp only [follows_bind, follows_getState]
  refine inWriteline_follows rfl rfl ?_
  refine follows_repeatUntil (fun k s c => c = Config.body s left k) ?_ ?_ rounds _ _ rfl
  · rintro k s _ rfl
    refine follows_mono (bodyRound_follows k) fun r s' c' hr => ?_
    rcases r with e | _ | _
    · exact hr
    · exact hr
    · obtain rfl : c' = _ := hr
      refine readinside_follows rfl (fun _ => rfl) fun r => ?_
      exact writeoutside_follows rfl rfl rfl
  · rintro s _ rfl
    rfl

theorem getname_zero {Q : Goal Exn Session Bytes Config} (haddress : ctx.address = 0) :
    follows (machine ctx rounds) (getname ctx) Q s c ↔ Q (.ok (text "0.0.0.0")) s c := by
  rw [getname, if_pos haddress]
  exact follows_pure _ Q

theorem getname_follows {Q : Goal Exn Session Bytes Config} (next : Bytes → Config)
    (haddress : ctx.address ≠ 0)
    (hc : machine ctx rounds c = .call .gethostbyaddr fun name => next (Config.hostname ctx name))
    (hQ : ∀ name, Q (.ok name) s (next name)) : follows (machine ctx rounds) (getname ctx) Q s c := by
  rw [getname, if_neg haddress, follows_bind]
  refine ask_follows hc fun name => ?_
  cases name with
  | none => exact hQ _
  | some name => exact hQ name

theorem transfer_follows : follows (machine ctx rounds) (transfer ctx rounds)
    (yields left fun (_ : Unit) s => .again s left) s (.naming ctx s left) := by
  rw [transfer, follows_bind, Config.naming]
  by_cases haddress : ctx.address = 0
  · rw [if_pos haddress, getname_zero haddress]
    dsimp only
    rw [follows_bind, getname_zero haddress]
    exact body_follows
  · rw [if_neg haddress]
    apply getname_follows (fun name => ⟨.name' name, s, left⟩) haddress rfl
    intro name
    dsimp only
    rw [follows_bind]
    apply getname_follows (fun name' => ⟨.header name name', s, left⟩) haddress rfl
    intro name'
    exact body_follows

theorem deliver_follows (herror : ¬ (s.response.iserror ∧ ctx.settings.intolerant ≠ 0))
    {fall : Session → Config} : follows (machine ctx rounds) (deliver ctx rounds) (lands left fall) s
      (.third ctx s left) := by
  simp only [deliver, Config.third, herror, ↓reduceIte, follows_bind, follows_getState]
  cases s.command.cmd with
  | DATA =>
    simp only [follows_ite, follows_bind, follows_pure]
    split_ifs
    · refine follows_mono transfer_follows fun r s' c' hr => ?_
      cases r with
      | error e => exact hr
      | ok _ => exact hr
    · rfl
  | _ => rfl

theorem forward_follows {fall : Session → Config} : follows (machine ctx rounds) (forward ctx rounds)
    (lands left fall) s ⟨.send, s, left⟩ := by
  simp only [forward, follows_bind, follows_getState, follows_ite, follows_pure, follows_update]
  refine writeinside_follows rfl rfl ?_
  refine readinside_follows rfl (fun _ => rfl) fun r => ?_
  refine writeoutside_follows rfl rfl ?_
  split_ifs with herror
  · exact if_pos herror
  · exact deliver_follows herror

/-! ## The loop -/

/-- Where the loop body leaves the machine: the loop goes on, or is left. -/
@[simp] def turns (left : Nat) : Goal Exn Session (Option Unit) Config
  | .ok none, s, c => c = .again s left
  | .ok (some ()), s, c => c = ⟨.finished (.ok ()), s, left⟩
  | .error e, s, c => c = .raise s left e

/-- The `error:` label leads back to the head of the loop, or out of it. -/
theorem errorLabel_follows : follows (machine ctx rounds) (settle ctx .error)
    (fun r s' c => turns left r s' c ∧ r ≠ .ok (some ())) s (.refuse s left) := by
  simp only [settle, errorLabel, follows_bind, follows_update, follows_ite, follows_pure]
  refine writeoutside_follows rfl ⟨rfl, by simp⟩ ?_
  split_ifs with hi
  · exact ⟨if_pos hi, by simp⟩
  · exact ⟨if_neg hi, by simp⟩

theorem settle_follows {jump : Jump} (hc : lands left (Config.again · left) (.ok jump) s c) :
    follows (machine ctx rounds) (settle ctx jump) (turns left) s c := by
  cases jump with
  | fall => exact hc
  | next => exact hc
  | abort => exact hc
  | ret => exact hc
  | error =>
    obtain rfl : c = _ := hc
    exact follows_mono errorLabel_follows fun _ _ _ hr => hr.1

/-- The rest of the loop body, once the first switch has let the command pass. -/
theorem proceed_follows : follows (machine ctx rounds) (do
      connectInside
      match ← auth ctx rounds with
      | .fall => forward ctx rounds
      | jump => pure jump) (lands left (Config.again · left)) s (.proceed ctx s left) := by
  simp only [follows_bind]
  refine follows_mono connectInside_follows fun r s₁ c₁ hready => ?_
  cases r with
  | error e => exact hready
  | ok _ =>
    obtain rfl : c₁ = _ := hready
    refine follows_mono auth_follows fun r s₂ c₂ hauth => ?_
    rcases r with e | jump
    · exact hauth
    cases jump with
    | next => exact hauth
    | error => exact hauth
    | abort => exact hauth
    | ret => exact hauth
    | fall =>
      obtain rfl : c₂ = _ := hauth
      exact forward_follows

theorem nextCommand_follows : follows (machine ctx rounds) nextCommand (fun r s' c' => match r with
      | .ok true => c' = .dispatch ctx s' left
      | .ok false => c' = ⟨.syntaxError, { s' with response := .set 500 }, left⟩
      | .error e => c' = .raise s' left e) s ⟨.head, s, left⟩ := by
  simp only [nextCommand, readoutside, follows_bind, follows_handle, follows_getState, follows_pure]
  refine outReadline_follows rfl ?_ fun l => ?_
  · intro e
    cases e with
    | network => rfl
    | timeout => rfl
  dsimp only [Config.reading]
  unfold Config.parsed
  cases s.command.set l with
  | none => rfl
  | some command => rfl

theorem command_follows : follows (machine ctx rounds) (command ctx rounds)
    (lands left (Config.again · left)) s ⟨.head, s, left⟩ := by
  simp only [command, follows_bind, follows_ite, follows_pure, follows_respond]
  refine follows_mono nextCommand_follows fun r s₁ c₁ hparsed => ?_
  rcases r with e | _ | _
  · exact hparsed
  · obtain rfl : c₁ = _ := hparsed
    simp only [Bool.false_eq_true, ↓reduceIte]
    refine writeoutside_follows rfl rfl ?_
    split_ifs
    · rfl
    · rfl
  · obtain rfl : c₁ = _ := hparsed
    simp only [↓reduceIte]
    refine follows_mono screen_follows fun r s₂ c₂ hscreen => ?_
    rcases r with e | jump
    · exact hscreen
    cases jump with
    | next => exact hscreen
    | error => exact hscreen
    | abort => exact hscreen
    | ret => exact hscreen
    | fall =>
      obtain rfl : c₂ = _ := hscreen
      exact proceed_follows

/-- The machine is where the session has ended. -/
@[simp] def ends : Goal Exn Session Unit Config := fun r s c => c.point = .finished r ∧ c.session = s

/-- A round of the loop leads to the head of the next one, or out of it. -/
theorem round_follows : follows (machine ctx rounds) (command ctx rounds >>= settle ctx) (turns left) s
    ⟨.head, s, left⟩ := by
  simp only [follows_bind]
  refine follows_mono command_follows fun r s' c' hr => ?_
  cases r with
  | error e => exact hr
  | ok jump => exact settle_follows hr

theorem session_follows (n : Nat) : follows (machine ctx rounds)
    (repeatUntil .unfinished (command ctx rounds >>= settle ctx) n) ends s (.again s n) := by
  refine follows_repeatUntil (fun n s c => c = Config.again s n) ?_ ?_ n _ _ rfl
  · rintro n s _ rfl
    refine follows_mono round_follows fun r s' c' hr => ?_
    rcases r with e | _ | _
    · obtain rfl : c' = _ := hr
      exact ⟨rfl, rfl⟩
    · exact hr
    · obtain rfl : c' = _ := hr
      exact ⟨rfl, rfl⟩
  · rintro s _ rfl
    exact ⟨rfl, rfl⟩

/-! ## The session -/

/-- Where the checks at the door leave the machine. -/
@[simp] def admits (ctx : Context) (left : Nat) : Goal Exn Session Bool Config
  | .ok true, s, c => c = .refuse s left
  | .ok false, s, c => c = ⟨.banner,
      { s with response := { code := 220, parameter := ctx.settings.identity } }, left⟩
  | .error e, s, c => c = .raise s left e

theorem door_follows : follows (machine ctx rounds) (door ctx) (admits ctx left) s
    (if s.trusted then ⟨.banner,
        { s with response := { code := 220, parameter := ctx.settings.identity } }, left⟩
      else .zones ctx s left (words ctx.settings.rbllist)) := by
  simp only [door, follows_bind, follows_getState, follows_ite, follows_pure]
  split_ifs
  · rfl
  generalize words ctx.settings.rbllist = zones
  induction zones with
  | nil =>
    show follows (machine ctx rounds) (greetPause ctx) _ s _
    simp only [greetPause, Config.zones, follows_ite, follows_bind, follows_pure, follows_defer]
    split_ifs
    · refine ask_follows rfl fun early => ?_
      cases early with
      | false => rfl
      | true =>
        simp only [↓reduceIte]
        exact count_follows rfl rfl rfl
    · rfl
  | cons rbl rbls ih =>
    simp only [rblLoop, follows_bind, follows_ite, follows_defer, follows_pure]
    refine ask_follows rfl fun listed => ?_
    cases listed with
    | false => exact ih
    | true =>
      simp only [↓reduceIte]
      exact count_follows rfl rfl rfl

/-- What comes before the loop leads to its head. -/
theorem opening_follows : follows (machine ctx rounds) (opening ctx) (fun r s' c' => match r with
      | .ok _ => c' = .again s' left
      | .error e => c' = .raise s' left e) {} (initial left) := by
  simp only [opening, follows_bind, follows_update, follows_ite, follows_respond]
  refine sql_follows rfl ?_ ?_
  · rintro _ rfl
    rfl
  · rintro _ trusted rfl
    refine follows_mono door_follows fun r s' c' hr => ?_
    rcases r with e | _ | _
    · exact hr
    · obtain rfl : c' = _ := hr
      simp only [Bool.false_eq_true, ↓reduceIte]
      exact writeoutside_follows rfl rfl rfl
    · obtain rfl : c' = _ := hr
      simp only [↓reduceIte]
      refine follows_mono errorLabel_follows fun r s'' c'' hr => ?_
      rcases r with e | _ | _
      · exact hr.1
      · exact hr.1
      · exact absurd rfl hr.2

theorem process_follows : follows (machine ctx rounds) (process ctx rounds) ends {} (initial rounds) := by
  rw [process_eq, follows_bind]
  refine follows_mono opening_follows fun r s c hr => ?_
  cases r with
  | error e =>
    obtain rfl : c = _ := hr
    exact ⟨rfl, rfl⟩
  | ok _ =>
    obtain rfl : c = _ := hr
    exact session_follows rounds

end Refines

/-- Every execution of `process` is a run of the machine to its end. -/
theorem process_on {r : Except Exn Unit} {h : Log} (hrun : (process ctx rounds).Ends {} [] r s h) :
    ∃ left, (machine ctx rounds).On (initial rounds) ⟨.finished r, s, left⟩ h := by
  obtain ⟨c, hend, hc⟩ := follows_ends Refines.process_follows .start hrun
  obtain ⟨point, session, left⟩ := c
  obtain ⟨rfl, rfl⟩ := hend
  exact ⟨left, hc⟩

end Spey
