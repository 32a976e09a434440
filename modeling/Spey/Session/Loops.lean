import Spey.Session.Events
import Spey.Session.Steps

/-!
# The parts of a session with loops

The message body, the AUTH exchanges and the checks at the door make any number
of calls. Their rules say which kind of events they add to the history, and what
they leave of the state.
-/

namespace Spey

open Interaction Interaction.Action

variable {ctx : Context} {s : Session} {h : Log}

def isTransfer : Event Ans → Prop
  | ⟨.gethostbyaddr, _⟩ | ⟨.outReadline .bodyLine, _⟩ | ⟨.inWriteline (.header _), _⟩
  | ⟨.inWriteline (.bodyLine _), _⟩ | ⟨.readReply, _⟩ | ⟨.outReply .bodyResult _, _⟩ => True
  | _ => False

def isExchange : Event Ans → Prop
  | ⟨.outReadline .authLine, _⟩ | ⟨.inWriteline (.authLine _), _⟩ | ⟨.readReply, _⟩
  | ⟨.outReply .proxiedAuth _, _⟩ => True
  | _ => False

def isConversation : Event Ans → Prop
  | ⟨.outReply .challenge _, _⟩ | ⟨.outReadline .conversation, _⟩ | ⟨.users _ _, _⟩ => True
  | _ => False

def isDoor : Event Ans → Prop
  | ⟨.gethostbyname _, _⟩ | ⟨.outRead _, _⟩ | ⟨.count _, _⟩ => True
  | _ => False

/-- The client's name is looked up. -/
def isLookup : Event Ans → Prop
  | ⟨.gethostbyaddr, _⟩ => True
  | _ => False

section
variable {P : Event Ans → Prop}

/-- What holds of each event of a kind holds of the kind. -/
theorem forall_transfer (hname : ∀ x, P ⟨.gethostbyaddr, x⟩)
    (hline : ∀ x, P ⟨.outReadline .bodyLine, x⟩) (hheader : ∀ a x, P ⟨.inWriteline (.header a), x⟩)
    (hbody : ∀ l x, P ⟨.inWriteline (.bodyLine l), x⟩) (hread : ∀ x, P ⟨.readReply, x⟩)
    (hresult : ∀ r x, P ⟨.outReply .bodyResult r, x⟩) : ∀ e, isTransfer e → P e := by
  rintro ⟨c, x⟩ he
  cases c with
  | gethostbyaddr => exact hname x
  | outReadline site =>
    cases site with
    | bodyLine => exact hline x
    | _ => exact he.elim
  | inWriteline item =>
    cases item with
    | header a => exact hheader a x
    | bodyLine l => exact hbody l x
    | _ => exact he.elim
  | readReply => exact hread x
  | outReply site r =>
    cases site with
    | bodyResult => exact hresult r x
    | _ => exact he.elim
  | _ => exact he.elim

theorem forall_exchange (hline : ∀ x, P ⟨.outReadline .authLine, x⟩)
    (hsend : ∀ l x, P ⟨.inWriteline (.authLine l), x⟩) (hread : ∀ x, P ⟨.readReply, x⟩)
    (hrelay : ∀ r x, P ⟨.outReply .proxiedAuth r, x⟩) : ∀ e, isExchange e → P e := by
  rintro ⟨c, x⟩ he
  cases c with
  | outReadline site =>
    cases site with
    | authLine => exact hline x
    | _ => exact he.elim
  | inWriteline item =>
    cases item with
    | authLine l => exact hsend l x
    | _ => exact he.elim
  | readReply => exact hread x
  | outReply site r =>
    cases site with
    | proxiedAuth => exact hrelay r x
    | _ => exact he.elim
  | _ => exact he.elim

theorem forall_conversation (hchallenge : ∀ r x, P ⟨.outReply .challenge r, x⟩)
    (hline : ∀ x, P ⟨.outReadline .conversation, x⟩) (husers : ∀ u p x, P ⟨.users u p, x⟩) :
    ∀ e, isConversation e → P e := by
  rintro ⟨c, x⟩ he
  cases c with
  | outReply site r =>
    cases site with
    | challenge => exact hchallenge r x
    | _ => exact he.elim
  | outReadline site =>
    cases site with
    | conversation => exact hline x
    | _ => exact he.elim
  | users u p => exact husers u p x
  | _ => exact he.elim

theorem forall_door (hname : ∀ n x, P ⟨.gethostbyname n, x⟩) (hread : ∀ d x, P ⟨.outRead d, x⟩)
    (hcount : ∀ c x, P ⟨.count c, x⟩) : ∀ e, isDoor e → P e := by
  rintro ⟨c, x⟩ he
  cases c with
  | gethostbyname n => exact hname n x
  | outRead d => exact hread d x
  | count c => exact hcount c x
  | _ => exact he.elim

theorem forall_lookup (hname : ∀ x, P ⟨.gethostbyaddr, x⟩) : ∀ e, isLookup e → P e := by
  rintro ⟨c, x⟩ he
  cases c with
  | gethostbyaddr => exact hname x
  | _ => exact he.elim

end

theorem getname_wp {Q : Post Ans Exn Session Bytes}
    (hQ : ∀ name h', Extends isLookup h h' → Q (.ok name) s h') : wp (getname ctx) Q s h := by
  simp only [getname, ask, wp_ite, wp_pure, wp_bind, wp_call]
  split_ifs
  · exact hQ _ _ (.refl _ _)
  · intro name
    cases name <;> exact hQ _ _ (.cons trivial (.refl _ _))

theorem transfer_wp (rounds : Nat) : wp (transfer ctx rounds)
    (fun _ s' h' => (∃ r, s' = { s with response := r }) ∧ Extends isTransfer h h') s h := by
  simp only [transfer, wp_bind, wp_getState, wp_inWriteline, wp_readinside, wp_writeoutside]
  refine getname_wp fun _ h₁ hh₁ => getname_wp fun _ h₂ hh₂ => ?_
  have hh := (hh₁.trans hh₂).mono (forall_lookup (P := isTransfer) fun _ => trivial)
  refine ⟨⟨⟨_, rfl⟩, hh.cons trivial⟩, ?_⟩
  refine wp_repeatUntil (fun s' h' => s' = s ∧ Extends isTransfer h h') ?_ ?_ rounds _ _
    ⟨rfl, hh.cons trivial⟩
  · rintro _ h₃ ⟨rfl, hh⟩
    simp only [bodyRound, wp_bind, wp_outReadline, wp_inWriteline, wp_ite, wp_pure]
    refine ⟨fun e => ⟨⟨_, rfl⟩, hh.cons trivial⟩, fun l => ?_⟩
    refine ⟨⟨⟨_, rfl⟩, (hh.cons trivial).cons trivial⟩, ?_⟩
    split_ifs
    · refine ⟨fun e => ⟨⟨_, rfl⟩, ((hh.cons trivial).cons trivial).cons trivial⟩, fun r => ?_⟩
      have hh' := ((hh.cons (e := ⟨.outReadline .bodyLine, .ok l⟩) trivial).cons
        (e := ⟨.inWriteline (.bodyLine l), true⟩) trivial).cons (e := ⟨.readReply, .ok r⟩) trivial
      exact ⟨⟨⟨_, rfl⟩, hh'.cons trivial⟩, ⟨⟨_, rfl⟩, hh'.cons trivial⟩⟩
    · exact ⟨trivial, (hh.cons trivial).cons trivial⟩
  · rintro _ h₃ ⟨rfl, hh⟩
    exact ⟨⟨_, rfl⟩, hh⟩

theorem authExchange_wp (rounds : Nat) : wp (authExchange rounds)
    (fun r s' h' => (∀ j, r = .ok j → j = .next) ∧
      (∃ r b, s' = { s with response := r, authenticated := b || s.authenticated }) ∧
      Extends isExchange h h') s h := by
  simp only [authExchange, wp_bind, wp_getState, wp_ite, wp_pure, wp_update]
  have hleft : ∀ (e : Exn) (j : Jump), Except.error e = .ok j → j = .next := fun e j hj => by cases hj
  refine wp_repeatUntil (fun s' h' => (∃ r, s' = { s with response := r }) ∧
    Extends isExchange h h') ?_ ?_ rounds _ _ ⟨⟨s.response, rfl⟩, .refl _ _⟩
  · rintro _ h₁ ⟨⟨r₁, rfl⟩, hh⟩
    rw [wp_authRound]
    refine ⟨fun e => ⟨hleft _, ⟨_, false, rfl⟩, hh.cons trivial⟩, fun l => ?_⟩
    have hh₁ := hh.cons (e := ⟨.outReadline .authLine, .ok l⟩) trivial
    refine ⟨⟨hleft _, ⟨_, false, rfl⟩, hh₁.cons trivial⟩, ?_⟩
    have hh₂ := hh₁.cons (e := ⟨.inWriteline (.authLine l), true⟩) trivial
    refine ⟨fun e => ⟨hleft _, ⟨_, false, rfl⟩, hh₂.cons trivial⟩, fun r => ?_⟩
    have hh₃ := hh₂.cons (e := ⟨.readReply, .ok r⟩) trivial
    refine ⟨⟨hleft _, ⟨_, false, rfl⟩, hh₃.cons trivial⟩, ?_⟩
    by_cases hc : r.response.code = 334
    · simp only [hc, ↓reduceIte]
      exact ⟨⟨_, rfl⟩, hh₃.cons trivial⟩
    · simp only [hc, ↓reduceIte]
      split_ifs
      · exact ⟨fun _ hj => (Except.ok.inj hj).symm, ⟨_, false, rfl⟩, hh₃.cons trivial⟩
      · exact ⟨fun _ hj => (Except.ok.inj hj).symm, ⟨_, true, rfl⟩, hh₃.cons trivial⟩
  · rintro _ h₁ ⟨⟨r₁, rfl⟩, hh⟩
    exact ⟨hleft _, ⟨_, false, rfl⟩, hh⟩

theorem conversation_wp {message : Bytes} {Q : Post Ans Exn Session Bytes}
    (herror : ∀ e h', Extends isConversation h h' → Q (.error e) s h')
    (hok : ∀ a h', answers h' = answers h ++ [a] → Extends isConversation h h' → Q (.ok a) s h') :
    wp (conversation message) Q s h := by
  have hh := (Extends.refl isConversation h).cons
    (e := ⟨.outReply .challenge (SMTPResponse.set 334 message), true⟩) trivial
  simp only [conversation, ask, wp_bind, wp_call, wp_ite, wp_raise, Bool.forall_bool,
    Bool.false_eq_true, ↓reduceIte, forall_except]
  refine ⟨herror _ _ (.cons trivial (.refl _ _)), fun e => herror _ _ (hh.cons trivial), fun l => ?_⟩
  split_ifs
  · exact herror _ _ (hh.cons trivial)
  · exact hok _ _ rfl (hh.cons trivial)

/-- The client has given these credentials by its answers since `h`, where `credentials` says
how it gives them. -/
def Gives (credentials : List Bytes → Option (Bytes × Bytes)) (h : Log) (username password : Bytes)
    (h' : Log) : Prop :=
  ∃ later, answers h' = answers h ++ later ∧ credentials later = some (username, password)

/-- An authenticator fails, gives another code, or has found the credentials that the client
has given. -/
structure Authenticating (credentials : List Bytes → Option (Bytes × Bytes))
    (Q : Post Ans Exn Session Nat) (s : Session) (h : Log) : Prop where
  error : ∀ e h', Extends isConversation h h' → Q (.error e) s h'
  refused : ∀ code h', code ≠ 235 → Extends isConversation h h' → Q (.ok code) s h'
  found : ∀ username password n h', n ≠ 0 → Gives credentials h username password h' →
    Extends isConversation h h' → Q (.ok 235) s (⟨.users username password, some n⟩ :: h')

section
variable {credentials : List Bytes → Option (Bytes × Bytes)} {Q : Post Ans Exn Session Nat} {h' : Log}

theorem check_credentials_wp {username password : Bytes} (hQ : Authenticating credentials Q s h)
    (hgives : Gives credentials h username password h') (hh : Extends isConversation h h') :
    wp (check_credentials username password) Q s h' := by
  simp only [check_credentials, ask, wp_bind, wp_call]
  intro answer
  rcases answer with _ | n
  · exact hQ.refused 535 _ (by decide) (hh.cons trivial)
  · simp only [wp_ite, wp_pure]
    split_ifs with hn
    · exact hQ.refused 535 _ (by decide) (hh.cons trivial)
    · exact hQ.found _ _ n _ hn hgives hh

/-- What `auth_plain` does with the answer, whichever way it came. -/
theorem Authenticating.decoded (hQ : Authenticating credentials Q s h) {a : Bytes}
    {later : List Bytes} (hlater : answers h' = answers h ++ later)
    (ha : credentials later = plainCredentials a) (hh : Extends isConversation h h') :
    wp (match base64_decode a with
      | none => pure 535
      | some buffer =>
          if buffer.count 0 ≠ 2 then pure 535
          else check_credentials (cstr (afterNul buffer)) (cstr (afterNul (afterNul buffer))))
      Q s h' := by
  unfold plainCredentials at ha
  cases hdecode : base64_decode a with
  | none => exact hQ.refused 535 _ (by decide) hh
  | some buffer =>
    simp only [wp_ite, wp_pure]
    rw [hdecode, Option.bind_eq_bind, Option.bind_some] at ha
    split_ifs at ha ⊢
    · exact hQ.refused 535 _ (by decide) hh
    · exact check_credentials_wp hQ ⟨later, hlater, ha⟩ hh

theorem auth_plain_wp {initial : Bytes} (hQ : Authenticating (plainExchange initial) Q s h) :
    wp (auth_plain initial) Q s h := by
  simp only [auth_plain, wp_bind, wp_ite, wp_pure]
  split_ifs with hinitial
  · refine conversation_wp (fun e h' hh => hQ.error e h' hh) fun a h' ha hh => ?_
    exact hQ.decoded ha (if_pos hinitial) hh
  · exact hQ.decoded (List.append_nil _).symm (if_neg hinitial) (.refl _ _)

theorem auth_login_wp {initial : Bytes} (hQ : Authenticating loginExchange Q s h) :
    wp (auth_login initial) Q s h := by
  simp only [auth_login, wp_ite, wp_pure, wp_bind]
  split_ifs
  · exact hQ.refused 535 _ (by decide) (.refl _ _)
  · refine conversation_wp (fun e h' hh => hQ.error e h' hh) fun username64 h₁ ha₁ hh₁ => ?_
    refine conversation_wp (fun e h' hh => hQ.error e h' (hh₁.trans hh))
      fun password64 h₂ ha₂ hh₂ => ?_
    have hh := hh₁.trans hh₂
    dsimp only
    cases husername : base64_decode username64 with
    | none => exact hQ.refused 535 _ (by decide) hh
    | some username =>
      cases hpassword : base64_decode password64 with
      | none => exact hQ.refused 535 _ (by decide) hh
      | some password =>
        refine check_credentials_wp hQ ⟨[username64, password64], ?_, ?_⟩ hh
        · rw [ha₂, ha₁, List.append_assoc, List.singleton_append]
        · simp [loginExchange, loginCredentials, husername, hpassword]

theorem authenticator_wp {a : Bytes} {auth_cb : Proc Nat} (ha : authenticator a = some auth_cb)
    (hQ : Authenticating (presented a) Q s h) : wp auth_cb Q s h := by
  unfold authenticator at ha
  split_ifs at ha with hinitial hplain hlogin
  · obtain rfl := Option.some.inj ha
    have hp : presented a = plainExchange (a.drop 6) := funext fun _ => if_pos hinitial
    exact auth_plain_wp (hp ▸ hQ)
  · obtain rfl := Option.some.inj ha
    have hp : presented a = plainExchange [] := by
      funext later
      rw [presented, if_neg hinitial, if_pos hplain]
    exact auth_plain_wp (hp ▸ hQ)
  · obtain rfl := Option.some.inj ha
    have hp : presented a = loginExchange := by
      funext later
      rw [presented, if_neg hinitial, if_neg hplain, if_pos hlogin]
    exact auth_login_wp (hp ▸ hQ)

end

theorem internalAuth_wp {Q : Post Ans Exn Session Jump}
    (hplain : s.secure = false → Q (.ok .error) { s with deferrederror := .set 538 } h)
    (herror : ∀ e h', s.secure = true → Extends isConversation h h' → Q (.error e) s h')
    (hrefused : ∀ code h', s.secure = true → code ≠ 235 → Extends isConversation h h' →
      Q (.ok .error) { s with deferrederror := .set code } h')
    (hfound : ∀ username password n h', s.secure = true → n ≠ 0 →
      Gives (presented s.command.parameter.bytes) h username password h' →
      Extends isConversation h h' →
      let h₁ := ⟨.users username password, some n⟩ :: h'
      Q (.error .network) { s with response := .set 235 }
        (⟨.outReply .authenticated (.set 235), false⟩ :: h₁) ∧
      Q (.ok .next) { s with response := .set 235, authenticated := true }
        (⟨.outReply .authenticated (.set 235), true⟩ :: h₁)) :
    wp internalAuth Q s h := by
  simp only [internalAuth, wp_bind, wp_getState, wp_ite]
  cases hsecure : s.secure with
  | false => exact hplain hsecure
  | true =>
    simp only [Bool.not_true, Bool.false_eq_true, ↓reduceIte]
    cases ha : authenticator s.command.parameter.bytes with
    | none => exact hrefused 535 h hsecure (by decide) (.refl _ _)
    | some auth_cb =>
      simp only [wp_bind, wp_handle]
      refine authenticator_wp ha ?_
      constructor
      · intro e h' hh
        cases e <;> try exact herror _ _ hsecure hh
        exact hrefused 501 h' hsecure (by decide) hh
      · intro code h' hcode hh
        simp only [ne_eq, hcode, not_false_eq_true, ↓reduceIte]
        exact hrefused code h' hsecure hcode hh
      · intro username password n h' hn hgives hh
        simp only [ne_eq, not_true_eq_false, ↓reduceIte, wp_bind, wp_respond, wp_writeoutside,
          wp_update, wp_pure]
        exact hfound username password n h' hsecure hn hgives hh

theorem rblLoop_wp (zones : List Bytes) : wp (rblLoop ctx zones)
    (fun _ s' h' => (∃ r, s' = { s with deferrederror := r }) ∧ Extends isDoor h h') s h := by
  induction zones generalizing h with
  | nil => exact ⟨⟨s.deferrederror, rfl⟩, .refl _ _⟩
  | cons rbl rbls ih =>
    simp only [rblLoop, ask, wp_bind, wp_call, wp_ite, Bool.forall_bool, Bool.false_eq_true,
      ↓reduceIte, wp_defer, wp_count, wp_pure]
    have hh : ∀ listed, Extends isDoor h
        (⟨.gethostbyname (rblname ctx.address rbl), listed⟩ :: h) :=
      fun _ => .cons trivial (.refl _ _)
    refine ⟨wp_mono ih fun _ _ _ hr => ⟨hr.1, (hh false).trans hr.2⟩, ?_, ?_⟩
    · exact ⟨⟨_, rfl⟩, (hh true).cons trivial⟩
    · exact ⟨⟨_, rfl⟩, (hh true).cons trivial⟩

theorem door_wp : wp (door ctx)
    (fun _ s' h' => (∃ r, s' = { s with deferrederror := r }) ∧ Extends isDoor h h') s h := by
  simp only [door, wp_bind, wp_getState, wp_ite, wp_pure]
  split_ifs
  · exact ⟨⟨s.deferrederror, rfl⟩, .refl _ _⟩
  · refine wp_mono (rblLoop_wp _) ?_
    rintro r s' h' ⟨⟨d, rfl⟩, hh⟩
    rcases r with e | _ | _
    · exact ⟨⟨d, rfl⟩, hh⟩
    · simp only [Bool.false_eq_true, ↓reduceIte, greetPause, ask, wp_ite, wp_bind, wp_call,
        Bool.forall_bool, wp_defer, wp_count, wp_pure]
      split_ifs
      · refine ⟨⟨⟨d, rfl⟩, hh.cons trivial⟩, ⟨⟨_, rfl⟩, ?_⟩, ⟨_, rfl⟩, ?_⟩
        · exact (hh.cons trivial).cons trivial
        · exact (hh.cons trivial).cons trivial
      · exact ⟨⟨d, rfl⟩, hh⟩
    · exact ⟨⟨d, rfl⟩, hh⟩

end Spey
