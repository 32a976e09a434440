import Spey.Session.Events
import Spey.Session.Loops
import Spey.Session.Outline
import Spey.World

/-!
# Clients that were told they are authenticated

A 235 reaches the client from spey's own authenticator, at the end of an exchange
with the inside server, or at once, where the inside server accepts an initial
response. The first two set the flag `authenticated`, the third does not. Where
it does not happen to a client that is not exempt yet, a client that was told 235
is not checked any more until the next handshake.
-/

namespace Spey

open Interaction Interaction.Action

/-- A 235 is written to the client, in answer to AUTH or a line of an exchange. -/
@[simp] def tells : Event Ans → Bool
  | ⟨.outReply .proxiedAuth r, true⟩ | ⟨.outReply .authenticated r, true⟩ => r.code = 235
  | _ => false

@[simp] def told (e : Event Ans) (_ : Log) : Prop := tells e
  deriving Decidable

/-- The client's name, sender or recipient is checked. -/
@[simp] def checks : Event Ans → Bool
  | ⟨.verifydomain _, _⟩ | ⟨.verifyaddress _, _⟩ | ⟨.testacceptance _, _⟩
  | ⟨.greylist _ _ _, _⟩ => true
  | _ => false

/-- The inside server accepts an AUTH command at once. -/
@[simp] def acceptsAtOnce (e : Event Ans) (past : Log) : Prop :=
  replyCode e = some 235 ∧ past.head?.any forwardsAuth
  deriving Decidable

@[simp] def ownReply : Event Ans → Bool
  | ⟨.outReply .authenticated _, _⟩ => true
  | _ => false

/-- A 235 that ends an exchange, or is spey's own. -/
@[simp] def confers (e : Event Ans) (past : Log) : Prop :=
  tells e ∧ (ownReply e ∨ past.tail.head?.any forwardsAuthLine)
  deriving Decidable

/-- An AUTH command is accepted at once only where the client is exempt already. -/
@[simp] def exemptBefore (e : Event Ans) (past : Log) : Prop :=
  acceptsAtOnce e past → Once trusted past ∨ Since confers handshake past
  deriving Decidable

/-- Nothing is checked after the client was told 235. -/
@[simp] def unchecked (e : Event Ans) (past : Log) : Prop :=
  checks e → ¬ Since told handshake past
  deriving Decidable

namespace ToldAuthenticated

variable {ctx : Context} {s : Session} {a t : Bool} {h : Log}

/-- The history shows in the flags `authenticated` and `trusted`, `a` and `t` here. -/
structure Inv (a t : Bool) (h : Log) : Prop where
  trusted : Once Spey.trusted h → t = true
  conferred : Since confers handshake h → a = true
  told : Always exemptBefore h → Always unchecked h ∧ (Since told handshake h → (a || t) = true)

/-- Events that tell the client nothing, check nothing, and change no flag. -/
@[simp] def quiet : Event Ans → Bool
  | ⟨.outReply .proxiedAuth r, _⟩ | ⟨.outReply .authenticated r, _⟩ => r.code ≠ 235
  | ⟨.verifydomain _, _⟩ | ⟨.verifyaddress _, _⟩ | ⟨.testacceptance _, _⟩
  | ⟨.greylist _ _ _, _⟩ | ⟨.makesecure, true⟩ | ⟨.testtrusted _, _⟩ => false
  | _ => true

theorem quiet_spec {e : Event Ans} (he : quiet e) :
    trusts e = false ∧ tells e = false ∧ checks e = false ∧ handshakes e = false := by
  obtain ⟨c, x⟩ := e
  cases c with
  | makesecure => cases x <;> first | exact ⟨rfl, rfl, rfl, rfl⟩ | cases he
  | outReply site r => cases site <;> cases x <;> simp_all
  | _ => first | exact ⟨rfl, rfl, rfl, rfl⟩ | cases he

abbrev Final (h : Log) : Prop := Always exemptBefore h → Always unchecked h

theorem Inv.final (hs : Inv a t h) : Final h := fun hb => (hs.told hb).1

/-- What an event does that neither tells nor checks. -/
theorem Inv.plain {e : Event Ans} (hs : Inv a t h) (htrust : trusts e = false)
    (htell : tells e = false) (hcheck : checks e = false) : Inv a t (e :: h) where
  trusted := by
    rintro (he | hold)
    · rw [Spey.trusted, htrust] at he
      cases he
    · exact hs.trusted hold.2
  conferred := by
    rintro (he | hold)
    · rw [confers, htell] at he
      cases he.1
    · exact hs.conferred hold.2
  told hb := by
    refine ⟨⟨fun hc => ?_, (hs.told hb.2).1⟩, ?_⟩
    · rw [hcheck] at hc
      cases hc
    · rintro (he | hold)
      · rw [Spey.told, htell] at he
        cases he
      · exact (hs.told hb.2).2 hold.2

theorem Inv.cons {e : Event Ans} (hs : Inv a t h) (he : quiet e) : Inv a t (e :: h) := by
  obtain ⟨htrust, htell, hcheck, -⟩ := quiet_spec he
  exact hs.plain htrust htell hcheck

/-- A check of a client that is not exempt: it was not told anything. -/
theorem Inv.check {e : Event Ans} (hs : Inv a t h) (hexempt : (a || t) = false)
    (htrust : trusts e = false) (htell : tells e = false) : Inv a t (e :: h) where
  trusted := by
    rintro (he | hold)
    · rw [Spey.trusted, htrust] at he
      cases he
    · exact hs.trusted hold.2
  conferred := by
    rintro (he | hold)
    · rw [confers, htell] at he
      cases he.1
    · exact hs.conferred hold.2
  told hb := by
    have hnot : ¬ Since Spey.told Spey.handshake h := by
      intro hsince
      have h' := (hs.told hb.2).2 hsince
      rw [hexempt] at h'
      cases h'
    refine ⟨⟨fun _ => hnot, (hs.told hb.2).1⟩, ?_⟩
    rintro (he | hold)
    · rw [Spey.told, htell] at he
      cases he
    · exact absurd hold.2 hnot

/-- A handshake takes the authentication away. -/
theorem Inv.handshake (hs : Inv a t h) : Inv false t (⟨.makesecure, true⟩ :: h) where
  trusted := by
    rintro (he | hold)
    · cases he
    · exact hs.trusted hold.2
  conferred := by simp
  told hb := ⟨⟨nofun, (hs.told hb.2).1⟩, by simp⟩

/-- The reply to AUTH itself is passed on: a 235 only finds exempt clients. -/
theorem Inv.answer {c : SMTPCommand} {r : Reply}
    (hs : Inv a t (⟨.readReply, .ok r⟩ :: ⟨.inWriteline (.command c), true⟩ :: h))
    (hc : c.cmd = .AUTH) :
    Inv a t (⟨.outReply .proxiedAuth r.response, true⟩ :: ⟨.readReply, .ok r⟩ ::
      ⟨.inWriteline (.command c), true⟩ :: h) := by
  by_cases hcode : r.response.code = 235
  · refine ⟨?_, ?_, fun hb => ⟨⟨nofun, (hs.told hb.2).1⟩, fun _ => ?_⟩⟩
    · rintro (he | hold)
      · cases he
      · exact hs.trusted hold.2
    · rintro (⟨-, he⟩ | hold)
      · simp at he
      · exact hs.conferred hold.2
    · have hdirect : acceptsAtOnce ⟨.readReply, .ok r⟩ (⟨.inWriteline (.command c), true⟩ :: h) := by
        simp [hcode, hc]
      rw [Bool.or_eq_true]
      rcases hb.2.1 hdirect with ht | ha
      · exact .inr (hs.trusted (ht.cons id))
      · exact .inl (hs.conferred (ha.cons (by simp)))
  · exact hs.plain rfl (by simpa using hcode) rfl

/-- A 235 of an authenticator: the client is authenticated from here on. -/
theorem Inv.confer {e : Event Ans} (hs : Inv a t h) (htrust : trusts e = false)
    (hcheck : checks e = false) : Inv true t (e :: h) where
  trusted := by
    rintro (he | hold)
    · rw [Spey.trusted, htrust] at he
      cases he
    · exact hs.trusted hold.2
  conferred _ := rfl
  told hb := by
    refine ⟨⟨fun hc => ?_, (hs.told hb.2).1⟩, fun _ => rfl⟩
    rw [hcheck] at hc
    cases hc

theorem Inv.extends {kind : Event Ans → Prop} {h' : Log} (hs : Inv a t h) (hh : Extends kind h h')
    (hkind : ∀ e, kind e → quiet e) : Inv a t h' :=
  hh.invariant (fun e _ hk hp => Inv.cons hp (hkind e hk)) hs

abbrev At (s : Session) (h : Log) : Prop := Inv s.authenticated s.trusted h

@[simp] def outline : Outline where
  opening := At
  admitted := At
  head := At
  unparsed := At
  read := At
  screened := At
  ready := At
  passing s h := At s h ∧ s.command.cmd ≠ .AUTH
  refused := At
  final _ _ := Final

theorem Inv.counted (hs : At s h) (counter : Counter) {j : Jump} (hj : j = .fall ∨ j = .error) :
    Counted counter (outline.upto (outline.land At)) j s h := by
  rcases hj with rfl | rfl
  · exact ⟨(hs.cons rfl).final, hs.cons rfl⟩
  · exact ⟨(hs.cons rfl).final, hs.cons rfl⟩

theorem rcpt_valid (hs : At s h) : wp (rcpt ctx) (outline.upto (outline.land At)) s h := by
  rw [wp_rcpt]
  split_ifs with hexempt
  · exact Inv.counted hs _ (.inl rfl)
  · replace hexempt := Bool.of_not_eq_true hexempt
    have hverify := hs.check (e := ⟨.verifyaddress s.command.parameter.bytes, ()⟩) hexempt rfl rfl
    have haccept := fun answer => hverify.check
      (e := ⟨.testacceptance s.command.parameter.bytes, answer⟩) hexempt rfl rfl
    have hjudge := fun answer => (haccept (some true)).check
      (e := ⟨.greylist (network24 ctx.address) s._from.bytes s.command.parameter.bytes, answer⟩)
      hexempt rfl rfl
    refine ⟨(haccept none).final, ?_, (hjudge none).final, fun verdict => ?_⟩
    · exact Inv.counted (haccept (some false)) _ (.inr rfl)
    · cases verdict with
      | Accepted => exact Inv.counted (hjudge (some .Accepted)) _ (.inl rfl)
      | BlackListed =>
        simp only [Judged, wp_blackmessage]
        exact Inv.counted (hjudge (some .BlackListed)) _ (.inl rfl)
      | GreyListed =>
        simp only [Judged, wp_greymessage]
        exact Inv.counted (hjudge (some .GreyListed)) _ (.inl rfl)
  · replace hexempt := Bool.of_not_eq_true hexempt
    exact Inv.counted (hs.check hexempt rfl rfl) _ (.inr rfl)

theorem screen_valid (hs : At s h) : wp (screen ctx) (outline.upto (outline.land At)) s h := by
  simp only [screen, wp_bind, wp_getState]
  cases hc : s.command.cmd with
  | HELP =>
    simp only [wp_bind, wp_respond, wp_writeoutside, wp_pure]
    exact ⟨(hs.cons rfl).final, hs.cons rfl⟩
  | QUIT => exact hs.final
  | STARTTLS =>
    simp only [wp_starttls]
    have hreply := hs.cons (e := ⟨.outReply .starttls (.set 220), true⟩) rfl
    split_ifs
    · exact hs
    · exact ⟨(hs.cons rfl).final, (hreply.cons rfl).final, hreply.handshake.cons rfl⟩
    · exact ⟨(hs.cons rfl).final, (hreply.cons rfl).final, hreply.handshake⟩
    · exact hs
  | HELO | EHLO =>
    simp only [wp_hello]
    split_ifs with hexempt
    · exact hs
    · replace hexempt := Bool.of_not_eq_true hexempt
      exact hs.check hexempt rfl rfl
    · replace hexempt := Bool.of_not_eq_true hexempt
      exact Inv.counted (hs.check hexempt rfl rfl) _ (.inr rfl)
  | MAIL =>
    simp only [wp_mail]
    split_ifs with hexempt
    · exact hs
    · exact hs
    · replace hexempt := Bool.of_not_eq_true hexempt
      exact hs.check hexempt rfl rfl
    · replace hexempt := Bool.of_not_eq_true hexempt
      exact Inv.counted (hs.check hexempt rfl rfl) _ (.inr rfl)
  | RCPT => exact rcpt_valid hs
  | DATA =>
    simp only [wp_data]
    split_ifs
    · exact hs
    · exact hs
  | RSET => exact hs
  | VRFY | EXPN | NOOP | AUTH => exact hs

theorem connect_valid (hs : At s h) : wp connectInside (outline.upto fun _ => At) s h := by
  rw [wp_connectInside]
  split_ifs
  · exact hs
  · refine ⟨fun _ => ((hs.cons rfl).cons rfl).final, fun _ => ?_, fun r => ?_⟩
    · exact fun _ => (((hs.cons rfl).cons rfl).cons rfl).final
    · have hread := (hs.cons (e := ⟨.connect, true⟩) rfl).cons (e := ⟨.readReply, .ok r⟩) rfl
      split_ifs
      · exact hread
      · exact fun _ => (hread.cons rfl).final

/-- A 235 ends the exchange, and the flag is set. -/
theorem authExchange_valid (rounds : Nat) (hs : At s h) : wp (authExchange rounds)
    (outline.upto (outline.land outline.passing)) s h := by
  simp only [authExchange, wp_bind, wp_getState, wp_ite, wp_pure, wp_update]
  refine wp_repeatUntil (fun s' h' => (∃ r, s' = { s with response := r }) ∧ At s h') ?_ ?_
    rounds _ _ ⟨⟨s.response, rfl⟩, hs⟩
  · rintro _ h₁ ⟨⟨r₁, rfl⟩, hs₁⟩
    rw [wp_authRound]
    refine ⟨fun e => (hs₁.cons rfl).final, fun l => ?_⟩
    have hs₂ := hs₁.cons (e := ⟨.outReadline .authLine, .ok l⟩) rfl
    refine ⟨(hs₂.cons rfl).final, ?_⟩
    have hs₃ := hs₂.cons (e := ⟨.inWriteline (.authLine l), true⟩) rfl
    refine ⟨fun e => (hs₃.cons rfl).final, fun r => ?_⟩
    have hs₄ := hs₃.cons (e := ⟨.readReply, .ok r⟩) rfl
    refine ⟨(hs₄.plain rfl rfl rfl).final, ?_⟩
    by_cases hcode : r.response.code = 235
    · simp only [hcode, Nat.reduceEqDiff, ↓reduceIte, ne_eq, not_true_eq_false]
      exact hs₄.confer rfl rfl
    · have hs₅ := hs₄.cons (e := ⟨.outReply .proxiedAuth r.response, true⟩) (by simpa using hcode)
      by_cases hchallenge : r.response.code = 334
      · rw [if_pos hchallenge]
        exact ⟨⟨_, rfl⟩, hs₅⟩
      · rw [if_neg hchallenge]
        dsimp only
        rw [if_pos hcode]
        exact hs₅
  · rintro _ h₁ ⟨⟨r₁, rfl⟩, hs₁⟩
    exact hs₁.final

theorem auth_valid (rounds : Nat) (hs : At s h) :
    wp (auth ctx rounds) (outline.upto (outline.land outline.passing)) s h := by
  rw [wp_auth]
  split_ifs with hc
  · cases ctx.settings.externalauthmode with
    | NoAuth => exact hs
    | ProxyAuth =>
      dsimp only
      rw [wp_proxyAuth]
      have hwrite := hs.cons (e := ⟨.inWriteline (.command s.command), true⟩) rfl
      refine ⟨(hs.cons rfl).final, fun e => (hwrite.cons rfl).final, fun r => ?_⟩
      have hread := hwrite.cons (e := ⟨.readReply, .ok r⟩) rfl
      refine ⟨(hread.plain rfl rfl rfl).final, ?_⟩
      have hanswer := hread.answer hc
      split_ifs
      · exact authExchange_valid rounds hanswer
      · exact hanswer
    | InternalAuth =>
      have hlater : ∀ h', Extends isConversation h h' → At s h' := fun h' hh =>
        hs.extends hh (forall_conversation (fun _ _ => rfl) (fun _ => rfl) fun _ _ _ => rfl)
      refine internalAuth_wp ?_ ?_ ?_ ?_
      · intro _
        exact hs
      · intro e h' _ hh
        exact (hlater h' hh).final
      · intro code h' _ _ hh
        exact hlater h' hh
      · intro username password n h' _ _ _ hh
        have hfound := (hlater h' hh).cons (e := ⟨.users username password, some n⟩) rfl
        exact ⟨(hfound.plain rfl rfl rfl).final, hfound.confer rfl rfl⟩
  · exact ⟨hs, hc⟩

theorem forward_valid (rounds : Nat) (hs : At s h) :
    wp (forward ctx rounds) (outline.upto (outline.land At)) s h := by
  rw [wp_forward]
  have hwrite := hs.cons (e := ⟨.inWriteline (.command s.command), true⟩) rfl
  refine ⟨(hs.cons rfl).final, fun e => (hwrite.cons rfl).final, fun r => ?_⟩
  have hread := hwrite.cons (e := ⟨.readReply, .ok r⟩) rfl
  refine ⟨(hread.cons rfl).final, ?_⟩
  have hrelay : ∀ response, At s (⟨.outReply .relay response, true⟩ :: ⟨.readReply, .ok r⟩ ::
      ⟨.inWriteline (.command s.command), true⟩ :: h) := fun response => hread.cons rfl
  split_ifs
  · exact (hrelay _).final
  rw [wp_deliver]
  cases hc : s.command.cmd with
  | DATA =>
    dsimp only
    split_ifs
    · refine wp_mono (transfer_wp rounds) ?_
      rintro r' s' h' ⟨⟨response, rfl⟩, hh⟩
      have hlater := (hrelay _).extends hh (forall_transfer (fun _ => rfl) (fun _ => rfl)
        (fun _ _ => rfl) (fun _ _ => rfl) (fun _ => rfl) fun _ _ => rfl)
      cases r' with
      | error e => exact hlater.final
      | ok _ => exact hlater
    · exact hrelay _
  | QUIT => exact (hrelay _).final
  | _ => exact hrelay _

theorem valid (ctx : Context) (rounds : Nat) : outline.Valid ctx rounds where
  unknown := by simp
  start trusted := by
    refine ⟨?_, by simp, fun _ => by simp⟩
    rintro (he | hold)
    · cases trusted with
      | false => cases he
      | true => rfl
    · exact hold.2.elim
  door s h hs := by
    refine Outline.door_upto fun d h' hh => ?_
    have hlater := Inv.extends hs hh (forall_door (fun _ _ => rfl) (fun _ _ => rfl) fun _ _ => rfl)
    exact ⟨fun _ => hlater.final, hlater, hlater⟩
  banner s h hs := by
    rw [wp_writeoutside]
    exact ⟨(hs.cons rfl).final, hs.cons rfl⟩
  head s h hs := hs.final
  read s h hs := by
    rw [wp_nextCommand]
    refine ⟨fun e => (hs.cons rfl).final, fun l => ?_⟩
    cases s.command.set l with
    | none => exact hs.cons rfl
    | some c => exact hs.cons rfl
  syntaxError s h hs := by
    rw [wp_writeoutside]
    refine ⟨(hs.cons rfl).final, ?_⟩
    split_ifs
    · exact (hs.cons rfl).final
    · exact hs.cons rfl
  screen s h hs := screen_valid hs
  connect s h hs := connect_valid hs
  auth s h hs := auth_valid rounds hs
  forward s h hs := forward_valid rounds hs.1
  error s h hs := by
    rw [wp_errorLabel]
    refine ⟨(hs.cons rfl).final, ?_⟩
    split_ifs
    · exact (hs.cons rfl).final
    · exact hs.cons rfl

end ToldAuthenticated

/-- Where AUTH is accepted at once only for clients that are exempt already,
no client that was told 235 is checked before the next handshake. -/
theorem told_unchecked (ctx : Context) (rounds : Nat) {r : Except Exn Unit} {s : Session} {h : Log}
    (hrun : (process ctx rounds).Ends {} [] r s h) (hbefore : Always exemptBefore h) :
    Always unchecked h :=
  (ToldAuthenticated.valid ctx rounds).process hrun hbefore

/-- A client in proxy mode that sends an initial response. -/
def initialResponse : World := .ofLines .GreyListed
  ["EHLO a.b", "AUTH PLAIN AGEAYg==", "MAIL FROM:<a@b>", "RCPT TO:<c@d>", "DATA", "QUIT"]
  ["220 in", "250 ok", "235 ok", "250 ok", "250 ok"]

/-- It is told 235, and then greylisted. -/
theorem initial_response_checked :
    ¬ ∀ (ctx : Context) (rounds : Nat) (r : Except Exn Unit) (s : Session) (h : Log),
      ctx.settings.externalauthmode ≠ .NoAuth → (process ctx rounds).Ends {} [] r s h →
      Always unchecked h := by
  intro hall
  obtain ⟨r, s, hrun⟩ := initialResponse.history_ends (.sample 0 .ProxyAuth) 9
  have hunchecked := hall (.sample 0 .ProxyAuth) 9 r s _ (by decide) hrun
  revert hunchecked
  decide +kernel

/-- A client in proxy mode that waits for the challenge. -/
def challengedClient : World := .ofLines .GreyListed
  ["EHLO a.b", "AUTH PLAIN", "AGEAYg==", "MAIL FROM:<a@b>", "RCPT TO:<c@d>", "DATA", "x", ".", "QUIT"]
  ["220 in", "250 ok", "334 ", "235 ok", "250 ok", "250 ok", "354 go", "250 ok"]

theorem challengedClient_unchecked :
    Since told handshake (challengedClient.history (.sample 0 .ProxyAuth) 9) ∧
      Always unchecked (challengedClient.history (.sample 0 .ProxyAuth) 9) := by
  refine ⟨by decide +kernel, ?_⟩
  obtain ⟨r, s, hrun⟩ := challengedClient.history_ends (.sample 0 .ProxyAuth) 9
  exact told_unchecked (.sample 0 .ProxyAuth) 9 hrun (by decide +kernel)

end Spey
