import Spey.Session.Events
import Spey.Session.Loops
import Spey.Session.Outline
import Spey.World

/-!
# No open relay

A RCPT command goes to the inside server for a trusted client, for one that has
authenticated since the last handshake, or after `testacceptance` has accepted
the recipient and `greylist` was asked about it. The flag `authenticated` is set
in two nested branches and cleared in another command; what carries the proof is
the evidence for it in the history.
-/

namespace Spey

open Interaction Interaction.Action

/-- The inside server opens an exchange: it answers AUTH with 334. -/
@[simp] def opened (e : Event Ans) (past : Log) : Prop :=
  replyCode e = some 334 ∧ past.head?.any forwardsAuth
  deriving Decidable

/-- Any other reply, or a command, ends an exchange. -/
@[simp] def interrupted (e : Event Ans) (_ : Log) : Prop :=
  (readsReply e ∧ replyCode e ≠ some 334) ∨ readsCommand e
  deriving Decidable

/-- The credentials that the client has presented, in the AUTH line that was read
last and in its answers since, were found in `users`. -/
@[simp] def findsCredentials (e : Event Ans) (past : Log) : Prop :=
  match e with
  | ⟨.users username password, some n⟩ => n ≠ 0 ∧ ∃ parameter,
      lastCommand past = some (.AUTH, some parameter) ∧
        presented parameter (answers past) = some (username, password)
  | _ => False

/-- An AUTH exchange succeeds: the inside server answers the client's last line
with 235, or the credentials are found and the client uses TLS. -/
@[simp] def evidence (ctx : Context) (e : Event Ans) (past : Log) : Prop :=
  match ctx.settings.externalauthmode with
  | .NoAuth => False
  | .ProxyAuth => replyCode e = some 235 ∧ past.head?.any forwardsAuthLine ∧
      Since opened interrupted past
  | .InternalAuth => findsCredentials e past ∧ Once handshake past

/-- `testacceptance` accepts the recipient. -/
@[simp] def accepts (recipient : Bytes) (e : Event Ans) (_ : Log) : Prop :=
  match e with
  | ⟨.testacceptance a, some true⟩ => a = recipient
  | _ => False

/-- `greylist` is asked about the recipient, with the client's network. -/
@[simp] def consults (ctx : Context) (recipient : Bytes) (e : Event Ans) (_ : Log) : Prop :=
  match e with
  | ⟨.greylist sender _ a, some _⟩ => sender = network24 ctx.address ∧ a = recipient
  | _ => False

/-- The session began with `testtrusted` on the client's address, which held. -/
def BeganTrusted (ctx : Context) (past : Log) : Prop :=
  past.getLast? = some ⟨.testtrusted ctx.address, some true⟩

theorem BeganTrusted.once {ctx : Context} {past : Log} (ht : BeganTrusted ctx past) :
    Once trusted past := by
  induction past with
  | nil => cases ht
  | cons e past ih =>
    cases past with
    | nil =>
      obtain rfl := Option.some.inj ht
      exact .inl rfl
    | cons e' past => exact (ih ht).cons id

/-- Why a RCPT command may be forwarded. -/
def Permitted (ctx : Context) (recipient : Bytes) (past : Log) : Prop :=
  BeganTrusted ctx past ∨ Since (evidence ctx) handshake past ∨
    (byte '@' ∈ recipient ∧ Since (accepts recipient) commandRead past ∧
      Since (consults ctx recipient) commandRead past)

/-- The recipient of a RCPT command that goes to the inside server. -/
@[simp] def relays : Event Ans → Option Bytes
  | ⟨.inWriteline (.command c), _⟩ => if c.cmd = .RCPT then some c.parameter.bytes else none
  | _ => none

namespace OpenRelay

variable {ctx : Context} {s : Session} {h : Log}

@[simp] def rule (ctx : Context) (e : Event Ans) (past : Log) : Prop :=
  ∀ recipient, relays e = some recipient → Permitted ctx recipient past

/-- The flags have their evidence in the history. -/
structure Inv (ctx : Context) (authenticated trusted secure : Bool) (h : Log) : Prop where
  rule : Always (rule ctx) h
  authenticated : authenticated = true → Since (evidence ctx) handshake h
  trusted : trusted = true → BeganTrusted ctx h
  secure : secure = true → Once handshake h

abbrev At (ctx : Context) (s : Session) (h : Log) : Prop :=
  Inv ctx s.authenticated s.trusted s.secure h

/-- This command is the one that was read last, and no challenge was answered since. -/
structure Recorded (command : SMTPCommand) (h : Log) : Prop where
  last : lastCommand h = some (command.cmd, command.argument)
  unanswered : answers h = []

/-- The command may be forwarded. -/
structure Screened (ctx : Context) (s : Session) (h : Log) : Prop where
  inv : At ctx s h
  recorded : Recorded s.command h
  permitted : s.command.cmd = .RCPT → Permitted ctx s.command.parameter.bytes h

/-- Events that end nothing and forward no recipient. -/
@[simp] def quiet : Event Ans → Bool
  | ⟨.outReadline .command, _⟩ | ⟨.makesecure, true⟩ => false
  | ⟨.inWriteline (.command c), _⟩ => c.cmd ≠ .RCPT
  | _ => true

theorem quiet_spec {e : Event Ans} (he : quiet e) :
    handshakes e = false ∧ readsCommand e = false ∧ relays e = none := by
  obtain ⟨c, x⟩ := e
  cases c with
  | outReadline site => cases site <;> first | exact ⟨rfl, rfl, rfl⟩ | cases he
  | makesecure => cases x <;> first | exact ⟨rfl, rfl, rfl⟩ | cases he
  | inWriteline item =>
    cases item with
    | command c =>
      have hc : c.cmd ≠ .RCPT := by simpa using he
      exact ⟨rfl, rfl, if_neg hc⟩
    | _ => exact ⟨rfl, rfl, rfl⟩
  | _ => exact ⟨rfl, rfl, rfl⟩

theorem not_handshake {e : Event Ans} (he : quiet e) (past : Log) : ¬ handshake e past := by
  rw [handshake, (quiet_spec he).1]
  exact Bool.false_ne_true

theorem not_commandRead {e : Event Ans} (he : quiet e) (past : Log) : ¬ commandRead e past := by
  rw [commandRead, (quiet_spec he).2.1]
  exact Bool.false_ne_true

/-- Quiet events that are no answers to challenges. -/
@[simp] def idle : Event Ans → Bool
  | ⟨.outReadline .conversation, _⟩ => false
  | e => quiet e

theorem idle_spec {e : Event Ans} (he : idle e) :
    quiet e ∧ commandLine e = none ∧ speaks e = false := by
  obtain ⟨c, x⟩ := e
  cases c with
  | outReadline site => cases site <;> first | exact ⟨rfl, rfl, rfl⟩ | cases he
  | makesecure => cases x <;> first | exact ⟨rfl, rfl, rfl⟩ | cases he
  | inWriteline item => cases item <;> exact ⟨he, rfl, rfl⟩
  | _ => exact ⟨rfl, rfl, rfl⟩

theorem beganTrusted_cons (ht : BeganTrusted ctx h) (e : Event Ans) : BeganTrusted ctx (e :: h) := by
  rw [BeganTrusted, List.getLast?_cons, ht]
  rfl

theorem permitted_cons {e : Event Ans} {recipient : Bytes} (he : quiet e)
    (hp : Permitted ctx recipient h) : Permitted ctx recipient (e :: h) := by
  rcases hp with ht | ha | ⟨hat, haccepts, hconsults⟩
  · exact .inl (beganTrusted_cons ht e)
  · exact .inr (.inl (ha.cons (not_handshake he h)))
  · have hc := not_commandRead he h
    exact .inr (.inr ⟨hat, haccepts.cons hc, hconsults.cons hc⟩)

theorem Inv.cons {a t b : Bool} {e : Event Ans} (hs : Inv ctx a t b h) (he : quiet e) :
    Inv ctx a t b (e :: h) where
  rule := by
    refine ⟨fun recipient hr => ?_, hs.rule⟩
    rw [(quiet_spec he).2.2] at hr
    cases hr
  authenticated ha := (hs.authenticated ha).cons (not_handshake he h)
  trusted ht := beganTrusted_cons (hs.trusted ht) _
  secure hb := (hs.secure hb).cons id

theorem Recorded.cons {command : SMTPCommand} {e : Event Ans} (hr : Recorded command h)
    (he : idle e) : Recorded command (e :: h) where
  last := by rw [lastCommand_cons (idle_spec he).2.1, hr.last]
  unanswered := by rw [answers_cons (idle_spec he).2.2, hr.unanswered]

theorem Screened.cons {e : Event Ans} (hs : Screened ctx s h) (he : idle e) :
    Screened ctx s (e :: h) where
  inv := hs.inv.cons (idle_spec he).1
  recorded := hs.recorded.cons he
  permitted hc := permitted_cons (idle_spec he).1 (hs.permitted hc)

@[simp] def outline (ctx : Context) : Outline where
  opening := At ctx
  admitted := At ctx
  head := At ctx
  unparsed := At ctx
  read s h := At ctx s h ∧ Recorded s.command h
  screened := Screened ctx
  ready := Screened ctx
  passing := Screened ctx
  refused := At ctx
  final _ _ := Always (rule ctx)

/-- A handshake takes the authentication away, and secures the client's side. -/
theorem Inv.handshake {a t b : Bool} (hs : Inv ctx a t b h) :
    Inv ctx false t true (⟨.makesecure, true⟩ :: h) where
  rule := ⟨by simp, hs.rule⟩
  authenticated := nofun
  trusted ht := beganTrusted_cons (hs.trusted ht) _
  secure _ := .inl rfl

theorem Inv.extends {kind : Event Ans → Prop} {a t b : Bool} {h' : Log} (hs : Inv ctx a t b h)
    (hh : Extends kind h h') (hkind : ∀ e, kind e → quiet e) : Inv ctx a t b h' :=
  hh.invariant (fun e _ hk hp => Inv.cons hp (hkind e hk)) hs

theorem Inv.screened (hs : At ctx s h) (hr : Recorded s.command h) (hc : s.command.cmd ≠ .RCPT) :
    Screened ctx s h :=
  ⟨hs, hr, fun hrcpt => absurd hrcpt hc⟩

theorem Inv.counted (hs : At ctx s h) (counter : Counter) :
    Counted counter ((outline ctx).upto ((outline ctx).land (Screened ctx))) .error s h :=
  ⟨(hs.cons rfl).rule, hs.cons rfl⟩

theorem Screened.counted (hs : Screened ctx s h) (counter : Counter) :
    Counted counter ((outline ctx).upto ((outline ctx).land (Screened ctx))) .fall s h :=
  ⟨(hs.cons rfl).inv.rule, hs.cons rfl⟩

theorem permitted_exempt (hs : At ctx s h) (he : s.exempt) (recipient : Bytes) :
    Permitted ctx recipient h := by
  rcases (Bool.or_eq_true _ _).mp he with ha | ht
  · exact .inr (.inl (hs.authenticated ha))
  · exact .inl (hs.trusted ht)

theorem rcpt_valid (hs : At ctx s h) (hr : Recorded s.command h) :
    wp (rcpt ctx) ((outline ctx).upto ((outline ctx).land (Screened ctx))) s h := by
  rw [wp_rcpt]
  split_ifs with hexempt hat
  · have hscreened : Screened ctx s h := ⟨hs, hr, fun _ => permitted_exempt hs hexempt _⟩
    exact hscreened.counted _
  · have hverify := hs.cons (e := ⟨.verifyaddress s.command.parameter.bytes, ()⟩) rfl
    refine ⟨(hverify.cons rfl).rule, (Inv.counted (hverify.cons rfl)) _, ?_⟩
    have haccept := hverify.cons
      (e := ⟨.testacceptance s.command.parameter.bytes, some true⟩) rfl
    have hrecorded : ∀ verdict, Recorded s.command
        (⟨.greylist (network24 ctx.address) s._from.bytes s.command.parameter.bytes, verdict⟩ ::
          ⟨.testacceptance s.command.parameter.bytes, some true⟩ ::
          ⟨.verifyaddress s.command.parameter.bytes, ()⟩ :: h) := fun _ =>
      ((hr.cons rfl).cons rfl).cons rfl
    refine ⟨(haccept.cons rfl).rule, fun verdict => ?_⟩
    -- accepted or refused, `greylist` was asked about this recipient
    have hpermitted : Permitted ctx s.command.parameter.bytes
        (⟨.greylist (network24 ctx.address) s._from.bytes s.command.parameter.bytes, some verdict⟩ ::
          ⟨.testacceptance s.command.parameter.bytes, some true⟩ ::
          ⟨.verifyaddress s.command.parameter.bytes, ()⟩ :: h) :=
      .inr (.inr ⟨hat, .inr ⟨Bool.false_ne_true, .inl rfl⟩, .inl ⟨rfl, rfl⟩⟩)
    cases verdict with
    | Accepted => exact Screened.counted ⟨haccept.cons rfl, hrecorded _, fun _ => hpermitted⟩ _
    | BlackListed =>
      simp only [Judged, wp_blackmessage]
      refine Screened.counted ?_ _
      exact ⟨haccept.cons rfl, hrecorded _, fun _ => hpermitted⟩
    | GreyListed =>
      simp only [Judged, wp_greymessage]
      refine Screened.counted ?_ _
      exact ⟨haccept.cons rfl, hrecorded _, fun _ => hpermitted⟩
  · exact Inv.counted (hs.cons rfl) _

theorem screen_valid (hs : At ctx s h) (hr : Recorded s.command h) :
    wp (screen ctx) ((outline ctx).upto ((outline ctx).land (Screened ctx))) s h := by
  simp only [screen, wp_bind, wp_getState]
  cases hc : s.command.cmd with
  | HELP =>
    simp only [wp_bind, wp_respond, wp_writeoutside, wp_pure]
    exact ⟨(hs.cons rfl).rule, hs.cons rfl⟩
  | QUIT => exact hs.rule
  | STARTTLS =>
    simp only [wp_starttls]
    have hreply := hs.cons (e := ⟨.outReply .starttls (.set 220), true⟩) rfl
    split_ifs
    · exact hs
    · exact ⟨(hs.cons rfl).rule, (hreply.cons rfl).rule, hreply.handshake.cons rfl⟩
    · exact ⟨(hs.cons rfl).rule, (hreply.cons rfl).rule, hreply.handshake⟩
    · exact hs
  | HELO | EHLO =>
    have hscreened := hs.screened hr (by simp [hc])
    simp only [wp_hello]
    split_ifs
    · exact hscreened
    · exact hscreened.cons rfl
    · exact Inv.counted (hs.cons rfl) _
  | MAIL =>
    have hscreened := hs.screened hr (by simp [hc])
    simp only [wp_mail]
    split_ifs
    · exact ⟨hs, hr, hscreened.permitted⟩
    · exact ⟨hs, hr, hscreened.permitted⟩
    · exact ⟨hs.cons rfl, hr.cons rfl, (hscreened.cons rfl).permitted⟩
    · exact Inv.counted (hs.cons rfl) _
  | RCPT => exact rcpt_valid hs hr
  | DATA =>
    simp only [wp_data]
    split_ifs
    · exact hs
    · exact hs.screened hr (by simp [hc])
  | RSET => exact ⟨hs, hr, (hs.screened hr (by simp [hc])).permitted⟩
  | VRFY | EXPN | NOOP | AUTH => exact hs.screened hr (by simp [hc])

theorem connect_valid (hs : Screened ctx s h) :
    wp connectInside ((outline ctx).upto fun _ => Screened ctx) s h := by
  rw [wp_connectInside]
  split_ifs
  · exact hs
  · refine ⟨fun _ => ((hs.cons rfl).cons rfl).inv.rule, fun _ => ?_, fun r => ?_⟩
    · exact fun _ => (((hs.cons rfl).cons rfl).cons rfl).inv.rule
    · have hread := (hs.cons (e := ⟨.connect, true⟩) rfl).cons (e := ⟨.readReply, .ok r⟩) rfl
      split_ifs
      · exact ⟨hread.inv, hread.recorded, hread.permitted⟩
      · exact fun _ => (hread.cons rfl).inv.rule

/-- While the inside server answers 334 the exchange stays open; a 235 that
answers a line of it is the evidence. -/
theorem authExchange_valid (hmode : ctx.settings.externalauthmode = .ProxyAuth) (rounds : Nat)
    (hs : At ctx s h) (hopen : Since opened interrupted h) : wp (authExchange rounds)
      ((outline ctx).upto ((outline ctx).land (Screened ctx))) s h := by
  simp only [authExchange, wp_bind, wp_getState, wp_ite, wp_pure, wp_update]
  refine wp_repeatUntil (fun s' h' => (∃ r, s' = { s with response := r }) ∧ At ctx s h' ∧
    Since opened interrupted h') ?_ ?_ rounds _ _ ⟨⟨s.response, rfl⟩, hs, hopen⟩
  · rintro _ h₁ ⟨⟨r₁, rfl⟩, hs₁, hopen₁⟩
    rw [wp_authRound]
    refine ⟨fun e => (hs₁.cons rfl).rule, fun l => ?_⟩
    have hs₂ := hs₁.cons (e := ⟨.outReadline .authLine, .ok l⟩) rfl
    have hopen₂ : Since opened interrupted (⟨.outReadline .authLine, .ok l⟩ :: h₁) :=
      hopen₁.cons (by simp)
    refine ⟨(hs₂.cons rfl).rule, ?_⟩
    have hs₃ := hs₂.cons (e := ⟨.inWriteline (.authLine l), true⟩) rfl
    have hopen₃ := hopen₂.cons (e := ⟨.inWriteline (.authLine l), true⟩) (by simp)
    refine ⟨fun e => (hs₃.cons rfl).rule, fun r => ?_⟩
    have hs₄ := hs₃.cons (e := ⟨.readReply, .ok r⟩) rfl
    have hs₅ := hs₄.cons (e := ⟨.outReply .proxiedAuth r.response, true⟩) rfl
    refine ⟨(hs₄.cons rfl).rule, ?_⟩
    by_cases hchallenge : r.response.code = 334
    · rw [if_pos hchallenge]
      refine ⟨⟨_, rfl⟩, hs₅, ?_⟩
      exact (hopen₃.cons (by simp [hchallenge])).cons (by simp)
    · rw [if_neg hchallenge]
      dsimp only
      split_ifs with hcode
      · exact hs₅
      · refine ⟨hs₅.rule, fun _ => ?_, hs₅.trusted, hs₅.secure⟩
        have hev : evidence ctx ⟨.readReply, .ok r⟩ (⟨.inWriteline (.authLine l), true⟩ ::
            ⟨.outReadline .authLine, .ok l⟩ :: h₁) := by
          simp only [evidence, hmode]
          exact ⟨by simpa using hcode, rfl, hopen₃⟩
        exact .inr ⟨Bool.false_ne_true, .inl hev⟩
  · rintro _ h₁ ⟨⟨r₁, rfl⟩, hs₁, -⟩
    exact hs₁.rule

theorem auth_valid (rounds : Nat) (hs : Screened ctx s h) :
    wp (auth ctx rounds) ((outline ctx).upto ((outline ctx).land (Screened ctx))) s h := by
  rw [wp_auth]
  split_ifs with hc
  · have hinv := hs.inv
    cases hmode : ctx.settings.externalauthmode with
    | NoAuth => exact hinv
    | ProxyAuth =>
      dsimp only
      rw [wp_proxyAuth]
      have hwrite := hinv.cons (e := ⟨.inWriteline (.command s.command), true⟩) (by simp [hc])
      refine ⟨(hinv.cons (by simp [hc])).rule, fun e => (hwrite.cons rfl).rule, fun r => ?_⟩
      have hread := hwrite.cons (e := ⟨.readReply, .ok r⟩) rfl
      refine ⟨(hread.cons rfl).rule, ?_⟩
      split_ifs with hcode
      · refine authExchange_valid hmode rounds (hread.cons rfl) ?_
        have hopened : opened ⟨.readReply, .ok r⟩
            (⟨.inWriteline (.command s.command), true⟩ :: h) := by simp [hcode, hc]
        exact .inr ⟨by simp, .inl hopened⟩
      · exact hread.cons rfl
    | InternalAuth =>
      have hlater : ∀ h', Extends isConversation h h' → At ctx s h' := fun h' hh =>
        hinv.extends hh (forall_conversation (fun _ _ => rfl) (fun _ => rfl) fun _ _ _ => rfl)
      refine internalAuth_wp ?_ ?_ ?_ ?_
      · intro _
        exact hinv
      · intro e h' _ hh
        exact (hlater h' hh).rule
      · intro code h' _ _ hh
        exact hlater h' hh
      · intro username password n h' hsecure hn hgives hh
        have hs' := hlater h' hh
        obtain ⟨later, hanswers, hpresented⟩ := hgives
        have hlast : lastCommand h' = some (.AUTH, some s.command.parameter.bytes) := by
          refine hh.invariant (P := fun x => lastCommand x = _) (fun e past he hx => ?_) ?_
          · exact (lastCommand_cons (forall_conversation (P := fun e => commandLine e = none)
              (fun _ _ => rfl) (fun _ => rfl) (fun _ _ _ => rfl) e he) past).trans hx
          · rw [hs.recorded.last, SMTPCommand.argument, hc]
        rw [hs.recorded.unanswered, List.nil_append] at hanswers
        subst hanswers
        have hfound := hs'.cons (e := ⟨.users username password, some n⟩) rfl
        have hreply := hfound.cons (e := ⟨.outReply .authenticated (.set 235), true⟩) rfl
        have hev : evidence ctx ⟨.users username password, some n⟩ h' := by
          simp only [evidence, hmode]
          exact ⟨⟨hn, _, hlast, hpresented⟩, hs'.secure hsecure⟩
        refine ⟨(hfound.cons rfl).rule, hreply.rule, fun _ => ?_, hreply.trusted, hreply.secure⟩
        exact .inr ⟨Bool.false_ne_true, .inl hev⟩
  · exact hs

/-- The command goes to the inside server; a recipient is permitted. -/
theorem Screened.forward (hs : Screened ctx s h) (x : Bool) :
    At ctx s (⟨.inWriteline (.command s.command), x⟩ :: h) where
  rule := by
    refine ⟨fun recipient hr => ?_, hs.inv.rule⟩
    by_cases hc : s.command.cmd = .RCPT
    · obtain rfl : s.command.parameter.bytes = recipient := by simpa [hc] using hr
      exact hs.permitted hc
    · simp [hc] at hr
  authenticated ha := (hs.inv.authenticated ha).cons (by simp)
  trusted ht := beganTrusted_cons (hs.inv.trusted ht) _
  secure hb := (hs.inv.secure hb).cons id

theorem forward_valid (rounds : Nat) (hs : Screened ctx s h) :
    wp (forward ctx rounds) ((outline ctx).upto ((outline ctx).land (At ctx))) s h := by
  rw [wp_forward]
  have hwrite := hs.forward true
  refine ⟨(hs.forward false).rule, fun e => (hwrite.cons rfl).rule, fun r => ?_⟩
  have hread := hwrite.cons (e := ⟨.readReply, .ok r⟩) rfl
  refine ⟨(hread.cons rfl).rule, ?_⟩
  have hrelay : ∀ response, At ctx s (⟨.outReply .relay response, true⟩ :: ⟨.readReply, .ok r⟩ ::
      ⟨.inWriteline (.command s.command), true⟩ :: h) := fun response => hread.cons rfl
  split_ifs
  · exact (hrelay _).rule
  rw [wp_deliver]
  cases hc : s.command.cmd with
  | DATA =>
    dsimp only
    split_ifs
    · refine wp_mono (transfer_wp rounds) ?_
      rintro r' s' h' ⟨⟨response, rfl⟩, hh⟩
      have hlater := (hrelay _).extends hh (forall_transfer (fun _ => rfl) (fun _ => rfl)
        (fun _ _ => rfl) (fun _ _ => rfl) (fun _ => rfl) fun _ _ => rfl)
      cases r' with
      | error e => exact hlater.rule
      | ok _ => exact hlater
    · exact hrelay _
  | QUIT => exact (hrelay _).rule
  | _ => exact hrelay _

theorem read_valid (hs : At ctx s h) : wp nextCommand
    ((outline ctx).upto fun parsed => if parsed then (outline ctx).read else At ctx) s h := by
  have hline : ∀ x, At ctx s (⟨.outReadline .command, x⟩ :: h) := fun x =>
    { rule := ⟨by simp, hs.rule⟩
      authenticated := fun ha => (hs.authenticated ha).cons (by simp)
      trusted := fun ht => beganTrusted_cons (hs.trusted ht) _
      secure := fun hb => (hs.secure hb).cons id }
  rw [wp_nextCommand]
  refine ⟨fun e => (hline _).rule, fun l => ?_⟩
  cases hset : s.command.set l with
  | none => exact hline _
  | some c =>
    have hrecorded : Recorded c (⟨.outReadline .command, .ok l⟩ :: h) :=
      ⟨SMTPCommand.set_some hset, rfl⟩
    exact ⟨hline _, hrecorded⟩

theorem valid (ctx : Context) (rounds : Nat) : (outline ctx).Valid ctx rounds where
  unknown := ⟨by simp, trivial⟩
  start trusted := by
    refine ⟨⟨by simp, trivial⟩, nofun, fun ht => ?_, nofun⟩
    subst ht
    rfl
  door s h hs := by
    refine Outline.door_upto fun d h' hh => ?_
    have hlater := Inv.extends hs hh (forall_door (fun _ _ => rfl) (fun _ _ => rfl) fun _ _ => rfl)
    exact ⟨fun _ => hlater.rule, hlater, hlater⟩
  banner s h hs := by
    rw [wp_writeoutside]
    exact ⟨(hs.cons rfl).rule, hs.cons rfl⟩
  head s h hs := hs.rule
  read s h hs := read_valid hs
  syntaxError s h hs := by
    rw [wp_writeoutside]
    refine ⟨(hs.cons rfl).rule, ?_⟩
    split_ifs
    · exact (hs.cons rfl).rule
    · exact hs.cons rfl
  screen s h hs := screen_valid hs.1 hs.2
  connect s h hs := connect_valid hs
  auth s h hs := auth_valid rounds hs
  forward s h hs := forward_valid rounds hs
  error s h hs := by
    rw [wp_errorLabel]
    refine ⟨(hs.cons rfl).rule, ?_⟩
    split_ifs
    · exact (hs.cons rfl).rule
    · exact hs.cons rfl

end OpenRelay

/-- No open relay: every RCPT command that goes to the inside server comes from
a trusted client, from an authenticated one, or has an accepted recipient that
`greylist` was asked about. -/
theorem no_open_relay (ctx : Context) (rounds : Nat) {r : Except Exn Unit} {s : Session} {h : Log}
    (hrun : (process ctx rounds).Ends {} [] r s h) :
    Always (fun e past => ∀ recipient, relays e = some recipient → Permitted ctx recipient past) h :=
  (OpenRelay.valid ctx rounds).process hrun

/-- A client in proxy mode with an exchange that fails, and then a recipient. -/
def failedAuth : World := .ofLines .Accepted
  ["HELO a.b", "AUTH LOGIN", "x", "MAIL FROM:<a@b>", "RCPT TO:<c@d>", "QUIT"]
  ["220 in", "250 ok", "334 a", "535 no", "250 ok", "250 ok"]

theorem failedAuth_permitted :
    (failedAuth.history (.sample 0 .ProxyAuth) 9).any (fun e => relays e = some (text "c@d")) ∧
      Always (fun e past => ∀ recipient, relays e = some recipient →
          Permitted (.sample 0 .ProxyAuth) recipient past)
        (failedAuth.history (.sample 0 .ProxyAuth) 9) := by
  refine ⟨by decide +kernel, ?_⟩
  obtain ⟨r, s, hrun⟩ := failedAuth.history_ends (.sample 0 .ProxyAuth) 9
  exact no_open_relay (.sample 0 .ProxyAuth) 9 hrun

end Spey
