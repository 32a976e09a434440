import Spey.Session.Events
import Spey.Session.Loops
import Spey.Session.Outline
import Spey.World

/-!
# Intolerant mode

Once a recipient was refused, the inside server never gets a DATA command or a
message body from this session any more, unless a handshake has dropped the
connection. The refused RCPT itself is forwarded, so what stands between is the
flag `errorstate`: with `intolerant` set only a handshake clears it.
-/

namespace Spey

open Interaction Interaction.Action

namespace Intolerant

/-- No part of a message is sent while a refusal stands. -/
@[simp] def barred (e : Event Ans) (past : Log) : Prop :=
  entersData e → ¬ Since refusal dropped past

/-- A standing refusal shows in the flags. -/
@[simp] def Inv (s : Session) (h : Log) : Prop :=
  Always barred h ∧ (Since refusal dropped h → s.errorstate = true ∧ s.connected = true)

/-- The first switch has let the command pass: a DATA command finds no refusal. -/
@[simp] def Screened (s : Session) (h : Log) : Prop :=
  Always barred h ∧ (Since refusal dropped h → s.errorstate = true) ∧
    (s.command.cmd = .DATA → s.errorstate = false)

@[simp] def Passing (s : Session) (h : Log) : Prop :=
  Inv s h ∧ (s.command.cmd = .DATA → s.errorstate = false)

@[simp] def outline : Outline where
  opening := Inv
  admitted := Inv
  head := Inv
  unparsed := Inv
  read := Inv
  screened := Screened
  ready := Passing
  passing := Passing
  refused _ h := Always barred h
  final _ _ h := Always barred h

variable {ctx : Context} {s : Session} {h : Log}

theorem screen_valid (hs : Inv s h) : wp (screen ctx) (outline.upto (outline.land Screened)) s h := by
  obtain ⟨hbarred, hflagged⟩ := hs
  have herror : Since refusal dropped h → s.errorstate = true := fun hsince => (hflagged hsince).1
  simp only [screen, wp_bind, wp_getState]
  cases hc : s.command.cmd with
  | HELP => simpa [hbarred] using hflagged
  | QUIT => exact hbarred
  | STARTTLS =>
    simp only [wp_starttls]
    split_ifs with htls hsecure hconnected
    · exact hbarred
    · simp [hbarred]
    · have hnone : ¬ Since refusal dropped h := fun hsince => hconnected (hflagged hsince).2
      simp [hbarred, hnone]
    · exact hbarred
  | HELO | EHLO =>
    have hscreened : Screened s h := ⟨hbarred, herror, by simp [hc]⟩
    simp only [wp_hello]
    split_ifs
    · exact hscreened
    · simpa using hscreened
    · simp [hbarred]
  | MAIL =>
    have hscreened : Screened s h := ⟨hbarred, herror, by simp [hc]⟩
    simp only [wp_mail]
    split_ifs
    · exact hscreened
    · exact hscreened
    · simpa using hscreened
    · simp [hbarred]
  | RCPT =>
    have hscreened : Screened s h := ⟨hbarred, herror, by simp [hc]⟩
    simp only [wp_rcpt]
    split_ifs
    · simpa [hbarred] using hscreened
    · -- the two refusals raise the flag before the command goes on
      simpa [hbarred, hc] using herror
    · simp [hbarred]
  | DATA =>
    simp only [wp_data]
    split_ifs with he
    · exact hbarred
    · exact ⟨hbarred, herror, fun _ => by simpa using he⟩
  | RSET => exact ⟨hbarred, herror, by simp [hc]⟩
  | VRFY | EXPN | NOOP | AUTH => exact ⟨hbarred, herror, by simp [hc]⟩

theorem connect_valid (hs : Screened s h) : wp connectInside (outline.upto fun _ => Passing) s h := by
  obtain ⟨hbarred, herror, hdata⟩ := hs
  rw [wp_connectInside]
  split_ifs with hconnected
  · exact ⟨⟨hbarred, fun hsince => ⟨herror hsince, hconnected⟩⟩, hdata⟩
  · refine ⟨by simp [hbarred], by simp [hbarred], fun r => ?_⟩
    split_ifs
    · simpa [hbarred] using ⟨herror, hdata⟩
    · simp [hbarred]

/-- An event that no rule is about. -/
structure Quiet (e : Event Ans) : Prop where
  data : entersData e = false
  refuses : refuses e = false
  connected : disconnects e = false

theorem Quiet.apart {e : Event Ans} (he : Quiet e) (past : Log) :
    ¬ refusal e past ∧ ¬ dropped e past := by
  rw [refusal, dropped, he.refuses, he.connected]
  exact ⟨Bool.false_ne_true, fun hd => absurd hd.1 Bool.false_ne_true⟩

theorem Inv.extends {kind : Event Ans → Prop} {h' : Log} (hs : Inv s h) (hh : Extends kind h h')
    (hkind : ∀ e, kind e → Quiet e) : Inv s h' := by
  refine ⟨hh.always (fun e past hk hd => ?_) hs.1, ?_⟩
  · rw [(hkind e hk).data] at hd
    cases hd
  · rw [hh.since_iff fun e past hk => (hkind e hk).apart past]
    exact hs.2

theorem proxyAuth_valid (rounds : Nat) (hs : Passing s h) (hc : s.command.cmd = .AUTH) :
    wp (proxyAuth rounds) (outline.upto (outline.land Passing)) s h := by
  have hbarred := hs.1.1
  rw [wp_proxyAuth]
  refine ⟨by simp [hbarred, hc], fun e => by simp [hbarred, hc], fun r => ?_⟩
  refine ⟨by simp [hbarred, hc], ?_⟩
  have hInv : Inv s (⟨.outReply .proxiedAuth r.response, true⟩ :: ⟨.readReply, .ok r⟩ ::
      ⟨.inWriteline (.command s.command), true⟩ :: h) := by
    simpa [hbarred, hc] using hs.1.2
  split_ifs
  · refine wp_mono (authExchange_wp rounds) ?_
    rintro r' s' h' ⟨hnext, ⟨r₁, b, rfl⟩, hh⟩
    have hInv' := hInv.extends hh (forall_exchange (fun _ => ⟨rfl, rfl, rfl⟩)
      (fun _ _ => ⟨rfl, rfl, rfl⟩) (fun _ => ⟨rfl, rfl, rfl⟩) fun _ _ => ⟨rfl, rfl, rfl⟩)
    cases r' with
    | error e => exact hInv'.1
    | ok j =>
      obtain rfl := hnext j rfl
      exact hInv'
  · exact hInv

theorem internalAuth_valid (hs : Inv s h) :
    wp internalAuth (outline.upto (outline.land Passing)) s h := by
  have hlater : ∀ h', Extends isConversation h h' → Inv s h' := fun h' hh =>
    hs.extends hh (forall_conversation (fun _ _ => ⟨rfl, rfl, rfl⟩) (fun _ => ⟨rfl, rfl, rfl⟩)
      fun _ _ _ => ⟨rfl, rfl, rfl⟩)
  refine internalAuth_wp ?_ ?_ ?_ ?_
  · intro _
    exact hs.1
  · intro e h' _ hh
    exact (hlater h' hh).1
  · intro code h' _ _ hh
    exact (hlater h' hh).1
  · intro username password n h' _ _ _ hh
    obtain ⟨hbarred, hflagged⟩ := hlater h' hh
    exact ⟨by simp [hbarred], by simpa [hbarred] using hflagged⟩

theorem auth_valid (rounds : Nat) (hs : Passing s h) :
    wp (auth ctx rounds) (outline.upto (outline.land Passing)) s h := by
  rw [wp_auth]
  split_ifs with hc
  · cases ctx.settings.externalauthmode with
    | NoAuth => exact hs.1.1
    | ProxyAuth => exact proxyAuth_valid rounds hs hc
    | InternalAuth => exact internalAuth_valid hs.1
  · exact hs

/-- The message that follows an accepted DATA: no refusal stands. -/
theorem deliver_valid (rounds : Nat) (hs : Inv s h)
    (hdata : s.command.cmd = .DATA → ¬ Since refusal dropped h) :
    wp (deliver ctx rounds) (outline.upto (outline.land Inv)) s h := by
  rw [wp_deliver]
  cases hc : s.command.cmd with
  | DATA =>
    dsimp only
    split_ifs
    · refine wp_mono (transfer_wp rounds) ?_
      rintro r s' h' ⟨⟨response, rfl⟩, hh⟩
      have hkeep : Always barred h' ∧ ¬ Since refusal dropped h' := by
        refine hh.invariant (P := fun x => Always barred x ∧ ¬ Since refusal dropped x) ?_
          ⟨hs.1, hdata hc⟩
        intro e past he hpast
        have hr : ¬ refusal e past := by
          revert e
          exact forall_transfer (fun _ => Bool.false_ne_true) (fun _ => Bool.false_ne_true)
            (fun _ _ => Bool.false_ne_true) (fun _ _ => Bool.false_ne_true)
            (fun _ => Bool.false_ne_true) fun _ _ => Bool.false_ne_true
        exact ⟨⟨fun _ => hpast.2, hpast.1⟩, fun hsince => hsince.elim hr fun hold => hpast.2 hold.2⟩
      cases r with
      | error e => exact hkeep.1
      | ok _ => exact ⟨hkeep.1, fun hsince => absurd hsince hkeep.2⟩
    · exact hs
  | QUIT => exact hs.1
  | _ => exact hs

theorem forward_valid (rounds : Nat) (hs : Passing s h) :
    wp (forward ctx rounds) (outline.upto (outline.land Inv)) s h := by
  obtain ⟨⟨hbarred, hflagged⟩, hdata⟩ := hs
  have hnot : s.command.cmd = .DATA → ¬ Since refusal dropped h := by
    intro hc hsince
    have herror := (hflagged hsince).1
    rw [hdata hc] at herror
    cases herror
  rw [wp_forward]
  refine ⟨by simpa [hbarred] using hnot, fun e => by simpa [hbarred] using hnot, fun r => ?_⟩
  refine ⟨by simpa [hbarred] using hnot, ?_⟩
  have hInv : Inv s (⟨.outReply .relay (tweak ctx s.command.cmd r.response), true⟩ ::
      ⟨.readReply, .ok r⟩ :: ⟨.inWriteline (.command s.command), true⟩ :: h) := by
    simpa [hbarred] using ⟨hnot, hflagged⟩
  split_ifs
  · exact hInv.1
  · refine deliver_valid rounds hInv fun hc => ?_
    simpa using hnot hc

theorem valid (hi : ctx.settings.intolerant ≠ 0) (rounds : Nat) : outline.Valid ctx rounds where
  unknown := by simp
  start trusted := by simp
  door s h hs := by
    refine Outline.door_upto fun d h' hh => ?_
    have hInv := hs.extends hh (forall_door (fun _ _ => ⟨rfl, rfl, rfl⟩)
      (fun _ _ => ⟨rfl, rfl, rfl⟩) fun _ _ => ⟨rfl, rfl, rfl⟩)
    exact ⟨fun _ => hInv.1, hInv.1, hInv⟩
  banner s h hs := by simpa [hs.1] using hs.2
  head s h hs := hs.1
  read s h hs := by
    rw [wp_nextCommand]
    refine ⟨fun e => by simp [hs.1], fun l => ?_⟩
    cases s.command.set l <;> simpa [hs.1] using hs.2
  syntaxError s h hs := by simp [hi, hs.1]
  screen s h hs := screen_valid hs
  connect s h hs := connect_valid hs
  auth s h hs := auth_valid rounds hs
  forward s h hs := forward_valid rounds hs
  error s h hs := by
    have hbarred : Always barred h := hs
    simp [wp_errorLabel, hi, hbarred]

end Intolerant

/-- In intolerant mode no DATA command and no part of a message goes to the
inside server after `greylist` has refused a recipient, until a handshake has
dropped that connection. -/
theorem intolerant_bars_refused (ctx : Context) (hi : ctx.settings.intolerant ≠ 0) (rounds : Nat)
    {r : Except Exn Unit} {s : Session} {h : Log} (hrun : (process ctx rounds).Ends {} [] r s h) :
    Always (fun e past => entersData e → ¬ Since refusal dropped past) h :=
  (Intolerant.valid hi rounds).process hrun

/-- A client with a greylisted recipient that goes on with DATA. -/
def refusedClient : World := .ofLines .GreyListed
  ["HELO a.b", "MAIL FROM:<a@b>", "RCPT TO:<c@d>", "DATA", "DATA"]
  ["220 in", "250 ok", "250 ok", "250 ok"]

theorem intolerant_bars_refusedClient :
    Since refusal dropped (refusedClient.history (.sample 1 .NoAuth) 9) ∧
      Always (fun e past => entersData e → ¬ Since refusal dropped past)
        (refusedClient.history (.sample 1 .NoAuth) 9) := by
  refine ⟨by decide +kernel, ?_⟩
  obtain ⟨r, s, hrun⟩ := refusedClient.history_ends (.sample 1 .NoAuth) 9
  exact intolerant_bars_refused (.sample 1 .NoAuth) (by decide) 9 hrun

end Spey
