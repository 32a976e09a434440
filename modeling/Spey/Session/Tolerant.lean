import Spey.Session.Events
import Spey.Session.Loops
import Spey.Session.Outline
import Spey.World

/-!
# Tolerant mode

The inside server holds a recipient that `greylist` has refused until the client
starts over. In this window spey should refuse DATA, but it remembers the refusal
in `errorstate`, which the `error:` label clears after every reply of its own.
A DATA command in the window is refused exactly when no command was refused by
spey itself since the last refusal of a recipient.
-/

namespace Spey

open Interaction Interaction.Action

/-- The line just read is a DATA command. -/
@[simp] def dataRead (h : Log) : Prop := h.head?.bind commandVerb = some .DATA
  deriving Decidable

/-- A RCPT command goes to the inside server although `greylist` has refused it. -/
@[simp] def forwardsRcpt : Event Ans → Bool
  | ⟨.inWriteline (.command c), _⟩ => c.cmd = .RCPT
  | _ => false

@[simp] def forwardsRefused (e : Event Ans) (past : Log) : Prop :=
  forwardsRcpt e ∧ Since refusal commandRead past
  deriving Decidable

/-- The client starts over. -/
@[simp] def resets (e : Event Ans) (_ : Log) : Prop :=
  commandVerb e ∈ [some .RSET, some .HELO, some .EHLO, some .MAIL, some .STARTTLS]
  deriving Decidable

/-- The inside server holds a refused recipient. -/
def window (h : Log) : Prop := Since forwardsRefused resets h
  deriving Decidable

/-- The refusal is forgotten: by a reply of the `error:` label, or by a handshake. -/
@[simp] def clears : Event Ans → Bool
  | ⟨.outReply .refusal _, true⟩ | ⟨.makesecure, true⟩ => true
  | _ => false

@[simp] def cleared (e : Event Ans) (_ : Log) : Prop := clears e
  deriving Decidable

/-- In the window a DATA command gets a refusal, and no part of a message is sent. -/
@[simp] def keepsRefusing (e : Event Ans) (past : Log) : Prop :=
  (dataRead past → window past → refusesCommand e) ∧ (entersBody e → ¬ window past)
  deriving Decidable

/-- A DATA command in the window comes while a refusal still stands. -/
@[simp] def stillPending (_ : Event Ans) (past : Log) : Prop :=
  dataRead past → window past → Since refusal cleared past
  deriving Decidable

namespace Tolerant

/-- A DATA command is refused exactly while a refusal stands. -/
@[simp] def exact (e : Event Ans) (past : Log) : Prop :=
  dataRead past → (refusesCommand e ↔ Since refusal cleared past)

@[simp] def bodyless (e : Event Ans) (past : Log) : Prop := entersBody e → ¬ window past

/-- What the history shows at any time. -/
structure Kept (h : Log) : Prop where
  exact : Always exact h
  bodyless : Always stillPending h → Always bodyless h

/-- Between commands: the flag `errorstate` is what the history says. -/
structure Calm (errorstate : Bool) (h : Log) : Prop where
  kept : Kept h
  flag : errorstate = true ↔ Since refusal cleared h
  notData : ¬ dataRead h

/-- On the way of a DATA command to the inside server. -/
structure Going (errorstate : Bool) (h : Log) : Prop where
  kept : Kept h
  flag : errorstate = false
  none : ¬ Since refusal cleared h
  outside : dataRead h ∨ (Always stillPending h → ¬ window h)

variable {ctx : Context} {s : Session} {b : Bool} {h : Log}

/-- Events that no rule is about. -/
@[simp] def quiet : Event Ans → Bool
  | ⟨.greylist _ _ _, some .Accepted⟩ | ⟨.greylist _ _ _, none⟩ => true
  | ⟨.greylist _ _ _, _⟩ | ⟨.outReadline .command, _⟩ | ⟨.outReply .refusal _, _⟩
  | ⟨.makesecure, true⟩ | ⟨.inWriteline (.header _), _⟩ | ⟨.inWriteline (.bodyLine _), _⟩ => false
  | ⟨.inWriteline (.command c), _⟩ => c.cmd ≠ .RCPT
  | _ => true

/-- The event leaves the refusal and the window as they are. -/
structure Unmarked (e : Event Ans) : Prop where
  refuses : refuses e = false
  clears : clears e = false
  verb : commandVerb e = none
  rcpt : forwardsRcpt e = false

theorem quiet_spec {e : Event Ans} (he : quiet e) :
    Unmarked e ∧ refusesCommand e = false ∧ entersBody e = false := by
  obtain ⟨c, x⟩ := e
  cases c with
  | greylist => rcases x with _ | _ | _ | _ <;> first | exact ⟨⟨rfl, rfl, rfl, rfl⟩, rfl, rfl⟩ | cases he
  | outReadline site => cases site <;> first | exact ⟨⟨rfl, rfl, rfl, rfl⟩, rfl, rfl⟩ | cases he
  | outReply site => cases site <;> first | exact ⟨⟨rfl, rfl, rfl, rfl⟩, rfl, rfl⟩ | cases he
  | makesecure => cases x <;> first | exact ⟨⟨rfl, rfl, rfl, rfl⟩, rfl, rfl⟩ | cases he
  | inWriteline item =>
    cases item with
    | command c => exact ⟨⟨rfl, rfl, rfl, by simpa using he⟩, rfl, rfl⟩
    | authLine l => exact ⟨⟨rfl, rfl, rfl, rfl⟩, rfl, rfl⟩
    | header t => cases he
    | bodyLine l => cases he
  | _ => exact ⟨⟨rfl, rfl, rfl, rfl⟩, rfl, rfl⟩

theorem isTransfer_spec : ∀ e, isTransfer e → Unmarked e ∧ refusesCommand e = false :=
  forall_transfer (fun _ => ⟨⟨rfl, rfl, rfl, rfl⟩, rfl⟩) (fun _ => ⟨⟨rfl, rfl, rfl, rfl⟩, rfl⟩)
    (fun _ _ => ⟨⟨rfl, rfl, rfl, rfl⟩, rfl⟩) (fun _ _ => ⟨⟨rfl, rfl, rfl, rfl⟩, rfl⟩)
    (fun _ => ⟨⟨rfl, rfl, rfl, rfl⟩, rfl⟩) fun _ _ => ⟨⟨rfl, rfl, rfl, rfl⟩, rfl⟩

section
variable {e : Event Ans} (he : Unmarked e)
include he

theorem since_cons_unmarked : Since refusal cleared (e :: h) ↔ Since refusal cleared h := by
  rw [since_cons]
  simp only [refusal, cleared, he.refuses, he.clears, Bool.false_eq_true, false_or,
    not_false_eq_true, true_and]

theorem window_cons_unmarked : window (e :: h) ↔ window h := by
  unfold window
  rw [since_cons]
  simp only [forwardsRefused, resets, he.verb, he.rcpt, Bool.false_eq_true, false_and, false_or,
    List.mem_cons, reduceCtorEq, List.not_mem_nil, or_self, not_false_eq_true, true_and]

theorem not_dataRead_cons : ¬ dataRead (e :: h) := by
  simp only [dataRead, List.head?_cons, Option.bind_some, he.verb, reduceCtorEq, not_false_eq_true]

end

/-- Away from DATA, everything but a part of a message may happen. -/
theorem Kept.step {e : Event Ans} (hk : Kept h) (hdata : ¬ dataRead h)
    (hbody : entersBody e = false) : Kept (e :: h) := by
  refine ⟨⟨fun hd => absurd hd hdata, hk.exact⟩, fun hp => ⟨fun hb => ?_, hk.bodyless hp.2⟩⟩
  rw [hbody] at hb
  cases hb

theorem Kept.cons {e : Event Ans} (hk : Kept h) (he : quiet e)
    (hdata : dataRead h → ¬ Since refusal cleared h) : Kept (e :: h) := by
  obtain ⟨-, hrefuses, hbody⟩ := quiet_spec he
  constructor
  · refine ⟨fun hd => ?_, hk.exact⟩
    rw [hrefuses]
    exact iff_of_false Bool.false_ne_true (hdata hd)
  · intro hp
    refine ⟨fun hb => ?_, hk.bodyless hp.2⟩
    rw [hbody] at hb
    cases hb

theorem Calm.cons {e : Event Ans} (hs : Calm b h) (he : quiet e) : Calm b (e :: h) where
  kept := hs.kept.cons he fun hd => absurd hd hs.notData
  flag := by rw [since_cons_unmarked (quiet_spec he).1]; exact hs.flag
  notData := not_dataRead_cons (quiet_spec he).1

/-- Once the next thing has happened, the window must be closed. -/
theorem Going.closed {e : Event Ans} (hs : Going b h) (he : Unmarked e)
    (hp : Always stillPending (e :: h)) : ¬ window (e :: h) := by
  rw [window_cons_unmarked he]
  rcases hs.outside with hd | hw
  · exact fun hw => hs.none (hp.1 hd hw)
  · exact hw hp.2

theorem Going.cons {e : Event Ans} (hs : Going b h) (he : quiet e) : Going b (e :: h) where
  kept := hs.kept.cons he fun _ => hs.none
  flag := hs.flag
  none := by rw [since_cons_unmarked (quiet_spec he).1]; exact hs.none
  outside := .inr (hs.closed (quiet_spec he).1)

/-- The events of a message that is sent outside the window. -/
theorem Going.transfer {e : Event Ans} (hs : Going b h) (hd : ¬ dataRead h) (he : isTransfer e) :
    Going b (e :: h) where
  kept := by
    refine ⟨⟨fun hd' => absurd hd' hd, hs.kept.exact⟩, fun hp => ⟨fun _ => ?_, hs.kept.bodyless hp.2⟩⟩
    exact (hs.outside.resolve_left hd) hp.2
  flag := hs.flag
  none := by rw [since_cons_unmarked (isTransfer_spec _ he).1]; exact hs.none
  outside := .inr (hs.closed (isTransfer_spec _ he).1)

/-- The command is DATA and goes through, or it is another one. -/
def Screened (s : Session) (h : Log) : Prop :=
  if s.command.cmd = .DATA then Going s.errorstate h else Calm s.errorstate h

@[simp] def outline : Outline where
  opening s := Calm s.errorstate
  admitted s := Calm s.errorstate
  head s := Calm s.errorstate
  unparsed s := Calm s.errorstate
  read s h := Kept h ∧ (s.errorstate = true ↔ Since refusal cleared h) ∧
    (dataRead h ↔ s.command.cmd = .DATA)
  screened := Screened
  ready := Screened
  passing := Screened
  refused _ h := Kept h ∧ (dataRead h → Since refusal cleared h)
  final _ _ := Kept

theorem Screened.cons {e : Event Ans} (hs : Screened s h) (he : quiet e) : Screened s (e :: h) := by
  unfold Screened at hs ⊢
  split_ifs at hs ⊢
  · exact hs.cons he
  · exact hs.cons he

theorem Screened.kept (hs : Screened s h) : Kept h := by
  unfold Screened at hs
  split_ifs at hs
  · exact hs.kept
  · exact hs.kept

theorem Calm.screened (hs : Calm s.errorstate h) (hc : s.command.cmd ≠ .DATA) : Screened s h := by
  rw [Screened, if_neg hc]
  exact hs

theorem Calm.refused (hs : Calm b h) : Kept h ∧ (dataRead h → Since refusal cleared h) :=
  ⟨hs.kept, fun hd => absurd hd hs.notData⟩

/-- A handshake takes the flag and the refusal away. -/
theorem Calm.handshake (hs : Calm b h) : Calm false (⟨.makesecure, true⟩ :: h) where
  kept := hs.kept.step hs.notData rfl
  flag := by simp
  notData := by simp

/-- A refused recipient raises the flag. -/
theorem Calm.refusal (hs : Calm b h) {sender : UInt32} {fromaddress toaddress : Bytes}
    {verdict : GreylistResponse} (hv : verdict ≠ .Accepted) :
    Calm true (⟨.greylist sender fromaddress toaddress, some verdict⟩ :: h) where
  kept := hs.kept.step hs.notData rfl
  flag := by cases verdict <;> simp_all
  notData := by simp

theorem Calm.counted (hs : Calm b h) (counter : Counter) :
    Counted counter (outline.upto (outline.land Screened)) .error s h :=
  ⟨(hs.cons rfl).kept, (hs.cons rfl).refused⟩

theorem Screened.counted (hs : Screened s h) (counter : Counter) :
    Counted counter (outline.upto (outline.land Screened)) .fall s h :=
  ⟨(hs.cons rfl).kept, hs.cons rfl⟩

theorem rcpt_valid (hcalm : Calm s.errorstate h) (hc : s.command.cmd ≠ .DATA) :
    wp (rcpt ctx) (outline.upto (outline.land Screened)) s h := by
  rw [wp_rcpt]
  split_ifs
  · exact (hcalm.screened hc).counted _
  · have hverify := hcalm.cons (e := ⟨.verifyaddress s.command.parameter.bytes, ()⟩) rfl
    refine ⟨(hverify.cons rfl).kept, (hverify.cons rfl).counted _, ?_⟩
    have haccept := hverify.cons
      (e := ⟨.testacceptance s.command.parameter.bytes, some true⟩) rfl
    refine ⟨(haccept.cons rfl).kept, fun verdict => ?_⟩
    cases verdict with
    | Accepted =>
      refine Screened.counted (s := s) ?_ _
      exact (haccept.cons rfl).screened hc
    | BlackListed =>
      simp only [Judged, wp_blackmessage]
      refine Screened.counted ?_ _
      exact Calm.screened (haccept.refusal (by decide)) hc
    | GreyListed =>
      simp only [Judged, wp_greymessage]
      refine Screened.counted ?_ _
      exact Calm.screened (haccept.refusal (by decide)) hc
  · exact (hcalm.cons rfl).counted _

theorem screen_valid (hs : outline.read s h) :
    wp (screen ctx) (outline.upto (outline.land Screened)) s h := by
  obtain ⟨hkept, hflag, hdata⟩ := hs
  have hcalm : s.command.cmd ≠ .DATA → Calm s.errorstate h := fun hc =>
    ⟨hkept, hflag, hdata.not.mpr hc⟩
  simp only [screen, wp_bind, wp_getState]
  cases hc : s.command.cmd with
  | HELP =>
    replace hcalm := hcalm (by simp [hc])
    simp only [wp_bind, wp_respond, wp_writeoutside, wp_pure]
    exact ⟨(hcalm.cons rfl).kept, hcalm.cons rfl⟩
  | QUIT => exact hkept
  | STARTTLS =>
    replace hcalm := hcalm (by simp [hc])
    simp only [wp_starttls]
    have hreply := hcalm.cons (e := ⟨.outReply .starttls (.set 220), true⟩) rfl
    split_ifs with htls hsecure hconnected
    · exact hcalm.refused
    · exact ⟨(hcalm.cons rfl).kept, (hreply.cons rfl).kept, hreply.handshake.cons rfl⟩
    · exact ⟨(hcalm.cons rfl).kept, (hreply.cons rfl).kept, hreply.handshake⟩
    · exact hcalm.refused
  | HELO | EHLO =>
    replace hcalm := hcalm (by simp [hc])
    have hpass := hcalm.screened (by simp [hc])
    simp only [wp_hello]
    split_ifs
    · exact hpass
    · exact hpass.cons rfl
    · exact (hcalm.cons rfl).counted _
  | MAIL =>
    replace hcalm := hcalm (by simp [hc])
    have hpass := hcalm.screened (by simp [hc])
    simp only [wp_mail]
    split_ifs
    · exact hpass
    · exact hpass
    · exact hpass.cons rfl
    · exact (hcalm.cons rfl).counted _
  | RCPT => exact rcpt_valid (hcalm (by simp [hc])) (by simp [hc])
  | DATA =>
    simp only [wp_data]
    split_ifs with he
    · exact ⟨hkept, fun _ => hflag.mp he⟩
    · have hnone : ¬ Since refusal cleared h := hflag.not.mp he
      have hgoing : Going s.errorstate h := ⟨hkept, by simpa using he, hnone, .inl (hdata.mpr hc)⟩
      have hscreened : Screened s h := by rwa [Screened, if_pos hc]
      exact hscreened
  | RSET | VRFY | EXPN | NOOP | AUTH =>
    exact (hcalm (by simp [hc])).screened (by simp [hc])

theorem connect_valid (hs : Screened s h) : wp connectInside (outline.upto fun _ => Screened) s h := by
  rw [wp_connectInside]
  split_ifs
  · exact hs
  · refine ⟨fun _ => ((hs.cons rfl).cons rfl).kept, fun _ => ?_, fun r => ?_⟩
    · exact fun _ => (((hs.cons rfl).cons rfl).cons rfl).kept
    · split_ifs
      · exact (hs.cons rfl).cons rfl
      · exact fun _ => (((hs.cons rfl).cons rfl).cons rfl).kept

theorem Calm.extends {kind : Event Ans → Prop} {h' : Log} (hs : Calm b h) (hh : Extends kind h h')
    (hkind : ∀ e, kind e → quiet e) : Calm b h' :=
  hh.invariant (fun e _ hk hp => Calm.cons hp (hkind e hk)) hs

/-- A command goes to the inside server, a refused recipient included. -/
theorem Calm.forward (hs : Calm b h) (c : SMTPCommand) (x : Bool) :
    Calm b (⟨.inWriteline (.command c), x⟩ :: h) where
  kept := hs.kept.step hs.notData rfl
  flag := by simpa using hs.flag
  notData := by simp

theorem Screened.forward (hs : Screened s h) (x : Bool) :
    Screened s (⟨.inWriteline (.command s.command), x⟩ :: h) := by
  unfold Screened at hs ⊢
  split_ifs at hs ⊢ with hc
  · exact hs.cons (by simp [hc])
  · exact hs.forward _ _

theorem auth_valid (rounds : Nat) (hs : Screened s h) :
    wp (auth ctx rounds) (outline.upto (outline.land Screened)) s h := by
  rw [wp_auth]
  split_ifs with hc
  · have hcalm : Calm s.errorstate h := by simpa [Screened, hc] using hs
    cases ctx.settings.externalauthmode with
    | NoAuth => exact hcalm.refused
    | ProxyAuth =>
      dsimp only
      rw [wp_proxyAuth]
      have hwrite := hcalm.forward s.command true
      refine ⟨(hcalm.forward _ _).kept, fun e => (hwrite.cons rfl).kept, fun r => ?_⟩
      have hread := hwrite.cons (e := ⟨.readReply, .ok r⟩) rfl
      refine ⟨(hread.cons rfl).kept, ?_⟩
      have hreply := hread.cons (e := ⟨.outReply .proxiedAuth r.response, true⟩) rfl
      split_ifs
      · refine wp_mono (authExchange_wp rounds) ?_
        rintro r' s' h' ⟨hnext, ⟨r₁, b, rfl⟩, hh⟩
        have hlater := hreply.extends hh
          (forall_exchange (fun _ => rfl) (fun _ _ => rfl) (fun _ => rfl) fun _ _ => rfl)
        cases r' with
        | error e => exact hlater.kept
        | ok j =>
          obtain rfl := hnext j rfl
          exact hlater
      · exact hreply
    | InternalAuth =>
      have hlater : ∀ h', Extends isConversation h h' → Calm s.errorstate h' := fun h' hh =>
        hcalm.extends hh (forall_conversation (fun _ _ => rfl) (fun _ => rfl) fun _ _ _ => rfl)
      refine internalAuth_wp ?_ ?_ ?_ ?_
      · intro _
        exact hcalm.refused
      · intro e h' _ hh
        exact (hlater h' hh).kept
      · intro code h' _ _ hh
        exact (hlater h' hh).refused
      · intro username password n h' _ _ _ hh
        have hfound := (hlater h' hh).cons (e := ⟨.users username password, some n⟩) rfl
        exact ⟨(hfound.cons rfl).kept, hfound.cons rfl⟩
  · exact hs

/-- A message is only sent outside the window. -/
theorem transfer_valid (rounds : Nat) (hs : Going s.errorstate h) (hd : ¬ dataRead h) :
    wp (transfer ctx rounds)
      (fun r s' h' => outline.upto (outline.land outline.head) (r.map fun _ => .next) s' h') s h := by
  refine wp_mono (transfer_wp rounds) ?_
  rintro r s' h' ⟨⟨response, rfl⟩, hh⟩
  have hkeep : Going s.errorstate h' ∧ ¬ dataRead h' := by
    refine hh.invariant (P := fun x => Going s.errorstate x ∧ ¬ dataRead x) ?_ ⟨hs, hd⟩
    rintro e past he ⟨hgoing, hpast⟩
    exact ⟨hgoing.transfer hpast he, not_dataRead_cons (isTransfer_spec _ he).1⟩
  have hcalm : Calm s.errorstate h' := by
    refine ⟨hkeep.1.kept, ?_, hkeep.2⟩
    rw [hkeep.1.flag]
    exact iff_of_false Bool.false_ne_true hkeep.1.none
  cases r with
  | error e => exact hcalm.kept
  | ok _ => exact hcalm

theorem forward_valid (rounds : Nat) (hs : Screened s h) :
    wp (forward ctx rounds) (outline.upto (outline.land outline.head)) s h := by
  rw [wp_forward]
  have hwrite := hs.forward true
  refine ⟨(hs.forward false).kept, fun e => (hwrite.cons rfl).kept, fun r => ?_⟩
  have hread := hwrite.cons (e := ⟨.readReply, .ok r⟩) rfl
  refine ⟨(hread.cons rfl).kept, ?_⟩
  have hrelay : ∀ response, Screened s (⟨.outReply .relay response, true⟩ :: ⟨.readReply, .ok r⟩ ::
      ⟨.inWriteline (.command s.command), true⟩ :: h) := fun response => hread.cons rfl
  split_ifs
  · exact (hrelay _).kept
  rw [wp_deliver]
  cases hc : s.command.cmd with
  | DATA =>
    simp only [Screened, hc, ↓reduceIte] at hrelay
    dsimp only
    split_ifs
    · exact transfer_valid rounds (hrelay _) (by simp)
    · refine ⟨(hrelay _).kept, ?_, by simp⟩
      rw [(hrelay {}).flag]
      exact iff_of_false Bool.false_ne_true (hrelay _).none
  | QUIT => exact (hrelay _).kept
  | _ =>
    simp only [Screened, hc, reduceCtorEq, ↓reduceIte] at hrelay
    exact hrelay _

theorem refuse_valid (hi : ctx.settings.intolerant = 0)
    (hs : Kept h ∧ (dataRead h → Since refusal cleared h)) : wp (errorLabel ctx)
      (outline.upto fun jump => if jump = .abort then outline.final (.error .network) else
        outline.head) s h := by
  obtain ⟨hkept, hdata⟩ := hs
  have hreply : ∀ written, Kept (⟨.outReply .refusal s.deferrederror, written⟩ :: h) := by
    intro written
    refine ⟨⟨fun hd => iff_of_true rfl (hdata hd), hkept.exact⟩, fun hp => ⟨?_, hkept.bodyless hp.2⟩⟩
    simp
  rw [wp_errorLabel]
  refine ⟨hreply false, ?_⟩
  rw [if_neg (by simp [hi])]
  exact ⟨hreply true, by simp, by simp⟩

theorem read_valid (hs : Calm s.errorstate h) : wp nextCommand
    (outline.upto fun parsed => if parsed then outline.read else outline.unparsed) s h := by
  have hline : ∀ x, Kept (⟨.outReadline .command, x⟩ :: h) := fun x => hs.kept.step hs.notData rfl
  rw [wp_nextCommand]
  refine ⟨fun e => hline _, fun l => ?_⟩
  cases hset : s.command.set l with
  | none =>
    have hnone := SMTPCommand.set_none hset
    refine ⟨hline _, ?_, ?_⟩
    · simpa using hs.flag
    · simp [hnone]
  | some c =>
    have hsome := SMTPCommand.set_some hset
    refine ⟨hline _, ?_, ?_⟩
    · simpa using hs.flag
    · simp [hsome]

theorem valid (hi : ctx.settings.intolerant = 0) (rounds : Nat) : outline.Valid ctx rounds where
  unknown := ⟨by simp, by simp⟩
  start trusted := ⟨⟨by simp, by simp⟩, by simp, by simp⟩
  door s h hs := by
    refine Outline.door_upto fun d h' hh => ?_
    have hcalm := Calm.extends hs hh (forall_door (fun _ _ => rfl) (fun _ _ => rfl) fun _ _ => rfl)
    exact ⟨fun _ => hcalm.kept, hcalm.refused, hcalm⟩
  banner s h hs := by
    rw [wp_writeoutside]
    exact ⟨(hs.cons rfl).kept, hs.cons rfl⟩
  head s h hs := hs.kept
  read s h hs := read_valid hs
  syntaxError s h hs := by
    rw [wp_writeoutside, if_neg (by simp [hi])]
    exact ⟨(hs.cons rfl).kept, hs.cons rfl⟩
  screen s h hs := screen_valid hs
  connect s h hs := connect_valid hs
  auth s h hs := auth_valid rounds hs
  forward s h hs := forward_valid rounds hs
  error s h hs := refuse_valid hi hs

end Tolerant

/-- In tolerant mode the refused message stays refused exactly as long as no
reply of the `error:` label has come between the refusal and a DATA command. -/
theorem tolerant_keepsRefusing_iff (ctx : Context) (hi : ctx.settings.intolerant = 0)
    (rounds : Nat) {r : Except Exn Unit} {s : Session} {h : Log} (hrun : (process ctx rounds).Ends {} [] r s h) :
    Always keepsRefusing h ↔ Always stillPending h := by
  obtain ⟨hexact, hbodyless⟩ := (Tolerant.valid hi rounds).process hrun
  constructor
  · intro hkeeps
    refine (hexact.and hkeeps).mono ?_
    rintro e past ⟨hexact, hkeeps⟩ hd hw
    exact (hexact hd).mp (hkeeps.1 hd hw)
  · intro hp
    refine ((hexact.and hp).and (hbodyless hp)).mono ?_
    rintro e past ⟨⟨hexact, hp⟩, hbody⟩
    exact ⟨fun hd hw => (hexact hd).mpr (hp hd hw), hbody⟩

/-- A client that repeats a refused DATA. -/
def repeatedData : World := .ofLines .GreyListed
  ["HELO a.b", "MAIL FROM:<a@b>", "RCPT TO:<c@d>", "DATA", "DATA", "x", ".", "QUIT"]
  ["220 in", "250 ok", "250 ok", "250 ok", "354 go", "250 ok"]

/-- The second DATA passes, and the message with it. -/
theorem repeated_data_passes :
    ¬ ∀ (ctx : Context) (rounds : Nat) (r : Except Exn Unit) (s : Session) (h : Log),
      ctx.settings.intolerant = 0 → (process ctx rounds).Ends {} [] r s h →
      Always (fun e _ => ¬ trusts e ∧ commandVerb e ≠ some .AUTH) h → Always keepsRefusing h := by
  intro hall
  obtain ⟨r, s, hrun⟩ := repeatedData.history_ends (.sample 0 .NoAuth) 9
  have hkeeps := hall (.sample 0 .NoAuth) 9 r s _ rfl hrun (by decide +kernel)
  revert hkeeps
  decide +kernel

/-- A client that gives up after the first refusal. -/
def singleData : World := .ofLines .GreyListed
  ["HELO a.b", "MAIL FROM:<a@b>", "RCPT TO:<c@d>", "DATA", "QUIT"]
  ["220 in", "250 ok", "250 ok", "250 ok"]

theorem single_data_refused :
    Always stillPending (singleData.history (.sample 0 .NoAuth) 9) ∧
      (Always keepsRefusing (singleData.history (.sample 0 .NoAuth) 9) ↔
        Always stillPending (singleData.history (.sample 0 .NoAuth) 9)) := by
  refine ⟨by decide +kernel, ?_⟩
  obtain ⟨r, s, hrun⟩ := singleData.history_ends (.sample 0 .NoAuth) 9
  exact tolerant_keepsRefusing_iff (.sample 0 .NoAuth) rfl 9 hrun

end Spey
