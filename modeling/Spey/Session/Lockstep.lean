import Spey.Interaction.Monitor
import Spey.Session.Loops
import Spey.Session.Outline

/-!
# Lockstep with the inside server

On each inside connection the banner is read first. From then on one item is
written, its reply is read, and the reply is passed on to the client, before the
next item is written; the header and the lines of a message are one item. Two
monitors say this: `lockstep` follows the connection, `turns` follows what is
done about one command line of the client.
-/

namespace Spey

open Interaction Interaction.Action

/-- The sites of spey's own replies. -/
def ReplySite.own : ReplySite → Bool
  | .relay | .proxiedAuth | .bodyResult => false
  | _ => true

/-- What the inside server answers with one reply. -/
inductive Exchange where
  | command (c : SMTPCommand)
  | authLine (l : Line)
  | message

/-- What the client gets to see of a reply, and from where. -/
def Exchange.answer (ctx : Context) : Exchange → ReplySite → SMTPResponse → Option SMTPResponse
  | .command c, .relay, r => some (tweak ctx c.cmd r)
  | .command c, .proxiedAuth, r => if c.cmd = .AUTH then some r else none
  | .authLine _, .proxiedAuth, r => some r
  | .message, .bodyResult, r => some r
  | _, _, _ => none

theorem Exchange.answer_own {ctx : Context} {item : Exchange} {site : ReplySite}
    {reply r : SMTPResponse} (h : item.answer ctx site reply = some r) : site.own = false := by
  cases site with
  | relay | proxiedAuth | bodyResult => rfl
  | _ => cases item <;> cases h

/-- The reply opens or continues an AUTH exchange. -/
def Exchange.challenges : Exchange → SMTPResponse → Bool
  | .command c, r => c.cmd = .AUTH && r.code = 334
  | .authLine _, r => r.code = 334
  | .message, _ => false

/-- The reply asks for a message. -/
def Exchange.invites : Exchange → SMTPResponse → Bool
  | .command c, r => c.cmd = .DATA && r.issuccess
  | _, _ => false

/-- Written as exactly one line: its bytes, none of them CR or LF, and CR LF. -/
def SingleLine (l : Bytes) : Prop := OneLine l ∧ Socket.writeline l = l ++ [CR, LF]
  deriving Decidable

theorem singleLine_of_oneLine {l : Bytes} (h : OneLine l) : SingleLine l :=
  ⟨h, Socket.writeline_oneLine h⟩

/-! ## The connection -/

inductive Phase where
  | closed
  /-- the banner has not been read -/
  | greeting
  /-- nothing is under way; the last exchange and its reply -/
  | idle (last : Option (Exchange × SMTPResponse))
  /-- the reply has not been read -/
  | awaiting (item : Exchange)
  /-- the header was written, the final dot was not -/
  | body
  /-- the reply has not been passed on -/
  | answered (item : Exchange) (r : SMTPResponse)
  | failed

namespace Phase

def dial : Phase → Bool → Option Phase
  | closed, connected => some (if connected then greeting else failed)
  | _, _ => none

def hangUp : Phase → Option Phase
  | idle _ => some closed
  | _ => none

def receive : Phase → Except ReadFailure Reply → Option Phase
  | greeting, .ok _ => some (idle none)
  | awaiting item, .ok r => some (answered item r.response)
  | greeting, .error _ | awaiting _, .error _ => some failed
  | _, _ => none

def send : Phase → Item → Option Phase
  | idle _, .command c => if SingleLine c.string then some (awaiting (.command c)) else none
  | idle (some (item, r)), .authLine l =>
      if item.challenges r ∧ SingleLine l.bytes then some (awaiting (.authLine l)) else none
  | idle (some (item, r)), .header _ => if item.invites r then some body else none
  | body, .bodyLine l => some (if l.bytes = text "." then awaiting .message else body)
  | _, _ => none

/-- A reply goes to the client: one of spey's own while the connection is at
rest, or the one that was read. -/
def tell (ctx : Context) (site : ReplySite) (r : SMTPResponse) (written : Bool) (p : Phase) :
    Option Phase :=
  if site.own then
    match p with
    | closed | idle _ | failed => some p
    | _ => none
  else
    match p with
    | answered item reply =>
        if item.answer ctx site reply = some r then
          some (if written then idle (some (item, reply)) else failed)
        else none
    | _ => none

def step (ctx : Context) (p : Phase) : Event Ans → Option Phase
  | ⟨.connect, connected⟩ => p.dial connected
  | ⟨.deinit, _⟩ => p.hangUp
  | ⟨.readReply, x⟩ => p.receive x
  | ⟨.inWriteline item, written⟩ => (p.send item).map fun q => if written then q else failed
  | ⟨.outReply site r, written⟩ => p.tell ctx site r written
  | _ => some p

end Phase

/-- The inside connection is used in lockstep. -/
def lockstep (ctx : Context) : Monitor Ans Phase := ⟨.closed, Phase.step ctx⟩

/-! ## The turns of the client -/

inductive Turn where
  /-- no command has been read -/
  | start
  /-- this line was read as a command, and nothing was done about it -/
  | undecided (l : Line)
  /-- spey has answered for itself -/
  | spoken
  /-- the command went to the inside server -/
  | passed

namespace Turn

/-- The command of the line goes to the inside server, or what belongs to it. -/
def send : Turn → Item → Option Turn
  | undecided l, .command c =>
      if SMTPCommand.parse l.bytes = some (c.cmd, c.argument) ∧ c.cmd ∉ [.HELP, .QUIT, .STARTTLS]
      then some passed else none
  | passed, .authLine _ | passed, .header _ | passed, .bodyLine _ => some passed
  | _, _ => none

def tell (site : ReplySite) (t : Turn) : Option Turn :=
  if site.own then
    match t with
    | passed => none
    | _ => some spoken
  else
    match t with
    | passed => some passed
    | _ => none

def step (t : Turn) : Event Ans → Option Turn
  | ⟨.outReadline .command, .ok l⟩ => some (undecided l)
  | ⟨.inWriteline item, _⟩ => t.send item
  | ⟨.outReply site _, _⟩ => t.tell site
  | _ => some t

end Turn

/-- A command line is passed on or answered by spey, and never both. -/
def turns : Monitor Ans Turn := ⟨.start, Turn.step⟩

namespace Lockstep

variable {ctx : Context} {s : Session} {h : Log} {p q : Phase} {t u : Turn} {e : Event Ans}

/-- Both monitors have followed the history. -/
structure On (ctx : Context) (p : Phase) (t : Turn) (h : Log) : Prop where
  phase : (lockstep ctx).At p h
  turn : turns.At t h

theorem On.cons (hs : On ctx p t h) (hp : p.step ctx e = some q) (ht : t.step e = some u) :
    On ctx q u (e :: h) :=
  ⟨hs.phase.cons hp, hs.turn.cons ht⟩

def Done (ctx : Context) (h : Log) : Prop := (lockstep ctx).Accepts h ∧ turns.Accepts h

theorem On.done (hs : On ctx p t h) : Done ctx h := ⟨hs.phase.accepts, hs.turn.accepts⟩

/-- Events that neither monitor looks at. -/
def quiet : Event Ans → Bool
  | ⟨.connect, _⟩ | ⟨.deinit, _⟩ | ⟨.readReply, _⟩ | ⟨.inWriteline _, _⟩ | ⟨.outReply _ _, _⟩
  | ⟨.outReadline .command, .ok _⟩ => false
  | _ => true

theorem On.quiet (hs : On ctx p t h) (he : quiet e) : On ctx p t (e :: h) := by
  obtain ⟨c, x⟩ := e
  cases c with
  | outReadline site =>
    cases site with
    | command =>
      cases x with
      | ok l => cases he
      | error e => exact hs.cons rfl rfl
    | _ => exact hs.cons rfl rfl
  | connect | deinit | readReply | inWriteline item | outReply site r => cases he
  | _ => exact hs.cons rfl rfl

theorem On.extends {kind : Event Ans → Prop} {h' : Log} (hs : On ctx p t h)
    (hh : Extends kind h h') (hkind : ∀ e, kind e → Lockstep.quiet e) : On ctx p t h' :=
  hh.invariant (fun e _ hk hp => hp.quiet (hkind e hk)) hs

/-- The state of the connection between two items. -/
def rests : Phase → Bool → Prop
  | .idle _, connected => connected = true
  | .closed, connected => connected = false
  | _, _ => False

/-- Nothing is under way on the inside connection. -/
def Resting (ctx : Context) (connected : Bool) (t : Turn) (h : Log) : Prop :=
  ∃ p, rests p connected ∧ On ctx p t h

namespace Resting

variable {c : Bool}

theorem done (hs : Resting ctx c t h) : Done ctx h := by
  obtain ⟨p, -, hs⟩ := hs
  exact hs.done

theorem quiet (hs : Resting ctx c t h) (he : Lockstep.quiet e) : Resting ctx c t (e :: h) := by
  obtain ⟨p, hp, hs⟩ := hs
  exact ⟨p, hp, hs.quiet he⟩

theorem tell (hs : Resting ctx c t h) (ht : t ≠ .passed) {site : ReplySite} (hsite : site.own)
    (r : SMTPResponse) (x : Bool) : Resting ctx c .spoken (⟨.outReply site r, x⟩ :: h) := by
  obtain ⟨p, hp, hs⟩ := hs
  refine ⟨p, hp, hs.cons ?_ ?_⟩
  · cases p with
    | closed | idle last => exact if_pos hsite
    | _ => exact hp.elim
  · cases t with
    | passed => exact absurd rfl ht
    | _ => exact if_pos hsite

theorem readline (hs : Resting ctx c t h) (l : Line) :
    Resting ctx c (.undecided l) (⟨.outReadline .command, .ok l⟩ :: h) := by
  obtain ⟨p, hp, hs⟩ := hs
  exact ⟨p, hp, hs.cons rfl rfl⟩

end Resting

/-- The command that was read is still to be dealt with. -/
structure Read (ctx : Context) (c : SMTPCommand) (connected : Bool) (h : Log) : Prop where
  resting : ∃ l, Resting ctx connected (.undecided l) h ∧
    SMTPCommand.parse l.bytes = some (c.cmd, c.argument)

/-- It may go to the inside server. -/
structure Screened (ctx : Context) (c : SMTPCommand) (connected : Bool) (h : Log) : Prop
    extends Read ctx c connected h where
  forwards : c.cmd ∉ [.HELP, .QUIT, .STARTTLS]

/-- Spey may answer for itself. -/
def Refused (ctx : Context) (connected : Bool) (h : Log) : Prop :=
  ∃ t, t ≠ .passed ∧ Resting ctx connected t h

@[simp] def outline (ctx : Context) : Outline where
  opening s := Resting ctx s.connected .start
  admitted s := Resting ctx s.connected .start
  head s h := ∃ t, Resting ctx s.connected t h
  unparsed s := Refused ctx s.connected
  read s := Read ctx s.command s.connected
  screened s := Screened ctx s.command s.connected
  ready s h := s.connected = true ∧ Screened ctx s.command true h
  passing s h := s.connected = true ∧ Screened ctx s.command true h
  refused s := Refused ctx s.connected
  final _ _ := Done ctx

theorem On.rest {last : Option (Exchange × SMTPResponse)} {b : Bool}
    (hs : On ctx (.idle last) t h) (hb : b = true) : Resting ctx b t h :=
  ⟨.idle last, hb, hs⟩

theorem Resting.hangUp (hs : Resting ctx true t h) :
    Resting ctx false t (⟨.deinit, ()⟩ :: h) := by
  obtain ⟨p, hp, hs⟩ := hs
  cases p with
  | idle last => exact ⟨.closed, rfl, hs.cons rfl rfl⟩
  | closed => cases hp
  | _ => exact hp.elim

section
variable {c : SMTPCommand} {b : Bool}

theorem Read.quiet (hs : Read ctx c b h) (he : Lockstep.quiet e) : Read ctx c b (e :: h) := by
  obtain ⟨l, hl, hparse⟩ := hs.resting
  exact ⟨l, hl.quiet he, hparse⟩

theorem Read.refused (hs : Read ctx c b h) : Refused ctx b h := by
  obtain ⟨l, hl, -⟩ := hs.resting
  exact ⟨.undecided l, nofun, hl⟩

theorem Read.done (hs : Read ctx c b h) : Done ctx h := by
  obtain ⟨l, hl, -⟩ := hs.resting
  exact hl.done

theorem Screened.quiet (hs : Screened ctx c b h) (he : Lockstep.quiet e) :
    Screened ctx c b (e :: h) :=
  ⟨hs.toRead.quiet he, hs.forwards⟩

theorem Refused.tell (hs : Refused ctx b h) {site : ReplySite} (hsite : site.own)
    (r : SMTPResponse) (x : Bool) : Resting ctx b .spoken (⟨.outReply site r, x⟩ :: h) := by
  obtain ⟨t, ht, hs⟩ := hs
  exact hs.tell ht hsite r x

/-- A command goes to the inside server. -/
theorem Screened.send (hs : Screened ctx c true h) (x : Bool) :
    On ctx (if x then .awaiting (.command c) else .failed) .passed
      (⟨.inWriteline (.command c), x⟩ :: h) := by
  obtain ⟨l, ⟨p, hp, hl⟩, hparse⟩ := hs.resting
  have hsingle : SingleLine c.string := singleLine_of_oneLine c.string_oneLine
  cases p with
  | idle last =>
    refine hl.cons ?_ (if_pos ⟨hparse, hs.forwards⟩)
    rw [Phase.step, Phase.send, if_pos hsingle, Option.map_some]
  | closed => cases hp
  | _ => exact hp.elim

end

theorem Read.counted {c : Counter} (hs : Read ctx s.command s.connected h) :
    Counted c ((outline ctx).upto ((outline ctx).land (outline ctx).screened)) .error s h :=
  ⟨(hs.quiet rfl).done, (hs.quiet rfl).refused⟩

theorem Screened.counted {c : Counter} (hs : Screened ctx s.command s.connected h) :
    Counted c ((outline ctx).upto ((outline ctx).land (outline ctx).screened)) .fall s h :=
  ⟨(hs.quiet rfl).done, hs.quiet rfl⟩

theorem rcpt_valid (hs : Screened ctx s.command s.connected h) :
    wp (rcpt ctx) ((outline ctx).upto ((outline ctx).land (outline ctx).screened)) s h := by
  have hverify : Screened ctx s.command s.connected
      (⟨.verifyaddress s.command.parameter.bytes, ()⟩ :: h) := hs.quiet rfl
  rw [wp_rcpt]
  split_ifs
  · exact hs.counted
  · have haccept : ∀ x, Screened ctx s.command s.connected
        (⟨.testacceptance s.command.parameter.bytes, x⟩ ::
          ⟨.verifyaddress s.command.parameter.bytes, ()⟩ :: h) := fun _ => hverify.quiet rfl
    refine ⟨(haccept _).done, Read.counted (haccept _).toRead, ?_⟩
    refine ⟨((haccept _).quiet rfl).done, fun verdict => ?_⟩
    cases verdict with
    | Accepted => exact Screened.counted ((haccept _).quiet rfl)
    | BlackListed =>
      simp only [Judged, wp_blackmessage]
      exact Screened.counted ((haccept _).quiet rfl)
    | GreyListed =>
      simp only [Judged, wp_greymessage]
      exact Screened.counted ((haccept _).quiet rfl)
  · exact Read.counted hverify.toRead

theorem screen_valid (hs : Read ctx s.command s.connected h) :
    wp (screen ctx) ((outline ctx).upto ((outline ctx).land (outline ctx).screened)) s h := by
  have hscreened : s.command.cmd ∉ [.HELP, .QUIT, .STARTTLS] →
      Screened ctx s.command s.connected h := fun hc => ⟨hs, hc⟩
  simp only [screen, wp_bind, wp_getState]
  cases hc : s.command.cmd with
  | HELP =>
    simp only [wp_bind, wp_respond, wp_writeoutside, wp_pure]
    exact ⟨(hs.refused.tell rfl _ false).done, _, hs.refused.tell rfl _ true⟩
  | QUIT => exact hs.done
  | STARTTLS =>
    simp only [wp_starttls]
    have hreply : Resting ctx s.connected .spoken (⟨.outReply .starttls (.set 220), true⟩ :: h) :=
      hs.refused.tell rfl _ true
    split_ifs with htls hsecure hconnected
    · exact hs.refused
    · refine ⟨(hs.refused.tell rfl _ false).done, (hreply.quiet rfl).done, .spoken, ?_⟩
      rw [hconnected] at hreply
      exact (hreply.quiet rfl).hangUp
    · refine ⟨(hs.refused.tell rfl _ false).done, (hreply.quiet rfl).done, .spoken, ?_⟩
      rw [Bool.not_eq_true] at hconnected
      rw [hconnected] at hreply
      exact hreply.quiet rfl
    · exact hs.refused
  | HELO | EHLO =>
    have hpass := hscreened (by simp [hc])
    simp only [wp_hello]
    split_ifs
    · exact hpass
    · exact hpass.quiet rfl
    · exact Read.counted (hs.quiet rfl)
  | MAIL =>
    have hpass := hscreened (by simp [hc])
    simp only [wp_mail]
    split_ifs
    · exact hpass
    · exact hpass
    · exact hpass.quiet rfl
    · exact Read.counted (hs.quiet rfl)
  | RCPT => exact rcpt_valid (hscreened (by simp [hc]))
  | DATA =>
    simp only [wp_data]
    split_ifs
    · exact hs.refused
    · exact hscreened (by simp [hc])
  | RSET => exact hscreened (by simp [hc])
  | VRFY | EXPN | NOOP | AUTH => exact hscreened (by simp [hc])

theorem connect_valid (hs : Screened ctx s.command s.connected h) :
    wp connectInside ((outline ctx).upto fun _ => (outline ctx).ready) s h := by
  rw [wp_connectInside]
  split_ifs with hconnected
  · rw [hconnected] at hs
    exact ⟨hconnected, hs⟩
  · rw [Bool.not_eq_true] at hconnected
    rw [hconnected] at hs
    obtain ⟨l, ⟨p, hp, hl⟩, hparse⟩ := hs.resting
    cases p with
    | closed =>
      have hdialled : On ctx .greeting (.undecided l) (⟨.connect, true⟩ :: h) := hl.cons rfl rfl
      have hfailed : On ctx .failed (.undecided l) (⟨.connect, false⟩ :: h) := hl.cons rfl rfl
      refine ⟨fun x => (hfailed.cons rfl rfl).done, fun e x => ?_, fun r => ?_⟩
      · have hlost : On ctx .failed (.undecided l)
            (⟨.readReply, .error e⟩ :: ⟨.connect, true⟩ :: h) := hdialled.cons rfl rfl
        exact (hlost.cons rfl rfl).done
      · have hgreeted : On ctx (.idle none) (.undecided l)
            (⟨.readReply, .ok r⟩ :: ⟨.connect, true⟩ :: h) := hdialled.cons rfl rfl
        split_ifs
        · exact ⟨rfl, ⟨l, hgreeted.rest rfl, hparse⟩, hs.forwards⟩
        · exact fun x => (hgreeted.cons rfl rfl).done
    | idle last => cases hp
    | _ => exact hp.elim

/-! ## The exchanges of a command -/

/-- A reply is read. -/
theorem On.receive {item : Exchange} {r : Reply} (hs : On ctx (.awaiting item) t h) :
    On ctx (.answered item r.response) t (⟨.readReply, .ok r⟩ :: h) :=
  hs.cons rfl rfl

theorem On.lose {item : Exchange} {x : ReadFailure} (hs : On ctx (.awaiting item) t h) :
    On ctx .failed t (⟨.readReply, .error x⟩ :: h) :=
  hs.cons rfl rfl

/-- The reply is passed on to the client. -/
theorem On.relay {item : Exchange} {reply r : SMTPResponse} {site : ReplySite}
    (hs : On ctx (.answered item reply) .passed h) (hr : item.answer ctx site reply = some r)
    (x : Bool) : On ctx (if x then .idle (some (item, reply)) else .failed) .passed
      (⟨.outReply site r, x⟩ :: h) := by
  have hsite : ¬ site.own := by
    rw [Exchange.answer_own hr]
    exact Bool.false_ne_true
  refine hs.cons ?_ (if_neg hsite)
  exact (if_neg hsite).trans (if_pos hr)

/-- The proxied exchange goes on while the inside server challenges. -/
theorem authExchange_valid (rounds : Nat) (hconnected : s.connected = true) {item : Exchange}
    {r : SMTPResponse} (hs : On ctx (.idle (some (item, r))) .passed h)
    (hchallenge : item.challenges r) : wp (authExchange rounds)
      ((outline ctx).upto ((outline ctx).land (outline ctx).passing)) s h := by
  simp only [authExchange, wp_bind, wp_getState, wp_ite, wp_pure, wp_update]
  refine wp_repeatUntil (fun s' h' => s'.connected = true ∧ ∃ item r, item.challenges r ∧
    On ctx (.idle (some (item, r))) .passed h') ?_ ?_ rounds _ _ ⟨hconnected, item, r, hchallenge, hs⟩
  · rintro s₁ h₁ ⟨hconnected₁, item₁, r₁, hchallenge₁, hs₁⟩
    rw [wp_authRound]
    refine ⟨fun e => (hs₁.quiet rfl).done, fun l => ?_⟩
    have hline : On ctx (.idle (some (item₁, r₁))) .passed (⟨.outReadline .authLine, .ok l⟩ :: h₁) :=
      hs₁.quiet rfl
    have hsend : ∀ x, On ctx (if x then .awaiting (.authLine l) else .failed) .passed
        (⟨.inWriteline (.authLine l), x⟩ :: ⟨.outReadline .authLine, .ok l⟩ :: h₁) := by
      intro x
      refine hline.cons ?_ rfl
      rw [Phase.step, Phase.send, if_pos ⟨hchallenge₁, singleLine_of_oneLine l.oneLine⟩,
        Option.map_some]
    refine ⟨(hsend false).done, fun e => (hsend true).lose.done, fun r => ?_⟩
    have hanswer : (Exchange.authLine l).answer ctx .proxiedAuth r.response = some r.response := rfl
    have hrelay := (hsend true).receive.relay hanswer
    refine ⟨(hrelay false).done, ?_⟩
    by_cases hcode : r.response.code = 334
    · rw [if_pos hcode]
      exact ⟨hconnected₁, .authLine l, r.response, by simpa [Exchange.challenges] using hcode, hrelay true⟩
    · rw [if_neg hcode]
      dsimp only
      split_ifs
      · exact ⟨.passed, (hrelay true).rest hconnected₁⟩
      · exact ⟨.passed, (hrelay true).rest hconnected₁⟩
  · rintro s₁ h₁ ⟨-, item₁, r₁, -, hs₁⟩
    exact hs₁.done

theorem Refused.conversation {b : Bool} {h' : Log} (hs : Refused ctx b h)
    (hh : Extends isConversation h h') : Refused ctx b h' := by
  refine hh.invariant (fun e past he hpast => ?_) hs
  revert e
  refine forall_conversation (fun r x => ⟨.spoken, nofun, hpast.tell rfl r x⟩) (fun x => ?_)
    fun u p x => ?_
  · obtain ⟨t, ht, hpast⟩ := hpast
    exact ⟨t, ht, hpast.quiet rfl⟩
  · obtain ⟨t, ht, hpast⟩ := hpast
    exact ⟨t, ht, hpast.quiet rfl⟩

theorem Refused.done {b : Bool} (hs : Refused ctx b h) : Done ctx h := by
  obtain ⟨t, -, hs⟩ := hs
  exact hs.done

theorem auth_valid (rounds : Nat) (hs : s.connected = true ∧ Screened ctx s.command true h) :
    wp (auth ctx rounds) ((outline ctx).upto ((outline ctx).land (outline ctx).passing)) s h := by
  obtain ⟨hconnected, hs⟩ := hs
  have hrefused : Refused ctx s.connected h := by
    rw [hconnected]
    exact hs.refused
  rw [wp_auth]
  split_ifs with hc
  · cases ctx.settings.externalauthmode with
    | NoAuth => exact hrefused
    | ProxyAuth =>
      dsimp only
      rw [wp_proxyAuth]
      refine ⟨(hs.send false).done, fun e => (hs.send true).lose.done, fun r => ?_⟩
      have hanswer : (Exchange.command s.command).answer ctx .proxiedAuth r.response
          = some r.response := if_pos hc
      have hrelay := (hs.send true).receive.relay hanswer
      refine ⟨(hrelay false).done, ?_⟩
      split_ifs with hcode
      · exact authExchange_valid rounds hconnected (hrelay true) (by simp [Exchange.challenges, hc, hcode])
      · exact ⟨.passed, (hrelay true).rest hconnected⟩
    | InternalAuth =>
      refine internalAuth_wp ?_ ?_ ?_ ?_
      · intro _
        exact hrefused
      · intro e h' _ hh
        exact (hrefused.conversation hh).done
      · intro code h' _ _ hh
        exact hrefused.conversation hh
      · intro username password n h' _ _ _ hh
        obtain ⟨t, ht, hs'⟩ := hrefused.conversation hh
        have hfound : Refused ctx s.connected (⟨.users username password, some n⟩ :: h') :=
          ⟨t, ht, hs'.quiet rfl⟩
        exact ⟨(hfound.tell rfl _ false).done, .spoken, hfound.tell rfl _ true⟩
  · exact ⟨hconnected, hs⟩

/-! ## The message -/

theorem tweak_code (ctx : Context) (cmd : Verb) (r : SMTPResponse) : (tweak ctx cmd r).code = r.code := by
  rw [tweak]
  split
  · rfl
  · rfl

/-- The header is written after an accepted DATA, and then line after line until
the dot; the message is one item. -/
theorem transfer_valid (rounds : Nat) (hconnected : s.connected = true) {item : Exchange}
    {r : SMTPResponse} (hs : On ctx (.idle (some (item, r))) .passed h) (hinvites : item.invites r) :
    wp (transfer ctx rounds) ((outline ctx).upto fun _ => (outline ctx).head) s h := by
  simp only [transfer, wp_bind, wp_getState, wp_inWriteline, wp_readinside, wp_writeoutside]
  refine getname_wp fun name h₁ hh₁ => getname_wp fun name' h₂ hh₂ => ?_
  have hnamed := hs.extends (hh₁.trans hh₂) (forall_lookup fun _ => rfl)
  have hheader : ∀ bytes x, On ctx (if x then .body else .failed) .passed
      (⟨.inWriteline (.header bytes), x⟩ :: h₂) := by
    intro bytes x
    refine hnamed.cons ?_ rfl
    rw [Phase.step, Phase.send, if_pos hinvites, Option.map_some]
  refine ⟨(hheader _ false).done, ?_⟩
  refine wp_repeatUntil (fun s' h' => s'.connected = true ∧ On ctx .body .passed h') ?_ ?_ rounds
    _ _ ⟨hconnected, hheader _ true⟩
  · rintro s₃ h₃ ⟨hconnected₃, hs₃⟩
    simp only [bodyRound, wp_bind, wp_outReadline, wp_inWriteline, wp_ite, wp_pure]
    refine ⟨fun e => (hs₃.quiet rfl).done, fun l => ?_⟩
    have hline : On ctx .body .passed (⟨.outReadline .bodyLine, .ok l⟩ :: h₃) := hs₃.quiet rfl
    have hsend : ∀ x, On ctx
        (if x then (if l.bytes = text "." then .awaiting .message else .body) else .failed) .passed
        (⟨.inWriteline (.bodyLine l), x⟩ :: ⟨.outReadline .bodyLine, .ok l⟩ :: h₃) :=
      fun x => hline.cons rfl rfl
    refine ⟨(hsend false).done, ?_⟩
    have hsent := hsend true
    rw [if_pos rfl] at hsent
    split_ifs at hsent ⊢
    · refine ⟨fun e => hsent.lose.done, fun r' => ?_⟩
      have hanswer : Exchange.message.answer ctx .bodyResult r'.response = some r'.response := rfl
      have hrelay := hsent.receive.relay hanswer
      exact ⟨(hrelay false).done, .passed, (hrelay true).rest hconnected₃⟩
    · exact ⟨hconnected₃, hsent⟩
  · rintro s₃ h₃ ⟨-, hs₃⟩
    exact hs₃.done

theorem forward_valid (rounds : Nat) (hs : s.connected = true ∧ Screened ctx s.command true h) :
    wp (forward ctx rounds) ((outline ctx).upto ((outline ctx).land (outline ctx).head)) s h := by
  obtain ⟨hconnected, hs⟩ := hs
  rw [wp_forward]
  refine ⟨(hs.send false).done, fun e => (hs.send true).lose.done, fun r => ?_⟩
  have hanswer : (Exchange.command s.command).answer ctx .relay r.response
      = some (tweak ctx s.command.cmd r.response) := rfl
  have hrelay := (hs.send true).receive.relay hanswer
  refine ⟨(hrelay false).done, ?_⟩
  split_ifs
  · exact (hrelay true).done
  rw [wp_deliver]
  generalize htweak : tweak ctx s.command.cmd r.response = response at hrelay ⊢
  have hcode : response.code = r.response.code := by rw [← htweak, tweak_code]
  cases hc : s.command.cmd with
  | DATA =>
    dsimp only
    split_ifs with hsuccess
    · have haccepted : r.response.issuccess = true := by
        rw [SMTPResponse.issuccess, ← hcode]
        exact hsuccess
      have hinvites : (Exchange.command s.command).invites r.response := by
        simp [Exchange.invites, hc, haccepted]
      refine wp_mono (transfer_valid rounds hconnected (hrelay true) hinvites) fun r' s' h' hr' => ?_
      cases r' with
      | error e => exact hr'
      | ok _ => exact hr'
    · exact ⟨.passed, (hrelay true).rest hconnected⟩
  | QUIT => exact (hrelay true).done
  | _ => exact ⟨.passed, (hrelay true).rest hconnected⟩

theorem valid (ctx : Context) (rounds : Nat) : (outline ctx).Valid ctx rounds where
  unknown := by
    have hstart : On ctx .closed .start [] := ⟨Monitor.at_nil _, Monitor.at_nil _⟩
    exact (hstart.quiet rfl).done
  start trusted := by
    have hstart : On ctx .closed .start [] := ⟨Monitor.at_nil _, Monitor.at_nil _⟩
    exact ⟨.closed, rfl, hstart.quiet rfl⟩
  door s h hs := by
    obtain ⟨p, hp, hs⟩ := hs
    refine Outline.door_upto fun d h' hh => ?_
    have hlater := hs.extends hh (forall_door (fun _ _ => rfl) (fun _ _ => rfl) fun _ _ => rfl)
    exact ⟨fun _ => hlater.done, ⟨.start, nofun, p, hp, hlater⟩, p, hp, hlater⟩
  banner s h hs := by
    rw [wp_writeoutside]
    exact ⟨(hs.tell nofun rfl _ false).done, .spoken, hs.tell nofun rfl _ true⟩
  head s h hs := by
    obtain ⟨t, hs⟩ := hs
    exact hs.done
  read s h hs := by
    obtain ⟨t, hs⟩ := hs
    rw [wp_nextCommand]
    refine ⟨fun e => (hs.quiet rfl).done, fun l => ?_⟩
    cases hset : s.command.set l with
    | none => exact ⟨.undecided l, nofun, hs.readline l⟩
    | some c => exact ⟨l, hs.readline l, SMTPCommand.set_some hset⟩
  syntaxError s h hs := by
    rw [wp_writeoutside]
    refine ⟨(hs.tell rfl _ false).done, ?_⟩
    split_ifs
    · exact (hs.tell rfl _ true).done
    · exact ⟨.spoken, hs.tell rfl _ true⟩
  screen s h hs := screen_valid hs
  connect s h hs := connect_valid hs
  auth s h hs := auth_valid rounds hs
  forward s h hs := forward_valid rounds hs
  error s h hs := by
    rw [wp_errorLabel]
    refine ⟨(hs.tell rfl _ false).done, ?_⟩
    split_ifs
    · exact (hs.tell rfl _ true).done
    · exact ⟨.spoken, hs.tell rfl _ true⟩

end Lockstep

end Spey
