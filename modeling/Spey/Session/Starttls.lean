import Spey.Session.Coupled
import Spey.Session.Reached
import Spey.World

/-!
# What STARTTLS leaves of a session

A handshake drops the inside connection and clears the flags of the session, but
not the sender of the last MAIL line. Two sessions that have just been secured go
on alike, whatever happens to them, exactly where they remember the same sender
and the client is trusted in both or in neither.
-/

namespace Spey

open Interaction Interaction.Action

/-- The session is at the head of its loop, in the state `s`, after `h`. -/
inductive AtHead (ctx : Context) (rounds : Nat) : Session → Log → Prop
  | opening {s : Session} {h : Log} : (opening ctx).Ends {} [] (.ok ()) s h → AtHead ctx rounds s h
  | round {s s' : Session} {h h' : Log} : AtHead ctx rounds s h →
      (command ctx rounds >>= settle ctx).Ends s h (.ok none) s' h' → AtHead ctx rounds s' h'

/-- The last thing that happened is a handshake, with the inside connection dropped
after it where there was one. -/
def JustHandshaken : Log → Prop
  | [] => False
  | e :: past => handshakes e ∨ dropped e past

instance (h : Log) : Decidable (JustHandshaken h) :=
  match h with
  | [] => isFalse id
  | e :: past => inferInstanceAs (Decidable (handshakes e ∨ dropped e past))

/-- STARTTLS has just succeeded. -/
structure JustSecured (ctx : Context) (rounds : Nat) (s : Session) (h : Log) : Prop where
  head : AtHead ctx rounds s h
  handshaken : JustHandshaken h

/-- What the client, the inside server and the greylist see of a session. -/
inductive Sight where
  | reply (r : Bytes)
  | inside (line : Bytes)
  | greylist (sender : UInt32) (fromaddress toaddress : Bytes)

@[simp] def sight : Event Ans → Option Sight
  | ⟨.outReply _ r, _⟩ => some (.reply r.string)
  | ⟨.inWriteline item, _⟩ => some (.inside item.string)
  | ⟨.greylist sender fromaddress toaddress, _⟩ => some (.greylist sender fromaddress toaddress)
  | _ => none

/-- The inside server is sent bytes, and answers to them. -/
def Wired {W : Type} (env : (c : Call) → W → Ans c × W) : Prop :=
  ∀ (c c' : SMTPCommand) (w : W), c'.string = c.string →
    env (.inWriteline (.command c')) w = env (.inWriteline (.command c)) w

/-- Whatever the sessions are answered from here on, the same is seen of both. -/
def SameFuture (ctx : Context) (s₁ s₂ : Session) : Prop :=
  ∀ (W : Type) (env : (c : Call) → W → Ans c × W) (w : W) (rounds : Nat), Wired env →
    ((session ctx rounds).run env s₁ w).2.2.filterMap sight =
      ((session ctx rounds).run env s₂ w).2.2.filterMap sight

namespace Starttls

variable {ctx : Context} {rounds left : Nat} {s s₁ s₂ : Session} {h : Log}

/-- The head of the loop is a place of the machine, with any number of rounds left. -/
theorem head_on (hs : AtHead ctx rounds s h) (left : Nat) :
    ∃ start, (machine ctx rounds).On (initial start) (.again s left) h := by
  induction hs generalizing left with
  | opening hends =>
    obtain ⟨c, rfl, hc⟩ := follows_ends Refines.opening_follows .start hends
    exact ⟨left, hc⟩
  | round _ hends ih =>
    obtain ⟨start, hon⟩ := ih (left + 1)
    obtain ⟨c, rfl, hc⟩ := follows_ends Refines.round_follows hon hends
    exact ⟨start, hc⟩

/-- A handshake resets the flags. -/
theorem handshake_step (c : Config) : (machine ctx rounds c).All fun e c' =>
    handshakes e → ∃ s, c'.session = Config.secured s := by
  obtain ⟨point, s, left⟩ := c
  cases point with
  | handshake =>
    intro done he
    cases done with
    | false => cases he
    | true =>
      refine ⟨s, ?_⟩
      show (if s.connected then _ else _ : Config).session = _
      split_ifs
      · rfl
      · exact Config.again_meets (P := fun _ s' => s' = Config.secured s) rfl rfl
  | finished r => trivial
  | _ => exact fun _ he => absurd he Bool.false_ne_true

/-- The inside connection is dropped and nothing else. -/
theorem hangUp_step (c : Config) : (machine ctx rounds c).All fun e c' =>
    disconnects e → c'.session = c.session := by
  obtain ⟨point, s, left⟩ := c
  cases point with
  | hangUp => exact fun _ _ => Config.again_meets (P := fun _ s' => s' = s) rfl rfl
  | finished r => trivial
  | _ => exact fun _ he => absurd he Bool.false_ne_true

/-- What a step of a run has led to. -/
theorem on_cons {P : Config → Event Ans → Config → Prop} {start c : Config} {e : Event Ans}
    (hP : ∀ c, (machine ctx rounds c).All (P c)) (hc : (machine ctx rounds).On start c (e :: h)) :
    ∃ c₀, (machine ctx rounds).On start c₀ h ∧ P c₀ e c := by
  cases hc with
  | @step c₀ _ _ _ hc hnode x =>
    have hall := hP c₀
    rw [hnode] at hall
    exact ⟨c₀, hc, hall x⟩

/-- The flags of a session that has just been secured. -/
theorem secured_session (hs : JustSecured ctx rounds s h) : ∃ s₀, s = Config.secured s₀ := by
  obtain ⟨start, hc⟩ := head_on hs.head 1
  have hlast := hs.handshaken
  cases h with
  | nil => exact absurd hlast id
  | cons e past =>
    rcases hlast with he | ⟨hdrop, hshake⟩
    · obtain ⟨-, -, hsecured⟩ := on_cons handshake_step hc
      exact hsecured he
    · obtain ⟨c, hc', hsame⟩ := on_cons hangUp_step hc
      cases past with
      | nil => cases hshake
      | cons e' past =>
        obtain ⟨-, -, hsecured⟩ := on_cons handshake_step hc'
        obtain ⟨s₀, hs₀⟩ := hsecured (by simpa using hshake)
        exact ⟨s₀, (hsame hdrop).trans hs₀⟩

/-- No sender is remembered of a trusted client. -/
def Forgets (c : Config) : Prop := c.session.trusted = true → c.session._from.bytes = []

/-- A command of a trusted client is not looked at. -/
theorem sender_trusted (htrusted : s.trusted = true) (hfrom : s._from.bytes = []) :
    (Config.sender s).bytes = [] := by
  have hexempt : s.exempt = true := by simp [Session.exempt, htrusted]
  unfold Config.sender
  cases s.command.cmd with
  | MAIL =>
    dsimp only
    rw [if_pos hexempt]
    exact hfrom
  | RSET => rfl
  | _ => exact hfrom

theorem forgets_read (hs : Forgets ⟨.head, s, left⟩) :
    (machine ctx rounds ⟨.head, s, left⟩).All fun _ c' => Forgets c' := by
  intro line
  cases line with
  | error e => exact hs
  | ok l =>
    show Forgets (Config.parsed ctx s left l)
    unfold Config.parsed
    cases s.command.set l with
    | none => exact hs
    | some c =>
      intro htrusted
      have halike : Config.Alike _ (Config.dispatch ctx { s with command := c } left).session :=
        Config.dispatch_alike
      obtain ⟨r, d, hc'⟩ := halike
      rw [hc'] at htrusted ⊢
      exact sender_trusted (s := { s with command := c }) htrusted (hs htrusted)

theorem forgets_step {c : Config} (hk : Known ctx c h) (hs : Forgets c) :
    (machine ctx rounds c).All fun _ c' => Forgets c' := by
  by_cases hhead : c.point = .head
  · obtain ⟨point, s, left⟩ := c
    obtain rfl : point = .head := hhead
    exact forgets_read hs
  have hfrom := Config.from_step ctx rounds hhead
  by_cases hopening : c.point = .opening
  · have hempty : c.session._from.bytes = [] := by
      obtain ⟨point, s, left⟩ := c
      obtain rfl : point = .opening := hopening
      obtain ⟨rfl, -⟩ : s = {} ∧ h = [] := hk.here
      rfl
    apply hfrom.mono
    intro _ c' hfrom _
    rw [hfrom]
    exact hempty
  · apply (hfrom.and (Config.trusted_step ctx rounds hopening)).mono
    intro _ c' hkept htrusted
    rw [hkept.1]
    exact hs (hkept.2 ▸ htrusted)

theorem forgets {start : Nat} {c : Config} (hc : (machine ctx rounds).On (initial start) c h) :
    Forgets c := by
  refine hc.strengthen (I := fun c _ => Forgets c) known (fun htrusted => ?_) fun c h hk hs => ?_
  · exact absurd htrusted Bool.false_ne_true
  · exact (forgets_step hk hs).mono fun _ _ hs _ => hs

/-- Programs that follow the machine end where it has ended. -/
theorem ends_finished {ctx : Context} {rounds : Nat} {a : Except Exn Unit × Session} {c : Config}
    (hend : Refines.ends a.1 a.2 c) : ∃ r, machine ctx rounds c = .finished r := by
  obtain ⟨point, s, left⟩ := c
  obtain ⟨rfl, rfl⟩ := hend
  exact ⟨_, rfl⟩

theorem respected {W : Type} {env : (c : Call) → W → Ans c × W} (henv : Wired env) :
    SameBytes.Respected env := by
  intro e₁ e₂ f hK w
  cases hK with
  | refl => rfl
  | command hstring => exact henv _ _ w hstring

/-- Alike events look the same. -/
theorem sight_eq (e₁ e₂ : Event Ans) (he : Likeness.Events SameBytes e₁ e₂) : sight e₁ = sight e₂ := by
  cases he with
  | mk hK x =>
    cases hK with
    | refl e => rfl
    | command hstring => exact congrArg (fun b => some (Sight.inside b)) hstring.symm

/-- Two sessions that were just secured, with the same sender and the same trust, are
coupled: what else they keep is cleared, or is not looked at again. -/
theorem secured_akin (hfrom : s₁._from = s₂._from) (htrusted : s₁.trusted = s₂.trusted)
    (rounds : Nat) : Config.Akin (.again (Config.secured s₁) rounds)
      (.again (Config.secured s₂) rounds) := by
  obtain ⟨from₁, c₁, r₁, secure₁, d₁, errorstate₁, connected₁, authenticated₁, trusted₁⟩ := s₁
  obtain ⟨from₂, c₂, r₂, secure₂, d₂, errorstate₂, connected₂, authenticated₂, trusted₂⟩ := s₂
  obtain rfl : from₁ = from₂ := hfrom
  obtain rfl : trusted₁ = trusted₂ := htrusted
  have hd : Config.Defers (Config.secured ⟨from₁, c₁, r₁, secure₁, d₁, errorstate₁, connected₁,
      authenticated₁, trusted₁⟩) d₂ := fun h => absurd h Bool.false_ne_true
  exact Config.again_akin (c := c₂) (r := r₂) hd

theorem sameFuture (ctx : Context) (hfrom : s₁._from = s₂._from) (htrusted : s₁.trusted = s₂.trusted) :
    SameFuture ctx (Config.secured s₁) (Config.secured s₂) := by
  intro W env w rounds henv
  apply Likeness.filterMap_eq sight_eq
  exact Program.Follows.run_like (Config.machine_coupled ctx rounds) (respected henv)
    (fun _ _ => ends_finished) (Refines.session_follows rounds) (Refines.session_follows rounds)
    (secured_akin hfrom htrusted rounds) .nil

/-! ## One recipient tells them apart -/

def recipientLine : Line := ⟨text "RCPT TO:<c@d>", by decide⟩

/-- A client that names a recipient, on a database that then fails. -/
def probe (c : Call) (_ : Unit) : Ans c × Unit := (match c with
  | .outReadline _ => .ok recipientLine
  | .greylist _ _ _ => none
  | .count _ => false
  | c => World.allow .Accepted c, ())

theorem probe_wired : Wired probe := fun _ _ _ _ => rfl

/-- From the configuration `c`, the history `h` becomes `h'`. -/
def Probed (ctx : Context) (c : Config) (h h' : Log) : Prop :=
  ∀ p : Program Call Ans (Except Exn Unit × Session),
    p.Follows (machine ctx 1) (fun a c' => Refines.ends a.1 a.2 c') c → (p.run probe () h).2.2 = h'

theorem probed_finished {r : Except Exn Unit} : Probed ctx ⟨.finished r, s, left⟩ h h :=
  fun _ hp => hp.run_finished probe () h rfl

theorem probed_call {c : Config} {e : Call} {next : Ans e → Config} {h' : Log}
    (hc : machine ctx 1 c = .call e next)
    (hnext : Probed ctx (next (probe e ()).1) (⟨e, (probe e ()).1⟩ :: h) h') : Probed ctx c h h' := by
  intro p hp
  obtain ⟨q, hq, hrun⟩ := hp.run_call probe () h hc fun _ _ => ends_finished
  rw [hrun]
  exact hnext q hq

theorem recipient_command (c : SMTPCommand) : ∃ c', c.set recipientLine = some c' ∧ c'.cmd = .RCPT ∧
    c'.parameter.bytes = text "c@d" := by
  have hparse : SMTPCommand.parse recipientLine.bytes = some (.RCPT, some (text "c@d")) := by
    decide +kernel
  obtain ⟨c', hset⟩ := SMTPCommand.set_of_parse hparse c
  have hparsed := SMTPCommand.set_some hset
  rw [hparse] at hparsed
  obtain ⟨hcmd, harg⟩ := Prod.mk.inj (Option.some.inj hparsed)
  rw [SMTPCommand.argument, ← hcmd] at harg
  exact ⟨c', hset, hcmd.symm, (Option.some.inj harg).symm⟩

/-- The recipient of a trusted client is not looked at. -/
theorem probed_accepted : Probed ctx ⟨.counting .accepted true, s, left⟩ h
    (⟨.count .accepted, false⟩ :: h) :=
  probed_call rfl probed_finished

/-- Another client's recipient is greylisted with the sender. -/
theorem probed_recipient (haddress : byte '@' ∈ s.command.parameter.bytes) :
    Probed ctx ⟨.recipient, s, left⟩ h
      (⟨.greylist (network24 ctx.address) s._from.bytes s.command.parameter.bytes, none⟩ ::
        ⟨.testacceptance s.command.parameter.bytes, some true⟩ ::
        ⟨.verifyaddress s.command.parameter.bytes, ()⟩ :: h) := by
  apply probed_call rfl
  show Probed ctx (if byte '@' ∈ s.command.parameter.bytes then _ else _) _ _
  rw [if_pos haddress]
  apply probed_call rfl
  exact probed_call rfl probed_finished

/-- A session that is not authenticated shows its sender, unless the client is trusted. -/
theorem probed (ctx : Context) (hs : s.authenticated = false) :
    ((session ctx 1).run probe s ()).2.2.filterMap sight =
      if s.trusted then [] else [.greylist (network24 ctx.address) s._from.bytes (text "c@d")] := by
  obtain ⟨c, hset, hcmd, hparameter⟩ := recipient_command s.command
  have hexempt : ({ s with command := c } : Session).exempt = s.trusted := by
    simp [Session.exempt, hs]
  have hparsed : Config.parsed ctx s 0 recipientLine = if s.trusted
      then ⟨.counting .accepted true, { s with command := c }, 0⟩
      else ⟨.recipient, { s with command := c }, 0⟩ := by
    unfold Config.parsed Config.dispatch
    rw [hset]
    dsimp only
    rw [hcmd, hexempt]
  have hrun : ∀ {h'}, Probed ctx (Config.parsed ctx s 0 recipientLine)
      [⟨.outReadline .command, .ok recipientLine⟩] h' → ((session ctx 1).run probe s ()).2.2 = h' :=
    fun hp => probed_call rfl hp _ (Refines.session_follows 1)
  rw [hparsed] at hrun
  cases htrusted : s.trusted with
  | true =>
    rw [htrusted, if_pos rfl] at hrun
    rw [hrun probed_accepted]
    rfl
  | false =>
    rw [htrusted, if_neg Bool.false_ne_true] at hrun
    have haddress : byte '@' ∈ c.parameter.bytes := by
      rw [hparameter]
      decide
    rw [hrun (probed_recipient haddress), ← hparameter]
    rfl

/-- What the recipient shows of two sessions. -/
theorem shown_eq {trusted₁ trusted₂ : Bool} {a : UInt32} {from₁ from₂ recipient : Bytes}
    (hsame : (if trusted₁ then [] else [Sight.greylist a from₁ recipient]) =
      if trusted₂ then [] else [Sight.greylist a from₂ recipient]) :
    trusted₁ = trusted₂ ∧ (trusted₁ = false → from₁ = from₂) := by
  cases trusted₁ with
  | true =>
    cases trusted₂ with
    | true => exact ⟨rfl, fun h => absurd h.symm Bool.false_ne_true⟩
    | false => cases hsame
  | false =>
    cases trusted₂ with
    | true => cases hsame
    | false =>
      cases hsame
      exact ⟨rfl, fun _ => rfl⟩

/-- Secured sessions that go on alike have the same sender and the same trust. -/
theorem same_of_future (hfuture : SameFuture ctx (Config.secured s₁) (Config.secured s₂))
    (h₁ : s₁.trusted = true → s₁._from.bytes = []) (h₂ : s₂.trusted = true → s₂._from.bytes = []) :
    s₁._from = s₂._from ∧ s₁.trusted = s₂.trusted := by
  have hsights := hfuture Unit probe () 1 probe_wired
  rw [probed ctx rfl, probed ctx rfl] at hsights
  obtain ⟨htrusted, hfrom⟩ := shown_eq hsights
  have htrusted : s₁.trusted = s₂.trusted := htrusted
  have hbytes : s₁._from.bytes = s₂._from.bytes := by
    cases ht : s₁.trusted with
    | true => rw [h₁ ht, h₂ (htrusted ▸ ht)]
    | false => exact hfrom ht
  exact ⟨Line.eq_of_bytes hbytes, htrusted⟩

end Starttls

/-- Two sessions that have just been secured go on alike exactly where they remember
the same sender and the client is trusted in both or in neither. -/
theorem secured_alike_iff (ctx : Context) {rounds₁ rounds₂ : Nat} {s₁ s₂ : Session} {h₁ h₂ : Log}
    (hs₁ : JustSecured ctx rounds₁ s₁ h₁) (hs₂ : JustSecured ctx rounds₂ s₂ h₂) :
    SameFuture ctx s₁ s₂ ↔ s₁._from = s₂._from ∧ s₁.trusted = s₂.trusted := by
  obtain ⟨_, hon₁⟩ := Starttls.head_on hs₁.head 1
  obtain ⟨_, hon₂⟩ := Starttls.head_on hs₂.head 1
  have hforgets₁ : s₁.trusted = true → s₁._from.bytes = [] := Starttls.forgets hon₁
  have hforgets₂ : s₂.trusted = true → s₂._from.bytes = [] := Starttls.forgets hon₂
  obtain ⟨s₁, rfl⟩ := Starttls.secured_session hs₁
  obtain ⟨s₂, rfl⟩ := Starttls.secured_session hs₂
  constructor
  · intro hfuture
    exact Starttls.same_of_future hfuture hforgets₁ hforgets₂
  · intro hsame
    exact Starttls.sameFuture ctx hsame.1 hsame.2

/-- The session against a world, at the head of its loop after `n` rounds. -/
def World.atHead (w : World) (ctx : Context) (rounds : Nat) : Nat → Option (Session × World × Log)
  | 0 =>
      match (opening ctx).run World.answer {} w with
      | ((.ok _, s), w', h) => some (s, w', h)
      | _ => none
  | n + 1 => do
      let (s, w', h) ← w.atHead ctx rounds n
      match ((command ctx rounds >>= settle ctx) s).run World.answer w' h with
      | ((.ok none, s'), w'', h') => some (s', w'', h')
      | _ => none

theorem World.atHead_some {w w' : World} {ctx : Context} {rounds n : Nat} {s : Session} {h : Log}
    (hw : w.atHead ctx rounds n = some (s, w', h)) : AtHead ctx rounds s h := by
  induction n generalizing w' s h with
  | zero =>
    have hends := ends_run World.answer (opening ctx) {} w
    unfold World.atHead at hw
    split at hw
    next s' w'' h' heq =>
      rw [heq] at hends
      cases hw
      exact .opening hends
    next => cases hw
  | succ n ih =>
    unfold World.atHead at hw
    obtain ⟨⟨s₀, w₀, h₀⟩, hw₀, hw⟩ := Option.bind_eq_some_iff.mp hw
    have hends := Program.reaches_run World.answer ((command ctx rounds >>= settle ctx) s₀) w₀ h₀
    dsimp only at hw
    split at hw
    next s' w'' h' heq =>
      rw [heq] at hends
      cases hw
      exact .round (ih hw₀) hends
    next => cases hw

/-- A client that names a sender before STARTTLS. -/
def namedSender : World := .ofLines .Accepted
  ["HELO a.b", "MAIL FROM:<a@b>", "STARTTLS"] ["220 in", "250 ok", "250 ok"]

/-- A client that begins with STARTTLS. -/
def freshClient : World := .ofLines .Accepted ["STARTTLS"] []

/-- What the two of them keep. -/
def World.kept (w : World) (n : Nat) : Option (Bytes × Bool) :=
  (w.atHead (.sample 0 .NoAuth) 9 n).bind fun (s, _, h) =>
    if JustHandshaken h then some (s._from.bytes, s.trusted) else none

theorem World.kept_some {w : World} {n : Nat} {a : Bytes} {trusted : Bool}
    (hw : w.kept n = some (a, trusted)) :
    ∃ s h, JustSecured (.sample 0 .NoAuth) 9 s h ∧ s._from.bytes = a ∧ s.trusted = trusted := by
  obtain ⟨⟨s, w', h⟩, hhead, hkept⟩ := Option.bind_eq_some_iff.mp hw
  dsimp only at hkept
  split_ifs at hkept with hshake
  cases hkept
  exact ⟨s, h, ⟨World.atHead_some hhead, hshake⟩, rfl, rfl⟩

/-- The sender that was named in the clear is still there when the session is secured. -/
theorem sender_outlives_handshake : ¬ ∀ (ctx : Context) (rounds₁ rounds₂ : Nat) (s₁ s₂ : Session)
    (h₁ h₂ : Log), JustSecured ctx rounds₁ s₁ h₁ → JustSecured ctx rounds₂ s₂ h₂ →
      SameFuture ctx s₁ s₂ := by
  intro hall
  have hnamed : namedSender.kept 3 = some (text "a@b", false) := by decide +kernel
  have hfresh : freshClient.kept 1 = some ([], false) := by decide +kernel
  obtain ⟨s₁, h₁, hs₁, hfrom₁, ht₁⟩ := World.kept_some hnamed
  obtain ⟨s₂, h₂, hs₂, hfrom₂, ht₂⟩ := World.kept_some hfresh
  have hfuture := hall _ 9 9 s₁ s₂ h₁ h₂ hs₁ hs₂
  have hnot : ∀ {s : Session}, s.trusted = false → s.trusted = true → s._from.bytes = [] :=
    fun hfalse htrue => absurd (hfalse.symm.trans htrue) Bool.false_ne_true
  have hforgets₁ := hnot ht₁
  have hforgets₂ := hnot ht₂
  obtain ⟨s₁, rfl⟩ := Starttls.secured_session hs₁
  obtain ⟨s₂, rfl⟩ := Starttls.secured_session hs₂
  obtain ⟨hfrom, -⟩ := Starttls.same_of_future hfuture hforgets₁ hforgets₂
  have hbytes : (Config.secured s₁)._from.bytes = (Config.secured s₂)._from.bytes :=
    congrArg Line.bytes hfrom
  rw [hfrom₁, hfrom₂] at hbytes
  exact absurd hbytes (by decide)

/-- A client that takes back the sender it has named. -/
def takenBack : World := .ofLines .Accepted
  ["HELO a.b", "MAIL FROM:<a@b>", "RSET", "STARTTLS"] ["220 in", "250 ok", "250 ok", "250 ok"]

theorem takenBack_alike : ∃ s₁ s₂ h₁ h₂, JustSecured (.sample 0 .NoAuth) 9 s₁ h₁ ∧
    JustSecured (.sample 0 .NoAuth) 9 s₂ h₂ ∧ SameFuture (.sample 0 .NoAuth) s₁ s₂ := by
  have htaken : takenBack.kept 4 = some ([], false) := by decide +kernel
  have hfresh : freshClient.kept 1 = some ([], false) := by decide +kernel
  obtain ⟨s₁, h₁, hs₁, hfrom₁, ht₁⟩ := World.kept_some htaken
  obtain ⟨s₂, h₂, hs₂, hfrom₂, ht₂⟩ := World.kept_some hfresh
  have hfrom : s₁._from = s₂._from := Line.eq_of_bytes (hfrom₁.trans hfrom₂.symm)
  have hsame := (secured_alike_iff (.sample 0 .NoAuth) hs₁ hs₂).mpr ⟨hfrom, ht₁.trans ht₂.symm⟩
  exact ⟨s₁, s₂, h₁, h₂, hs₁, hs₂, hsame⟩

end Spey
