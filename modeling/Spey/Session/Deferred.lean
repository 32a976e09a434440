import Spey.Session.Reached
import Spey.World

/-!
# The deferred refusal

A verdict of `greylist` is kept in `errorstate` until a DATA command comes, and
only a reply of the `error:` label or a handshake takes it back. So DATA is
refused for a verdict exactly where one is left, whatever has happened between:
a new transaction does not take it back, and neither does authentication.
-/

namespace Spey

open Interaction

/-- A DATA line is read. -/
@[simp] def readsData (e : Event Ans) : Prop := commandVerb e = some .DATA
  deriving Decidable

/-- A command is refused because of a verdict. -/
@[simp] def refusesByVerdict (ctx : Context) : Event Ans → Bool
  | ⟨.outReply .refusal r, _⟩ => Verdict ctx r
  | _ => false

namespace Deferred

variable {ctx : Context} {rounds : Nat} {X : Log → Prop}

/-- Whatever is refused because of a verdict, `X` holds. -/
def refusing (ctx : Context) (X : Log → Prop) (e : Event Ans) (past : Log) : Prop :=
  refusesByVerdict ctx e → X past

/-- Where DATA is read and a verdict is left, `X` holds. -/
def standing (X : Log → Prop) (e : Event Ans) (past : Log) : Prop :=
  readsData e → Since refusal cleared past → X past

/-- A refusal because of a verdict is about to be written. -/
def Pending (ctx : Context) (c : Config) : Prop :=
  c.point = .refusal ∧ Verdict ctx c.session.response

/-- The two rules agree, but for a refusal that is still to be written. -/
def Agree (ctx : Context) (X : Log → Prop) (c : Config) (h : Log) : Prop :=
  (Always (refusing ctx X) h ∧ (Pending ctx c → X h)) ↔ Always (standing X) h

/-- A refusal because of a verdict is only pending where DATA was just read. -/
theorem pending_spec {c : Config} {h : Log} (hs : Known ctx c h) (hp : Pending ctx c) :
    dataRead h ∧ Since refusal cleared h := by
  obtain ⟨point, s, left⟩ := c
  obtain ⟨rfl, hr⟩ := hp
  rcases hs.here with hown | hverdict
  · exact absurd hr hown.verdict
  · exact hverdict.2

theorem refuses_of_verdict {e : Event Ans} (he : refusesByVerdict ctx e) : refusesCommand e := by
  obtain ⟨c, x⟩ := e
  cases c with
  | outReply site r =>
    cases site with
    | refusal => rfl
    | _ => cases he
  | _ => cases he

theorem readsData_spec {e : Event Ans} (he : readsData e) :
    ∃ l, e = ⟨.outReadline .command, .ok l⟩ := by
  obtain ⟨c, x⟩ := e
  cases c with
  | outReadline site =>
    cases site with
    | command =>
      cases x with
      | error e => cases he
      | ok l => exact ⟨l, rfl⟩
    | _ => cases he
  | _ => cases he

/-- An event that neither reads DATA nor refuses anything. -/
theorem agree_cons {c c' : Config} {e : Event Ans} {h : Log} (he : ¬ readsData e)
    (hr : refusesCommand e = false) (hc : c.point ≠ .refusal) (hs : Agree ctx X c h)
    (hk : Known ctx c' (e :: h)) : Agree ctx X c' (e :: h) := by
  have hpending : ¬ Pending ctx c := fun hp => hc hp.1
  have hpending' : ¬ Pending ctx c' := fun hp => he (pending_spec hk hp).1
  have hrefusing : refusing ctx X e h := by
    intro hv
    rw [refuses_of_verdict hv] at hr
    cases hr
  have hstanding : standing X e h := fun hd => absurd hd he
  simp only [Agree, always_cons, hpending, hpending', hrefusing, hstanding, true_and, false_implies,
    and_true] at hs ⊢
  exact hs

/-- Where a DATA line was read, its refusal is pending if a verdict is left. -/
theorem pending_iff {s : Session} {left : Nat} {l : Line} {h : Log}
    (hk : Known ctx ⟨.head, s, left⟩ h) (hd : readsData ⟨.outReadline .command, .ok l⟩)
    (hk' : Known ctx (.parsed ctx s left l) (⟨.outReadline .command, .ok l⟩ :: h)) :
    Pending ctx (.parsed ctx s left l) ↔ Since refusal cleared h := by
  constructor
  · intro hp
    simpa using (pending_spec hk' hp).2
  · intro hsince
    have herror : s.errorstate = true := (hk.flags rfl).errorstate.mpr hsince
    unfold Config.parsed
    cases hset : s.command.set l with
    | none => simp [SMTPCommand.set_none hset] at hd
    | some c =>
      have hc : c.cmd = .DATA := by simpa [SMTPCommand.set_some hset] using hd
      simp only [Config.dispatch, hc, herror, ↓reduceIte]
      exact ⟨rfl, hk.armed rfl herror⟩

/-- A line is read as a command. -/
theorem agree_read {s : Session} {left : Nat} {h : Log}
    (hX : ∀ e past, readsData e → (X (e :: past) ↔ X past))
    (hk : Known ctx ⟨.head, s, left⟩ h) (hs : Agree ctx X ⟨.head, s, left⟩ h) :
    (machine ctx rounds ⟨.head, s, left⟩).All fun e c =>
      Known ctx c (e :: h) → Agree ctx X c (e :: h) := by
  intro line hk'
  by_cases hd : readsData ⟨.outReadline .command, line⟩
  · obtain _ | l := line
    · cases hd
    have hnone : ¬ Pending ctx ⟨.head, s, left⟩ := fun hp => by cases hp.1
    have hrefusing : refusing ctx X ⟨.outReadline .command, .ok l⟩ h := fun hv => by cases hv
    have hpending := pending_iff hk hd hk'
    show (_ ∧ (Pending ctx (.parsed ctx s left l) → X (⟨.outReadline .command, .ok l⟩ :: h))) ↔ _
    simp only [Agree, hnone, false_implies, and_true] at hs
    rw [hpending, hX _ _ hd, always_cons, always_cons, hs]
    simp only [hrefusing, true_and, standing, hd, true_implies]
    exact and_comm
  · exact agree_cons hd rfl (by simp) hs hk'

/-- The pending refusal is written. -/
theorem agree_refuse {s : Session} {left : Nat} {h : Log} (hs : Agree ctx X ⟨.refusal, s, left⟩ h) :
    (machine ctx rounds ⟨.refusal, s, left⟩).All fun e c =>
      Known ctx c (e :: h) → Agree ctx X c (e :: h) := by
  intro written hk'
  have hdone : ¬ Pending ctx (.orRaise s left .network (.refused ctx s left) written) := fun hp => by
    have hread := (pending_spec hk' hp).1
    simp at hread
  have hverdict : refusesByVerdict ctx ⟨.outReply .refusal s.response, written⟩ ↔
      Pending ctx ⟨.refusal, s, left⟩ := by
    simp only [refusesByVerdict, decide_eq_true_eq, Pending, true_and]
  show (_ ∧ (Pending ctx (.orRaise s left .network (.refused ctx s left) written) → _)) ↔ _
  unfold Agree at hs
  rw [always_cons, always_cons, ← hs, refusing, hverdict]
  simp only [hdone, false_implies, and_true, standing, readsData, commandVerb, reduceCtorEq, true_and]
  exact and_comm

theorem agree_step (hX : ∀ e past, readsData e → (X (e :: past) ↔ X past)) (c : Config) (h : Log)
    (hk : Known ctx c h) (hs : Agree ctx X c h) :
    (machine ctx rounds c).All fun e c => Known ctx c (e :: h) → Agree ctx X c (e :: h) := by
  obtain ⟨point, s, left⟩ := c
  cases point with
  | head => exact agree_read hX hk hs
  | refusal => exact agree_refuse hs
  | finished r => trivial
  | _ =>
    intro x hk'
    exact agree_cons (by simp) rfl (by simp) hs hk'

/-- What holds where DATA is read and a verdict is left, holds where a command is
refused because of it, and the other way round. -/
theorem refusing_iff (hX : ∀ e past, readsData e → (X (e :: past) ↔ X past)) {r : Except Exn Unit}
    {s : Session} {h : Log} (hrun : (process ctx rounds).Ends {} [] r s h) :
    Always (refusing ctx X) h ↔ Always (standing X) h := by
  obtain ⟨left, hc⟩ := process_on hrun
  have hagree : Agree ctx X ⟨.finished r, s, left⟩ h :=
    hc.strengthen known ⟨fun _ => trivial, fun _ => ⟨trivial, fun hp => by cases hp.1⟩⟩ (agree_step hX)
  have hnone : ¬ Pending ctx ⟨.finished r, s, left⟩ := fun hp => by cases hp.1
  simpa only [Agree, hnone, false_implies, and_true] using hagree

end Deferred

/-! ## A new transaction -/

/-- A RSET, HELO, EHLO, MAIL or DATA command, or the end of a message. -/
@[simp] def startsOver : Event Ans → Bool
  | ⟨.inWriteline (.command c), _⟩ => c.cmd ∈ [.RSET, .HELO, .EHLO, .MAIL, .DATA]
  | ⟨.inWriteline (.bodyLine _), _⟩ => true
  | _ => false

/-- The inside server answers such a command with 2xx. -/
@[simp] def boundary (e : Event Ans) (past : Log) : Prop :=
  (replyCode e).any (fun code => code / 100 = 2) ∧ past.head?.any startsOver
  deriving Decidable

/-- A verdict that is left where DATA is read was given since the last boundary. -/
@[simp] def freshVerdict (e : Event Ans) (past : Log) : Prop :=
  readsData e → Since refusal cleared past → Since refusal boundary past
  deriving Decidable

/-- A command is refused because of a verdict only if one was given since the
last boundary: exactly where every verdict that DATA still finds is that fresh. -/
theorem no_stale_refusal_iff (ctx : Context) (rounds : Nat) {r : Except Exn Unit} {s : Session}
    {h : Log} (hrun : (process ctx rounds).Ends {} [] r s h) :
    Always (fun e past => refusesByVerdict ctx e → Since refusal boundary past) h ↔
      Always freshVerdict h := by
  refine Deferred.refusing_iff ?_ hrun
  intro e past hd
  obtain ⟨l, rfl⟩ := Deferred.readsData_spec hd
  simp

/-- A recipient that is greylisted, and one that is accepted. -/
def twoRecipients (client inside : List String) : World :=
  { World.ofLines .Accepted client inside with
    oracle := fun _ c => match c with
      | .greylist _ _ recipient => some (if recipient = text "c@d" then .GreyListed else .Accepted)
      | c => World.allow .Accepted c }

/-- A client that gives up its greylisted recipient, and starts over with another one. -/
def restartingClient : World := twoRecipients
  ["HELO a.b", "MAIL FROM:<a@b>", "RCPT TO:<c@d>", "RSET", "MAIL FROM:<a@b>", "RCPT TO:<e@f>", "DATA"]
  ["220 in", "250 ok", "250 ok", "250 ok", "250 ok", "250 ok", "250 ok"]

/-- The second transaction is refused for the first one's recipient. -/
theorem restart_refused :
    ¬ ∀ (ctx : Context) (rounds : Nat) (r : Except Exn Unit) (s : Session) (h : Log),
      (process ctx rounds).Ends {} [] r s h →
      Always (fun e past => refusesByVerdict ctx e → Since refusal boundary past) h := by
  intro hall
  obtain ⟨r, s, hrun⟩ := restartingClient.history_ends (.sample 0 .NoAuth) 9
  have hfresh := hall (.sample 0 .NoAuth) 9 r s _ hrun
  revert hfresh
  decide +kernel

/-- A client with a greylisted recipient that goes on with DATA. -/
def persistentClient : World := twoRecipients
  ["HELO a.b", "MAIL FROM:<a@b>", "RCPT TO:<c@d>", "DATA"] ["220 in", "250 ok", "250 ok", "250 ok"]

theorem persistentClient_refused :
    Once (fun e _ => refusesByVerdict (.sample 0 .NoAuth) e)
        (persistentClient.history (.sample 0 .NoAuth) 9) ∧
      Always (fun e past => refusesByVerdict (.sample 0 .NoAuth) e → Since refusal boundary past)
        (persistentClient.history (.sample 0 .NoAuth) 9) := by
  refine ⟨by decide +kernel, ?_⟩
  obtain ⟨r, s, hrun⟩ := persistentClient.history_ends (.sample 0 .NoAuth) 9
  exact (no_stale_refusal_iff (.sample 0 .NoAuth) 9 hrun).mpr (by decide +kernel)

/-! ## Authentication -/

/-- No verdict is left where an authenticated client sends DATA. -/
@[simp] def liftedVerdict (e : Event Ans) (past : Log) : Prop :=
  readsData e → Since refusal cleared past → ¬ Since confers handshake past
  deriving Decidable

theorem authentication_lifts_iff (ctx : Context) (rounds : Nat) {r : Except Exn Unit} {s : Session}
    {h : Log} (hrun : (process ctx rounds).Ends {} [] r s h) :
    Always (fun e past => refusesByVerdict ctx e → ¬ Since confers handshake past) h ↔
      Always liftedVerdict h := by
  refine Deferred.refusing_iff ?_ hrun
  intro e past hd
  obtain ⟨l, rfl⟩ := Deferred.readsData_spec hd
  simp

/-- A client that authenticates itself after a recipient was greylisted. -/
def lateClient : World := twoRecipients
  ["EHLO a.b", "MAIL FROM:<a@b>", "RCPT TO:<c@d>", "RSET", "AUTH PLAIN", "AGEAYg==",
    "MAIL FROM:<a@b>", "RCPT TO:<c@d>", "DATA"]
  ["220 in", "250 ok", "250 ok", "250 ok", "250 ok", "334 ", "235 ok", "250 ok", "250 ok"]

/-- Its message is refused for the verdict that was given before. -/
theorem late_client_refused :
    ¬ ∀ (ctx : Context) (rounds : Nat) (r : Except Exn Unit) (s : Session) (h : Log),
      (process ctx rounds).Ends {} [] r s h →
      Always (fun e past => refusesByVerdict ctx e → ¬ Since confers handshake past) h := by
  intro hall
  obtain ⟨r, s, hrun⟩ := lateClient.history_ends (.sample 0 .ProxyAuth) 9
  have hlifted := hall (.sample 0 .ProxyAuth) 9 r s _ hrun
  revert hlifted
  decide +kernel

/-- A client that authenticates itself first. -/
def earlyClient : World := twoRecipients
  ["EHLO a.b", "AUTH PLAIN", "AGEAYg==", "MAIL FROM:<a@b>", "RCPT TO:<c@d>", "DATA", "x", "."]
  ["220 in", "250 ok", "334 ", "235 ok", "250 ok", "250 ok", "354 go", "250 ok"]

theorem earlyClient_accepted :
    Since confers handshake (earlyClient.history (.sample 0 .ProxyAuth) 9) ∧
      Always (fun e past => refusesByVerdict (.sample 0 .ProxyAuth) e →
        ¬ Since confers handshake past) (earlyClient.history (.sample 0 .ProxyAuth) 9) := by
  refine ⟨by decide +kernel, ?_⟩
  obtain ⟨r, s, hrun⟩ := earlyClient.history_ends (.sample 0 .ProxyAuth) 9
  exact (authentication_lifts_iff (.sample 0 .ProxyAuth) 9 hrun).mpr (by decide +kernel)

end Spey
