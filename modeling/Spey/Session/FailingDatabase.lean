import Spey.Greylist.Statements
import Spey.Session.Reached
import Spey.World

/-!
# A failing database

Each SQL statement of a session stands before the place where its command goes to
the inside server. Where one raises an exception, the session ends there; only
the look for credentials is caught, and the command is refused.
-/

namespace Spey

open Interaction

/-- A statement raises an exception that nobody catches. -/
@[simp] def breaksSession : Event Ans → Bool
  | ⟨.testtrusted _, none⟩ | ⟨.testacceptance _, none⟩ | ⟨.greylist _ _ _, none⟩
  | ⟨.count _, false⟩ => true
  | _ => false

/-- The look for credentials raises one. -/
@[simp] def credentialsFail : Event Ans → Bool
  | ⟨.users _ _, none⟩ => true
  | _ => false

@[simp] def databaseFails (e : Event Ans) : Bool := breaksSession e || credentialsFail e

@[simp] def databaseFailed (e : Event Ans) (_ : Log) : Prop := databaseFails e
  deriving Decidable

/-- A command, or what belongs to it, goes to the inside server. -/
@[simp] def forwards : Event Ans → Bool
  | ⟨.inWriteline _, _⟩ => true
  | _ => false

@[simp] def forwarded (e : Event Ans) (_ : Log) : Prop := forwards e
  deriving Decidable

/-- The client's command is refused with 535. -/
@[simp] def refuses535 : Event Ans → Bool
  | ⟨.outReply .refusal r, _⟩ => r = .set 535
  | _ => false

namespace FailingDatabase

/-- The command that is handled is not at the inside server. -/
def unsent : Point → Bool
  | .head | .reply | .relay | .authReply | .authRelay | .authLine _ | .authForward _ _
  | .authAnswer _ | .authPass _ | .name | .name' _ | .header _ _ | .bodyLine _ | .bodyForward _ _
  | .bodyReply | .bodyRelay | .finished _ => false
  | _ => true

/-- No statement of the command that is handled has failed. -/
def clean : Point → Bool
  | .head | .refusal | .finished _ => false
  | _ => true

/-- What a failing statement leads to. -/
structure Failing (e : Event Ans) (c : Config) : Prop where
  breaks : breaksSession e = true → c.point = .finished (.error .sql)
  credentials : credentialsFail e = true → c.point = .refusal ∧ c.session.response = .set 535

/-- What one step may do. -/
structure Edge (c : Config) (e : Event Ans) (c' : Config) : Prop where
  unsent : unsent c'.point = true → forwards e = false ∧ (readsCommand e = true ∨ unsent c.point = true)
  clean : clean c'.point = true →
    databaseFails e = false ∧ (readsCommand e = true ∨ clean c.point = true)
  forwards : forwards e = true → FailingDatabase.clean c.point = true
  fails : databaseFails e = true → FailingDatabase.unsent c.point = true
  failing : Failing e c'
  refuses : c.point = .refusal → c.session.response = .set 535 → refuses535 e = true
  trusted : databaseFails e = true → c'.session.trusted = c.session.trusted
  authenticated : databaseFails e = true → c'.session.authenticated = c.session.authenticated

variable {ctx : Context} {rounds : Nat} {c c' : Config} {e : Event Ans} {h : Log}

/-- A step that asks the database nothing. -/
theorem edge_plain (hd : databaseFails e = false)
    (hu : unsent c'.point = true → forwards e = false ∧ (readsCommand e = true ∨ unsent c.point = true))
    (hc : clean c'.point = true → readsCommand e = true ∨ clean c.point = true)
    (hf : forwards e = true → clean c.point = true)
    (hr : c.point = .refusal → c.session.response = .set 535 → refuses535 e = true) : Edge c e c' := by
  have hno : ∀ {P : Prop}, databaseFails e = true → P := fun h => by rw [hd] at h; cases h
  have hbreaks : breaksSession e = true → databaseFails e = true := fun h => by
    rw [databaseFails, h, Bool.true_or]
  have hcredentials : credentialsFail e = true → databaseFails e = true := fun h => by
    rw [databaseFails, h, Bool.or_true]
  exact ⟨hu, fun h => ⟨hd, hc h⟩, hf, hno, ⟨fun h => hno (hbreaks h), fun h => hno (hcredentials h)⟩,
    hr, hno, hno⟩

/-- A statement that fails ends the session. -/
theorem edge_breaks {s : Session} {left : Nat} {p : Point} {e : Event Ans}
    (hf : forwards e = false) (hc : credentialsFail e = false) (hu : unsent p = true)
    (hp : p ≠ .refusal) : Edge ⟨p, s, left⟩ e (Config.raise s left .sql) where
  unsent hover := absurd hover Bool.false_ne_true
  clean hover := absurd hover Bool.false_ne_true
  forwards h := by rw [hf] at h; cases h
  fails _ := hu
  failing := ⟨fun _ => rfl, fun h => by rw [hc] at h; cases h⟩
  refuses h := absurd h hp
  trusted _ := rfl
  authenticated _ := rfl

/-- Once a command is sent, the way leads back to the head of the loop. -/
theorem sent_step (ctx : Context) (rounds : Nat) (hsent : unsent c.point = false) (hhead : c.point ≠ .head) :
    (machine ctx rounds c).All fun _ c' => c'.Meets fun p _ => unsent p = false := by
  have hagain : ∀ {s left}, (Config.again s left).Meets fun p _ => unsent p = false :=
    Config.again_meets rfl rfl
  obtain ⟨point, s, left⟩ := c
  cases point with
  | head => exact absurd rfl hhead
  | relay =>
    apply Config.orRaise_meets rfl
    apply Config.third_meets (fun _ _ => rfl) (fun _ _ => ?_) (fun _ => rfl) fun _ => hagain
    exact Config.naming_meets rfl fun _ _ => rfl
  | authRelay =>
    apply Config.orRaise_meets rfl
    exact Config.ite_meets (fun _ => Config.exchange_meets (fun _ => rfl) rfl) fun _ => hagain
  | authPass k =>
    apply Config.orRaise_meets rfl
    apply Config.ite_meets fun _ => Config.exchange_meets (fun _ => rfl) rfl
    exact fun _ => Config.ite_meets (fun _ => hagain) fun _ => hagain
  | header => exact Config.orRaise_meets rfl (Config.body_meets (fun _ => rfl) rfl)
  | bodyForward k l =>
    apply Config.orRaise_meets rfl
    exact Config.ite_meets (fun _ => rfl) fun _ => Config.body_meets (fun _ => rfl) rfl
  | bodyRelay => exact Config.orRaise_meets rfl hagain
  | name | name' => exact fun _ => rfl
  | authForward => exact Config.orRaise_meets rfl rfl
  | reply | authReply | authLine | authAnswer | bodyLine | bodyReply =>
    exact Config.reading_meets (fun _ => rfl) fun _ => rfl
  | finished r => trivial
  | _ => cases hsent

theorem edge_step (ctx : Context) (rounds : Nat) (c : Config) : (machine ctx rounds c).All fun e c' => Edge c e c' := by
  have hsent := sent_step (c := c) ctx rounds
  obtain ⟨point, s, left⟩ := c
  cases point with
  | opening | acceptance | greylisting =>
    intro answer
    cases answer with
    | none => exact edge_breaks rfl rfl rfl fun hp => Point.noConfusion hp
    | some answer =>
      exact edge_plain rfl (fun _ => ⟨rfl, .inr rfl⟩) (fun _ => .inr rfl) (fun _ => rfl)
        fun hp => Point.noConfusion hp
  | counting counter passes =>
    intro counted
    cases counted with
    | false => exact edge_breaks rfl rfl rfl fun hp => Point.noConfusion hp
    | true =>
      exact edge_plain rfl (fun _ => ⟨rfl, .inr rfl⟩) (fun _ => .inr rfl) (fun _ => rfl)
        fun hp => Point.noConfusion hp
  | lookup username password =>
    intro found
    cases found with
    | none =>
      exact ⟨fun _ => ⟨rfl, .inr rfl⟩, fun hc => absurd hc Bool.false_ne_true, fun _ => rfl, fun _ => rfl,
        ⟨fun hb => absurd hb Bool.false_ne_true, fun _ => ⟨rfl, rfl⟩⟩, fun hp => Point.noConfusion hp,
        fun _ => rfl, fun _ => rfl⟩
    | some n =>
      exact edge_plain rfl (fun _ => ⟨rfl, .inr rfl⟩) (fun _ => .inr rfl) (fun _ => rfl)
        fun hp => Point.noConfusion hp
  | head =>
    intro line
    exact edge_plain rfl (fun _ => ⟨rfl, .inl rfl⟩) (fun _ => .inl rfl)
      (fun hf => absurd hf Bool.false_ne_true) fun hp => Point.noConfusion hp
  | refusal =>
    intro written
    have hclean : clean (Config.orRaise s left .network (Config.refused ctx s left) written).point = false := by
      cases written with
      | false => rfl
      | true =>
        exact Config.refused_meets (P := fun p _ => clean p = false) (fun _ => rfl)
          fun _ => Config.again_meets rfl rfl
    exact edge_plain rfl (fun _ => ⟨rfl, .inr rfl⟩) (fun hc => absurd (hclean.symm.trans hc) Bool.false_ne_true)
      (fun hf => absurd hf Bool.false_ne_true) fun _ hr => decide_eq_true hr
  | send | authSend =>
    intro sent
    refine edge_plain rfl (fun hu => ?_) (fun _ => .inr rfl) (fun _ => rfl) fun hp => Point.noConfusion hp
    cases sent <;> cases hu
  | finished r => trivial
  | reply | relay | authReply | authRelay | authLine | authForward | authAnswer | authPass | name | name'
  | header | bodyLine | bodyForward | bodyReply | bodyRelay =>
    intro x
    have hlater := hsent rfl (fun hp => Point.noConfusion hp) x
    exact edge_plain rfl (fun hu => absurd (hlater.symm.trans hu) Bool.false_ne_true) (fun _ => .inr rfl)
      (fun _ => rfl) fun hp => Point.noConfusion hp
  | _ =>
    intro x
    exact edge_plain rfl (fun _ => ⟨rfl, .inr rfl⟩) (fun _ => .inr rfl) (fun _ => rfl)
      fun hp => Point.noConfusion hp

/-- How far the gate is shut. -/
structure Shut (c : Config) (h : Log) : Prop where
  unsent : unsent c.point = true → ¬ Since forwarded commandRead h
  clean : clean c.point = true → ¬ Since databaseFailed commandRead h
  before : Always (fun e past => databaseFails e → ¬ Since forwarded commandRead past) h
  after : Always (fun e past => forwards e → ¬ Since databaseFailed commandRead past) h
  failing : ∀ e ∈ h.head?, Failing e c
  last : Always (fun _ past => ¬ past.head?.any breaksSession) h
  refused : Always (fun e past => past.head?.any credentialsFail → refuses535 e) h

/-- What has not happened since the command was read, and does not happen now. -/
theorem not_since_cons {p : Event Ans → Bool} (hp : p e = false)
    (hbefore : readsCommand e = true ∨ ¬ Since (fun e _ => p e = true) commandRead h) :
    ¬ Since (fun e _ => p e = true) commandRead (e :: h) := by
  intro hsince
  rcases hsince with hnow | ⟨hread, hsince⟩
  · rw [hp] at hnow
    cases hnow
  · rcases hbefore with hreads | hnot
    · exact hread hreads
    · exact hnot hsince

theorem shut_cons (hs : Shut c h) (he : Edge c e c') (hl : c.point.live = true) : Shut c' (e :: h) where
  unsent hu := not_since_cons (he.unsent hu).1 ((he.unsent hu).2.imp_right hs.unsent)
  clean hc := not_since_cons (he.clean hc).1 ((he.clean hc).2.imp_right hs.clean)
  before := ⟨fun hd => hs.unsent (he.fails hd), hs.before⟩
  after := ⟨fun hf => hs.clean (he.forwards hf), hs.after⟩
  failing x hx := by
    obtain rfl := Option.some.inj hx
    exact he.failing
  last := by
    refine ⟨fun hany => ?_, hs.last⟩
    obtain ⟨x, hx, hbreaks⟩ := (Option.any_eq_true _ _).mp hany
    have hover := (hs.failing x hx).breaks hbreaks
    rw [hover] at hl
    cases hl
  refused := by
    refine ⟨fun hany => ?_, hs.refused⟩
    obtain ⟨x, hx, hfail⟩ := (Option.any_eq_true _ _).mp hany
    obtain ⟨hpoint, hresponse⟩ := (hs.failing x hx).credentials hfail
    exact he.refuses hpoint hresponse

theorem shut_step (hs : Shut c h) : (machine ctx rounds c).All fun e c' => Shut c' (e :: h) := by
  have hedge := edge_step ctx rounds c
  obtain ⟨point, s, left⟩ := c
  cases point with
  | finished r => trivial
  | _ => exact fun x => shut_cons hs (hedge x) rfl

end FailingDatabase

/-- Where a statement fails, the command has not been sent and is not sent; the
session ends with the exception, or the command is refused with 535; and nobody
becomes trusted or authenticated. A statement of `greylist` that fails is a
failure of `greylist`. -/
theorem failing_database_shuts (ctx : Context) (rounds : Nat) {r : Except Exn Unit} {s : Session} {h : Log}
    (hrun : (process ctx rounds).Ends {} [] r s h) :
    (Always (fun e past => databaseFails e → ¬ Since forwarded commandRead past) h ∧
      Always (fun e past => forwards e → ¬ Since databaseFailed commandRead past) h) ∧
    (Always (fun _ past => ¬ past.head?.any breaksSession) h ∧
      (h.head?.any breaksSession → r = .error .sql)) ∧
    (Always (fun e past => past.head?.any credentialsFail → refuses535 e) h ∧
      ¬ h.head?.any credentialsFail) ∧
    (∀ c c' e past, (machine ctx rounds).On (initial rounds) c past →
      (machine ctx rounds).On (initial rounds) c' (e :: past) → databaseFails e →
      c'.session.trusted = c.session.trusted ∧ c'.session.authenticated = c.session.authenticated) ∧
    ∀ (quarantinetime lastseen : Int) (sender : UInt32) (fromaddress toaddress : Bytes) (u u' : Unit)
      (r : Except Exn GreylistResponse) (h : History Greylist.Statement.Ans),
      (Greylist.Statement.greylist quarantinetime lastseen sender fromaddress toaddress).Ends u [] r u' h →
      (∃ e ∈ h, Greylist.Statement.raises e) → r = .error .sql := by
  obtain ⟨left, hc⟩ := process_on hrun
  have hs : FailingDatabase.Shut ⟨.finished r, s, left⟩ h := by
    refine hc.invariant ?_ fun c h hs => FailingDatabase.shut_step hs
    exact ⟨fun _ => id, fun _ => id, trivial, trivial, fun e he => absurd he (Option.not_mem_none e), trivial, trivial⟩
  refine ⟨⟨hs.before, hs.after⟩, ⟨hs.last, fun hany => ?_⟩, ⟨hs.refused, fun hany => ?_⟩, ?_, ?_⟩
  · obtain ⟨x, hx, hbreaks⟩ := (Option.any_eq_true _ _).mp hany
    exact Point.finished.inj ((hs.failing x hx).breaks hbreaks)
  · obtain ⟨x, hx, hfail⟩ := (Option.any_eq_true _ _).mp hany
    exact Point.noConfusion ((hs.failing x hx).credentials hfail).1
  · intro c c' e past hon hon' hfail
    have hedge : FailingDatabase.Edge c e c' := hon.last hon' (FailingDatabase.edge_step ctx rounds c)
    exact ⟨hedge.trusted hfail, hedge.authenticated hfail⟩
  · intro quarantinetime lastseen sender fromaddress toaddress u u' r h hends hraises
    obtain ⟨e, he, hraise⟩ := hraises
    rcases Greylist.Statement.greylist_stops quarantinetime lastseen hends with hsound | hstops
    · rw [hsound e he] at hraise
      cases hraise
    · exact hstops.1

/-- A database that fails when the recipient is judged. -/
def failingClient : World :=
  { World.ofLines .Accepted ["HELO a.b", "MAIL FROM:<a@b>", "RCPT TO:<c@d>", "DATA"]
      ["220 in", "250 ok", "250 ok", "250 ok"] with
    oracle := fun _ c => match c with
      | .greylist _ _ _ => none
      | c => World.allow .Accepted c }

theorem failingClient_shut :
    Once databaseFailed (failingClient.history (.sample 0 .NoAuth) 9) ∧
      Always (fun e past => forwards e → ¬ Since databaseFailed commandRead past)
        (failingClient.history (.sample 0 .NoAuth) 9) := by
  refine ⟨by decide +kernel, ?_⟩
  obtain ⟨r, s, hrun⟩ := failingClient.history_ends (.sample 0 .NoAuth) 9
  exact (failing_database_shuts (.sample 0 .NoAuth) 9 hrun).1.2

end Spey
