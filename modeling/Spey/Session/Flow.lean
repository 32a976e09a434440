import Spey.Session.Machine

/-!
# Where a session goes from a place

Most places of a session lead to places that say nothing about the inside
server, or to its door, `proceed`. An assertion that holds at all calm places
and behind that door is therefore met after every step, but for the steps on the
way to the inside server and in a proxied exchange.
-/

namespace Spey

open Interaction

namespace Point

/-- The places before, behind and beside the conversation with the inside server. -/
def calm : Point → Bool
  | .dial | .greeting | .send | .reply | .relay | .authSend | .authReply | .authRelay | .authLine _
  | .authForward _ _ | .authAnswer _ | .authPass _ => false
  | _ => true

/-- The places whose next call belongs to that conversation. -/
def engaged : Point → Bool
  | .dial | .greeting | .send | .reply | .authSend | .authReply | .authRelay | .authLine _
  | .authForward _ _ | .authAnswer _ | .authPass _ => true
  | _ => false

end Point

namespace Config

/-- The assertion holds at all calm places, and behind the door to the inside server. -/
structure Calm (P : Point → Session → Prop) : Prop where
  calm : ∀ point s, point.calm = true → P point s
  proceed : ∀ s, Proceed P s

namespace Calm

variable {P : Point → Session → Prop} {ctx : Context} {rounds left : Nat} {s : Session} {c : Config}

theorem again (hP : Calm P) : (again s left).Meets P :=
  again_meets (hP.calm _ _ rfl) (hP.calm _ _ rfl)

theorem zones (hP : Calm P) (rbls : List Bytes) : (zones ctx s left rbls).Meets P :=
  zones_meets (fun _ _ => hP.calm _ _ rfl) (hP.calm _ _ rfl) (hP.calm _ _ rfl)

theorem orRaise {e : Exn} (hP : Calm P) (hc : c.Meets P) (x : Bool) : (orRaise s left e c x).Meets P :=
  orRaise_meets (hP.calm _ _ rfl) hc x

theorem reading {α : Type} {next : α → Config} (hP : Calm P) (hnext : ∀ a, (next a).Meets P)
    (x : Except ReadFailure α) : (reading s left next x).Meets P :=
  reading_meets (fun _ => hP.calm _ _ rfl) hnext x

theorem querying {α : Type} {next : α → Config} (hP : Calm P) (hnext : ∀ a, (next a).Meets P)
    (x : Option α) : (querying s left next x).Meets P :=
  querying_meets (hP.calm _ _ rfl) hnext x

theorem body (hP : Calm P) (k : Nat) : (body s left k).Meets P :=
  body_meets (fun _ => hP.calm _ _ rfl) (hP.calm _ _ rfl)

theorem dispatch (hP : Calm P) : (dispatch ctx s left).Meets P := by
  refine Dispatch.meets ?_
  exact {
    help := fun _ => hP.calm _ _ rfl
    quit := fun _ => hP.calm _ _ rfl
    starttls := fun _ _ => hP.calm _ _ rfl
    deny := fun _ _ _ => hP.calm _ _ rfl
    domain := fun _ _ => hP.calm _ _ rfl
    sender := fun _ _ => hP.calm _ _ rfl
    mail := fun _ _ => hP.proceed _
    recipient := fun _ _ => hP.calm _ _ rfl
    accepted := fun _ _ => hP.calm _ _ rfl
    rset := fun _ => hP.proceed _
    refused := fun _ _ => hP.calm _ _ rfl
    data := fun _ _ => hP.proceed s
    passed := fun _ _ => hP.proceed s
    other := fun _ => hP.proceed s }

/-- Every place that is not engaged leads where the assertion holds. -/
theorem step (hP : Calm P) (hp : c.point.engaged = false) :
    (machine ctx rounds c).All fun _ c' => c'.Meets P := by
  obtain ⟨point, s, left⟩ := c
  have hcalm : ∀ {point s}, point.calm = true → Config.Meets P ⟨point, s, left⟩ := fun h =>
    hP.calm _ _ h
  cases point with
  | opening =>
    exact hP.querying fun _ => ite_meets (fun _ => hcalm rfl) fun _ => hP.zones _
  | zone rbl rbls =>
    rintro (_ | _)
    · exact hP.zones rbls
    · exact hcalm rfl
  | pause =>
    rintro (_ | _)
    · exact hcalm rfl
    · exact hcalm rfl
  | head =>
    refine hP.reading fun l => ?_
    unfold parsed
    cases s.command.set l with
    | none => exact hcalm rfl
    | some c => exact hP.dispatch
  | syntaxError => exact hP.orRaise (ite_meets (fun _ => hcalm rfl) fun _ => hP.again)
  | handshake =>
    rintro (_ | _)
    · exact hcalm rfl
    · exact ite_meets (fun _ => hcalm rfl) fun _ => hP.again
  | hangUp => exact fun _ => hP.again
  | domain | sender =>
    exact fun _ => ite_meets (fun _ => (hP.proceed s).meets) fun _ => hcalm rfl
  | recipient => exact fun _ => ite_meets (fun _ => hcalm rfl) fun _ => hcalm rfl
  | acceptance => exact hP.querying fun _ => ite_meets (fun _ => hcalm rfl) fun _ => hcalm rfl
  | greylisting =>
    refine hP.querying fun verdict => ?_
    cases verdict with
    | Accepted | BlackListed | GreyListed => exact hcalm rfl
  | counting counter passes =>
    exact hP.orRaise (ite_meets (fun _ => (hP.proceed s).meets) fun _ => hcalm rfl)
  | refusal => exact hP.orRaise (ite_meets (fun _ => hcalm rfl) fun _ => hP.again)
  | noDownstream | name | name' => exact fun _ => hcalm rfl
  | relay =>
    exact hP.orRaise (third_meets (fun _ _ => hcalm rfl)
      (fun _ _ => naming_meets (hcalm rfl) fun _ _ => hcalm rfl) (fun _ => hcalm rfl)
      fun _ => hP.again)
  | conversation stage =>
    refine hP.reading fun l => ite_meets (fun _ => hcalm rfl) fun _ => ?_
    exact answered_meets (fun _ => hcalm rfl)
      fun _ => credentials_meets (hcalm rfl) fun _ _ => hcalm rfl
  | lookup username password =>
    rintro (_ | n)
    · exact hcalm rfl
    · exact ite_meets (fun _ => hcalm rfl) fun _ => hcalm rfl
  | header => exact hP.orRaise (hP.body rounds)
  | bodyForward k l => exact hP.orRaise (ite_meets (fun _ => hcalm rfl) fun _ => hP.body k)
  | banner | help | bodyRelay | authenticated => exact hP.orRaise hP.again
  | starttls | challenge => exact hP.orRaise (hcalm rfl)
  | bodyReply | bodyLine => exact hP.reading fun _ => hcalm rfl
  | finished => trivial
  | dial | greeting | send | reply | authSend | authReply | authRelay | authLine | authForward
  | authAnswer | authPass => cases hp

end Calm

end Config

end Spey
