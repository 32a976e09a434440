import Spey.Session.Lockstep
import Spey.World

/-!
# Which reply goes to the client

The inside server sends its replies in the order of the items that it was sent.
With the lockstep of the connection, the reply that the client gets to its
command is therefore the one the inside server gave to that command: for the
k-th item it is the k-th reply after the banner.
-/

namespace Spey

open Interaction

/-! ## What was sent and read -/

/-- What has happened on the present inside connection, the latest first. -/
structure Tally where
  /-- how many connections there were -/
  dialed : Nat := 0
  forwarded : List Exchange := []
  /-- what the reads gave, the banner among them -/
  replies : List (Except ReadFailure Reply) := []
  /-- how many of the replies were passed on to the client -/
  passedOn : Nat := 0

namespace Tally

/-- A message counts with its header. -/
def forward (t : Tally) : Item → Tally
  | .command c => { t with forwarded := .command c :: t.forwarded }
  | .authLine l => { t with forwarded := .authLine l :: t.forwarded }
  | .header _ => { t with forwarded := .message :: t.forwarded }
  | .bodyLine _ => t

def step (t : Tally) : Event Ans → Tally
  | ⟨.connect, connected⟩ => if connected then { dialed := t.dialed + 1 } else t
  | ⟨.readReply, x⟩ => { t with replies := x :: t.replies }
  | ⟨.inWriteline item, _⟩ => t.forward item
  | ⟨.outReply site _, _⟩ => if site.own then t else { t with passedOn := t.passedOn + 1 }
  | _ => t

end Tally

def tally : Log → Tally
  | [] => {}
  | e :: past => (tally past).step e

/-! ## The replies of the inside server -/

/-- What is left of a stream after so many replies. -/
def afterReplies (feed : Feed) : Nat → Feed
  | 0 => feed
  | n + 1 => (SMTPResponse.read (afterReplies feed n)).2

/-- The replies of a stream by number; the banner is number 0. -/
def nthReply (feed : Feed) (n : Nat) : Except ReadFailure Reply :=
  (SMTPResponse.read (afterReplies feed n)).1

/-- The replies are the first ones of the stream. -/
def FirstOf (feed : Feed) : List (Except ReadFailure Reply) → Prop
  | [] => True
  | x :: earlier => x = nthReply feed earlier.length ∧ FirstOf feed earlier

/-- How a world that was `w₀` has come to be what it is. -/
structure Fed (w₀ w : World) (t : Tally) : Prop where
  dials : ∀ n, w.dials n = w₀.dials (n + t.dialed)
  inside : 0 < t.dialed → w.inside = afterReplies (w₀.dials (t.dialed - 1)) t.replies.length
  replies : 0 < t.dialed → FirstOf (w₀.dials (t.dialed - 1)) t.replies

namespace Fed

variable {w₀ w w' : World} {t t' : Tally}

theorem same (hw : Fed w₀ w t) (hdials : w'.dials = w.dials) (hinside : w'.inside = w.inside)
    (hdialed : t'.dialed = t.dialed) (hreplies : t'.replies = t.replies) : Fed w₀ w' t' where
  dials n := by rw [hdials, hdialed, hw.dials]
  inside hd := by
    rw [hdialed] at hd
    rw [hinside, hdialed, hreplies, hw.inside hd]
  replies hd := by
    rw [hdialed] at hd
    rw [hdialed, hreplies]
    exact hw.replies hd

/-- One call of the session. -/
theorem step (hw : Fed w₀ w t) (c : Call) :
    Fed w₀ (World.answer c w).2 (t.step ⟨c, (World.answer c w).1⟩) := by
  cases c with
  | connect =>
    simp only [World.answer]
    split
    · refine ⟨fun n => ?_, fun _ => ?_, fun _ => trivial⟩
      · show w.dials (n + 1) = w₀.dials (n + (t.dialed + 1))
        rw [hw.dials, Nat.add_right_comm, Nat.add_assoc]
      · show w.dials 0 = w₀.dials (t.dialed + 1 - 1)
        rw [hw.dials, Nat.zero_add, Nat.add_sub_cancel]
    · exact hw.same rfl rfl rfl rfl
  | readReply =>
    refine ⟨hw.dials, fun hd => ?_, fun hd => ⟨?_, hw.replies hd⟩⟩
    · show (SMTPResponse.read w.inside).2 = _
      rw [hw.inside hd]
      rfl
    · show (SMTPResponse.read w.inside).1 = _
      rw [hw.inside hd]
      rfl
  | inWriteline item =>
    simp only [World.answer]
    cases item <;> split <;> exact hw.same rfl rfl rfl rfl
  | outReply site r =>
    refine hw.same rfl rfl ?_ ?_
    · simp only [Tally.step]
      split <;> rfl
    · simp only [Tally.step]
      split <;> rfl
  | outRead d =>
    simp only [World.answer]
    split
    · exact hw.same rfl rfl rfl rfl
    · exact hw.same rfl rfl rfl rfl
  | makesecure =>
    simp only [World.answer]
    split
    · exact hw.same rfl rfl rfl rfl
    · exact hw.same rfl rfl rfl rfl
  | _ => exact hw.same rfl rfl rfl rfl

end Fed

/-- At every moment of a session against a world. -/
theorem World.fed (w : World) (ctx : Context) (rounds : Nat) {past : Log}
    (hpast : past <:+ w.history ctx rounds) : ∃ w', Fed w w' (tally past) := by
  unfold World.history at hpast
  refine Program.run_invariant (I := fun w' h => Fed w w' (tally h)) (fun c w' h hw => hw.step c)
    _ ?_ hpast (List.nil_suffix)
  exact ⟨fun _ => rfl, nofun, nofun⟩

/-! ## The tally of each phase -/

/-- The item is under way, with these replies before its own, and what was done
about the earlier items is complete. -/
structure UnderWay (item : Exchange) (earlier : List Exchange)
    (replies : List (Except ReadFailure Reply)) (t : Tally) : Prop where
  dialed : 0 < t.dialed
  forwarded : t.forwarded = item :: earlier
  replied : replies.length = earlier.length + 1
  passedOn : t.passedOn = earlier.length

/-- What the tally is in each phase of the connection. -/
def Phase.Tallies (t : Tally) : Phase → Prop
  | .closed | .failed => True
  | .greeting => 0 < t.dialed ∧ t.forwarded = [] ∧ t.replies = [] ∧ t.passedOn = 0
  | .idle _ => 0 < t.dialed ∧ t.replies.length = t.forwarded.length + 1 ∧
      t.passedOn = t.forwarded.length
  | .awaiting item => ∃ earlier, UnderWay item earlier t.replies t
  | .body => ∃ earlier, UnderWay .message earlier t.replies t
  | .answered item r => ∃ reply replies, t.replies = .ok reply :: replies ∧ reply.response = r ∧
      ∃ earlier, UnderWay item earlier replies t

namespace Phase

variable {ctx : Context} {p q : Phase} {t : Tally}

theorem Tallies.dial {connected : Bool} (hq : p.dial connected = some q) :
    q.Tallies (t.step ⟨.connect, connected⟩) := by
  cases p with
  | closed =>
    obtain rfl : (if connected then greeting else failed) = q := Option.some.inj hq
    cases connected with
    | true => exact ⟨Nat.succ_pos _, rfl, rfl, rfl⟩
    | false => trivial
  | _ => cases hq

theorem Tallies.receive {x : Except ReadFailure Reply} (ht : p.Tallies t)
    (hq : p.receive x = some q) : q.Tallies (t.step ⟨.readReply, x⟩) := by
  cases p with
  | greeting =>
    obtain ⟨hdialed, hforwarded, hreplies, hpassed⟩ := ht
    cases x with
    | ok reply =>
      obtain rfl : idle none = q := Option.some.inj hq
      refine ⟨hdialed, ?_, ?_⟩
      · show t.replies.length + 1 = t.forwarded.length + 1
        rw [hreplies, hforwarded]
        rfl
      · show t.passedOn = t.forwarded.length
        rw [hpassed, hforwarded]
        rfl
    | error e =>
      obtain rfl : failed = q := Option.some.inj hq
      trivial
  | awaiting item =>
    obtain ⟨earlier, hunder⟩ := ht
    cases x with
    | ok reply =>
      obtain rfl : answered item reply.response = q := Option.some.inj hq
      exact ⟨reply, t.replies, rfl, rfl, earlier, hunder.dialed, hunder.forwarded, hunder.replied,
        hunder.passedOn⟩
    | error e =>
      obtain rfl : failed = q := Option.some.inj hq
      trivial
  | _ => cases x <;> cases hq

/-- From rest an item comes under way. -/
theorem Tallies.open {last : Option (Exchange × SMTPResponse)} (ht : (idle last).Tallies t)
    (item : Exchange) :
    UnderWay item t.forwarded t.replies { t with forwarded := item :: t.forwarded } := by
  obtain ⟨hdialed, hreplied, hpassed⟩ := ht
  exact ⟨hdialed, rfl, hreplied, hpassed⟩

theorem Tallies.send {item : Item} (ht : p.Tallies t) (hq : p.send item = some q) :
    q.Tallies (t.forward item) := by
  cases p with
  | idle last =>
    cases item with
    | command c =>
      obtain ⟨-, hq⟩ := Option.ite_none_right_eq_some.mp hq
      obtain rfl := Option.some.inj hq
      exact ⟨_, ht.open (.command c)⟩
    | authLine l =>
      cases last with
      | none => cases hq
      | some last =>
        obtain ⟨-, hq⟩ := Option.ite_none_right_eq_some.mp hq
        obtain rfl := Option.some.inj hq
        exact ⟨_, ht.open (.authLine l)⟩
    | header bytes =>
      cases last with
      | none => cases hq
      | some last =>
        obtain ⟨-, hq⟩ := Option.ite_none_right_eq_some.mp hq
        obtain rfl := Option.some.inj hq
        exact ⟨_, ht.open .message⟩
    | bodyLine l =>
      cases last with
      | none => cases hq
      | some last => cases hq
  | body =>
    -- another line of the message that is under way
    cases item with
    | bodyLine l =>
      obtain rfl := Option.some.inj hq
      split
      · exact ht
      · exact ht
    | _ => cases hq
  | _ => cases item <;> cases hq

/-- One of spey's own replies changes nothing. -/
theorem eq_of_tell_own {site : ReplySite} {r : SMTPResponse} {written : Bool}
    (hsite : site.own = true) (hq : p.tell ctx site r written = some q) : p = q := by
  have hown := (if_pos hsite).symm.trans hq
  cases p with
  | closed | idle last | failed => exact Option.some.inj hown
  | _ => cases hown

/-- Another reply is the answer to the item that is under way. -/
theorem answered_of_tell {site : ReplySite} {r : SMTPResponse} {written : Bool}
    (hsite : ¬ site.own = true) (hq : p.tell ctx site r written = some q) :
    ∃ item reply, p = answered item reply ∧ item.answer ctx site reply = some r ∧
      (if written then idle (some (item, reply)) else failed) = q := by
  have hrelay := (if_neg hsite).symm.trans hq
  cases p with
  | answered item reply =>
    obtain ⟨hanswer, hq⟩ := Option.ite_none_right_eq_some.mp hrelay
    exact ⟨item, reply, rfl, hanswer, Option.some.inj hq⟩
  | _ => cases hrelay

theorem Tallies.tell {site : ReplySite} {r : SMTPResponse} {written : Bool} (ht : p.Tallies t)
    (hq : p.tell ctx site r written = some q) :
    q.Tallies (if site.own then t else { t with passedOn := t.passedOn + 1 }) := by
  by_cases hsite : site.own = true
  · obtain rfl := eq_of_tell_own hsite hq
    rw [if_pos hsite]
    exact ht
  · obtain ⟨item, reply, rfl, -, rfl⟩ := answered_of_tell hsite hq
    rw [if_neg hsite]
    obtain ⟨reply, replies, hreplies, -, earlier, hunder⟩ := ht
    cases written with
    | true =>
      refine ⟨hunder.dialed, ?_, ?_⟩
      · show t.replies.length = t.forwarded.length + 1
        rw [hreplies, hunder.forwarded, List.length_cons, List.length_cons, hunder.replied]
      · show t.passedOn + 1 = t.forwarded.length
        rw [hunder.passedOn, hunder.forwarded, List.length_cons]
    | false => trivial

theorem Tallies.hangUp (hq : p.hangUp = some q) : q.Tallies t := by
  cases p with
  | idle last =>
    obtain rfl := Option.some.inj hq
    trivial
  | _ => cases hq

/-- One event keeps the tally of the phase. -/
theorem Tallies.step {e : Event Ans} (ht : p.Tallies t) (hq : p.step ctx e = some q) :
    q.Tallies (t.step e) := by
  obtain ⟨c, x⟩ := e
  cases c with
  | connect => exact Tallies.dial hq
  | deinit => exact Tallies.hangUp hq
  | readReply => exact ht.receive hq
  | outReply site r => exact ht.tell hq
  | inWriteline item =>
    obtain ⟨p', hp', rfl⟩ := Option.map_eq_some_iff.mp hq
    cases x with
    | true => exact ht.send hp'
    | false => trivial
  | _ =>
    obtain rfl := Option.some.inj hq
    exact ht

end Phase

theorem tallied {ctx : Context} {p : Phase} {h : Log} (hp : (lockstep ctx).At p h) :
    p.Tallies (tally h) :=
  hp.invariant (I := fun p h => p.Tallies (tally h)) trivial
    fun _ _ _ _ ht hq => ht.step hq

/-! ## The lockstep of a session -/

/-- The reply `r` is what the inside server answered to the item that was
forwarded last, and its number on the connection is the number of that item. -/
def AnsweredInTurn (ctx : Context) (w : World) (site : ReplySite) (r : SMTPResponse) (past : Log) :
    Prop :=
  ∃ item earlier reply, (tally past).forwarded = item :: earlier ∧
    (tally past).passedOn = earlier.length ∧
    nthReply (w.dials ((tally past).dialed - 1)) (earlier.length + 1) = .ok reply ∧
    item.answer ctx site reply.response = some r

theorem Phase.Tallies.inTurn {ctx : Context} {w w' : World} {site : ReplySite}
    {item : Exchange} {reply r : SMTPResponse} {past : Log}
    (ht : (answered item reply).Tallies (tally past)) (hw : Fed w w' (tally past))
    (hr : item.answer ctx site reply = some r) : AnsweredInTurn ctx w site r past := by
  obtain ⟨read, replies, hreplies, rfl, earlier, hunder⟩ := ht
  have hfirst := hw.replies hunder.dialed
  rw [hreplies] at hfirst
  refine ⟨item, earlier, read, hunder.forwarded, hunder.passedOn, ?_, hr⟩
  rw [← hunder.replied]
  exact hfirst.1.symm

/-- The inside connection is used in lockstep, no command is both passed on and
answered by spey, and each reply that is passed on answers the item it belongs
to. -/
theorem proxy_lockstep (ctx : Context) (w : World) (rounds : Nat) :
    (lockstep ctx).Accepts (w.history ctx rounds) ∧ turns.Accepts (w.history ctx rounds) ∧
      ∀ site r x past, ⟨.outReply site r, x⟩ :: past <:+ w.history ctx rounds →
        site.own = false → AnsweredInTurn ctx w site r past := by
  obtain ⟨result, s, hrun⟩ := w.history_ends ctx rounds
  obtain ⟨hlockstep, hturns⟩ := (Lockstep.valid ctx rounds).process hrun
  refine ⟨hlockstep, hturns, fun site r x past hpast hsite => ?_⟩
  obtain ⟨q, hq⟩ := hlockstep.of_suffix hpast
  obtain ⟨p, hp, htell⟩ := hq.of_cons
  obtain ⟨item, reply, rfl, hanswer, -⟩ :=
    Phase.answered_of_tell (Bool.eq_false_iff.mp hsite) htell
  obtain ⟨w', hw⟩ := w.fed ctx rounds ((List.suffix_cons _ past).trans hpast)
  exact (tallied hp).inTurn hw hanswer

/-- Four commands and the message: QUIT stays with spey. -/
example : (tally ((World.ofLines .Accepted
    ["HELO a.b", "MAIL FROM:<a@b>", "RCPT TO:<c@d>", "DATA", "x", ".", "QUIT"]
    ["220 mx", "250 a", "250 b", "250 c", "354 go", "250 d", "250 e"]).history
      (.sample 0 .NoAuth) 10)).passedOn = 5 := by decide +kernel

end Spey
