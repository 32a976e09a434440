import Spey.Session.Refines
import Spey.Session.Events
import Spey.World
import Spey.Wire.ReplyFormat

/-!
# The replies of a session are well formed

A session writes replies of spey's own, which have no continuation, and replies
that it has read off the inside server, which have one only where the code is
250. The tweaks of a 250 reply leave its code alone.
-/

namespace Spey

open Interaction

/-- Only a 250 has continuation lines. -/
def SMTPResponse.Shaped (r : SMTPResponse) : Prop := r.continuation ≠ [] → r.code = 250

namespace ReplyShape

open Config

variable {ctx : Context} {rounds left : Nat} {s : Session} {c : Config} {h : Log}

theorem shaped_of_nil {r : SMTPResponse} (hr : r.continuation = []) : r.Shaped :=
  fun hne => absurd hr hne

theorem shaped_read (r : Reply) : r.response.Shaped := r.read.continuation_code

theorem shaped_tweak (cmd : Verb) {r : SMTPResponse} (hr : r.Shaped) : (tweak ctx cmd r).Shaped := by
  unfold tweak
  split_ifs with hcode
  · exact fun _ => hcode
  · exact hr
  · exact hr

/-- The replies that a session has at hand. -/
structure Shapes (s : Session) : Prop where
  response : s.response.Shaped
  deferrederror : s.deferrederror.Shaped

theorem Shapes.respond (hs : Shapes s) {r : SMTPResponse} (hr : r.Shaped) :
    Shapes { s with response := r } :=
  ⟨hr, hs.deferrederror⟩

theorem Shapes.defer (hs : Shapes s) {r : SMTPResponse} (hr : r.continuation = []) :
    Shapes { s with deferrederror := r } :=
  ⟨hs.response, shaped_of_nil hr⟩

theorem Shapes.refuse (hs : Shapes s) : Shapes { s with response := s.deferrederror } :=
  ⟨hs.deferrederror, hs.deferrederror⟩

theorem Shapes.deny {r : SMTPResponse} (hr : r.continuation = []) : Shapes (deny s left r).session :=
  ⟨shaped_of_nil hr, shaped_of_nil hr⟩

theorem Shapes.again (hs : Shapes s) : Shapes (again s left).session :=
  again_meets (P := fun _ => Shapes) hs hs

theorem Shapes.greet (hs : Shapes s) : Shapes (greet ctx s left).session :=
  hs.respond (shaped_of_nil rfl)

theorem Shapes.zones (hs : Shapes s) (rbls : List Bytes) : Shapes (zones ctx s left rbls).session :=
  zones_meets (P := fun _ => Shapes) (fun _ _ => hs) hs hs.greet

theorem Shapes.second (hs : Shapes s) : Second (fun _ => Shapes) s where
  send _ := hs
  authSend _ := hs
  challenge _ _ _ := hs
  lookup _ _ _ _ := hs
  deny _ _ _ := ⟨shaped_of_nil rfl, shaped_of_nil rfl⟩

theorem Shapes.proceed (hs : Shapes s) : Proceed (fun _ => Shapes) s where
  dial _ := hs
  second _ := hs.second

theorem Shapes.sender (hs : Shapes s) (l : Line) : Shapes { s with _from := l } :=
  ⟨hs.response, hs.deferrederror⟩

theorem Shapes.dispatch (hs : Shapes s) : Dispatch ctx (fun _ => Shapes) s where
  help _ := hs.respond (shaped_of_nil rfl)
  quit _ := hs
  starttls _ _ := hs.respond (shaped_of_nil rfl)
  deny _ _ _ := ⟨shaped_of_nil rfl, shaped_of_nil rfl⟩
  domain _ _ := hs
  sender _ _ := hs.sender _
  mail _ _ := (hs.sender _).proceed
  recipient _ _ := hs
  accepted _ _ := hs
  rset _ := (hs.sender _).proceed
  refused _ _ := hs.refuse
  data _ _ := hs.proceed
  passed _ _ := hs.proceed
  other _ := hs.proceed

theorem Shapes.credentials (hs : Shapes s) (found : Option (Bytes × Bytes)) :
    Shapes (credentials s left found).session :=
  credentials_meets (P := fun _ => Shapes) ⟨shaped_of_nil rfl, shaped_of_nil rfl⟩ fun _ _ => hs

/-- One step of a session: the reply that it writes, and what it has at hand then. -/
theorem step (hs : Shapes c.session) : (machine ctx rounds c).All fun e c' =>
    Shapes c'.session ∧ ∀ r, given e = some r → r.Shaped := by
  obtain ⟨point, s, left⟩ := c
  replace hs : Shapes s := hs
  have hnone : ∀ r : SMTPResponse, none = some r → r.Shaped := fun _ h => by cases h
  have hgiven : ∀ r, some s.response = some r → r.Shaped := fun r h => by
    obtain rfl := Option.some.inj h
    exact hs.response
  cases point with
  | opening =>
    refine fun trusted => ⟨querying_meets (P := fun _ => Shapes) hs (fun trusted => ?_) trusted, hnone⟩
    have hs' : Shapes { s with trusted } := ⟨hs.response, hs.deferrederror⟩
    exact ite_meets (P := fun _ => Shapes) (fun _ => hs'.greet) fun _ => hs'.zones _
  | zone rbl rbls =>
    rintro (_ | _)
    · exact ⟨hs.zones rbls, hnone⟩
    · exact ⟨hs.defer rfl, hnone⟩
  | pause =>
    rintro (_ | _)
    · exact ⟨hs.greet, hnone⟩
    · exact ⟨hs.defer rfl, hnone⟩
  | banner | help | bodyRelay =>
    exact fun x => ⟨orRaise_meets (P := fun _ => Shapes) hs hs.again x, hgiven⟩
  | head =>
    refine fun x => ⟨reading_meets (P := fun _ => Shapes) (fun _ => hs) (fun l => ?_) x, hnone⟩
    refine parsed_meets (fun _ => hs.respond (shaped_of_nil rfl)) fun c _ => ?_
    exact Shapes.dispatch (s := { s with command := c }) ⟨hs.response, hs.deferrederror⟩
  | syntaxError =>
    refine fun x => ⟨orRaise_meets (P := fun _ => Shapes) hs ?_ x, hgiven⟩
    exact ite_meets (fun _ => hs) fun _ => hs.again
  | starttls =>
    refine fun x => ⟨orRaise_meets (P := fun _ => Shapes) hs ?_ x, hgiven⟩
    exact hs
  | handshake =>
    have hsecured : Shapes (secured s) := ⟨hs.response, hs.deferrederror⟩
    rintro (_ | _)
    · exact ⟨hs, hnone⟩
    · exact ⟨ite_meets (P := fun _ => Shapes) (fun _ => hsecured) fun _ => hsecured.again, hnone⟩
  | hangUp => exact fun _ => ⟨hs.again, hnone⟩
  | domain | sender =>
    exact fun _ => ⟨ite_meets (P := fun _ => Shapes) (fun _ => hs.proceed.meets)
      fun _ => hs.defer rfl, hnone⟩
  | recipient =>
    exact fun _ => ⟨ite_meets (P := fun _ => Shapes) (fun _ => hs) fun _ => hs.defer rfl, hnone⟩
  | acceptance =>
    refine fun x => ⟨querying_meets (P := fun _ => Shapes) hs (fun accepted => ?_) x, hnone⟩
    exact ite_meets (fun _ => hs) fun _ => hs.defer rfl
  | greylisting =>
    refine fun x => ⟨querying_meets (P := fun _ => Shapes) hs (fun verdict => ?_) x, hnone⟩
    cases verdict with
    | Accepted => exact hs
    | GreyListed | BlackListed => exact ⟨hs.response, shaped_of_nil rfl⟩
  | counting counter passes =>
    refine fun x => ⟨orRaise_meets (P := fun _ => Shapes) hs ?_ x, hnone⟩
    cases passes with
    | false => exact hs.refuse
    | true => exact hs.proceed.meets
  | refusal =>
    refine fun x => ⟨orRaise_meets (P := fun _ => Shapes) hs ?_ x, hgiven⟩
    exact refused_meets (fun _ => hs) fun _ => Shapes.again ⟨hs.response, hs.deferrederror⟩
  | dial =>
    rintro (_ | _)
    · exact ⟨hs.respond (shaped_of_nil rfl), hnone⟩
    · exact ⟨hs, hnone⟩
  | greeting =>
    rintro (_ | r)
    · exact ⟨hs.respond (shaped_of_nil rfl), hnone⟩
    · have hs' : Shapes { s with response := r.response, connected := true } :=
        ⟨shaped_read r, hs.deferrederror⟩
      exact ⟨ite_meets (P := fun _ => Shapes) (fun _ => hs'.second.meets)
        fun _ => hs.respond (shaped_of_nil rfl), hnone⟩
  | noDownstream => exact fun _ => ⟨hs, hgiven⟩
  | send | authSend | authForward =>
    refine fun x => ⟨orRaise_meets (P := fun _ => Shapes) hs ?_ x, hnone⟩
    exact hs
  | reply =>
    refine fun x => ⟨reading_meets (P := fun _ => Shapes) (fun _ => hs) (fun r => ?_) x, hnone⟩
    exact hs.respond (shaped_tweak _ (shaped_read r))
  | authReply | authAnswer | bodyReply =>
    refine fun x => ⟨reading_meets (P := fun _ => Shapes) (fun _ => hs) (fun r => ?_) x, hnone⟩
    exact hs.respond (shaped_read r)
  | relay =>
    refine fun x => ⟨orRaise_meets (P := fun _ => Shapes) hs ?_ x, hgiven⟩
    exact third_meets (fun _ _ => hs) (fun _ _ => naming_meets hs fun _ _ => hs) (fun _ => hs)
      fun _ => hs.again
  | authRelay =>
    refine fun x => ⟨orRaise_meets (P := fun _ => Shapes) hs ?_ x, hgiven⟩
    exact ite_meets (fun _ => exchange_meets (fun _ => hs) hs) fun _ => hs.again
  | authPass k =>
    refine fun x => ⟨orRaise_meets (P := fun _ => Shapes) hs ?_ x, hgiven⟩
    apply ite_meets fun _ => exchange_meets (fun _ => hs) hs
    exact fun _ => ite_meets (fun _ => Shapes.again ⟨hs.response, hs.deferrederror⟩) fun _ => hs.again
  | challenge stage =>
    refine fun x => ⟨orRaise_meets (P := fun _ => Shapes) hs ?_ x, fun r hr => ?_⟩
    · exact hs
    · obtain rfl := Option.some.inj hr
      exact shaped_of_nil rfl
  | conversation stage =>
    refine fun x => ⟨reading_meets (P := fun _ => Shapes) (fun _ => hs) (fun l => ?_) x, hnone⟩
    exact ite_meets (fun _ => Shapes.deny rfl) fun _ =>
      answered_meets (fun _ => hs) fun _ => hs.credentials _
  | lookup username password =>
    rintro (_ | n)
    · exact ⟨Shapes.deny rfl, hnone⟩
    · exact ⟨ite_meets (P := fun _ => Shapes) (fun _ => Shapes.deny rfl)
        fun _ => hs.respond (shaped_of_nil rfl), hnone⟩
  | authenticated =>
    refine fun x => ⟨orRaise_meets (P := fun _ => Shapes) hs ?_ x, hgiven⟩
    exact Shapes.again ⟨hs.response, hs.deferrederror⟩
  | name | name' => exact fun _ => ⟨hs, hnone⟩
  | header =>
    exact fun x => ⟨orRaise_meets (P := fun _ => Shapes) hs (body_meets (fun _ => hs) hs) x, hnone⟩
  | bodyForward k l =>
    refine fun x => ⟨orRaise_meets (P := fun _ => Shapes) hs ?_ x, hnone⟩
    exact ite_meets (fun _ => hs) fun _ => body_meets (fun _ => hs) hs
  | authLine | bodyLine =>
    refine fun x => ⟨reading_meets (P := fun _ => Shapes) (fun _ => hs) (fun l => ?_) x, hnone⟩
    exact hs
  | finished => trivial

theorem on_shaped (hc : (machine ctx rounds).On (initial left) c h) :
    Shapes c.session ∧ ∀ e ∈ h, ∀ r, given e = some r → r.Shaped := by
  refine hc.invariant (I := fun c h => Shapes c.session ∧ ∀ e ∈ h, ∀ r, given e = some r → r.Shaped)
    ⟨⟨shaped_of_nil rfl, shaped_of_nil rfl⟩, fun e he => absurd he List.not_mem_nil⟩ ?_
  rintro c h ⟨hs, hpast⟩
  refine (step hs).mono fun e c' hstep => ⟨hstep.1, fun e' he' => ?_⟩
  rcases List.mem_cons.mp he' with rfl | he'
  · exact hstep.2
  · exact hpast e' he'

end ReplyShape

/-- Every response with texts of one line each is written as one reply, a 250 is
read back from it, and no session writes a continuation with another code. -/
theorem replies_well_formed :
    (∀ r : SMTPResponse, 200 ≤ r.code → r.code ≤ 599 → r.Texts →
      (∃ ls, r.WritesReply ls) ∧ (r.code = 250 → r.ReadsBack)) ∧
    ∀ (ctx : Context) (rounds : Nat) (result : Except Exn Unit) (s : Session) (h : Log),
      (process ctx rounds).Ends {} [] result s h →
      ∀ (site : ReplySite) (r : SMTPResponse) (written : Bool), ⟨.outReply site r, written⟩ ∈ h →
        r.continuation ≠ [] → r.code = 250 := by
  constructor
  · exact fun r hlo hhi hr => ⟨⟨_, SMTPResponse.writesReply hlo hhi hr⟩,
      fun hcode => SMTPResponse.readsBack hcode hr⟩
  · intro ctx rounds result s h hrun site r written hmem
    obtain ⟨left, hc⟩ := process_on hrun
    exact (ReplyShape.on_shaped hc).2 _ hmem r rfl

/-- An EHLO reply with two capabilities, and the session of a client that asks for them. -/
def greetedClient : World := .ofLines .Accepted
  ["EHLO a.b", "QUIT"] ["220 in", "250-in", "250-SIZE 10", "250 AUTH PLAIN"]

theorem greetedClient_well_formed :
    ((∃ ls, SMTPResponse.WritesReply
        ⟨250, text "mx", [], [text "STARTTLS", text "AUTH PLAIN"]⟩ ls) ∧
      SMTPResponse.ReadsBack ⟨250, text "mx", [], [text "STARTTLS", text "AUTH PLAIN"]⟩) ∧
    ∀ (site : ReplySite) (r : SMTPResponse) (written : Bool),
      ⟨.outReply site r, written⟩ ∈ greetedClient.history (.sample 0 .ProxyAuth) 9 →
      r.continuation ≠ [] → r.code = 250 := by
  have htexts : SMTPResponse.Texts ⟨250, text "mx", [], [text "STARTTLS", text "AUTH PLAIN"]⟩ :=
    ⟨by decide, by decide, by decide⟩
  have hreply := replies_well_formed.1 _ (by decide) (by decide) htexts
  obtain ⟨r, s, hrun⟩ := greetedClient.history_ends (.sample 0 .ProxyAuth) 9
  exact ⟨⟨hreply.1, hreply.2 rfl⟩, replies_well_formed.2 _ _ _ _ _ hrun⟩

end Spey
