import Spey.MessageProcessor

/-!
# A byte-level environment of a session

A `World` answers the calls of a session from byte streams: what the client will
still send, now and inside TLS, and what the inside server sends on each
connection. A line that is written whole is appended to what the present
connection has received. Everything else, the failures included, is up to an
oracle.
-/

namespace Spey

structure World where
  client : Feed
  /-- what the client sends once the handshake is done -/
  secured : Feed
  /-- what the inside server still sends on the present connection -/
  inside : Feed
  /-- what it sends on the connections to come -/
  dials : Nat → Feed
  /-- what was written to the present connection -/
  sent : Bytes := []
  tick : Nat := 0
  oracle : Nat → (c : Call) → Ans c

namespace World

def answer : (c : Call) → World → Ans c × World
  | .outReadline _, w =>
      let (l, client) := Socket.readline w.client
      (l, { w with client, tick := w.tick + 1 })
  | .outRead delay, w =>
      -- data that came too soon: one byte of it is taken
      if w.oracle w.tick (.outRead delay) then
        (true, { w with client := ⟨w.client.bytes.drop 1, w.client.ending⟩, tick := w.tick + 1 })
      else (false, { w with tick := w.tick + 1 })
  | .makesecure, w =>
      if w.oracle w.tick .makesecure then
        (true, { w with client := w.secured, tick := w.tick + 1 })
      else (false, { w with tick := w.tick + 1 })
  | .connect, w =>
      if w.oracle w.tick .connect then
        (true, { w with
          inside := w.dials 0, dials := fun n => w.dials (n + 1), sent := [], tick := w.tick + 1 })
      else (false, { w with tick := w.tick + 1 })
  | .readReply, w =>
      let (r, inside) := SMTPResponse.read w.inside
      (r, { w with inside, tick := w.tick + 1 })
  | .inWriteline item, w =>
      if w.oracle w.tick (.inWriteline item) then
        (true, { w with sent := w.sent ++ Socket.writeline item.string, tick := w.tick + 1 })
      else (false, { w with tick := w.tick + 1 })
  | c, w => (w.oracle w.tick c, { w with tick := w.tick + 1 })

/-- Nothing fails, nobody is trusted, and `greylist` gives this verdict. -/
def allow (verdict : GreylistResponse) : (c : Call) → Ans c
  | .outReadline _ => .error .network
  | .readReply => .error .network
  | .outRead _ => false
  | .outReply _ _ | .makesecure | .connect | .inWriteline _ | .count _ => true
  | .deinit | .verifydomain _ | .verifyaddress _ => ()
  | .gethostbyname _ => false
  | .gethostbyaddr => none
  | .testtrusted _ => some false
  | .testacceptance _ => some true
  | .greylist _ _ _ => some verdict
  | .users _ _ => some 0

/-- The whole session against a world. -/
def session (w : World) (ctx : Context) (rounds : Nat) : (Except Exn Unit × Session) × World × Log :=
  (process ctx rounds).run answer {} w

/-- Irreducible: a run on given bytes is evaluated by the kernel only. -/
@[irreducible] def history (w : World) (ctx : Context) (rounds : Nat) : Log :=
  (w.session ctx rounds).2.2

/-- What the session ends with. -/
@[irreducible] def result (w : World) (ctx : Context) (rounds : Nat) : Except Exn Unit :=
  (w.session ctx rounds).1.1

theorem result_ends (w : World) (ctx : Context) (rounds : Nat) :
    ∃ s, (process ctx rounds).Ends {} [] (w.result ctx rounds) s (w.history ctx rounds) := by
  unfold result history
  exact ⟨_, Interaction.Action.ends_run answer (process ctx rounds) {} w⟩

/-- The history is one of an execution. -/
theorem history_ends (w : World) (ctx : Context) (rounds : Nat) :
    ∃ r s, (process ctx rounds).Ends {} [] r s (w.history ctx rounds) := by
  unfold history
  exact ⟨_, _, Interaction.Action.ends_run answer (process ctx rounds) {} w⟩

end World

/-- A peer that sends these lines and closes the connection. -/
def Feed.ofLines (ls : List String) : Feed :=
  ⟨(ls.map fun l => Socket.writeline (text l)).flatten, .network⟩

/-- A client and an inside server that send these lines, and settings to run them with. -/
def World.ofLines (verdict : GreylistResponse) (client inside : List String) : World where
  client := .ofLines client
  secured := .ofLines []
  inside := .ofLines []
  dials _ := .ofLines inside
  oracle _ := World.allow verdict

def Context.sample (intolerant : Int) (externalauthmode : AuthMode) : Context where
  settings := {
    identity := text "mx", intolerant, quarantinetime := 300, greetpause := 0, externaltls := true
    externalauthmode, rbllist := [] }
  gnutls := true
  address := 0x7F000001
  port := 25

end Spey
