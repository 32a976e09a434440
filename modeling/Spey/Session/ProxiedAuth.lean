import Spey.Session.ReplyShape
import Spey.Session.Reached
import Spey.Session.Flow
import Spey.Wire.ReplyFormat
import Spey.Interaction.Monitor

/-!
# The proxied AUTH exchange

In proxy mode the lines of an AUTH exchange should pass through as they are. The
monitor `exchange` says so: each reply of the inside server goes to the client
before anything else happens, a challenge as the line that it came as; then the
client's next line goes to the inside server, unchanged. The printer puts a space
after the parameter of a reply, also where no message follows, so a challenge
passes through only if its text is empty.
-/

namespace Spey

open Interaction

namespace ProxiedAuth

/-- How far a proxied exchange has got. -/
inductive Stage where
  | idle
  /-- a line was sent to the inside server -/
  | waiting
  /-- its reply was read -/
  | passing (r : SMTPResponse)
  /-- a challenge was passed on -/
  | answering
  /-- the client's answer was read -/
  | forwarding (l : Line)
  /-- a connection broke in the middle -/
  | broken

/-- The reply that goes to the client keeps the code, and the line of a challenge. -/
def Passes (r r' : SMTPResponse) : Prop :=
  r'.code = r.code ∧
    (r.code = 334 → Socket.writeline r'.string = text "334 " ++ r.parameter ++ [CR, LF])

instance (r r' : SMTPResponse) : Decidable (Passes r r') :=
  inferInstanceAs (Decidable (_ ∧ _))

/-- What may happen at a stage, and where it leads. -/
def Stage.step : Stage → Event Ans → Option Stage
  | .idle, ⟨.inWriteline (.command c), sent⟩ =>
      if c.cmd = .AUTH then some (if sent then .waiting else .broken) else some .idle
  | .idle, ⟨.inWriteline (.authLine _), _⟩ => none
  | .idle, ⟨.outReadline .authLine, _⟩ => none
  | .idle, ⟨.outReply .proxiedAuth _, _⟩ => none
  | .idle, _ => some .idle
  | .waiting, ⟨.readReply, .ok r⟩ => some (.passing r.response)
  | .waiting, ⟨.readReply, .error _⟩ => some .broken
  | .passing r, ⟨.outReply _ r', written⟩ =>
      if Passes r r' then
        some (if written then if r.code = 334 then .answering else .idle else .broken)
      else none
  | .answering, ⟨.outReadline _, .ok l⟩ => some (.forwarding l)
  | .answering, ⟨.outReadline _, .error _⟩ => some .broken
  | .forwarding l, ⟨.inWriteline item, sent⟩ =>
      if Socket.writeline item.string = l.bytes ++ [CR, LF] then
        some (if sent then .waiting else .broken)
      else none
  | _, _ => none

def exchange : Monitor Ans Stage := ⟨.idle, Stage.step⟩

/-- Every proxied exchange of the history passed its lines through as they are. -/
def Transparent (h : Log) : Prop := exchange.Accepts h

/-- The item belongs to an exchange. -/
def authenticates : Item → Bool
  | .command c => c.cmd = .AUTH
  | .authLine _ => true
  | .header _ | .bodyLine _ => false

/-- The last event sent a line of an exchange. -/
def asked : Log → Bool
  | ⟨.inWriteline item, _⟩ :: _ => authenticates item
  | _ => false

/-- The text of the challenge that is read by this event, if it is one. -/
def challengeText (past : Log) : Event Ans → Option Bytes
  | ⟨.readReply, .ok r⟩ =>
      if asked past ∧ r.response.code = 334 then some r.response.parameter else none
  | _ => none

/-- The inside server has given only challenges without a text. -/
def EmptyChallenges (h : Log) : Prop := Always (fun e past => ∀ c, challengeText past e = some c → c = []) h

/-! ## One reply -/

theorem status_334 {a b c : Byte} (hdigits : isdigit a ∧ isdigit b ∧ isdigit c)
    (h : SMTPResponse.status a b c = 334) : a = byte '3' ∧ b = byte '3' ∧ c = byte '4' := by
  have hbyte : ∀ {x : Byte}, isdigit x → x = UInt8.ofNat (48 + SMTPResponse.digit x) := by
    intro x hx
    have hlo : byte '0' ≤ x := by simpa using (of_decide_eq_true hx).1
    have hn : 48 ≤ x.toNat := UInt8.le_iff_toNat_le.mp hlo
    rw [SMTPResponse.digit, Nat.add_sub_cancel' hn, UInt8.ofNat_toNat]
  have ha := SMTPResponse.digit_lt hdigits.1
  have hb := SMTPResponse.digit_lt hdigits.2.1
  have hc := SMTPResponse.digit_lt hdigits.2.2
  unfold SMTPResponse.status at h
  have ha3 : SMTPResponse.digit a = 3 := by omega
  have hb3 : SMTPResponse.digit b = 3 := by omega
  have hc4 : SMTPResponse.digit c = 4 := by omega
  refine ⟨?_, ?_, ?_⟩
  · rw [hbyte hdigits.1, ha3]
    rfl
  · rw [hbyte hdigits.2.1, hb3]
    rfl
  · rw [hbyte hdigits.2.2, hc4]
    rfl

/-- A challenge is read as the text that its line has after the code. -/
theorem read_challenge {input rest : Feed} {r : Reply}
    (h : SMTPResponse.read input = (.ok r, rest)) (hcode : r.response.code = 334) :
    ∃ l : Line, Socket.readline input = (.ok l, rest) ∧
      l.bytes = text "334 " ++ r.response.parameter := by
  unfold SMTPResponse.read at h
  cases hl : Socket.readline input with | mk answer input' => ?_
  rw [hl] at h
  rcases answer with e | ⟨bytes, hone⟩
  · cases h
  rcases bytes with _ | ⟨a, _ | ⟨b, _ | ⟨c, _ | ⟨d, t⟩⟩⟩⟩
  · cases h
  · cases h
  · cases h
  · cases h
  dsimp only at h
  split_ifs at h with hdigits hhyphen h250 hsp
  · split at h
    next => cases h
    next =>
      obtain ⟨hr, -⟩ := Prod.mk.inj h
      obtain rfl := Except.ok.inj hr
      exact absurd (h250.symm.trans hcode) (by decide)
  · cases h
  · obtain ⟨hr, rfl⟩ := Prod.mk.inj h
    obtain rfl := Except.ok.inj hr
    have h334 : SMTPResponse.status a b c = 334 := hcode
    obtain ⟨rfl, rfl, rfl⟩ := status_334 hdigits h334
    subst hsp
    exact ⟨_, rfl, rfl⟩
  · cases h
  · cases h

/-- What is printed for a challenge. -/
theorem string_challenge (r : Reply) (hcode : r.response.code = 334) : r.response.string =
    text "334 " ++ (if r.response.parameter = [] then [] else r.response.parameter ++ [SP]) := by
  obtain ⟨⟨code, parameter, msgoverride, continuation⟩, hread⟩ := r
  have hmsg : msgoverride = [] := hread.no_message
  have hcont : continuation = [] := by
    by_contra hne
    have h250 : code = 250 := hread.continuation_code hne
    have h334 : code = 334 := hcode
    omega
  obtain rfl : code = 334 := hcode
  have hdec : decimal (334 : Nat) = text "334" := by decide +kernel
  subst hmsg hcont
  have hsp : text " " = [SP] := rfl
  have hprefix : text "334 " = text "334" ++ [SP] := rfl
  have hnone : text (SMTPResponse.statusMessage 334) = [] := rfl
  simp only [SMTPResponse.string, hdec, hsp, hprefix, hnone, SMTPResponse.printContinuation,
    ↓reduceIte, List.append_nil, ite_not]

theorem passes_iff (r : Reply) :
    Passes r.response r.response ↔ (r.response.code = 334 → r.response.parameter = []) := by
  have hone : OneLine (text "334 ") := by decide
  constructor
  · rintro ⟨-, h⟩ hcode
    by_contra hne
    have hline := h hcode
    have hstring : OneLine (text "334 " ++ (r.response.parameter ++ [SP])) := by
      simp only [oneLine_append, hone, r.read.parameter_oneLine, true_and]
      decide
    rw [string_challenge r hcode, if_neg hne, Socket.writeline_oneLine hstring] at hline
    have hlength := congrArg List.length hline
    simp only [List.length_append, List.length_cons, List.length_nil] at hlength
    omega
  · intro h
    refine ⟨rfl, fun hcode => ?_⟩
    rw [string_challenge r hcode, if_pos (h hcode), h hcode, List.append_nil,
      Socket.writeline_oneLine hone]

/-! ## Runs -/

/-- The monitor has followed `h` to such a stage if the challenges of `judged` were all
empty, and otherwise it has rejected `h`. -/
structure Tracks (ok : Stage → Prop) (judged h : Log) : Prop where
  accepted : EmptyChallenges judged → ∃ stage, exchange.At stage h ∧ ok stage
  empty : Transparent h → EmptyChallenges judged

section
variable {ok ok' : Stage → Prop} {judged judged' h : Log} {stage stage' : Stage} {e : Event Ans}

theorem Tracks.mono (hs : Tracks ok judged h) (hok : ∀ stage, ok stage → ok' stage) :
    Tracks ok' judged h where
  accepted he := by
    obtain ⟨stage, hat, hstage⟩ := hs.accepted he
    exact ⟨stage, hat, hok stage hstage⟩
  empty := hs.empty

theorem Transparent.of_cons (h' : Transparent (e :: h)) : Transparent h :=
  Monitor.Accepts.of_suffix (List.suffix_cons e h) h'

/-- An event that has its place. -/
theorem Tracks.next (hs : Tracks (· = stage) judged h) (he : stage.step e = some stage')
    (hjudged : EmptyChallenges judged' ↔ EmptyChallenges judged) :
    Tracks (· = stage') judged' (e :: h) where
  accepted hempty := by
    obtain ⟨_, hat, rfl⟩ := hs.accepted (hjudged.mp hempty)
    exact ⟨stage', hat.cons he, rfl⟩
  empty htransparent := hjudged.mpr (hs.empty htransparent.of_cons)

theorem emptyChallenges_cons (he : challengeText h e = none) :
    EmptyChallenges (e :: h) ↔ EmptyChallenges h := by
  refine ⟨And.right, fun hs => ⟨fun c hc => ?_, hs⟩⟩
  rw [he] at hc
  cases hc

theorem Tracks.cons (hs : Tracks (· = stage) h h) (stage' : Stage) (he : stage.step e = some stage')
    (hnone : challengeText h e = none) : Tracks (· = stage') (e :: h) (e :: h) :=
  hs.next he (emptyChallenges_cons hnone)

/-- A reply of the exchange goes to the client: the challenge in it is judged here. -/
theorem Tracks.pass {r : Reply} {past : Log} (site : ReplySite) (written : Bool)
    (hasked : asked past = true)
    (hs : Tracks (· = .passing r.response) past (⟨.readReply, .ok r⟩ :: past)) :
    Tracks (· = if written then if r.response.code = 334 then .answering else .idle else .broken)
      (⟨.outReply site r.response, written⟩ :: ⟨.readReply, .ok r⟩ :: past)
      (⟨.outReply site r.response, written⟩ :: ⟨.readReply, .ok r⟩ :: past) := by
  have hstep : Stage.step (.passing r.response) ⟨.outReply site r.response, written⟩ =
      if Passes r.response r.response then
        some (if written then if r.response.code = 334 then .answering else .idle else .broken)
      else none := rfl
  have hjudged : EmptyChallenges
      (⟨.outReply site r.response, written⟩ :: ⟨.readReply, .ok r⟩ :: past) ↔
        Passes r.response r.response ∧ EmptyChallenges past := by
    rw [emptyChallenges_cons rfl, passes_iff]
    refine and_congr_left fun _ => ?_
    by_cases hcode : r.response.code = 334
    · simp [challengeText, hasked, hcode]
    · simp [challengeText, hcode]
  constructor
  · intro hempty
    obtain ⟨hpasses, hpast⟩ := hjudged.mp hempty
    obtain ⟨_, hat, rfl⟩ := hs.accepted hpast
    rw [if_pos hpasses] at hstep
    exact ⟨_, hat.cons hstep, rfl⟩
  · rintro htransparent
    have hpast := hs.empty htransparent.of_cons
    obtain ⟨_, hat, rfl⟩ := hs.accepted hpast
    obtain ⟨stage, hstage⟩ := htransparent
    obtain ⟨stage', hat', hnext⟩ := hstage.of_cons
    obtain rfl : Stage.passing r.response = stage' := Option.some.inj (hat.symm.trans hat')
    refine hjudged.mpr ⟨?_, hpast⟩
    by_contra hpasses
    rw [show exchange.step (.passing r.response) ⟨.outReply site r.response, written⟩ = none from
      hstep.trans (if_neg hpasses)] at hnext
    cases hnext

end

/-- The places outside the exchange, but for the banner of the inside server. -/
def resting : Point → Bool
  | .greeting | .authReply | .authRelay | .authLine _ | .authForward _ _ | .authAnswer _
  | .authPass _ => false
  | _ => true

/-- What the monitor has seen at each place. -/
def Seen (h : Log) : Point → Session → Prop
  | .greeting, _ => Tracks (· = .idle) h h ∧ asked h = false
  | .authReply, _ | .authAnswer _, _ => Tracks (· = .waiting) h h
  | .authRelay, s | .authPass _, s => Tracks (· = .passing s.response) h.tail h
  | .authLine _, _ => Tracks (· = .answering) h h
  | .authForward _ l, _ => Tracks (· = .forwarding l) h h
  | .finished _, _ => Tracks (fun _ => True) h h
  | _, _ => Tracks (· = .idle) h h

section
open Config

variable {ctx : Context} {rounds left : Nat} {s : Session} {c : Config} {h : Log} {point : Point}

theorem seen_resting (hp : resting point) (hs : Tracks (· = .idle) h h) : Seen h point s := by
  cases point <;> first | exact hs | exact hs.mono fun _ _ => trivial | cases hp

theorem seen_finished {stage : Stage} (hs : Tracks (· = stage) h h) (r : Except Exn Unit) :
    Seen h (.finished r) s :=
  hs.mono fun _ _ => trivial

/-- The configuration is at a place outside the exchange. -/
def Rests (c : Config) : Prop := resting c.point = true

/-- The exchange is entered from two places only. -/
theorem rests_calm : Calm fun point _ => resting point = true where
  calm point _ hp := by cases point <;> first | rfl | cases hp
  proceed _ := ⟨fun _ => rfl, fun _ => ⟨fun _ => rfl, fun _ => rfl, fun _ _ _ => rfl,
    fun _ _ _ _ => rfl, fun _ _ _ => rfl⟩⟩

/-- Outside the exchange the session stays outside, but for the places that lead in. -/
theorem resting_step (hp : resting c.point) (hauth : c.point ≠ .authSend) (hdial : c.point ≠ .dial) :
    (machine ctx rounds c).All fun _ c' => Rests c' := by
  cases hengaged : c.point.engaged with
  | false => exact rests_calm.step hengaged
  | true =>
    obtain ⟨point, s, left⟩ := c
    cases point with
    | send => exact orRaise_meets (P := fun p _ => resting p = true) rfl rfl
    | reply => exact reading_meets (P := fun p _ => resting p = true) (fun _ => rfl) fun _ => rfl
    | dial => exact absurd rfl hdial
    | authSend => exact absurd rfl hauth
    | greeting | authReply | authRelay | authLine | authForward | authAnswer | authPass => cases hp
    | _ => cases hengaged

theorem asked_sent {item : Item} (hsent : Sent item h) : asked h = authenticates item := by
  obtain ⟨past, rfl⟩ := List.head?_eq_some_iff.mp hsent
  rfl

/-- What happens there has no part in an exchange. -/
theorem resting_event (hk : Known ctx c h) (hp : resting c.point) (hauth : c.point ≠ .authSend) :
    (machine ctx rounds c).All fun e _ =>
      Stage.step .idle e = some .idle ∧ challengeText h e = none := by
  obtain ⟨point, s, left⟩ := c
  have hk : Holds ctx h point s := hk
  have hhere := hk.here
  have hreply : ∀ {item x}, Sent item h → authenticates item = false →
      challengeText h ⟨.readReply, x⟩ = none := by
    intro item x hsent hitem
    rcases x with e | r
    · rfl
    · simp [challengeText, asked_sent hsent, hitem]
  cases point with
  | send =>
    intro sent
    have hcmd : s.command.cmd ≠ .AUTH := hhere.2
    exact ⟨if_neg hcmd, rfl⟩
  | reply =>
    obtain ⟨-, hcmd, hsent⟩ := hhere
    exact fun x => ⟨rfl, hreply hsent (decide_eq_false hcmd)⟩
  | bodyReply =>
    obtain ⟨-, -, l, hsent⟩ := hhere
    exact fun x => ⟨rfl, hreply hsent rfl⟩
  | authSend => exact absurd rfl hauth
  | finished => trivial
  | greeting | authReply | authRelay | authLine | authForward | authAnswer | authPass => cases hp
  | _ => exact fun _ => ⟨rfl, rfl⟩

/-- Outside the exchange. -/
theorem seen_outside (hk : Known ctx c h) (hs : Tracks (· = .idle) h h) (hp : resting c.point)
    (hauth : c.point ≠ .authSend) (hdial : c.point ≠ .dial) :
    (machine ctx rounds c).All fun e c' => c'.Meets (Seen (e :: h)) :=
  ((resting_step hp hauth hdial).and (resting_event hk hp hauth)).mono fun _ _ hstep =>
    seen_resting hstep.1 (hs.cons .idle hstep.2.1 hstep.2.2)

/-- A reply of the exchange was passed on: a challenge asks for another line. -/
theorem seen_passed {site : ReplySite} {k : Nat} {c' : Config} {written : Bool}
    (hs : Tracks (· = if written then if s.response.code = 334 then .answering else .idle else .broken)
      (⟨.outReply site s.response, written⟩ :: h) (⟨.outReply site s.response, written⟩ :: h))
    (hc' : Rests c') : (orRaise s left .network
      (if s.response.code = 334 then Config.exchange s left k else c') written).Meets
        (Seen (⟨.outReply site s.response, written⟩ :: h)) := by
  cases written with
  | false => exact seen_finished hs _
  | true =>
    simp only [↓reduceIte] at hs
    refine ite_meets (fun hcode => ?_) fun hcode => ?_
    · rw [if_pos hcode] at hs
      exact exchange_meets (fun _ => hs) (seen_finished hs _)
    · rw [if_neg hcode] at hs
      exact seen_resting hc' hs

theorem seen_step (hk : Known ctx c h) (hs : c.Meets (Seen h)) :
    (machine ctx rounds c).All fun e c' => c'.Meets (Seen (e :: h)) := by
  obtain ⟨point, s, left⟩ := c
  have hhere := (show Holds ctx h point s from hk).here
  cases point with
  | authSend =>
    have hs : Tracks (· = .idle) h h := hs
    intro sent
    have hstep : Stage.step .idle ⟨.inWriteline (.command s.command), sent⟩ =
        some (if sent then .waiting else .broken) := if_pos hhere
    have hsent := hs.cons _ hstep rfl
    cases sent with
    | false => exact seen_finished hsent _
    | true => exact hsent
  | dial =>
    have hs : Tracks (· = .idle) h h := hs
    intro connected
    have hdialed := hs.cons (e := ⟨.connect, connected⟩) .idle rfl rfl
    cases connected with
    | false => exact hdialed
    | true => exact ⟨hdialed, rfl⟩
  | greeting =>
    obtain ⟨hs, hasked⟩ := hs
    intro x
    have hnone : challengeText h ⟨.readReply, x⟩ = none := by
      rcases x with e | r
      · rfl
      · simp [challengeText, hasked]
    have hread := hs.cons (e := ⟨.readReply, x⟩) .idle rfl hnone
    rcases x with e | r
    · exact hread
    · have hsecond := ((rests_calm.proceed { s with response := r.response, connected := true }).second rfl)
      exact seen_resting (ite_meets (P := fun p _ => resting p = true) (fun _ => hsecond.meets)
        fun _ => rfl) hread
  | authReply | authAnswer k =>
    have hs : Tracks (· = .waiting) h h := hs
    rintro (e | r)
    · exact seen_finished (hs.cons .broken rfl rfl) _
    · exact hs.next rfl Iff.rfl
  | authRelay =>
    obtain ⟨hcmd, r, past, rfl, hsent, hr⟩ := hhere
    have hs : Tracks (· = .passing s.response) past (⟨.readReply, .ok r⟩ :: past) := hs
    have hasked : asked past = true := (asked_sent hsent).trans (decide_eq_true hcmd)
    rw [← hr] at hs
    intro written
    have hpass := hs.pass .proxiedAuth written hasked
    rw [hr] at hpass
    exact seen_passed hpass rests_calm.again
  | authPass k =>
    obtain ⟨-, l, r, past, rfl, hsent, hr⟩ := hhere
    have hs : Tracks (· = .passing s.response) past (⟨.readReply, .ok r⟩ :: past) := hs
    have hasked : asked past = true := asked_sent hsent
    rw [← hr] at hs
    intro written
    have hpass := hs.pass .proxiedAuth written hasked
    rw [hr] at hpass
    exact seen_passed hpass (ite_meets (P := fun p _ => resting p = true) (fun _ => rests_calm.again)
      fun _ => rests_calm.again)
  | authLine k =>
    have hs : Tracks (· = .answering) h h := hs
    rintro (e | l)
    · exact seen_finished (hs.cons .broken rfl rfl) _
    · exact hs.cons (.forwarding l) rfl rfl
  | authForward k l =>
    have hs : Tracks (· = .forwarding l) h h := hs
    intro sent
    have hstep : Stage.step (.forwarding l) ⟨.inWriteline (.authLine l), sent⟩ =
        some (if sent then .waiting else .broken) := if_pos (Socket.writeline_oneLine l.oneLine)
    have hsent := hs.cons _ hstep rfl
    cases sent with
    | false => exact seen_finished hsent _
    | true => exact hsent
  | finished => trivial
  | _ => exact seen_outside hk hs rfl (by simp) (by simp)

theorem seen (hc : (machine ctx rounds).On (initial left) c h) : c.Meets (Seen h) := by
  refine hc.strengthen (I := fun c h => c.Meets (Seen h)) known ?_ fun c h hk hs => ?_
  · exact ⟨fun _ => ⟨.idle, Monitor.at_nil exchange, rfl⟩, fun _ => trivial⟩
  · exact (seen_step hk hs).mono fun e c' hstep _ => hstep

end

end ProxiedAuth

open ProxiedAuth in
/-- The text of a challenge is read as it came, and an exchange passes its lines
through as they are just where the inside server's challenges have no text. -/
theorem transparent_iff (ctx : Context) (rounds : Nat) {result : Except Exn Unit} {s : Session}
    {h : Log} (hrun : (process ctx rounds).Ends {} [] result s h) :
    (∀ (input rest : Feed) (r : Reply), SMTPResponse.read input = (.ok r, rest) →
      r.response.code = 334 → ∃ l : Line, Socket.readline input = (.ok l, rest) ∧
        l.bytes = text "334 " ++ r.response.parameter) ∧
    (Transparent h ↔ EmptyChallenges h) := by
  refine ⟨fun input rest r hread hcode => read_challenge hread hcode, ?_⟩
  obtain ⟨left, hc⟩ := process_on hrun
  have hseen : Tracks (fun _ => True) h h := seen hc
  constructor
  · exact hseen.empty
  · intro hempty
    obtain ⟨stage, hat, -⟩ := hseen.accepted hempty
    exact ⟨stage, hat⟩

/-- A client that answers the challenge `VXNlcm5hbWU6` of the inside server. -/
def challengedByInside : World := .ofLines .Accepted
  ["AUTH LOGIN", "dQ==", "QUIT"] ["220 in", "334 VXNlcm5hbWU6", "235 ok"]

/-- The challenge goes out with a space behind it. -/
theorem challenge_padded :
    (challengedByInside.history (.sample 0 .ProxyAuth) 9).any (fun e => (given e).any fun r =>
        r.code = 334 ∧ r.string = text "334 VXNlcm5hbWU6 ") ∧
      ¬ ∀ (ctx : Context) (rounds : Nat) (result : Except Exn Unit) (s : Session) (h : Log),
        (process ctx rounds).Ends {} [] result s h → ProxiedAuth.Transparent h := by
  refine ⟨by decide +kernel, fun hall => ?_⟩
  obtain ⟨r, s, hrun⟩ := challengedByInside.history_ends (.sample 0 .ProxyAuth) 9
  obtain ⟨stage, hstage⟩ := hall _ _ _ _ _ hrun
  have hnone : (ProxiedAuth.exchange.track
      (challengedByInside.history (.sample 0 .ProxyAuth) 9)).isNone = true := by decide +kernel
  rw [show ProxiedAuth.exchange.track _ = some stage from hstage] at hnone
  cases hnone

/-- Two rounds whose challenges are empty. -/
def silentExchange : World := .ofLines .Accepted
  ["AUTH LOGIN", "dQ==", "cA==", "QUIT"] ["220 in", "334 ", "334 ", "235 ok"]

theorem silentExchange_transparent :
    (silentExchange.history (.sample 0 .ProxyAuth) 9).any
        (fun e => (given e).any fun r => r.code = 235) ∧
      (ProxiedAuth.Transparent (silentExchange.history (.sample 0 .ProxyAuth) 9) ↔
        ProxiedAuth.EmptyChallenges (silentExchange.history (.sample 0 .ProxyAuth) 9)) := by
  refine ⟨by decide +kernel, ?_⟩
  obtain ⟨r, s, hrun⟩ := silentExchange.history_ends (.sample 0 .ProxyAuth) 9
  exact (transparent_iff (.sample 0 .ProxyAuth) 9 hrun).2

end Spey
