import Spey.Session.Reached
import Spey.Session.Flow
import Spey.World
import Spey.Session.Events

/-!
# What is advertised, and what is honoured

The reply to EHLO names capabilities: STARTTLS and one AUTH line, chosen by the
settings alone. The commands look at the connection as well: STARTTLS is refused
once TLS is in use, and AUTH with spey's own authenticators before it is. So what
is advertised is honoured where the connection suits the settings.
-/

namespace Spey

open Interaction Interaction.Action

namespace Advertised

open Config

variable {ctx : Context} {rounds left : Nat} {s : Session} {c : Config} {h : Log}

def isAuth (l : Bytes) : Bool := l.take 5 = text "AUTH "

/-- A STARTTLS command that is read in the state `s` is answered with 220, and then
the handshake begins. -/
def HonoursStarttls (ctx : Context) (rounds : Nat) (s : Session) : Prop :=
  ∀ (left : Nat) (l : Line) (c : SMTPCommand), s.command.set l = some c → c.cmd = .STARTTLS →
    (machine ctx rounds (parsed ctx s left l)).Asks (.outReply .starttls (.set 220)) fun written c' =>
      written = true → (machine ctx rounds c').Asks .makesecure fun _ _ => True

/-- An AUTH command that is read in the state `s` goes to the inside server in proxy mode;
with spey's own authenticators, the one that it names runs. -/
def HonoursAuth (ctx : Context) (rounds : Nat) (s : Session) : Prop :=
  ∀ (left : Nat) (l : Line) (c : SMTPCommand), s.command.set l = some c → c.cmd = .AUTH →
    match ctx.settings.externalauthmode with
    | .NoAuth => False
    | .ProxyAuth =>
        (machine ctx rounds (parsed ctx s left l)).Asks (.inWriteline (.command c)) fun _ _ => True
    | .InternalAuth => ∀ auth_cb, authenticator c.parameter.bytes = some auth_cb →
        follows (machine ctx rounds) auth_cb (Refines.concludes { s with command := c } left)
          { s with command := c } (parsed ctx s left l)

/-- In the configuration `c` the reply to EHLO is about to be written, and it advertises
only what the next command would be honoured for. -/
structure Honest (ctx : Context) (rounds : Nat) (c : Config) (h : Log) : Prop where
  /-- the next command is read in the same state -/
  next : (machine ctx rounds c).Asks (.outReply .relay c.session.response) fun written c' =>
    written = true → c' = again c.session c.left
  known : ∀ l ∈ c.session.response.continuation, l = text "STARTTLS" ∨ isAuth l
  starttls : text "STARTTLS" ∈ c.session.response.continuation → HonoursStarttls ctx rounds c.session
  auth : (∃ l ∈ c.session.response.continuation, isAuth l) → HonoursAuth ctx rounds c.session
  first : ctx.settings.externalauthmode = .ProxyAuth →
    ∀ l ∈ c.session.response.continuation, isAuth l → ∃ inside,
      Heard (.command c.session.command) inside h ∧ inside.continuation.find? isAuth = some l

/-- The connection is one that the settings' capabilities are honoured on. -/
def Suits (ctx : Context) (secure : Bool) : Prop :=
  (ctx.gnutls ∧ ctx.settings.externaltls → secure = false) ∧
    (ctx.settings.externalauthmode = .InternalAuth → secure = true)

instance (ctx : Context) (secure : Bool) : Decidable (Suits ctx secure) :=
  inferInstanceAs (Decidable (_ ∧ _))

/-! ## The inside server is connected -/

/-- The places from the choice of a command to its reply. -/
def wired : Point → Bool
  | .send | .reply | .relay => true
  | _ => false

def Wired (point : Point) (s : Session) : Prop := wired point = true → s.connected = true

theorem unwired {point : Point} (hp : wired point = false) : Wired point s := fun h => by
  rw [hp] at h
  cases h

theorem wired_second (hs : s.connected = true) : Second Wired s where
  send _ _ := hs
  authSend _ := unwired rfl
  challenge _ _ _ := unwired rfl
  lookup _ _ _ _ := unwired rfl
  deny _ _ _ := unwired rfl

theorem wired_calm : Calm Wired where
  calm point _ hp := unwired (by cases point <;> first | rfl | cases hp)
  proceed _ := ⟨fun _ => unwired rfl, wired_second⟩

theorem wired_step (hc : c.Meets Wired) : (machine ctx rounds c).All fun _ c' => c'.Meets Wired := by
  cases hengaged : c.point.engaged with
  | false => exact wired_calm.step hengaged
  | true =>
    obtain ⟨point, s, left⟩ := c
    cases point with
    | dial =>
      rintro (_ | _)
      · exact unwired rfl
      · exact unwired rfl
    | greeting =>
      rintro (_ | r)
      · exact unwired rfl
      · exact ite_meets (fun _ => (wired_second rfl).meets) fun _ => unwired rfl
    | send =>
      have hs : s.connected = true := hc rfl
      exact orRaise_meets (unwired rfl) fun _ => hs
    | reply =>
      have hs : s.connected = true := hc rfl
      exact reading_meets (fun _ => unwired rfl) fun _ _ => hs
    | authSend | authForward => exact orRaise_meets (unwired rfl) (unwired rfl)
    | authReply | authLine | authAnswer =>
      exact reading_meets (fun _ => unwired rfl) fun _ => unwired rfl
    | authRelay =>
      exact orRaise_meets (unwired rfl) (ite_meets
        (fun _ => exchange_meets (fun _ => unwired rfl) (unwired rfl)) fun _ => wired_calm.again)
    | authPass =>
      refine orRaise_meets (unwired rfl) (ite_meets
        (fun _ => exchange_meets (fun _ => unwired rfl) (unwired rfl)) fun _ => ?_)
      exact ite_meets (fun _ => wired_calm.again) fun _ => wired_calm.again
    | _ => cases hengaged

theorem connected_of_relay (hc : (machine ctx rounds).On (initial left) c h)
    (hp : c.point = .relay) : c.session.connected = true := by
  have hwired : c.Meets Wired := hc.invariant (I := fun c _ => c.Meets Wired) (unwired rfl)
    fun c h hs => wired_step hs
  exact hwired (by rw [hp]; rfl)

/-! ## What the next command meets -/

theorem parsed_eq {l : Line} {cmd : SMTPCommand} (hset : s.command.set l = some cmd) :
    parsed ctx s left l = dispatch ctx { s with command := cmd } left := by
  rw [parsed, hset]

/-- The bare line of a verb is a command. -/
theorem set_starttls (this : SMTPCommand) : ∃ c,
    this.set ⟨text "STARTTLS", by decide⟩ = some c ∧ c.cmd = .STARTTLS := by
  have hparse : SMTPCommand.parse (text "STARTTLS") = some (.STARTTLS, none) := rfl
  obtain ⟨c, hc⟩ := SMTPCommand.set_of_parse (l := ⟨text "STARTTLS", by decide⟩) hparse this
  exact ⟨c, hc, (Prod.mk.inj (Option.some.inj ((SMTPCommand.set_some hc).symm.trans hparse))).1⟩

theorem set_login (this : SMTPCommand) : ∃ c, this.set ⟨text "AUTH LOGIN", by decide⟩ = some c ∧
    c.cmd = .AUTH ∧ c.parameter.bytes = text "login" := by
  have hparse : SMTPCommand.parse (text "AUTH LOGIN") = some (.AUTH, some (text "login")) := rfl
  obtain ⟨c, hc⟩ := SMTPCommand.set_of_parse (l := ⟨text "AUTH LOGIN", by decide⟩) hparse this
  obtain ⟨hcmd, harg⟩ :=
    Prod.mk.inj (Option.some.inj ((SMTPCommand.set_some hc).symm.trans hparse))
  rw [SMTPCommand.argument, hcmd] at harg
  exact ⟨c, hc, hcmd, Option.some.inj harg⟩

theorem honoursStarttls_iff (hon : ctx.gnutls ∧ ctx.settings.externaltls) :
    HonoursStarttls ctx rounds s ↔ s.secure = false := by
  constructor
  · intro hhonours
    obtain ⟨c, hset, hcmd⟩ := set_starttls s.command
    obtain ⟨next, hcall, -⟩ := hhonours 0 _ c hset hcmd
    by_contra hsecure
    have hsecure : s.secure = true := by simpa using hsecure
    rw [parsed_eq hset, dispatch] at hcall
    simp only [hcmd, hon, hsecure, and_self, ↓reduceIte] at hcall
    cases hcall
  · intro hsecure left l c hset hcmd
    rw [parsed_eq hset, dispatch]
    simp only [hcmd, hon, hsecure, and_self, ↓reduceIte, Bool.false_eq_true]
    refine ⟨_, rfl, fun written hwritten => ?_⟩
    subst hwritten
    exact ⟨_, rfl, fun _ => trivial⟩

/-- Behind the door, with the inside server connected. -/
theorem parsed_auth {l : Line} {cmd : SMTPCommand} (hset : s.command.set l = some cmd)
    (hcmd : cmd.cmd = .AUTH) (hconnected : s.connected = true) :
    parsed ctx s left l = second ctx { s with command := cmd } left := by
  rw [parsed_eq hset, dispatch]
  simp only [hcmd, proceed, hconnected, ↓reduceIte]

theorem honoursAuth_proxy (hmode : ctx.settings.externalauthmode = .ProxyAuth)
    (hconnected : s.connected = true) : HonoursAuth ctx rounds s := by
  intro left l c hset hcmd
  rw [hmode, parsed_auth hset hcmd hconnected, second]
  simp only [hcmd, hmode, ↓reduceIte]
  exact ⟨_, rfl, fun _ => trivial⟩

/-- On a secure connection the authenticator that is named runs. -/
theorem authenticator_follows {auth_cb : Proc Nat} (hsecure : s.secure = true)
    (hauth : authenticator s.command.parameter.bytes = some auth_cb) :
    follows (machine ctx rounds) auth_cb (Refines.concludes s left) s (internal s left) := by
  have hplain : ∀ initial, follows (machine ctx rounds) (auth_plain initial)
      (Refines.concludes s left) s (if initial = [] then ⟨.challenge .plain, s, left⟩
        else .credentials s left (plainCredentials initial)) := Refines.auth_plain_follows
  unfold authenticator at hauth
  simp only [internal, hsecure, Bool.not_true, Bool.false_eq_true, ↓reduceIte]
  split_ifs at hauth ⊢ with hword hempty hbare hlogin
  · obtain rfl := Option.some.inj hauth
    have hrun := hplain (s.command.parameter.bytes.drop 6)
    rwa [if_pos hempty] at hrun
  · obtain rfl := Option.some.inj hauth
    have hrun := hplain (s.command.parameter.bytes.drop 6)
    rwa [if_neg hempty] at hrun
  · obtain rfl := Option.some.inj hauth
    exact hplain []
  · obtain rfl := Option.some.inj hauth
    exact Refines.auth_login_follows

theorem honoursAuth_internal (hmode : ctx.settings.externalauthmode = .InternalAuth)
    (hconnected : s.connected = true) : HonoursAuth ctx rounds s ↔ s.secure = true := by
  constructor
  · intro hhonours
    obtain ⟨c, hset, hcmd, hparameter⟩ := set_login s.command
    have hruns := hhonours 0 _ c hset hcmd
    rw [hmode, parsed_auth hset hcmd hconnected, second] at hruns
    have hlogin : authenticator c.parameter.bytes = some (auth_login []) := by
      rw [hparameter]
      rfl
    obtain ⟨next, hcall, -⟩ := hruns _ hlogin
    by_contra hsecure
    have hsecure : s.secure = false := by simpa using hsecure
    simp only [hcmd, hmode, internal, hsecure, Bool.not_false, ↓reduceIte] at hcall
    cases hcall
  · intro hsecure left l c hset hcmd
    rw [hmode, parsed_auth hset hcmd hconnected, second]
    simp only [hcmd, hmode, ↓reduceIte]
    exact fun auth_cb hauth => authenticator_follows hsecure hauth

/-! ## The reply to EHLO -/

theorem mem_newcontinuation {continuation : List Bytes} {l : Bytes} :
    l ∈ newcontinuation ctx continuation ↔
      (l = text "STARTTLS" ∧ ctx.gnutls ∧ ctx.settings.externaltls) ∨
      (ctx.settings.externalauthmode = .ProxyAuth ∧ continuation.find? isAuth = some l) ∨
      (ctx.settings.externalauthmode = .InternalAuth ∧ l = text "AUTH PLAIN LOGIN") := by
  have htls : l ∈ (if ctx.gnutls ∧ ctx.settings.externaltls then [text "STARTTLS"] else []) ↔
      l = text "STARTTLS" ∧ ctx.gnutls ∧ ctx.settings.externaltls := by
    split_ifs with h
    · simp [h]
    · simp only [List.not_mem_nil, false_iff, not_and]
      exact fun _ => by simpa using h
  unfold newcontinuation
  rw [List.mem_append, htls]
  refine or_congr_right ?_
  cases ctx.settings.externalauthmode with
  | NoAuth => simp
  | ProxyAuth =>
    simp only [Option.mem_toList, true_and, reduceCtorEq, false_and, or_false]
    exact Iff.rfl
  | InternalAuth => simp

theorem isAuth_of_mem {continuation : List Bytes} {l : Bytes}
    (hl : l ∈ newcontinuation ctx continuation) : l = text "STARTTLS" ∨ isAuth l := by
  rcases mem_newcontinuation.mp hl with ⟨rfl, -⟩ | ⟨-, hfind⟩ | ⟨-, rfl⟩
  · exact .inl rfl
  · exact .inr (List.find?_some hfind)
  · exact .inr (by decide)

theorem starttls_mem {continuation : List Bytes} :
    text "STARTTLS" ∈ newcontinuation ctx continuation ↔ ctx.gnutls ∧ ctx.settings.externaltls := by
  have hauth : isAuth (text "STARTTLS") = false := by decide
  rw [mem_newcontinuation]
  constructor
  · rintro (⟨-, hon⟩ | ⟨-, hfind⟩ | ⟨-, h⟩)
    · exact hon
    · have hsome := List.find?_some hfind
      rw [hauth] at hsome
      cases hsome
    · exact absurd h (by decide)
  · exact fun hon => .inl ⟨rfl, hon⟩

/-- The reply that is about to be written. -/
theorem relayed (hk : Known ctx c h) (hp : c.point = .relay) (hcmd : c.session.command.cmd = .EHLO)
    (hcode : c.session.response.code = 250) : ∃ inside, Heard (.command c.session.command) inside h ∧
      c.session.response.continuation = newcontinuation ctx inside.continuation := by
  have hhere := hk.here
  rw [hp] at hhere
  obtain ⟨-, -, inside, hheard, hresponse⟩ := hhere
  refine ⟨inside, hheard, ?_⟩
  rw [hresponse, tweak] at hcode ⊢
  by_cases h250 : inside.code = 250
  · rw [if_pos h250, hcmd, if_pos rfl]
  · rw [if_neg h250] at hcode
    exact absurd hcode h250

/-- After a 250 to EHLO the session reads its next command, in the same state. -/
theorem relay_next (hp : c.point = .relay) (hcmd : c.session.command.cmd = .EHLO)
    (hcode : c.session.response.code = 250) :
    (machine ctx rounds c).Asks (.outReply .relay c.session.response) fun written c' =>
      written = true → c' = Config.again c.session c.left := by
  obtain ⟨point, s, left⟩ := c
  obtain rfl : point = .relay := hp
  have hcmd : s.command.cmd = .EHLO := hcmd
  have herror : s.response.iserror = false := by
    rw [SMTPResponse.iserror, show s.response.code = 250 from hcode]
    rfl
  refine ⟨_, rfl, fun written hwritten => ?_⟩
  subst hwritten
  show third ctx s left = _
  simp only [third, herror, Bool.false_eq_true, false_and, ↓reduceIte, hcmd]

theorem relay_of_call {r : SMTPResponse} {next : Bool → Config}
    (hcall : machine ctx rounds c = .call (.outReply .relay r) next) :
    c.point = .relay ∧ c.session.response = r := by
  obtain ⟨point, s, left⟩ := c
  cases point with
  | relay =>
    cases hcall
    exact ⟨rfl, rfl⟩
  | _ => cases hcall

theorem honest_iff (hc : (machine ctx rounds).On (initial left) c h) (hp : c.point = .relay)
    (hcmd : c.session.command.cmd = .EHLO) (hcode : c.session.response.code = 250) :
    Honest ctx rounds c h ↔ Suits ctx c.session.secure := by
  have hconnected := connected_of_relay hc hp
  obtain ⟨inside, hheard, hcontinuation⟩ := relayed (known hc) hp hcmd hcode
  constructor
  · intro hhonest
    refine ⟨fun hon => ?_, fun hmode => ?_⟩
    · refine (honoursStarttls_iff hon).mp (hhonest.starttls ?_)
      rw [hcontinuation]
      exact starttls_mem.mpr hon
    · refine (honoursAuth_internal hmode hconnected).mp (hhonest.auth ⟨text "AUTH PLAIN LOGIN", ?_, ?_⟩)
      · rw [hcontinuation]
        exact mem_newcontinuation.mpr (.inr (.inr ⟨hmode, rfl⟩))
      · decide
  · rintro ⟨htls, hinternal⟩
    constructor
    · exact relay_next hp hcmd hcode
    · intro l hl
      rw [hcontinuation] at hl
      exact isAuth_of_mem hl
    · intro hmem
      rw [hcontinuation] at hmem
      have hon := starttls_mem.mp hmem
      exact (honoursStarttls_iff hon).mpr (htls hon)
    · rintro ⟨l, hl, hauth⟩
      rw [hcontinuation] at hl
      rcases mem_newcontinuation.mp hl with ⟨rfl, -⟩ | ⟨hmode, -⟩ | ⟨hmode, -⟩
      · exact absurd hauth (by decide)
      · exact honoursAuth_proxy hmode hconnected
      · exact (honoursAuth_internal hmode hconnected).mpr (hinternal hmode)
    · intro hmode l hl hauth
      rw [hcontinuation] at hl
      rcases mem_newcontinuation.mp hl with ⟨rfl, -⟩ | ⟨-, hfind⟩ | ⟨hmode', -⟩
      · exact absurd hauth (by decide)
      · exact ⟨inside, hheard, hfind⟩
      · rw [hmode] at hmode'
        cases hmode'

/-- The configuration in which a reply to EHLO was written. -/
theorem reached {past : Log} {r : SMTPResponse} {written : Bool} {result : Except Exn Unit}
    (hrun : (process ctx rounds).Ends {} [] result s h)
    (hreply : ⟨.outReply .relay r, written⟩ :: past <:+ h)
    (hehlo : (lastCommand past).map Prod.fst = some .EHLO) :
    ∃ c, (machine ctx rounds).On (initial rounds) c past ∧ c.session.response = r ∧
      c.point = .relay ∧ c.session.command.cmd = .EHLO ∧
      (c.session.secure = true ↔ Once handshake past) := by
  obtain ⟨left, hfinished⟩ := process_on hrun
  obtain ⟨c', hc'⟩ := hfinished.of_suffix hreply
  obtain ⟨c, next, hc, hcall, -⟩ := hc'.before
  obtain ⟨hp, hresponse⟩ := relay_of_call hcall
  have hk := known hc
  have hcurrent : lastCommand past = some (c.session.command.cmd, c.session.command.argument) :=
    hk.current (by rw [hp]; rfl)
  rw [hcurrent] at hehlo
  exact ⟨c, hc, hresponse, hp, Option.some.inj hehlo, (hk.flags (by rw [hp]; rfl)).secure⟩

/-- The last reply that was relayed to the client, with what happened before it. -/
def lastRelayed : Log → Option (SMTPResponse × Log)
  | [] => none
  | ⟨.outReply .relay r, _⟩ :: past => some (r, past)
  | _ :: past => lastRelayed past

theorem lastRelayed_suffix {r : SMTPResponse} {past : Log} (h : Log)
    (hr : lastRelayed h = some (r, past)) : ∃ written, ⟨.outReply .relay r, written⟩ :: past <:+ h := by
  fun_induction lastRelayed h with
  | case1 => cases hr
  | case2 r' written past' =>
    obtain ⟨rfl, rfl⟩ := Prod.mk.inj (Option.some.inj hr)
    exact ⟨written, List.suffix_rfl⟩
  | case3 e past' _ ih =>
    obtain ⟨written, hsuffix⟩ := ih hr
    exact ⟨written, hsuffix.trans (List.suffix_cons e past')⟩

end Advertised

open Advertised

/-- Whenever a session writes a 250 reply to EHLO, it has come to a configuration in which
what the reply advertises is honoured just where the connection suits the settings. -/
theorem advertised_iff (ctx : Context) (rounds : Nat) {result : Except Exn Unit} {s : Session}
    {h past : Log} {r : SMTPResponse} {written : Bool}
    (hrun : (process ctx rounds).Ends {} [] result s h)
    (hreply : ⟨.outReply .relay r, written⟩ :: past <:+ h)
    (hehlo : (lastCommand past).map Prod.fst = some .EHLO) (hcode : r.code = 250) :
    ∃ c, (machine ctx rounds).On (initial rounds) c past ∧ c.session.response = r ∧
      (c.session.secure = true ↔ Once handshake past) ∧
      (Honest ctx rounds c past ↔ Suits ctx c.session.secure) := by
  obtain ⟨c, hc, hresponse, hp, hcmd, hsecure⟩ := reached hrun hreply hehlo
  refine ⟨c, hc, hresponse, hsecure, honest_iff hc hp hcmd ?_⟩
  rw [hresponse]
  exact hcode

/-- A client that has negotiated TLS and asks for it again. -/
def securedTwice : World :=
  { World.ofLines .Accepted ["STARTTLS"] ["220 in", "250-in", "250 SIZE 10"] with
    secured := .ofLines ["EHLO a.b", "STARTTLS", "QUIT"] }

/-- STARTTLS is advertised on a secure connection, and then refused with 503. -/
theorem starttls_advertised_twice :
    (lastRelayed (securedTwice.history (.sample 0 .NoAuth) 9)).any (fun p =>
        p.1.code = 250 ∧ text "STARTTLS" ∈ p.1.continuation) ∧
      (securedTwice.history (.sample 0 .NoAuth) 9).any (fun e => given e = some (.set 503)) ∧
      ¬ ∀ (ctx : Context) (rounds : Nat) (result : Except Exn Unit) (s : Session) (h past : Log)
          (r : SMTPResponse) (written : Bool), (process ctx rounds).Ends {} [] result s h →
        ⟨.outReply .relay r, written⟩ :: past <:+ h →
        (lastCommand past).map Prod.fst = some .EHLO → r.code = 250 →
        ∀ c, (machine ctx rounds).On (initial rounds) c past → Honest ctx rounds c past := by
  refine ⟨by decide +kernel, by decide +kernel, fun hall => ?_⟩
  obtain ⟨result, s, hrun⟩ := securedTwice.history_ends (.sample 0 .NoAuth) 9
  have hlast : (lastRelayed (securedTwice.history (.sample 0 .NoAuth) 9)).any (fun p =>
      p.1.code = 250 ∧ (lastCommand p.2).map Prod.fst = some .EHLO ∧ Once handshake p.2) := by
    decide +kernel
  obtain ⟨⟨r, past⟩, hsome, hfacts⟩ := (Option.any_eq_true _ _).mp hlast
  obtain ⟨hcode, hehlo, hsecured⟩ := of_decide_eq_true hfacts
  obtain ⟨written, hreply⟩ := lastRelayed_suffix _ hsome
  obtain ⟨c, hc, hresponse, hp, hcmd, hsecure⟩ := reached hrun hreply hehlo
  have hhonest := hall _ _ _ _ _ _ _ _ hrun hreply hehlo hcode c hc
  have hsuits := (honest_iff hc hp hcmd (by rw [hresponse]; exact hcode)).mp hhonest
  exact absurd (hsuits.1 ⟨rfl, rfl⟩) (by rw [hsecure.mpr hsecured]; decide)

/-- A client without TLS, of a server that proxies AUTH. -/
def plainClient : World := .ofLines .Accepted
  ["EHLO a.b", "QUIT"] ["220 in", "250-in", "250-SIZE 10", "250 AUTH CRAM-MD5"]

theorem plainClient_advertised : ∃ c past,
    (machine (.sample 0 .ProxyAuth) 9).On (initial 9) c past ∧
      (Honest (.sample 0 .ProxyAuth) 9 c past ↔ Suits (.sample 0 .ProxyAuth) c.session.secure) := by
  obtain ⟨result, s, hrun⟩ := plainClient.history_ends (.sample 0 .ProxyAuth) 9
  have hlast : (lastRelayed (plainClient.history (.sample 0 .ProxyAuth) 9)).any (fun p =>
      p.1.code = 250 ∧ (lastCommand p.2).map Prod.fst = some .EHLO) := by decide +kernel
  obtain ⟨⟨r, past⟩, hsome, hfacts⟩ := (Option.any_eq_true _ _).mp hlast
  obtain ⟨hcode, hehlo⟩ := of_decide_eq_true hfacts
  obtain ⟨written, hreply⟩ := lastRelayed_suffix _ hsome
  obtain ⟨c, hc, -, -, hiff⟩ := advertised_iff (.sample 0 .ProxyAuth) 9 hrun hreply hehlo hcode
  exact ⟨c, past, hc, hiff⟩

end Spey
