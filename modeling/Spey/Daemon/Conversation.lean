import Mathlib.Data.List.Infix
import Spey.Daemon.Descriptors
import Spey.Daemon.Wire

/-!
# The conversation of a session

The thread of a session carries out the calls of one run of the session, each from its
first system call to its last. The bytes that have come on its connections are those that
the answered calls have taken, one after the other, and what the pending call has taken so
far; the buffers that were written are those of the calls, each once.
-/

namespace Spey.Daemon

open Interaction Interaction.Action

/-! ## What a call takes and writes -/

/-- The buffers that the call writes. -/
def buffers : Side → Call → List Bytes
  | .outside, .outReply _ r => [Spey.Socket.writeline r.string]
  | .inside, .inWriteline item => [Spey.Socket.writeline item.string]
  | _, _ => []

/-- The bytes that the call has taken when it is answered. -/
def Takes : Side → Event Spey.Ans → Bytes → Prop
  | .outside, ⟨.outReadline _, x⟩, raw => Gets Spey.Socket.readline x raw
  | .outside, ⟨.outRead _, x⟩, raw => raw.length ≤ Bool.toNat x
  | .inside, ⟨.readReply, x⟩, raw => Gets Spey.SMTPResponse.read x raw
  | _, _, raw => raw = []

/-- The bytes that it may have taken before. -/
def Begun : Side → Call → Bytes → Prop
  | .outside, .outReadline _, raw => Short Spey.Socket.readline raw
  | .inside, .readReply, raw => Short Spey.SMTPResponse.read raw
  | _, _, raw => raw = []

theorem begun_nil (side : Side) (c : Call) : Begun side c [] := by
  have hline : Short Spey.Socket.readline [] := Partly.short fun _ => rfl
  cases side <;> cases c <;> first | rfl | exact hline | exact SMTPResponse.lineFirst_read.short hline

/-- From `w` to `w'` the call was answered. -/
structure Did (e : Event Spey.Ans) (w w' : Wire) : Prop where
  heard : ∀ side, ∃ raw, w'.heard side = w.heard side ++ raw ∧ Takes side e raw
  said : ∀ side, w'.said side = w.said side ++ buffers side e.1

/-- From `w` to `w'` a part of the call was carried out. -/
structure Doing (c : Call) (w w' : Wire) : Prop where
  heard : ∀ side, ∃ raw, w'.heard side = w.heard side ++ raw ∧ Begun side c raw
  said : ∀ side, w'.said side = w.said side ∨ w'.said side = w.said side ++ buffers side c

section
variable {c : Call} {e : Event Spey.Ans} {w : Wire} {side : Side} {raw buffer : Bytes}

theorem doing_refl (c : Call) (w : Wire) : Doing c w w :=
  ⟨fun side => ⟨[], (List.append_nil _).symm, begun_nil side c⟩, fun _ => .inl rfl⟩

theorem heard_hear (w : Wire) (side side' : Side) (raw : Bytes) :
    (w.hear side raw).heard side' = w.heard side' ++ if side' = side then raw else [] := by
  by_cases h : side' = side
  · subst h
    rw [if_pos rfl]
    exact Function.update_self ..
  · rw [if_neg h, List.append_nil]
    exact Function.update_of_ne h ..

theorem said_say (w : Wire) (side side' : Side) (buffer : Bytes) :
    (w.say side buffer).said side' = w.said side' ++ if side' = side then [buffer] else [] := by
  by_cases h : side' = side
  · subst h
    rw [if_pos rfl]
    exact Function.update_self ..
  · rw [if_neg h, List.append_nil]
    exact Function.update_of_ne h ..

theorem did_nothing (he : ∀ side, Takes side e [] ∧ buffers side e.1 = []) : Did e w w :=
  ⟨fun side => ⟨[], (List.append_nil _).symm, (he side).1⟩, fun side => by rw [(he side).2, List.append_nil]⟩

theorem did_hear (htakes : ∀ side', Takes side' e (if side' = side then raw else []))
    (hbuffers : ∀ side', buffers side' e.1 = []) : Did e w (w.hear side raw) :=
  ⟨fun side' => ⟨_, heard_hear w side side' raw, htakes side'⟩, fun side' => by
    rw [hbuffers, List.append_nil]
    rfl⟩

theorem doing_hear (hbegun : ∀ side', Begun side' c (if side' = side then raw else [])) :
    Doing c w (w.hear side raw) :=
  ⟨fun side' => ⟨_, heard_hear w side side' raw, hbegun side'⟩, fun _ => .inl rfl⟩

theorem did_say (htakes : ∀ side', Takes side' e [])
    (hbuffers : ∀ side', buffers side' e.1 = if side' = side then [buffer] else []) : Did e w (w.say side buffer) :=
  ⟨fun side' => ⟨[], (List.append_nil _).symm, htakes side'⟩, fun side' => by rw [said_say, hbuffers]⟩

theorem doing_say (hbuffers : ∀ side', buffers side' c = if side' = side then [buffer] else []) :
    Doing c w (w.say side buffer) :=
  ⟨fun side' => ⟨[], (List.append_nil _).symm, begun_nil side' c⟩, fun side' => .inr (by rw [said_say, hbuffers])⟩

end

section
variable {fd : Int} {c : Call} {w : Wire} {m : Members}

/-- The session reads from its inside server, or writes to it. -/
def Inward : Call → Prop
  | .readReply | .inWriteline _ => True
  | _ => False

/-- How a call ends: it was answered, or a part of it was carried out. -/
def Carried (fd : Int) (c : Call) (w : Wire) : Outcome Exn Members (Spey.Ans c) Wire := fun r m' w' =>
  m'.outside._fd = fd ∧ match r with
    | .ok x => Did ⟨c, x⟩ w w'
    | .error _ => Doing c w w'

/-- A call that is not about the connections. -/
theorem Silent.carried {x : SysProc (Spey.Ans c)} (hx : Silent fd (Doing c w) w (·.outside._fd = fd) x)
    (hout : m.outside._fd = fd) (hnothing : ∀ x side, Takes side ⟨c, x⟩ [] ∧ buffers side c = []) :
    x.obeys (watch fd (Doing c w)) (Carried fd c w) m w := by
  refine obeys_mono (hx m w ⟨hout, rfl⟩) fun r m' w' hr => ?_
  cases r with
  | ok x =>
    obtain ⟨hfd, rfl⟩ := hr
    exact ⟨hfd, did_nothing (hnothing x)⟩
  | error e =>
    obtain ⟨hfd, rfl⟩ := hr
    exact ⟨hfd, doing_refl c _⟩

/-- Each call of a session is heard and said as it should be. -/
theorem carry_wire (rounds : Nat) (hout : m.outside._fd = fd) (hin : Inward c → m.inside._fd ≠ fd) :
    (carry rounds c).obeys (watch fd (Doing c w)) (Carried fd c w) m w := by
  have hgood := doing_refl c w
  have houtside : Wire.sideOf fd (m.socket .outside)._fd = .outside := if_pos hout
  have hinside : Inward c → Wire.sideOf fd (m.socket .inside)._fd = .inside := fun h => if_neg (hin h)
  have hquery : ∀ {e : Sys}, (∀ x, w.after fd ⟨e, x⟩ = w) → Silent fd (Doing c w) w (·.outside._fd = fd) (sys e) :=
    silent_sys hgood
  cases c with
  | outReadline site =>
    have hdoing : ∀ raw, Short Spey.Socket.readline raw → Doing (.outReadline site) w (w.hear .outside raw) :=
      fun raw hraw => doing_hear fun side => by cases side; exacts [hraw, rfl]
    refine obeys_mono (caught_heard (Socket.readline_heard houtside hdoing rounds)) fun r m' w' hr => ?_
    obtain ⟨rfl, raw, rfl, hraw⟩ := hr
    cases r with
    | ok x =>
      exact ⟨hout, did_hear (fun side => by cases side; exacts [hraw, rfl]) fun side => by cases side <;> rfl⟩
    | error e => exact ⟨hout, hdoing raw hraw⟩
  | readReply =>
    have hdoing : ∀ raw, Short Spey.SMTPResponse.read raw → Doing .readReply w (w.hear .inside raw) :=
      fun raw hraw => doing_hear fun side => by cases side; exacts [rfl, hraw]
    refine obeys_mono (caught_heard (SMTPResponse.set_heard (hinside trivial) hdoing rounds)) fun r m' w' hr => ?_
    obtain ⟨rfl, raw, rfl, hraw⟩ := hr
    cases r with
    | ok x =>
      exact ⟨hout, did_hear (fun side => by cases side; exacts [rfl, hraw]) fun side => by cases side <;> rfl⟩
    | error e => exact ⟨hout, hdoing raw hraw⟩
  | outRead delay =>
    have hnone : Did ⟨.outRead delay, false⟩ w w :=
      did_nothing fun side => by cases side; exacts [⟨Nat.le_refl 0, rfl⟩, ⟨rfl, rfl⟩]
    refine obeys_attempt (Socket.read_heard houtside hgood (fun e => ?_) (fun x => ⟨hout, ?_⟩) rounds _)
    · cases e <;> first | exact ⟨hout, hnone⟩ | exact ⟨hout, hgood⟩
    · have hone : x.toList.length ≤ 1 := by cases x <;> simp
      exact did_hear (fun side => by cases side; exacts [hone, rfl]) fun side => by cases side <;> rfl
  | outReply site r =>
    have hbuffers : ∀ side, buffers side (.outReply site r) =
        if side = .outside then [Spey.Socket.writeline r.string] else [] := fun side => by cases side <;> rfl
    refine obeys_mono (Socket.writeline_said houtside hgood (doing_say hbuffers)) fun r m' w' hr => ?_
    obtain ⟨rfl, rfl⟩ := hr
    cases r with
    | ok x => exact ⟨hout, did_say (fun side => by cases side <;> rfl) hbuffers⟩
    | error e => exact ⟨hout, doing_say hbuffers⟩
  | inWriteline item =>
    have hbuffers : ∀ side, buffers side (.inWriteline item) =
        if side = .inside then [Spey.Socket.writeline item.string] else [] := fun side => by cases side <;> rfl
    refine obeys_mono (Socket.writeline_said (hinside trivial) hgood (doing_say hbuffers)) fun r m' w' hr => ?_
    obtain ⟨rfl, rfl⟩ := hr
    cases r with
    | ok x => exact ⟨hout, did_say (fun side => by cases side <;> rfl) hbuffers⟩
    | error e => exact ⟨hout, doing_say hbuffers⟩
  | makesecure =>
    have hsilent : Silent fd (Doing .makesecure w) w (·.outside._fd = fd) (Socket.makesecure .outside) :=
      Socket.silent_makesecure hgood fun m s hm hs => hs.trans hm
    exact hsilent.attempt.carried hout fun x side => by cases side <;> exact ⟨rfl, rfl⟩
  | connect =>
    have hput : ∀ (m : Members) s, m.outside._fd = fd → (m.put .inside s).outside._fd = fd := fun _ _ hm => hm
    have hsilent : Silent fd (Doing .connect w) w (·.outside._fd = fd) (do
        Socket.init .inside (← getState).host.ToAddress
        let sockettimeout := (← getState).host.sockettimeout
        assign .inside fun s => { s with _timeout := sockettimeout }) :=
      silent_getState.bind fun _ => (Socket.silent_init hgood hput _).bind fun _ =>
        silent_getState.bind fun _ => silent_assign fun m => hput m _
    exact hsilent.attempt.carried hout fun x side => by cases side <;> exact ⟨rfl, rfl⟩
  | deinit =>
    exact (Socket.silent_deinit hgood fun _ _ hm => hm).carried hout fun x side => by cases side <;> exact ⟨rfl, rfl⟩
  | gethostbyname _ =>
    refine (Silent.concurrently hgood ?_).carried hout fun x side => by cases side <;> exact ⟨rfl, rfl⟩
    exact (hquery fun _ => rfl).bind fun _ => silent_pure _
  | gethostbyaddr =>
    have hsilent : Silent fd (Doing .gethostbyaddr w) w (·.outside._fd = fd) (carry rounds .gethostbyaddr) :=
      silent_getState.bind fun _ => hquery fun _ => rfl
    exact hsilent.carried hout fun x side => by cases side <;> exact ⟨rfl, rfl⟩
  | testtrusted _ | testacceptance _ =>
    exact (Silent.bind (hquery fun _ => rfl) fun _ => silent_pure _).carried hout fun x side => by
      cases side <;> exact ⟨rfl, rfl⟩
  | greylist _ _ _ =>
    refine (Silent.bind (hquery fun _ => rfl) fun tv => silent_getState.bind fun _ => Silent.bind ?_ fun _ =>
      silent_pure _).carried hout fun x side => by cases side <;> exact ⟨rfl, rfl⟩
    exact Program.keeps_implement (fun st => hquery fun _ => rfl) _
  | users _ _ | count _ =>
    exact (hquery fun _ => rfl).carried hout fun x side => by cases side <;> exact ⟨rfl, rfl⟩
  | verifydomain _ | verifyaddress _ =>
    exact (silent_pure ()).carried hout fun x side => by cases side <;> exact ⟨rfl, rfl⟩

end

/-! ## The calls of a run -/

/-- The bytes are what the calls of the history have taken, in order. -/
inductive Heard (side : Side) : History Spey.Ans → Bytes → Prop
  | nil : Heard side [] []
  | cons {u : History Spey.Ans} {e : Event Spey.Ans} {bytes raw : Bytes} (hu : Heard side u bytes)
      (he : Takes side e raw) : Heard side (e :: u) (bytes ++ raw)

/-- The buffers of the calls of the history, in order. -/
def written (side : Side) : History Spey.Ans → List Bytes
  | [] => []
  | e :: u => written side u ++ buffers side e.1

/-- On the connections there is what the calls of the history have taken and written. -/
structure Told (u : History Spey.Ans) (w : Wire) : Prop where
  heard : ∀ side, Heard side u (w.heard side)
  said : ∀ side, w.said side = written side u

/-- On the connections there is what a run of the session has taken and written so far: between two
calls, or with a part of the pending one. -/
inductive Wired (ctx : Context) (rounds : Nat) (w : Wire) : Prop
  | between {u : History Spey.Ans} {p : Program Call Spey.Ans (Except Exn Unit × Session)}
      (hp : (Spey.trampoline ctx rounds {}).After p u) (htold : Told u w)
  | within {u : History Spey.Ans} {c : Call} {next : Spey.Ans c → Program Call Spey.Ans (Except Exn Unit × Session)}
      {w₀ : Wire} (hp : (Spey.trampoline ctx rounds {}).After (.call c next) u) (htold : Told u w₀)
      (hdoing : Doing c w₀ w)

theorem Told.step {u : History Spey.Ans} {e : Event Spey.Ans} {w w' : Wire} (hw : Told u w) (he : Did e w w') :
    Told (e :: u) w' where
  heard side := by
    obtain ⟨raw, hheard, htakes⟩ := he.heard side
    rw [hheard]
    exact .cons (hw.heard side) htakes
  said side := by rw [he.said side, hw.said side, written]

/-- The session's part of what its thread calls. -/
def minutes (ctx : Context) (rounds : Nat) : Contract Task.Ans (History Spey.Ans) where
  permits u e := ∀ c, e = .session c → (Spey.trampoline ctx rounds {}).recorded.permits u c
  promises _ _ := True
  after
    | u, ⟨.session c, x⟩ => ⟨c, x⟩ :: u
    | u, _ => u

theorem messageThread_minutes (ctx : Context) (rounds : Nat) :
    (messageThread ctx rounds).Obeys (minutes ctx rounds) (fun _ _ => True) [] := by
  have hprocess : ∀ u, (MessageProcessor.process ctx rounds).obeys (minutes ctx rounds) (fun _ _ _ => True) u [] := fun u =>
    Program.obeys_embed (I := Eq) (fun c u u' hu hc => by
      subst hu
      refine ⟨fun c' hc' => ?_, fun x _ => ⟨trivial, rfl⟩⟩
      cases hc'
      exact hc) (fun _ _ _ _ _ => trivial) rfl (Program.After.recorded .start)
  have hlog : Keeps (minutes ctx rounds) (fun _ u => u = []) (fun _ _ u => u = []) (MessageProcessor.log ctx) := by
    refine .ite (fun _ => Keeps.bind (keeps_call fun _ u hu => ?_) fun _ => keeps_pure ()) fun _ => keeps_pure ()
    exact ⟨nofun, fun _ _ => hu⟩
  have hrun : (MessageProcessor.run ctx rounds).obeys (minutes ctx rounds) (fun _ _ _ => True) () [] := by
    refine obeys_andThen (hlog.always rfl) (fun _ _ _ _ => trivial) fun _ u' u hu => ?_
    subst hu
    exact hprocess u'
  refine Program.Obeys.mono (trampoline_obeys (Q := fun _ => True) nofun (fun _ _ => trivial) nofun
    (obeys_mono hrun fun r _ u _ => ?_)) fun _ _ _ => trivial
  rcases r with (_ | _) | _
  · exact nofun
  · trivial
  · exact ⟨nofun, fun _ _ => ⟨nofun, fun _ _ _ => trivial⟩⟩

/-- Where the thread stands, the session and the connections agree. -/
structure Follows (ctx : Context) (rounds : Nat) (fd : Int) (stage : Stage) (m : Members) (u : History Spey.Ans)
    (w : Wire) : Prop where
  outside : stage ≠ .destroyed → m.outside._fd = fd
  told : Told u w
  run : ∃ p, (Spey.trampoline ctx rounds {}).After p u

section
variable {ctx : Context} {rounds : Nat} {fd : Int} {stage : Stage} {m : Members} {u : History Spey.Ans} {w : Wire}

theorem Follows.wired (h : Follows ctx rounds fd stage m u w) : Wired ctx rounds w := by
  obtain ⟨p, hp⟩ := h.run
  exact .between hp h.told

/-- How a call of the thread ends. -/
def Followed (ctx : Context) (rounds : Nat) (fd : Int) (stage : Stage) (u : History Spey.Ans) (e : Task) :
    Outcome Exn Members (Task.Ans e) Wire := fun r m w => match r with
  | .ok x => Follows ctx rounds fd ((tended ctx).after stage ⟨e, x⟩) m ((minutes ctx rounds).after u ⟨e, x⟩) w
  | .error _ => Wired ctx rounds w

/-- A call of the session. -/
theorem session_wire {s : Owned} {p : Phase} {c : Call} (hstage : Stage.Meets (.alive p) m s)
    (h : Follows ctx rounds fd (.alive p) m u w) (htended : (tended ctx).permits (.alive p) (.session c))
    (hminutes : (minutes ctx rounds).permits u (.session c)) : (perform rounds (.session c)).obeys
      (watch fd (Wired ctx rounds)) (Followed ctx rounds fd (.alive p) u (.session c)) m w := by
  obtain ⟨hs, hp⟩ := hstage
  obtain ⟨next, hnext⟩ := hminutes c rfl
  have hout : m.outside._fd = fd := h.outside nofun
  have hin : Inward c → m.inside._fd ≠ fd := by
    intro hc
    have hopen : m.inside._fd ≠ -1 := by
      cases c with
      | readReply => exact hp.opened_read ctx (htended _)
      | inWriteline item => exact hp.opened_write ctx (htended true)
      | _ => exact absurd hc id
    exact hout ▸ (hs.inside hopen).2
  refine obeys_mono (obeys_watch (fun w' hw' => .within hnext h.told hw') (carry_wire rounds hout hin))
    fun r m' w' hr => ?_
  obtain ⟨hfd, hr⟩ := hr
  cases r with
  | ok x => exact ⟨fun _ => hfd, h.told.step hr, next x, hnext.step rfl x⟩
  | error y => exact .within hnext h.told hr

/-- The sockets are destroyed. -/
theorem destroy_wire (h : Follows ctx rounds fd stage m u w) (hstage : (tended ctx).after stage ⟨.destroy, ()⟩ = .destroyed) :
    (perform rounds .destroy).obeys (watch fd (Wired ctx rounds)) (Followed ctx rounds fd stage u .destroy) m w := by
  have hgood := h.wired
  have hsilent : Silent fd (Wired ctx rounds) w (fun _ => True) (perform rounds .destroy) :=
    (Socket.silent_deinit hgood fun _ _ _ => trivial).bind fun _ => Socket.silent_deinit hgood fun _ _ _ => trivial
  refine obeys_mono (hsilent m w ⟨trivial, rfl⟩) fun r m' w' hr => ?_
  cases r with
  | ok x =>
    obtain ⟨-, rfl⟩ := hr
    exact ⟨fun hne => absurd hstage hne, h.told, h.run⟩
  | error y =>
    obtain ⟨-, rfl⟩ := hr
    exact hgood

/-- A call of the trampoline. -/
theorem sys_wire {c : Sys} (h : Follows ctx rounds fd stage m u w) (hsilent : ∀ x, w.after fd ⟨c, x⟩ = w)
    (halive : ∀ x, (tended ctx).after stage ⟨.sys c, x⟩ ≠ .destroyed → stage ≠ .destroyed) :
    (perform rounds (.sys c)).obeys (watch fd (Wired ctx rounds)) (Followed ctx rounds fd stage u (.sys c)) m w := by
  refine ⟨h.wired, fun x _ => ?_⟩
  show Follows ctx rounds fd _ m u (w.after fd ⟨c, x⟩)
  rw [hsilent]
  exact ⟨fun hne => h.outside (halive x hne), h.told, h.run⟩

/-- Each call of the thread keeps them in agreement. -/
theorem perform_wire {s : Owned} {e : Task} (hstage : stage.Meets m s) (h : Follows ctx rounds fd stage m u w)
    (htended : (tended ctx).permits stage e) (hminutes : (minutes ctx rounds).permits u e) :
    (perform rounds e).obeys (watch fd (Wired ctx rounds)) (Followed ctx rounds fd stage u e) m w := by
  cases stage with
  | fresh =>
    cases e with
    | sys c =>
      obtain rfl : c = .setspecific := htended
      exact sys_wire h (fun _ => rfl) nofun
    | _ => exact absurd htended id
  | unnamed => cases e <;> exact absurd htended id
  | alive p =>
    cases e with
    | session c => exact session_wire hstage h htended hminutes
    | destroy => exact destroy_wire h rfl
    | sys c =>
      rcases htended with rfl | rfl | ⟨address, rfl⟩
      · exact sys_wire h (fun _ => rfl) nofun
      · exact sys_wire h nofun nofun
      · exact sys_wire h (fun _ => rfl) nofun
    | server c => exact absurd htended id
  | destroyed =>
    cases e with
    | sys c =>
      obtain rfl : c = .releaseCPUlock := htended
      exact sys_wire h (fun _ => rfl) fun _ hne => absurd rfl hne
    | _ => exact absurd htended id

end

/-- The thread of a session: at each of its calls, and at its end, the connections are wired to a run. -/
theorem messageThread_wired (host : Host) (rounds : Nat) (fd : Int) :
    ((messageThread host.ctx rounds).implement (perform rounds) (.ofConnection host fd)).Obeys
      (handling.own.prod (watch fd (Wired host.ctx rounds))) (fun _ s => Wired host.ctx rounds s.2)
      ((fun r => some (.descriptor fd) = some r, []), .silent) := by
  have hstage : Stage.fresh.Meets (.ofConnection host fd) (fun r => some (.descriptor fd) = some r, []) :=
    ⟨⟨rfl, nofun, nofun, nofun, fun h => absurd rfl h, rfl, fun fd' he =>
      .inr (.inl (Resource.descriptor.inj (Option.some.inj he)).symm)⟩, rfl⟩
  have hfollows : Follows host.ctx rounds fd .fresh (.ofConnection host fd) [] .silent :=
    ⟨fun _ => rfl, ⟨fun _ => .nil, fun _ => rfl⟩, _, .start⟩
  have hthread := (messageThread_tended host.ctx rounds).prod (messageThread_minutes host.ctx rounds)
  have hcalls : ((messageThread host.ctx rounds).implement (perform rounds)).obeys
      (handling.own.prod (watch fd (Wired host.ctx rounds))) (fun _ _ s => Wired host.ctx rounds s.2)
      (.ofConnection host fd) ((fun r => some (.descriptor fd) = some r, []), .silent) := by
    refine Program.obeys_implement
      (I := fun m s u => Stage.Meets u.1 m s.1 ∧ Follows host.ctx rounds fd u.1 m u.2 s.2)
      (fun e m s u hI hpermits => ?_) (fun a m s u hI _ => hI.2.wired) ⟨hstage, hfollows⟩ hthread
    have hown := tended_perform host.ctx rounds hI.1 hpermits.1
    have hwire := perform_wire hI.1 hI.2 hpermits.1 hpermits.2
    refine obeys_mono (obeys_prod hown hwire) fun r m' s' hr => ?_
    cases r with
    | ok x => exact ⟨⟨trivial, trivial⟩, hr.1 x rfl, hr.2⟩
    | error y => exact hr.2
  exact hcalls

/-! ## Every run -/

section
variable {LIKE : Bytes → Bytes → Bool} {found : Bytes → Bytes} {rounds : Nat} {cli : SpeyCLI} {host : Host}
  {k₀ k : Kernel} {threads : List Running} {h : History (Shared Nat Sys.Ans)}

/-- The thread `t` was created as `spawn`. -/
def Created (h : History (Shared Nat Sys.Ans)) (t : Nat) (spawn : Spawn) : Prop :=
  ∃ e earlier, e :: earlier <:+ h ∧ handling.crewSize 1 earlier = t ∧ Sys.spawn ⟨e.1.2, e.2⟩ = some spawn

theorem created_iff {t : Nat} {spawn : Spawn} : (∃ l ∈ h.tails, ∃ e ∈ l.head?,
    Sys.spawn ⟨e.1.2, e.2⟩ = some spawn ∧ handling.crewSize 1 l.tail = t) ↔ Created h t spawn := by
  constructor
  · rintro ⟨_ | ⟨e, earlier⟩, hl, e', he', hspawn, hsize⟩
    · cases he'
    · cases he'
      exact ⟨e, earlier, (List.mem_tails _ _).mp hl, hsize, hspawn⟩
  · rintro ⟨e, earlier, hl, hsize, hspawn⟩
    exact ⟨e :: earlier, (List.mem_tails _ _).mpr hl, e, rfl, hspawn, hsize⟩

instance (h : History (Shared Nat Sys.Ans)) (t : Nat) (spawn : Spawn) : Decidable (Created h t spawn) :=
  decidable_of_iff _ created_iff

theorem crewSize_spawn {e : Event (Shared Nat Sys.Ans)} {spawn : Spawn} (he : Sys.spawn ⟨e.1.2, e.2⟩ = some spawn) :
    handling.crewSize 1 (e :: h) = handling.crewSize 1 h + 1 := by
  have hhands : handling.hands ⟨e.1.2, e.2⟩ = some spawn.descriptor := congrArg (Option.map Spawn.descriptor) he
  show handling.crewSize 1 h + _ = _
  rw [hhands]
  rfl

theorem Created.lt {t : Nat} {spawn : Spawn} (hcreated : Created h t spawn) : t < handling.crewSize 1 h := by
  obtain ⟨e, earlier, hsuffix, rfl, he⟩ := hcreated
  have hle := Handling.crewSize_suffix (k := handling) (n := 1) hsuffix
  rw [crewSize_spawn he] at hle
  exact hle

/-- No thread is created twice. -/
theorem Created.unique {t : Nat} {spawn spawn' : Spawn} (hcreated : Created h t spawn)
    (hcreated' : Created h t spawn') : spawn = spawn' := by
  have hsame : ∀ {e e' : Event (Shared Nat Sys.Ans)} {l l'}, e :: l <:+ e' :: l' →
      (Sys.spawn ⟨e.1.2, e.2⟩).isSome → handling.crewSize 1 l = handling.crewSize 1 l' → e = e' := by
    intro e e' l l' hl he hsize
    rcases List.suffix_cons_iff.mp hl with heq | hl
    · exact (List.cons.inj heq).1
    · obtain ⟨spawn, he⟩ := Option.isSome_iff_exists.mp he
      have hle := Handling.crewSize_suffix (k := handling) (n := 1) hl
      rw [crewSize_spawn he] at hle
      omega
  obtain ⟨e, l, hl, hsize, he⟩ := hcreated
  obtain ⟨e', l', hl', hsize', he'⟩ := hcreated'
  rcases List.suffix_or_suffix_of_suffix hl hl' with hs | hs
  · rw [hsame hs (by rw [he]; rfl) (hsize.trans hsize'.symm)] at he
    exact Option.some.inj (he.symm.trans he')
  · rw [hsame hs (by rw [he']; rfl) (hsize'.trans hsize.symm)] at he'
    exact Option.some.inj (he.symm.trans he')

/-- At any time there is on the connections of a session's thread what a run of the session has taken
and written. -/
theorem conversation_wired (hinetd : cli.i = true → k₀.live (.descriptor 0))
    (hsteady : Steady LIKE found rounds cli host k₀ threads k h) (hmakes : ∀ e ∈ h, Sys.Makes ⟨e.1.2, e.2⟩)
    {t : Nat} {fd : Int} {address : SocketAddress} (hcreated : Created h t (.session fd address)) :
    ∃ host : Host, host.Of found ∧ host.At address ∧ Wired host.ctx rounds (wire fd (own t h)) := by
  have hcrew := hsteady.run.among hmakes
  have hhands := hands_spawns (Host.Of found) rounds
  have hlt : t < threads.length := (Handling.size hhands hcrew).symm ▸ hcreated.lt
  obtain ⟨left, hleft⟩ : ∃ left, threads[t]? = some left := ⟨_, List.getElem?_eq_getElem hlt⟩
  obtain ⟨p, start, hborn, hafter, hkept, -⟩ :=
    Handling.born (handling_serves LIKE) hhands (owns_first rounds host hinetd) hcrew hleft
  cases hborn with
  | first hp =>
    -- the main thread was not created
    obtain ⟨e, earlier, -, hsize, -⟩ := hcreated
    obtain ⟨hzero, -⟩ := List.getElem?_eq_some_iff.mp hp
    have hle := Handling.crewSize_suffix (k := handling) (n := 1) (List.nil_suffix (l := earlier))
    have hone : handling.crewSize 1 ([] : History (Shared Nat Sys.Ans)) = 1 := rfl
    rw [List.length_singleton] at hzero
    omega
  | @created later earlier _ new t' c x hh hsize hnew hp =>
    rw [Spawns] at hnew
    split at hnew
    · rw [hnew] at hp
      cases hp
    · next spawn hspawn =>
      have hself : Created h t spawn := ⟨⟨(t', c), x⟩, earlier, ⟨later, hh.symm⟩, hsize, hspawn⟩
      obtain rfl := hself.unique hcreated
      obtain ⟨thread, m, hstarts, rfl⟩ := hnew
      obtain rfl := List.mem_singleton.mp hp
      have hgiven : handling.hands ⟨c, x⟩ = some (.descriptor fd) := congrArg (Option.map Spawn.descriptor) hspawn
      rw [hgiven] at hkept
      cases hstarts with
      | @session _ _ host' hhost haddress =>
        refine ⟨host', hhost, haddress, ?_⟩
        have hrest := hafter.obeys (messageThread_wired host' rounds fd)
          (hkept.prod (Contract.Kept.always (fun _ _ => trivial) _))
        rw [Contract.run_prod, run_watch] at hrest
        cases left with
        | done a => exact hrest
        | call c next => exact hrest.1.2

/-- The whole session of the first client, and what its inside server has sent and got. -/
theorem conversation_wired_delivery : ∃ m, Delivery.play 444 = some m ∧
    Created m.past 2 (.session 4 ⟨0xC0000201, 1025⟩) ∧
    (wire 4 (own 2 m.past)).heard .outside = text "STARTTLS\nMAIL FROM:<a@b>\nRCPT TO:<c@d>\nQUIT\n" ∧
    (wire 4 (own 2 m.past)).said .inside = [text "MAIL FROM: <a@b>\r\n", text "RCPT TO: <c@d>\r\n"] ∧
    ∃ host : Host, host.Of Delivery.found ∧ host.At ⟨0xC0000201, 1025⟩ ∧
      Wired host.ctx 20 (wire 4 (own 2 m.past)) := by
  obtain ⟨m, hplay, hcreated, hheard, hsaid⟩ := Scene.seen (Delivery.play 444) (fun m =>
    Created m.past 2 (.session 4 ⟨0xC0000201, 1025⟩) ∧
      (wire 4 (own 2 m.past)).heard .outside = text "STARTTLS\nMAIL FROM:<a@b>\nRCPT TO:<c@d>\nQUIT\n" ∧
      (wire 4 (own 2 m.past)).said .inside = [text "MAIL FROM: <a@b>\r\n", text "RCPT TO: <c@d>\r\n"])
    (by decide +kernel)
  obtain ⟨hsteady, hmakes⟩ := Scene.play_steady hplay
  exact ⟨m, hplay, hcreated, hheard, hsaid,
    conversation_wired (absurd · Delivery.not_inetd) hsteady hmakes hcreated⟩

end

end Spey.Daemon
