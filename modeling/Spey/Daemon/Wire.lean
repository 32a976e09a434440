import Spey.Daemon.Parts
import Spey.Wire.Lines

/-!
# The bytes on the two connections of a session

The reads of a socket are the bytes that its peer has sent, one by one, and the writes
are the buffers for it. What the line reader makes of these bytes, and the reply reader
of the lines, is what `Spey.Socket.readline` and `Spey.SMTPResponse.read` make of a feed
of exactly these bytes: they take no byte too many, and keep none.
-/

namespace Spey.Daemon

open Interaction Interaction.Action

/-- What has come from the peers of the two sockets, and what was written to them. -/
structure Wire where
  heard : Side → Bytes
  said : Side → List Bytes

namespace Wire

def silent : Wire := ⟨fun _ => [], fun _ => []⟩

def hear (w : Wire) (side : Side) (raw : Bytes) : Wire :=
  { w with heard := Function.update w.heard side (w.heard side ++ raw) }

def say (w : Wire) (side : Side) (buffer : Bytes) : Wire :=
  { w with said := Function.update w.said side (w.said side ++ [buffer]) }

/-- The socket of a descriptor, where `fd` is that of the outside socket. -/
def sideOf (fd d : Int) : Side := if d = fd then .outside else .inside

def after (fd : Int) (w : Wire) : Event Sys.Ans → Wire
  | ⟨.read d, (x : Option Byte)⟩ => w.hear (sideOf fd d) x.toList
  | ⟨.gnutls_record_recv _ d, (x : Option Byte)⟩ => w.hear (sideOf fd d) x.toList
  | ⟨.write d buffer, _⟩ => w.say (sideOf fd d) buffer
  | ⟨.gnutls_record_send _ d buffer, _⟩ => w.say (sideOf fd d) buffer
  | _ => w

@[simp] theorem hear_nil (w : Wire) (side : Side) : w.hear side [] = w := by
  rw [hear, List.append_nil, Function.update_eq_self]

@[simp] theorem hear_hear (w : Wire) (side : Side) (raw raw' : Bytes) :
    (w.hear side raw).hear side raw' = w.hear side (raw ++ raw') := by
  simp only [hear, Function.update_self, Function.update_idem, List.append_assoc]

end Wire

/-- What a thread's calls have heard and said. -/
def wire (fd : Int) : History Sys.Ans → Wire
  | [] => .silent
  | e :: l => (wire fd l).after fd e

/-- At each call, what has been heard and said is as it should be. -/
def watch (fd : Int) (good : Wire → Prop) : Contract Sys.Ans Wire where
  permits w _ := good w
  promises _ _ := True
  after := Wire.after fd

theorem run_watch (fd : Int) (good : Wire → Prop) (l : History Sys.Ans) :
    (watch fd good).run .silent l = wire fd l := by
  induction l with
  | nil => rfl
  | cons e l ih => rw [Contract.run, ih]; rfl

/-- What is good for one purpose may be good for another. -/
theorem obeys_watch {fd : Int} {good good' : Wire → Prop} (hgood : ∀ w, good w → good' w) {α : Type} {x : SysProc α}
    {Q : Outcome Exn Members α Wire} {m : Members} {w : Wire} (hx : x.obeys (watch fd good) Q m w) :
    x.obeys (watch fd good') Q m w := by
  have hprogram : ∀ {p : Program Sys Sys.Ans (Except Exn α × Members)} {R : Except Exn α × Members → Wire → Prop} {w : Wire},
      p.Obeys (watch fd good) R w → p.Obeys (watch fd good') R w := by
    intro p R
    induction p with
    | done a => exact fun hp => hp
    | call e next ih => exact fun hp => ⟨hgood _ hp.1, fun x hx => ih x (hp.2 x hx)⟩
  exact hprogram hx

/-! ## Readers -/

section
variable {β γ : Type}

/-- On exactly these bytes, the reader gives `x`. -/
def Gets (read : Feed → Except ReadFailure β × Feed) (x : Except ReadFailure β) (raw : Bytes) : Prop :=
  match x with
  | .ok b => ∀ rest ending, read ⟨raw ++ rest, ending⟩ = (.ok b, ⟨rest, ending⟩)
  | .error e => read ⟨raw, e⟩ = (.error e, ⟨[], e⟩)

/-- The bytes are not enough for the reader. -/
def Short (read : Feed → Except ReadFailure β × Feed) (raw : Bytes) : Prop :=
  ∀ e, Gets read (.error e) raw

/-- The same, however the code that reads has ended. -/
def Came (read : Feed → Except ReadFailure β × Feed) (r : Except Exn β) (raw : Bytes) : Prop :=
  match r with
  | .ok b => Gets read (.ok b) raw
  | .error .network => Gets read (.error .network) raw
  | .error _ => Short read raw

/-- After the bytes, the reader goes on as another one. -/
def Continues (read : Feed → Except ReadFailure β × Feed) (raw : Bytes)
    (read' : Feed → Except ReadFailure γ × Feed) (f : γ → β) : Prop :=
  ∀ rest ending, read ⟨raw ++ rest, ending⟩ = ((read' ⟨rest, ending⟩).1.map f, (read' ⟨rest, ending⟩).2)

variable {read : Feed → Except ReadFailure β × Feed} {read' : Feed → Except ReadFailure γ × Feed}
  {raw raw' : Bytes} {f : γ → β}

theorem Short.came (h : Short read raw) (e : Exn) : Came read (.error e) raw := by
  cases e <;> first | exact h | exact h .network

theorem Continues.gets (h : Continues read raw read' f) {x : Except ReadFailure γ} (hx : Gets read' x raw') :
    Gets read (x.map f) (raw ++ raw') := by
  cases x with
  | ok b =>
    intro rest ending
    rw [List.append_assoc, h, hx]
    rfl
  | error e =>
    show read _ = _
    rw [h, show read' ⟨raw', e⟩ = _ from hx]
    rfl

theorem Continues.short (h : Continues read raw read' f) (hraw : Short read' raw') :
    Short read (raw ++ raw') := fun e => h.gets (hraw e)

theorem Continues.came (h : Continues read raw read' f) {r : Except Exn γ} (hr : Came read' r raw') :
    Came read (r.map f) (raw ++ raw') := by
  cases r with
  | ok b => exact h.gets (x := .ok b) hr
  | error e => cases e <;> first | exact h.short hr | exact h.gets (x := .error .network) hr

end

/-! ## Sockets -/

section
variable {fd : Int} {good : Wire → Prop} {m : Members} {w : Wire} {side : Side} {α : Type}

/-- A call that is not heard or said on the sockets. -/
theorem rests_silent {e : Sys} (hgood : good w) (he : ∀ x, w.after fd ⟨e, x⟩ = w) :
    Rests (watch fd good) m (· = w) (sys e) := by
  refine rests_sys fun w' hw => ?_
  subst hw
  exact ⟨hgood, fun x _ => he x⟩

namespace Socket

theorem rests_polls (hgood : good w) : Polls (watch fd good) m (· = w) side where
  take := rests_silent hgood fun _ => rfl
  release := rests_silent hgood fun _ => rfl
  clock := rests_silent hgood fun _ => rfl
  poll _ := rests_silent hgood fun _ => rfl
  pending := .this (.ite (fun _ => rests_silent hgood fun _ => rfl) fun _ => rests_pure _)

/-- What is received is heard. -/
theorem recv_heard (hside : Wire.sideOf fd (m.socket side)._fd = side) (hgood : good w)
    {Q : Outcome Exn Members (Option Byte) Wire} (hQ : ∀ x : Option Byte, Q (.ok x) m (w.hear side x.toList)) :
    (recv side).obeys (watch fd good) Q m w := by
  rw [recv, this, Action.bind_assoc, obeys_bind, obeys_getState]
  show obeys _ (if (m.socket side)._issecure then _ else _) Q m w
  rw [obeys_ite]
  split
  · refine ⟨hgood, fun x _ => ?_⟩
    show Q (.ok x) m (w.hear (Wire.sideOf fd (m.socket side)._fd) _)
    rw [hside]
    exact hQ x
  · refine ⟨hgood, fun x _ => ?_⟩
    show Q (.ok x) m (w.hear (Wire.sideOf fd (m.socket side)._fd) _)
    rw [hside]
    exact hQ x

theorem read_heard (hside : Wire.sideOf fd (m.socket side)._fd = side) (hgood : good w)
    {Q : Outcome Exn Members (Option Byte) Wire} (herror : ∀ e, Q (.error e) m w)
    (hQ : ∀ x : Option Byte, Q (.ok x) m (w.hear side x.toList)) (rounds : Nat) (timeoutdelta : Int32) :
    (read side rounds timeoutdelta).obeys (watch fd good) Q m w := by
  refine (rests_polls hgood).read rfl (fun e w' hw => ?_) (fun w' hw => ?_) rounds timeoutdelta
  · subst hw
    exact herror e
  · subst hw
    exact recv_heard hside hgood hQ

/-- The buffer is said, whatever the system takes of it. -/
theorem write_said (hside : Wire.sideOf fd (m.socket side)._fd = side) {buffer : Bytes} (hgood : good w)
    (hsaid : good (w.say side buffer)) {Q : Outcome Exn Members Int Wire}
    (hQ : ∀ i, Q (.ok i) m (w.say side buffer)) : (write side buffer).obeys (watch fd good) Q m w := by
  have hsend : ∀ {R : Outcome Exn Members Int Wire}, (∀ i, R (.ok i) m (w.say side buffer)) →
      obeys (watch fd good) (do
        let s ← this side
        if s._issecure then sys (.gnutls_record_send s._gnutls_session s._fd buffer)
        else sys (.write s._fd buffer)) R m w := by
    intro R hR
    rw [this, Action.bind_assoc, obeys_bind, obeys_getState]
    show obeys _ (if (m.socket side)._issecure then _ else _) R m w
    rw [obeys_ite]
    split
    · refine ⟨hgood, fun i _ => ?_⟩
      show R (.ok i) m (w.say (Wire.sideOf fd (m.socket side)._fd) buffer)
      rw [hside]
      exact hR i
    · refine ⟨hgood, fun i _ => ?_⟩
      show R (.ok i) m (w.say (Wire.sideOf fd (m.socket side)._fd) buffer)
      rw [hside]
      exact hR i
  rw [write, concurrently, obeys_bind, obeys_call]
  refine ⟨hgood, fun _ _ => ?_⟩
  dsimp only
  rw [obeys_bind, obeys_handle]
  exact hsend fun i => ⟨hsaid, fun _ _ => hQ i⟩

theorem writeline_said (hside : Wire.sideOf fd (m.socket side)._fd = side) {l : Bytes} (hgood : good w)
    (hsaid : good (w.say side (Spey.Socket.writeline l))) : (attempt (writeline side l)).obeys (watch fd good)
      (fun _ m' w' => m' = m ∧ w' = w.say side (Spey.Socket.writeline l)) m w := by
  refine obeys_attempt ?_
  rw [writeline, obeys_bind]
  refine write_said hside hgood hsaid fun i => ?_
  dsimp only
  rw [obeys_ite]
  split <;> exact ⟨rfl, rfl⟩

end Socket

/-! ### Lines -/

/-- What was read of the line: the reader of a feed would be in its loop with the same. -/
def Partly (raw : Bytes) (s : Line) : Prop :=
  ∀ rest, Spey.Socket.readlineLoop ⟨[], oneLine_nil⟩ (raw ++ rest) = Spey.Socket.readlineLoop s rest

theorem Partly.step {raw : Bytes} {s s' : Line} {c : Byte} (h : Partly raw s)
    (hc : ∀ rest, Spey.Socket.readlineLoop s (c :: rest) = Spey.Socket.readlineLoop s' rest) :
    Partly (raw ++ [c]) s' := by
  intro rest
  rw [List.append_assoc, List.singleton_append, h, hc]

theorem Partly.short {raw : Bytes} {s : Line} (h : Partly raw s) : Short Spey.Socket.readline raw := by
  intro e
  have hnone := h []
  rw [List.append_nil] at hnone
  show Spey.Socket.readline ⟨raw, e⟩ = _
  unfold Spey.Socket.readline
  rw [hnone]
  rfl

theorem Partly.gets {raw : Bytes} {s : Line} (h : Partly raw s) :
    Gets Spey.Socket.readline (.ok s) (raw ++ [LF]) := by
  intro rest ending
  have hsome : Spey.Socket.readlineLoop ⟨[], oneLine_nil⟩ (raw ++ [LF] ++ rest) = (some s, rest) := by
    rw [List.append_assoc, List.singleton_append, h]
    rfl
  unfold Spey.Socket.readline
  rw [hsome]

/-- The code has read a part of what the reader takes, and ends as it does. -/
def Hears (read : Feed → Except ReadFailure α × Feed) (side : Side) (m : Members) (w : Wire) :
    Outcome Exn Members α Wire := fun r m' w' =>
  m' = m ∧ ∃ raw, w' = w.hear side raw ∧ Came read r raw

/-- The same, where the exceptions have become answers. -/
def Answers (read : Feed → Except ReadFailure α × Feed) (side : Side) (m : Members) (w : Wire) :
    Outcome Exn Members (Except ReadFailure α) Wire := fun r m' w' =>
  m' = m ∧ ∃ raw, w' = w.hear side raw ∧ match r with
    | .ok x => Gets read x raw
    | .error _ => Short read raw

theorem caught_heard {read : Feed → Except ReadFailure α × Feed} {x : SysProc α}
    (hx : x.obeys (watch fd good) (Hears read side m w) m w) :
    (caught x).obeys (watch fd good) (Answers read side m w) m w := by
  refine obeys_caught (obeys_mono hx fun r m' w' hr => ?_)
  obtain ⟨hm, raw, hw, hraw⟩ := hr
  cases r with
  | ok a => exact ⟨hm, raw, hw, hraw⟩
  | error e => cases e <;> first | exact ⟨hm, raw, hw, hraw⟩ | exact ⟨hm, raw, hw, hraw .timeout⟩

theorem Socket.readline_heard (hside : Wire.sideOf fd (m.socket side)._fd = side)
    (hgood : ∀ raw, Short Spey.Socket.readline raw → good (w.hear side raw)) (rounds : Nat) :
    (readline side rounds).obeys (watch fd good) (Hears Spey.Socket.readline side m w) m w := by
  have hloop : ∀ n s raw, Partly raw s → (readlineLoop side rounds s n).obeys (watch fd good)
      (Hears Spey.Socket.readline side m w) m (w.hear side raw) := by
    intro n
    induction n with
    | zero => exact fun s raw hraw => ⟨rfl, raw, rfl, hraw.short.came _⟩
    | succ n ih =>
      intro s raw hraw
      refine (obeys_bind (read side rounds (-1)) _ _).mpr ?_
      refine read_heard hside (hgood raw hraw.short) (fun e => ⟨rfl, raw, rfl, hraw.short.came e⟩)
        (fun x => ?_) rounds _
      cases x with
      | none => exact ⟨rfl, raw, Wire.hear_nil _ side, hraw.short.came _⟩
      | some c =>
        dsimp only
        rw [Option.toList_some, Wire.hear_hear]
        split_ifs with hcr hlf
        · exact ih s _ (hraw.step fun rest => dif_pos hcr)
        · subst hlf
          exact ⟨rfl, _, rfl, hraw.gets⟩
        · exact ih _ _ (hraw.step fun rest => (dif_neg hcr).trans (dif_neg hlf))
  have hstart : Partly [] ⟨[], oneLine_nil⟩ := fun _ => rfl
  have hread := hloop rounds _ _ hstart
  rwa [Wire.hear_nil] at hread

end

/-! ### Replies -/

/-- The reader takes a line first. -/
def LineFirst {β : Type} (read : Feed → Except ReadFailure β × Feed)
    (next : Line → Feed → Except ReadFailure β × Feed) : Prop :=
  ∀ input, read input = match Spey.Socket.readline input with
    | (.error e, input) => (.error e, input)
    | (.ok l, input) => next l input

namespace LineFirst

variable {β : Type} {read : Feed → Except ReadFailure β × Feed} {next : Line → Feed → Except ReadFailure β × Feed}
  {raw : Bytes}

theorem error (h : LineFirst read next) {e : ReadFailure} (hraw : Gets Spey.Socket.readline (.error e) raw) :
    Gets read (.error e) raw := by
  show read _ = _
  rw [h, show Spey.Socket.readline ⟨raw, e⟩ = _ from hraw]

theorem short (h : LineFirst read next) (hraw : Short Spey.Socket.readline raw) : Short read raw :=
  fun e => h.error (hraw e)

theorem came (h : LineFirst read next) {e : Exn} (hraw : Came Spey.Socket.readline (.error e) raw) :
    Came read (.error e) raw := by
  cases e <;> first | exact h.short hraw | exact h.error hraw

theorem ok (h : LineFirst read next) {l : Line} (hraw : Gets Spey.Socket.readline (.ok l) raw) (rest : Bytes)
    (ending : ReadFailure) : read ⟨raw ++ rest, ending⟩ = next l ⟨rest, ending⟩ := by
  rw [h, hraw]

/-- Where the line will not do, nothing is read after it. -/
theorem refused (h : LineFirst read next) {l : Line} (hraw : Gets Spey.Socket.readline (.ok l) raw)
    (hl : next l ⟨[], .network⟩ = (.error .network, ⟨[], .network⟩)) : Came read (.error .network) raw := by
  have hread := h.ok hraw [] .network
  rw [List.append_nil] at hread
  exact hread.trans hl

end LineFirst

namespace SMTPResponse

open Spey.SMTPResponse

theorem oneLine_text {a b c d : Byte} {t : Bytes} (h : OneLine (a :: b :: c :: d :: t)) : OneLine t := by
  simp only [oneLine_cons] at h
  exact h.2.2.2.2

/-- What the loop makes of a line. -/
def continueWith (a b c : Byte) (l : Line) (rest : Feed) : Except ReadFailure (List Line) × Feed :=
  match l with
  | ⟨a' :: b' :: c' :: d :: t, h⟩ =>
      if a' ≠ a ∨ b' ≠ b ∨ c' ≠ c then (.error .network, rest)
      else
        if d = byte '-' then
          ((readContinuation a b c rest).1.map (⟨t, oneLine_text h⟩ :: ·), (readContinuation a b c rest).2)
        else (.ok [⟨t, oneLine_text h⟩], rest)
  | _ => (.error .network, rest)

theorem lineFirst_readContinuation (a b c : Byte) : LineFirst (readContinuation a b c) (continueWith a b c) := by
  intro input
  rw [readContinuation]
  split
  next e rest he => rw [he]
  next l rest he =>
    conv_rhs => rw [he]
    obtain ⟨_ | ⟨a', _ | ⟨b', _ | ⟨c', _ | ⟨d, t⟩⟩⟩⟩, h⟩ := l
    · rfl
    · rfl
    · rfl
    · rfl
    · dsimp only [continueWith]
      split_ifs
      · rfl
      · cases readContinuation a b c rest with
        | mk r rest' => cases r <;> rfl
      · rfl

/-- What becomes of the first line. -/
def beginWith (l : Line) (rest : Feed) : Except ReadFailure Reply × Feed :=
  match l with
  | ⟨a :: b :: c :: d :: _, h⟩ =>
      if hdigits : isdigit a ∧ isdigit b ∧ isdigit c then
        if d = byte '-' then
          if hcode : status a b c = 250 then
            ((readContinuation a b c rest).1.map (multiline hdigits hcode), (readContinuation a b c rest).2)
          else (.error .network, rest)
        else if d = SP then (.ok (single hdigits h), rest)
        else (.error .network, rest)
      else (.error .network, rest)
  | _ => (.error .network, rest)

theorem lineFirst_read : LineFirst Spey.SMTPResponse.read beginWith := by
  intro input
  rw [Spey.SMTPResponse.read]
  cases Spey.Socket.readline input with
  | mk r rest =>
    cases r with
    | error e => rfl
    | ok l =>
      obtain ⟨_ | ⟨a, _ | ⟨b, _ | ⟨c, _ | ⟨d, t⟩⟩⟩⟩, h⟩ := l
      · rfl
      · rfl
      · rfl
      · rfl
      · dsimp only [beginWith]
        split_ifs
        · cases readContinuation a b c rest with
          | mk r rest' => cases r <;> rfl
        · rfl
        · rfl
        · rfl
        · rfl

variable {fd : Int} {good : Wire → Prop} {m : Members} {w : Wire} {side : Side} {β γ : Type}

/-- A line is read, and looked at. -/
theorem line_heard {read : Feed → Except ReadFailure β × Feed} {next : Line → Feed → Except ReadFailure β × Feed}
    {f : Line → SysProc β} (hfirst : LineFirst read next) (hside : Wire.sideOf fd (m.socket side)._fd = side)
    (hgood : ∀ raw, Short read raw → good (w.hear side raw))
    (hf : ∀ l raw, Gets Spey.Socket.readline (.ok l) raw →
      (f l).obeys (watch fd good) (Hears read side m w) m (w.hear side raw)) (rounds : Nat) :
    (Socket.readline side rounds >>= f).obeys (watch fd good) (Hears read side m w) m w := by
  rw [obeys_bind]
  refine obeys_mono (Socket.readline_heard hside (fun raw hraw => hgood raw (hfirst.short hraw)) rounds)
    fun r m' w' hr => ?_
  obtain ⟨rfl, raw, rfl, hraw⟩ := hr
  cases r with
  | ok l => exact hf l raw hraw
  | error e => exact ⟨rfl, raw, rfl, hfirst.came hraw⟩

/-- The rest is read by another reader. -/
theorem rest_heard {read : Feed → Except ReadFailure β × Feed} {read' : Feed → Except ReadFailure γ × Feed}
    {raw : Bytes} {f : γ → β} (hcontinues : Continues read raw read' f) {x : SysProc γ}
    (hx : x.obeys (watch fd good) (Hears read' side m (w.hear side raw)) m (w.hear side raw)) :
    obeys (watch fd good) (do return f (← x)) (Hears read side m w) m (w.hear side raw) := by
  rw [obeys_bind]
  refine obeys_mono hx fun r m' w' hr => ?_
  obtain ⟨rfl, raw', rfl, hraw⟩ := hr
  have hcame := hcontinues.came hraw
  rw [Wire.hear_hear]
  cases r <;> exact ⟨rfl, _, rfl, hcame⟩

theorem setContinuation_heard (hside : Wire.sideOf fd (m.socket side)._fd = side) (rounds : Nat) (a b c : Byte)
    (n : Nat) (hgood : ∀ raw, Short (readContinuation a b c) raw → good (w.hear side raw)) :
    (setContinuation side rounds a b c n).obeys (watch fd good) (Hears (readContinuation a b c) side m w) m w := by
  have hfirst := lineFirst_readContinuation a b c
  induction n generalizing w with
  | zero => exact ⟨rfl, [], (Wire.hear_nil w side).symm, Short.came (hfirst.short (Partly.short fun _ => rfl)) _⟩
  | succ n ih =>
    refine line_heard hfirst hside hgood (fun l raw hl => ?_) rounds
    obtain ⟨_ | ⟨a', _ | ⟨b', _ | ⟨c', _ | ⟨d, t⟩⟩⟩⟩, h⟩ := l
    · exact ⟨rfl, raw, rfl, hfirst.refused hl rfl⟩
    · exact ⟨rfl, raw, rfl, hfirst.refused hl rfl⟩
    · exact ⟨rfl, raw, rfl, hfirst.refused hl rfl⟩
    · exact ⟨rfl, raw, rfl, hfirst.refused hl rfl⟩
    · dsimp only
      split_ifs with hcode hhyphen
      · exact ⟨rfl, raw, rfl, hfirst.refused hl (if_pos hcode)⟩
      · have hcontinues : Continues (readContinuation a b c) raw (readContinuation a b c)
            (⟨t, oneLine_text h⟩ :: ·) := fun rest ending =>
          (hfirst.ok hl rest ending).trans ((if_neg hcode).trans (if_pos hhyphen))
        refine rest_heard hcontinues (ih fun raw' hraw' => ?_)
        rw [Wire.hear_hear]
        exact hgood _ (hcontinues.short hraw')
      · exact ⟨rfl, raw, rfl, fun rest ending =>
          (hfirst.ok hl rest ending).trans ((if_neg hcode).trans (if_neg hhyphen))⟩

theorem set_heard (hside : Wire.sideOf fd (m.socket side)._fd = side)
    (hgood : ∀ raw, Short Spey.SMTPResponse.read raw → good (w.hear side raw)) (rounds : Nat) :
    (set side rounds).obeys (watch fd good) (Hears Spey.SMTPResponse.read side m w) m w := by
  refine line_heard lineFirst_read hside hgood (fun l raw hl => ?_) rounds
  obtain ⟨_ | ⟨a, _ | ⟨b, _ | ⟨c, _ | ⟨d, t⟩⟩⟩⟩, h⟩ := l
  · exact ⟨rfl, raw, rfl, lineFirst_read.refused hl rfl⟩
  · exact ⟨rfl, raw, rfl, lineFirst_read.refused hl rfl⟩
  · exact ⟨rfl, raw, rfl, lineFirst_read.refused hl rfl⟩
  · exact ⟨rfl, raw, rfl, lineFirst_read.refused hl rfl⟩
  · dsimp only
    split_ifs with hdigits hhyphen hcode hsp
    · have hcontinues : Continues Spey.SMTPResponse.read raw (readContinuation a b c) (multiline hdigits hcode) :=
        fun rest ending => (lineFirst_read.ok hl rest ending).trans
          ((dif_pos hdigits).trans ((if_pos hhyphen).trans (dif_pos hcode)))
      refine rest_heard hcontinues (setContinuation_heard hside rounds a b c rounds fun raw' hraw' => ?_)
      rw [Wire.hear_hear]
      exact hgood _ (hcontinues.short hraw')
    · exact ⟨rfl, raw, rfl, lineFirst_read.refused hl
        ((dif_pos hdigits).trans ((if_pos hhyphen).trans (dif_neg hcode)))⟩
    · exact ⟨rfl, raw, rfl, fun rest ending => (lineFirst_read.ok hl rest ending).trans
        ((dif_pos hdigits).trans ((if_neg hhyphen).trans (if_pos hsp)))⟩
    · exact ⟨rfl, raw, rfl, lineFirst_read.refused hl
        ((dif_pos hdigits).trans ((if_neg hhyphen).trans (if_neg hsp)))⟩
    · exact ⟨rfl, raw, rfl, lineFirst_read.refused hl (dif_neg hdigits)⟩

end SMTPResponse

/-! ### Opening, securing and closing -/

section
variable {fd : Int} {good : Wire → Prop} {w : Wire} {K : Members → Prop} {side : Side} {α β : Type}

/-- Nothing is heard or said, and `K` is kept. -/
def Silent (fd : Int) (good : Wire → Prop) (w : Wire) (K : Members → Prop) (x : SysProc α) : Prop :=
  Keeps (watch fd good) (fun m w' => K m ∧ w' = w) (fun _ m w' => K m ∧ w' = w) x

theorem Silent.bind {x : SysProc α} {f : α → SysProc β} (hx : Silent fd good w K x)
    (hf : ∀ a, Silent fd good w K (f a)) : Silent fd good w K (x >>= f) := Keeps.bind hx hf

theorem Silent.ite {q : Prop} [Decidable q] {x y : SysProc α} (hx : Silent fd good w K x)
    (hy : Silent fd good w K y) : Silent fd good w K (if q then x else y) :=
  Keeps.ite (fun _ => hx) fun _ => hy

theorem silent_pure (a : α) : Silent fd good w K (pure a : SysProc α) := keeps_pure a

theorem silent_raise (e : Exn) : Silent fd good w K (raise e : SysProc α) := keeps_raise fun _ _ h => h

theorem silent_getState : Silent fd good w K (getState : SysProc Members) := keeps_getState

theorem silent_this : Silent fd good w K (this side) := keeps_getState.bind fun _ => keeps_pure _

theorem silent_sys {e : Sys} (hgood : good w) (he : ∀ x, w.after fd ⟨e, x⟩ = w) :
    Silent fd good w K (sys e) := by
  refine keeps_call fun m w' h => ?_
  obtain ⟨hK, rfl⟩ := h
  exact ⟨hgood, fun x _ => ⟨hK, he x⟩⟩

theorem silent_assign {f : Socket → Socket} (hf : ∀ m, K m → K (m.put side (f (m.socket side)))) :
    Silent fd good w K (assign side f) := keeps_update fun m _ h => ⟨hf m h.1, h.2⟩

theorem Silent.concurrently {x : SysProc α} (hgood : good w) (hx : Silent fd good w K x) :
    Silent fd good w K (concurrently x) :=
  keeps_concurrently (silent_sys hgood fun _ => rfl) (silent_sys hgood fun _ => rfl) hx

theorem Silent.attempt {x : SysProc α} (hx : Silent fd good w K x) : Silent fd good w K (attempt x) :=
  keeps_attempt hx

namespace Socket

theorem silent_deinit (hgood : good w) (hK : ∀ m s, K m → K (m.put side s)) :
    Silent fd good w K (deinit side) := by
  have hassign : ∀ f, Silent fd good w K (assign side f) := fun f => silent_assign fun m => hK m _
  have hcertificate : Silent fd good w K (freeCertificate side) := by
    refine silent_this.bind fun s => ?_
    cases s._gnutls_certificate_credentials with
    | none => exact silent_pure ()
    | some c => exact (silent_sys hgood fun _ => rfl).bind fun _ => hassign _
  have hanonymous : Silent fd good w K (freeAnonymous side) := by
    refine silent_this.bind fun s => ?_
    cases s._gnutls_anonymous_credentials with
    | none => exact silent_pure ()
    | some a => exact (silent_sys hgood fun _ => rfl).bind fun _ => hassign _
  have hend : Silent fd good w K (endTLS side) := by
    refine silent_this.bind fun s => .ite (silent_this.bind fun s => ?_) (silent_pure ())
    exact (silent_sys hgood fun _ => rfl).bind fun _ => hcertificate.bind fun _ => hanonymous.bind fun _ => hassign _
  refine hend.bind fun _ => silent_this.bind fun s => .ite (silent_this.bind fun s => ?_) (silent_pure ())
  exact (silent_sys hgood fun _ => rfl).bind fun _ => hassign _

theorem silent_getname (hgood : good w) (address : UInt32) : Silent fd good w K (SocketAddress.getname address) :=
  .ite (silent_sys hgood fun _ => rfl) (silent_pure none)

theorem silent_init (hgood : good w) (hK : ∀ m s, K m → K (m.put side s)) (address : SocketAddress) :
    Silent fd good w K (init side address) := by
  have hassign : ∀ f, Silent fd good w K (assign side f) := fun f => silent_assign fun m => hK m _
  refine (silent_deinit hgood hK).bind fun _ => Silent.bind (silent_sys hgood fun _ => rfl) fun d => ?_
  refine (hassign _).bind fun _ => .ite (silent_raise _) ((silent_getname hgood _).bind fun _ => ?_)
  refine Silent.bind (silent_sys hgood fun _ => rfl) fun e => .ite ?_ (silent_pure ())
  exact (silent_sys hgood fun _ => rfl).bind fun _ => (hassign _).bind fun _ => silent_raise _

/-- The descriptor stays the same. -/
theorem silent_makesecure (hgood : good w)
    (hK : ∀ m s, K m → s._fd = (m.socket side)._fd → K (m.put side s)) :
    Silent fd good w K (makesecure side) := by
  have hsys : ∀ {e : Sys}, (∀ x, w.after fd ⟨e, x⟩ = w) → Silent fd good w K (sys e) := silent_sys hgood
  have hassign : ∀ {f : Socket → Socket}, (∀ s, (f s)._fd = s._fd) → Silent fd good w K (assign side f) :=
    fun hf => silent_assign fun m hm => hK m _ hm (hf _)
  have hparams : Silent fd good w K get_dh_params := by
    refine Silent.bind (hsys fun _ => rfl) fun _ => Silent.bind (hsys fun _ => rfl) fun _ => .ite (silent_pure _) ?_
    refine Silent.bind (hsys fun _ => rfl) fun _ => (hsys fun _ => rfl).bind fun _ => ?_
    exact Silent.bind (hsys fun _ => rfl) fun _ => (hsys fun _ => rfl).bind fun _ => silent_pure _
  have hanonymous : ∀ session, Silent fd good w K (makeAnonymous side session) := by
    intro session
    refine Silent.bind (hsys fun _ => rfl) fun anonymous => (hassign (by exact fun _ => rfl)).bind fun _ => ?_
    cases anonymous with
    | none => exact silent_pure ()
    | some a => exact hparams.bind fun _ => (hsys fun _ => rfl).bind fun _ => hsys fun _ => rfl
  have hcertify : ∀ session c, Silent fd good w K (certify session c) := by
    intro session c
    refine hparams.bind fun _ => (hsys fun _ => rfl).bind fun _ => ?_
    refine silent_getState.bind fun m => Silent.bind (hsys fun _ => rfl) fun i => .ite (silent_raise _) ?_
    refine Silent.bind (hsys fun _ => rfl) fun i => .ite (silent_raise _) ?_
    exact Silent.bind (hsys fun _ => rfl) fun i => (hsys fun _ => rfl).bind fun _ => silent_pure _
  have hcertificate : ∀ session, Silent fd good w K (makeCertificate side session) := by
    intro session
    refine Silent.bind (hsys fun _ => rfl) fun certificate => (hassign (by exact fun _ => rfl)).bind fun _ => ?_
    cases certificate with
    | none => exact silent_pure false
    | some c => exact hcertify session c
  refine Silent.bind (hsys fun _ => rfl) fun made => (hassign (by exact fun _ => rfl)).bind fun _ => ?_
  refine (hanonymous made.2).bind fun _ => (hcertificate made.2).bind fun valid => ?_
  refine Silent.bind (.ite (silent_pure ()) (hsys fun _ => rfl)) fun _ => (hassign (by exact fun _ => rfl)).bind fun _ => ?_
  refine silent_this.bind fun s => Silent.bind ?_ fun e => .ite (silent_raise _) (silent_pure ())
  exact Silent.concurrently hgood (hsys fun _ => rfl)

end Socket

end

end Spey.Daemon
