import Spey.Session.Loops

/-!
# Proof outlines of a session

An outline puts an assertion at each point of `process` where its parts meet: at
the head of the loop, after a command was read, after each of the switches, at
the `error:` label, and at the end. It is valid when each part leads from the
assertion before it to the assertions where it can go on. Then every execution
of `process` ends in the last one, whatever it was answered and however many
rounds its loops were observed for.
-/

namespace Spey

open Interaction Interaction.Action

structure Outline where
  /-- `trusted` was looked up, nothing else has happened -/
  opening : Session → Log → Prop
  /-- the client passed the checks at the door -/
  admitted : Session → Log → Prop
  /-- the head of the loop -/
  head : Session → Log → Prop
  /-- the line that was read does not parse -/
  unparsed : Session → Log → Prop
  /-- the line that was read is `s.command` -/
  read : Session → Log → Prop
  /-- the first switch has let the command pass -/
  screened : Session → Log → Prop
  /-- the inside server is connected -/
  ready : Session → Log → Prop
  /-- the command is about to be forwarded -/
  passing : Session → Log → Prop
  /-- the `error:` label -/
  refused : Session → Log → Prop
  final : Except Exn Unit → Session → Log → Prop

namespace Outline

/-- Normal results satisfy `P`, exceptions leave the session. -/
@[simp] def upto (O : Outline) {α : Type} (P : α → Session → Log → Prop) : Post Ans Exn Session α
  | .ok a, s, h => P a s h
  | .error e, s, h => O.final (.error e) s h

/-- Each jump goes to its place; `fall` stands for the next part. -/
@[simp] def land (O : Outline) (fall : Session → Log → Prop) : Jump → Session → Log → Prop
  | .fall => fall
  | .next => O.head
  | .error => O.refused
  | .abort => O.final (.error .network)
  | .ret => O.final (.ok ())

/-- Each part of the loop leads to the assertions of the outline. -/
structure Loop (O : Outline) (ctx : Context) (rounds : Nat) : Prop where
  head : ∀ s h, O.head s h → O.final (.error .unfinished) s h
  read : ∀ s h, O.head s h → wp nextCommand
    (O.upto fun parsed => if parsed then O.read else O.unparsed) s h
  syntaxError : ∀ s h, O.unparsed s h → wp (writeoutside .syntaxError)
    (O.upto fun _ => if ctx.settings.intolerant ≠ 0 then O.final (.error .network) else O.head)
    { s with response := .set 500 } h
  screen : ∀ s h, O.read s h → wp (screen ctx) (O.upto (O.land O.screened)) s h
  connect : ∀ s h, O.screened s h → wp connectInside (O.upto fun _ => O.ready) s h
  auth : ∀ s h, O.ready s h → wp (auth ctx rounds) (O.upto (O.land O.passing)) s h
  forward : ∀ s h, O.passing s h → wp (forward ctx rounds) (O.upto (O.land O.head)) s h
  error : ∀ s h, O.refused s h → wp (errorLabel ctx)
    (O.upto fun jump => if jump = .abort then O.final (.error .network) else O.head) s h

/-- Each part of `process` leads to the assertions of the outline. -/
structure Valid (O : Outline) (ctx : Context) (rounds : Nat) : Prop extends O.Loop ctx rounds where
  unknown : O.final (.error .sql) {} [⟨.testtrusted ctx.address, none⟩]
  start : ∀ trusted, O.opening { trusted } [⟨.testtrusted ctx.address, some trusted⟩]
  door : ∀ s h, O.opening s h → wp (door ctx)
    (O.upto fun rejected => if rejected then O.refused else O.admitted) s h
  banner : ∀ s h, O.admitted s h → wp (writeoutside .banner) (O.upto fun _ => O.head)
    { s with response := { code := 220, parameter := ctx.settings.identity } } h

variable {O : Outline} {ctx : Context} {rounds : Nat}

theorem wp_upto {α : Type} {x : Proc α} {P R : α → Session → Log → Prop} {s : Session} {h : Log}
    (hx : wp x (O.upto P) s h) (hPR : ∀ a s' h', P a s' h' → R a s' h') : wp x (O.upto R) s h := by
  refine wp_mono hx fun r s' h' hr => ?_
  cases r with
  | ok a => exact hPR a s' h' hr
  | error e => exact hr

/-- At the door only the deferred error and the history change. -/
theorem door_upto {s : Session} {h : Log} (hdoor : ∀ d h', Extends isDoor h h' →
      (∀ e, O.final (.error e) { s with deferrederror := d } h') ∧
      O.refused { s with deferrederror := d } h' ∧ O.admitted { s with deferrederror := d } h') :
    wp (door ctx) (O.upto fun rejected => if rejected then O.refused else O.admitted) s h := by
  refine wp_mono door_wp ?_
  rintro r s' h' ⟨⟨d, rfl⟩, hh⟩
  obtain ⟨hfinal, hrefused, hadmitted⟩ := hdoor d h' hh
  rcases r with e | _ | _
  · exact hfinal e
  · exact hadmitted
  · exact hrefused

/-- The rest of the loop body, once the first switch has let the command pass. -/
theorem Loop.proceed (hO : O.Loop ctx rounds) {s : Session} {h : Log} (hs : O.screened s h) :
    wp (do
      connectInside
      match ← Spey.auth ctx rounds with
      | .fall => Spey.forward ctx rounds
      | jump => pure jump) (O.upto (O.land O.head)) s h := by
  simp only [wp_bind]
  refine wp_mono (hO.connect s h hs) fun connected s₁ h₁ hready => ?_
  cases connected with
  | error e => exact hready
  | ok _ =>
    refine wp_mono (hO.auth s₁ h₁ hready) fun jump s₂ h₂ hauth => ?_
    cases jump with
    | error e => exact hauth
    | ok jump =>
      cases jump with
      | next | error | abort | ret => exact hauth
      | fall => exact hO.forward s₂ h₂ hauth

/-- The loop body, up to the `error:` label. -/
theorem Loop.command (hO : O.Loop ctx rounds) {s : Session} {h : Log} (hs : O.head s h) :
    wp (command ctx rounds) (O.upto (O.land O.head)) s h := by
  simp only [Spey.command, wp_bind, wp_ite]
  refine wp_mono (hO.read s h hs) fun parsed s₁ h₁ hparsed => ?_
  rcases parsed with e | _ | _
  · exact hparsed
  · simp only [Bool.false_eq_true, ↓reduceIte, wp_respond]
    refine wp_mono (hO.syntaxError s₁ h₁ hparsed) fun written s₂ h₂ hwritten => ?_
    cases written with
    | error e => exact hwritten
    | ok _ =>
      simp only [upto] at hwritten
      simp only [wp_pure]
      split_ifs at hwritten ⊢ with hi
      · exact hwritten
      · exact hwritten
  · simp only [↓reduceIte]
    refine wp_mono (hO.screen s₁ h₁ hparsed) fun jump s₂ h₂ hscreen => ?_
    cases jump with
    | error e => exact hscreen
    | ok jump =>
      cases jump with
      | next | error | abort | ret => exact hscreen
      | fall => exact hO.proceed hscreen

/-- The `error:` label leads back to the head of the loop, or out of it. -/
theorem Loop.settle_error (hO : O.Loop ctx rounds) {s : Session} {h : Log} (hs : O.refused s h) :
    wp (settle ctx .error) (O.upto fun left s h => left = none ∧ O.head s h) s h := by
  simp only [settle, wp_bind]
  refine wp_mono (hO.error s h hs) fun jump s' h' herror => ?_
  cases jump with
  | error e => exact herror
  | ok jump =>
    cases jump with
    | abort => exact herror
    | fall | next | error | ret => exact ⟨rfl, herror⟩

theorem Loop.settle (hO : O.Loop ctx rounds) {jump : Jump} {s : Session} {h : Log}
    (hs : O.land O.head jump s h) : wp (settle ctx jump)
      (O.upto fun left => if left.isSome then O.final (.ok ()) else O.head) s h := by
  cases jump with
  | fall => exact hs
  | next => exact hs
  | abort => exact hs
  | ret => exact hs
  | error =>
    refine wp_upto (hO.settle_error hs) ?_
    rintro left s' h' ⟨rfl, hhead⟩
    exact hhead

theorem Loop.session (hO : O.Loop ctx rounds) {s : Session} {h : Log} (hs : O.head s h) :
    wp (session ctx rounds) O.final s h := by
  refine wp_repeatUntil O.head (fun s h hs => ?_) hO.head rounds s h hs
  simp only [wp_bind]
  refine wp_mono (hO.command hs) fun jump s' h' hjump => ?_
  cases jump with
  | error e => exact hjump
  | ok jump =>
    refine wp_mono (hO.settle hjump) fun left s'' h'' hleft => ?_
    rcases left with e | _ | _
    · exact hleft
    · exact hleft
    · exact hleft

/-- A valid outline holds of every execution of the program. -/
theorem Valid.process (hO : O.Valid ctx rounds) {r : Except Exn Unit} {s : Session} {h : Log}
    (hrun : (process ctx rounds).Ends {} [] r s h) : O.final r s h := by
  refine (wp_iff_ends _ _ _ _).mp ?_ r s h hrun
  simp only [Spey.process, wp_bind, wp_sql, wp_update]
  intro answer
  cases answer with
  | none => exact hO.unknown
  | some trusted =>
    refine wp_mono (hO.door _ _ (hO.start trusted)) fun rejected s₁ h₁ hdoor => ?_
    rcases rejected with e | _ | _
    · exact hdoor
    · simp only [Bool.false_eq_true, ↓reduceIte, wp_bind, wp_respond]
      refine wp_mono (hO.banner s₁ h₁ hdoor) fun written s₂ h₂ hwritten => ?_
      cases written with
      | error e => exact hwritten
      | ok _ => exact hO.session hwritten
    · simp only [↓reduceIte, wp_bind]
      refine wp_mono (hO.settle_error hdoor) fun left s₂ h₂ hleft => ?_
      cases left with
      | error e => exact hleft
      | ok _ => exact hO.session hleft.2

end Outline

end Spey
