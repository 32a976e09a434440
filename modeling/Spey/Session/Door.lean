import Spey.Session.Events
import Spey.Session.Loops
import Spey.Session.Outline
import Spey.World

/-!
# Connections that are rejected at the door

A client that an RBL lists, or that talks before the banner, gets a 554 from the
`error:` label inside the loop. Where that label leaves the loop depends on the
setting `intolerant` alone: without it the session goes on with the next command.
-/

namespace Spey

open Interaction Interaction.Action

/-- An RBL lists the client, or the client does not wait for the banner. -/
@[simp] def spots : Event Ans → Bool
  | ⟨.gethostbyname _, true⟩ | ⟨.outRead _, true⟩ => true
  | _ => false

@[simp] def spotted (e : Event Ans) (_ : Log) : Prop := spots e
  deriving Decidable

@[simp] def writes554 : Event Ans → Bool
  | ⟨.outReply .refusal r, true⟩ => r.code = 554
  | _ => false

/-- The client is told that the connection is rejected. -/
@[simp] def rejected (e : Event Ans) (past : Log) : Prop :=
  writes554 e ∧ Once spotted past ∧ ¬ Once commandRead past
  deriving Decidable

/-- The session goes on: a command is read, the banner is written, the inside
server is connected, or something is written to it. -/
@[simp] def goesOn : Event Ans → Bool
  | ⟨.outReadline .command, _⟩ | ⟨.outReply .banner _, _⟩ | ⟨.connect, _⟩ | ⟨.inWriteline _, _⟩ => true
  | _ => false

@[simp] def shut (e : Event Ans) (past : Log) : Prop := goesOn e → ¬ Once rejected past
  deriving Decidable

namespace Door

variable {ctx : Context} {s : Session} {h : Log}

/-- Nobody was rejected so far. -/
structure Open (h : Log) : Prop where
  shut : Always shut h
  none : ¬ Once rejected h

theorem Open.cons {e : Event Ans} (hs : Open h) (he : writes554 e = false) : Open (e :: h) where
  shut := ⟨fun _ => hs.none, hs.shut⟩
  none := by
    rintro (hr | hold)
    · rw [rejected, he] at hr
      cases hr.1
    · exact hs.none hold.2

theorem Open.door {h' : Log} (hs : Open h) (hh : Extends isDoor h h') : Open h' := by
  refine hh.invariant (fun e past he hpast => hpast.cons ?_) hs
  revert e
  exact forall_door (fun _ _ => rfl) (fun _ _ => rfl) fun _ _ => rfl

/-- Once a command was read, nobody is rejected any more. -/
theorem rejected_of_later {h' : Log} (hread : Once commandRead h) (hs : h <:+ h')
    (hr : Once rejected h') : Once rejected h := by
  obtain ⟨later, rfl⟩ := hs
  induction later with
  | nil => exact hr
  | cons e later ih =>
    rcases hr with he | hold
    · refine absurd ?_ he.2.2
      clear ih he
      induction later with
      | nil => exact hread
      | cons x later ih => exact ih.cons id
    · exact ih hold.2

theorem command_reads {rounds : Nat} {Q : Post Ans Exn Session Jump}
    (hQ : ∀ r s' h', (∃ x, (⟨.outReadline .command, x⟩ :: h) <:+ h') → Q r s' h') :
    wp (command ctx rounds) Q s h := by
  simp only [command, wp_bind]
  rw [wp_nextCommand]
  refine ⟨fun e => hQ _ _ _ ⟨_, List.suffix_refl _⟩, fun l => ?_⟩
  cases s.command.set l with
  | none => exact wp_of_suffix fun r s' h' hs => hQ r s' h' ⟨_, hs⟩
  | some c => exact wp_of_suffix fun r s' h' hs => hQ r s' h' ⟨_, hs⟩

/-- A session reads a command first. -/
theorem session_reads (rounds : Nat) : wp (session ctx (rounds + 1))
    (fun _ _ h' => ∃ x, (⟨.outReadline .command, x⟩ :: h) <:+ h') s h := by
  simp only [session, repeatUntil, wp_bind]
  refine command_reads fun r s' h' hread => ?_
  cases r with
  | error e => exact hread
  | ok jump =>
    obtain ⟨x, hx⟩ := hread
    refine wp_of_suffix fun r s'' h'' hs => ?_
    cases r with
    | error e => exact ⟨x, hx.trans hs⟩
    | ok left => exact wp_of_suffix fun _ _ _ hs' => ⟨x, hx.trans (hs.trans hs')⟩

/-- After the `error:` label of a tolerant session the next command is read. -/
theorem session_not_shut (rounds : Nat) : wp (session ctx (rounds + 1))
    (fun _ _ h' => Once rejected h' → Once rejected h ∧ ¬ Always shut h') s h := by
  refine wp_mono (session_reads rounds) ?_
  rintro r s' h' ⟨x, hx⟩ hr
  have hfirst : Once rejected (⟨.outReadline .command, x⟩ :: h) :=
    rejected_of_later (.inl rfl) hx hr
  have hold : Once rejected h := by simpa using hfirst
  exact ⟨hold, fun hshut => (hshut.of_suffix hx).1 rfl hold⟩

theorem process_valid (rounds : Nat) : wp (process ctx (rounds + 1))
    (fun _ _ h => Once rejected h → (Always shut h ↔ ctx.settings.intolerant ≠ 0)) {} [] := by
  simp only [process, wp_bind, wp_sql, wp_update]
  intro answer
  have hstart : Open [⟨.testtrusted ctx.address, answer⟩] := ⟨by simp, by simp⟩
  cases answer with
  | none => exact fun hr => absurd hr hstart.none
  | some trusted =>
    refine wp_mono door_wp fun answer s₁ h₁ hdoor => ?_
    obtain ⟨⟨d, rfl⟩, hh⟩ := hdoor
    have hopen := hstart.door hh
    rcases answer with e | _ | _
    · exact fun hr => absurd hr hopen.none
    · simp only [Bool.false_eq_true, ↓reduceIte, wp_bind, wp_respond, wp_writeoutside]
      have hbanner := fun r x => hopen.cons (e := ⟨.outReply .banner r, x⟩) rfl
      refine ⟨fun hr => absurd hr (hbanner _ _).none, ?_⟩
      refine wp_mono (session_not_shut rounds) fun r s' h' hnot hr => ?_
      exact absurd (hnot hr).1 (hbanner _ _).none
    · simp only [↓reduceIte, wp_bind, settle]
      rw [wp_errorLabel]
      refine ⟨fun hr => absurd hr (hopen.cons rfl).none, ?_⟩
      by_cases hi : ctx.settings.intolerant = 0
      · rw [if_neg (by simp [hi])]
        simp only [wp_pure]
        refine wp_mono (session_not_shut rounds) fun r s' h' hnot hr => ?_
        exact iff_of_false (hnot hr).2 (by simp [hi])
      · rw [if_pos hi]
        simp only [wp_raise]
        exact fun _ => iff_of_true ⟨fun hgoes => absurd hgoes Bool.false_ne_true, hopen.shut⟩ hi

end Door

/-- Where the rest of a session is observed, a connection that was rejected at
the door is shut exactly in intolerant mode. -/
theorem rejected_shut_iff (ctx : Context) (rounds : Nat) (hrounds : 0 < rounds) {r : Except Exn Unit}
    {s : Session} {h : Log} (hrun : (process ctx rounds).Ends {} [] r s h)
    (hrejected : Once rejected h) : Always shut h ↔ ctx.settings.intolerant ≠ 0 := by
  obtain ⟨n, rfl⟩ := Nat.exists_eq_succ_of_ne_zero (Nat.ne_of_gt hrounds)
  exact (wp_iff_ends _ _ _ _).mp (Door.process_valid n) r s h hrun hrejected

/-- An RBL zone is set. -/
def Context.listing (intolerant : Int) : Context :=
  let ctx := Context.sample intolerant .NoAuth
  { ctx with settings := { ctx.settings with rbllist := text "bl.test" } }

/-- A client that the zone lists. -/
def listedClient : World :=
  { World.ofLines .Accepted ["HELO a.b", "QUIT"] ["220 in", "250 ok"] with
    oracle := fun _ c =>
      match c with
      | .gethostbyname _ => true
      | c => World.allow .Accepted c }

/-- In tolerant mode its HELO is read after the 554, and forwarded. -/
theorem listed_client_goes_on :
    ¬ ∀ (ctx : Context) (rounds : Nat) (r : Except Exn Unit) (s : Session) (h : Log),
      (process ctx rounds).Ends {} [] r s h → Once rejected h → Always shut h := by
  intro hall
  obtain ⟨r, s, hrun⟩ := listedClient.history_ends (.listing 0) 4
  have hshut := hall (.listing 0) 4 r s _ hrun (by decide +kernel)
  revert hshut
  decide +kernel

theorem listed_client_shut :
    Once rejected (listedClient.history (.listing 1) 4) ∧
      (Always shut (listedClient.history (.listing 1) 4) ↔
        (Context.listing 1).settings.intolerant ≠ 0) := by
  have hrejected : Once rejected (listedClient.history (.listing 1) 4) := by decide +kernel
  obtain ⟨r, s, hrun⟩ := listedClient.history_ends (.listing 1) 4
  exact ⟨hrejected, rejected_shut_iff (.listing 1) 4 (by decide) hrun hrejected⟩

end Spey
