import Spey.Daemon.Exclusion
import Spey.Interaction.Serial

/-!
# The calls of the threads, one after another

The tables of greylist are the store that the threads share. Only `greylist` touches
it, and does not give up the CPU lock between its statements; so every run of the
program has a book, in which each call of a thread is carried out in one piece.
-/

namespace Spey.Daemon

open Interaction Interaction.Action Program

/-- A statement of greylist. -/
def Touches (c : Sys) : Prop := ∃ st, c = .greylist st

instance : DecidablePred Touches := fun c =>
  decidable_of_iff ((match c with
    | .greylist _ => true
    | _ => false) = true) (by cases c <;> simp [Touches])

theorem not_touches_of_working {c : Sys} (hc : Working c) : ¬ Touches c := by
  rintro ⟨st, rfl⟩
  cases hc

section
variable {kind : Sys → Prop} {α : Type} {x : SysProc α}

theorem At.only {raises : Exn → Prop} (hx : At kind true raises x) (s : Members) :
    (x s).Obeys (.only kind) (fun _ _ => True) () :=
  Program.Obeys.only (hx s.host s true ⟨rfl, rfl⟩) fun _ _ => trivial

end

section
variable {c f : Sys} {s s' : Members} {seg : History Sys.Ans}
  {k : Sys.Ans f → Program Sys Sys.Ans (Except Exn (Sys.Ans c) × Members)}

end

/-- A call of a thread that is carried out by the calls of the sockets. -/
inductive Task.Handled : Task → Prop
  | session {c : Call} (hc : ∀ sender fromaddress toaddress, c ≠ .greylist sender fromaddress toaddress) :
      Handled (.session c)
  | accept (fd : Int) : Handled (.server (.accept fd))
  | destroy : Handled .destroy

theorem settled_handled (rounds : Nat) {e : Task} (he : e.Handled) : Settled Working (perform rounds e) := by
  cases he with
  | session hc => exact settled_carry rounds hc
  | accept fd => exact At.concurrently working_of_locking (work_outside rfl rfl)
  | destroy => exact settled_destroy rounds

/-- What is not handled so is a call of greylist or one call to the system. -/
theorem Task.cases {motive : Task → Prop} (e : Task) (hhandled : ∀ e, Handled e → motive e)
    (hgreylist : ∀ sender fromaddress toaddress, motive (.session (.greylist sender fromaddress toaddress)))
    (hserver : ∀ c, (∀ fd, c ≠ .accept fd) → motive (.server c)) (hsys : ∀ c, motive (.sys c)) : motive e := by
  cases e with
  | session c =>
    by_cases hc : ∃ sender fromaddress toaddress, c = .greylist sender fromaddress toaddress
    · obtain ⟨sender, fromaddress, toaddress, rfl⟩ := hc
      exact hgreylist sender fromaddress toaddress
    · exact hhandled _ (.session fun s f t he => hc ⟨s, f, t, he⟩)
  | server c =>
    by_cases hc : ∃ fd, c = .accept fd
    · obtain ⟨fd, rfl⟩ := hc
      exact hhandled _ (.accept fd)
    · exact hserver c fun fd he => hc ⟨fd, he⟩
  | destroy => exact hhandled _ .destroy
  | sys c => exact hsys c

/-! ## The book -/

theorem locked (rounds : Nat) : Serial.Locked (perform rounds) Touches Sys.role where
  inside := by
    rintro c ⟨st, rfl⟩
    rfl
  calls e := by
    have hdirect : ∀ c, ¬ Touches c → ∀ s, (sys c s).Obeys (.only fun f => ¬ Touches f) (fun _ _ => True) () :=
      fun c hc s => ⟨hc, fun _ _ => trivial⟩
    induction e using Task.cases with
    | hhandled e he =>
      exact .inr fun s => ((settled_handled rounds he).only s).only_mono fun c hc => not_touches_of_working hc
    | hgreylist sender fromaddress toaddress =>
      refine .inl fun s => ((settled_greylist sender fromaddress toaddress).only s).only_mono fun c hc => ?_
      rcases hc with rfl | ⟨st, rfl⟩ <;> exact ⟨nofun, nofun⟩
    | hserver c hc =>
      refine .inr ?_
      cases c with
      | accept fd => exact absurd rfl (hc fd)
      | _ => exact hdirect _ fun ⟨_, he⟩ => Sys.noConfusion he
    | hsys c =>
      by_cases hc : Touches c
      · obtain ⟨st, rfl⟩ := hc
        exact .inl fun s => ⟨⟨nofun, nofun⟩, fun _ _ => trivial⟩
      · exact .inr (hdirect c hc)

end Spey.Daemon
