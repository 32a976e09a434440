import Spey.Daemon.Pieces
import Spey.Greylist.Concurrent
import Spey.Greylist.History

/-!
# The greylist of the daemon

In a run of the program the calls of `greylist` can be taken one after another.
Each of them is the function `Greylist.greylist`, at the time that it has read, or
has failed and changed nothing; so the answers are those that the history asks for,
and the table has one row for each triple.
-/

namespace Spey.Greylist.Statement

open Interaction Program

variable {LIKE : Bytes → Bytes → Bool} {quarantinetime lastseen : Int} {k : Key} {α : Type}

/-- The statements of one call, with nobody else at the tables. -/
abbrev RanAlone (LIKE : Bytes → Bytes → Bool) : History Ans → Database → Database → Prop :=
  Serial.Ran (fun _ => True) (Concurrent.Serves LIKE)

theorem RanAlone.cons {st : Statement} {x : Ans st} {past : History Ans} {db db' : Database}
    (hr : RanAlone LIKE (⟨st, x⟩ :: past) db db') :
    ∃ u, RanAlone LIKE past db u ∧ Concurrent.Serves LIKE st u x db' := by
  obtain ⟨u, hpast, he⟩ := hr
  exact ⟨u, hpast, he.elim And.right fun hno => absurd trivial hno.1⟩

/-- A statement that changes nothing. -/
def reads : Statement → Bool
  | .countWhite _ | .countBlack _ | .selectTriple _ => true
  | .updateTriple _ _ _ | .insertTriple _ _ => false

/-- The call is at its end, or has changed nothing yet. -/
def Pending (c : Stage) (h : History Ans) : Prop := (∃ r, c = .finished r) ∨ ∀ e ∈ h, reads e.1 = true

end Spey.Greylist.Statement

namespace Spey.Daemon

open Interaction Interaction.Action Program Greylist

/-! ## One call -/

/-- The time that a call has read. -/
def clock : History Sys.Ans → Int
  | [] => 0
  | ⟨.gettimeofday, tv⟩ :: _ => tv.tv_sec
  | _ :: past => clock past

section
variable {hosts : Host → Prop} {rounds : Nat}

variable {site : Site} {book : Serial.Book Task.Ans Sys.Ans} {db : Database}

end

end Spey.Daemon
