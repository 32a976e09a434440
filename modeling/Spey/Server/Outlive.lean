import Spey.ServerProcessor

/-!
# The server and its connections

A `Listening` world hands the server a finite sequence of outcomes of `accept()`,
each connection with the outcome of creating its thread, and leaves the server
waiting once they are used up; everything else is up to an oracle. A connection
that cannot be started costs the server nothing. A failed `accept()` is thrown
outside the `try`: it ends `run`, and the trampoline closes the master socket.
-/

namespace Spey.ServerProcessor

open Interaction Action

/-- What `accept()` gives, and where it gives a descriptor, what `pthread_create`
gives for it. -/
inductive Outcome where
  | failed (errno : Int)
  | connection (fd : Int) (address : SocketAddress) (thread : Int)
  deriving DecidableEq

def Outcome.Failed : Outcome → Prop
  | .failed _ => True
  | .connection _ _ _ => False

instance (o : Outcome) : Decidable o.Failed := by
  cases o with
  | failed errno => exact isTrue trivial
  | connection fd address thread => exact isFalse id

/-- The outcomes to come, what the next thread creation gives, and all calls so far. -/
structure Listening where
  outcomes : List Outcome
  thread : Int := 0
  log : History ServerCall.Ans := []

abbrev ServerOracle := History ServerCall.Ans → (c : ServerCall) → ServerCall.Ans c

def Listening.record (w : Listening) (c : ServerCall) (x : ServerCall.Ans c) : Listening :=
  { w with log := ⟨c, x⟩ :: w.log }

@[simp] theorem Listening.record_outcomes (w : Listening) (c : ServerCall) (x : ServerCall.Ans c) :
    (w.record c x).outcomes = w.outcomes := rfl

def Listening.answer (oracle : ServerOracle) : Waiting ServerCall.Ans Listening
  | .accept fd, w =>
      match w.outcomes with
      | [] => none
      | .failed errno :: os =>
          some (.error errno, { w with outcomes := os }.record (.accept fd) (.error errno))
      | .connection fd' address thread :: os =>
          some (.ok (fd', address),
            { w with outcomes := os, thread := thread }.record (.accept fd) (.ok (fd', address)))
  | .createThread fd address, w => some (w.thread, w.record (.createThread fd address) w.thread)
  -- the server's own thread is set up
  | .setspecific, w => some (0, w.record .setspecific 0)
  | c, w => some (oracle w.log c, w.record c (oracle w.log c))

/-- Once the outcomes are used up, the server waits in `accept()`. -/
def Outlives (oracle : ServerOracle) (rounds : Nat) (s : Server) (w : Listening) : Prop :=
  (threadlet rounds).awaits (Listening.answer oracle)
    (fun r _ => r.pending = some (.accept s._fd)) s w

instance (oracle : ServerOracle) (rounds : Nat) (s : Server) (w : Listening) :
    Decidable (Outlives oracle rounds s w) :=
  inferInstanceAs (Decidable (Standing.pending _ = _))

variable {oracle : ServerOracle} {s : Server} {w : Listening} {fd : Int} {os : List Outcome}

/-- The master socket is `fd`, and these outcomes are to come. -/
def Before (fd : Int) (os : List Outcome) (s : Server) (w : Listening) : Prop :=
  s._fd = fd ∧ w.outcomes = os

section Calls

theorem setting_settles (key : Bytes) :
    Settles (Listening.answer oracle) (Before fd os) (serverCall (.setting key)) :=
  Settles.call fun _ w hI => ⟨_, w.record _ _, rfl, hI⟩

theorem write_settles (fd' : Int) (message : Bytes) :
    Settles (Listening.answer oracle) (Before fd os) (serverCall (.write fd' message)) :=
  Settles.call fun _ w hI => ⟨_, w.record _ _, rfl, hI⟩

theorem close_settles (fd' : Int) :
    Settles (Listening.answer oracle) (Before fd os) (serverCall (.close fd')) :=
  Settles.call fun _ w hI => ⟨_, w.record _ _, rfl, hI⟩

theorem log_settles (address : SocketAddress) :
    Settles (Listening.answer oracle) (Before fd os) address.log := by
  unfold SocketAddress.log
  split
  · refine Settles.bind (Settles.call fun _ w hI => ⟨_, w.record _ _, rfl, hI⟩) fun _ => ?_
    exact Settles.pure ()
  · exact Settles.pure ()

/-- A setting that cannot be read is empty. -/
theorem get_settles (key : String) :
    Settles (Listening.answer oracle) (Before fd os) (Settings.get key) := by
  intro s w hI
  simp only [Settings.get, awaits_handle, awaits_bind]
  apply (setting_settles (text key)).awaits hI
  intro value s' w' hI'
  cases value with
  | none => exact ⟨[], s', rfl, hI'⟩
  | some value => exact ⟨value, s', rfl, hI'⟩

theorem reload_settles :
    Settles (Listening.answer oracle) (Before fd os) Settings.reload := by
  unfold Settings.reload
  iterate 11
    apply Settles.bind (get_settles _)
    intro _
  exact Settles.update fun s w hI => hI

theorem refuse_settles (fd' : Int) (address : SocketAddress) :
    Settles (Listening.answer oracle) (Before fd os) (refuse fd' address) := by
  intro s w hI
  simp only [refuse, awaits_bind, awaits_getState]
  apply (log_settles address).awaits hI
  intro _ s w hI
  apply (write_settles fd' _).awaits hI
  intro _ s' w' hI'
  exact close_settles fd' s' w' hI'

end Calls

section Rounds

variable {Q : Stand ServerCall ServerExn Server (Option Unit) Listening}

/-- With no outcome left, the round waits in `accept()`. -/
theorem round_waits (hI : Before fd [] s w)
    (hQ : ∀ w', Q (.blocked (.accept fd)) w') : round.awaits (Listening.answer oracle) Q s w := by
  simp only [round, awaits_bind]
  apply reload_settles.awaits hI
  intro _ s' w' hI'
  obtain ⟨hfd, hos⟩ := hI'
  have hblocked : Listening.answer oracle (.accept s'._fd) w' = none := by
    simp only [Listening.answer, hos]
  simp only [SocketServer.accept, awaits_bind, awaits_getState]
  rw [awaits_blocked hblocked, hfd]
  exact hQ w'

/-- A failed `accept()` leaves the round as an exception. -/
theorem round_fails {errno : Int} (hI : Before fd (.failed errno :: os) s w)
    (hQ : ∀ s' w', s'._fd = fd →
      Q (.finished (.error (.network (text "accept() failed") errno), s')) w') :
    round.awaits (Listening.answer oracle) Q s w := by
  simp only [round, awaits_bind]
  apply reload_settles.awaits hI
  intro _ s' w' hI'
  obtain ⟨hfd, hos⟩ := hI'
  have hanswer : Listening.answer oracle (.accept s'._fd) w' =
      some (.error errno, { w' with outcomes := os }.record (.accept s'._fd) (.error errno)) := by
    simp only [Listening.answer, hos]
  simp only [SocketServer.accept, awaits_bind, awaits_getState]
  rw [awaits_call hanswer]
  exact hQ s' _ hfd

/-- A connection ends the round as it began, whether its thread starts or not. -/
theorem round_connection {fd' thread : Int} {address : SocketAddress}
    (hI : Before fd (.connection fd' address thread :: os) s w)
    (hQ : ∀ s' w', Before fd os s' w' → Q (.finished (.ok none, s')) w') :
    round.awaits (Listening.answer oracle) Q s w := by
  simp only [round, awaits_bind]
  apply reload_settles.awaits hI
  intro _ s' w' hI'
  obtain ⟨hfd, hos⟩ := hI'
  have hanswer : Listening.answer oracle (.accept s'._fd) w' = some (.ok (fd', address),
      { w' with outcomes := os, thread := thread }.record (.accept s'._fd) (.ok (fd', address))) := by
    simp only [Listening.answer, hos]
  simp only [SocketServer.accept, awaits_bind, awaits_getState]
  rw [awaits_call hanswer]
  simp only [awaits_pure, awaits_handle, Threadlet.start, awaits_bind]
  have hI' : Before fd os s' ({ w' with outcomes := os, thread := thread }.record (.accept s'._fd)
      (.ok (fd', address))) := ⟨hfd, rfl⟩
  apply (log_settles address).awaits hI'
  intro _ s' w' hI'
  dsimp only
  rw [awaits_call rfl]
  show awaits _ (ite (w'.thread ≠ 0) _ _) _ _ _
  split
  · rw [awaits_raise]
    apply (refuse_settles fd' address).awaits (by exact hI')
    intro _ s'' w'' hI''
    exact hQ s'' w'' hI''
  · rw [awaits_pure]
    exact hQ s' _ hI'

end Rounds

section Runs

variable {Q : Stand ServerCall ServerExn Server Unit Listening}

/-- `run` comes to wait in `accept()` again where none of the outcomes is a failure. -/
theorem run_waits {rounds : Nat} (hos : ∀ o ∈ os, ¬ o.Failed) (hrounds : os.length < rounds)
    (hI : Before fd os s w) (hQ : ∀ w', Q (.blocked (.accept fd)) w') :
    (run rounds).awaits (Listening.answer oracle) Q s w := by
  induction os generalizing rounds s w with
  | nil =>
    obtain ⟨rounds, rfl⟩ : ∃ n, rounds = n + 1 := ⟨rounds - 1, by simp at hrounds; omega⟩
    simp only [run, repeatUntil, awaits_bind]
    exact round_waits hI hQ
  | cons o os ih =>
    rw [List.length_cons] at hrounds
    obtain ⟨rounds, rfl⟩ : ∃ n, rounds = n + 1 := ⟨rounds - 1, by omega⟩
    simp only [run, repeatUntil, awaits_bind]
    cases o with
    | failed errno => exact absurd trivial (hos _ List.mem_cons_self)
    | connection fd' address thread =>
      apply round_connection hI
      intro s' w' hI'
      exact ih (fun o ho => hos o (List.mem_cons_of_mem _ ho)) (by omega) hI'

/-- The first failure ends `run` with the exception of `accept`. -/
theorem run_fails {rounds : Nat} (hos : ∃ o ∈ os, o.Failed) (hrounds : os.length < rounds)
    (hI : Before fd os s w)
    (hQ : ∀ errno s' w', s'._fd = fd →
      Q (.finished (.error (.network (text "accept() failed") errno), s')) w') :
    (run rounds).awaits (Listening.answer oracle) Q s w := by
  induction os generalizing rounds s w with
  | nil =>
    obtain ⟨o, ho, -⟩ := hos
    exact absurd ho List.not_mem_nil
  | cons o os ih =>
    rw [List.length_cons] at hrounds
    obtain ⟨rounds, rfl⟩ : ∃ n, rounds = n + 1 := ⟨rounds - 1, by omega⟩
    simp only [run, repeatUntil, awaits_bind]
    cases o with
    | failed errno =>
      apply round_fails hI
      intro s' w' hfd
      exact hQ errno s' w' hfd
    | connection fd' address thread =>
      apply round_connection hI
      intro s' w' hI'
      have hos' : ∃ o ∈ os, o.Failed := by
        obtain ⟨o, ho, hfailed⟩ := hos
        rcases List.mem_cons.mp ho with rfl | ho
        · exact absurd hfailed id
        · exact ⟨o, ho, hfailed⟩
      exact ih hos' (by omega) hI'

end Runs

section Threads

variable {Q : Stand ServerCall ServerExn Server Unit Listening} {rounds : Nat}

/-- The master socket is closed, where it was open, and its descriptor forgotten. -/
theorem deinit_closes (hQ : ∀ s' w', s'._fd = -1 → Q (.finished (.ok (), s')) w') :
    SocketServer.deinit.awaits (Listening.answer oracle) Q s w := by
  simp only [SocketServer.deinit, awaits_bind, awaits_getState]
  split
  · simp only [awaits_bind, awaits_getState]
    rw [awaits_call rfl]
    exact hQ _ _ rfl
  · rename_i hfd
    exact hQ s w (not_not.mp hfd)

theorem threadlet_waits (hos : ∀ o ∈ w.outcomes, ¬ o.Failed) (hrounds : w.outcomes.length < rounds)
    (hQ : ∀ w', Q (.blocked (.accept s._fd)) w') :
    (threadlet rounds).awaits (Listening.answer oracle) Q s w := by
  simp only [threadlet, Threadlet.trampoline, awaits_bind]
  rw [awaits_call rfl]
  show awaits _ (ite ((0 : Int) ≠ 0) _ _) _ _ _
  rw [if_neg (not_not.mpr rfl)]
  simp only [awaits_bind, awaits_handle]
  have hI : Before s._fd w.outcomes s (w.record .setspecific 0) := ⟨rfl, rfl⟩
  apply run_waits hos hrounds hI
  exact hQ

/-- After a failed `accept()` the thread of the server has returned, and nobody
listens any more. -/
theorem threadlet_fails (hos : ∃ o ∈ w.outcomes, o.Failed) (hrounds : w.outcomes.length < rounds)
    (hQ : ∀ s' w', s'._fd = -1 → Q (.finished (.ok (), s')) w') :
    (threadlet rounds).awaits (Listening.answer oracle) Q s w := by
  simp only [threadlet, Threadlet.trampoline, awaits_bind]
  rw [awaits_call rfl]
  show awaits _ (ite ((0 : Int) ≠ 0) _ _) _ _ _
  rw [if_neg (not_not.mpr rfl)]
  simp only [awaits_bind, awaits_handle]
  have hI : Before s._fd w.outcomes s (w.record .setspecific 0) := ⟨rfl, rfl⟩
  apply run_fails hos hrounds hI
  intro errno s' w' _
  simp only [awaits_pure]
  exact deinit_closes hQ

end Threads

/-- The server outlives its connections exactly where no `accept()` fails. -/
theorem outlives_iff (oracle : ServerOracle) (rounds : Nat) (s : Server) (w : Listening)
    (hrounds : w.outcomes.length < rounds) :
    Outlives oracle rounds s w ↔ ∀ o ∈ w.outcomes, ¬ o.Failed := by
  constructor
  · intro hwaits o ho hfailed
    have hends : (threadlet rounds).awaits (Listening.answer oracle)
        (fun r _ => r.pending = none) s w :=
      threadlet_fails ⟨o, ho, hfailed⟩ hrounds fun _ _ _ => rfl
    have hnone : none = some (ServerCall.accept s._fd) := hends.symm.trans hwaits
    exact absurd hnone (Option.some_ne_none _).symm
  · intro hos
    exact threadlet_waits hos hrounds fun _ => rfl

/-- A database without settings, and calls that work. -/
def quiet : ServerOracle := fun _ c => match c with
  | .setting _ => some []
  | .accept _ => .error 0
  | .createThread _ _ => 0
  | .write _ _ | .close _ => ()
  | .gethostbyaddr _ => none
  | .setspecific => 0

def listening : Server where
  _fd := 3
  settings := {
    identity := [], intolerant := 0, quarantinetime := 0, greetpause := 0, externaltls := false
    externalauthmode := .NoAuth, rbllist := [] }

/-- A connection whose thread cannot be created, and then one that is processed. -/
theorem outlives_unstarted : Outlives quiet 3 listening
    { outcomes := [.connection 4 ⟨0x7F000001, 1025⟩ 11, .connection 4 ⟨0x7F000001, 1026⟩ 0] } :=
  (outlives_iff quiet 3 listening _ (by decide)).mpr (by decide)

/-- The peer has gone before its connection is taken from the queue: `ECONNABORTED`. -/
theorem aborted_ends_server : ¬ ∀ (oracle : ServerOracle) (rounds : Nat) (s : Server) (w : Listening),
    w.outcomes.length < rounds → Outlives oracle rounds s w := by
  intro houtlives
  have hwaits := houtlives quiet 2 listening { outcomes := [.failed 103] } (by decide)
  exact absurd hwaits (by decide +kernel)

end Spey.ServerProcessor
