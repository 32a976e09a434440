import Mathlib.Algebra.Group.Int.Defs
import Mathlib.Algebra.Group.Nat.Defs
import Mathlib.Data.Int.Order.Basic
import Mathlib.Data.Nat.Basic
import Mathlib.Order.Basic
import Mathlib.Tactic.SplitIfs

/-!
# How long a read waits

`Socket::read` adds the timeout to the time of the call, and polls until something
happens or until that time is over. Seconds become milliseconds by a
multiplication of ints, and what is left of them becomes an int for poll(2).
-/

namespace Spey.Socket

/-- What gettimeofday(2) reads. -/
structure Timeval where
  tv_sec : Nat
  tv_usec : Nat
  usec_lt : tv_usec < 1000000

namespace Timeval

def micros (tv : Timeval) : Nat := tv.tv_sec * 1000000 + tv.tv_usec

def millis (tv : Timeval) : Nat := tv.tv_sec * 1000 + tv.tv_usec / 1000

theorem millis_eq (tv : Timeval) : tv.millis = tv.micros / 1000 := by
  rw [millis, micros]
  omega

end Timeval

/-- Milliseconds since the epoch. -/
def now (tv : Timeval) : UInt64 := UInt64.ofNat tv.tv_sec * 1000 + UInt64.ofNat (tv.tv_usec / 1000)

theorem now_toNat (tv : Timeval) : (now tv).toNat = tv.millis % 2 ^ 64 := by
  rw [now, Timeval.millis, UInt64.toNat_add, UInt64.toNat_mul, UInt64.toNat_ofNat', UInt64.toNat_ofNat']
  have hthousand : (1000 : UInt64).toNat = 1000 := rfl
  rw [hthousand]
  omega

/-- A clock that does not run backwards, by its readings in a call. -/
structure Clock where
  reading : Nat → Timeval
  forward : ∀ i j, i ≤ j → (reading i).micros ≤ (reading j).micros

/-- A call of `Socket::read` and what it meets: is there data in the buffer of
GNUTLS, what the clock reads, first on entry and then in each round, and what each
poll(2) returns. -/
structure Wait where
  _timeout : Int32
  timeoutdelta : Int32
  pending : Bool
  clock : Clock
  poll : Nat → Int

/-- The timeout that counts, in seconds. -/
def Wait.seconds (w : Wait) : Int32 := if w.timeoutdelta = -1 then w._timeout else w.timeoutdelta

/-- `uint64_t timeout = now() + (uint64_t)(timeoutdelta*1000)`. The product is an
int, which goes round where it overflows. -/
def deadline (timeoutdelta : Int32) (start : Timeval) : UInt64 :=
  now start + (timeoutdelta * 1000).toInt64.toUInt64

/-- `int delay = timeout - now()`. -/
def delay (timeout : UInt64) (tv : Timeval) : Int32 := (timeout - now tv).toUInt32.toInt32

/-- Where a call is after some rounds: it polls, it threw, or it reads from the
socket, in the round given. -/
inductive Progress where
  | polling
  | buffered
  | timedOut (round : Nat)
  | reading (round : Nat)
  deriving DecidableEq

/-- So many rounds of the loop, the first of them round `k`. -/
def pollLoop (timeout : UInt64) (w : Wait) : Nat → Nat → Progress
  | 0, _ => .polling
  | rounds + 1, k =>
    if delay timeout (w.clock.reading (k + 1)) < 0 then .timedOut k
    else if w.poll k ≠ 0 then .reading k
    else pollLoop timeout w rounds (k + 1)

/-- The deadline of a call. -/
def Wait.timeout (w : Wait) : UInt64 := deadline w.seconds (w.clock.reading 0)

/-- `Socket::read`, for so many rounds. -/
def read (w : Wait) (rounds : Nat) : Progress :=
  if w.pending then .buffered else pollLoop w.timeout w rounds 0

variable (w : Wait)

/-- The milliseconds between the call and round `k`. -/
def elapsed (k : Nat) : Int := (w.clock.reading (k + 1)).millis - (w.clock.reading 0).millis

/-- The timeout is over in round `k`. A setting of 0 has none. -/
def Over (k : Nat) : Prop := 0 < w.seconds.toInt ∧ 1000 * w.seconds.toInt < elapsed w k

/-- The timeout means what it says. -/
structure TimesOut : Prop where
  /-- It is thrown only after so many seconds without an event, and never where the
  setting is 0. -/
  late : ∀ n k, read w n = .timedOut k → 0 < w.seconds.toInt ∧ (∀ j < k, w.poll j ≤ 0) ∧
    1000000 * w.seconds.toInt ≤ (w.clock.reading (k + 1)).micros - (w.clock.reading 0).micros
  /-- It is thrown when polls have found nothing up to a round behind that time. -/
  thrown : ∀ k, w.pending = false → (∀ j < k, w.poll j = 0) → Over w k →
    ∃ j ≤ k, read w (k + 1) = .timedOut j
  /-- A read that may block starts after an event only. -/
  event : ∀ n k, read w n = .reading k → 0 < w.poll k

/-- The call comes to round `k` if nothing has happened before. -/
def Quiet (k : Nat) : Prop := ∀ j < k, w.poll j = 0 ∧ ¬ Over w j

/-- The milliseconds behind the timeout in round `k`; for a setting of 0, those since the call. -/
def behind (k : Nat) : Int := elapsed w k - 1000 * w.seconds.toInt

/-- What is asked of the setting, the clock and the poll in round `k`, up to multiples of the
2 ^ 32 milliseconds that an int can tell apart. -/
structure Sound (k : Nat) : Prop where
  /-- For a setting of 0 no time has passed since the call, or more than 2 ^ 31 milliseconds. -/
  disabled : w.seconds.toInt ≤ 0 → behind w k % 2 ^ 32 = 0 ∨ 2 ^ 31 < behind w k % 2 ^ 32
  /-- Up to the end of the timeout less than 2 ^ 31 milliseconds are left. -/
  early : 0 < w.seconds.toInt → behind w k ≤ 0 → -behind w k % 2 ^ 32 < 2 ^ 31
  /-- After its end at most 2 ^ 31 milliseconds have passed. -/
  late : 0 < w.seconds.toInt → 0 < behind w k →
    0 < behind w k % 2 ^ 32 ∧ behind w k % 2 ^ 32 ≤ 2 ^ 31
  /-- The poll does not fail before. -/
  event : ¬ Over w k → 0 ≤ w.poll k

/-- As an int, what is left of the timeout is negative just where it is over. -/
theorem sound_iff (k : Nat) : Sound w k ↔
    (Int.bmod (1000 * w.seconds.toInt - elapsed w k) (2 ^ 32) < 0 ↔ Over w k) ∧
      (¬ Over w k → 0 ≤ w.poll k) := by
  have hneg : Int.bmod (1000 * w.seconds.toInt - elapsed w k) (2 ^ 32) < 0 ↔
      2 ^ 31 ≤ -behind w k % 2 ^ 32 := by
    rw [Int.bmod_def, behind, Int.neg_sub]
    split_ifs <;> omega
  have hover : Over w k ↔ 0 < w.seconds.toInt ∧ 0 < behind w k :=
    and_congr_right fun _ => Int.sub_pos.symm
  rw [hneg, hover]
  constructor
  · rintro ⟨hdisabled, hwithin, hlate, hevent⟩
    refine ⟨?_, by rwa [hover] at hevent⟩
    constructor
    · intro hleft
      by_contra hnot
      rcases le_or_gt w.seconds.toInt 0 with hd | hd
      · have hpassed := hdisabled hd
        omega
      · have hleft' := hwithin hd (by omega)
        omega
    · rintro ⟨hd, hbehind⟩
      have hpassed := hlate hd hbehind
      omega
  · rintro ⟨hiff, hevent⟩
    refine ⟨fun hd => ?_, fun hd hbehind => ?_, fun hd hbehind => ?_, by rwa [hover]⟩
    · have hleft := mt hiff.mp (by omega)
      omega
    · have hleft := mt hiff.mp (by omega)
      omega
    · have hleft := hiff.mpr ⟨hd, hbehind⟩
      omega

theorem narrow_toInt (x : UInt64) : x.toUInt32.toInt32.toInt = Int.bmod x.toNat (2 ^ 32) := by
  have hbits : x.toUInt32.toInt32.toBitVec = x.toBitVec.setWidth 32 := rfl
  rw [← Int32.toInt_toBitVec, hbits, BitVec.toInt_setWidth]
  rfl

theorem widen_toNat (x : Int32) : (x.toInt64.toUInt64.toNat : Int) = x.toInt % 2 ^ 64 := by
  have hbits : x.toInt64.toUInt64.toBitVec = BitVec.ofInt 64 x.toInt := rfl
  rw [← UInt64.toNat_toBitVec, hbits, BitVec.toNat_ofInt]
  exact Int.toNat_of_nonneg (Int.emod_nonneg _ (by decide))

/-- The delay is what is left of the timeout, reduced to an int. -/
theorem delay_toInt (k : Nat) :
    (delay w.timeout (w.clock.reading (k + 1))).toInt =
      Int.bmod (1000 * w.seconds.toInt - elapsed w k) (2 ^ 32) := by
  have hwide := widen_toNat (w.seconds * 1000)
  -- the product is exact up to a multiple of 2 ^ 32, and the narrowing drops those
  have hproduct : (w.seconds * 1000).toInt % 2 ^ 32 = w.seconds.toInt * 1000 % 2 ^ 32 := by
    rw [Int32.toInt_mul]
    exact Int.bmod_emod
  rw [delay, narrow_toInt, UInt64.toNat_sub, Wait.timeout, deadline, UInt64.toNat_add, now_toNat, now_toNat,
    ← Int.emod_bmod, ← Int.emod_bmod (1000 * w.seconds.toInt - elapsed w k), elapsed]
  congr 1
  omega

variable {w}

/-- On time: at the full second the delay is 0, and the wait goes on. -/
theorem delay_zero {k : Nat} (h : elapsed w k = 1000 * w.seconds.toInt) :
    Int.bmod (1000 * w.seconds.toInt - elapsed w k) (2 ^ 32) = 0 := by
  rw [h, Int.sub_self]
  rfl

theorem elapsed_micros (k : Nat) :
    1000 * w.seconds.toInt < elapsed w k →
      1000000 * w.seconds.toInt ≤ (w.clock.reading (k + 1)).micros - (w.clock.reading 0).micros := by
  rw [elapsed, Timeval.millis_eq, Timeval.millis_eq]
  omega

theorem micros_elapsed (k : Nat)
    (h : 1000000 * w.seconds.toInt ≤ (w.clock.reading (k + 1)).micros - (w.clock.reading 0).micros) :
    1000 * w.seconds.toInt ≤ elapsed w k := by
  rw [elapsed, Timeval.millis_eq, Timeval.millis_eq]
  omega

variable {t : UInt64} {i k : Nat}

/-- The loop goes on in round `j`. -/
def Continues (t : UInt64) (w : Wait) (j : Nat) : Prop :=
  ¬ delay t (w.clock.reading (j + 1)) < 0 ∧ w.poll j = 0

/-- It ends in round `k`, in one of two ways. -/
def Ends (t : UInt64) (w : Wait) (k : Nat) : Progress → Prop
  | .timedOut round => round = k ∧ delay t (w.clock.reading (k + 1)) < 0
  | .reading round => round = k ∧ ¬ delay t (w.clock.reading (k + 1)) < 0 ∧ w.poll k ≠ 0
  | .polling | .buffered => False

theorem pollLoop_ends (rounds i : Nat) :
    (pollLoop t w rounds i = .polling ∧ ∀ j, i ≤ j → j < i + rounds → Continues t w j) ∨
      ∃ k, i ≤ k ∧ k < i + rounds ∧ (∀ j, i ≤ j → j < k → Continues t w j) ∧
        Ends t w k (pollLoop t w rounds i) := by
  induction rounds generalizing i with
  | zero => exact .inl ⟨rfl, fun j hij hji => absurd hij (by omega)⟩
  | succ rounds ih =>
    have hfirst : ∀ j, i ≤ j → j < i → Continues t w j := fun j hij hji => absurd hij (by omega)
    rw [pollLoop]
    split_ifs with hdelay hpoll
    · exact .inr ⟨i, le_rfl, by omega, hfirst, rfl, hdelay⟩
    · exact .inr ⟨i, le_rfl, by omega, hfirst, rfl, hdelay, hpoll⟩
    · have hi : Continues t w i := ⟨hdelay, not_not.mp hpoll⟩
      have hcons : ∀ k, (∀ j, i + 1 ≤ j → j < k → Continues t w j) →
          ∀ j, i ≤ j → j < k → Continues t w j := by
        intro k hcontinues j hij hjk
        rcases Nat.eq_or_lt_of_le hij with rfl | hlt
        · exact hi
        · exact hcontinues j hlt hjk
      obtain ⟨hpolling, hcontinues⟩ | ⟨k, hik, hk, hcontinues, hends⟩ := ih (i + 1)
      · rw [show i + 1 + rounds = i + (rounds + 1) from by omega] at hcontinues
        exact .inl ⟨hpolling, hcons _ hcontinues⟩
      · exact .inr ⟨k, by omega, by omega, hcons k hcontinues, hends⟩

theorem delay_neg (k : Nat) :
    delay w.timeout (w.clock.reading (k + 1)) < 0 ↔
      Int.bmod (1000 * w.seconds.toInt - elapsed w k) (2 ^ 32) < 0 := by
  rw [← delay_toInt, Int32.lt_iff_toInt_lt]
  rfl

/-- `read` ends where its loop does, and then every round before went on. -/
theorem read_ends (n : Nat) (hpending : w.pending = false) :
    (read w n = .polling ∧ ∀ j < n, Continues w.timeout w j) ∨
      ∃ k < n, (∀ j < k, Continues w.timeout w j) ∧
        Ends w.timeout w k (read w n) := by
  have hread : read w n = pollLoop w.timeout w n 0 :=
    if_neg (by rw [hpending]; decide)
  rw [hread]
  obtain ⟨hpolling, hcontinues⟩ | ⟨k, -, hk, hcontinues, hends⟩ := pollLoop_ends n 0
  · exact .inl ⟨hpolling, fun j hj => hcontinues j (Nat.zero_le j) (by omega)⟩
  · exact .inr ⟨k, by omega, fun j hj => hcontinues j (Nat.zero_le j) hj, hends⟩

theorem Ends.not_continues {r : Progress} (h : Ends t w k r) : ¬ Continues t w k := by
  intro hk
  cases r with
  | timedOut round => exact hk.1 h.2
  | reading round => exact h.2.2 hk.2
  | polling => exact h
  | buffered => exact h

theorem Quiet.continues (hk : Quiet w k) (hsound : ∀ j < k, Quiet w j → Sound w j) :
    ∀ j < k, Continues w.timeout w j := by
  intro j hj
  obtain ⟨hpoll, hover⟩ := hk j hj
  have hj := hsound j hj fun i hi => hk i (by omega)
  have hsign := ((sound_iff w j).mp hj).1
  exact ⟨fun hneg => hover (hsign.mp ((delay_neg j).mp hneg)), hpoll⟩

theorem quiet_of_continues (hsound : ∀ j < k, Quiet w j → Sound w j)
    (h : ∀ j < k, Continues w.timeout w j) : Quiet w k := by
  induction k with
  | zero =>
    intro j hj
    omega
  | succ k ih =>
    have hk := ih (fun j hj => hsound j (by omega)) fun j hj => h j (by omega)
    obtain ⟨hdelay, hpoll⟩ := h k (by omega)
    intro j hj
    rcases Nat.lt_succ_iff_lt_or_eq.mp hj with hlt | rfl
    · exact hk j hlt
    · have hsign := ((sound_iff w j).mp (hsound j hj hk)).1
      exact ⟨hpoll, fun hover => hdelay ((delay_neg j).mpr (hsign.mpr hover))⟩

/-- A round that a call comes to is sound where the call times out as it should. -/
theorem TimesOut.sound (h : TimesOut w) (hpending : w.pending = false) (hk : Quiet w k)
    (hbefore : ∀ j < k, Quiet w j → Sound w j) : Sound w k := by
  rw [sound_iff]
  have hcontinues := hk.continues hbefore
  have hneg := delay_neg (w := w) k
  have hthrown : ∀ r, read w (k + 1) = r → (∀ round, r ≠ .timedOut round) → ¬ Over w k := by
    intro r hr hne hover
    obtain ⟨j, -, htimedOut⟩ := h.thrown k hpending (fun i hi => (hk i hi).1) hover
    exact hne j (hr.symm.trans htimedOut)
  obtain ⟨hread, hall⟩ | ⟨m, hm, -, hends⟩ := read_ends (k + 1) hpending
  · obtain ⟨hdelay, hpoll⟩ := hall k (by omega)
    have hover := hthrown _ hread fun round => Progress.noConfusion
    exact ⟨⟨fun hleft => absurd (hneg.mpr hleft) hdelay, fun hnot => absurd hnot hover⟩,
      fun _ => hpoll.ge⟩
  · have hmk : m = k := by
      rcases Nat.lt_succ_iff_lt_or_eq.mp hm with hlt | heq
      · exact absurd (hcontinues m hlt) hends.not_continues
      · exact heq
    subst hmk
    generalize hread : read w (m + 1) = r at hends
    cases r with
    | timedOut round =>
      obtain ⟨rfl, hdelay⟩ := hends
      obtain ⟨hd, -, hmicros⟩ := h.late _ _ hread
      have hleft := hneg.mp hdelay
      have hover : Over w round := by
        refine ⟨hd, lt_of_le_of_ne (micros_elapsed round hmicros) fun heq => ?_⟩
        rw [delay_zero heq.symm] at hleft
        exact absurd hleft (by decide)
      exact ⟨⟨fun _ => hover, fun _ => hleft⟩, fun hnot => absurd hover hnot⟩
    | reading round =>
      obtain ⟨rfl, hdelay, -⟩ := hends
      have hover := hthrown _ hread fun round => Progress.noConfusion
      exact ⟨⟨fun hleft => absurd (hneg.mpr hleft) hdelay, fun hnot => absurd hnot hover⟩,
        fun _ => (h.event _ _ hread).le⟩
    | polling => exact hends.elim
    | buffered => exact hends.elim

/-- A call times out as it should where every round that it comes to is sound. -/
theorem timesOut_of_sound (hpending : w.pending = false) (hsound : ∀ k, Quiet w k → Sound w k) :
    TimesOut w := by
  have hquiet : ∀ k, (∀ j < k, Continues w.timeout w j) → Quiet w k :=
    fun k => quiet_of_continues fun j _ => hsound j
  constructor
  · intro n k hread
    obtain ⟨hpolling, -⟩ | ⟨m, -, hcontinues, hends⟩ := read_ends n hpending
    · cases hread.symm.trans hpolling
    rw [hread] at hends
    obtain ⟨rfl, hneg⟩ := hends
    have hk := hquiet k hcontinues
    have hover := ((sound_iff w k).mp (hsound k hk)).1.mp ((delay_neg k).mp hneg)
    exact ⟨hover.1, fun j hj => (hk j hj).1.le, elapsed_micros k hover.2⟩
  · intro k _ hidle hover
    obtain ⟨-, hall⟩ | ⟨m, hm, hcontinues, hends⟩ := read_ends (k + 1) hpending
    · exact absurd hover (hquiet (k + 1) hall k (by omega)).2
    generalize read w (k + 1) = r at hends ⊢
    cases r with
    | timedOut round => exact ⟨round, by have := hends.1; omega, rfl⟩
    | reading round =>
      obtain ⟨rfl, hdelay, hpoll⟩ := hends
      rcases Nat.lt_succ_iff_lt_or_eq.mp hm with hlt | rfl
      · exact absurd (hidle round hlt) hpoll
      · have hsign := ((sound_iff w round).mp (hsound round (hquiet round hcontinues))).1
        exact absurd ((delay_neg round).mpr (hsign.mpr hover)) hdelay
    | polling => exact hends.elim
    | buffered => exact hends.elim
  · intro n k hread
    obtain ⟨hpolling, -⟩ | ⟨m, -, hcontinues, hends⟩ := read_ends n hpending
    · cases hread.symm.trans hpolling
    rw [hread] at hends
    obtain ⟨rfl, hneg, hpoll⟩ := hends
    obtain ⟨hsign, hevent⟩ := (sound_iff w k).mp (hsound k (hquiet k hcontinues))
    have hover : ¬ Over w k := fun hover => hneg ((delay_neg k).mpr (hsign.mpr hover))
    have hnonneg := hevent hover
    omega

/-- Where GNUTLS has data already there is no wait. -/
theorem timesOut_of_pending (hpending : w.pending = true) : TimesOut w := by
  have hread : ∀ n, read w n = .buffered := fun n => if_pos hpending
  constructor
  · intro n k h
    cases (hread n).symm.trans h
  · intro k h
    cases hpending.symm.trans h
  · intro n k h
    cases (hread n).symm.trans h

/-- A call times out as it should just where GNUTLS has data already or every round
that it comes to is sound. -/
theorem timesOut_iff (w : Wait) :
    TimesOut w ↔ w.pending = true ∨ ∀ k, Quiet w k → Sound w k := by
  cases hpending : w.pending with
  | true => exact ⟨fun _ => .inl rfl, fun _ => timesOut_of_pending hpending⟩
  | false =>
    constructor
    · intro h
      refine .inr fun k => ?_
      induction k using Nat.strong_induction_on with
      | h k ih => exact fun hk => h.sound hpending hk ih
    · intro h
      exact timesOut_of_sound hpending (h.resolve_left (by decide))

theorem elapsed_nonneg (k : Nat) : 0 ≤ elapsed w k := by
  have hforward := w.clock.forward 0 (k + 1) (Nat.zero_le _)
  rw [elapsed, Timeval.millis_eq, Timeval.millis_eq]
  omega

/-- The usual case: a timeout that is set and fits an int in milliseconds, polls that
are not interrupted, and rounds that come at most 2 ^ 31 milliseconds too late. -/
theorem timesOut_of_fits (hset : 0 < w.seconds.toInt) (hfits : 1000 * w.seconds.toInt < 2 ^ 31)
    (hlate : ∀ k, Quiet w k → elapsed w k ≤ 1000 * w.seconds.toInt + 2 ^ 31)
    (hpoll : ∀ k, 0 ≤ w.poll k) : TimesOut w := by
  cases hpending : w.pending with
  | true => exact timesOut_of_pending hpending
  | false =>
  refine timesOut_of_sound hpending fun k hk => ?_
  have hnonneg := elapsed_nonneg (w := w) k
  have hk := hlate k hk
  have hbehind : behind w k = elapsed w k - 1000 * w.seconds.toInt := rfl
  exact
    { disabled := fun hd => absurd hset (by omega)
      early := fun _ _ => by omega
      late := fun _ _ => by omega
      event := fun _ => hpoll k }

/-- A clock that goes on by a second from one reading to the next. -/
def secondHand : Clock where
  reading k := ⟨k, 0, by decide⟩
  forward _ _ h := Nat.add_le_add_right (Nat.mul_le_mul_right 1000000 h) 0

/-- A setting of 0, and nothing to read for a second. -/
def idle : Wait := ⟨0, -1, false, secondHand, fun _ => 0⟩

theorem zero_times_out : ¬ TimesOut idle := by
  intro h
  obtain ⟨hset, -⟩ := h.late 1 0 (by decide)
  exact absurd hset (by decide)

end Spey.Socket
