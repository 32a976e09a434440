import Mathlib.Algebra.Group.Int.Defs
import Mathlib.Algebra.Group.Nat.Defs
import Mathlib.Data.List.TakeDrop
import Spey.Socket

/-!
# What becomes of a written line

`Socket::write` hands one buffer to write(2) or to GNUTLS, which may fail or take
the front of it only. `writeline` throws where the result is -1. Any other result
is a line that was sent, also a count that is too small or another error code.
-/

namespace Spey.Socket

/-- What a transport makes of `n` bytes: it fails with a negative result, as
write(2) does with -1, or it takes so many of them. -/
inductive Sent (n : Nat) where
  | failed (code : Int) (h : code < 0)
  | took (count : Nat) (h : count ≤ n)

namespace Sent

def ret {n : Nat} : Sent n → Int
  | .failed code _ => code
  | .took count _ => count

/-- The bytes that were taken. -/
def bytes {buffer : Bytes} : Sent buffer.length → Bytes
  | .failed _ _ => []
  | .took count _ => buffer.take count

end Sent

/-- The transports of a socket. -/
structure Transport where
  write : (buffer : Bytes) → Sent buffer.length
  gnutls_record_send : (buffer : Bytes) → Sent buffer.length

variable (issecure : Bool) (t : Transport) (l : Bytes)

/-- The call that `Socket::write` makes. -/
def send (buffer : Bytes) : Sent buffer.length :=
  if issecure then t.gnutls_record_send buffer else t.write buffer

/-- `Socket::write`, whose result is an int. -/
def write (buffer : Bytes) : Int := Int.bmod (send issecure t buffer).ret (2 ^ 32)

/-- `Socket::writeline` with the test of what `write` returns. -/
def writelineChecked : Except Exn Unit :=
  if write issecure t (writeline l) = -1 then .error .network else .ok ()

/-- The line as it should go out: a CR in front of each LF, and CR LF behind it. -/
def encoded (l : Bytes) : Bytes := (l.flatMap fun c => if c = LF then [CR, LF] else [c]) ++ [CR, LF]

/-- `writeline` returns where the line went out as a whole, and throws elsewhere. -/
structure NoSilentLoss : Prop where
  returns : writelineChecked issecure t l = .ok () →
    (send issecure t (writeline l)).bytes = encoded l
  throws : (send issecure t (writeline l)).bytes ≠ encoded l →
    writelineChecked issecure t l = .error .network

theorem writeline_encoded : writeline l = encoded l := by
  have hencode : encode l = l.flatMap fun c => if c = LF then [CR, LF] else [c] := by
    induction l with
    | nil => rfl
    | cons c l ih =>
      rw [encode, List.flatMap_cons, ih]
      split_ifs
      · rfl
      · rfl
  rw [writeline, encoded, hencode]

/-- Everything was taken exactly where the result is the length. -/
theorem Sent.bytes_iff {buffer : Bytes} (hne : buffer ≠ []) (s : Sent buffer.length) :
    s.bytes = buffer ↔ s.ret = buffer.length := by
  cases s with
  | failed code h =>
    constructor
    · intro he
      exact absurd he.symm hne
    · intro he
      rw [ret] at he
      omega
  | took count h =>
    rw [bytes, ret, List.take_eq_self_iff]
    constructor
    · intro hle
      rw [le_antisymm h hle]
    · intro he
      exact (Int.ofNat.inj he).ge

/-- A line is lost silently unless the transport returns -1, as an int, or the
length of what it was given. -/
theorem noSilentLoss_iff : NoSilentLoss issecure t l ↔
    Int.bmod (send issecure t (writeline l)).ret (2 ^ 32) = -1 ∨
      (send issecure t (writeline l)).ret = (encoded l).length := by
  have hne : writeline l ≠ [] := List.append_ne_nil_of_right_ne_nil _ (List.cons_ne_nil CR [LF])
  have hbytes := (send issecure t (writeline l)).bytes_iff hne
  rw [← writeline_encoded l, ← hbytes]
  constructor
  · intro h
    by_cases hret : write issecure t (writeline l) = -1
    · exact .inl hret
    · have hok : writelineChecked issecure t l = .ok () := if_neg hret
      exact .inr (by rw [h.returns hok, writeline_encoded])
  · rintro (hret | hall)
    · have herror : writelineChecked issecure t l = .error .network := if_pos hret
      refine ⟨fun hok => ?_, fun _ => herror⟩
      cases herror.symm.trans hok
    · have hsent := hall.trans (writeline_encoded l)
      exact ⟨fun _ => hsent, fun hlost => absurd hsent hlost⟩

/-- A transport that takes what it is given, but for TLS, which reports an error. -/
def brokenTransport : Transport where
  write buffer := .took buffer.length le_rfl
  gnutls_record_send _ := .failed (-53) (by decide)

theorem broken_connection : ¬ NoSilentLoss true brokenTransport (text "250 OK") := by
  intro h
  have hlost := h.returns (by decide +kernel)
  exact absurd hlost (by decide +kernel)

end Spey.Socket
