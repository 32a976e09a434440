import Spey.Bytes
import Spey.Exception

/-!
# Socket.cc: the line reader and the line writer

A `Feed` is what a peer will still send on one connection: bytes, and then
either the end of the stream or silence until the timeout. `readline` takes the
bytes of one line off the feed. `writeline` is the buffer that
`Socket::writeline` hands to `Socket::write` in one call.
-/

namespace Spey

/-- How reading from a socket fails: with a `NetworkException` of the class
itself, or with a `NetworkTimeoutException`. -/
inductive ReadFailure where
  | network
  | timeout
  deriving DecidableEq, Repr

def ReadFailure.exn : ReadFailure → Exn
  | .network => .network
  | .timeout => .networkTimeout

structure Feed where
  bytes : Bytes
  ending : ReadFailure
  deriving DecidableEq

namespace Socket

/-- The loop of `Socket::readline`: `s` has been read of the current line. -/
def readlineLoop (s : Line) : Bytes → Option Line × Bytes
  | [] => (none, [])
  | c :: rest =>
      if hcr : c = CR then readlineLoop s rest
      else if hlf : c = LF then (some s, rest)
      else readlineLoop ⟨s.bytes ++ [c], by simp [s.oneLine, hcr, hlf, oneLine_nil]⟩ rest

def readline (input : Feed) : Except ReadFailure Line × Feed :=
  match readlineLoop ⟨[], oneLine_nil⟩ input.bytes with
  | (some l, rest) => (.ok l, ⟨rest, input.ending⟩)
  | (none, _) => (.error input.ending, ⟨[], input.ending⟩)

theorem readlineLoop_length {s l : Line} {p rest : Bytes}
    (h : readlineLoop s p = (some l, rest)) : rest.length < p.length := by
  induction p generalizing s with
  | nil => simp [readlineLoop] at h
  | cons c p ih =>
    unfold readlineLoop at h
    split_ifs at h
    · exact Nat.lt_succ_of_lt (ih h)
    · obtain ⟨-, rfl⟩ := Prod.mk.inj h
      simp
    · exact Nat.lt_succ_of_lt (ih h)

/-- A line that was read has taken bytes off the feed. -/
theorem readline_length {input rest : Feed} {l : Line} (h : readline input = (.ok l, rest)) :
    rest.bytes.length < input.bytes.length := by
  unfold readline at h
  split at h
  next l' rest' heq =>
    obtain ⟨-, rfl⟩ := Prod.mk.inj h
    exact readlineLoop_length heq
  next => cases (Prod.mk.inj h).1

/-- The loop of `Socket::writeline`: each `\n` becomes `\r\n`. -/
def encode : Bytes → Bytes
  | [] => []
  | c :: l => if c = LF then CR :: LF :: encode l else c :: encode l

def writeline (l : Bytes) : Bytes := encode l ++ [CR, LF]

theorem encode_append (s t : Bytes) : encode (s ++ t) = encode s ++ encode t := by
  induction s with
  | nil => rfl
  | cons c s ih =>
    by_cases hc : c = LF
    · simp [encode, hc, ih]
    · simp [encode, hc, ih]

theorem encode_oneLine {l : Bytes} (h : OneLine l) : encode l = l := by
  induction l with
  | nil => rfl
  | cons c l ih =>
    obtain ⟨hc, hl⟩ := (oneLine_cons c l).mp h
    simp [encode, hc.2, ih hl]

/-- A string without line breaks goes out as exactly one CRLF-terminated line. -/
theorem writeline_oneLine {l : Bytes} (h : OneLine l) : writeline l = l ++ [CR, LF] := by
  rw [writeline, encode_oneLine h]

end Socket

end Spey
