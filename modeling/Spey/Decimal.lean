import Spey.Bytes

/-!
# Plain decimal

Numbers as strings of digits, and the one of them that a stream writes.
-/

namespace Spey

/-- The string is a number in plain decimal, perhaps with zeros in front. -/
structure Plain (s : Bytes) (n : Nat) : Prop where
  ne : s ≠ []
  digits : ∀ c ∈ s, isdigit c = true
  value : s.foldl (fun n c => 10 * n + (c.toNat - 48)) 0 = n

theorem decimal_eq (n : Nat) : decimal n = (Nat.toDigits 10 n).map fun c => UInt8.ofNat c.toNat := by
  have hrepr : toString (n : Int) = String.ofList (Nat.toDigits 10 n) := Nat.repr_eq_ofList_toDigits
  rw [decimal, text, hrepr, String.toList_ofList]

theorem digitChar_plain : ∀ d < 10, isdigit (UInt8.ofNat (Nat.digitChar d).toNat) = true ∧
    (UInt8.ofNat (Nat.digitChar d).toNat).toNat - 48 = d := by
  decide

theorem Plain.digit {d : Nat} (h : d < 10) : Plain [UInt8.ofNat (Nat.digitChar d).toNat] d := by
  obtain ⟨hdigit, hvalue⟩ := digitChar_plain d h
  refine ⟨List.cons_ne_nil _ _, fun c hc => ?_, ?_⟩
  · rw [List.mem_singleton.mp hc]
    exact hdigit
  · rw [List.foldl_cons, hvalue, Nat.mul_zero, Nat.zero_add]
    rfl

/-- One more digit. -/
theorem Plain.append {s : Bytes} {n d : Nat} (hs : Plain s n) (h : d < 10) :
    Plain (s ++ [UInt8.ofNat (Nat.digitChar d).toNat]) (10 * n + d) := by
  obtain ⟨hdigit, hvalue⟩ := digitChar_plain d h
  refine ⟨List.append_ne_nil_of_left_ne_nil hs.ne _, fun c hc => ?_, ?_⟩
  · rcases List.mem_append.mp hc with hc | hc
    · exact hs.digits c hc
    · rw [List.mem_singleton.mp hc]
      exact hdigit
  · rw [List.foldl_append, hs.value, List.foldl_cons, hvalue]
    rfl

theorem plain_decimal (n : Nat) : Plain (decimal n) n := by
  induction n using Nat.strong_induction_on with
  | h n ih =>
    rw [decimal_eq]
    by_cases hn : n < 10
    · rw [Nat.toDigits_of_lt_base hn]
      exact Plain.digit hn
    · have hrest := ih (n / 10) (by omega)
      have happend := hrest.append (d := n % 10) (by omega)
      rw [decimal_eq] at happend
      rw [Nat.toDigits_of_base_le (by decide) (by omega), List.map_append]
      have hn : 10 * (n / 10) + n % 10 = n := Nat.div_add_mod n 10
      rwa [hn] at happend

theorem Plain.nul {s : Bytes} {n : Nat} (h : Plain s n) : 0 ∉ s := by
  intro hmem
  exact absurd (h.digits 0 hmem) (by decide)

/-- A negative number has a sign in front. -/
theorem decimal_nul (n : Int) : 0 ∉ decimal n := by
  cases n with
  | ofNat n => exact (plain_decimal n).nul
  | negSucc n =>
    have hsign : decimal (Int.negSucc n) = byte '-' :: decimal ((n + 1 : Nat) : Int) := by
      have hrepr : toString (Int.negSucc n) = "-" ++ toString ((n + 1 : Nat) : Int) := rfl
      rw [decimal, text, hrepr, String.toList_append, List.map_append]
      rfl
    rw [hsign, List.mem_cons]
    rintro (h | h)
    · exact absurd h (by decide)
    · exact (plain_decimal (n + 1)).nul h

end Spey
