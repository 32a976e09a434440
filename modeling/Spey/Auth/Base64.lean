import Spey.Auth

/-!
# Encoding and decoding

What `base64_encode` makes of a byte string is one line of base64 digits and
padding, and `base64_decode` takes it back.
-/

namespace Spey

def base64_digit (n : Nat) : Byte := base64.getD (n % 64) 0

/-- The four characters of a group of three bytes; the last `padding` of them are padding. -/
def base64_quad (c padding : Nat) : Bytes :=
  [base64_digit (c / 262144), base64_digit (c / 4096),
    if padding < 2 then base64_digit (c / 64) else byte '=',
    if padding < 1 then base64_digit c else byte '=']

def base64_encode : Bytes → Bytes
  | [] => []
  | [a] => base64_quad (a.toNat * 65536) 2
  | [a, b] => base64_quad (a.toNat * 65536 + b.toNat * 256) 1
  | a :: b :: c :: rest =>
      base64_quad (a.toNat * 65536 + b.toNat * 256 + c.toNat) 0 ++ base64_encode rest

/-- A character of the alphabet. -/
def Base64 (c : Byte) : Prop := c ∈ base64 ∨ c = byte '='

theorem pos_digit : ∀ n < 64, pos (base64_digit n) = some n := by decide +kernel

theorem base64_plain : ∀ c ∈ base64, c ≠ 0 ∧ c ≠ CR ∧ c ≠ LF ∧ c ≠ byte '=' ∧ c ≠ byte '*' := by
  decide +kernel

theorem digit_mod (n : Nat) : base64_digit (n % 64) = base64_digit n := by
  rw [base64_digit, base64_digit, Nat.mod_mod]

theorem pos_digit_mod (n : Nat) : pos (base64_digit n) = some (n % 64) := by
  rw [← digit_mod]
  exact pos_digit _ (Nat.mod_lt _ (by decide))

theorem digit_base64 (n : Nat) : base64_digit n ∈ base64 := by
  obtain ⟨hlt, hfound, -⟩ := List.findIdx?_eq_some_iff_getElem.mp (pos_digit_mod n)
  rw [← of_decide_eq_true hfound]
  exact List.getElem_mem hlt

theorem digit_not_padding (n : Nat) : base64_digit n ≠ byte '=' :=
  (base64_plain _ (digit_base64 n)).2.2.2.1

theorem quad_base64 (c padding : Nat) : ∀ x ∈ base64_quad c padding, Base64 x := by
  intro x hx
  simp only [base64_quad, List.mem_cons, List.not_mem_nil, or_false] at hx
  rcases hx with rfl | rfl | rfl | rfl
  · exact .inl (digit_base64 _)
  · exact .inl (digit_base64 _)
  · split_ifs
    · exact .inl (digit_base64 _)
    · exact .inr rfl
  · split_ifs
    · exact .inl (digit_base64 _)
    · exact .inr rfl

theorem encode_base64 (s : Bytes) : ∀ x ∈ base64_encode s, Base64 x := by
  fun_induction base64_encode s with
  | case1 => exact fun x hx => absurd hx List.not_mem_nil
  | case2 a => exact quad_base64 _ _
  | case3 a b => exact quad_base64 _ _
  | case4 a b c rest ih =>
    intro x hx
    rcases List.mem_append.mp hx with hx | hx
    · exact quad_base64 _ _ x hx
    · exact ih x hx

theorem Base64.plain {c : Byte} (hc : Base64 c) : c ≠ 0 ∧ c ≠ CR ∧ c ≠ LF ∧ c ≠ byte '*' := by
  rcases hc with hc | rfl
  · obtain ⟨h0, hcr, hlf, -, hstar⟩ := base64_plain c hc
    exact ⟨h0, hcr, hlf, hstar⟩
  · decide

theorem encode_oneLine (s : Bytes) : OneLine (base64_encode s) := fun c hc =>
  ⟨(encode_base64 s c hc).plain.2.1, (encode_base64 s c hc).plain.2.2.1⟩

theorem encode_not_cancel (s : Bytes) : base64_encode s ≠ text "*" := fun h =>
  (encode_base64 s (byte '*') (by rw [h]; decide)).plain.2.2.2 rfl

theorem cstr_encode (s : Bytes) : cstr (base64_encode s) = base64_encode s :=
  cstr_eq fun h => (encode_base64 s 0 h).plain.1 rfl

/-! ## The round trip -/

/-- Four digits give back the three bytes that they were cut from. -/
theorem loop_digits {n : Nat} (hn : n < 16777216) (rest : Bytes) :
    base64_loop (base64_quad n 0 ++ rest) = (base64_loop rest).map (base64_group n 0 ++ ·) := by
  have hvalue : ((n / 262144 % 64 * 64 + n / 4096 % 64) * 64 + n / 64 % 64) * 64 + n % 64 = n := by
    omega
  simp only [base64_quad, base64_loop, pos_digit_mod, digit_not_padding, hvalue, List.cons_append,
    List.nil_append, Nat.reduceLT, Nat.zero_lt_one, ↓reduceIte, Option.bind_eq_bind,
    Option.bind_some]
  cases base64_loop rest with
  | none => rfl
  | some s => rfl

theorem loop_digits_one {n : Nat} (hn : n < 16777216) (hlow : n % 64 = 0) :
    base64_loop (base64_quad n 1) = some (base64_group n 1) := by
  have hvalue : ((n / 262144 % 64 * 64 + n / 4096 % 64) * 64 + n / 64 % 64) * 64 = n := by omega
  simp only [base64_quad, base64_loop, pos_digit_mod, digit_not_padding, hvalue, Nat.lt_irrefl,
    Nat.reduceLT, ↓reduceIte, Option.bind_eq_bind, Option.bind_some]
  rfl

theorem loop_digits_two {n : Nat} (hn : n < 16777216) (hlow : n % 4096 = 0) :
    base64_loop (base64_quad n 2) = some (base64_group n 2) := by
  have hvalue : (n / 262144 % 64 * 64 + n / 4096 % 64) * 64 * 64 = n := by omega
  simp only [base64_quad, base64_loop, pos_digit_mod, hvalue, Nat.lt_irrefl, Nat.reduceLT,
    ↓reduceIte, Option.bind_eq_bind, Option.bind_some]
  rfl

theorem group_bytes (a b c : Byte) (done : Nat) :
    base64_group (a.toNat * 65536 + b.toNat * 256 + c.toNat) done =
      (if done < 3 then [a] else []) ++ (if done < 2 then [b] else []) ++
        (if done < 1 then [c] else []) := by
  have ha := a.toNat_lt
  have hb := b.toNat_lt
  have hc := c.toNat_lt
  have hfirst : (a.toNat * 65536 + b.toNat * 256 + c.toNat) / 65536 % 256 = a.toNat := by omega
  have hsecond : (a.toNat * 65536 + b.toNat * 256 + c.toNat) / 256 % 256 = b.toNat := by omega
  have hthird : (a.toNat * 65536 + b.toNat * 256 + c.toNat) % 256 = c.toNat := by omega
  rw [base64_group, hfirst, hsecond, hthird]
  simp only [UInt8.ofNat_toNat]

theorem base64_loop_encode (s : Bytes) : base64_loop (base64_encode s) = some s := by
  fun_induction base64_encode s with
  | case1 => rfl
  | case2 a =>
    have ha := a.toNat_lt
    have hgroup := group_bytes a 0 0 2
    rw [UInt8.toNat_zero, Nat.zero_mul, Nat.add_zero] at hgroup
    rw [loop_digits_two (by omega) (by omega), hgroup]
    rfl
  | case3 a b =>
    have ha := a.toNat_lt
    have hb := b.toNat_lt
    have hgroup := group_bytes a b 0 1
    rw [UInt8.toNat_zero, Nat.add_zero] at hgroup
    rw [loop_digits_one (by omega) (by omega), hgroup]
    rfl
  | case4 a b c rest ih =>
    have ha := a.toNat_lt
    have hb := b.toNat_lt
    have hc := c.toNat_lt
    have hgroup := group_bytes a b c 0
    rw [loop_digits (by omega), ih, Option.map_some, hgroup]
    rfl

/-- What was encoded is decoded to itself. -/
theorem base64_decode_encode (s : Bytes) : base64_decode (base64_encode s) = some s := by
  rw [base64_decode, cstr_encode, base64_loop_encode]

end Spey
