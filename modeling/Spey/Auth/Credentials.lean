import Mathlib.Data.List.Nodup
import Spey.Auth.Base64
import Spey.World

/-!
# The two authenticators on the same credentials

`auth_plain` gets a user name and a password as one string with two NULs in it,
`auth_login` gets them one by one. Both end in the same lookup, on C strings. A
NUL inside the user name or the password makes the decoded string of `auth_plain`
one with more than two NULs, which it refuses; `auth_login` looks up what comes
before the NUL.
-/

namespace Spey

open Interaction.Action

/-- The rows of `users`; a column may be NULL. -/
abbrev Users := List (Option Bytes × Option Bytes)

/-- `SELECT COUNT(*) FROM users WHERE username=.. AND password=..` -/
def Users.select (users : Users) (username password : Bytes) : Nat :=
  users.count (some username, some password)

/-- The lookup finds the row, as `getint` reads the count: a positive multiple of 2^32 rows is
none to it. -/
def Users.Found (users : Users) (username password : Bytes) : Prop :=
  getint (users.select username password) ≠ 0
  deriving Decidable

/-- A client that answers with these lines and then closes the connection, and a
database with these users, which may fail. -/
def answerAuth (users : Users) (fails : Bool) : (c : Call) → List Line → Ans c × List Line
  | .outReadline _, l :: ls => (.ok l, ls)
  | .outReadline _, [] => (.error .network, [])
  | .users username password, ls =>
      (if fails then none else some (getint (users.select username password)), ls)
  | c, ls => (World.allow .Accepted c, ls)

/-- What an authenticator returns. -/
def authResult {α : Type} (users : Users) (fails : Bool) (ls : List Line) (s : Session)
    (auth_cb : Proc α) : Except Exn α :=
  (auth_cb.exec (answerAuth users fails) s ls).1.1

namespace Credentials

variable {users : Users} {fails : Bool} {s : Session} {l : Line} {ls : List Line}

theorem exec_conversation (message : Bytes) (hl : l.bytes ≠ text "*") :
    (conversation message).exec (answerAuth users fails) s (l :: ls) = ((.ok l.bytes, s), ls) := by
  have hask : exec (answerAuth users fails) (ask (.outReply .challenge (.set 334 message))) s
      (l :: ls) = ((.ok true, s), l :: ls) := rfl
  have hread : exec (answerAuth users fails) (ask (.outReadline .conversation)) s (l :: ls) =
      ((.ok (.ok l), s), ls) := rfl
  simp only [conversation, exec_bind, hask, hread, ↓reduceIte, if_neg hl, exec_pure]

/-- The code that a lookup ends in. -/
def lookupCode (users : Users) (fails : Bool) (username password : Bytes) : Nat :=
  if fails = false ∧ users.Found username password then 235 else 535

theorem exec_check_credentials (username password : Bytes) :
    (check_credentials username password).exec (answerAuth users fails) s ls =
      ((.ok (lookupCode users fails username password), s), ls) := by
  have hask : exec (answerAuth users fails) (ask (.users username password)) s ls =
      ((.ok (if fails then none else some (getint (users.select username password))), s), ls) := rfl
  simp only [check_credentials, exec_bind, hask]
  cases fails with
  | true => rfl
  | false =>
    by_cases hfound : users.Found username password
    · simp only [Bool.false_eq_true, ↓reduceIte, if_neg hfound, lookupCode, hfound, and_self, exec_pure]
    · have hzero := not_not.mp hfound
      simp only [Bool.false_eq_true, ↓reduceIte, if_pos hzero, lookupCode, hfound, and_false, exec_pure]

/-- What `auth_plain` makes of the client's string. -/
def plainCode (users : Users) (fails : Bool) (a : Bytes) : Nat :=
  match base64_decode a with
  | none => 535
  | some buffer =>
      if buffer.count 0 ≠ 2 then 535
      else lookupCode users fails (cstr (afterNul buffer)) (cstr (afterNul (afterNul buffer)))

theorem exec_plain_decoded (a : Bytes) : exec (answerAuth users fails) (match base64_decode a with
      | none => pure 535
      | some buffer =>
          if buffer.count 0 ≠ 2 then pure 535
          else check_credentials (cstr (afterNul buffer)) (cstr (afterNul (afterNul buffer))))
      s ls = ((.ok (plainCode users fails a), s), ls) := by
  unfold plainCode
  cases base64_decode a with
  | none => rfl
  | some buffer =>
    dsimp only
    split_ifs
    · rfl
    · exact exec_check_credentials _ _

theorem plain_initial {a : Bytes} (ha : a ≠ []) :
    authResult users fails ls s (auth_plain a) = .ok (plainCode users fails a) := by
  rw [authResult, auth_plain, if_neg ha, exec_bind, exec_pure]
  exact congrArg (fun x => x.1.1) (exec_plain_decoded a)

theorem plain_asked (hl : l.bytes ≠ text "*") :
    authResult users fails (l :: ls) s (auth_plain []) = .ok (plainCode users fails l.bytes) := by
  rw [authResult, auth_plain, if_pos rfl, exec_bind, exec_conversation _ hl]
  exact congrArg (fun x => x.1.1) (exec_plain_decoded l.bytes)

theorem login_asked {l' : Line} (hl : l.bytes ≠ text "*") (hl' : l'.bytes ≠ text "*")
    {username password : Bytes} (hu : base64_decode l.bytes = some username)
    (hp : base64_decode l'.bytes = some password) :
    authResult users fails (l :: l' :: ls) s (auth_login []) =
      .ok (lookupCode users fails (cstr username) (cstr password)) := by
  have hempty : ¬ (([] : Bytes) ≠ []) := fun h => h rfl
  rw [authResult, auth_login, if_neg hempty]
  simp only [exec_bind, exec_conversation _ hl, exec_conversation _ hl', hu, hp]
  rw [exec_check_credentials]

/-! ## The credentials in one string -/

theorem afterNul_append {a : Bytes} (ha : 0 ∉ a) (rest : Bytes) : afterNul (a ++ 0 :: rest) = rest := by
  rw [afterNul, (split_first ha rest).2]
  rfl

theorem plainCode_encode (u p : Bytes) :
    plainCode users fails (base64_encode (0 :: (u ++ 0 :: p))) =
      if 0 ∉ u ∧ 0 ∉ p then lookupCode users fails u p else 535 := by
  have hcount : (0 :: (u ++ 0 :: p)).count 0 = u.count 0 + p.count 0 + 2 := by
    simp only [List.count_cons_self, List.count_append]
    omega
  rw [plainCode, base64_decode_encode]
  dsimp only
  rw [hcount]
  by_cases hnul : 0 ∉ u ∧ 0 ∉ p
  · have hu := List.count_eq_zero.mpr hnul.1
    have hp := List.count_eq_zero.mpr hnul.2
    have hdomain : afterNul (0 :: (u ++ 0 :: p)) = u ++ 0 :: p := rfl
    have hok : ¬ (u.count 0 + p.count 0 + 2 ≠ 2) := by omega
    rw [if_neg hok, if_pos hnul, hdomain, afterNul_append hnul.1, cstr_nul hnul.1, cstr_eq hnul.2]
  · have hmore : u.count 0 + p.count 0 + 2 ≠ 2 := by
      intro h
      refine hnul ⟨List.count_eq_zero.mp ?_, List.count_eq_zero.mp ?_⟩
      · omega
      · omega
    rw [if_pos hmore, if_neg hnul]

theorem lookupCode_iff (username password : Bytes) :
    lookupCode users fails username password = 235 ↔
      fails = false ∧ users.Found username password := by
  unfold lookupCode
  split_ifs with h
  · exact iff_of_true rfl h
  · exact iff_of_false (by decide) h

theorem lookupCode_eq (username password : Bytes) :
    lookupCode users false username password = 235 ↔ users.Found username password := by
  rw [lookupCode_iff]
  exact and_iff_right rfl

end Credentials

open Credentials

/-- The line that a client sends for a byte string. -/
def base64_line (s : Bytes) : Line := ⟨base64_encode s, encode_oneLine s⟩

/-- The LOGIN conversation with this user name and password succeeds. -/
def LoginAccepts (users : Users) (s : Session) (u p : Bytes) : Prop :=
  authResult users false [base64_line u, base64_line p] s (auth_login []) = .ok 235

/-- PLAIN with this user name and password succeeds, as an initial response or when it is
asked for. -/
def PlainAccepts (users : Users) (s : Session) (asked : Bool) (u p : Bytes) : Prop :=
  (if asked then authResult users false [base64_line (0 :: (u ++ 0 :: p))] s (auth_plain [])
    else authResult users false [] s (auth_plain (base64_encode (0 :: (u ++ 0 :: p))))) = .ok 235

theorem loginAccepts_iff (users : Users) (s : Session) (u p : Bytes) :
    LoginAccepts users s u p ↔ users.Found (cstr u) (cstr p) := by
  have hrun : authResult users false [base64_line u, base64_line p] s (auth_login []) =
      .ok (lookupCode users false (cstr u) (cstr p)) :=
    login_asked (encode_not_cancel u) (encode_not_cancel p) (base64_decode_encode u)
      (base64_decode_encode p)
  rw [LoginAccepts, hrun, Except.ok.injEq, lookupCode_eq]

theorem plainAccepts_iff (users : Users) (s : Session) (asked : Bool) (u p : Bytes) :
    PlainAccepts users s asked u p ↔ (0 ∉ u ∧ 0 ∉ p) ∧ users.Found u p := by
  have hne : base64_encode (0 :: (u ++ 0 :: p)) ≠ [] := by
    intro h
    have hdecode := base64_decode_encode (0 :: (u ++ 0 :: p))
    rw [h] at hdecode
    cases hdecode
  have hcode : PlainAccepts users s asked u p ↔
      plainCode users false (base64_encode (0 :: (u ++ 0 :: p))) = 235 := by
    rw [PlainAccepts]
    cases asked with
    | false =>
      rw [if_neg Bool.false_ne_true, plain_initial hne, Except.ok.injEq]
    | true =>
      have hasked : authResult users false [base64_line (0 :: (u ++ 0 :: p))] s (auth_plain []) =
          .ok (plainCode users false (base64_encode (0 :: (u ++ 0 :: p)))) :=
        plain_asked (encode_not_cancel _)
      rw [if_pos rfl, hasked, Except.ok.injEq]
  rw [hcode, plainCode_encode]
  split_ifs with hnul
  · rw [lookupCode_eq]
    simp [hnul]
  · simp [hnul]

/-- LOGIN and PLAIN agree on a user name and a password unless one of them has a NUL in it
and the lookup finds a row for what comes before it. -/
theorem login_plain_iff (users : Users) (s : Session) (asked : Bool) (u p : Bytes) :
    (LoginAccepts users s u p ↔ PlainAccepts users s asked u p) ↔
      (0 ∉ u ∧ 0 ∉ p) ∨ ¬ users.Found (cstr u) (cstr p) := by
  rw [loginAccepts_iff, plainAccepts_iff]
  by_cases hnul : 0 ∉ u ∧ 0 ∉ p
  · rw [cstr_eq hnul.1, cstr_eq hnul.2]
    simp [hnul]
  · simp [hnul]

/-- The user name `u` with a NUL and more behind it logs in as `u` by LOGIN only. -/
theorem nul_in_username :
    let users : Users := [(some (text "u"), some (text "p"))]
    LoginAccepts users {} (text "u" ++ 0 :: text "v") (text "p") ∧
      ¬ PlainAccepts users {} false (text "u" ++ 0 :: text "v") (text "p") ∧
      ¬ ∀ (users : Users) (s : Session) (asked : Bool) (u p : Bytes),
        LoginAccepts users s u p ↔ PlainAccepts users s asked u p := by
  have hlogin : LoginAccepts [(some (text "u"), some (text "p"))] {} (text "u" ++ 0 :: text "v")
      (text "p") := (loginAccepts_iff _ _ _ _).mpr (by decide)
  have hplain : ¬ PlainAccepts [(some (text "u"), some (text "p"))] {} false
      (text "u" ++ 0 :: text "v") (text "p") := fun h =>
    absurd ((plainAccepts_iff _ _ _ _ _).mp h).1.1 (by decide)
  exact ⟨hlogin, hplain, fun h => hplain ((h _ _ _ _ _).mp hlogin)⟩

end Spey
