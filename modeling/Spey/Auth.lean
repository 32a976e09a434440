import Spey.Calls

/-!
# auth.cc and the decoder of base64.cc

`base64_decode` works on a C string: where the string ends, a NUL is read, which
is no base64 digit. `none` is the result -1. An authenticator returns the code
of the reply to the client.
-/

namespace Spey

open Interaction.Action

def base64 : Bytes :=
  text "ABCDEFGHIJKLMNOPQRSTUVWXYZabcdefghijklmnopqrstuvwxyz0123456789+/"

def pos (c : Byte) : Option Nat := base64.findIdx? (· = c)

/-- The bytes of one group of four digits; `done` of them were padding. -/
def base64_group (c done : Nat) : Bytes :=
  (if done < 3 then [UInt8.ofNat (c / 65536 % 256)] else [])
    ++ (if done < 2 then [UInt8.ofNat (c / 256 % 256)] else [])
    ++ (if done < 1 then [UInt8.ofNat (c % 256)] else [])

def base64_loop : Bytes → Option Bytes
  | [] => some []
  | p0 :: p1 :: p2 :: p3 :: rest =>
      match pos p0 with
      | none => some []
      | some x0 => do
          let x1 ← pos p1
          if p2 = byte '=' then
            -- one padding character must be followed by another
            if p3 = byte '=' then return base64_group ((x0 * 64 + x1) * 64 * 64) 2 else none
          else
            let x2 ← pos p2
            let c := ((x0 * 64 + x1) * 64 + x2) * 64
            if p3 = byte '=' then return base64_group c 1
            else
              let x3 ← pos p3
              return base64_group (c + x3) 0 ++ (← base64_loop rest)
  -- a group that is cut short ends at a NUL
  | p0 :: _ => if pos p0 = none then some [] else none

def base64_decode (str : Bytes) : Option Bytes := base64_loop (cstr str)

def conversation (message : Bytes) : Proc Bytes := do
  if ← ask (.outReply .challenge (SMTPResponse.set 334 message)) then
    match ← ask (.outReadline .conversation) with
    | .error e => raise e.exn
    | .ok s => if s.bytes = text "*" then raise .authenticationCancelled else pure s.bytes
  else raise .network

def check_credentials (username password : Bytes) : Proc Nat := do
  match ← ask (.users username password) with
  | none => pure 535
  | some n => if n = 0 then pure 535 else pure 235

/-- What stands after the first NUL: where a pointer walk over a C string ends. -/
def afterNul (buffer : Bytes) : Bytes := (buffer.dropWhile (· ≠ 0)).drop 1

def auth_plain (initial : Bytes) : Proc Nat := do
  let s ← if initial = [] then conversation [] else pure initial
  match base64_decode s with
  | none => pure 535
  | some buffer =>
      if buffer.count 0 ≠ 2 then pure 535
      else check_credentials (cstr (afterNul buffer)) (cstr (afterNul (afterNul buffer)))

def auth_login (initial : Bytes) : Proc Nat := do
  if initial ≠ [] then pure 535
  else
    let username64 ← conversation (text "VXNlcm5hbWU6")
    let password64 ← conversation (text "UGFzc3dvcmQ6")
    match base64_decode username64 with
    | none => pure 535
    | some username =>
        match base64_decode password64 with
        | none => pure 535
        | some password => check_credentials (cstr username) (cstr password)

end Spey
