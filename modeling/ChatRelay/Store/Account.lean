import ChatRelay.Json.Record
import ChatRelay.Store.Uuid
/-!
# Accounts

Credentials, tokens and users, with their JSON representations.
-/

namespace ChatRelay

@[ext]
structure Credentials where
  login : String
  password : String
  deriving DecidableEq, Repr

/-- The stored hash of a password. -/
structure Secret where
  text : String
  deriving DecidableEq, Repr

/-- A password hashing scheme. Both operations can fail. -/
structure Hashing where
  /-- Hash a password with a salt. -/
  hash : (salt : BitVec 128) → (password : String) → Except String Secret
  /-- Verify a password against a hash. -/
  accepts : Secret → (password : String) → Except String Bool

namespace Hashing

/-- The identity as a hash. It is sufficient because the store is not
persistent. -/
def plain : Hashing where
  hash _ password := .ok ⟨password⟩
  accepts secret password := .ok (decide (secret.text = password))

/-- A hash accepts the password it was made from, and no other. -/
def Sound (h : Hashing) : Prop :=
  ∀ salt made tried secret, h.hash salt made = .ok secret →
    h.accepts secret tried = .ok (decide (made = tried))

theorem plain_sound : plain.Sound := by
  intro salt made tried secret hmade
  cases hmade
  rfl

end Hashing

structure Colour where
  red : UInt8
  green : UInt8
  blue : UInt8
  deriving DecidableEq, Repr, Inhabited

/-- The hexadecimal text of a colour. -/
def Colour.text (c : Colour) : String :=
  let hex (b : UInt8) :=
    [Nat.digitChar (b.toNat / 16), Nat.digitChar (b.toNat % 16)]
  String.ofList ('#' :: hex c.red ++ hex c.green ++ hex c.blue)

/-- The public data of a user. -/
structure User where
  id : Int
  login : String
  name : String
  colour : Colour
  deriving DecidableEq, Repr

def User.toValue (u : User) : Json.Value :=
  .object [("id", .number (.int u.id)), ("login", .string u.login),
    ("name", .string u.name), ("color", .string u.colour.text)]

/-- The credential of a signed in client. -/
structure Token where
  id : Uuid
  user : Int
  deriving DecidableEq, Repr

def Token.toValue (t : Token) : Json.Value :=
  .object [("id", .string t.id.text), ("user_id", .number (.int t.user))]

open Json

/-- The fields of credentials parsed so far. -/
structure Credentials.Fields where
  login : Option String := none
  password : Option String := none

def Credentials.shape : Shape Credentials.Fields Credentials where
  name := "struct Credentials"
  start := {}
  fields := [
    .of "login" (·.login.isSome) (fun _ => readText)
      (fun v s => { s with login := some v }),
    .of "password" (·.password.isSome) (fun _ => readText)
      (fun v s => { s with password := some v })]
  finish s := do
    let login ← required "login" s.login
    let password ← required "password" s.password
    return { login, password }

def readLong : Reader Int := readInteger "i64" Text.minLong Text.maxLong

def readUuid : Reader Uuid := fun text => do
  let (s, rest) ← readOnlyString "a formatted UUID string" text
  match Uuid.parse s with
  | .ok u => return (u, rest)
  | .error e =>
    .error (.here (.refused ("UUID parsing failed: " ++ e.message)) rest)

/-- The fields of a token parsed so far. -/
structure Token.Fields where
  id : Option Uuid := none
  user : Option Int := none

def Token.shape : Shape Token.Fields Token where
  name := "struct Token"
  start := {}
  fields := [
    .of "id" (·.id.isSome) (fun _ => readUuid)
      (fun v s => { s with id := some v }),
    .of "user_id" (·.user.isSome) (fun _ => readLong)
      (fun v s => { s with user := some v })]
  finish s := do
    let id ← required "id" s.id
    let user ← required "user_id" s.user
    return { id, user }

end ChatRelay
