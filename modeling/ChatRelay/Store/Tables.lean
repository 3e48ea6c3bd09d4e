import ChatRelay.Chat.Message
import ChatRelay.Store.Account
/-!
# The store

The tables of accounts, tokens and messages. Users are numbered from one in the
order of sign up. A token is valid until it expires or is presented for a
different user. Messages are retrieved by creation time.
-/

namespace ChatRelay

/-- The ways in which an operation of the store can fail. -/
inductive StoreError where
  | notFound (what : String)
  | alreadyExists
  | invalidPassword
  | invalidToken
  | internal (why : String)
  deriving DecidableEq, Repr

def StoreError.message : StoreError → String
  | notFound what => s!"{what} not found"
  | alreadyExists => "user login already exists"
  | invalidPassword => "invalid password"
  | invalidToken => "invalid token"
  | internal why => s!"internal error: {why}"

structure Account where
  user : User
  secret : Secret
  deriving DecidableEq, Repr

/-- The hash of a password, with errors mapped to store errors. -/
def Hashing.secret (h : Hashing) (salt : BitVec 128) (password : String) :
    Except StoreError Secret :=
  (h.hash salt password).mapError .internal

/-- The user of an account, if the password is correct. -/
def Hashing.check (h : Hashing) (a : Account) (password : String) :
    Except StoreError User :=
  match h.accepts a.secret password with
  | .ok true => .ok a.user
  | .ok false => .error .invalidPassword
  | .error why => .error (.internal why)

/-- An issued token with the time at which it expires. -/
structure Issued where
  token : Token
  expires : Nat
  deriving DecidableEq, Repr

structure Store where
  /-- The lifetime of a token in milliseconds. -/
  lifetime : Nat := 30 * 60 * 1000
  accounts : List Account := []
  /-- The user number of each login. -/
  logins : List (String × Int) := []
  tokens : List Issued := []
  /-- The messages in order of insertion. -/
  messages : List Message := []
  deriving Repr

namespace Store

instance : Inhabited Store := ⟨{}⟩

/-- The account with a given user number. -/
def account? (store : Store) (id : Int) : Option Account :=
  if 1 ≤ id then store.accounts[id.toNat - 1]? else none

/-- The account with a given login. -/
def accountOf? (store : Store) (login : String) : Option Account :=
  (store.logins.lookup login).bind store.account?

def isTaken (store : Store) (login : String) : Bool :=
  (store.logins.lookup login).isSome

/-- Add an account, unless the login has been taken in the meantime. -/
def addAccount (store : Store) (login : String) (secret : Secret)
    (colour : Colour) : Except StoreError (User × Store) :=
  let id : Int := (store.accounts.length + 1 : Nat)
  if store.isTaken login then .error .alreadyExists
  else if Text.maxLong < id then .error (.internal "user ids exhausted")
  else
    let user : User := { id, login, name := login, colour }
    .ok (user, { store with
      accounts := store.accounts ++ [⟨user, secret⟩]
      logins := (login, id) :: store.logins })

/-- Sign up. The password is hashed only if the login is free at first. -/
def signUp (h : Hashing) (store : Store) (given : Credentials)
    (salt : BitVec 128) (colour : Colour) : Except StoreError (User × Store) :=
  if store.isTaken given.login then .error .alreadyExists
  else do
    let secret ← h.secret salt given.password
    store.addAccount given.login secret colour

/-- The user with a given number. -/
def user (store : Store) (id : Int) : Except StoreError User :=
  (store.account? id).elim (.error (.notFound "user")) fun a => .ok a.user

/-- All users in the order of their numbers. -/
def users (store : Store) : List User := store.accounts.map Account.user

/-- The account for a sign in. -/
def lookUp (store : Store) (login : String) : Except StoreError Account :=
  (store.accountOf? login).elim (.error (.notFound "user")) .ok

/-- The user with the given credentials. -/
def authenticate (h : Hashing) (store : Store) (given : Credentials) :
    Except StoreError User := do
  let account ← store.lookUp given.login
  h.check account given.password

/-- Add a token, and remove expired tokens. -/
def issue (store : Store) (now : Nat) (token : Token) : Store :=
  let live :=
    store.tokens.filter fun t => now < t.expires ∧ t.token.id ≠ token.id
  { store with tokens := live ++ [⟨token, now + store.lifetime⟩] }

/-- Sign in with a fresh token identifier. -/
def signIn (h : Hashing) (store : Store) (now : Nat) (given : Credentials)
    (id : Uuid) : Except StoreError (Token × User × Store) := do
  let user ← store.authenticate h given
  let token : Token := ⟨id, user.id⟩
  return (token, user, store.issue now token)

/-- The issued token with a given identifier. -/
def issued? (store : Store) (id : Uuid) : Option Issued :=
  store.tokens.find? fun t => t.token.id = id

def revoke (store : Store) (id : Uuid) : Store :=
  { store with tokens := store.tokens.filter fun t => t.token.id ≠ id }

/-- Validate a token. If it was issued but is not valid, it is removed. -/
def validate (store : Store) (now : Nat) (token : Token) :
    Except StoreError Unit × Store :=
  match store.issued? token.id with
  | none => (.error .invalidToken, store)
  | some t =>
    if t.expires ≤ now ∨ t.token ≠ token then
      (.error .invalidToken, store.revoke token.id)
    else (.ok (), store)

/-- Add a message with a given identifier. -/
def addMessage (store : Store) (id : Uuid) (message : Message) : Store :=
  { store with messages := store.messages ++ [{ message with id := id.text }] }

/-- At most `limit` messages created before a time, the newest first. Among
messages with the same time, the one inserted last comes first. -/
def messagesBefore (store : Store) (before : Int) (limit : Nat) :
    List Message :=
  let found := store.messages.reverse.filter fun m => m.createdAt < before
  (found.mergeSort fun a b => b.createdAt ≤ a.createdAt).take limit

end Store
end ChatRelay
