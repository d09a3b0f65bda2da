/-
This file models the three use cases of authentication as programs over their
repositories, the clock, the hasher and the event sink: registering a user,
logging in with a password, and the throttle around a login. The throttle takes
the authenticator it wraps as an argument. It counts before that one runs, and
records a failure only after it has run, so other attempts can come in between.
-/

import Trutina.AuthStore

namespace Trutina

open Interaction

/-! ### Login -/

namespace PasswordAuthenticator

/-- A successful login replaces a hash with outdated parameters. -/
def refreshHash (hasher : Hasher) (secret : String) (user : User) : AuthAction Unit :=
  if hasher.needsRehash user.passwordHash then do
    let passwordHash ← Program.perform (.hash secret)
    PostgresUserRepo.updatePasswordHash user.id passwordHash
  else return ()

/-- What follows the verification. A disabled user is refused only here. -/
def grant (hasher : Hasher) (secret : String) (user : User) (verified : Bool) :
    AuthAction Identity :=
  if verified = false ∨ user.isActive = false then throw invalidCredentials
  else do
    refreshHash hasher secret user
    return ⟨user.id⟩

/-- Check a password against what was looked up. For an unknown user the dummy hash is verified. -/
def checkUser (hasher : Hasher) (dummyHash secret : String) : Option User → AuthAction Identity
  | none => do
    let _ ← Program.perform (.verify secret dummyHash)
    throw invalidCredentials
  | some user => do
    let verified ← Program.perform (.verify secret user.passwordHash)
    grant hasher secret user verified

def authenticate (unicode : Unicode) (hasher : Hasher) (dummyHash : String)
    (credentials : Credentials) : AuthAction Identity :=
  let secret := normalizePassword unicode credentials.password
  let key := normalizeEmail credentials.email
  if maxPasswordLength < credentials.password.length then throw invalidCredentials
  else if secret = "" ∨ maxPasswordLength < secret.length then throw invalidCredentials
  else if maxEmailLength < key.length then throw invalidCredentials
  else do
    let user ← PostgresUserRepo.getByEmail key
    checkUser hasher dummyHash secret user

end PasswordAuthenticator

/-! ### The throttle -/

/-- The limits of a throttle, as its constructor accepts them. -/
structure ThrottleLimits where
  maxFailures : Nat
  windowSeconds : Nat
  maxFailures_pos : 1 ≤ maxFailures
  windowSeconds_pos : 1 ≤ windowSeconds

/-- The length of the window in microseconds. -/
def ThrottleLimits.window (limits : ThrottleLimits) : Timestamp := limits.windowSeconds * 1000000

theorem ThrottleLimits.strict_pos : 1 ≤ 1 := Nat.le_refl 1

/-- One failure within one second is one too many. -/
def ThrottleLimits.strict : ThrottleLimits := ⟨1, 1, strict_pos, strict_pos⟩

/-- Stored in place of a client address that could not be determined. -/
def unknownClientIp : String := "unknown"

/-- The address that failures are counted by. An empty one counts as unknown. -/
def Credentials.ip (credentials : Credentials) : String :=
  match credentials.clientIp with
  | none => unknownClientIp
  | some address => if address = "" then unknownClientIp else address

/-- The event of a throttled attempt. -/
def loginThrottled (limits : ThrottleLimits) : AuthEvent where
  name := "auth.login_throttled"
  context := [("retry_after_seconds", toString limits.windowSeconds)]

/-- An authenticator of which only the answers are known. -/
def Authenticator.authenticate (credentials : Credentials) : AuthAction Identity :=
  .ask (.authenticate credentials) fun verdict => .done verdict

namespace ThrottledAuthenticator

/-- What is done about an error of the wrapped authenticator before it is raised again. -/
def onError (limits : ThrottleLimits) (ip key : String) (error : Raised) : AuthAction Identity :=
  if error.code? = some .authInvalidCredentials then do
    let failedAt ← Program.perform .now
    PostgresLoginAttemptRepo.recordFailure ip key failedAt
    let _ ← PostgresLoginAttemptRepo.purgeBefore (failedAt - limits.window)
    throw error
  else throw error

/-- What is done after a login, when some failures were counted before it. -/
def onSuccess (ip key : String) (failures : Nat) : AuthAction Unit :=
  if failures = 0 then return () else PostgresLoginAttemptRepo.clear ip key

/-- The decision, once the failures are counted. -/
def attempt (limits : ThrottleLimits) (inner : Credentials → AuthAction Identity)
    (credentials : Credentials) (key : String) (failures : Nat) : AuthAction Identity :=
  if limits.maxFailures ≤ failures then do
    Program.perform (AuthCommand.emit (loginThrottled limits))
    throw (AppError.throttled limits.windowSeconds)
  else do
    let identity ← tryCatch (inner credentials) (onError limits credentials.ip key)
    onSuccess credentials.ip key failures
    return identity

def authenticate (limits : ThrottleLimits) (inner : Credentials → AuthAction Identity)
    (credentials : Credentials) : AuthAction Identity :=
  let key := normalizeEmail credentials.email
  if maxEmailLength < key.length then inner credentials
  else do
    let checkedAt ← Program.perform .now
    let failures ← PostgresLoginAttemptRepo.countFailures credentials.ip key
      (checkedAt - limits.window)
    attempt limits inner credentials key failures

end ThrottledAuthenticator

/-! ### Registration -/

/-- What a caller registers with. -/
structure RegisterInput where
  email : String
  password : String
  deriving DecidableEq, Repr

/-- What registration reports back. -/
structure RegisteredUser where
  id : Uuid
  email : String
  deriving DecidableEq, Repr

/-- The event of a registration. -/
def userRegistered (id : Uuid) : AuthEvent where
  name := "auth.user_registered"
  context := [("subject_id", id)]

namespace RegistrationService

/-- A password violation whose value is masked. -/
def passwordViolation (code : ErrorCode) : FieldViolation :=
  ⟨code, "password", .given "***REDACTED***"⟩

/-- The string to hash, or what is wrong with the password. -/
def checkPassword (unicode : Unicode) (raw : String) : Except FieldViolation String :=
  let normalized := normalizePassword unicode raw
  if maxPasswordLength < raw.length then .error (passwordViolation .stringTooLong)
  else if normalized = "" then .error (passwordViolation .requiredField)
  else if normalized.length < minPasswordLength then .error (passwordViolation .stringTooShort)
  else if maxPasswordLength < normalized.length then .error (passwordViolation .stringTooLong)
  else .ok normalized

/-- What is wrong with a normalized email. -/
def emailViolations (unicode : Unicode) (email : String) : List FieldViolation :=
  if isWellFormedEmail unicode email then [] else [⟨.invalidEmail, "email", .given ""⟩]

/-- The email and the password to store. All violations are reported together. -/
def checkInput (unicode : Unicode) (data : RegisterInput) : Except Raised (String × String) :=
  let email := normalizeEmail data.email
  match emailViolations unicode email, checkPassword unicode data.password with
  | [], .ok password => .ok (email, password)
  | violations, .ok _ => .error (.validationAppError .validationError violations)
  | violations, .error violation =>
    .error (.validationAppError .validationError (violations ++ [violation]))

/-- Store a user whose input was accepted. -/
def store (email password : String) : AuthAction RegisteredUser := do
  match ← PostgresUserRepo.getByEmail email with
  | some _ => throw AppError.duplicateUserEmail
  | none =>
    let passwordHash ← Program.perform (.hash password)
    let id ← Program.perform .uuid4
    let createdAt ← Program.perform .now
    let user := User.validate id email passwordHash true createdAt
    PostgresUserRepo.create user
    Program.perform (AuthCommand.emit (userRegistered user.id))
    return ⟨user.id, user.email⟩

def register (unicode : Unicode) (data : RegisterInput) : AuthAction RegisteredUser := do
  let (email, password) ← checkInput unicode data
  store email password

end RegistrationService

end Trutina
