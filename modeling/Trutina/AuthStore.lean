/-
This file models what the authentication services run on: the tables of users
and of failed logins with their repositories, the clock, the source of ids, the
password hasher and the sink of events. Every operation of a repository is one
transaction. A unique constraint decides which of two users with one email is
stored. The clock is aware and in UTC by its contract, so building a user from
its reading does not fail.
-/

import Trutina.Credentials
import Trutina.FailureLog
import Trutina.Repository
import Trutina.Traces

namespace Trutina

open Interaction

/-! ### Tables -/

/-- A row of `users`. The creation time is stamped by the database. -/
structure UserModel where
  id : Uuid
  email : String
  passwordHash : String
  isActive : Bool
  createdAt : Timestamp
  deriving DecidableEq, Repr

/-- A row of `login_attempts`: one failed login. -/
structure LoginAttemptModel where
  ip : String
  emailKey : String
  attemptedAt : Timestamp
  deriving DecidableEq, Repr

/-- The committed tables, the events that were emitted, and the last reading of the clock. -/
structure AuthWorld where
  users : List UserModel
  loginAttempts : List LoginAttemptModel
  events : List AuthEvent
  clock : Timestamp
  deriving DecidableEq, Repr

/-- Nobody has registered yet. -/
def AuthWorld.empty : AuthWorld where
  users := []
  loginAttempts := []
  events := []
  clock := 0

/-- The conditions one step is taken under: the clocks of the application and of the database, a
failure of the infrastructure, whether the constraint on emails is reported before the one on ids,
the random choices of hasher and id source, and what a wrapped authenticator answers. -/
structure AuthEnv where
  now : Timestamp
  dbNow : Timestamp
  fault : Option Fault
  emailFirst : Bool
  salt : String
  uuid : Uuid
  verdict : Except Raised Identity

/-- An uneventful step. -/
def AuthEnv.calm (now : Timestamp) (salt : String) (uuid : Uuid) : AuthEnv where
  now := now
  dbNow := now
  fault := none
  emailFirst := false
  salt := salt
  uuid := uuid
  verdict := .error invalidCredentials

/-! ### Commands -/

/-- What the services ask for. A user is inserted as the validated value, of which the database
ignores the creation time. -/
inductive AuthCommand where
  | now
  | uuid4
  | hash (password : String)
  | verify (password passwordHash : String)
  | authenticate (credentials : Credentials)
  | selectUsers (email : String)
  | insertUser (user : User)
  | updatePasswordHash (id : Uuid) (passwordHash : String)
  | updateIsActive (id : Uuid) (isActive : Bool)
  | countAttempts (ip emailKey : String) (since : Timestamp)
  | insertAttempt (row : LoginAttemptModel)
  | deleteAttempts (ip emailKey : String)
  | deleteAttemptsBefore (cutoff : Timestamp)
  | emit (event : AuthEvent)

/-- An UPDATE replies whether it found its row. -/
abbrev AuthReply : AuthCommand → Type
  | .now => Timestamp
  | .uuid4 => Uuid
  | .hash _ => String
  | .verify _ _ => Bool
  | .authenticate _ => Except Raised Identity
  | .selectUsers _ => Except SqlError (List UserModel)
  | .insertUser _ => Except SqlError Unit
  | .updatePasswordHash _ _ => Except SqlError Bool
  | .updateIsActive _ _ => Except SqlError Bool
  | .countAttempts _ _ _ => Except SqlError Nat
  | .insertAttempt _ => Except SqlError Unit
  | .deleteAttempts _ _ => Except SqlError Unit
  | .deleteAttemptsBefore _ => Except SqlError Nat
  | .emit _ => Unit

/-- A transaction of the database. One that fails changes nothing. -/
def transacting {Value : Type} (env : AuthEnv) (world : AuthWorld)
    (transaction : Except SqlError (Value × AuthWorld)) : Except SqlError Value × AuthWorld :=
  match env.fault, transaction with
  | some fault, _ => (.error (.failed fault), world)
  | none, .error error => (.error error, world)
  | none, .ok (value, after) => (.ok value, after)

/-- The row of a new user. -/
def UserModel.ofUser (user : User) (createdAt : Timestamp) : UserModel where
  id := user.id
  email := user.email
  passwordHash := user.passwordHash
  isActive := user.isActive
  createdAt := createdAt

/-- INSERT INTO users. -/
def AuthWorld.insertUser (env : AuthEnv) (world : AuthWorld) (user : User) :
    Except SqlError (Unit × AuthWorld) :=
  let idTaken := world.users.any fun row => row.id == user.id
  let emailTaken := world.users.any fun row => row.email == user.email
  if idTaken && !(emailTaken && env.emailFirst) then .error (.integrity "pk_users")
  else if emailTaken then .error (.integrity "uq_users_email")
  else .ok ((), { world with users := world.users ++ [UserModel.ofUser user env.dbNow] })

/-- UPDATE users WHERE id. -/
def AuthWorld.updateUser (world : AuthWorld) (id : Uuid) (change : UserModel → UserModel) :
    Bool × AuthWorld :=
  (world.users.any fun row => row.id == id,
    { world with users := world.users.map fun row => if row.id = id then change row else row })

/-- The pair that failures are counted by. -/
def LoginAttemptModel.pair (row : LoginAttemptModel) : String × String := (row.ip, row.emailKey)

/-- How the machine serves one command. -/
def authHandle (hasher : Hasher) : Handler AuthCommand AuthReply AuthEnv AuthWorld
  | .now, env, world => (env.now, { world with clock := env.now })
  | .uuid4, env, world => (env.uuid, world)
  | .hash password, env, world => (hasher.hash env.salt password, world)
  | .verify password passwordHash, _, world => (hasher.verify password passwordHash, world)
  | .authenticate _, env, world => (env.verdict, world)
  | .selectUsers email, env, world =>
    transacting env world (.ok (world.users.filter fun row => row.email = email, world))
  | .insertUser user, env, world => transacting env world (world.insertUser env user)
  | .updatePasswordHash id passwordHash, env, world =>
    transacting env world (.ok (world.updateUser id fun row => { row with passwordHash }))
  | .updateIsActive id isActive, env, world =>
    transacting env world (.ok (world.updateUser id fun row => { row with isActive }))
  | .countAttempts ip emailKey since, env, world =>
    transacting env world (.ok (FailureLog.count LoginAttemptModel.pair
      LoginAttemptModel.attemptedAt (ip, emailKey) since world.loginAttempts, world))
  | .insertAttempt row, env, world =>
    transacting env world (.ok ((), { world with loginAttempts := world.loginAttempts ++ [row] }))
  | .deleteAttempts ip emailKey, env, world =>
    transacting env world (.ok ((), { world with
      loginAttempts := FailureLog.clear LoginAttemptModel.pair (ip, emailKey)
        world.loginAttempts }))
  | .deleteAttemptsBefore cutoff, env, world =>
    let kept := FailureLog.purge LoginAttemptModel.attemptedAt cutoff world.loginAttempts
    transacting env world (.ok (world.loginAttempts.length - kept.length,
      { world with loginAttempts := kept }))
  | .emit event, _, world => ((), { world with events := world.events ++ [event] })

/-- A service or repository operation. -/
abbrev AuthAction (Result : Type) := Program AuthCommand AuthReply Raised Result

/-- What the executor makes of a reply of the database. -/
def executed {Value : Type} (reply : Except SqlError Value) : Except Raised Value :=
  reply.mapError translatePostgresErrors

/-! ### Repositories -/

namespace PostgresUserRepo

/-- Only the constraint on emails is translated into a conflict. -/
def onDuplicate (constraint : Option String) : Raised :=
  if constraint = some "uq_users_email" then AppError.duplicateUserEmail else AppError.unknown

/-- Rebuild a user from its row. -/
def toDomain (row : UserModel) : User :=
  User.validate row.id row.email row.passwordHash row.isActive row.createdAt

def create (user : User) : AuthAction Unit :=
  tryCatch (.ask (.insertUser user) fun reply => .done (executed reply)) fun error =>
    match error with
    | .integrityError constraint => throw (onDuplicate constraint)
    | other => throw other

def getByEmail (email : String) : AuthAction (Option User) := do
  let rows ← .ask (.selectUsers (normalizeEmail email)) fun reply => .done (executed reply)
  let row ← scalarOneOrNone rows
  return row.map toDomain

/-- An update of a user that does not exist is an error. -/
def expectOne (id : Uuid) (found : Bool) : Except Raised Unit :=
  if found then .ok () else .error (AppError.notFound .unknownUser "user" id)

def updatePasswordHash (id : Uuid) (passwordHash : String) : AuthAction Unit := do
  let found ← .ask (.updatePasswordHash id passwordHash) fun reply => .done (executed reply)
  expectOne id found

def setActive (id : Uuid) (isActive : Bool) : AuthAction Unit := do
  let found ← .ask (.updateIsActive id isActive) fun reply => .done (executed reply)
  expectOne id found

end PostgresUserRepo

namespace PostgresLoginAttemptRepo

def recordFailure (ip email : String) (moment : Timestamp) : AuthAction Unit :=
  .ask (.insertAttempt ⟨ip, normalizeEmail email, moment⟩) fun reply => .done (executed reply)

def countFailures (ip email : String) (since : Timestamp) : AuthAction Nat :=
  .ask (.countAttempts ip (normalizeEmail email) since) fun reply => .done (executed reply)

def clear (ip email : String) : AuthAction Unit :=
  .ask (.deleteAttempts ip (normalizeEmail email)) fun reply => .done (executed reply)

def purgeBefore (cutoff : Timestamp) : AuthAction Nat :=
  .ask (.deleteAttemptsBefore cutoff) fun reply => .done (executed reply)

end PostgresLoginAttemptRepo

/-! ### What the commands do -/

section Transactions

variable {Value : Type} {hasher : Hasher} {env : AuthEnv} {world : AuthWorld} {user : User}

@[simp] theorem executed_ok (value : Value) : executed (.ok value) = .ok value := rfl

@[simp] theorem executed_error (error : SqlError) :
    (executed (.error error) : Except Raised Value) = .error (translatePostgresErrors error) := rfl

theorem transacting_calm (calm : env.fault = none)
    (transaction : Except SqlError (Value × AuthWorld)) :
    transacting env world transaction =
      match transaction with
      | .error error => (.error error, world)
      | .ok (value, after) => (.ok value, after) := by
  unfold transacting
  rw [calm]
  cases transaction <;> rfl

theorem transacting_calm_ok (calm : env.fault = none) (value : Value) (after : AuthWorld) :
    transacting env world (.ok (value, after)) = (.ok value, after) := by
  rw [transacting_calm calm]

/-- What a transaction leaves behind: what was there, or what it made of it. -/
theorem transacting_cases (env : AuthEnv) (world : AuthWorld)
    (transaction : Except SqlError (Value × AuthWorld)) :
    ((∃ error, (transacting env world transaction).1 = .error error) ∧
        (transacting env world transaction).2 = world) ∨
      ∃ value after, env.fault = none ∧ transaction = .ok (value, after) ∧
        transacting env world transaction = (.ok value, after) := by
  unfold transacting
  rcases env.fault with _ | fault
  · rcases transaction with error | ⟨value, after⟩
    · exact .inl ⟨⟨error, rfl⟩, rfl⟩
    · exact .inr ⟨value, after, rfl, rfl, rfl⟩
  · exact .inl ⟨⟨.failed fault, rfl⟩, rfl⟩

/-- A user is inserted when neither its id nor its email is taken. -/
theorem insertUser_ok_iff {after : AuthWorld} :
    world.insertUser env user = .ok ((), after) ↔
      (∀ row ∈ world.users, row.id ≠ user.id) ∧ (∀ row ∈ world.users, row.email ≠ user.email) ∧
        after = { world with users := world.users ++ [UserModel.ofUser user env.dbNow] } := by
  have idFree : (world.users.any fun row => row.id == user.id) = false ↔
      ∀ row ∈ world.users, row.id ≠ user.id := by
    simp [List.any_eq_false]
  have emailFree : (world.users.any fun row => row.email == user.email) = false ↔
      ∀ row ∈ world.users, row.email ≠ user.email := by
    simp [List.any_eq_false]
  rw [← idFree, ← emailFree, AuthWorld.insertUser]
  cases world.users.any fun row => row.id == user.id <;>
    cases world.users.any fun row => row.email == user.email <;>
      cases env.emailFirst <;> simp [eq_comm]

/-- Of two users with one email the second is refused, and the constraint on emails is what is
reported when its id is free. -/
theorem insertUser_emailTaken (idFree : ∀ row ∈ world.users, row.id ≠ user.id)
    (taken : ∃ row ∈ world.users, row.email = user.email) :
    world.insertUser env user = .error (.integrity "uq_users_email") := by
  have idFree : (world.users.any fun row => row.id == user.id) = false := by
    simpa [List.any_eq_false] using idFree
  have taken : (world.users.any fun row => row.email == user.email) = true := by
    simpa [List.any_eq_true] using taken
  rw [AuthWorld.insertUser]
  simp only [idFree, taken, Bool.false_and, Bool.false_eq_true, if_false, if_true]

end Transactions

/-! ### Unique users -/

/-- What the constraints of the table keep: ids and emails are unique. -/
structure Keyed (users : List UserModel) : Prop where
  ids : (users.map UserModel.id).Nodup
  emails : (users.map UserModel.email).Nodup

namespace Keyed

variable {users : List UserModel}

theorem eq_of_id (keyed : Keyed users) {left right : UserModel} (first : left ∈ users)
    (second : right ∈ users) (same : left.id = right.id) : left = right :=
  List.inj_on_of_nodup_map keyed.ids first second same

theorem eq_of_email (keyed : Keyed users) {left right : UserModel} (first : left ∈ users)
    (second : right ∈ users) (same : left.email = right.email) : left = right :=
  List.inj_on_of_nodup_map keyed.emails first second same

/-- Looking an email up finds its row, if there is one. -/
theorem lookup (keyed : Keyed users) (email : String) :
    ∃ found, scalarOneOrNone (users.filter fun row => decide (row.email = email)) = .ok found ∧
      (∀ row, found = some row → row ∈ users ∧ row.email = email) ∧
      (found = none → ∀ row ∈ users, row.email ≠ email) := by
  have within : ∀ row, row ∈ (users.filter fun row => decide (row.email = email)) ↔
      row ∈ users ∧ row.email = email := fun row => by
    rw [List.mem_filter, decide_eq_true_eq]
  have distinct : (users.filter fun row => decide (row.email = email)).Nodup :=
    (List.Nodup.of_map _ keyed.ids).filter _
  obtain ⟨found, answered, finds⟩ := scalarOneOrNone_of_unique distinct
    fun first left second right => keyed.eq_of_email ((within first).mp left).1
      ((within second).mp right).1
      (((within first).mp left).2.trans ((within second).mp right).2.symm)
  refine ⟨found, answered, fun row only => (within row).mp ((finds row).mpr only), ?_⟩
  intro absent row member same
  rw [absent] at finds
  cases (finds row).mp ((within row).mpr ⟨member, same⟩)

theorem append (keyed : Keyed users) {row : UserModel} (idFree : ∀ other ∈ users, other.id ≠ row.id)
    (emailFree : ∀ other ∈ users, other.email ≠ row.email) : Keyed (users ++ [row]) where
  ids := by
    rw [List.map_append, List.map_singleton, List.nodup_append]
    refine ⟨keyed.ids, List.nodup_singleton _, fun id member other same => ?_⟩
    obtain ⟨stored, present, rfl⟩ := List.mem_map.mp member
    rw [List.mem_singleton.mp same]
    exact idFree stored present
  emails := by
    rw [List.map_append, List.map_singleton, List.nodup_append]
    refine ⟨keyed.emails, List.nodup_singleton _, fun email member other same => ?_⟩
    obtain ⟨stored, present, rfl⟩ := List.mem_map.mp member
    rw [List.mem_singleton.mp same]
    exact emailFree stored present

end Keyed

/-! ### What the commands do to the users -/

/-- A change of a row that keeps its keys. -/
def KeepsKeys (change : UserModel → UserModel) : Prop :=
  ∀ row, (change row).id = row.id ∧ (change row).email = row.email

/-- The table with the rows of one id changed. -/
def changeUser (id : Uuid) (change : UserModel → UserModel) (users : List UserModel) :
    List UserModel :=
  users.map fun row => if row.id = id then change row else row

section Users

variable {hasher : Hasher} {env : AuthEnv} {world : AuthWorld} {command : AuthCommand}
  {users : List UserModel} {change : UserModel → UserModel} {id : Uuid}

/-- What a command has made of the users: nothing, one more, or a change of one. -/
inductive UsersStep (users : List UserModel) : AuthCommand → List UserModel → Prop where
  | same (command : AuthCommand) : UsersStep users command users
  | insert (user : User) (createdAt : Timestamp) (idFree : ∀ row ∈ users, row.id ≠ user.id)
      (emailFree : ∀ row ∈ users, row.email ≠ user.email) :
      UsersStep users (.insertUser user) (users ++ [UserModel.ofUser user createdAt])
  | updatePasswordHash (id : Uuid) (passwordHash : String) :
      UsersStep users (.updatePasswordHash id passwordHash)
        (changeUser id (fun row => { row with passwordHash }) users)
  | updateIsActive (id : Uuid) (isActive : Bool) :
      UsersStep users (.updateIsActive id isActive)
        (changeUser id (fun row => { row with isActive }) users)

/-- A transaction that fails leaves the users as they are. -/
theorem transacting_usersStep {Value : Type} {command : AuthCommand} {env : AuthEnv}
    {world : AuthWorld} {transaction : Except SqlError (Value × AuthWorld)}
    (committed : ∀ value after, transaction = .ok (value, after) →
      UsersStep world.users command after.users) :
    UsersStep world.users command (transacting env world transaction).2.users := by
  rcases transacting_cases env world transaction with ⟨_, still⟩ | ⟨value, after, _, done, ran⟩
  · rw [still]
    exact .same _
  · rw [ran]
    exact committed value after done

theorem usersStep (hasher : Hasher) (command : AuthCommand) (env : AuthEnv) (world : AuthWorld) :
    UsersStep world.users command (authHandle hasher command env world).2.users := by
  cases command with
  | now | uuid4 | hash | verify | authenticate | emit => exact .same _
  | selectUsers | countAttempts | insertAttempt | deleteAttempts | deleteAttemptsBefore =>
    refine transacting_usersStep fun value after done => ?_
    cases done
    exact .same _
  | insertUser user =>
    refine transacting_usersStep fun _ after inserted => ?_
    obtain ⟨idFree, emailFree, rfl⟩ := insertUser_ok_iff.mp inserted
    exact .insert user env.dbNow idFree emailFree
  | updatePasswordHash id passwordHash =>
    refine transacting_usersStep fun value after done => ?_
    cases done
    exact .updatePasswordHash id passwordHash
  | updateIsActive id isActive =>
    refine transacting_usersStep fun value after done => ?_
    cases done
    exact .updateIsActive id isActive

theorem mem_changeUser {row : UserModel} :
    row ∈ changeUser id change users ↔
      ∃ before ∈ users, row = if before.id = id then change before else before := by
  simp only [changeUser, List.mem_map, eq_comm]

theorem Keyed.changeUser (keyed : Keyed users) (keeps : KeepsKeys change) :
    Keyed (changeUser id change users) where
  ids := by
    have same : (Trutina.changeUser id change users).map UserModel.id = users.map UserModel.id := by
      rw [Trutina.changeUser, List.map_map]
      refine List.map_congr_left fun row _ => ?_
      simp only [Function.comp]
      split
      · exact (keeps row).1
      · rfl
    rw [same]
    exact keyed.ids
  emails := by
    have same : (Trutina.changeUser id change users).map UserModel.email =
        users.map UserModel.email := by
      rw [Trutina.changeUser, List.map_map]
      refine List.map_congr_left fun row _ => ?_
      simp only [Function.comp]
      split
      · exact (keeps row).2
      · rfl
    rw [same]
    exact keyed.emails

/-- The constraints hold after every command. -/
theorem Keyed.handle (keyed : Keyed world.users) :
    Keyed (authHandle hasher command env world).2.users := by
  have step := usersStep hasher command env world
  generalize (authHandle hasher command env world).2.users = after at step
  cases step with
  | same => exact keyed
  | insert user createdAt idFree emailFree => exact keyed.append idFree emailFree
  | updatePasswordHash id passwordHash => exact keyed.changeUser fun _ => ⟨rfl, rfl⟩
  | updateIsActive id isActive => exact keyed.changeUser fun _ => ⟨rfl, rfl⟩

end Users

end Trutina
