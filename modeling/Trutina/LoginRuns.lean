/-
This file proves that whoever registers can log in afterwards, whatever other
registrations, logins and changes of the active flag come in between. The hash
of a user may be replaced many times, but every hash that is stored for a user
who registered is one that the password of the registration opens and no other
does. A login replaces a hash only after its password was verified against an
earlier one, so what it stores is opened by the same password.
-/

import Trutina.Enumeration
import Trutina.Interference
import Trutina.Registration

namespace Trutina

open Interaction RegistrationService

/-! ### Calls -/

/-- What a client of the authentication services asks for. -/
inductive AuthCall where
  | register (data : RegisterInput)
  | login (credentials : Credentials)
  | throttledLogin (limits : ThrottleLimits) (credentials : Credentials)
  | setActive (id : Uuid) (isActive : Bool)

/-- What it is answered. -/
inductive AuthResponse where
  | registered (user : RegisteredUser)
  | identified (identity : Identity)
  | changed
  deriving DecidableEq, Repr

/-- The program that serves a call. -/
def AuthCall.program (unicode : Unicode) (hasher : Hasher) (dummyHash : String) :
    AuthCall → AuthAction AuthResponse
  | .register data => do
    let user ← RegistrationService.register unicode data
    return .registered user
  | .login credentials => do
    let identity ← PasswordAuthenticator.authenticate unicode hasher dummyHash credentials
    return .identified identity
  | .throttledLogin limits credentials => do
    let identity ← ThrottledAuthenticator.authenticate limits
      (PasswordAuthenticator.authenticate unicode hasher dummyHash) credentials
    return .identified identity
  | .setActive id isActive => do
    PostgresUserRepo.setActive id isActive
    return .changed

/-- What a login presents. -/
def AuthCall.credentials? : AuthCall → Option Credentials
  | .login credentials => some credentials
  | .throttledLogin _ credentials => some credentials
  | _ => none

/-- The conditions of a step during which a user stays active: storage does not fail, and the row
of the user, if there is one, is active after it. -/
def StaysActive (hasher : Hasher) (subject : Uuid) (world : AuthWorld) (command : AuthCommand)
    (env : AuthEnv) : Prop :=
  env.fault = none ∧
    ∀ row ∈ (authHandle hasher command env world).2.users, row.id = subject → row.isActive = true

instance (hasher : Hasher) (subject : Uuid) (world : AuthWorld) (command : AuthCommand)
    (env : AuthEnv) : Decidable (StaysActive hasher subject world command env) :=
  inferInstanceAs (Decidable (_ ∧ _))

/-! ### What is kept of a user -/

/-- One password opens the stored hash, and no other does. -/
def UserModel.Opens (hasher : Hasher) (row : UserModel) (secret : String) : Prop :=
  ∀ password, hasher.verify password row.passwordHash = true ↔ password = secret

/-- What later rows of a user have in common with an earlier one. Of the users in a list nothing is
known about the hash. -/
structure Survives (hasher : Hasher) (earlier : List Uuid) (subject : Uuid)
    (row later : UserModel) : Prop where
  id : later.id = row.id
  email : later.email = row.email
  active : row.id = subject → row.isActive = true → later.isActive = true
  opens : row.id ∉ earlier → ∀ secret, row.Opens hasher secret → later.Opens hasher secret

/-- Every user is still there. -/
def Endures (hasher : Hasher) (earlier : List Uuid) (subject : Uuid)
    (first second : AuthWorld) : Prop :=
  ∀ row ∈ first.users, ∃ later ∈ second.users, Survives hasher earlier subject row later

/-- The users that were there at the start are still there, and every other hash is opened by one
password. -/
structure Guarded (hasher : Hasher) (earlier : List Uuid) (world : AuthWorld) : Prop where
  keyed : Keyed world.users
  present : ∀ id ∈ earlier, ∃ row ∈ world.users, row.id = id
  opened : ∀ row ∈ world.users, row.id ∉ earlier → ∃ secret, row.Opens hasher secret

section Rows

variable {hasher : Hasher} {earlier : List Uuid} {subject : Uuid} {world after : AuthWorld}

theorem UserModel.Opens.unique {row : UserModel} {secret other : String}
    (opens : row.Opens hasher secret) (opens' : row.Opens hasher other) : secret = other :=
  (opens' secret).mp ((opens secret).mpr rfl)

theorem Survives.refl (row : UserModel) : Survives hasher earlier subject row row :=
  ⟨rfl, rfl, fun _ active => active, fun _ _ opens => opens⟩

theorem Survives.trans {first second third : UserModel}
    (before : Survives hasher earlier subject first second)
    (next : Survives hasher earlier subject second third) :
    Survives hasher earlier subject first third where
  id := next.id.trans before.id
  email := next.email.trans before.email
  active own active := next.active (before.id.trans own) (before.active own active)
  opens new secret opens := next.opens (before.id ▸ new) secret (before.opens new secret opens)

theorem Endures.refl (world : AuthWorld) : Endures hasher earlier subject world world :=
  fun row member => ⟨row, member, .refl row⟩

theorem Endures.trans {first second third : AuthWorld}
    (before : Endures hasher earlier subject first second)
    (next : Endures hasher earlier subject second third) :
    Endures hasher earlier subject first third := by
  intro row member
  obtain ⟨middle, stored, survives⟩ := before row member
  obtain ⟨later, stored', survives'⟩ := next middle stored
  exact ⟨later, stored', survives.trans survives'⟩

/-- What all calls rely on and keep. -/
def enduring (hasher : Hasher) (earlier : List Uuid) (subject : Uuid) : Regime AuthWorld where
  invariant := Guarded hasher earlier
  evolves := Endures hasher earlier subject
  refl := Endures.refl
  trans := Endures.trans

/-- A step that leaves the users as they are. -/
theorem Guarded.same (guarded : Guarded hasher earlier world) (same : after.users = world.users) :
    Guarded hasher earlier after ∧ Endures hasher earlier subject world after := by
  refine ⟨⟨same ▸ guarded.keyed, same ▸ guarded.present, same ▸ guarded.opened⟩, ?_⟩
  exact fun row member => ⟨row, same ▸ member, .refl row⟩

/-- A step that adds a user whose hash is opened by one password. -/
theorem Guarded.insert (guarded : Guarded hasher earlier world) {row : UserModel} {secret : String}
    (idFree : ∀ other ∈ world.users, other.id ≠ row.id)
    (emailFree : ∀ other ∈ world.users, other.email ≠ row.email)
    (opens : row.Opens hasher secret) :
    row.id ∉ earlier ∧ Guarded hasher earlier { world with users := world.users ++ [row] } ∧
      Endures hasher earlier subject world { world with users := world.users ++ [row] } := by
  have kept : ∀ other ∈ world.users, other ∈ world.users ++ [row] := fun _ member =>
    List.mem_append_left _ member
  refine ⟨fun old => ?_, ⟨guarded.keyed.append idFree emailFree, fun id old => ?_,
    fun other member new => ?_⟩, fun other member => ⟨other, kept other member, .refl other⟩⟩
  · obtain ⟨other, stored, same⟩ := guarded.present row.id old
    exact idFree other stored same
  · obtain ⟨other, stored, same⟩ := guarded.present id old
    exact ⟨other, kept other stored, same⟩
  · rcases List.mem_append.mp member with stored | added
    · exact guarded.opened other stored new
    · rw [List.mem_singleton.mp added]
      exact ⟨secret, opens⟩

/-- A step that changes the rows of one id. -/
theorem Guarded.change (guarded : Guarded hasher earlier world) (id : Uuid)
    (change : UserModel → UserModel) (keeps : KeepsKeys change)
    (survives : ∀ row ∈ world.users, row.id = id →
      Survives hasher earlier subject row (change row)) :
    Guarded hasher earlier { world with users := changeUser id change world.users } ∧
      Endures hasher earlier subject world
        { world with users := changeUser id change world.users } := by
  have moved : ∀ row ∈ world.users, Survives hasher earlier subject row
      (if row.id = id then change row else row) := by
    intro row member
    by_cases own : row.id = id
    · rw [if_pos own]
      exact survives row member own
    · rw [if_neg own]
      exact .refl row
  have endures : Endures hasher earlier subject world
      { world with users := changeUser id change world.users } := fun row member =>
    ⟨_, mem_changeUser.mpr ⟨row, member, rfl⟩, moved row member⟩
  refine ⟨⟨guarded.keyed.changeUser keeps, fun other old => ?_, fun later member new => ?_⟩,
    endures⟩
  · obtain ⟨row, stored, same⟩ := guarded.present other old
    obtain ⟨later, stored', survives⟩ := endures row stored
    exact ⟨later, stored', survives.id.trans same⟩
  · obtain ⟨row, stored, rfl⟩ := mem_changeUser.mp member
    have survived := moved row stored
    rw [survived.id] at new
    obtain ⟨secret, opens⟩ := guarded.opened row stored new
    exact ⟨secret, survived.opens new secret opens⟩

end Rows

/-! ### Programs -/

/-- A program whose steps are taken while storage does not fail. -/
def calmly {Result : Type} (ensures : Except Raised Result → AuthWorld → Prop) :
    Task AuthCommand AuthReply Raised Result AuthEnv AuthWorld where
  permits _ _ env := env.fault = none
  shows _ _ _ _ := True
  ensures := ensures

section Programs

variable {unicode : Unicode} {hasher : Hasher} {earlier : List Uuid} {subject : Uuid}
  {world : AuthWorld} {row : UserModel} {secret dummyHash : String}

/-- The hash of a password is opened by it. -/
theorem opens_hash (sound : hasher.Sound) {salt : String}
    (own : row.passwordHash = hasher.hash salt secret) : row.Opens hasher secret := by
  intro password
  rw [own]
  exact sound salt secret password

/-- Where a password was verified, replacing the hash by one of that password changes nothing
about which password opens it, however often the hash was replaced in between. -/
theorem survives_rehash (sound : hasher.Sound) {later : AuthWorld}
    (guarded : Guarded hasher earlier world) (guarded' : Guarded hasher earlier later)
    (evolved : Endures hasher earlier subject world later) (stored : row ∈ world.users)
    (verified : hasher.verify secret row.passwordHash = true) {current : UserModel}
    (stored' : current ∈ later.users) (same : current.id = row.id) (salt : String) :
    Survives hasher earlier subject current
      { current with passwordHash := hasher.hash salt secret } := by
  refine ⟨rfl, rfl, fun _ active => active, fun new other opens => ?_⟩
  rw [same] at new
  obtain ⟨original, opened⟩ := guarded.opened row stored new
  obtain ⟨kept, member, survives⟩ := evolved row stored
  have identical := guarded'.keyed.eq_of_id member stored' (survives.id.trans same.symm)
  have unchanged : original = other := (identical ▸ survives.opens new original opened).unique opens
  have presented : secret = original := (opened secret).mp verified
  exact opens_hash sound (by rw [← unchanged, ← presented])

/-- An update of a user that is there succeeds. -/
theorem handle_updatePasswordHash {env : AuthEnv} (calm : env.fault = none) {id : Uuid}
    (present : ∃ row ∈ world.users, row.id = id) (passwordHash : String) :
    authHandle hasher (.updatePasswordHash id passwordHash) env world =
      (.ok true, { world with
        users := changeUser id (fun row => { row with passwordHash }) world.users }) := by
  obtain ⟨row, member, same⟩ := present
  have found : (world.users.any fun other => other.id == id) = true :=
    List.any_eq_true.mpr ⟨row, member, beq_iff_eq.mpr same⟩
  simp only [authHandle, transacting_calm_ok calm, AuthWorld.updateUser, found]
  rfl

theorem updatePasswordHash_valid (sound : hasher.Sound) (guarded : Guarded hasher earlier world)
    (stored : row ∈ world.users) (verified : hasher.verify secret row.passwordHash = true)
    (salt : String) :
    (PostgresUserRepo.updatePasswordHash row.id (hasher.hash salt secret)).Valid
      (authHandle hasher) (enduring hasher earlier subject)
      (calmly fun outcome _ => outcome = .ok ()) world := by
  refine Program.valid_ask fun later evolved guarded' env calm => ?_
  obtain ⟨current, member, survives⟩ := evolved row stored
  rw [handle_updatePasswordHash calm ⟨current, member, survives.id⟩]
  obtain ⟨kept, moved⟩ := guarded'.change row.id
    (fun current => { current with passwordHash := hasher.hash salt secret })
    (fun _ => ⟨rfl, rfl⟩) fun current stored' same =>
      survives_rehash sound guarded guarded' evolved stored verified stored' same salt
  exact ⟨kept, moved, trivial, Program.valid_done fun _ _ _ => rfl⟩

/-- Replacing the hash of a user whose password was verified succeeds. -/
theorem refreshHash_valid (sound : hasher.Sound) (guarded : Guarded hasher earlier world)
    (stored : row ∈ world.users) (verified : hasher.verify secret row.passwordHash = true) :
    (PasswordAuthenticator.refreshHash hasher secret (PostgresUserRepo.toDomain row)).Valid
      (authHandle hasher) (enduring hasher earlier subject)
      (calmly fun outcome _ => outcome = .ok ()) world := by
  unfold PasswordAuthenticator.refreshHash
  split
  · refine Program.valid_ask fun middle evolved guarded' env _ => ⟨guarded', .refl _, trivial, ?_⟩
    exact (updatePasswordHash_valid sound guarded stored verified env.salt).later evolved
  · exact Program.valid_done fun _ _ _ => rfl

theorem checkUser_valid (sound : hasher.Sound) (guarded : Guarded hasher earlier world)
    {found : Option UserModel} (stored : ∀ row, found = some row → row ∈ world.users)
    {answers : Except Raised Identity → Prop}
    (refuses : (∀ row, found = some row →
      hasher.verify secret row.passwordHash = false ∨ row.isActive = false) →
        answers (.error invalidCredentials))
    (admits : ∀ row, found = some row → hasher.verify secret row.passwordHash = true →
      row.isActive = true → answers (.ok ⟨row.id⟩)) :
    (PasswordAuthenticator.checkUser hasher dummyHash secret
      (found.map PostgresUserRepo.toDomain)).Valid (authHandle hasher)
        (enduring hasher earlier subject) (calmly fun outcome _ => answers outcome) world := by
  cases found with
  | none =>
    refine Program.valid_ask fun later _ guarded' env _ => ⟨guarded', .refl _, trivial, ?_⟩
    exact Program.valid_done fun _ _ _ => refuses (by rintro row ⟨⟩)
  | some row =>
    have admitted : (PasswordAuthenticator.grant hasher secret (PostgresUserRepo.toDomain row)
        (hasher.verify secret row.passwordHash)).Valid (authHandle hasher)
          (enduring hasher earlier subject) (calmly fun outcome _ => answers outcome) world := by
      unfold PasswordAuthenticator.grant
      split
      · rename_i refused
        refine Program.valid_done fun _ _ _ => refuses ?_
        rintro _ ⟨⟩
        exact refused
      · rename_i passed
        obtain ⟨verified, active⟩ := not_or.mp passed
        have verified := Bool.not_eq_false _ ▸ verified
        have active := Bool.not_eq_false _ ▸ active
        refine (refreshHash_valid sound guarded (stored row rfl) verified).bind
          (fun _ _ _ calm => calm) (fun _ _ _ _ _ => trivial) ?_ ?_
        · exact fun _ _ _ _ => Program.valid_done fun _ _ _ => admits row rfl verified active
        · rintro error later _ ⟨⟩
    refine Program.valid_ask fun later evolved guarded' env _ => ⟨guarded', .refl _, trivial, ?_⟩
    exact admitted.later evolved

/-- What has to be known about the users for a login to be answered in a certain way. -/
structure Decides (unicode : Unicode) (hasher : Hasher) (earlier : List Uuid) (subject : Uuid)
    (credentials : Credentials) (answers : Except Raised Identity → Prop) (world : AuthWorld) :
    Prop where
  tooLong : maxEmailLength < (normalizeEmail credentials.email).length →
    answers (.error invalidCredentials)
  refuses : ∀ later, Endures hasher earlier subject world later → Guarded hasher earlier later →
    (∀ row ∈ later.users, row.email = normalizeEmail credentials.email →
      row.admits unicode hasher credentials = false) → answers (.error invalidCredentials)
  admits : ∀ later, Endures hasher earlier subject world later → Guarded hasher earlier later →
    ∀ row ∈ later.users, row.email = normalizeEmail credentials.email →
      row.admits unicode hasher credentials = true → answers (.ok ⟨row.id⟩)

theorem admits_iff {credentials : Credentials} :
    row.admits unicode hasher credentials = true ↔
      credentials.password.length ≤ maxPasswordLength ∧
        normalizePassword unicode credentials.password ≠ "" ∧
        (normalizePassword unicode credentials.password).length ≤ maxPasswordLength ∧
        hasher.verify (normalizePassword unicode credentials.password) row.passwordHash = true ∧
        row.isActive = true := by
  simp only [UserModel.admits, Bool.and_eq_true, decide_eq_true_eq, and_assoc]

/-- A login is answered by what the users are when they are looked up. -/
theorem login_valid (sound : hasher.Sound) {credentials : Credentials}
    {answers : Except Raised Identity → Prop}
    (decides : Decides unicode hasher earlier subject credentials answers world) :
    (PasswordAuthenticator.authenticate unicode hasher dummyHash credentials).Valid
      (authHandle hasher) (enduring hasher earlier subject)
      (calmly fun outcome _ => answers outcome) world := by
  have idempotent := normalizeEmail_idempotent credentials.email
  have closed : ∀ row : UserModel, ¬row.admits unicode hasher credentials = true →
      row.admits unicode hasher credentials = false := fun _ => Bool.eq_false_of_not_eq_true
  unfold PasswordAuthenticator.authenticate
  simp only
  split
  · rename_i long
    refine Program.valid_done fun later evolved guarded => ?_
    refine decides.refuses later evolved guarded fun row _ _ => closed row fun opened => ?_
    exact absurd (admits_iff.mp opened).1 (not_le.mpr long)
  rename_i shortRaw
  split
  · rename_i improper
    refine Program.valid_done fun later evolved guarded => ?_
    refine decides.refuses later evolved guarded fun row _ _ => closed row fun opened => ?_
    obtain ⟨_, present, short, _⟩ := admits_iff.mp opened
    exact improper.elim present (not_lt.mpr short)
  rename_i proper
  split
  · rename_i long
    exact Program.valid_done fun _ _ _ => decides.tooLong long
  obtain ⟨present, short⟩ := not_or.mp proper
  simp only [PostgresUserRepo.getByEmail, bind_assoc, Program.ask_bind]
  refine Program.valid_ask fun later evolved guarded env calm => ?_
  obtain ⟨found, lookup, inUsers, absent⟩ :=
    guarded.keyed.lookup (normalizeEmail credentials.email)
  have handled : authHandle hasher (.selectUsers (normalizeEmail
      (normalizeEmail credentials.email))) env later =
        (.ok (later.users.filter fun row => decide (row.email = normalizeEmail credentials.email)),
          later) := by
    simp only [authHandle, transacting_calm_ok calm, idempotent]
  rw [handled]
  refine ⟨guarded, .refl _, trivial, ?_⟩
  simp only [executed_ok, Program.ok_bind, lookup, Program.lift_eq, Program.pure_eq]
  refine checkUser_valid sound guarded (fun row same => (inUsers row same).1) ?_ ?_
  · intro refused
    refine decides.refuses later evolved guarded fun row member own => closed row fun opened => ?_
    obtain ⟨_, _, _, verified, active⟩ := admits_iff.mp opened
    cases found with
    | none => exact absent rfl row member own
    | some stored =>
      obtain ⟨member', own'⟩ := inUsers stored rfl
      have same := guarded.keyed.eq_of_email member member' (own.trans own'.symm)
      subst same
      rcases refused row rfl with unverified | inactive
      · rw [unverified] at verified
        cases verified
      · rw [inactive] at active
        cases active
  · intro row same verified active
    obtain ⟨member, own⟩ := inUsers row same
    exact decides.admits later evolved guarded row member own
      (admits_iff.mpr ⟨not_lt.mp shortRaw, present, not_lt.mp short, verified, active⟩)

theorem Decides.later {credentials : Credentials} {answers : Except Raised Identity → Prop}
    (decides : Decides unicode hasher earlier subject credentials answers world) {later : AuthWorld}
    (evolved : Endures hasher earlier subject world later) :
    Decides unicode hasher earlier subject credentials answers later where
  tooLong := decides.tooLong
  refuses last further := decides.refuses last (evolved.trans further)
  admits last further := decides.admits last (evolved.trans further)

/-- A command that never changes the users. -/
def LeavesUsers (hasher : Hasher) (command : AuthCommand) : Prop :=
  ∀ env world, (authHandle hasher command env world).2.users = world.users

theorem leavesUsers_of_besidesUsers {command : AuthCommand} (besides : command.besidesUsers) :
    LeavesUsers hasher command := by
  intro env world
  have step := usersStep hasher command env world
  generalize (authHandle hasher command env world).2.users = users at step
  cases step with
  | same => rfl
  | insert | updatePasswordHash | updateIsActive => cases besides

theorem leavesUsers_selectUsers (email : String) : LeavesUsers hasher (.selectUsers email) := by
  intro env world
  have step := usersStep hasher (.selectUsers email) env world
  generalize (authHandle hasher (.selectUsers email) env world).2.users = users at step
  cases step
  rfl

/-- The rule for a first part that never changes the users. -/
theorem leaving_valid_bind {First Result : Type} {program : AuthAction First}
    (issues : program.Issues (LeavesUsers hasher)) {continuation : First → AuthAction Result}
    {ensures : Except Raised Result → AuthWorld → Prop}
    (fails : ∀ error later, ensures (.error error) later)
    (rest : ∀ result later, Endures hasher earlier subject world later →
      (continuation result).Valid (authHandle hasher) (enduring hasher earlier subject)
        (calmly ensures) later) :
    (program >>= continuation).Valid (authHandle hasher) (enduring hasher earlier subject)
      (calmly ensures) world :=
  issues.valid_bind (fun _ env later leaves guarded _ => guarded.same (leaves env later))
    (fun _ _ _ _ _ => trivial) fails fun result later evolved _ => rest result later evolved

/-- What the throttle does on its own has nothing to do with the users. -/
theorem besides_valid_bind {First Result : Type} {program : AuthAction First}
    (issues : program.Issues AuthCommand.besidesUsers) {continuation : First → AuthAction Result}
    {answers : Except Raised Result → Prop} (fails : ∀ error, answers (.error error))
    (rest : ∀ result later, Endures hasher earlier subject world later →
      (continuation result).Valid (authHandle hasher) (enduring hasher earlier subject)
        (calmly fun outcome _ => answers outcome) later) :
    (program >>= continuation).Valid (authHandle hasher) (enduring hasher earlier subject)
      (calmly fun outcome _ => answers outcome) world :=
  leaving_valid_bind (issues.mono fun _ => leavesUsers_of_besidesUsers)
    (fun error _ => fails error) rest

theorem recordFailure_besidesUsers (ip key : String) (moment : Timestamp) :
    (PostgresLoginAttemptRepo.recordFailure ip key moment).Issues AuthCommand.besidesUsers :=
  Program.issues_ask trivial fun _ => Program.issues_done _

theorem purgeBefore_besidesUsers (cutoff : Timestamp) :
    (PostgresLoginAttemptRepo.purgeBefore cutoff).Issues AuthCommand.besidesUsers :=
  Program.issues_ask trivial fun _ => Program.issues_done _

theorem onError_valid (limits : ThrottleLimits) (ip key : String) (error : Raised)
    {answers : Except Raised Identity → Prop} (fails : ∀ error, answers (.error error)) :
    (ThrottledAuthenticator.onError limits ip key error).Valid (authHandle hasher)
      (enduring hasher earlier subject) (calmly fun outcome _ => answers outcome) world := by
  unfold ThrottledAuthenticator.onError
  have reads : AuthCommand.now.besidesUsers := trivial
  split
  · refine besides_valid_bind (Program.issues_perform reads) fails fun failedAt _ _ => ?_
    refine besides_valid_bind (recordFailure_besidesUsers ip key failedAt) fails fun _ _ _ => ?_
    refine besides_valid_bind (purgeBefore_besidesUsers _) fails fun _ _ _ => ?_
    exact Program.valid_done fun _ _ _ => fails error
  · exact Program.valid_done fun _ _ _ => fails error

/-- A login through the throttle is refused, or answered as the one it wraps. -/
theorem throttledLogin_valid (sound : hasher.Sound) (dummyHash : String)
    (limits : ThrottleLimits) {credentials : Credentials} {answers : Except Raised Identity → Prop}
    (fails : ∀ error, answers (.error error))
    (decides : Decides unicode hasher earlier subject credentials answers world) :
    (ThrottledAuthenticator.authenticate limits
      (PasswordAuthenticator.authenticate unicode hasher dummyHash) credentials).Valid
        (authHandle hasher) (enduring hasher earlier subject)
        (calmly fun outcome _ => answers outcome) world := by
  unfold ThrottledAuthenticator.authenticate
  simp only
  split
  · exact login_valid sound decides
  have reads : AuthCommand.now.besidesUsers := trivial
  refine besides_valid_bind (Program.issues_perform reads) fails fun checkedAt middle before => ?_
  refine besides_valid_bind (countFailures_besidesUsers _ _ _) fails
    fun failures later further => ?_
  unfold ThrottledAuthenticator.attempt
  split
  · have reports : (AuthCommand.emit (loginThrottled limits)).besidesUsers := trivial
    exact besides_valid_bind (Program.issues_perform reports) fails fun _ _ _ =>
      Program.valid_done fun _ _ _ => fails _
  have caught : (tryCatch (PasswordAuthenticator.authenticate unicode hasher dummyHash credentials)
      (ThrottledAuthenticator.onError limits credentials.ip
        (normalizeEmail credentials.email))).Valid (authHandle hasher)
          (enduring hasher earlier subject) (calmly fun outcome _ => answers outcome) later :=
    (login_valid sound (decides.later (before.trans further))).catching
      (fun _ _ _ calm => calm) (fun _ _ _ _ _ => trivial) (fun _ _ _ answered => answered)
      fun error _ _ _ => onError_valid limits _ _ error fails
  refine caught.bind (fun _ _ _ calm => calm) (fun _ _ _ _ _ => trivial) ?_
    fun error _ _ _ => fails error
  intro identity later _ answered
  exact besides_valid_bind (onSuccess_besidesUsers _ _ failures) fails fun _ _ _ =>
    Program.valid_done fun _ _ _ => answered

/-- A user whose hash is opened by the password of the registration. -/
def Enrolled (hasher : Hasher) (earlier : List Uuid) (subject : Uuid) (user : RegisteredUser)
    (secret : String) (world : AuthWorld) : Prop :=
  user.id ∉ earlier ∧ ∃ row ∈ world.users, row.id = user.id ∧ row.email = user.email ∧
    (user.id = subject → row.isActive = true) ∧ row.Opens hasher secret

theorem Enrolled.later {user : RegisteredUser} {later : AuthWorld}
    (enrolled : Enrolled hasher earlier subject user secret world)
    (evolved : Endures hasher earlier subject world later) :
    Enrolled hasher earlier subject user secret later := by
  obtain ⟨new, row, stored, id, email, active, opens⟩ := enrolled
  obtain ⟨kept, stored', survives⟩ := evolved row stored
  refine ⟨new, kept, stored', survives.id.trans id, survives.email.trans email, ?_, ?_⟩
  · exact fun own => survives.active (id.trans own) (active own)
  · exact survives.opens (id ▸ new) secret opens

/-- A user that is stored with the hash of a password is opened by it. -/
theorem create_valid (sound : hasher.Sound) {user : User} (secret salt : String)
    (own : user.passwordHash = hasher.hash salt secret) (active : user.isActive = true) :
    (PostgresUserRepo.create user).Valid (authHandle hasher) (enduring hasher earlier subject)
      (calmly fun outcome later => outcome = .ok () →
        Enrolled hasher earlier subject ⟨user.id, user.email⟩ secret later) world := by
  refine Program.valid_ask fun later _ guarded env calm => ?_
  rcases inserted : later.insertUser env user with error | ⟨⟨⟩, after⟩
  · have handled : authHandle hasher (.insertUser user) env later = (.error error, later) := by
      simp only [authHandle, transacting_calm calm, inserted]
    rw [handled]
    refine ⟨guarded, .refl _, trivial, ?_⟩
    rcases error with constraint | ⟨⟨⟩⟩
    · exact Program.valid_done fun _ _ _ => by rintro ⟨⟩
    · exact Program.valid_done fun _ _ _ => by rintro ⟨⟩
    · exact Program.valid_done fun _ _ _ => by rintro ⟨⟩
    · exact Program.valid_done fun _ _ _ => by rintro ⟨⟩
  · have handled : authHandle hasher (.insertUser user) env later = (.ok (), after) := by
      simp only [authHandle, transacting_calm calm, inserted]
    rw [handled]
    obtain ⟨idFree, emailFree, rfl⟩ := insertUser_ok_iff.mp inserted
    have opens : (UserModel.ofUser user env.dbNow).Opens hasher secret := opens_hash sound own
    obtain ⟨new, kept, moved⟩ := guarded.insert idFree emailFree opens
    refine ⟨kept, moved, trivial, Program.valid_done fun last further _ _ => ?_⟩
    have enrolled : Enrolled hasher earlier subject ⟨user.id, user.email⟩ secret
        { later with users := later.users ++ [UserModel.ofUser user env.dbNow] } :=
      ⟨new, _, List.mem_append_right _ (List.mem_singleton_self _), rfl, rfl, fun _ => active,
        opens⟩
    exact enrolled.later further

theorem store_valid (sound : hasher.Sound) {email password : String}
    (normalized : normalizeEmail email = email) :
    (store email password).Valid (authHandle hasher) (enduring hasher earlier subject)
      (calmly fun outcome later => ∀ user, outcome = .ok user → user.email = email ∧
        Enrolled hasher earlier subject user password later) world := by
  unfold store
  refine leaving_valid_bind ?_ (by rintro error later user ⟨⟩) fun existing middle _ => ?_
  · refine Program.Issues.bind (Program.issues_ask (leavesUsers_selectUsers _)
      fun _ => Program.issues_done _) fun rows => ?_
    exact Program.Issues.bind (Program.issues_done _) fun _ => Program.issues_done _
  cases existing with
  | some other => exact Program.valid_done fun _ _ _ => by rintro user ⟨⟩
  | none =>
    refine Program.valid_ask fun first _ guarded env _ => ⟨guarded, .refl _, trivial, ?_⟩
    refine Program.valid_ask fun second _ guarded env' _ => ⟨guarded, .refl _, trivial, ?_⟩
    refine Program.valid_ask fun third _ guarded env'' _ => ?_
    have reads : AuthCommand.now.besidesUsers := trivial
    obtain ⟨kept, moved⟩ := guarded.same (leavesUsers_of_besidesUsers reads env'' third)
    refine ⟨kept, moved, trivial, ?_⟩
    refine (create_valid sound password env.salt rfl rfl).bind
      (fun _ _ _ calm => calm) (fun _ _ _ _ _ => trivial) ?_ (by rintro error later _ _ user ⟨⟩)
    rintro ⟨⟩ fourth _ created
    have reports : ∀ id, (AuthCommand.emit (userRegistered id)).besidesUsers := fun _ => trivial
    refine leaving_valid_bind (Program.issues_perform (leavesUsers_of_besidesUsers (reports _)))
      (by rintro error later user ⟨⟩) fun _ fifth further => ?_
    refine Program.valid_done fun last further' _ => ?_
    rintro user ⟨⟩
    exact ⟨normalized, ((created rfl).later further).later further'⟩

/-- What a registration promises: its user is stored under the email that was accepted, and the
password that was accepted opens it. -/
theorem register_valid (sound : hasher.Sound) (data : RegisterInput) :
    (register unicode data).Valid (authHandle hasher) (enduring hasher earlier subject)
      (calmly fun outcome later => ∀ user, outcome = .ok user →
        ∃ password, checkInput unicode data = .ok (user.email, password) ∧
          Enrolled hasher earlier subject user password later) world := by
  unfold register
  cases accepted : checkInput unicode data with
  | error error => exact Program.valid_done fun _ _ _ => by rintro user ⟨⟩
  | ok proper =>
    obtain ⟨email, password⟩ := proper
    have normalized : normalizeEmail email = email := by
      rw [(checkInput_ok accepted).1]
      exact normalizeEmail_idempotent data.email
    refine (store_valid sound normalized).mono (fun _ _ _ calm => calm) (fun _ _ _ _ _ => trivial)
      fun outcome later _ stored user same => ?_
    obtain ⟨rfl, enrolled⟩ := stored user same
    exact ⟨password, rfl, enrolled⟩

end Programs

/-! ### Runs -/

/-- How a login with a registered email is answered: with the id of the user if the password is the
registered one, and with an error if it is another. A throttle may refuse either. -/
def AuthCall.Answered (unicode : Unicode) (data : RegisterInput) (id : Uuid) (call : AuthCall)
    (outcome : Except Raised AuthResponse) : Prop :=
  ∀ credentials, call.credentials? = some credentials →
    normalizeEmail credentials.email = normalizeEmail data.email →
      (call = .login credentials → credentials.password.length ≤ maxPasswordLength →
        normalizePassword unicode credentials.password = normalizePassword unicode data.password →
          outcome = .ok (.identified ⟨id⟩)) ∧
      (normalizePassword unicode credentials.password ≠ normalizePassword unicode data.password →
        ∃ error, outcome = .error error)

/-- What a registration that returns promises. -/
def AuthCall.Registers (unicode : Unicode) (hasher : Hasher) (earlier : List Uuid) (subject : Uuid)
    (call : AuthCall) (outcome : Except Raised AuthResponse) (world : AuthWorld) : Prop :=
  ∀ data user, call = .register data → outcome = .ok (.registered user) →
    ∃ password, checkInput unicode data = .ok (user.email, password) ∧
      Enrolled hasher earlier subject user password world

/-- A program whose steps are taken while a user stays active. -/
def undisturbed (hasher : Hasher) (subject : Uuid)
    (ensures : Except Raised AuthResponse → AuthWorld → Prop) :
    Task AuthCommand AuthReply Raised AuthResponse AuthEnv AuthWorld where
  permits := StaysActive hasher subject
  shows _ _ _ _ := True
  ensures := ensures

section Runs

variable {unicode : Unicode} {hasher : Hasher} {earlier : List Uuid} {subject : Uuid}
  {world : AuthWorld} {dummyHash : String}

theorem checkPassword_ok {raw password : String}
    (accepted : checkPassword unicode raw = .ok password) :
    password = normalizePassword unicode raw ∧ password ≠ "" ∧
      password.length ≤ maxPasswordLength := by
  unfold checkPassword at accepted
  simp only at accepted
  split at accepted
  · cases accepted
  split at accepted
  · cases accepted
  rename_i present
  split at accepted
  · cases accepted
  split at accepted
  · cases accepted
  rename_i short
  rw [← Except.ok.inj accepted]
  exact ⟨rfl, present, not_lt.mp short⟩

/-- Whoever is enrolled decides what a login with the same email is answered. -/
theorem Enrolled.decides {data : RegisterInput} {user : RegisteredUser} {password : String}
    (accepted : checkInput unicode data = .ok (user.email, password))
    (enrolled : Enrolled hasher earlier user.id user password world) {credentials : Credentials}
    (same : normalizeEmail credentials.email = normalizeEmail data.email) :
    Decides unicode hasher earlier user.id credentials (fun outcome =>
      (credentials.password.length ≤ maxPasswordLength →
        normalizePassword unicode credentials.password = normalizePassword unicode data.password →
          outcome = .ok ⟨user.id⟩) ∧
      (normalizePassword unicode credentials.password ≠ normalizePassword unicode data.password →
        ∃ error, outcome = .error error)) world := by
  obtain ⟨email, wellFormed, checked⟩ := checkInput_ok accepted
  obtain ⟨normalized, present, short⟩ := checkPassword_ok checked
  refine ⟨fun long => ?_, fun later evolved guarded closed => ?_,
    fun later evolved guarded row member own opened => ?_⟩
  · rw [same, ← email] at long
    exact absurd (length_of_isWellFormedEmail wellFormed) (not_le.mpr long)
  · refine ⟨fun shortRaw equal => ?_, fun _ => ⟨_, rfl⟩⟩
    obtain ⟨_, row, member, id, own, active, opens⟩ := enrolled.later evolved
    rw [← normalized] at equal
    have opened : row.admits unicode hasher credentials = true := by
      refine admits_iff.mpr ⟨shortRaw, ?_, ?_, ?_, active rfl⟩
      · rwa [equal]
      · rwa [equal]
      · exact (opens _).mpr equal
    rw [closed row member (own.trans (email.trans same.symm))] at opened
    cases opened
  · obtain ⟨_, stored, member', id, own', _, opens⟩ := enrolled.later evolved
    have identical := guarded.keyed.eq_of_email member' member
      (own'.trans (email.trans (same.symm.trans own.symm)))
    subst identical
    refine ⟨fun _ _ => by rw [id], fun different => ?_⟩
    obtain ⟨_, _, _, verified, _⟩ := admits_iff.mp opened
    exact absurd (((opens _).mp verified).trans normalized) different

/-- A change of the active flag during which the user stays active. -/
theorem keeps_updateIsActive {id : Uuid} {isActive : Bool} {env : AuthEnv}
    (guarded : Guarded hasher earlier world)
    (stays : StaysActive hasher subject world (.updateIsActive id isActive) env) :
    Guarded hasher earlier (authHandle hasher (.updateIsActive id isActive) env world).2 ∧
      Endures hasher earlier subject world
        (authHandle hasher (.updateIsActive id isActive) env world).2 := by
  obtain ⟨calm, active⟩ := stays
  have handled : (authHandle hasher (.updateIsActive id isActive) env world).2 = { world with
      users := changeUser id (fun row => { row with isActive }) world.users } := by
    simp only [authHandle, transacting_calm_ok calm, AuthWorld.updateUser]
    rfl
  rw [handled] at active ⊢
  refine guarded.change id (fun row => { row with isActive }) (fun _ => ⟨rfl, rfl⟩) ?_
  intro row member same
  have changed : { row with isActive } ∈
      changeUser id (fun row => { row with isActive }) world.users :=
    mem_changeUser.mpr ⟨row, member, by rw [if_pos same]⟩
  exact ⟨rfl, rfl, fun own _ => active _ changed own, fun _ _ opens => opens⟩

theorem setActive_valid (id : Uuid) (isActive : Bool)
    {ensures : Except Raised AuthResponse → AuthWorld → Prop}
    (always : ∀ outcome later, ensures outcome later) :
    ((AuthCall.setActive id isActive).program unicode hasher dummyHash).Valid (authHandle hasher)
      (enduring hasher earlier subject) (undisturbed hasher subject ensures) world := by
  have issues : ((AuthCall.setActive id isActive).program unicode hasher dummyHash).Issues
      fun command => command = .updateIsActive id isActive := by
    refine Program.Issues.bind ?_ fun _ => Program.issues_done _
    refine Program.Issues.bind (Program.issues_ask rfl fun _ => Program.issues_done _) fun _ => ?_
    exact Program.issues_done _
  refine issues.valid ?_ (fun _ _ _ _ _ _ _ => trivial) always
  rintro command env later rfl guarded stays
  exact keeps_updateIsActive guarded stays

/-- What a program that is valid while storage does not fail answers, as a response. -/
theorem responds_valid {Result : Type} {program : AuthAction Result}
    {respond : Result → AuthResponse} {promised : Except Raised Result → AuthWorld → Prop}
    {ensures : Except Raised AuthResponse → AuthWorld → Prop}
    (valid : program.Valid (authHandle hasher) (enduring hasher earlier subject)
      (calmly promised) world)
    (succeeds : ∀ result later last, Endures hasher earlier subject later last →
      promised (.ok result) later → ensures (.ok (respond result)) last)
    (fails : ∀ error later, promised (.error error) later → ensures (.error error) later) :
    (program >>= fun result => (.done (.ok (respond result)) : AuthAction AuthResponse)).Valid
      (authHandle hasher) (enduring hasher earlier subject) (calmly ensures) world :=
  valid.bind (fun _ _ _ calm => calm) (fun _ _ _ _ _ => trivial)
    (fun result later _ kept => Program.valid_done fun last evolved _ =>
      succeeds result later last evolved kept)
    fun error later _ kept => fails error later kept

/-- What is known of logins whoever is registered. -/
theorem decides_nothing (credentials : Credentials) :
    Decides unicode hasher earlier subject credentials (fun _ => True) world :=
  ⟨fun _ => trivial, fun _ _ _ _ => trivial, fun _ _ _ _ _ _ _ => trivial⟩

theorem calmly_undisturbed {program : AuthAction AuthResponse}
    {ensures : Except Raised AuthResponse → AuthWorld → Prop}
    (valid : program.Valid (authHandle hasher) (enduring hasher earlier subject) (calmly ensures)
      world) :
    program.Valid (authHandle hasher) (enduring hasher earlier subject)
      (undisturbed hasher subject ensures) world :=
  valid.mono (fun _ _ _ stays => stays.1) (fun _ _ _ _ _ => trivial) fun _ _ _ kept => kept

/-- Every call keeps what is known of the users, and a registration keeps its promise. -/
theorem AuthCall.valid (sound : hasher.Sound) (call : AuthCall) :
    (call.program unicode hasher dummyHash).Valid (authHandle hasher)
      (enduring hasher earlier subject)
      (undisturbed hasher subject (call.Registers unicode hasher earlier subject)) world := by
  cases call with
  | register data =>
    refine calmly_undisturbed (responds_valid (register_valid sound data) ?_ ?_)
    · rintro result later last evolved promised _ user ⟨⟩ ⟨⟩
      obtain ⟨password, accepted, enrolled⟩ := promised _ rfl
      exact ⟨password, accepted, enrolled.later evolved⟩
    · rintro error later _ _ user _ ⟨⟩
  | login credentials =>
    refine calmly_undisturbed (responds_valid
      (login_valid sound (decides_nothing credentials)) ?_ ?_)
    · rintro result later last _ _ _ user ⟨⟩
    · rintro error later _ _ user ⟨⟩
  | throttledLogin limits credentials =>
    refine calmly_undisturbed (responds_valid (throttledLogin_valid sound dummyHash limits
      (fun _ => trivial) (decides_nothing credentials)) ?_ ?_)
    · rintro result later last _ _ _ user ⟨⟩
    · rintro error later _ _ user ⟨⟩
  | setActive id isActive =>
    refine setActive_valid id isActive fun outcome later data user same => ?_
    cases same

/-- After the registration, every later call answers as the registered password demands. -/
theorem answered_valid (sound : hasher.Sound) (dummyHash : String) {data : RegisterInput}
    {user : RegisteredUser} {password : String}
    (accepted : checkInput unicode data = .ok (user.email, password))
    (enrolled : Enrolled hasher earlier user.id user password world) (call : AuthCall)
    (login : ∃ credentials, call.credentials? = some credentials ∧
      normalizeEmail credentials.email = normalizeEmail data.email) :
    (call.program unicode hasher dummyHash).Valid (authHandle hasher)
      (enduring hasher earlier user.id)
      (calmly fun outcome _ => call.Answered unicode data user.id outcome) world := by
  obtain ⟨credentials, presents, same⟩ := login
  cases call with
  | register | setActive => cases presents
  | login presented =>
    cases presents
    refine responds_valid (login_valid sound (enrolled.decides accepted same)) ?_ ?_
    · rintro result later last _ ⟨admits, refuses⟩ _ ⟨⟩ _
      refine ⟨fun _ short equal => ?_, fun different => ?_⟩
      · obtain ⟨⟩ := admits short equal
        rfl
      · obtain ⟨error, ⟨⟩⟩ := refuses different
    · rintro error later ⟨admits, refuses⟩ _ ⟨⟩ _
      refine ⟨fun _ short equal => ?_, fun different => ⟨error, rfl⟩⟩
      cases admits short equal
  | throttledLogin limits presented =>
    cases presents
    have decides : Decides unicode hasher earlier user.id credentials (fun outcome =>
        normalizePassword unicode credentials.password ≠ normalizePassword unicode data.password →
          ∃ error, outcome = .error error) world :=
      ⟨fun _ _ => ⟨_, rfl⟩, fun _ _ _ _ _ => ⟨_, rfl⟩,
        fun later evolved guarded row member own opened =>
          ((enrolled.decides accepted same).admits later evolved guarded row member own opened).2⟩
    have login := throttledLogin_valid sound dummyHash limits (fun error _ => ⟨error, rfl⟩) decides
    refine responds_valid login ?_ ?_
    · rintro result later last _ refuses _ ⟨⟩ _
      refine ⟨by rintro ⟨⟩, fun different => ?_⟩
      obtain ⟨error, ⟨⟩⟩ := refuses different
    · rintro error later _ _ ⟨⟩ _
      exact ⟨by rintro ⟨⟩, fun _ => ⟨error, rfl⟩⟩

variable {Thread : Type} [DecidableEq Thread] {calls : Thread → AuthCall}
  {start middle last : Pool Thread AuthCommand AuthReply Raised AuthResponse AuthWorld}

/-- Whoever has registered can log in. After a registration has returned, and while its user stays
active, every login with the email of the registration, however typed, that begins afterwards is
answered with the id of the user if the password is the registered one, however typed, and never
succeeds with another one, whatever registrations, logins and changes of the active flag run next
to it. Run on its own after any of this, it returns so. -/
theorem register_then_login (sound : hasher.Sound) (keyed : Keyed start.state.users)
    (begins : ∀ thread, start.threads thread = (calls thread).program unicode hasher dummyHash)
    {registering : Thread} {data : RegisterInput} {user : RegisteredUser}
    (registers : calls registering = .register data)
    (before : Reaches (authHandle hasher) (fun state _ => StaysActive hasher user.id state) start
      middle)
    (registered : middle.threads registering = .done (.ok (.registered user)))
    (after : Reaches (authHandle hasher) (fun state _ => StaysActive hasher user.id state) middle
      last) :
    (∀ thread, middle.threads thread = (calls thread).program unicode hasher dummyHash →
      ∀ outcome, last.threads thread = .done outcome →
        (calls thread).Answered unicode data user.id outcome) ∧
    ∀ call envs, (∀ step, (envs step).fault = none) →
      AuthCall.Answered unicode data user.id call
        ((call.program unicode hasher dummyHash).run (authHandle hasher) envs last.state).1 := by
  have guarded : Guarded hasher (start.state.users.map UserModel.id) start.state :=
    ⟨keyed, fun id old => List.mem_map.mp old,
      fun row member new => absurd (List.mem_map_of_mem member) new⟩
  have valid : start.Valid (authHandle hasher)
      (enduring hasher (start.state.users.map UserModel.id) user.id) fun thread =>
        undisturbed hasher user.id ((calls thread).Registers unicode hasher
          (start.state.users.map UserModel.id) user.id) := by
    refine ⟨guarded, fun thread => ?_⟩
    rw [begins thread]
    exact AuthCall.valid sound (calls thread)
  obtain ⟨validMiddle, _⟩ := Reaches.valid valid before
  obtain ⟨password, accepted, enrolled⟩ :=
    validMiddle.ensures registered data user registers rfl
  -- From the registration on, whoever logs in is held to more.
  have validLate : middle.Valid (authHandle hasher)
      (enduring hasher (start.state.users.map UserModel.id) user.id) fun thread =>
        undisturbed hasher user.id fun outcome _ =>
          middle.threads thread = (calls thread).program unicode hasher dummyHash →
            (calls thread).Answered unicode data user.id outcome := by
    refine ⟨validMiddle.invariant, fun thread => ?_⟩
    by_cases fresh : middle.threads thread = (calls thread).program unicode hasher dummyHash ∧
        ∃ credentials, (calls thread).credentials? = some credentials ∧
          normalizeEmail credentials.email = normalizeEmail data.email
    · have own := calmly_undisturbed
        (answered_valid sound dummyHash accepted enrolled (calls thread) fresh.2)
      rw [← fresh.1] at own
      exact own.mono (fun _ _ _ stays => stays) (fun _ _ _ _ _ => trivial)
        fun _ _ _ answered _ => answered
    · exact (validMiddle.threads thread).mono (fun _ _ _ stays => stays) (fun _ _ _ _ _ => trivial)
        fun _ _ _ _ begun credentials presents same =>
          absurd ⟨begun, credentials, presents, same⟩ fresh
  obtain ⟨validLast, evolved⟩ := Reaches.valid validLate after
  refine ⟨fun thread begun outcome ended => validLast.ensures ended begun,
    fun call envs calm credentials presents same => ?_⟩
  have alone := answered_valid sound dummyHash accepted (enrolled.later evolved) call
    ⟨credentials, presents, same⟩
  obtain ⟨_, _, answered⟩ := alone.runs validLast.invariant (fun _ _ _ calm => calm)
    (runs_run envs (fun _ _ step => calm step) (call.program unicode hasher dummyHash) last.state)
  exact answered credentials presents same

end Runs

/-- A hasher that is never content with the parameters of a hash. -/
def Hasher.restless : Hasher := { Hasher.plain with needsRehash := fun _ => true }

theorem Hasher.restless_sound : Hasher.restless.Sound := Hasher.plain_sound

/-- What Ann registers with. -/
def annRegisters : RegisterInput := ⟨" Ann@Example.org", "correct horse"⟩

/-- A registration, a login with another spelling of what was registered, and a wrong guess. -/
def visitorCalls : Nat → AuthCall
  | 0 => .register annRegisters
  | 1 => .login ⟨"ANN@example.org ", " correct horse", none⟩
  | _ => .throttledLogin .strict ⟨"ann@example.org", "battery staple", none⟩

/-- The three calls, none of which has begun. -/
def visitors : Pool Nat AuthCommand AuthReply Raised AuthResponse AuthWorld where
  state := .empty
  threads := fun thread => (visitorCalls thread).program .ascii .restless "dummy"

/-- The registration runs to its end. -/
def registrationTurns : List (Nat × AuthEnv) := List.replicate 6 (0, .calm 0 "salt" "zero")

/-- The guess runs while the login is about to replace the hash. -/
def loginTurns : List (Nat × AuthEnv) :=
  List.replicate 2 (1, .calm 1 "pepper" "") ++ List.replicate 7 (2, .calm 1 "" "") ++
    List.replicate 2 (1, .calm 1 "pepper" "")

/-- Ann is registered. -/
def registeredVisitors : Pool Nat AuthCommand AuthReply Raised AuthResponse AuthWorld :=
  visitors.execute (authHandle .restless) registrationTurns

/-- Everybody is served. -/
def servedVisitors : Pool Nat AuthCommand AuthReply Raised AuthResponse AuthWorld :=
  registeredVisitors.execute (authHandle .restless) loginTurns

/-- Both logins end, as the registration demands. -/
theorem register_then_login_of_visitors :
    (∃ outcome, servedVisitors.threads 1 = .done outcome ∧
      (visitorCalls 1).Answered .ascii annRegisters "zero" outcome) ∧
    ∃ outcome, servedVisitors.threads 2 = .done outcome ∧
      (visitorCalls 2).Answered .ascii annRegisters "zero" outcome := by
  have keyed : Keyed visitors.state.users := ⟨List.nodup_nil, List.nodup_nil⟩
  have begins : ∀ thread, visitors.threads thread =
      (visitorCalls thread).program .ascii .restless "dummy" := fun thread => by
    simp only [visitors]
  have registered : registeredVisitors.threads 0 =
      .done (.ok (.registered ⟨"zero", "ann@example.org"⟩)) :=
    Program.outcome?_eq_some_iff.mp (by decide +kernel)
  have before : Reaches (authHandle .restless) (fun state _ => StaysActive .restless "zero" state)
      visitors registeredVisitors := reaches_execute registrationTurns (by decide +kernel)
  have after : Reaches (authHandle .restless) (fun state _ => StaysActive .restless "zero" state)
      registeredVisitors servedVisitors := reaches_execute loginTurns (by decide +kernel)
  have answers := (register_then_login Hasher.restless_sound keyed begins rfl before registered
    after).1
  have waits : ∀ thread, thread ≠ 0 →
      registeredVisitors.threads thread = visitors.threads thread := by
    intro thread other
    refine Pool.execute_untouched (fun move member => ?_) visitors
    rw [(List.mem_replicate.mp member).2]
    exact other.symm
  have answered : ∀ thread, thread ≠ 0 → (servedVisitors.threads thread).ended = true →
      ∃ outcome, servedVisitors.threads thread = .done outcome ∧
        (visitorCalls thread).Answered .ascii annRegisters "zero" outcome := by
    intro thread other finished
    obtain ⟨outcome, ended⟩ := Program.ended_iff.mp finished
    exact ⟨outcome, ended,
      answers thread ((waits thread other).trans (begins thread)) outcome ended⟩
  exact ⟨answered 1 one_ne_zero (by decide +kernel), answered 2 two_ne_zero (by decide +kernel)⟩

end Trutina
