/-
This file proves that logging in does not tell whether an email is registered.
Two stores of users differ in the record of one email, and no password that is
tried for it logs in under either of them. Any sequence of attempts through the
throttle then looks the same over both: the outcomes, the table of failed logins,
and how often a password is verified or hashed. Each attempt is run over both
stores at once, and the two programs are twins: whether the email is unknown, its
user disabled or the password wrong, one hash is verified and one error raised.
-/

import Trutina.Authentication
import Trutina.Twins

namespace Trutina

open Interaction

/-! ### What can be seen -/

/-- One attempt: what is presented, and the conditions of its steps. -/
structure Guess where
  credentials : Credentials
  envs : Nat → AuthEnv

/-- What can be seen of an attempt: its outcome, how often it verified and hashed a password, and
the table of failed logins after it. -/
structure Sight where
  outcome : Except Raised Identity
  verifications : Nat
  hashes : Nat
  loginAttempts : List LoginAttemptModel
  deriving DecidableEq

def AuthCommand.isVerify : AuthCommand → Bool
  | .verify _ _ => true
  | _ => false

def AuthCommand.isHash : AuthCommand → Bool
  | .hash _ => true
  | _ => false

/-- Serve one attempt. -/
def Guess.observe (hasher : Hasher) (login : Credentials → AuthAction Identity) (guess : Guess)
    (world : AuthWorld) : Sight × AuthWorld :=
  let (outcome, after) := (login guess.credentials).run (authHandle hasher) guess.envs world
  let commands := (login guess.credentials).asked (authHandle hasher) guess.envs world
  (⟨outcome, commands.countP AuthCommand.isVerify, commands.countP AuthCommand.isHash,
    after.loginAttempts⟩, after)

/-- Serve the attempts one after another. -/
def observe (hasher : Hasher) (login : Credentials → AuthAction Identity) :
    List Guess → AuthWorld → List Sight
  | [], _ => []
  | guess :: rest, world =>
    (guess.observe hasher login world).1 ::
      observe hasher login rest (guess.observe hasher login world).2

/-! ### Stores that differ in one email -/

/-- Whether a password that is presented logs a user in. -/
def UserModel.admits (unicode : Unicode) (hasher : Hasher) (row : UserModel)
    (credentials : Credentials) : Bool :=
  let secret := normalizePassword unicode credentials.password
  decide (credentials.password.length ≤ maxPasswordLength) && decide (secret ≠ "") &&
    decide (secret.length ≤ maxPasswordLength) && hasher.verify secret row.passwordHash &&
    row.isActive

/-- The rows of all other emails. -/
def othersThan (email : String) (users : List UserModel) : List UserModel :=
  users.filter fun row => decide (row.email ≠ email)

/-- Two stores that differ in the record of one email at most, which none of the credentials that
are tried opens. -/
structure Apart (unicode : Unicode) (hasher : Hasher) (email : String) (tried : List Credentials)
    (left right : AuthWorld) : Prop where
  keyedLeft : Keyed left.users
  keyedRight : Keyed right.users
  others : othersThan email left.users = othersThan email right.users
  shut : ∀ credentials ∈ tried, normalizeEmail credentials.email = email →
    ∀ row, row ∈ left.users ∨ row ∈ right.users → row.email = email →
      row.admits unicode hasher credentials = false
  loginAttempts : left.loginAttempts = right.loginAttempts
  events : left.events = right.events
  clock : left.clock = right.clock

/-- Commands that cannot be told apart by their number of verifications and hashes: they are equal,
or verify one password against two hashes. -/
def Alike (left right : AuthCommand) : Prop :=
  left = right ∨ ∃ password first second, left = .verify password first ∧
    right = .verify password second

/-- A step at which storage does not fail. -/
def Calm (env : AuthEnv) : Prop := env.fault = none

/-- A command that has nothing to do with the table of users. -/
def AuthCommand.besidesUsers : AuthCommand → Prop
  | .selectUsers _ => False
  | .insertUser _ => False
  | .updatePasswordHash _ _ => False
  | .updateIsActive _ _ => False
  | _ => True

section Apart

variable {unicode : Unicode} {hasher : Hasher} {email : String} {tried : List Credentials}
  {left right : AuthWorld}

/-- Whatever has nothing to do with the users is answered alike. -/
theorem Apart.answers (apart : Apart unicode hasher email tried left right)
    {command : AuthCommand} (besides : command.besidesUsers) {env : AuthEnv} (calm : Calm env) :
    (authHandle hasher command env left).1 = (authHandle hasher command env right).1 ∧
      Apart unicode hasher email tried (authHandle hasher command env left).2
        (authHandle hasher command env right).2 := by
  obtain ⟨keyedLeft, keyedRight, others, shut, loginAttempts, events, clock⟩ := apart
  cases command with
  | selectUsers | insertUser | updatePasswordHash | updateIsActive => cases besides
  | uuid4 | hash | verify | authenticate =>
    exact ⟨rfl, ⟨keyedLeft, keyedRight, others, shut, loginAttempts, events, clock⟩⟩
  | now => exact ⟨rfl, ⟨keyedLeft, keyedRight, others, shut, loginAttempts, events, rfl⟩⟩
  | emit event =>
    exact ⟨rfl, ⟨keyedLeft, keyedRight, others, shut, loginAttempts,
      congrArg (· ++ [event]) events, clock⟩⟩
  | countAttempts ip emailKey since =>
    simp only [authHandle, transacting_calm_ok calm, loginAttempts]
    exact ⟨trivial, ⟨keyedLeft, keyedRight, others, shut, loginAttempts, events, clock⟩⟩
  | insertAttempt | deleteAttempts | deleteAttemptsBefore =>
    simp only [authHandle, transacting_calm_ok calm, loginAttempts]
    exact ⟨trivial, ⟨keyedLeft, keyedRight, others, shut, rfl, events, clock⟩⟩

theorem Apart.twins (apart : Apart unicode hasher email tried left right)
    {Result : Type} {program : AuthAction Result}
    (issues : program.Issues AuthCommand.besidesUsers) :
    program.Twins (authHandle hasher) Calm Alike (Apart unicode hasher email tried) left program
      right :=
  issues.twins (fun _ => .inl rfl)
    (fun _ _ _ _ besides calm apart => apart.answers besides calm) apart

/-! ### One login over both stores -/

/-- A refusal verifies one hash and raises the one error, whoever is refused. -/
theorem checkUser_refused (dummyHash : String) {secret : String} {found : Option User}
    (refused : ∀ user, found = some user →
      hasher.verify secret user.passwordHash = false ∨ user.isActive = false) :
    ∃ passwordHash next,
      PasswordAuthenticator.checkUser hasher dummyHash secret found =
          .ask (.verify secret passwordHash) next ∧
        next (hasher.verify secret passwordHash) = .done (.error invalidCredentials) := by
  cases found with
  | none => exact ⟨dummyHash, fun _ => .done (.error invalidCredentials), rfl, rfl⟩
  | some user =>
    refine ⟨user.passwordHash, _, rfl, ?_⟩
    exact if_pos (refused user rfl)

/-- Two refusals are twins. -/
theorem Apart.twins_refused (apart : Apart unicode hasher email tried left right)
    {dummyHash secret : String} {one other : Option User}
    (refusedOne : ∀ user, one = some user →
      hasher.verify secret user.passwordHash = false ∨ user.isActive = false)
    (refusedOther : ∀ user, other = some user →
      hasher.verify secret user.passwordHash = false ∨ user.isActive = false) :
    (PasswordAuthenticator.checkUser hasher dummyHash secret one).Twins (authHandle hasher) Calm
      Alike (Apart unicode hasher email tried) left
      (PasswordAuthenticator.checkUser hasher dummyHash secret other) right := by
  obtain ⟨oneHash, oneNext, oneAsks, oneEnds⟩ := checkUser_refused dummyHash refusedOne
  obtain ⟨otherHash, otherNext, otherAsks, otherEnds⟩ := checkUser_refused dummyHash refusedOther
  rw [oneAsks, otherAsks]
  refine .ask (.inr ⟨secret, oneHash, otherHash, rfl, rfl⟩) fun env _ => ?_
  have oneEnds' : oneNext (authHandle hasher (.verify secret oneHash) env left).1 = _ := oneEnds
  have otherEnds' : otherNext (authHandle hasher (.verify secret otherHash) env right).1 = _ :=
    otherEnds
  rw [oneEnds', otherEnds']
  exact .done _ apart

theorem mem_othersThan {users : List UserModel} {row : UserModel} :
    row ∈ othersThan email users ↔ row ∈ users ∧ row.email ≠ email := by
  rw [othersThan, List.mem_filter, decide_eq_true_eq]

theorem othersThan_changeUser {users : List UserModel} {id : Uuid}
    {change : UserModel → UserModel} (keeps : KeepsKeys change) :
    othersThan email (changeUser id change users) =
      changeUser id change (othersThan email users) := by
  rw [othersThan, othersThan, changeUser, changeUser, List.filter_map]
  refine congrArg _ (List.filter_congr fun row _ => ?_)
  simp only [Function.comp]
  split
  · rw [(keeps row).2]
  · rfl

/-- A row of one email is not touched by a change of a user with another one. -/
theorem mem_of_mem_changeUser {users : List UserModel} (keyed : Keyed users)
    {change : UserModel → UserModel} (keeps : KeepsKeys change) {row target : UserModel}
    (present : target ∈ users) (other : target.email ≠ email)
    (member : row ∈ changeUser target.id change users) (own : row.email = email) : row ∈ users := by
  obtain ⟨before, stored, rfl⟩ := mem_changeUser.mp member
  by_cases same : before.id = target.id
  · rw [if_pos same, (keeps before).2] at own
    exact absurd (keyed.eq_of_id stored present same ▸ own) other
  · rw [if_neg same]
    exact stored

/-- Replacing the hash of another user keeps the stores apart in one email only. -/
theorem Apart.update (apart : Apart unicode hasher email tried left right) {row : UserModel}
    (present : row ∈ othersThan email left.users) (passwordHash : String) {env : AuthEnv}
    (calm : Calm env) :
    (authHandle hasher (.updatePasswordHash row.id passwordHash) env left).1 =
        (authHandle hasher (.updatePasswordHash row.id passwordHash) env right).1 ∧
      Apart unicode hasher email tried
        (authHandle hasher (.updatePasswordHash row.id passwordHash) env left).2
        (authHandle hasher (.updatePasswordHash row.id passwordHash) env right).2 := by
  obtain ⟨inLeft, other⟩ := mem_othersThan.mp present
  obtain ⟨inRight, _⟩ := mem_othersThan.mp (apart.others ▸ present)
  have keeps : KeepsKeys fun row => { row with passwordHash } := fun _ => ⟨rfl, rfl⟩
  have foundLeft : (left.users.any fun stored => stored.id == row.id) = true :=
    List.any_eq_true.mpr ⟨row, inLeft, beq_self_eq_true _⟩
  have foundRight : (right.users.any fun stored => stored.id == row.id) = true :=
    List.any_eq_true.mpr ⟨row, inRight, beq_self_eq_true _⟩
  simp only [authHandle, transacting_calm_ok calm, AuthWorld.updateUser, foundLeft, foundRight]
  refine ⟨trivial, ⟨apart.keyedLeft.changeUser keeps, apart.keyedRight.changeUser keeps, ?_, ?_,
    apart.loginAttempts, apart.events, apart.clock⟩⟩
  · have changed := congrArg (changeUser row.id fun row => { row with passwordHash }) apart.others
    rwa [← othersThan_changeUser keeps, ← othersThan_changeUser keeps] at changed
  · intro credentials member same stored either own
    refine apart.shut credentials member same stored (either.imp ?_ ?_) own
    · exact fun changed => mem_of_mem_changeUser apart.keyedLeft keeps inLeft other changed own
    · exact fun changed => mem_of_mem_changeUser apart.keyedRight keeps inRight other changed own

/-- A user whom both stores have gets the same answer from both. -/
theorem Apart.twins_known (apart : Apart unicode hasher email tried left right) {row : UserModel}
    (present : row ∈ othersThan email left.users) (dummyHash secret : String) :
    (PasswordAuthenticator.checkUser hasher dummyHash secret
        (some (PostgresUserRepo.toDomain row))).Twins (authHandle hasher) Calm Alike
      (Apart unicode hasher email tried) left
      (PasswordAuthenticator.checkUser hasher dummyHash secret
        (some (PostgresUserRepo.toDomain row))) right := by
  have updated : ∀ passwordHash, (PostgresUserRepo.updatePasswordHash row.id passwordHash).Twins
      (authHandle hasher) Calm Alike (Apart unicode hasher email tried) left
      (PostgresUserRepo.updatePasswordHash row.id passwordHash) right := by
    refine fun passwordHash => .ask (.inl rfl) fun env calm => ?_
    obtain ⟨same, still⟩ := apart.update present passwordHash calm
    rw [same]
    rcases (authHandle hasher (.updatePasswordHash row.id passwordHash) env right).1 with
      error | found
    · exact .done _ still
    · exact .done _ still
  have admitted : ∀ verified, (PasswordAuthenticator.grant hasher secret
      (PostgresUserRepo.toDomain row) verified).Twins (authHandle hasher) Calm Alike
        (Apart unicode hasher email tried) left
        (PasswordAuthenticator.grant hasher secret (PostgresUserRepo.toDomain row) verified)
        right := by
    intro verified
    unfold PasswordAuthenticator.grant
    split
    · exact .done _ apart
    refine Program.Twins.bind ?_ fun _ _ _ apart => .done _ apart
    unfold PasswordAuthenticator.refreshHash
    split
    · exact .ask (.inl rfl) fun env _ => updated _
    · exact .done _ apart
  exact .ask (.inl rfl) fun env _ => admitted _

/-- Whoever is found under the email in question is refused. -/
theorem Apart.refused (apart : Apart unicode hasher email tried left right)
    {credentials : Credentials} (member : credentials ∈ tried)
    (own : normalizeEmail credentials.email = email)
    (shortRaw : credentials.password.length ≤ maxPasswordLength)
    (present : normalizePassword unicode credentials.password ≠ "")
    (short : (normalizePassword unicode credentials.password).length ≤ maxPasswordLength)
    {row : UserModel} (stored : row ∈ left.users ∨ row ∈ right.users) (same : row.email = email) :
    ∀ user, some (PostgresUserRepo.toDomain row) = some user →
      hasher.verify (normalizePassword unicode credentials.password) user.passwordHash = false ∨
        user.isActive = false := by
  rintro user ⟨⟩
  have closed := apart.shut credentials member own row stored same
  simp only [UserModel.admits, decide_eq_true shortRaw, decide_eq_true present,
    decide_eq_true short, Bool.true_and, Bool.and_eq_false_iff] at closed
  exact closed

/-- One login through the inner authenticator looks the same over both stores. -/
theorem Apart.twins_login (apart : Apart unicode hasher email tried left right)
    {credentials : Credentials} (member : credentials ∈ tried) (dummyHash : String) :
    (PasswordAuthenticator.authenticate unicode hasher dummyHash credentials).Twins
      (authHandle hasher) Calm Alike (Apart unicode hasher email tried) left
      (PasswordAuthenticator.authenticate unicode hasher dummyHash credentials) right := by
  have idempotent := normalizeEmail_idempotent credentials.email
  unfold PasswordAuthenticator.authenticate
  simp only
  split
  · exact .done _ apart
  rename_i shortRaw
  split
  · exact .done _ apart
  rename_i proper
  split
  · exact .done _ apart
  obtain ⟨present, short⟩ := not_or.mp proper
  simp only [PostgresUserRepo.getByEmail, bind_assoc, Program.ask_bind]
  refine .ask (.inl rfl) fun env calm => ?_
  obtain ⟨one, foundOne, inLeft, _⟩ := apart.keyedLeft.lookup (normalizeEmail credentials.email)
  obtain ⟨other, foundOther, inRight, _⟩ :=
    apart.keyedRight.lookup (normalizeEmail credentials.email)
  simp only [authHandle, transacting_calm_ok calm, idempotent, executed_ok, Program.ok_bind,
    foundOne, foundOther, Program.lift_eq, Program.pure_eq]
  by_cases own : normalizeEmail credentials.email = email
  · refine apart.twins_refused ?_ ?_
    · cases one with
      | none => rintro user ⟨⟩
      | some row =>
        obtain ⟨stored, same⟩ := inLeft row rfl
        exact apart.refused member own (not_lt.mp shortRaw) present (not_lt.mp short)
          (.inl stored) (same.trans own)
    · cases other with
      | none => rintro user ⟨⟩
      | some row =>
        obtain ⟨stored, same⟩ := inRight row rfl
        exact apart.refused member own (not_lt.mp shortRaw) present (not_lt.mp short)
          (.inr stored) (same.trans own)
  · -- Both stores have the same rows under every other email.
    have rows : ∀ users : List UserModel,
        (users.filter fun row => decide (row.email = normalizeEmail credentials.email)) =
          (othersThan email users).filter fun row =>
            decide (row.email = normalizeEmail credentials.email) := by
      intro users
      rw [othersThan, List.filter_filter]
      refine List.filter_congr fun row _ => ?_
      by_cases same : row.email = normalizeEmail credentials.email
      · simp [same, own]
      · simp [same]
    have both : (Except.ok one : Except Raised (Option UserModel)) = .ok other := by
      rw [← foundOne, ← foundOther, rows, rows right.users, apart.others]
    cases both
    cases one with
    | none => exact apart.twins_refused (by rintro user ⟨⟩) (by rintro user ⟨⟩)
    | some row =>
      obtain ⟨stored, same⟩ := inLeft row rfl
      exact apart.twins_known (mem_othersThan.mpr ⟨stored, same ▸ own⟩) dummyHash _

/-! ### One attempt through the throttle -/

theorem countFailures_besidesUsers (ip key : String) (since : Timestamp) :
    (PostgresLoginAttemptRepo.countFailures ip key since).Issues AuthCommand.besidesUsers :=
  Program.issues_ask trivial fun _ => Program.issues_done _

theorem onError_besidesUsers (limits : ThrottleLimits) (ip key : String) (error : Raised) :
    (ThrottledAuthenticator.onError limits ip key error).Issues AuthCommand.besidesUsers := by
  unfold ThrottledAuthenticator.onError
  split
  · refine (Program.issues_perform trivial).bind fun moment => ?_
    refine Program.Issues.bind (Program.issues_ask trivial fun _ => Program.issues_done _)
      fun _ => ?_
    exact Program.Issues.bind (Program.issues_ask trivial fun _ => Program.issues_done _)
      fun _ => Program.issues_done _
  · exact Program.issues_done _

theorem onSuccess_besidesUsers (ip key : String) (failures : Nat) :
    (ThrottledAuthenticator.onSuccess ip key failures).Issues AuthCommand.besidesUsers := by
  unfold ThrottledAuthenticator.onSuccess
  split
  · exact Program.issues_done _
  · exact Program.issues_ask trivial fun _ => Program.issues_done _

/-- One attempt through the throttle looks the same over both stores. -/
theorem Apart.twins_attempt (apart : Apart unicode hasher email tried left right)
    {credentials : Credentials} (member : credentials ∈ tried) (limits : ThrottleLimits)
    (dummyHash : String) :
    (ThrottledAuthenticator.authenticate limits
        (PasswordAuthenticator.authenticate unicode hasher dummyHash) credentials).Twins
      (authHandle hasher) Calm Alike (Apart unicode hasher email tried) left
      (ThrottledAuthenticator.authenticate limits
        (PasswordAuthenticator.authenticate unicode hasher dummyHash) credentials) right := by
  unfold ThrottledAuthenticator.authenticate
  simp only
  split
  · exact apart.twins_login member dummyHash
  have reads : AuthCommand.now.besidesUsers := trivial
  refine (apart.twins (Program.issues_perform reads)).bind fun checkedAt _ _ apart => ?_
  refine (apart.twins (countFailures_besidesUsers _ _ _)).bind fun failures _ _ apart => ?_
  unfold ThrottledAuthenticator.attempt
  split
  · have reports : (AuthCommand.emit (loginThrottled limits)).besidesUsers := trivial
    exact apart.twins ((Program.issues_perform reports).bind fun _ => Program.issues_done _)
  refine ((apart.twins_login member dummyHash).catching fun error _ _ apart =>
    apart.twins (onError_besidesUsers limits _ _ error)).bind fun identity _ _ apart => ?_
  exact (apart.twins (onSuccess_besidesUsers _ _ failures)).bind fun _ _ _ apart => .done _ apart

end Apart

/-! ### Sequences of attempts -/

section Observe

variable {unicode : Unicode} {hasher : Hasher} {email : String} {tried : List Credentials}
  {left right : AuthWorld}

theorem count_eq_of_alike {commands others : List AuthCommand}
    (alike : List.Forall₂ Alike commands others) :
    commands.countP AuthCommand.isVerify = others.countP AuthCommand.isVerify ∧
      commands.countP AuthCommand.isHash = others.countP AuthCommand.isHash := by
  induction alike with
  | nil => exact ⟨rfl, rfl⟩
  | cons same _ inductionHypothesis =>
    obtain ⟨verifications, hashes⟩ := inductionHypothesis
    rw [List.countP_cons, List.countP_cons, List.countP_cons, List.countP_cons, verifications,
      hashes]
    rcases same with rfl | ⟨password, first, second, rfl, rfl⟩
    · exact ⟨rfl, rfl⟩
    · exact ⟨rfl, rfl⟩

/-- Twins look the same. -/
theorem Guess.observe_of_twins {guess : Guess} {login : Credentials → AuthAction Identity}
    (twins : (login guess.credentials).Twins (authHandle hasher) Calm Alike
      (Apart unicode hasher email tried) left (login guess.credentials) right)
    (calm : ∀ step, Calm (guess.envs step)) :
    (guess.observe hasher login left).1 = (guess.observe hasher login right).1 ∧
      Apart unicode hasher email tried (guess.observe hasher login left).2
        (guess.observe hasher login right).2 := by
  obtain ⟨outcome, still, commands⟩ := twins.run calm
  obtain ⟨verifications, hashes⟩ := count_eq_of_alike commands
  refine ⟨?_, still⟩
  simp only [Guess.observe, outcome, verifications, hashes, still.loginAttempts]

theorem Apart.observe_all (apart : Apart unicode hasher email tried left right)
    (limits : ThrottleLimits) (dummyHash : String) (guesses : List Guess)
    (members : ∀ guess ∈ guesses, guess.credentials ∈ tried)
    (calm : ∀ guess ∈ guesses, ∀ step, Calm (guess.envs step)) :
    let login := ThrottledAuthenticator.authenticate limits
      (PasswordAuthenticator.authenticate unicode hasher dummyHash)
    Trutina.observe hasher login guesses left = Trutina.observe hasher login guesses right := by
  intro login
  induction guesses generalizing left right with
  | nil => rfl
  | cons guess rest inductionHypothesis =>
    obtain ⟨same, still⟩ := Guess.observe_of_twins
      (apart.twins_attempt (members guess List.mem_cons_self) limits dummyHash)
      (calm guess List.mem_cons_self)
    rw [Trutina.observe, Trutina.observe, same]
    refine congrArg (List.cons _) (inductionHypothesis still ?_ ?_)
    · exact fun guess member => members guess (List.mem_cons_of_mem _ member)
    · exact fun guess member => calm guess (List.mem_cons_of_mem _ member)

/-- Two stores that differ in the record of one email at most, which no password tried for it opens,
cannot be told apart: any sequence of attempts has the same outcomes, the same table of failed
logins after each, and the same numbers of verifications and hashes. -/
theorem logins_resist_enumeration (unicode : Unicode) (hasher : Hasher) (dummyHash : String)
    (limits : ThrottleLimits) (email : String) (world : AuthWorld) (left right : List UserModel)
    (guesses : List Guess) (calm : ∀ guess ∈ guesses, ∀ step, (guess.envs step).fault = none)
    (keyedLeft : Keyed left) (keyedRight : Keyed right)
    (others : othersThan email left = othersThan email right)
    (shut : ∀ guess ∈ guesses, normalizeEmail guess.credentials.email = email →
      ∀ row, row ∈ left ∨ row ∈ right → row.email = email →
        row.admits unicode hasher guess.credentials = false) :
    let login := ThrottledAuthenticator.authenticate limits
      (PasswordAuthenticator.authenticate unicode hasher dummyHash)
    observe hasher login guesses { world with users := left } =
      observe hasher login guesses { world with users := right } := by
  have apart : Apart unicode hasher email (guesses.map Guess.credentials)
      { world with users := left } { world with users := right } := by
    refine ⟨keyedLeft, keyedRight, others, ?_, rfl, rfl, rfl⟩
    intro credentials member
    obtain ⟨guess, guessed, rfl⟩ := List.mem_map.mp member
    exact shut guess guessed
  exact apart.observe_all limits dummyHash guesses
    (fun guess member => List.mem_map_of_mem member) calm

end Observe

/-- A user with a given password hash. -/
def UserModel.sample (email passwordHash : String) (isActive : Bool) : UserModel where
  id := email
  email := email
  passwordHash := passwordHash
  isActive := isActive
  createdAt := 0

/-- A disabled user whose password is known looks like no user at all. -/
theorem logins_resist_enumeration_of_disabled :
    let login := ThrottledAuthenticator.authenticate .strict
      (PasswordAuthenticator.authenticate .ascii .plain "dummy")
    let guess : Guess := ⟨⟨"A@B ", "password", none⟩, fun _ => .calm 0 "" ""⟩
    observe .plain login [guess, guess] { AuthWorld.empty with users := [] } =
      observe .plain login [guess, guess]
        { AuthWorld.empty with users := [.sample "a@b" "password" false] } := by
  intro login guess
  refine logins_resist_enumeration .ascii .plain "dummy" .strict "a@b" .empty [] _ [guess, guess]
    ?_ ⟨List.nodup_nil, List.nodup_nil⟩ ⟨List.nodup_singleton _, List.nodup_singleton _⟩
    (by decide +kernel) ?_
  · intro tried member step
    rw [List.mem_cons, List.mem_singleton, or_self] at member
    rw [member]
    rfl
  · intro tried member _ row either _
    rw [List.mem_cons, List.mem_singleton, or_self] at member
    rw [member]
    rcases either with nowhere | stored
    · cases nowhere
    · rw [List.mem_singleton.mp stored]
      decide +kernel

end Trutina
