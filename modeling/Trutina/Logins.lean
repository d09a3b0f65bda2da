/-
This file proves that nobody is let in by mistake. In every interleaving of
registrations, logins, throttled logins and changes of the active flag, whatever
fails and whatever the hasher answers, a login that is granted has looked its
email up itself, has found there an active user, and has verified its password
against the hash it found. So when a user has been disabled, no login that starts
afterwards is granted until someone enables the user again.
-/

import Trutina.LoginRuns

namespace Trutina

open Interaction RegistrationService

/-! ### What a login sees -/

/-- The rows a login has looked up last, and the checks of passwords that have passed. -/
structure Evidence where
  rows : List UserModel
  verified : List (String × String)

def Evidence.none : Evidence := ⟨[], []⟩

/-- What a login has seen after one more command. -/
def Evidence.after (evidence : Evidence) : (command : AuthCommand) → AuthReply command → Evidence
  | .selectUsers _, .ok rows => { evidence with rows }
  | .verify password passwordHash, true =>
    { evidence with verified := (password, passwordHash) :: evidence.verified }
  | _, _ => evidence

/-- The monitor of a login with an email, which looks up nothing else. -/
def evidenceMonitor (email : String) : Monitor AuthCommand AuthReply Evidence where
  allows _ command := ∀ other, command = .selectUsers other → other = email
  next := Evidence.after

/-- What a login must have seen when it is granted: an active user among the rows, and its password
verified against that user's hash. -/
def Justified (unicode : Unicode) (credentials : Credentials) (evidence : Evidence) :
    Except Raised Identity → Prop
  | .error _ => True
  | .ok identity => ∃ row ∈ evidence.rows, row.isActive = true ∧ identity = ⟨row.id⟩ ∧
      credentials.password.length ≤ maxPasswordLength ∧
      normalizePassword unicode credentials.password ≠ "" ∧
      (normalizePassword unicode credentials.password).length ≤ maxPasswordLength ∧
      (normalizePassword unicode credentials.password, row.passwordHash) ∈ evidence.verified

section Programs

variable {unicode : Unicode} {hasher : Hasher} {dummyHash secret email : String}
  {credentials : Credentials} {evidence : Evidence}

/-- A command that looks up and verifies nothing. -/
def AuthCommand.Blind : AuthCommand → Prop
  | .selectUsers _ => False
  | .verify _ _ => False
  | _ => True

theorem AuthCommand.Blind.still {command : AuthCommand} (blind : command.Blind)
    (evidence : Evidence) :
    (evidenceMonitor email).allows evidence command ∧
      ∀ reply, (evidenceMonitor email).next evidence command reply = evidence := by
  cases command with
  | selectUsers other => exact blind.elim
  | verify password passwordHash => exact blind.elim
  | _ => exact ⟨nofun, fun _ => rfl⟩

/-- The update of an outdated hash sees nothing. -/
theorem refreshHash_issues (user : User) :
    (PasswordAuthenticator.refreshHash hasher secret user).Issues AuthCommand.Blind := by
  unfold PasswordAuthenticator.refreshHash
  split
  · refine Program.Issues.bind (Program.issues_perform trivial) fun passwordHash => ?_
    refine Program.Issues.bind (Program.issues_ask trivial fun _ => Program.issues_done _)
      fun found => Program.issues_done _
  · exact Program.issues_done _

/-- A user who is found is let in when active and verified. -/
theorem grant_justified {row : UserModel} {verified : Bool} (found : row ∈ evidence.rows)
    (raw : credentials.password.length ≤ maxPasswordLength)
    (present : normalizePassword unicode credentials.password ≠ "")
    (short : (normalizePassword unicode credentials.password).length ≤ maxPasswordLength)
    (seen : verified = true →
      (normalizePassword unicode credentials.password, row.passwordHash) ∈ evidence.verified) :
    (PasswordAuthenticator.grant hasher secret (PostgresUserRepo.toDomain row) verified).Conforms
      (evidenceMonitor email) (Justified unicode credentials) evidence := by
  unfold PasswordAuthenticator.grant
  split
  · exact Program.conforms_done trivial
  · rename_i passed
    obtain ⟨passed, active⟩ := not_or.mp passed
    refine (refreshHash_issues _).conforms_bind (fun _ blind => blind.still _) (fun _ => trivial)
      fun _ => Program.conforms_done ?_
    exact ⟨row, found, Bool.not_eq_false _ ▸ active, rfl, raw, present, short,
      seen (Bool.not_eq_false _ ▸ passed)⟩

/-- A password login is granted only to a user it has seen. -/
theorem authenticate_justified (credentials : Credentials) (evidence : Evidence) :
    (PasswordAuthenticator.authenticate unicode hasher dummyHash credentials).Conforms
      (evidenceMonitor (normalizeEmail credentials.email)) (Justified unicode credentials)
      evidence := by
  unfold PasswordAuthenticator.authenticate
  simp only
  split
  · exact Program.conforms_done trivial
  rename_i shortRaw
  split
  · exact Program.conforms_done trivial
  rename_i proper
  split
  · exact Program.conforms_done trivial
  obtain ⟨present, short⟩ := not_or.mp proper
  have verifies : ∀ hash password, (evidenceMonitor (normalizeEmail credentials.email)).allows
      evidence (.verify hash password) := fun _ _ _ same => by cases same
  simp only [PostgresUserRepo.getByEmail, bind_assoc, Program.ask_bind]
  refine Program.conforms_ask (fun other same =>
    (AuthCommand.selectUsers.inj same).symm.trans (normalizeEmail_idempotent _)) ?_
  rintro (error | rows)
  · exact Program.conforms_done trivial
  rcases rows with _ | ⟨row, _ | ⟨other, rest⟩⟩
  · -- Nobody is found: the dummy hash is verified, and the login is refused anyway.
    exact Program.conforms_ask (verifies _ _) fun _ => Program.conforms_done trivial
  · refine Program.conforms_ask (verifies _ _) fun verified => ?_
    refine grant_justified ?_ (not_lt.mp shortRaw) present (not_lt.mp short) fun passed => ?_
    · cases verified <;> exact List.mem_cons_self
    · subst passed
      exact List.mem_cons_self
  · exact Program.conforms_done trivial

theorem recordFailure_blind (ip email : String) (moment : Timestamp) :
    (PostgresLoginAttemptRepo.recordFailure ip email moment).Issues AuthCommand.Blind :=
  Program.issues_ask trivial fun _ => Program.issues_done _

theorem purgeBefore_blind (cutoff : Timestamp) :
    (PostgresLoginAttemptRepo.purgeBefore cutoff).Issues AuthCommand.Blind :=
  Program.issues_ask trivial fun _ => Program.issues_done _

theorem countFailures_blind (ip email : String) (since : Timestamp) :
    (PostgresLoginAttemptRepo.countFailures ip email since).Issues AuthCommand.Blind :=
  Program.issues_ask trivial fun _ => Program.issues_done _

/-- What is done about a failed login sees nothing and grants nothing. -/
theorem onError_justified (limits : ThrottleLimits) (ip key : String) (error : Raised)
    (evidence : Evidence) :
    (ThrottledAuthenticator.onError limits ip key error).Conforms (evidenceMonitor email)
      (Justified unicode credentials) evidence := by
  have blind : ∀ command : AuthCommand, command.Blind →
      (evidenceMonitor email).allows evidence command ∧
        ∀ reply, (evidenceMonitor email).next evidence command reply = evidence :=
    fun _ blind => blind.still evidence
  unfold ThrottledAuthenticator.onError
  split
  · refine (Program.issues_perform trivial).conforms_bind blind (fun _ => trivial) fun _ => ?_
    refine (recordFailure_blind _ _ _).conforms_bind blind (fun _ => trivial) fun _ => ?_
    refine (purgeBefore_blind _).conforms_bind blind (fun _ => trivial) fun _ => ?_
    exact Program.conforms_done trivial
  · exact Program.conforms_done trivial

/-- The throttle grants only what the password login grants. -/
theorem throttled_justified (limits : ThrottleLimits) (credentials : Credentials) :
    (ThrottledAuthenticator.authenticate limits
      (PasswordAuthenticator.authenticate unicode hasher dummyHash) credentials).Conforms
        (evidenceMonitor (normalizeEmail credentials.email)) (Justified unicode credentials)
        .none := by
  have blind : ∀ (evidence : Evidence) (command : AuthCommand), command.Blind →
      (evidenceMonitor (normalizeEmail credentials.email)).allows evidence command ∧
        ∀ reply, (evidenceMonitor (normalizeEmail credentials.email)).next evidence command
          reply = evidence :=
    fun evidence _ blind => blind.still evidence
  unfold ThrottledAuthenticator.authenticate
  simp only
  split
  · exact authenticate_justified credentials .none
  refine (Program.issues_perform trivial).conforms_bind (blind _) (fun _ => trivial) fun _ => ?_
  refine (countFailures_blind _ _ _).conforms_bind (blind _) (fun _ => trivial) fun failures => ?_
  unfold ThrottledAuthenticator.attempt
  split
  · exact (Program.issues_perform trivial).conforms_bind (blind _) (fun _ => trivial)
      fun _ => Program.conforms_done trivial
  · refine ((authenticate_justified credentials .none).catching (fun _ _ justified => justified)
      fun evidence error _ => onError_justified limits _ _ error evidence).bind
        (fun evidence identity justified => ?_) fun _ _ _ => trivial
    have clears : (ThrottledAuthenticator.onSuccess credentials.ip
        (normalizeEmail credentials.email) failures).Issues AuthCommand.Blind := by
      unfold ThrottledAuthenticator.onSuccess
      split
      · exact Program.issues_done _
      · exact Program.issues_ask trivial fun _ => Program.issues_done _
    exact clears.conforms_bind (blind _) (fun _ => trivial)
      fun _ => Program.conforms_done justified

end Programs

/-! ### Logins in a run -/

/-- What a call for a login must have seen when it is granted. -/
def JustifiedResponse (unicode : Unicode) (credentials : Credentials) (evidence : Evidence) :
    Except Raised AuthResponse → Prop
  | .ok (.identified identity) => Justified unicode credentials evidence (.ok identity)
  | _ => True

/-- Every call for a login is granted only to a user it has seen. -/
theorem login_justified {unicode : Unicode} {hasher : Hasher} {dummyHash : String}
    {call : AuthCall} {credentials : Credentials}
    (presents : call.credentials? = some credentials) :
    (call.program unicode hasher dummyHash).Conforms
      (evidenceMonitor (normalizeEmail credentials.email))
      (JustifiedResponse unicode credentials) .none := by
  have granted : ∀ {login : AuthAction Identity},
      login.Conforms (evidenceMonitor (normalizeEmail credentials.email))
        (Justified unicode credentials) .none →
      (login >>= fun identity => return .identified identity : AuthAction AuthResponse).Conforms
        (evidenceMonitor (normalizeEmail credentials.email))
        (JustifiedResponse unicode credentials) .none :=
    fun login => login.bind (fun _ _ justified => Program.conforms_done justified)
      fun _ _ _ => trivial
  cases call with
  | register data => cases presents
  | setActive id isActive => cases presents
  | login presented =>
    cases presents
    exact granted (authenticate_justified credentials .none)
  | throttledLogin limits presented =>
    cases presents
    exact granted (throttled_justified limits credentials)

section Runs

variable {Thread : Type} [DecidableEq Thread] {unicode : Unicode} {hasher : Hasher}
  {dummyHash : String}
  {permits : List (Move Thread AuthCommand AuthEnv AuthWorld) →
    Pool Thread AuthCommand AuthReply Raised AuthResponse AuthWorld →
      Move Thread AuthCommand AuthEnv AuthWorld → Prop}
  {start pool : Pool Thread AuthCommand AuthReply Raised AuthResponse AuthWorld}
  {trace : List (Move Thread AuthCommand AuthEnv AuthWorld)} {thread : Thread}

/-- What a login has seen is there: it has asked for its checks and they have passed, and its rows
were stored under its email when it looked them up. -/
structure Evidence.Backed (hasher : Hasher) (email : String) (thread : Thread)
    (trace : List (Move Thread AuthCommand AuthEnv AuthWorld)) (evidence : Evidence) : Prop where
  verified : ∀ check ∈ evidence.verified, hasher.verify check.1 check.2 = true ∧
    ∃ move ∈ trace, move.thread = thread ∧ move.command = .verify check.1 check.2
  rows : ∀ row ∈ evidence.rows, ∃ move ∈ trace, move.thread = thread ∧
    move.command = .selectUsers email ∧ row ∈ move.before.users ∧ row.email = email

omit [DecidableEq Thread] in
theorem Evidence.Backed.append {email : String} {evidence : Evidence}
    (backed : evidence.Backed hasher email thread trace)
    (move : Move Thread AuthCommand AuthEnv AuthWorld) :
    evidence.Backed hasher email thread (trace ++ [move]) where
  verified check member := by
    obtain ⟨passed, earlier, listed, found⟩ := backed.verified check member
    exact ⟨passed, earlier, List.mem_append_left _ listed, found⟩
  rows row member := by
    obtain ⟨earlier, listed, found⟩ := backed.rows row member
    exact ⟨earlier, List.mem_append_left _ listed, found⟩

omit [DecidableEq Thread] in
/-- What a move of the login adds is there too. -/
theorem Evidence.Backed.after {email : String} {evidence : Evidence}
    (backed : evidence.Backed hasher email thread trace)
    {move : Move Thread AuthCommand AuthEnv AuthWorld} (own : move.thread = thread)
    (allowed : (evidenceMonitor email).allows evidence move.command) :
    (evidence.after move.command (move.reply (authHandle hasher))).Backed hasher email thread
      (trace ++ [move]) := by
  obtain ⟨mover, command, env, before⟩ := move
  have earlier := backed.append ⟨mover, command, env, before⟩
  cases command with
  | selectUsers other =>
    obtain rfl := allowed other rfl
    rcases transacting_cases env before
        (.ok (before.users.filter fun row => decide (row.email = other), before)) with
      ⟨⟨error, failed⟩, _⟩ | ⟨rows, after, _, found, answered⟩
    · have reply : Move.reply (authHandle hasher) ⟨mover, .selectUsers other, env, before⟩ =
          .error error := failed
      rw [reply]
      exact earlier
    · have reply : Move.reply (authHandle hasher) ⟨mover, .selectUsers other, env, before⟩ =
          .ok rows := congrArg Prod.fst answered
      cases found
      rw [reply]
      refine ⟨earlier.verified, fun row member => ?_⟩
      obtain ⟨stored, same⟩ := List.mem_filter.mp member
      exact ⟨_, List.mem_append_right _ List.mem_cons_self, own, rfl, stored,
        of_decide_eq_true same⟩
  | verify password passwordHash =>
    have reply : Move.reply (authHandle hasher)
        ⟨mover, .verify password passwordHash, env, before⟩ =
          hasher.verify password passwordHash := rfl
    rw [reply]
    cases passed : hasher.verify password passwordHash with
    | false => exact earlier
    | true =>
      refine ⟨fun check member => ?_, earlier.rows⟩
      rcases List.mem_cons.mp member with rfl | before
      · exact ⟨passed, _, List.mem_append_right _ List.mem_cons_self, own, rfl⟩
      · exact earlier.verified check before
  | _ => exact earlier

/-- A login that is granted has seen what it must have seen, and that was there. -/
theorem justified_of_walks (walks : Walks (authHandle hasher) permits start trace pool)
    {call : AuthCall} {credentials : Credentials}
    (presents : call.credentials? = some credentials)
    (begins : start.threads thread = call.program unicode hasher dummyHash) {identity : Identity}
    (granted : pool.threads thread = .done (.ok (.identified identity))) :
    ∃ evidence : Evidence,
      evidence.Backed hasher (normalizeEmail credentials.email) thread trace ∧
        Justified unicode credentials evidence (.ok identity) := by
  have conforms : (start.threads thread).Conforms
      (evidenceMonitor (normalizeEmail credentials.email))
      (JustifiedResponse unicode credentials) .none := begins ▸ login_justified presents
  have backed := Walks.observes
    (fun trace evidence => evidence.Backed hasher (normalizeEmail credentials.email) thread trace)
    ⟨nofun, nofun⟩ (fun _ _ move _ backed => backed.append move)
    (fun _ _ _ own backed allowed => backed.after own allowed) conforms walks fun _ _ _ => trivial
  have justified := walks.conforms _ _ _ thread conforms fun _ _ _ => trivial
  rw [granted] at justified
  exact ⟨_, backed, justified.promised⟩

/-- In every run of calls, a login that is granted has looked its email up at one of its own steps
and has found an active user there; at another it has had its password verified against the stored
hash of that user, which it opens; and that user is who it is granted to. -/
theorem logins_justified (walks : Walks (authHandle hasher) permits start trace pool)
    {call : AuthCall} {credentials : Credentials}
    (presents : call.credentials? = some credentials)
    (begins : start.threads thread = call.program unicode hasher dummyHash) {identity : Identity}
    (granted : pool.threads thread = .done (.ok (.identified identity))) :
    ∃ move ∈ trace, move.thread = thread ∧
      move.command = .selectUsers (normalizeEmail credentials.email) ∧
      ∃ row ∈ move.before.users, row.email = normalizeEmail credentials.email ∧
        row.admits unicode hasher credentials = true ∧ identity = ⟨row.id⟩ ∧
        ∃ check ∈ trace, check.thread = thread ∧ check.command =
          .verify (normalizePassword unicode credentials.password) row.passwordHash := by
  obtain ⟨evidence, backed, row, found, active, same, raw, present, short, verified⟩ :=
    justified_of_walks walks presents begins granted
  obtain ⟨move, listed, own, looked, stored, email⟩ := backed.rows row found
  obtain ⟨passed, check⟩ := backed.verified _ verified
  exact ⟨move, listed, own, looked, row, stored, email,
    admits_iff.mpr ⟨raw, present, short, passed, active⟩, same, check⟩

/-! ### Disabled users -/

/-- A user is stored, and not active. -/
def Disabled (subject : Uuid) (users : List UserModel) : Prop :=
  (∃ row ∈ users, row.id = subject) ∧ ∀ row ∈ users, row.id = subject → row.isActive = false

/-- Only a command that enables a user changes that the user is disabled. -/
theorem Disabled.step {subject : Uuid} {users after : List UserModel} {command : AuthCommand}
    (disabled : Disabled subject users) (step : UsersStep users command after)
    (other : command ≠ .updateIsActive subject true) : Disabled subject after := by
  obtain ⟨⟨row, stored, own⟩, inactive⟩ := disabled
  have changed : ∀ {id : Uuid} {change : UserModel → UserModel}, KeepsKeys change →
      (id = subject → ∀ before, before.isActive = false → (change before).isActive = false) →
      Disabled subject (changeUser id change users) := by
    intro id change keeps shut
    have ids : ∀ before : UserModel, (if before.id = id then change before else before).id =
        before.id := fun before => by
      split
      · exact (keeps before).1
      · rfl
    refine ⟨⟨_, mem_changeUser.mpr ⟨row, stored, rfl⟩, (ids row).trans own⟩,
      fun later member same => ?_⟩
    obtain ⟨before, present, rfl⟩ := mem_changeUser.mp member
    rw [ids before] at same
    split
    · rename_i target
      exact shut (target.symm.trans same) before (inactive before present same)
    · exact inactive before present same
  cases step with
  | same => exact ⟨⟨row, stored, own⟩, inactive⟩
  | insert user createdAt idFree emailFree =>
    refine ⟨⟨row, List.mem_append_left _ stored, own⟩, fun later member same => ?_⟩
    rcases List.mem_append.mp member with earlier | new
    · exact inactive later earlier same
    · rw [List.mem_singleton.mp new] at same
      exact absurd (own.trans same.symm) (idFree row stored)
  | updatePasswordHash id passwordHash => exact changed (fun _ => ⟨rfl, rfl⟩) fun _ _ same => same
  | updateIsActive id isActive =>
    refine changed (fun _ => ⟨rfl, rfl⟩) fun target _ _ => ?_
    cases isActive with
    | false => rfl
    | true => exact absurd (congrArg (AuthCommand.updateIsActive · true) target) other

/-- An update that disables a user and finds it leaves the user disabled. -/
theorem disabled_of_update {subject : Uuid} {env : AuthEnv} {world : AuthWorld}
    (found : (authHandle hasher (.updateIsActive subject false) env world).1 = .ok true) :
    Disabled subject (authHandle hasher (.updateIsActive subject false) env world).2.users := by
  rcases transacting_cases env world
      (.ok (world.updateUser subject fun row => { row with isActive := false })) with
    ⟨⟨error, failed⟩, _⟩ | ⟨value, after, _, updated, answered⟩
  · cases found.symm.trans failed
  · have reply : authHandle hasher (.updateIsActive subject false) env world = (.ok value, after) :=
      answered
    rw [reply] at found ⊢
    cases found
    obtain ⟨present, same⟩ := Prod.mk.inj (Except.ok.inj updated)
    obtain ⟨row, stored, own⟩ := List.any_eq_true.mp present
    have users : after.users =
        changeUser subject (fun row => { row with isActive := false }) world.users := by
      rw [← same]
      rfl
    rw [users]
    refine ⟨⟨_, mem_changeUser.mpr ⟨row, stored, rfl⟩, ?_⟩, fun later member own => ?_⟩
    · rw [if_pos (beq_iff_eq.mp own)]
      exact beq_iff_eq.mp own
    · obtain ⟨before, _, rfl⟩ := mem_changeUser.mp member
      by_cases target : before.id = subject
      · rw [if_pos target]
      · rw [if_neg target] at own
        exact absurd own target

/-- While nobody enables a user, a disabled user stays disabled. -/
def disabling (subject : Uuid) : Regime AuthWorld where
  invariant _ := True
  evolves first second := Disabled subject first.users → Disabled subject second.users
  refl _ disabled := disabled
  trans before next disabled := next (before disabled)

/-- A call for disabling a user leaves the user disabled when it returns. -/
def disables (subject : Uuid) :
    Task AuthCommand AuthReply Raised AuthResponse AuthEnv AuthWorld where
  permits _ command _ := command ≠ .updateIsActive subject true
  shows _ _ _ _ := True
  ensures outcome world := outcome = .ok .changed → Disabled subject world.users

theorem disabling_step (subject : Uuid) (command : AuthCommand) (env : AuthEnv)
    (world : AuthWorld) (other : command ≠ .updateIsActive subject true) :
    (disabling subject).evolves world (authHandle hasher command env world).2 :=
  fun disabled => disabled.step (usersStep hasher command env world) other

theorem setActive_disables (subject : Uuid) (world : AuthWorld) :
    ((AuthCall.setActive subject false).program unicode hasher dummyHash).Valid
      (authHandle hasher) (disabling subject) (disables subject) world := by
  simp only [AuthCall.program, PostgresUserRepo.setActive, bind_assoc, Program.ask_bind]
  refine Program.valid_ask fun later _ _ env permitted =>
    ⟨trivial, disabling_step subject _ env later permitted, trivial, ?_⟩
  cases replied : (authHandle hasher (.updateIsActive subject false) env later).1 with
  | error error => exact Program.valid_done fun _ _ _ same => by cases same
  | ok found =>
    cases found with
    | false => exact Program.valid_done fun _ _ _ same => by cases same
    | true =>
      exact Program.valid_done fun last evolved _ _ => evolved (disabled_of_update replied)

/-- A disabled user is disabled at every move of a run that enables nobody. -/
theorem disabled_of_walks {subject : Uuid} (disabled : Disabled subject start.state.users)
    (walks : Walks (authHandle hasher)
      (fun _ _ move => move.command ≠ .updateIsActive subject true) start trace pool) :
    Disabled subject pool.state.users ∧ ∀ move ∈ trace, Disabled subject move.before.users := by
  induction walks with
  | refl => exact ⟨disabled, by simp⟩
  | @step trace pool mover command next before env asks permitted inductionHypothesis =>
    obtain ⟨now, earlier⟩ := inductionHypothesis
    rw [Pool.step_of_ask asks]
    refine ⟨now.step (usersStep hasher command env pool.state) permitted, fun move member => ?_⟩
    rcases List.mem_append.mp member with before | last
    · exact earlier move before
    · rw [List.mem_singleton.mp last]
      exact now

/-- When a user has been disabled, no login that starts afterwards is granted, as long as nobody
enables the user. The logins may be of any email, be throttled or not, and interleave with
anything. -/
theorem disabled_stay_out {middle : Pool Thread AuthCommand AuthReply Raised AuthResponse AuthWorld}
    {subject : Uuid} {admin : Thread}
    (reaches : Reaches (authHandle hasher)
      (fun _ _ command _ => command ≠ .updateIsActive subject true) start middle)
    (disabler : start.threads admin =
      (AuthCall.setActive subject false).program unicode hasher dummyHash)
    (returned : middle.threads admin = .done (.ok .changed))
    (walks : Walks (authHandle hasher)
      (fun _ _ move => move.command ≠ .updateIsActive subject true) middle trace pool)
    {call : AuthCall} {credentials : Credentials}
    (presents : call.credentials? = some credentials)
    (unstarted : middle.threads thread = call.program unicode hasher dummyHash) :
    pool.threads thread ≠ .done (.ok (.identified ⟨subject⟩)) := by
  have disabled : Disabled subject middle.state.users := by
    have valid : start.Valid (authHandle hasher) (disabling subject) (fun thread =>
        if thread = admin then disables subject else
          { disables subject with ensures := fun _ _ => True }) := by
      refine ⟨trivial, fun thread => ?_⟩
      by_cases own : thread = admin
      · subst own
        rw [if_pos rfl, disabler]
        exact setActive_disables subject start.state
      · rw [if_neg own]
        exact (Program.issues_all (start.threads thread)).valid
          (fun command env later _ _ other =>
            ⟨trivial, disabling_step subject command env later other⟩)
          (fun _ _ _ _ _ _ _ => trivial) fun _ _ => trivial
    have finished := (Reaches.valid valid (reaches.mono fun _ thread _ _ other => by
      by_cases own : thread = admin
      · rw [if_pos own]
        exact other
      · rw [if_neg own]
        exact other)).1.ensures returned
    rw [if_pos rfl] at finished
    exact finished rfl
  intro granted
  obtain ⟨evidence, backed, row, found, active, same, _⟩ :=
    justified_of_walks walks presents unstarted granted
  obtain ⟨move, listed, _, _, stored, _⟩ := backed.rows row found
  have inactive := (disabled_of_walks disabled walks).2 move listed
  rw [inactive.2 row stored (Identity.mk.inj same).symm] at active
  cases active

end Runs

/-- The login of a user who registers first is justified. -/
theorem logins_justified_of_visitors :
    ∃ (identity : Identity) (trace : List (Move Nat AuthCommand AuthEnv AuthWorld)),
      servedVisitors.threads 1 = .done (.ok (.identified identity)) ∧
      ∃ move ∈ trace, move.thread = 1 ∧ move.command = .selectUsers "ann@example.org" ∧
        ∃ row ∈ move.before.users, row.email = "ann@example.org" ∧
          row.admits .ascii .restless ⟨"ANN@example.org ", " correct horse", none⟩ = true ∧
          identity = ⟨row.id⟩ ∧
          ∃ check ∈ trace, check.thread = 1 ∧ check.command =
            .verify (normalizePassword .ascii " correct horse") row.passwordHash := by
  have registered : Walks (authHandle .restless) (fun _ _ _ => True) visitors _
      registeredVisitors := Walks.refl.execute registrationTurns (by decide +kernel)
  have served : Walks (authHandle .restless) (fun _ _ _ => True) visitors _ servedVisitors :=
    registered.execute loginTurns (by decide +kernel)
  have begins : visitors.threads 1 = (visitorCalls 1).program .ascii .restless "dummy" := by
    simp only [visitors]
  have presents : (visitorCalls 1).credentials? =
      some ⟨"ANN@example.org ", " correct horse", none⟩ := rfl
  have granted : servedVisitors.threads 1 = .done (.ok (.identified ⟨"zero"⟩)) :=
    Program.outcome?_eq_some_iff.mp (by decide +kernel)
  obtain ⟨move, listed, own, looked, row, stored, email, admits, same, check⟩ :=
    logins_justified served presents begins granted
  have normalized : normalizeEmail "ANN@example.org " = "ann@example.org" := by decide +kernel
  rw [normalized] at looked email
  exact ⟨_, _, granted, move, listed, own, looked, row, stored, email, admits, same, check⟩

instance (subject : Uuid) (command : AuthCommand) :
    Decidable (command ≠ .updateIsActive subject true) :=
  match command with
  | .updateIsActive id true => decidable_of_iff (id ≠ subject) (by simp)
  | .updateIsActive id false => isTrue nofun
  | .now | .uuid4 | .hash _ | .verify _ _ | .authenticate _ | .selectUsers _ | .insertUser _
  | .updatePasswordHash _ _ | .countAttempts _ _ _ | .insertAttempt _ | .deleteAttempts _ _
  | .deleteAttemptsBefore _ | .emit _ => isTrue nofun

/-- Ann registers and is disabled; then she presents her password. -/
def disabledCalls : Nat → AuthCall
  | 0 => .register annRegisters
  | 1 => .setActive "zero" false
  | _ => .login ⟨"ann@example.org", "correct horse", none⟩

def disabledVisitors : Pool Nat AuthCommand AuthReply Raised AuthResponse AuthWorld :=
  Pool.execute (authHandle .plain) (registrationTurns ++ [(1, .calm 1 "" "")])
    ⟨.empty, fun thread => (disabledCalls thread).program .ascii .plain "dummy"⟩

/-- Her login. -/
def refusedVisitors : Pool Nat AuthCommand AuthReply Raised AuthResponse AuthWorld :=
  disabledVisitors.execute (authHandle .plain) (List.replicate 2 (2, .calm 2 "" ""))

theorem disabled_stay_out_of_visitors :
    (refusedVisitors.threads 2).ended = true ∧
      refusedVisitors.threads 2 ≠ .done (.ok (.identified ⟨"zero"⟩)) := by
  have reaches : Reaches (authHandle .plain)
      (fun _ _ command _ => command ≠ .updateIsActive "zero" true)
      ⟨.empty, fun thread => (disabledCalls thread).program .ascii .plain "dummy"⟩
      disabledVisitors := reaches_execute _ (by decide +kernel)
  have walks : Walks (authHandle .plain)
      (fun _ _ move => move.command ≠ .updateIsActive "zero" true) disabledVisitors _
      refusedVisitors := Walks.refl.execute _ (by decide +kernel)
  have returned : disabledVisitors.threads 1 = .done (.ok .changed) :=
    Program.outcome?_eq_some_iff.mp (by decide +kernel)
  have unstarted : disabledVisitors.threads 2 =
      (disabledCalls 2).program .ascii .plain "dummy" :=
    Pool.execute_untouched (by decide +kernel) _
  have begins : (⟨.empty, fun thread => (disabledCalls thread).program .ascii .plain "dummy"⟩ :
      Pool Nat AuthCommand AuthReply Raised AuthResponse AuthWorld).threads 1 =
        (AuthCall.setActive "zero" false).program .ascii .plain "dummy" := rfl
  have presents : (disabledCalls 2).credentials? =
      some ⟨"ann@example.org", "correct horse", none⟩ := rfl
  exact ⟨by decide +kernel,
    disabled_stay_out reaches begins returned walks presents unstarted⟩

end Trutina
