/-
This file proves that registrations that run at once never store two users with
one email. The check for a duplicate and the insert are separate steps, so the
unique constraint decides. A monitor follows each registration: the id it has
drawn, whether its user is stored and its event emitted, or the error its insert
was refused with. As ids are fresh, only the constraint on emails can refuse an
insert, so whoever loses a race is told that the email is taken, without being
told the email.
-/

import Trutina.Authentication

namespace Trutina

open Interaction RegistrationService

/-! ### How a registration goes -/

/-- How far a registration has come. -/
inductive Enrolment where
  | entered
  | holding (id : Uuid)
  | stored (id : Uuid)
  | reported (id : Uuid)
  | refused (error : Raised)
  deriving DecidableEq, Repr

/-- What a registration with a normalized email asks for. -/
inductive Enrolment.Asks (email : String) : Enrolment → AuthCommand → Prop where
  | select : Asks email .entered (.selectUsers (normalizeEmail email))
  | hash (password : String) : Asks email .entered (.hash password)
  | draw : Asks email .entered .uuid4
  | read (id : Uuid) : Asks email (.holding id) .now
  | insert (user : User) (own : user.email = normalizeEmail email) :
      Asks email (.holding user.id) (.insertUser user)
  | report (id : Uuid) : Asks email (.stored id) (.emit (userRegistered id))

/-- What a refused insert raises. -/
def insertError (error : SqlError) : Raised :=
  match translatePostgresErrors error with
  | .integrityError constraint => PostgresUserRepo.onDuplicate constraint
  | other => other

/-- How far it has come after a reply. -/
def Enrolment.next (status : Enrolment) : (command : AuthCommand) → AuthReply command → Enrolment
  | .uuid4, id => .holding id
  | .insertUser user, .ok () => .stored user.id
  | .insertUser _, .error error => .refused (insertError error)
  | .emit _, _ =>
    match status with
    | .stored id => .reported id
    | other => other
  | _, _ => status

/-- The monitor of a registration. -/
def enrolmentMonitor (email : String) : Monitor AuthCommand AuthReply Enrolment where
  allows := Enrolment.Asks email
  next := Enrolment.next

/-- Whether an error tells of rejected input. -/
def Raised.isValidation : Raised → Bool
  | .validationAppError _ _ => true
  | _ => false

/-- How a registration ends: a user is returned once it is reported, an error is raised before
anything is stored, and input is rejected before anything is asked. -/
def Enrolment.Ends (unicode : Unicode) (data : RegisterInput) :
    Enrolment → Except Raised RegisteredUser → Prop
  | status, .ok user => status = .reported user.id ∧ user.email = normalizeEmail data.email
  | status, .error error =>
    (status = .entered ∨ status = .refused error) ∧
      (error.isValidation = true → checkInput unicode data = .error error)

theorem insertError_isValidation (error : SqlError) : (insertError error).isValidation = false := by
  unfold insertError
  rcases error with constraint | ⟨⟨⟩⟩
  · simp only [translatePostgresErrors, PostgresUserRepo.onDuplicate]
    split <;> rfl
  · rfl
  · rfl
  · rfl

theorem translatePostgresErrors_isValidation (error : SqlError) :
    (translatePostgresErrors error).isValidation = false := by
  rcases error with constraint | ⟨⟨⟩⟩ <;> rfl

theorem emailViolations_eq_nil_iff {unicode : Unicode} {email : String} :
    emailViolations unicode email = [] ↔ isWellFormedEmail unicode email = true := by
  unfold emailViolations
  cases isWellFormedEmail unicode email <;> simp

theorem checkInput_ok {unicode : Unicode} {data : RegisterInput} {email password : String}
    (accepted : checkInput unicode data = .ok (email, password)) :
    email = normalizeEmail data.email ∧ isWellFormedEmail unicode email = true ∧
      checkPassword unicode data.password = .ok password := by
  unfold checkInput at accepted
  simp only at accepted
  split at accepted
  · rename_i wellFormed checked
    obtain ⟨same, same'⟩ := Prod.mk.inj (Except.ok.inj accepted)
    rw [← same, ← same']
    exact ⟨rfl, emailViolations_eq_nil_iff.mp wellFormed, checked⟩
  · cases accepted
  · cases accepted

section Programs

variable {unicode : Unicode} {data : RegisterInput} {email : String}

theorem getByEmail_conforms (email : String) :
    (PostgresUserRepo.getByEmail (normalizeEmail email)).Conforms (enrolmentMonitor email)
      (fun status outcome => status = .entered ∧
        ∀ error, outcome = .error error → error.isValidation = false) .entered := by
  refine Program.conforms_ask (by rw [normalizeEmail_idempotent]; exact .select) ?_
  rintro (error | rows)
  · refine Program.conforms_done ⟨rfl, ?_⟩
    rintro _ ⟨⟩
    exact translatePostgresErrors_isValidation error
  · rcases rows with _ | ⟨row, _ | ⟨other, rest⟩⟩
    · exact Program.conforms_done ⟨rfl, by rintro _ ⟨⟩⟩
    · exact Program.conforms_done ⟨rfl, by rintro _ ⟨⟩⟩
    · refine Program.conforms_done ⟨rfl, ?_⟩
      rintro _ ⟨⟩
      rfl

theorem create_conforms {user : User} (own : user.email = normalizeEmail email) :
    (PostgresUserRepo.create user).Conforms (enrolmentMonitor email)
      (fun status outcome => match outcome with
        | .ok _ => status = .stored user.id
        | .error error => status = .refused error ∧ error.isValidation = false)
      (.holding user.id) := by
  refine Program.conforms_ask (.insert user own) ?_
  rintro (error | ⟨⟩)
  · rcases error with constraint | ⟨⟨⟩⟩
    · exact Program.conforms_done ⟨rfl, insertError_isValidation (.integrity constraint)⟩
    · exact Program.conforms_done ⟨rfl, rfl⟩
    · exact Program.conforms_done ⟨rfl, rfl⟩
    · exact Program.conforms_done ⟨rfl, rfl⟩
  · exact Program.conforms_done rfl

/-- The program that stores a user with accepted input passes through the stages in order. -/
theorem store_conforms (password : String) :
    (store (normalizeEmail data.email) password).Conforms (enrolmentMonitor data.email)
      (Enrolment.Ends unicode data) .entered := by
  unfold store
  refine (getByEmail_conforms data.email).bind ?_ ?_
  · rintro status (_ | existing) ⟨rfl, _⟩
    · refine Program.conforms_ask (.hash password) fun passwordHash => ?_
      refine Program.conforms_ask .draw fun id => ?_
      refine Program.conforms_ask (.read id) fun createdAt => ?_
      have own : (User.validate id (normalizeEmail data.email) passwordHash true createdAt).email =
          normalizeEmail data.email := normalizeEmail_idempotent data.email
      refine (create_conforms own).bind ?_ ?_
      · rintro status ⟨⟩ created
        rw [created]
        refine Program.conforms_ask (.report _) fun _ => ?_
        exact Program.conforms_done ⟨rfl, own⟩
      · rintro status error ⟨refused, proper⟩
        exact ⟨.inr refused, fun rejects => absurd (proper.symm.trans rejects) Bool.false_ne_true⟩
    · exact Program.conforms_done ⟨.inl rfl, by rintro ⟨⟩⟩
  · rintro status error ⟨entered, proper⟩
    refine ⟨.inl entered, fun rejects => ?_⟩
    exact absurd ((proper error rfl).symm.trans rejects) Bool.false_ne_true

/-- Every registration passes through the stages in order. -/
theorem register_conforms (unicode : Unicode) (data : RegisterInput) :
    (register unicode data).Conforms (enrolmentMonitor data.email) (Enrolment.Ends unicode data)
      .entered := by
  unfold register
  cases accepted : checkInput unicode data with
  | error error => exact Program.conforms_done ⟨.inl rfl, fun _ => accepted⟩
  | ok proper =>
    obtain ⟨email, password⟩ := proper
    obtain ⟨rfl, _, _⟩ := checkInput_ok accepted
    exact store_conforms password

end Programs

/-! ### Traces of registrations -/

variable {Thread : Type} [DecidableEq Thread]

/-- The id that a step draws. -/
def drawnId (move : Move Thread AuthCommand AuthEnv AuthWorld) : Option Uuid :=
  match move.command with
  | .uuid4 => some move.env.uuid
  | _ => none

/-- The ids that were drawn in a run. -/
def drawnIds (trace : List (Move Thread AuthCommand AuthEnv AuthWorld)) : List Uuid :=
  trace.filterMap drawnId

/-- Ids are fresh: a step draws none that was drawn before or belongs to a stored user. -/
def FreshIds {Result : Type} (trace : List (Move Thread AuthCommand AuthEnv AuthWorld))
    (_ : Pool Thread AuthCommand AuthReply Raised Result AuthWorld)
    (move : Move Thread AuthCommand AuthEnv AuthWorld) : Prop :=
  (drawnId move).all (fun id =>
    decide (id ∉ drawnIds trace ∧ id ∉ move.before.users.map UserModel.id)) = true

instance {Result : Type} (trace : List (Move Thread AuthCommand AuthEnv AuthWorld))
    (pool : Pool Thread AuthCommand AuthReply Raised Result AuthWorld)
    (move : Move Thread AuthCommand AuthEnv AuthWorld) : Decidable (FreshIds trace pool move) :=
  inferInstanceAs (Decidable (_ = true))

/-- The event that a step emits. -/
def emittedEvent (move : Move Thread AuthCommand AuthEnv AuthWorld) : Option AuthEvent :=
  match move.command with
  | .emit event => some event
  | _ => none

/-- The events that a thread has emitted. -/
def emittedBy (thread : Thread) (trace : List (Move Thread AuthCommand AuthEnv AuthWorld)) :
    List AuthEvent :=
  (trace.filter fun move => decide (move.thread = thread)).filterMap emittedEvent

/-- The events of a registration so far. -/
def Enrolment.events : Enrolment → List AuthEvent
  | .reported id => [userRegistered id]
  | _ => []

/-- Whether the user is stored. -/
def Enrolment.hasStored : Enrolment → Bool
  | .stored _ => true
  | .reported _ => true
  | _ => false

/-- An insert that another user with the same email got ahead of. -/
def LosesRace (move : Move Thread AuthCommand AuthEnv AuthWorld) : Prop :=
  ∃ user, move.command = .insertUser user ∧ move.env.fault = none ∧
    ∃ row ∈ move.before.users, row.email = user.email

/-- The invariant of a run of registrations: users are unique under normalized emails, the ids that
are held are drawn, unused and distinct, and the trace shows of each registration exactly the
events, the stored user and the lost race that its status tells of. -/
structure Orderly (hasher : Hasher) (status : Thread → Enrolment)
    (trace : List (Move Thread AuthCommand AuthEnv AuthWorld)) (world : AuthWorld) : Prop where
  keyed : Keyed world.users
  normalized : ∀ row ∈ world.users, normalizeEmail row.email = row.email
  held : ∀ thread id, status thread = .holding id →
    id ∈ drawnIds trace ∧ ∀ row ∈ world.users, row.id ≠ id
  distinct : ∀ first second id, status first = .holding id → status second = .holding id →
    first = second
  emitted : ∀ thread, emittedBy thread trace = (status thread).events
  storing : ∀ move ∈ trace, (move.after (authHandle hasher)).users ≠ move.before.users →
    (status move.thread).hasStored = true
  losing : ∀ move ∈ trace, LosesRace move →
    status move.thread = .refused AppError.duplicateUserEmail

theorem Enrolment.Asks.hasStored {status : Enrolment} {email : String} {command : AuthCommand}
    (asks : status.Asks email command) (before : status.hasStored = true)
    (reply : AuthReply command) : (status.next command reply).hasStored = true := by
  cases asks with
  | report id => rfl
  | select | hash | draw | read | insert => cases before

theorem Enrolment.Asks.not_refused {error : Raised} {email : String} {command : AuthCommand} :
    ¬(Enrolment.refused error).Asks email command := by
  rintro ⟨⟩

section Step

variable {hasher : Hasher} {status : Thread → Enrolment}
  {trace : List (Move Thread AuthCommand AuthEnv AuthWorld)} {world : AuthWorld} {mover : Thread}
  {email : String} {command : AuthCommand} {env : AuthEnv}

/-- Emails stay normalized. -/
theorem normalized_handle (normalized : ∀ row ∈ world.users, normalizeEmail row.email = row.email) :
    ∀ row ∈ (authHandle hasher command env world).2.users,
      normalizeEmail row.email = row.email := by
  have step := usersStep hasher command env world
  generalize (authHandle hasher command env world).2.users = after at step
  cases step with
  | same => exact normalized
  | insert user createdAt =>
    intro row member
    rcases List.mem_append.mp member with stored | new
    · exact normalized row stored
    · rw [List.mem_singleton.mp new]
      exact user.email_normalized
  | updatePasswordHash id passwordHash =>
    intro row member
    obtain ⟨before, stored, rfl⟩ := mem_changeUser.mp member
    split
    · exact normalized before stored
    · exact normalized before stored
  | updateIsActive id isActive =>
    intro row member
    obtain ⟨before, stored, rfl⟩ := mem_changeUser.mp member
    split
    · exact normalized before stored
    · exact normalized before stored

/-- A lost race is refused with the one error that names the field. -/
theorem insert_of_losesRace {user : User} (idFree : ∀ row ∈ world.users, row.id ≠ user.id)
    (calm : env.fault = none) (taken : ∃ row ∈ world.users, row.email = user.email) :
    (authHandle hasher (.insertUser user) env world).1 =
      .error (.integrity "uq_users_email") := by
  simp only [authHandle, transacting_calm calm, insertUser_emailTaken idFree taken]

/-- Whatever is stored after a step was stored before it or is the user it inserts. -/
theorem id_of_mem_handle {row : UserModel}
    (member : row ∈ (authHandle hasher command env world).2.users) :
    (∃ before ∈ world.users, before.id = row.id) ∨
      ∃ user, command = .insertUser user ∧ row.id = user.id := by
  have step := usersStep hasher command env world
  generalize (authHandle hasher command env world).2.users = after at step member
  cases step with
  | same => exact .inl ⟨row, member, rfl⟩
  | insert user createdAt =>
    rcases List.mem_append.mp member with stored | new
    · exact .inl ⟨row, stored, rfl⟩
    · exact .inr ⟨user, rfl, by rw [List.mem_singleton.mp new]; rfl⟩
  | updatePasswordHash id passwordHash =>
    obtain ⟨before, stored, rfl⟩ := mem_changeUser.mp member
    refine .inl ⟨before, stored, ?_⟩
    split <;> rfl
  | updateIsActive id isActive =>
    obtain ⟨before, stored, rfl⟩ := mem_changeUser.mp member
    refine .inl ⟨before, stored, ?_⟩
    split <;> rfl

omit [DecidableEq Thread] in
theorem drawnIds_append (move : Move Thread AuthCommand AuthEnv AuthWorld) :
    drawnIds (trace ++ [move]) = drawnIds trace ++ (drawnId move).toList := by
  rw [drawnIds, List.filterMap_append, ← drawnIds]
  cases drawn : drawnId move <;> simp [drawn]

theorem emittedBy_append_self (move : Move Thread AuthCommand AuthEnv AuthWorld) :
    emittedBy move.thread (trace ++ [move]) =
      emittedBy move.thread trace ++ (emittedEvent move).toList := by
  rw [emittedBy, List.filter_append, List.filterMap_append, ← emittedBy]
  cases emitted : emittedEvent move <;> simp [emitted]

theorem emittedBy_append_other {thread : Thread}
    (move : Move Thread AuthCommand AuthEnv AuthWorld) (other : thread ≠ move.thread) :
    emittedBy thread (trace ++ [move]) = emittedBy thread trace := by
  rw [emittedBy, List.filter_append, List.filterMap_append, ← emittedBy]
  simp [Ne.symm other]

/-- After a step the mover holds an id only if it has just drawn it or held it before. -/
theorem holding_of_next {id : Uuid} {current : Enrolment} (asks : current.Asks email command)
    (holds : current.next command (authHandle hasher command env world).1 = .holding id) :
    (command = .uuid4 ∧ id = env.uuid) ∨ (current = .holding id ∧ command = .now) := by
  cases asks with
  | select | hash => cases holds
  | draw =>
    cases holds
    exact .inl ⟨rfl, rfl⟩
  | read id =>
    cases holds
    exact .inr ⟨rfl, rfl⟩
  | insert user own =>
    rcases reply : (authHandle hasher (.insertUser user) env world).1 with error | ⟨⟩ <;>
      rw [reply] at holds <;> cases holds
  | report id => cases holds

variable {pool : Pool Thread AuthCommand AuthReply Raised RegisteredUser AuthWorld}

/-- Ids that are held stay drawn and unused. -/
theorem Orderly.held_step (orderly : Orderly hasher status trace world)
    (asks : (status mover).Asks email command)
    (fresh : FreshIds trace pool ⟨mover, command, env, world⟩) (thread : Thread) (id : Uuid)
    (holds : Function.update status mover
      ((status mover).next command (authHandle hasher command env world).1) thread = .holding id) :
    id ∈ drawnIds (trace ++ [⟨mover, command, env, world⟩]) ∧
      ∀ row ∈ (authHandle hasher command env world).2.users, row.id ≠ id := by
  rw [drawnIds_append, List.mem_append]
  by_cases same : thread = mover
  · subst same
    rw [Function.update_self] at holds
    rcases holding_of_next asks holds with ⟨rfl, rfl⟩ | ⟨held, rfl⟩
    · obtain ⟨_, unused⟩ := of_decide_eq_true fresh
      refine ⟨.inr (List.mem_singleton_self _), fun row member taken => ?_⟩
      exact unused (taken ▸ List.mem_map_of_mem member)
    · exact ⟨.inl (orderly.held thread id held).1, (orderly.held thread id held).2⟩
  · rw [Function.update_of_ne same] at holds
    obtain ⟨drawn, unused⟩ := orderly.held thread id holds
    refine ⟨.inl drawn, fun row member taken => ?_⟩
    rcases id_of_mem_handle member with ⟨before, stored, own⟩ | ⟨user, rfl, own⟩
    · exact unused before stored (own.trans taken)
    · -- The mover inserts the id that it holds itself.
      generalize current : status mover = phase at asks
      cases asks with
      | insert _ _ => exact same (orderly.distinct thread mover id holds
          (current.trans (congrArg _ (own.symm.trans taken))))

/-- No two registrations hold one id. -/
theorem Orderly.distinct_step (orderly : Orderly hasher status trace world)
    (asks : (status mover).Asks email command)
    (fresh : FreshIds trace pool ⟨mover, command, env, world⟩) (first second : Thread) (id : Uuid)
    (left : Function.update status mover
      ((status mover).next command (authHandle hasher command env world).1) first = .holding id)
    (right : Function.update status mover
      ((status mover).next command (authHandle hasher command env world).1) second =
        .holding id) : first = second := by
  have kept : ∀ thread, Function.update status mover
      ((status mover).next command (authHandle hasher command env world).1) thread = .holding id →
        status thread = .holding id ∨ (thread = mover ∧ id ∉ drawnIds trace) := by
    intro thread holds
    by_cases same : thread = mover
    · subst same
      rw [Function.update_self] at holds
      rcases holding_of_next asks holds with ⟨rfl, rfl⟩ | ⟨held, rfl⟩
      · exact .inr ⟨rfl, (of_decide_eq_true fresh).1⟩
      · exact .inl held
    · rw [Function.update_of_ne same] at holds
      exact .inl holds
  rcases kept first left with held | ⟨rfl, new⟩
  · rcases kept second right with held' | ⟨rfl, new⟩
    · exact orderly.distinct first second id held held'
    · exact absurd (orderly.held first id held).1 new
  · rcases kept second right with held' | ⟨rfl, _⟩
    · exact absurd (orderly.held second id held').1 new
    · rfl

omit [DecidableEq Thread] in
/-- A registration emits its event when it is stored, and never again. -/
theorem events_of_next (mover : Thread) {current : Enrolment} (asks : current.Asks email command) :
    (current.next command (authHandle hasher command env world).1).events =
      current.events ++ (emittedEvent ⟨mover, command, env, world⟩).toList := by
  cases asks with
  | select | hash | draw | read | report => rfl
  | insert user own =>
    rcases reply : (authHandle hasher (.insertUser user) env world).1 with error | ⟨⟩
    · rfl
    · rfl

/-- A step that changes the users is an insert that succeeds. -/
theorem stored_of_next {current : Enrolment} (asks : current.Asks email command)
    (changed : (authHandle hasher command env world).2.users ≠ world.users) :
    (current.next command (authHandle hasher command env world).1).hasStored = true := by
  cases asks with
  | hash | draw | read | report => exact absurd rfl changed
  | select =>
    simp only [authHandle] at changed
    rcases transacting_cases env world _ with ⟨_, same⟩ | ⟨value, after, _, equal, same⟩
    · exact absurd (congrArg AuthWorld.users same) changed
    · cases equal
      exact absurd (congrArg (fun result => result.2.users) same) changed
  | insert user own =>
    simp only [authHandle] at changed ⊢
    rcases transacting_cases env world (world.insertUser env user) with
      ⟨_, same⟩ | ⟨⟨⟩, after, _, _, same⟩
    · exact absurd (congrArg AuthWorld.users same) changed
    · rw [same]
      rfl

/-- Every step of a registration keeps the invariant. -/
theorem Orderly.step (orderly : Orderly hasher status trace world)
    (asks : (status mover).Asks email command)
    (fresh : FreshIds trace pool ⟨mover, command, env, world⟩) :
    Orderly hasher
      (Function.update status mover
        ((status mover).next command (authHandle hasher command env world).1))
      (trace ++ [⟨mover, command, env, world⟩]) (authHandle hasher command env world).2 where
  keyed := orderly.keyed.handle
  normalized := normalized_handle orderly.normalized
  held := orderly.held_step asks fresh
  distinct := orderly.distinct_step asks fresh
  emitted thread := by
    by_cases same : thread = mover
    · subst same
      rw [Function.update_self, events_of_next thread asks, ← orderly.emitted thread]
      exact emittedBy_append_self ⟨thread, command, env, world⟩
    · rw [Function.update_of_ne same, ← orderly.emitted thread]
      exact emittedBy_append_other ⟨mover, command, env, world⟩ same
  storing move member changed := by
    rcases List.mem_append.mp member with earlier | last
    · have stored := orderly.storing move earlier changed
      by_cases same : move.thread = mover
      · rw [same] at stored ⊢
        rw [Function.update_self]
        exact asks.hasStored stored _
      · rwa [Function.update_of_ne same]
    · rw [List.mem_singleton.mp last] at changed ⊢
      rw [Function.update_self]
      exact stored_of_next asks changed
  losing move member loses := by
    rcases List.mem_append.mp member with earlier | last
    · have refused := orderly.losing move earlier loses
      by_cases same : move.thread = mover
      · rw [← same, refused] at asks
        exact absurd asks Enrolment.Asks.not_refused
      · rwa [Function.update_of_ne same]
    · rw [List.mem_singleton.mp last] at loses ⊢
      obtain ⟨user, inserts, calm, taken⟩ := loses
      cases inserts
      rw [Function.update_self]
      generalize current : status mover = phase at asks ⊢
      cases asks with
      | insert _ _ =>
        rw [insert_of_losesRace (orderly.held mover user.id current).2 calm taken]
        rfl

end Step

/-! ### Runs of registrations -/

section Runs

variable {unicode : Unicode} {hasher : Hasher} {inputs : Thread → RegisterInput}
  {start pool : Pool Thread AuthCommand AuthReply Raised RegisteredUser AuthWorld}
  {trace : List (Move Thread AuthCommand AuthEnv AuthWorld)}

/-- How far each registration has come. -/
def enrolments (hasher : Hasher) (inputs : Thread → RegisterInput)
    (trace : List (Move Thread AuthCommand AuthEnv AuthWorld)) (thread : Thread) : Enrolment :=
  (enrolmentMonitor (inputs thread).email).after (authHandle hasher) thread .entered trace

theorem enrolment_conforms
    (registers : ∀ thread, start.threads thread = register unicode (inputs thread))
    (walks : Walks (authHandle hasher) FreshIds start trace pool) (thread : Thread) :
    (pool.threads thread).Conforms (enrolmentMonitor (inputs thread).email)
      (Enrolment.Ends unicode (inputs thread)) (enrolments hasher inputs trace thread) := by
  refine Walks.conforms _ _ Enrolment.entered thread ?_ walks fun _ _ _ => trivial
  rw [registers thread]
  exact register_conforms unicode (inputs thread)

/-- The invariant holds in every run. -/
theorem Orderly.run (keyed : Keyed start.state.users)
    (normalized : ∀ row ∈ start.state.users, normalizeEmail row.email = row.email)
    (registers : ∀ thread, start.threads thread = register unicode (inputs thread))
    (walks : Walks (authHandle hasher) FreshIds start trace pool) :
    Orderly hasher (enrolments hasher inputs trace) trace pool.state := by
  induction walks with
  | refl =>
    refine ⟨keyed, normalized, ?_, ?_, fun thread => rfl, ?_, ?_⟩
    · rintro thread id ⟨⟩
    · rintro first second id ⟨⟩
    · rintro move ⟨⟩
    · rintro move ⟨⟩
  | @step trace pool mover command next before env asks permitted inductionHypothesis =>
    have conforms := enrolment_conforms registers before mover
    rw [asks] at conforms
    have moved := inductionHypothesis.step conforms.allowed permitted
    have statuses : enrolments hasher inputs (trace ++ [⟨mover, command, env, pool.state⟩]) = _ :=
      Monitor.after_append
    rw [statuses, Pool.step_of_ask asks]
    exact moved

omit [DecidableEq Thread] in
theorem events_handle (hasher : Hasher) (move : Move Thread AuthCommand AuthEnv AuthWorld) :
    (move.after (authHandle hasher)).events =
      move.before.events ++ (emittedEvent move).toList := by
  obtain ⟨thread, command, env, world⟩ := move
  cases command with
  | emit event => rfl
  | now | uuid4 | hash | verify | authenticate => exact (List.append_nil _).symm
  | selectUsers | countAttempts | insertAttempt | deleteAttempts | deleteAttemptsBefore |
    updatePasswordHash | updateIsActive =>
    simp only [Move.after, authHandle, emittedEvent, Option.toList_none, List.append_nil]
    rcases transacting_cases env world _ with ⟨_, same⟩ | ⟨value, after, _, equal, same⟩
    · rw [same]
    · cases equal
      rw [same]
  | insertUser user =>
    simp only [Move.after, authHandle, emittedEvent, Option.toList_none, List.append_nil]
    rcases transacting_cases env world (world.insertUser env user) with
      ⟨_, same⟩ | ⟨⟨⟩, after, _, inserted, same⟩
    · rw [same]
    · obtain ⟨_, _, rfl⟩ := insertUser_ok_iff.mp inserted
      rw [same]

/-- The log of events is what was emitted, in order. -/
theorem events_of_walks (walks : Walks (authHandle hasher) FreshIds start trace pool) :
    pool.state.events = start.state.events ++ trace.filterMap emittedEvent := by
  induction walks with
  | refl => exact (List.append_nil _).symm
  | @step trace pool mover command next before env asks permitted inductionHypothesis =>
    rw [List.filterMap_append, ← List.append_assoc, ← inductionHypothesis, Pool.step_of_ask asks]
    refine (events_handle hasher ⟨mover, command, env, pool.state⟩).trans ?_
    cases emitted : emittedEvent (⟨mover, command, env, pool.state⟩ : Move Thread _ _ _) <;>
      simp [emitted]

/-- Whoever has moved was accepted, so the email has its `@`, as typed and normalized. -/
theorem at_of_moved
    (registers : ∀ thread, start.threads thread = register unicode (inputs thread))
    (walks : Walks (authHandle hasher) FreshIds start trace pool)
    {move : Move Thread AuthCommand AuthEnv AuthWorld} (member : move ∈ trace) :
    '@' ∈ (normalizeEmail (inputs move.thread).email).toList ∧
      '@' ∈ (inputs move.thread).email.toList := by
  cases checked : checkInput unicode (inputs move.thread) with
  | error error =>
    have ended : start.threads move.thread = .done (.error error) := by
      rw [registers, register, checked]
      rfl
    exact absurd rfl ((walks.still ended).2 move member)
  | ok accepted =>
    obtain ⟨email, password⟩ := accepted
    obtain ⟨rfl, wellFormed, _⟩ := checkInput_ok checked
    have present := at_of_isWellFormedEmail wellFormed
    exact ⟨present, at_of_normalizeEmail present⟩

/-- However registrations interleave, and whatever fails: no two stored users have one normalized
email; the event of a registration is emitted once when it returns and never when it raises; one
that raises has left the users as they were in each of its steps; one whose input is rejected takes
no step at all, so nobody is looked up and nothing is hashed; and one that is overtaken between its
check and its insert raises that the email is taken, in a context without the email. -/
theorem registrations_unique (keyed : Keyed start.state.users)
    (normalized : ∀ row ∈ start.state.users, normalizeEmail row.email = row.email)
    (registers : ∀ thread, start.threads thread = register unicode (inputs thread))
    (walks : Walks (authHandle hasher) FreshIds start trace pool) :
    (∀ first ∈ pool.state.users, ∀ second ∈ pool.state.users,
      normalizeEmail first.email = normalizeEmail second.email → first = second) ∧
    pool.state.events = start.state.events ++ trace.filterMap emittedEvent ∧
    (∀ thread user, pool.threads thread = .done (.ok user) →
      emittedBy thread trace = [userRegistered user.id]) ∧
    (∀ thread error, pool.threads thread = .done (.error error) →
      emittedBy thread trace = [] ∧ ∀ move ∈ trace, move.thread = thread →
        (move.after (authHandle hasher)).users = move.before.users) ∧
    (∀ thread error, error.isValidation = true → pool.threads thread = .done (.error error) →
      ∀ move ∈ trace, move.thread ≠ thread) ∧
    (∀ move ∈ trace, LosesRace move →
      pool.threads move.thread = .done (.error AppError.duplicateUserEmail) ∧
        ¬AppError.duplicateUserEmail.Mentions (inputs move.thread).email ∧
        ¬AppError.duplicateUserEmail.Mentions (normalizeEmail (inputs move.thread).email)) := by
  have orderly := Orderly.run keyed normalized registers walks
  have ends : ∀ thread outcome, pool.threads thread = .done outcome →
      (enrolments hasher inputs trace thread).Ends unicode (inputs thread) outcome := by
    intro thread outcome ended
    have conforms := enrolment_conforms registers walks thread
    rw [ended] at conforms
    exact conforms.promised
  refine ⟨?_, events_of_walks walks, ?_, ?_, ?_, ?_⟩
  · intro first member second member' same
    rw [orderly.normalized first member, orderly.normalized second member'] at same
    exact orderly.keyed.eq_of_email member member' same
  · intro thread user ended
    rw [orderly.emitted thread, (ends thread _ ended).1]
    rfl
  · intro thread error ended
    have unstored : (enrolments hasher inputs trace thread).hasStored = false ∧
        (enrolments hasher inputs trace thread).events = [] := by
      rcases (ends thread _ ended).1 with entered | refused
      · rw [entered]
        exact ⟨rfl, rfl⟩
      · rw [refused]
        exact ⟨rfl, rfl⟩
    refine ⟨(orderly.emitted thread).trans unstored.2, ?_⟩
    rintro move member rfl
    by_contra changed
    rw [orderly.storing move member changed] at unstored
    cases unstored.1
  · intro thread error rejected ended
    have refused : start.threads thread = .done (.error error) := by
      rw [registers, register, (ends thread _ ended).2 rejected]
      rfl
    exact (walks.still refused).2
  · intro move member loses
    have refused := orderly.losing move member loses
    obtain ⟨present, typed⟩ := at_of_moved registers walks member
    refine ⟨?_, AppError.duplicateUserEmail_mentions typed,
      AppError.duplicateUserEmail_mentions present⟩
    have conforms := enrolment_conforms registers walks move.thread
    rw [refused] at conforms
    cases program : pool.threads move.thread with
    | ask command next =>
      rw [program] at conforms
      exact absurd conforms.allowed Enrolment.Asks.not_refused
    | done outcome =>
      rw [program] at conforms
      have ended := conforms.promised
      cases outcome with
      | ok user => cases ended.1
      | error error =>
        rcases ended.1 with entered | same
        · cases entered
        · rw [Enrolment.refused.injEq] at same
          rw [same]

end Runs

/-- Two spellings of one email. -/
def rivalInputs : Nat → RegisterInput
  | 0 => ⟨" Ann@Example.org", "correct horse"⟩
  | _ => ⟨"ann@example.ORG ", "battery staple"⟩

/-- Registrations with the two spellings, none of which has begun. -/
def rivalRegistrations : Pool Nat AuthCommand AuthReply Raised RegisteredUser AuthWorld where
  state := .empty
  threads := fun thread => register .ascii (rivalInputs thread)

/-- Both registrations look the email up before either of them inserts its user. -/
def rivalTurns : List (Nat × AuthEnv) :=
  [(0, .calm 0 "" ""), (1, .calm 0 "" ""), (0, .calm 0 "" ""), (1, .calm 0 "" ""),
    (0, .calm 0 "" "zero"), (1, .calm 0 "" "one"), (0, .calm 0 "" ""), (1, .calm 0 "" ""),
    (0, .calm 0 "" ""), (1, .calm 0 "" ""), (0, .calm 0 "" "")]

/-- Of the two spellings one is stored, and its event is the only one. -/
theorem registrations_unique_of_rivals :
    let pool := rivalRegistrations.execute (authHandle .plain) rivalTurns
    (∀ first ∈ pool.state.users, ∀ second ∈ pool.state.users,
        normalizeEmail first.email = normalizeEmail second.email → first = second) ∧
      pool.state.users.map UserModel.id = ["zero"] ∧
      pool.state.events = [userRegistered "zero"] := by
  refine ⟨?_, by decide +kernel, by decide +kernel⟩
  have walks : Walks (authHandle .plain) FreshIds rivalRegistrations _ _ :=
    Walks.refl.execute rivalTurns (by decide +kernel)
  have registers : ∀ thread, rivalRegistrations.threads thread =
      register .ascii (rivalInputs thread) := fun thread => by simp only [rivalRegistrations]
  have keyed : Keyed rivalRegistrations.state.users := ⟨List.nodup_nil, List.nodup_nil⟩
  exact (registrations_unique keyed (by rintro row ⟨⟩) registers walks).1

end Trutina
