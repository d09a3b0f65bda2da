/-
This file proves that the throttle decides as if nothing were ever purged. A
session serves one attempt after another over the table of failed logins; the
ideal session keeps a log that only grows. As the clock never runs back, what the
table has lost was out of every later window, so both answer alike, and a
throttled attempt never reaches the authenticator behind the throttle.
-/

import Trutina.Authentication

namespace Trutina

open Interaction FailureLog

/-! ### Sessions -/

/-- One attempt: what is presented, the reading of the clock when the failures are counted, what
the authenticator behind the throttle answers if it is asked, and the reading of the clock when a
failure is recorded. -/
structure Attempt where
  credentials : Credentials
  checkedAt : Timestamp
  verdict : Except Raised Identity
  failedAt : Timestamp

/-- What comes of an attempt: its outcome, and what reached the authenticator behind. -/
structure Answer where
  outcome : Except Raised Identity
  reached : List Credentials
  deriving DecidableEq

/-- Serve the attempts one after another. -/
def session {State : Type} (serve : Attempt → State → Answer × State) :
    List Attempt → State → List Answer × State
  | [], state => ([], state)
  | attempt :: rest, state =>
    let (answer, after) := serve attempt state
    let (answers, last) := session serve rest after
    (answer :: answers, last)

theorem session_cons {State : Type} (serve : Attempt → State → Answer × State) (attempt : Attempt)
    (rest : List Attempt) (state : State) :
    session serve (attempt :: rest) state =
      ((serve attempt state).1 :: (session serve rest (serve attempt state).2).1,
        (session serve rest (serve attempt state).2).2) := rfl

namespace Attempt

/-- The normalized email. -/
def key (attempt : Attempt) : String := normalizeEmail attempt.credentials.email

/-- The pair that failures of the attempt are counted by. -/
def pair (attempt : Attempt) : String × String := (attempt.credentials.ip, attempt.key)

/-- The readings of the clock, in the order they are taken. -/
def times (attempt : Attempt) : List Timestamp := [attempt.checkedAt, attempt.failedAt]

/-- The row of a failure. -/
def row (attempt : Attempt) : LoginAttemptModel :=
  ⟨attempt.credentials.ip, attempt.key, attempt.failedAt⟩

/-- The conditions of each step. The store does not fail. -/
def env (attempt : Attempt) (step : Nat) : AuthEnv :=
  { AuthEnv.calm (if step = 0 then attempt.checkedAt else attempt.failedAt) "" "" with
    verdict := attempt.verdict }

/-- What a list of commands hands to the authenticator behind the throttle. -/
def reached (commands : List AuthCommand) : List Credentials :=
  commands.filterMap fun command =>
    match command with
    | .authenticate credentials => some credentials
    | _ => none

/-- Serve an attempt over the tables. -/
def serve (hasher : Hasher) (limits : ThrottleLimits) (attempt : Attempt) (world : AuthWorld) :
    Answer × AuthWorld :=
  let program := ThrottledAuthenticator.authenticate limits Authenticator.authenticate
    attempt.credentials
  let (outcome, after) := program.run (authHandle hasher) attempt.env world
  (⟨outcome, reached (program.asked (authHandle hasher) attempt.env world)⟩, after)

/-- What the ideal log keeps of an attempt that was not throttled. -/
def logged (attempt : Attempt) (log : List (Event (String × String) Timestamp)) :
    List (Event (String × String) Timestamp) :=
  match attempt.verdict with
  | .ok _ => .success attempt.pair :: log
  | .error error =>
    if error.code? = some .authInvalidCredentials then
      .failure attempt.pair attempt.failedAt :: log
    else log

/-- The failures of the pair since its last success, within the window that ends now. -/
def failures (limits : ThrottleLimits) (attempt : Attempt)
    (log : List (Event (String × String) Timestamp)) : Nat :=
  failuresSince attempt.pair (attempt.checkedAt - limits.window) log

/-- Serve an attempt over the ideal log. -/
def ideal (limits : ThrottleLimits) (attempt : Attempt)
    (log : List (Event (String × String) Timestamp)) :
    Answer × List (Event (String × String) Timestamp) :=
  if maxEmailLength < attempt.key.length then (⟨attempt.verdict, [attempt.credentials]⟩, log)
  else if limits.maxFailures ≤ attempt.failures limits log then
    (⟨.error (AppError.throttled limits.windowSeconds), []⟩, log)
  else (⟨attempt.verdict, [attempt.credentials]⟩, attempt.logged log)

end Attempt

/-! ### One attempt -/

section Serve

variable {hasher : Hasher} {limits : ThrottleLimits} {attempt : Attempt} {world : AuthWorld}

theorem Attempt.env_calm (attempt : Attempt) (step : Nat) : (attempt.env step).fault = none := rfl

/-- The rows of the attempt's pair within its window. -/
def Attempt.counted (limits : ThrottleLimits) (attempt : Attempt) (world : AuthWorld) : Nat :=
  count LoginAttemptModel.pair LoginAttemptModel.attemptedAt attempt.pair
    (attempt.checkedAt - limits.window) world.loginAttempts

/-- An email that is too long is neither counted nor stored. -/
theorem Attempt.serve_of_long (long : maxEmailLength < attempt.key.length) :
    attempt.serve hasher limits world = (⟨attempt.verdict, [attempt.credentials]⟩, world) := by
  have long' : maxEmailLength < (normalizeEmail attempt.credentials.email).length := long
  simp only [Attempt.serve, ThrottledAuthenticator.authenticate, if_pos long',
    Authenticator.authenticate, Program.run_ask, Program.asked_ask]
  rfl

/-- The steps up to the decision. -/
theorem Attempt.serve_of_short (short : ¬maxEmailLength < attempt.key.length) :
    attempt.serve hasher limits world =
      let checked := { world with clock := attempt.checkedAt }
      let program := ThrottledAuthenticator.attempt limits Authenticator.authenticate
        attempt.credentials attempt.key (attempt.counted limits world)
      (⟨(program.run (authHandle hasher) (fun step => attempt.env (step + 2)) checked).1,
          reached (program.asked (authHandle hasher) (fun step => attempt.env (step + 2)) checked)⟩,
        (program.run (authHandle hasher) (fun step => attempt.env (step + 2)) checked).2) := by
  have short' : ¬maxEmailLength < (normalizeEmail attempt.credentials.email).length := short
  simp only [Attempt.serve, ThrottledAuthenticator.authenticate, if_neg short',
    Program.perform_bind, PostgresLoginAttemptRepo.countFailures, Program.ask_bind,
    normalizeEmail_idempotent, Program.run_ask, Program.asked_ask, authHandle,
    transacting_calm_ok (attempt.env_calm _), executed_ok, Program.ok_bind]
  rfl

/-- A throttled attempt stores nothing and asks nobody. -/
theorem Attempt.serve_of_throttled (short : ¬maxEmailLength < attempt.key.length)
    (many : limits.maxFailures ≤ attempt.counted limits world) :
    attempt.serve hasher limits world =
      (⟨.error (AppError.throttled limits.windowSeconds), []⟩,
        { world with
          clock := attempt.checkedAt, events := world.events ++ [loginThrottled limits] }) := by
  rw [Attempt.serve_of_short short]
  simp only [ThrottledAuthenticator.attempt, if_pos many, Program.perform_bind, Program.run_ask,
    Program.asked_ask]
  rfl

/-- An attempt that gets through and succeeds clears the rows of its pair. -/
theorem Attempt.serve_of_success {identity : Identity}
    (short : ¬maxEmailLength < attempt.key.length)
    (few : ¬limits.maxFailures ≤ attempt.counted limits world)
    (succeeds : attempt.verdict = .ok identity) :
    attempt.serve hasher limits world =
      (⟨.ok identity, [attempt.credentials]⟩,
        { world with
          clock := attempt.checkedAt
          loginAttempts := if attempt.counted limits world = 0 then world.loginAttempts
            else clear LoginAttemptModel.pair attempt.pair world.loginAttempts }) := by
  have answers : ∀ step, (attempt.env step).verdict = .ok identity := fun step => succeeds
  rw [Attempt.serve_of_short short]
  simp only [ThrottledAuthenticator.attempt, if_neg few, Authenticator.authenticate,
    Program.tryCatch_ask, Program.ask_bind, Program.run_ask, Program.asked_ask, authHandle, answers,
    Program.tryCatch_ok, Program.ok_bind, ThrottledAuthenticator.onSuccess]
  split
  · rfl
  · simp only [PostgresLoginAttemptRepo.clear, Program.ask_bind, Program.run_ask,
      Program.asked_ask, authHandle, transacting_calm_ok (attempt.env_calm _), executed_ok,
      Program.ok_bind, Attempt.key, normalizeEmail_idempotent]
    rfl

/-- An attempt that gets through and fails is recorded, and the table is purged. -/
theorem Attempt.serve_of_invalid {error : Raised} (short : ¬maxEmailLength < attempt.key.length)
    (few : ¬limits.maxFailures ≤ attempt.counted limits world)
    (fails : attempt.verdict = .error error)
    (invalid : error.code? = some .authInvalidCredentials) :
    attempt.serve hasher limits world =
      (⟨.error error, [attempt.credentials]⟩,
        { world with
          clock := attempt.failedAt
          loginAttempts := purge LoginAttemptModel.attemptedAt (attempt.failedAt - limits.window)
            (world.loginAttempts ++ [attempt.row]) }) := by
  have answers : ∀ step, (attempt.env step).verdict = .error error := fun step => fails
  rw [Attempt.serve_of_short short]
  simp only [ThrottledAuthenticator.attempt, if_neg few, Authenticator.authenticate,
    Program.tryCatch_ask, Program.ask_bind, Program.run_ask, Program.asked_ask, authHandle, answers,
    Program.tryCatch_error, ThrottledAuthenticator.onError, if_pos invalid, Program.perform_bind,
    PostgresLoginAttemptRepo.recordFailure, PostgresLoginAttemptRepo.purgeBefore,
    transacting_calm_ok (attempt.env_calm _), executed_ok, Program.ok_bind, Program.throw_eq,
    Program.error_bind, Attempt.key, normalizeEmail_idempotent]
  rfl

/-- An attempt that gets through and meets another error changes nothing. -/
theorem Attempt.serve_of_error {error : Raised} (short : ¬maxEmailLength < attempt.key.length)
    (few : ¬limits.maxFailures ≤ attempt.counted limits world)
    (fails : attempt.verdict = .error error)
    (other : error.code? ≠ some .authInvalidCredentials) :
    attempt.serve hasher limits world =
      (⟨.error error, [attempt.credentials]⟩, { world with clock := attempt.checkedAt }) := by
  have answers : ∀ step, (attempt.env step).verdict = .error error := fun step => fails
  rw [Attempt.serve_of_short short]
  simp only [ThrottledAuthenticator.attempt, if_neg few, Authenticator.authenticate,
    Program.tryCatch_ask, Program.ask_bind, Program.run_ask, Program.asked_ask, authHandle, answers,
    Program.tryCatch_error, ThrottledAuthenticator.onError, if_neg other, Program.throw_eq,
    Program.error_bind]
  rfl

end Serve

/-! ### Simulation -/

section Simulation

variable {hasher : Hasher} {limits : ThrottleLimits} {attempt : Attempt} {world : AuthWorld}
  {log : List (Event (String × String) Timestamp)} {horizon : Timestamp}

theorem Attempt.logged_of_ok {identity : Identity} (succeeds : attempt.verdict = .ok identity) :
    attempt.logged log = .success attempt.pair :: log := by
  rw [Attempt.logged, succeeds]

theorem Attempt.logged_of_invalid {error : Raised} (fails : attempt.verdict = .error error)
    (invalid : error.code? = some .authInvalidCredentials) :
    attempt.logged log = .failure attempt.pair attempt.failedAt :: log := by
  rw [Attempt.logged, fails]
  exact if_pos invalid

theorem Attempt.logged_of_error {error : Raised} (fails : attempt.verdict = .error error)
    (other : error.code? ≠ some .authInvalidCredentials) : attempt.logged log = log := by
  rw [Attempt.logged, fails]
  exact if_neg other

/-- One attempt: table and log answer alike, and go on counting alike. -/
theorem Attempt.serve_ideal (hasher : Hasher) (attempt : Attempt)
    (agrees : Agrees LoginAttemptModel.pair LoginAttemptModel.attemptedAt
      (attempt.checkedAt - limits.window) log world.loginAttempts)
    (ordered : attempt.checkedAt ≤ attempt.failedAt) :
    (attempt.serve hasher limits world).1 = (attempt.ideal limits log).1 ∧
      Agrees LoginAttemptModel.pair LoginAttemptModel.attemptedAt
        (attempt.failedAt - limits.window) (attempt.ideal limits log).2
        (attempt.serve hasher limits world).2.loginAttempts := by
  have onward : attempt.checkedAt - limits.window ≤ attempt.failedAt - limits.window :=
    Int.sub_le_sub_right ordered _
  have alike : attempt.counted limits world = attempt.failures limits log :=
    agrees _ _ le_rfl
  by_cases long : maxEmailLength < attempt.key.length
  · rw [Attempt.serve_of_long long, Attempt.ideal, if_pos long]
    exact ⟨rfl, agrees.advance onward⟩
  by_cases many : limits.maxFailures ≤ attempt.failures limits log
  · rw [Attempt.serve_of_throttled long (alike ▸ many), Attempt.ideal, if_neg long, if_pos many]
    exact ⟨rfl, agrees.advance onward⟩
  have few : ¬limits.maxFailures ≤ attempt.counted limits world := alike ▸ many
  rw [Attempt.ideal, if_neg long, if_neg many]
  cases verdict : attempt.verdict with
  | ok identity =>
    rw [Attempt.serve_of_success long few verdict, Attempt.logged_of_ok verdict]
    refine ⟨rfl, Agrees.advance ?_ onward⟩
    by_cases none : attempt.counted limits world = 0
    · rw [if_pos none]
      exact agrees.success_of_zero (alike.symm.trans none)
    · rw [if_neg none]
      exact agrees.success_clear _
  | error error =>
    by_cases invalid : error.code? = some .authInvalidCredentials
    · rw [Attempt.serve_of_invalid long few verdict invalid,
        Attempt.logged_of_invalid verdict invalid]
      exact ⟨rfl, ((agrees.advance onward).failure attempt.row).purge le_rfl⟩
    · rw [Attempt.serve_of_error long few verdict invalid, Attempt.logged_of_error verdict invalid]
      exact ⟨rfl, agrees.advance onward⟩

/-- A session over the tables answers as the ideal session does, and from its last reading of the
clock on both count alike. -/
theorem session_ideal (hasher : Hasher) (attempts : List Attempt)
    (agrees : Agrees LoginAttemptModel.pair LoginAttemptModel.attemptedAt (horizon - limits.window)
      log world.loginAttempts)
    (ordered : (horizon :: attempts.flatMap Attempt.times).Pairwise (· ≤ ·)) :
    (session (Attempt.serve hasher limits) attempts world).1 =
        (session (Attempt.ideal limits) attempts log).1 ∧
      ∀ later, (∀ moment ∈ horizon :: attempts.flatMap Attempt.times, moment ≤ later) →
        Agrees LoginAttemptModel.pair LoginAttemptModel.attemptedAt (later - limits.window)
          (session (Attempt.ideal limits) attempts log).2
          (session (Attempt.serve hasher limits) attempts world).2.loginAttempts := by
  induction attempts generalizing horizon world log with
  | nil =>
    refine ⟨rfl, fun later after => agrees.advance (Int.sub_le_sub_right ?_ _)⟩
    exact after horizon List.mem_cons_self
  | cons attempt rest inductionHypothesis =>
    rw [List.flatMap_cons, Attempt.times, List.cons_append, List.cons_append, List.nil_append,
      List.pairwise_cons, List.pairwise_cons] at ordered
    obtain ⟨first, second, others⟩ := ordered
    have checked : horizon ≤ attempt.checkedAt := first _ List.mem_cons_self
    have failed : attempt.checkedAt ≤ attempt.failedAt := second _ List.mem_cons_self
    obtain ⟨same, onward⟩ := Attempt.serve_ideal hasher attempt
      (agrees.advance (Int.sub_le_sub_right checked _)) failed
    obtain ⟨alike, still⟩ := @inductionHypothesis (attempt.serve hasher limits world).2
      (attempt.ideal limits log).2 attempt.failedAt onward others
    rw [session_cons, session_cons, same, alike]
    refine ⟨rfl, fun later after => still later fun moment member => after moment ?_⟩
    rw [List.flatMap_cons, Attempt.times, List.cons_append, List.cons_append, List.nil_append]
    exact List.mem_cons_of_mem _ (List.mem_cons_of_mem _ member)

end Simulation

/-! ### The result -/

theorem exists_before (moments : List Timestamp) :
    ∃ horizon, ∀ moment ∈ moments, horizon ≤ moment := by
  induction moments with
  | nil => exact ⟨0, by simp⟩
  | cons first rest inductionHypothesis =>
    obtain ⟨horizon, before⟩ := inductionHypothesis
    refine ⟨min first horizon, fun moment member => ?_⟩
    rcases List.mem_cons.mp member with rfl | later
    · exact min_le_left _ _
    · exact (min_le_right _ _).trans (before moment later)

/-- In every session on any pairs with any inner outcomes and a clock that does not run back, every
attempt is answered as over the ideal log, from which nothing is ever removed: it is throttled,
without reaching the authenticator behind, exactly when the log has too many failures of its pair
since the pair's last success within the window that ends at the reading of the clock. -/
theorem throttle_refines_idealLog (hasher : Hasher) (limits : ThrottleLimits)
    (attempts : List Attempt) (world : AuthWorld)
    (ordered : (attempts.flatMap Attempt.times).Pairwise (· ≤ ·)) :
    let start := logOf LoginAttemptModel.pair LoginAttemptModel.attemptedAt world.loginAttempts
    (session (Attempt.serve hasher limits) attempts world).1 =
        (session (Attempt.ideal limits) attempts start).1 ∧
      ∀ earlier attempt later, attempts = earlier ++ attempt :: later →
        attempt.key.length ≤ maxEmailLength →
        ((attempt.serve hasher limits (session (Attempt.serve hasher limits) earlier world).2).1 =
            ⟨.error (AppError.throttled limits.windowSeconds), []⟩ ↔
          limits.maxFailures ≤
            attempt.failures limits (session (Attempt.ideal limits) earlier start).2) := by
  intro start
  have started : ∀ horizon, Agrees LoginAttemptModel.pair LoginAttemptModel.attemptedAt horizon
      start world.loginAttempts := fun horizon => agrees_logOf horizon _
  -- Any time before the first reading of the clock will do to start from.
  obtain ⟨horizon, before⟩ := exists_before (attempts.flatMap Attempt.times)
  refine ⟨(session_ideal hasher attempts (started _)
    (List.pairwise_cons.mpr ⟨before, ordered⟩)).1, ?_⟩
  rintro earlier attempt later rfl short
  rw [List.flatMap_append, List.flatMap_cons] at ordered before
  obtain ⟨first, second, across⟩ := List.pairwise_append.mp ordered
  have checked : attempt.checkedAt ∈ attempt.times ++ later.flatMap Attempt.times :=
    List.mem_append_left _ List.mem_cons_self
  have failed : attempt.checkedAt ≤ attempt.failedAt :=
    List.rel_of_pairwise_cons (List.pairwise_append.mp second).1 (List.mem_singleton_self _)
  have agrees := (session_ideal hasher earlier (started (horizon - limits.window))
    (List.pairwise_cons.mpr
      ⟨fun moment member => before moment (List.mem_append_left _ member), first⟩)).2
    attempt.checkedAt fun moment member => by
      rcases List.mem_cons.mp member with rfl | later
      · exact before _ (List.mem_append_right _ checked)
      · exact across _ later _ checked
  rw [(Attempt.serve_ideal hasher attempt agrees failed).1, Attempt.ideal,
    if_neg (Nat.not_lt.mpr short)]
  by_cases many : limits.maxFailures ≤
      attempt.failures limits (session (Attempt.ideal limits) earlier start).2
  · rw [if_pos many]
    exact iff_of_true rfl many
  · rw [if_neg many]
    refine iff_of_false (fun same => ?_) many
    cases congrArg Answer.reached same

/-- An attempt with a wrong password at a given time. -/
def Attempt.wrongAt (email : String) (moment : Timestamp) : Attempt where
  credentials := ⟨email, "wrong", none⟩
  checkedAt := moment
  verdict := .error invalidCredentials
  failedAt := moment

/-- A failure at the very beginning of the window still counts, in whatever spelling, and a
microsecond later it does not. -/
theorem throttle_refines_idealLog_at_boundary :
    (session (Attempt.serve .plain .strict)
        [.wrongAt "a@b" 0, .wrongAt " A@B" 1000000, .wrongAt "a@b" 1000001] .empty).1 =
      [⟨.error invalidCredentials, [⟨"a@b", "wrong", none⟩]⟩,
        ⟨.error (AppError.throttled 1), []⟩,
        ⟨.error invalidCredentials, [⟨"a@b", "wrong", none⟩]⟩] := by
  rw [(throttle_refines_idealLog .plain .strict _ .empty (by decide)).1]
  decide +kernel

end Trutina
