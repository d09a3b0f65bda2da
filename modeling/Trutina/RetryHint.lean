/-
This file proves when the retry hint of a throttled attempt can be relied on. The
hint is the length of the window, and the count of failures includes the failure
at its very start. So what matters is how many failures in the log are dated at
or after the rejected attempt: while they are fewer than the limit, no attempt
that waits as told is throttled again, whatever other attempts do meanwhile.
-/

import Trutina.Overshoot

namespace Trutina

open Interaction FailureLog

/-! ### Checks and rejections -/

/-- What follows once an attempt has read the clock. -/
def ThrottledAuthenticator.check (limits : ThrottleLimits)
    (inner : Credentials → AuthAction Identity) (credentials : Credentials)
    (checkedAt : Timestamp) : AuthAction Identity := do
  let key := normalizeEmail credentials.email
  let failures ← PostgresLoginAttemptRepo.countFailures credentials.ip key
    (checkedAt - limits.window)
  ThrottledAuthenticator.attempt limits inner credentials key failures

/-- The pair an attempt is counted under. -/
def Credentials.pair (credentials : Credentials) : String × String :=
  (credentials.ip, normalizeEmail credentials.email)

/-- An attempt on the pair whose clock has read the moment, and that counts next. -/
def Checks (limits : ThrottleLimits) (pair : String × String) (moment : Timestamp)
    (program : AuthAction Identity) : Prop :=
  ∃ credentials : Credentials, credentials.pair = pair ∧
    program = ThrottledAuthenticator.check limits Authenticator.authenticate credentials moment

/-- The attempt is rejected with a hint, in whole seconds. -/
def Rejected (seconds : Nat) (program : AuthAction Identity) : Prop :=
  program.Ends (.error (AppError.throttled seconds))

section Check

variable {limits : ThrottleLimits} {credentials : Credentials} {pair : String × String}
  {moment : Timestamp} {seconds failures : Nat} {key : String} {world : AuthWorld} {env : AuthEnv}
  {hasher : Hasher}

theorem ThrottledAuthenticator.authenticate_of_short
    (short : ¬maxEmailLength < (normalizeEmail credentials.email).length) :
    ThrottledAuthenticator.authenticate limits Authenticator.authenticate credentials =
      .ask .now (ThrottledAuthenticator.check limits Authenticator.authenticate credentials) := by
  simp only [ThrottledAuthenticator.authenticate, if_neg short, Program.perform_bind]
  rfl

theorem AppError.throttled_injective {other : Nat}
    (same : AppError.throttled seconds = AppError.throttled other) : seconds = other := by
  simp only [AppError.throttled, Raised.appError.injEq, List.cons.injEq, Prod.mk.injEq,
    true_and, and_true] at same
  have numbers := Int.repr_injective same
  omega

/-- An attempt is rejected just when its count reaches the limit, and the hint is the window. -/
theorem rejected_attempt_iff :
    Rejected seconds (ThrottledAuthenticator.attempt limits Authenticator.authenticate credentials
      key failures) ↔ limits.maxFailures ≤ failures ∧ seconds = limits.windowSeconds := by
  unfold ThrottledAuthenticator.attempt Rejected
  split
  · rename_i many
    simp only [Program.perform_bind, Program.throw_eq, Program.ends_ask_iff,
      Program.ends_done_iff, Except.error.injEq]
    constructor
    · intro same
      exact ⟨many, (AppError.throttled_injective (same ())).symm⟩
    · rintro ⟨_, rfl⟩ _
      rfl
  · rename_i few
    refine iff_of_false (fun ends => ?_) fun both => few both.1
    -- The authenticator behind the throttle may let the attempt in.
    simp only [Authenticator.authenticate, Program.tryCatch_ask, Program.ask_bind,
      Program.ends_ask_iff] at ends
    have admitted := ends (.ok ⟨""⟩)
    unfold ThrottledAuthenticator.onSuccess at admitted
    split at admitted
    · cases admitted
    · cases admitted (.ok ())

/-- A check whose count fails is not throttled; one that counts is, from the limit on. -/
theorem rejected_check_iff :
    Rejected seconds ((ThrottledAuthenticator.check limits Authenticator.authenticate credentials
      moment).resume (authHandle hasher) env world) ↔
      env.fault = none ∧ limits.maxFailures ≤ world.failures credentials.pair
        (moment - limits.window) ∧ seconds = limits.windowSeconds := by
  simp only [ThrottledAuthenticator.check, PostgresLoginAttemptRepo.countFailures,
    Program.ask_bind, Program.resume, authHandle]
  cases fault : env.fault with
  | some failure =>
    refine iff_of_false (fun ends => ?_) fun all => ?_
    · simp only [transacting, fault, executed_error, Program.error_bind, Rejected,
        Program.ends_done_iff] at ends
      cases failure <;> cases ends
    · cases all.1
  | none =>
    rw [transacting_calm_ok fault, executed_ok, Program.ok_bind, rejected_attempt_iff,
      normalizeEmail_idempotent]
    exact (and_iff_right rfl).symm

/-! ### What the log keeps -/

/-- No failure of the pair is recorded, and the clock does not run back. -/
def QuietFor (pair : String × String) (world : AuthWorld) : AuthCommand → AuthEnv → Prop
  | .now, env => world.clock ≤ env.now
  | .insertAttempt row, env => env.fault = none → row.pair ≠ pair
  | _, _ => True

/-- A transaction that succeeds or fails leaves no more failures than it commits. -/
theorem transacting_failures_le {Value : Type} {transaction : Except SqlError (Value × AuthWorld)}
    {since : Timestamp} (committed : env.fault = none → ∀ value after,
      transaction = .ok (value, after) → after.failures pair since ≤ world.failures pair since) :
    (transacting env world transaction).2.failures pair since ≤ world.failures pair since := by
  rcases transacting_cases env world transaction with ⟨_, still⟩ | ⟨value, after, calm, done, ran⟩
  · rw [still]
  · rw [ran]
    exact committed calm value after done

/-- No step but the recording of a failure of the pair makes the pair count more. -/
theorem AuthWorld.failures_step {command : AuthCommand} (quiet : QuietFor pair world command env)
    (since : Timestamp) :
    (authHandle hasher command env world).2.failures pair since ≤ world.failures pair since := by
  cases command with
  | selectUsers email =>
    refine transacting_failures_le fun _ value after done => ?_
    cases done
    exact le_rfl
  | insertUser user =>
    refine transacting_failures_le fun _ value after done => ?_
    rw [(insertUser_ok_iff.mp done).2.2]
    exact le_rfl
  | updatePasswordHash id passwordHash =>
    refine transacting_failures_le fun _ value after done => ?_
    cases done
    exact le_rfl
  | updateIsActive id isActive =>
    refine transacting_failures_le fun _ value after done => ?_
    cases done
    exact le_rfl
  | countAttempts ip emailKey since =>
    refine transacting_failures_le fun _ value after done => ?_
    cases done
    exact le_rfl
  | insertAttempt row =>
    refine transacting_failures_le fun calm value after done => ?_
    cases done
    rw [AuthWorld.failures, count_append_singleton, if_neg fun own => quiet calm own.1]
    exact le_rfl
  | deleteAttempts ip emailKey =>
    refine transacting_failures_le fun _ value after done => ?_
    cases done
    exact count_le_of_sublist List.filter_sublist
  | deleteAttemptsBefore cutoff =>
    refine transacting_failures_le fun _ value after done => ?_
    cases done
    exact count_le_of_sublist List.filter_sublist
  | now => exact le_rfl
  | uuid4 => exact le_rfl
  | hash password => exact le_rfl
  | verify password passwordHash => exact le_rfl
  | authenticate credentials => exact le_rfl
  | emit event => exact le_rfl

end Check

variable {Thread : Type} [DecidableEq Thread] {hasher : Hasher} {limits : ThrottleLimits}
  {pair : String × String} {rejectedAt : Timestamp} {seconds : Nat}
  {pool later : Pool Thread AuthCommand AuthReply Raised Identity AuthWorld}

/-- In a run without new failures of the pair, the pair counts no more than at its start. -/
theorem failures_run (quiet : Reaches (authHandle hasher)
      (fun world _ command env => QuietFor pair world command env) pool later)
    (since : Timestamp) :
    later.state.failures pair since ≤ pool.state.failures pair since := by
  induction quiet with
  | refl => exact le_rfl
  | step before env asks permitted inductionHypothesis =>
    rw [Pool.step_of_ask asks]
    exact (AuthWorld.failures_step permitted since).trans inductionHypothesis

/-! ### The hint -/

/-- What the hint of a rejection says about a pool: while no failure of the pair is recorded, no
attempt on the pair is rejected whose clock has read a time from the end of the delay on. -/
def HintHolds (hasher : Hasher) (limits : ThrottleLimits) (pair : String × String)
    (rejectedAt : Timestamp) (seconds : Nat)
    (pool : Pool Thread AuthCommand AuthReply Raised Identity AuthWorld) : Prop :=
  ∀ later, Reaches (authHandle hasher) (fun world _ command env => QuietFor pair world command env)
    pool later →
  ∀ thread checkedAt, Checks limits pair checkedAt (later.threads thread) →
    rejectedAt + seconds * 1000000 ≤ checkedAt →
  ∀ env seconds', ¬Rejected seconds' ((later.step (authHandle hasher) thread env).threads thread)

/-- What an attempt is rejected on when its turn to count comes. -/
theorem rejected_step_iff {thread : Thread} {checkedAt : Timestamp} {env : AuthEnv}
    (checks : Checks limits pair checkedAt (pool.threads thread)) :
    Rejected seconds ((pool.step (authHandle hasher) thread env).threads thread) ↔
      env.fault = none ∧ limits.maxFailures ≤ pool.state.failures pair (checkedAt - limits.window) ∧
        seconds = limits.windowSeconds := by
  obtain ⟨credentials, rfl, asks⟩ := checks
  rw [Pool.step_threads, asks, rejected_check_iff]

/-- A check leaves the tables and the clock as they are. -/
theorem Checks.step_state {thread : Thread} {checkedAt : Timestamp} {env : AuthEnv}
    (checks : Checks limits pair checkedAt (pool.threads thread)) :
    (pool.step (authHandle hasher) thread env).state = pool.state := by
  obtain ⟨credentials, rfl, asks⟩ := checks
  have counts : pool.threads thread = .ask (.countAttempts credentials.ip
      (normalizeEmail (normalizeEmail credentials.email)) (checkedAt - limits.window)) _ := asks
  rw [Pool.step_of_ask counts]
  rcases transacting_cases env pool.state (.ok (FailureLog.count LoginAttemptModel.pair
    LoginAttemptModel.attemptedAt (credentials.ip, normalizeEmail
      (normalizeEmail credentials.email)) (checkedAt - limits.window) pool.state.loginAttempts,
      pool.state)) with ⟨_, still⟩ | ⟨value, after, _, done, ran⟩
  · exact still
  · cases done
    exact congrArg Prod.snd ran

section Rejection

variable {first second : Thread} {credentials : Credentials} {env : AuthEnv}

/-- While fewer failures than the limit are dated at or after the rejected attempt, whoever waits
for the length of the window finds too few within it. -/
theorem hintHolds_of_few (checks : Checks limits pair rejectedAt (pool.threads first))
    (few : pool.state.failures pair rejectedAt < limits.maxFailures) :
    HintHolds hasher limits pair rejectedAt limits.windowSeconds
      (pool.step (authHandle hasher) first env) := by
  intro later quiet thread checkedAt checks' waited env' seconds' rejected'
  obtain ⟨_, many, _⟩ := (rejected_step_iff checks').mp rejected'
  have since : rejectedAt ≤ checkedAt - limits.window := le_sub_iff_add_le.mpr waited
  have kept := failures_run quiet rejectedAt
  rw [checks.step_state] at kept
  exact absurd (many.trans ((count_le_of_le since).trans kept)) (not_le.mpr few)

/-- Otherwise an attempt that reads the clock at the end of the delay is rejected again. -/
theorem few_of_hintHolds (checks : Checks limits pair rejectedAt (pool.threads first))
    (own : credentials.pair = pair)
    (short : ¬maxEmailLength < (normalizeEmail credentials.email).length)
    (waiting : pool.threads second =
      ThrottledAuthenticator.authenticate limits Authenticator.authenticate credentials)
    (early : pool.state.clock ≤ rejectedAt + limits.windowSeconds * 1000000)
    (holds : HintHolds hasher limits pair rejectedAt limits.windowSeconds
      (pool.step (authHandle hasher) first env)) :
    pool.state.failures pair rejectedAt < limits.maxFailures := by
  by_contra many
  -- The next attempt reads the clock at the end of the delay, and counts.
  have different : second ≠ first := by
    rintro rfl
    obtain ⟨_, _, asks⟩ := checks
    rw [waiting, ThrottledAuthenticator.authenticate_of_short short] at asks
    cases asks
  have asks : (pool.step (authHandle hasher) first env).threads second =
      .ask .now (ThrottledAuthenticator.check limits Authenticator.authenticate credentials) := by
    rw [Pool.step_other different, waiting, ThrottledAuthenticator.authenticate_of_short short]
  let turn := AuthEnv.calm (rejectedAt + limits.windowSeconds * 1000000) "" ""
  have reads : Reaches (authHandle hasher)
      (fun world _ command env => QuietFor pair world command env)
      (pool.step (authHandle hasher) first env)
      ((pool.step (authHandle hasher) first env).step (authHandle hasher) second turn) := by
    refine Reaches.refl.step turn asks ?_
    rw [checks.step_state]
    exact early
  have checks' : Checks limits pair (rejectedAt + limits.windowSeconds * 1000000)
      (((pool.step (authHandle hasher) first env).step (authHandle hasher) second turn).threads
        second) :=
    ⟨credentials, own, Pool.step_threads.trans (congrArg _ asks)⟩
  refine holds _ reads second _ checks' le_rfl turn limits.windowSeconds
    ((rejected_step_iff checks').mpr ⟨rfl, ?_, rfl⟩)
  rw [Pool.step_of_ask asks, checks.step_state]
  have start : rejectedAt + limits.windowSeconds * 1000000 - limits.window = rejectedAt :=
    add_sub_cancel_right _ _
  rw [start]
  exact not_lt.mp many

/-- An attempt that is rejected is told to wait for the length of the window. While fewer failures
of its pair than the limit are dated at or after its own reading of the clock, nobody who waits for
that long is rejected, in any run of any attempts that records no failure of the pair. Unless the
clock has passed the end of the delay, this is the exact condition: where it fails, the next attempt
is rejected if it comes at that end. -/
theorem retryHint_holds (checks : Checks limits pair rejectedAt (pool.threads first))
    (rejected : Rejected seconds ((pool.step (authHandle hasher) first env).threads first)) :
    (pool.state.failures pair rejectedAt < limits.maxFailures →
      HintHolds hasher limits pair rejectedAt seconds (pool.step (authHandle hasher) first env)) ∧
    ∀ (second : Thread) (credentials : Credentials), credentials.pair = pair →
      ¬maxEmailLength < (normalizeEmail credentials.email).length →
      pool.threads second =
        ThrottledAuthenticator.authenticate limits Authenticator.authenticate credentials →
      pool.state.clock ≤ rejectedAt + seconds * 1000000 →
      (HintHolds hasher limits pair rejectedAt seconds
          (pool.step (authHandle hasher) first env) ↔
        pool.state.failures pair rejectedAt < limits.maxFailures) := by
  obtain ⟨_, _, rfl⟩ := (rejected_step_iff checks).mp rejected
  refine ⟨hintHolds_of_few checks, fun second credentials own short waiting early => ?_⟩
  exact ⟨few_of_hintHolds checks own short waiting early, hintHolds_of_few checks⟩

end Rejection

/-- One attempt has failed when the clock started. -/
def failedOnce : Pool Nat AuthCommand AuthReply Raised Identity AuthWorld :=
  rivalAttempts.execute (authHandle .plain) (List.replicate 6 (0, AuthEnv.calm 0 "" ""))

/-- Another one has read the clock. -/
def hintedAttempts (moment : Timestamp) :
    Pool Nat AuthCommand AuthReply Raised Identity AuthWorld :=
  failedOnce.step (authHandle .plain) 1 (AuthEnv.calm moment "" "")

theorem failedOnce_threads {thread : Nat} (other : thread ≠ 0) :
    failedOnce.threads thread = ThrottledAuthenticator.authenticate .strict
      Authenticator.authenticate ⟨"a@b", "wrong", none⟩ := by
  refine Pool.execute_untouched (fun move member => ?_) rivalAttempts
  rw [List.eq_of_mem_replicate member]
  exact other.symm

theorem rivalAttempts_short : ¬maxEmailLength < (normalizeEmail "a@b").length := by
  decide +kernel

theorem rivalAttempts_pair : (⟨"a@b", "wrong", none⟩ : Credentials).pair = ("unknown", "a@b") := by
  decide +kernel

theorem hintedAttempts_checks (moment : Timestamp) :
    Checks .strict ("unknown", "a@b") moment ((hintedAttempts moment).threads 1) := by
  have asks : failedOnce.threads 1 = .ask .now (ThrottledAuthenticator.check .strict
      Authenticator.authenticate ⟨"a@b", "wrong", none⟩) :=
    (failedOnce_threads Nat.one_ne_zero).trans
      (ThrottledAuthenticator.authenticate_of_short rivalAttempts_short)
  exact ⟨⟨"a@b", "wrong", none⟩, rivalAttempts_pair,
    Pool.step_threads.trans (congrArg (Program.resume _ _ _) asks)⟩

theorem hintedAttempts_rejected {moment : Timestamp}
    (many : 1 ≤ (hintedAttempts moment).state.failures ("unknown", "a@b")
      (moment - ThrottleLimits.strict.window)) :
    Rejected 1 (((hintedAttempts moment).step (authHandle .plain) 1
      (AuthEnv.calm moment "" "")).threads 1) :=
  (rejected_step_iff (hintedAttempts_checks moment)).mpr ⟨rfl, many, rfl⟩

/-- A microsecond after the failure, the hint holds. -/
theorem retryHint_holds_after_failure :
    HintHolds .plain .strict ("unknown", "a@b") 1 1
      ((hintedAttempts 1).step (authHandle .plain) 1 (AuthEnv.calm 1 "" "")) :=
  (retryHint_holds (hintedAttempts_checks 1) (hintedAttempts_rejected (by decide +kernel))).1
    (by decide +kernel)

/-- At the moment of the failure, an attempt is rejected and told to wait for a second, and another
one is rejected a second later. -/
theorem retryHint_fails_at_failure :
    Reaches (authHandle .plain)
      (fun world _ command env => command.undisturbed world.clock env = true)
      rivalAttempts (hintedAttempts 0) ∧
    Checks .strict ("unknown", "a@b") 0 ((hintedAttempts 0).threads 1) ∧
    Rejected 1 (((hintedAttempts 0).step (authHandle .plain) 1
      (AuthEnv.calm 0 "" "")).threads 1) ∧
    ¬HintHolds .plain .strict ("unknown", "a@b") 0 1
      ((hintedAttempts 0).step (authHandle .plain) 1 (AuthEnv.calm 0 "" "")) := by
  refine ⟨?_, hintedAttempts_checks 0, hintedAttempts_rejected (by decide +kernel),
    fun holds => ?_⟩
  · have allowed : rivalAttempts.allows (authHandle .plain)
        (fun world _ command env => command.undisturbed world.clock env = true)
        (List.replicate 6 (0, AuthEnv.calm 0 "" "") ++ [(1, AuthEnv.calm 0 "" "")]) = true := by
      decide +kernel
    exact reaches_execute _ allowed
  · have waiting : (hintedAttempts 0).threads 2 = ThrottledAuthenticator.authenticate .strict
        Authenticator.authenticate ⟨"a@b", "wrong", none⟩ :=
      (Pool.step_other (by decide)).trans (failedOnce_threads (by decide))
    have few := few_of_hintHolds (hintedAttempts_checks 0) rivalAttempts_pair rivalAttempts_short
      waiting (by decide +kernel) holds
    exact absurd few (by decide +kernel)

end Trutina
