/-
This file bounds by how much attempts that run at once overshoot the throttle.
An attempt counts in one step and records in a later one, so several attempts may
be let through on one count, and rows may be purged in between. A monitor tells
in which phase each attempt is. Those that are let through and have not recorded
yet are in flight, and whoever is let through has found too few failures, unless
the window of its count has lost rows already; then the clock is past the
interval, and what it records lands after it. So in any interval of the window's
length, what was recorded and what can still land there stay bounded together.
-/

import Trutina.Authentication
import Mathlib.Data.Finset.Card

namespace Trutina

open Interaction FailureLog

/-! ### The phases of an attempt -/

/-- Where an attempt is, with the reading of the clock that it holds. -/
inductive Phase where
  | waiting
  | checked (moment : Timestamp)
  | admitted
  | stamped (moment : Timestamp)
  | recorded (moment : Timestamp)
  | welcomed
  | settled
  deriving DecidableEq, Repr

/-- What an attempt on a pair asks in each phase. -/
inductive Phase.Asks (limits : ThrottleLimits) (pair : String × String) :
    Phase → AuthCommand → Prop where
  | check : Asks limits pair .waiting .now
  | pass (credentials : Credentials) : Asks limits pair .waiting (.authenticate credentials)
  | count (moment : Timestamp) :
      Asks limits pair (.checked moment) (.countAttempts pair.1 pair.2 (moment - limits.window))
  | enter (credentials : Credentials) : Asks limits pair .admitted (.authenticate credentials)
  | stamp : Asks limits pair .admitted .now
  | record (moment : Timestamp) :
      Asks limits pair (.stamped moment) (.insertAttempt ⟨pair.1, pair.2, moment⟩)
  | purge (moment : Timestamp) :
      Asks limits pair (.recorded moment) (.deleteAttemptsBefore (moment - limits.window))
  | clear : Asks limits pair .welcomed (.deleteAttempts pair.1 pair.2)
  | refuse (event : AuthEvent) : Asks limits pair .settled (.emit event)

/-- The phase after a reply. -/
def Phase.next (limits : ThrottleLimits) (phase : Phase) :
    (command : AuthCommand) → AuthReply command → Phase
  | .now, moment =>
    match phase with
    | .waiting => .checked moment
    | _ => .stamped moment
  | .countAttempts _ _ _, .ok failures =>
    if limits.maxFailures ≤ failures then .settled else .admitted
  | .authenticate _, verdict =>
    match phase, verdict with
    | .admitted, .ok _ => .welcomed
    | .admitted, .error error =>
      if error.code? = some .authInvalidCredentials then .admitted else .settled
    | _, _ => .settled
  | .insertAttempt row, .ok () => .recorded row.attemptedAt
  | _, _ => .settled

/-- The monitor of an attempt on a pair. -/
def attemptMonitor (limits : ThrottleLimits) (pair : String × String) :
    Monitor AuthCommand AuthReply Phase where
  allows := Phase.Asks limits pair
  next := Phase.next limits

/-- An attempt that has begun and can still ask for something that matters. -/
def Phase.Busy (phase : Phase) : Prop :=
  phase ≠ .waiting ∧ phase ≠ .welcomed ∧ phase ≠ .settled

section Programs

variable {key : String}

/-- A failure is stamped, recorded, and what is too old is purged. -/
theorem ThrottledAuthenticator.onError_conforms (limits : ThrottleLimits) (ip : String)
    (normalized : normalizeEmail key = key) (error : Raised) :
    (ThrottledAuthenticator.onError limits ip key error).Conforms
      (attemptMonitor limits (ip, key))
      (fun phase outcome => phase = .settled ∧ outcome.isOk = false)
      (if error.code? = some .authInvalidCredentials then .admitted else .settled) := by
  unfold ThrottledAuthenticator.onError
  split
  · refine Program.conforms_ask .stamp fun moment => ?_
    simp only [PostgresLoginAttemptRepo.recordFailure, PostgresLoginAttemptRepo.purgeBefore,
      Program.ask_bind]
    refine Program.conforms_ask (by rw [normalized]; exact .record moment) ?_
    rintro (failed | ⟨⟩)
    · exact Program.conforms_done ⟨rfl, rfl⟩
    · refine Program.conforms_ask (.purge moment) ?_
      rintro (failed | removed)
      · exact Program.conforms_done ⟨rfl, rfl⟩
      · exact Program.conforms_done ⟨rfl, rfl⟩
  · exact Program.conforms_done ⟨rfl, rfl⟩

/-- After a success the rows of the pair may be cleared. -/
theorem ThrottledAuthenticator.onSuccess_conforms (limits : ThrottleLimits) (ip : String)
    (normalized : normalizeEmail key = key) (failures : Nat) :
    (ThrottledAuthenticator.onSuccess ip key failures).Conforms (attemptMonitor limits (ip, key))
      (fun phase _ => ¬phase.Busy) .welcomed := by
  unfold ThrottledAuthenticator.onSuccess
  split
  · exact Program.conforms_done fun busy => busy.2.1 rfl
  · refine Program.conforms_ask (by rw [normalized]; exact .clear) fun reply => ?_
    exact Program.conforms_done fun busy => busy.2.2 rfl

/-- What follows the count: a refusal, or the inner authenticator and what it answers. -/
theorem ThrottledAuthenticator.attempt_conforms (limits : ThrottleLimits)
    (credentials : Credentials) (normalized : normalizeEmail key = key) (failures : Nat) :
    (ThrottledAuthenticator.attempt limits Authenticator.authenticate credentials key
        failures).Conforms (attemptMonitor limits (credentials.ip, key))
      (fun phase _ => ¬phase.Busy)
      (if limits.maxFailures ≤ failures then .settled else .admitted) := by
  unfold ThrottledAuthenticator.attempt
  split
  · exact Program.conforms_ask (.refuse _) fun _ => Program.conforms_done fun busy => busy.2.2 rfl
  · refine Program.conforms_ask (.enter _) ?_
    rintro (error | identity)
    · refine (ThrottledAuthenticator.onError_conforms limits credentials.ip normalized error).bind
        ?_ ?_
      · rintro phase identity ⟨_, fails⟩
        cases fails
      · rintro phase error ⟨settled, _⟩ busy
        exact busy.2.2 settled
    · refine (ThrottledAuthenticator.onSuccess_conforms limits credentials.ip normalized
        failures).bind ?_ ?_
      · exact fun phase _ idle => Program.conforms_done idle
      · exact fun phase _ idle => idle

/-- The program of an attempt passes through the phases in order. -/
theorem ThrottledAuthenticator.authenticate_conforms (limits : ThrottleLimits)
    (credentials : Credentials) :
    (ThrottledAuthenticator.authenticate limits Authenticator.authenticate credentials).Conforms
      (attemptMonitor limits (credentials.ip, normalizeEmail credentials.email))
      (fun phase _ => ¬phase.Busy) .waiting := by
  have normalized := normalizeEmail_idempotent credentials.email
  unfold ThrottledAuthenticator.authenticate
  simp only
  split
  · refine Program.conforms_ask (.pass _) ?_
    rintro (error | identity)
    · exact Program.conforms_done fun busy => busy.2.2 rfl
    · exact Program.conforms_done fun busy => busy.2.2 rfl
  · refine Program.conforms_ask .check fun moment => ?_
    simp only [PostgresLoginAttemptRepo.countFailures, Program.ask_bind]
    refine Program.conforms_ask (by rw [normalized]; exact .count moment) ?_
    rintro (failed | failures)
    · exact Program.conforms_done fun busy => busy.2.2 rfl
    · exact ThrottledAuthenticator.attempt_conforms limits credentials normalized failures

end Programs

/-! ### What was recorded and what can still land -/

/-- The times in the closed interval of the window's length that starts at `first`. -/
def landed (limits : ThrottleLimits) (first : Timestamp) (times : List Timestamp) : Nat :=
  times.countP fun moment => decide (first ≤ moment ∧ moment ≤ first + limits.window)

/-- Whether a failure of the attempt can still be recorded in that interval. -/
def Phase.Lands (limits : ThrottleLimits) (first clock : Timestamp) : Phase → Prop
  | .admitted => clock ≤ first + limits.window
  | .stamped moment => first ≤ moment ∧ moment ≤ first + limits.window
  | _ => False

/-- The reading of the clock that an attempt holds. -/
def Phase.holds : Phase → Option Timestamp
  | .checked moment => some moment
  | .stamped moment => some moment
  | .recorded moment => some moment
  | _ => none

theorem Phase.Lands.busy {limits : ThrottleLimits} {first clock : Timestamp} {phase : Phase}
    (lands : phase.Lands limits first clock) : phase.Busy := by
  cases phase with
  | admitted | stamped => exact ⟨Phase.noConfusion, Phase.noConfusion, Phase.noConfusion⟩
  | waiting | checked | recorded | welcomed | settled => cases lands

/-- A later clock leaves less room. -/
theorem Phase.Lands.earlier {limits : ThrottleLimits} {first clock later : Timestamp}
    {phase : Phase} (lands : phase.Lands limits first later) (onward : clock ≤ later) :
    phase.Lands limits first clock := by
  cases phase with
  | admitted => exact onward.trans lands
  | stamped moment => exact lands
  | waiting | checked | recorded | welcomed | settled => cases lands

/-- The rows of a pair from a time on. -/
def AuthWorld.failures (world : AuthWorld) (pair : String × String) (since : Timestamp) : Nat :=
  count LoginAttemptModel.pair LoginAttemptModel.attemptedAt pair since world.loginAttempts

variable {Thread : Type} [DecidableEq Thread]

/-- The invariant of a run: the table still has whatever was recorded within a window before the
clock, no attempt holds a time ahead of the clock, and in every interval what was recorded and
what can still land stay within the bound together. -/
structure Bounded (limits : ThrottleLimits) (pair : String × String) (atOnce : Nat)
    (phases : Thread → Phase) (times : List Timestamp) (world : AuthWorld) : Prop where
  table : ∀ since, world.clock - limits.window ≤ since →
    (times.countP fun moment => decide (since ≤ moment)) ≤ world.failures pair since
  past : ∀ thread moment, (phases thread).holds = some moment → moment ≤ world.clock
  unwelcomed : ∀ thread, phases thread ≠ .welcomed
  bounded : ∀ first (threads : Finset Thread),
    (∀ thread ∈ threads, (phases thread).Lands limits first world.clock) →
      landed limits first times + threads.card ≤ limits.maxFailures + atOnce - 1

namespace Bounded

variable {limits : ThrottleLimits} {pair : String × String} {atOnce : Nat}
  {phases : Thread → Phase} {times : List Timestamp} {world after : AuthWorld} {mover : Thread}
  {phase : Phase}

theorem past_update (bounded : Bounded limits pair atOnce phases times world)
    (onward : world.clock ≤ after.clock)
    (past : ∀ moment, phase.holds = some moment → moment ≤ after.clock) :
    ∀ thread moment, (Function.update phases mover phase thread).holds = some moment →
      moment ≤ after.clock :=
  (Function.forall_update_iff phases
    fun _ phase => ∀ moment, phase.holds = some moment → moment ≤ after.clock).mpr
    ⟨past, fun thread _ moment holds => (bounded.past thread moment holds).trans onward⟩

theorem unwelcomed_update (bounded : Bounded limits pair atOnce phases times world)
    (unwelcomed : phase ≠ .welcomed) :
    ∀ thread, Function.update phases mover phase thread ≠ .welcomed :=
  (Function.forall_update_iff phases fun _ phase => phase ≠ .welcomed).mpr
    ⟨unwelcomed, fun thread _ => bounded.unwelcomed thread⟩

/-- A step that leaves the table as it is, after which the mover has no more room than before. -/
theorem quiet (bounded : Bounded limits pair atOnce phases times world)
    (rows : after.loginAttempts = world.loginAttempts) (onward : world.clock ≤ after.clock)
    (lands : ∀ first, phase.Lands limits first after.clock →
      (phases mover).Lands limits first world.clock)
    (past : ∀ moment, phase.holds = some moment → moment ≤ after.clock)
    (unwelcomed : phase ≠ .welcomed) :
    Bounded limits pair atOnce (Function.update phases mover phase) times after where
  table since within := by
    rw [AuthWorld.failures, rows]
    exact bounded.table since ((Int.sub_le_sub_right onward _).trans within)
  past := bounded.past_update onward past
  unwelcomed := bounded.unwelcomed_update unwelcomed
  bounded first threads landing := by
    refine bounded.bounded first threads fun thread member => ?_
    have lands' := landing thread member
    by_cases same : thread = mover
    · subst same
      rw [Function.update_self] at lands'
      exact lands first lands'
    · rw [Function.update_of_ne same] at lands'
      exact lands'.earlier onward

/-- An attempt is let through: it has counted fewer failures than the limit, unless rows of its
window are gone, and then the clock is past every interval that had them. -/
theorem enter (bounded : Bounded limits pair atOnce phases times world) {moment : Timestamp}
    (checked : phases mover = .checked moment)
    (few : world.failures pair (moment - limits.window) < limits.maxFailures)
    (crowd : ∀ threads : Finset Thread, (∀ thread ∈ threads, (phases thread).Busy) →
      threads.card ≤ atOnce) :
    Bounded limits pair atOnce (Function.update phases mover .admitted) times world where
  table := bounded.table
  past := bounded.past_update le_rfl (by rintro moment ⟨⟩)
  unwelcomed := bounded.unwelcomed_update Phase.noConfusion
  bounded first threads landing := by
    by_cases own : mover ∈ threads
    · have room := landing mover own
      rw [Function.update_self] at room
      have stale : moment ≤ world.clock := bounded.past mover moment (by rw [checked]; rfl)
      have kept : world.clock - limits.window ≤ first := Int.sub_right_le_of_le_add room
      have before : moment - limits.window ≤ first := (Int.sub_le_sub_right stale _).trans kept
      have found : landed limits first times < limits.maxFailures := by
        calc landed limits first times
            ≤ times.countP fun moment => decide (first ≤ moment) :=
              List.countP_mono_left fun moment _ within =>
                decide_eq_true (of_decide_eq_true within).1
          _ ≤ world.failures pair first := bounded.table first kept
          _ ≤ world.failures pair (moment - limits.window) := count_le_of_le before
          _ < limits.maxFailures := few
      have busy : threads.card ≤ atOnce := crowd threads fun thread member => by
        have lands := landing thread member
        by_cases same : thread = mover
        · subst same
          rw [checked]
          exact ⟨Phase.noConfusion, Phase.noConfusion, Phase.noConfusion⟩
        · rw [Function.update_of_ne same] at lands
          exact lands.busy
      omega
    · refine bounded.bounded first threads fun thread member => ?_
      have different : thread ≠ mover := fun same => own (same ▸ member)
      have lands := landing thread member
      rwa [Function.update_of_ne different] at lands

/-- A failure is recorded: what could land has landed. -/
theorem record (bounded : Bounded limits pair atOnce phases times world) {moment : Timestamp}
    (stamped : phases mover = .stamped moment) :
    Bounded limits pair atOnce (Function.update phases mover (.recorded moment))
      (times ++ [moment])
      { world with loginAttempts := world.loginAttempts ++ [⟨pair.1, pair.2, moment⟩] } where
  table since within := by
    have before := bounded.table since within
    rw [AuthWorld.failures] at before ⊢
    rw [count_append_singleton, List.countP_append, List.countP_singleton]
    by_cases counted : since ≤ moment
    · rw [if_pos (decide_eq_true counted), if_pos ⟨rfl, counted⟩]
      exact Nat.add_le_add_right before 1
    · rw [if_neg (by rw [decide_eq_true_eq]; exact counted), if_neg fun both => counted both.2]
      exact before
  past := bounded.past_update le_rfl (by
    rintro reading ⟨⟩
    exact bounded.past mover moment (by rw [stamped]; rfl))
  unwelcomed := bounded.unwelcomed_update Phase.noConfusion
  bounded first threads landing := by
    have apart : mover ∉ threads := fun own => by
      have lands := landing mover own
      rw [Function.update_self] at lands
      cases lands
    have others : ∀ thread ∈ threads, (phases thread).Lands limits first world.clock := by
      intro thread member
      have lands := landing thread member
      have different : thread ≠ mover := fun same => apart (same ▸ member)
      rwa [Function.update_of_ne different] at lands
    rw [landed, List.countP_append, List.countP_singleton, ← landed]
    by_cases within : first ≤ moment ∧ moment ≤ first + limits.window
    · have all := bounded.bounded first (insert mover threads) fun thread member => by
        rcases Finset.mem_insert.mp member with rfl | other
        · rw [stamped]
          exact within
        · exact others thread other
      rw [Finset.card_insert_of_notMem apart] at all
      rw [if_pos (decide_eq_true within)]
      omega
    · rw [if_neg (by rw [decide_eq_true_eq]; exact within)]
      exact bounded.bounded first threads others

/-- A purge removes only what is out of every window that ends at the clock or later. -/
theorem purge (bounded : Bounded limits pair atOnce phases times world) {moment : Timestamp}
    (recorded : phases mover = .recorded moment) :
    Bounded limits pair atOnce (Function.update phases mover .settled) times
      { world with
        loginAttempts := FailureLog.purge LoginAttemptModel.attemptedAt (moment - limits.window)
          world.loginAttempts } := by
  have past : moment ≤ world.clock := bounded.past mover moment (by rw [recorded]; rfl)
  have settled : Bounded limits pair atOnce (Function.update phases mover .settled) times world :=
    bounded.quiet rfl le_rfl (by rintro first ⟨⟩) (by rintro moment ⟨⟩) Phase.noConfusion
  refine ⟨fun since within => ?_, settled.past, settled.unwelcomed, settled.bounded⟩
  rw [AuthWorld.failures, count_purge ((Int.sub_le_sub_right past _).trans within)]
  exact settled.table since within

/-- A step after which the attempt is over, with the table as it was. -/
theorem settle (bounded : Bounded limits pair atOnce phases times world)
    (rows : after.loginAttempts = world.loginAttempts) (onward : world.clock ≤ after.clock) :
    Bounded limits pair atOnce (Function.update phases mover .settled) times after :=
  bounded.quiet rows onward (by rintro first ⟨⟩) (by rintro moment ⟨⟩) Phase.noConfusion

end Bounded

/-! ### Runs -/

/-- The clock does not run back, and the inner authenticator lets nobody in. -/
def AuthCommand.undisturbed (clock : Timestamp) (env : AuthEnv) : AuthCommand → Bool
  | .now => decide (clock ≤ env.now)
  | .authenticate _ => !env.verdict.isOk
  | _ => true

/-- The time that a step records. -/
def recordedTime (env : AuthEnv) : AuthCommand → Option Timestamp
  | .insertAttempt row => if env.fault = none then some row.attemptedAt else none
  | _ => none

/-- The times of all failures that were recorded in a run. -/
def recordedTimes (trace : List (Move Thread AuthCommand AuthEnv AuthWorld)) : List Timestamp :=
  trace.filterMap fun move => recordedTime move.env move.command

/-- Every step of an attempt keeps the invariant. -/
theorem Bounded.step {limits : ThrottleLimits} {pair : String × String} {atOnce : Nat}
    {phases : Thread → Phase} {times : List Timestamp} {world : AuthWorld} {mover : Thread}
    {command : AuthCommand} {env : AuthEnv} (hasher : Hasher)
    (bounded : Bounded limits pair atOnce phases times world)
    (asks : (phases mover).Asks limits pair command)
    (undisturbed : command.undisturbed world.clock env = true)
    (crowd : ∀ threads : Finset Thread, (∀ thread ∈ threads, (phases thread).Busy) →
      threads.card ≤ atOnce) :
    Bounded limits pair atOnce
      (Function.update phases mover
        ((phases mover).next limits command (authHandle hasher command env world).1))
      (times ++ (recordedTime env command).toList) (authHandle hasher command env world).2 := by
  obtain ⟨phase, current⟩ : ∃ phase, phases mover = phase := ⟨_, rfl⟩
  rw [current] at asks ⊢
  cases asks with
  | check =>
    simp only [recordedTime, Option.toList_none, List.append_nil]
    refine bounded.quiet rfl (of_decide_eq_true undisturbed) (by rintro first ⟨⟩) ?_
      Phase.noConfusion
    rintro moment ⟨⟩
    exact le_rfl
  | pass credentials =>
    simp only [recordedTime, Option.toList_none, List.append_nil]
    exact bounded.settle rfl le_rfl
  | count moment =>
    simp only [recordedTime, Option.toList_none, List.append_nil]
    cases fault : env.fault with
    | some fault =>
      simp only [authHandle, transacting, fault]
      exact bounded.settle rfl le_rfl
    | none =>
      simp only [authHandle, transacting, fault, Phase.next]
      split
      · exact bounded.settle rfl le_rfl
      · rename_i few
        exact bounded.enter current (not_le.mp few) crowd
  | enter credentials =>
    simp only [recordedTime, Option.toList_none, List.append_nil]
    cases verdict : env.verdict with
    | ok identity =>
      rw [AuthCommand.undisturbed, verdict] at undisturbed
      cases undisturbed
    | error error =>
      simp only [authHandle, verdict, Phase.next]
      split
      · exact bounded.quiet rfl le_rfl (fun first lands => current ▸ lands) (by rintro moment ⟨⟩)
          Phase.noConfusion
      · exact bounded.settle rfl le_rfl
  | stamp =>
    simp only [recordedTime, Option.toList_none, List.append_nil]
    have onward : world.clock ≤ env.now := of_decide_eq_true undisturbed
    refine bounded.quiet rfl onward ?_ ?_ Phase.noConfusion
    · rintro first ⟨_, within⟩
      rw [current]
      exact onward.trans within
    · rintro moment ⟨⟩
      exact le_rfl
  | record moment =>
    cases fault : env.fault with
    | some fault =>
      simp only [recordedTime, fault, reduceCtorEq, if_false, Option.toList_none, List.append_nil,
        authHandle, transacting]
      exact bounded.settle rfl le_rfl
    | none =>
      rw [recordedTime, if_pos fault]
      simp only [authHandle, transacting, fault]
      exact bounded.record current
  | purge moment =>
    simp only [recordedTime, Option.toList_none, List.append_nil]
    cases fault : env.fault with
    | some fault =>
      simp only [authHandle, transacting, fault]
      exact bounded.settle rfl le_rfl
    | none =>
      simp only [authHandle, transacting, fault]
      exact bounded.purge current
  | clear => exact absurd current (bounded.unwelcomed mover)
  | refuse event =>
    simp only [recordedTime, Option.toList_none, List.append_nil]
    exact bounded.settle rfl le_rfl

variable {hasher : Hasher} {limits : ThrottleLimits} {pair : String × String} {atOnce : Nat}
  {credentials : Thread → Credentials}
  {start pool : Pool Thread AuthCommand AuthReply Raised Identity AuthWorld}
  {trace : List (Move Thread AuthCommand AuthEnv AuthWorld)}

/-- What a run is allowed to do: its steps are undisturbed, and before each of them at most so many
attempts are in flight. -/
def Crowd (atOnce : Nat) (trace : List (Move Thread AuthCommand AuthEnv AuthWorld))
    (pool : Pool Thread AuthCommand AuthReply Raised Identity AuthWorld)
    (move : Move Thread AuthCommand AuthEnv AuthWorld) : Prop :=
  move.command.undisturbed move.before.clock move.env = true ∧
    (pool.inFlight trace).length ≤ atOnce

/-- A pool of attempts on one pair that have not begun. -/
def Pool.Attempts (limits : ThrottleLimits) (pair : String × String)
    (credentials : Thread → Credentials)
    (pool : Pool Thread AuthCommand AuthReply Raised Identity AuthWorld) : Prop :=
  ∀ thread, ((credentials thread).ip, normalizeEmail (credentials thread).email) = pair ∧
    pool.threads thread = ThrottledAuthenticator.authenticate limits Authenticator.authenticate
      (credentials thread)

/-- The phase of each attempt. -/
def phasesOf (hasher : Hasher) (limits : ThrottleLimits) (pair : String × String)
    (trace : List (Move Thread AuthCommand AuthEnv AuthWorld)) (thread : Thread) : Phase :=
  (attemptMonitor limits pair).after (authHandle hasher) thread .waiting trace

theorem conforms_of_walks (attempts : Pool.Attempts limits pair credentials start)
    (walks : Walks (authHandle hasher) (Crowd atOnce) start trace pool) (thread : Thread) :
    (pool.threads thread).Conforms (attemptMonitor limits pair) (fun phase _ => ¬phase.Busy)
      (phasesOf hasher limits pair trace thread) := by
  refine Walks.conforms (attemptMonitor limits pair) (fun phase _ => ¬phase.Busy) .waiting thread
    ?_ walks fun _ _ _ => trivial
  obtain ⟨rfl, own⟩ := attempts thread
  rw [own]
  exact ThrottledAuthenticator.authenticate_conforms limits (credentials thread)

/-- Attempts that are busy are in flight. -/
theorem card_busy_le (attempts : Pool.Attempts limits pair credentials start)
    (walks : Walks (authHandle hasher) (Crowd atOnce) start trace pool)
    (within : (pool.inFlight trace).length ≤ atOnce) (threads : Finset Thread)
    (busy : ∀ thread ∈ threads, (phasesOf hasher limits pair trace thread).Busy) :
    threads.card ≤ atOnce := by
  have flying : threads ⊆ (pool.inFlight trace).toFinset := by
    intro thread member
    have active := busy thread member
    rw [List.mem_toFinset, Pool.mem_inFlight_iff]
    refine ⟨Monitor.moved_of_after_ne active.1, Bool.eq_false_iff.mpr fun ended => ?_⟩
    obtain ⟨outcome, done⟩ := Program.ended_iff.mp ended
    have conforms := conforms_of_walks attempts walks thread
    rw [done] at conforms
    exact conforms.promised active
  calc threads.card ≤ (pool.inFlight trace).toFinset.card := Finset.card_le_card flying
    _ ≤ (pool.inFlight trace).length := List.toFinset_card_le _
    _ ≤ atOnce := within

/-- The invariant holds in every run. -/
theorem Bounded.run (attempts : Pool.Attempts limits pair credentials start)
    (walks : Walks (authHandle hasher) (Crowd atOnce) start trace pool) :
    Bounded limits pair atOnce (phasesOf hasher limits pair trace) (recordedTimes trace)
      pool.state := by
  induction walks with
  | refl =>
    refine ⟨fun since _ => Nat.zero_le _, by rintro thread moment ⟨⟩,
      fun thread => Phase.noConfusion, fun first threads landing => ?_⟩
    have none : threads = ∅ := Finset.eq_empty_of_forall_notMem fun thread member => by
      cases landing thread member
    rw [none]
    exact Nat.zero_le _
  | @step trace pool mover command next before env asks permitted inductionHypothesis =>
    obtain ⟨undisturbed, within⟩ := permitted
    have conforms := conforms_of_walks attempts before mover
    rw [asks] at conforms
    have moved := inductionHypothesis.step hasher conforms.allowed undisturbed
      (card_busy_le attempts before within)
    have phases : phasesOf hasher limits pair
        (trace ++ [⟨mover, command, env, pool.state⟩]) = _ := Monitor.after_append
    have times : recordedTimes (trace ++ [⟨mover, command, env, pool.state⟩]) =
        recordedTimes trace ++ (recordedTime env command).toList := by
      rw [recordedTimes, List.filterMap_append, ← recordedTimes]
      cases recorded : recordedTime env command <;> simp [recorded]
    rw [phases, times, Pool.step_of_ask asks]
    exact moved

/-! ### The bound -/

/-- However attempts on one pair interleave, with at most `atOnce` of them in flight and none of
them succeeding, no closed interval of the window's length has more recorded failures than the
limit and the attempts in flight, less one. -/
theorem throttle_overshoot_bounded (attempts : Pool.Attempts limits pair credentials start)
    (walks : Walks (authHandle hasher) (Crowd atOnce) start trace pool) (first : Timestamp) :
    landed limits first (recordedTimes trace) ≤ limits.maxFailures + atOnce - 1 :=
  (Bounded.run attempts walks).bounded first ∅ (by simp)

instance (atOnce : Nat) (trace : List (Move Thread AuthCommand AuthEnv AuthWorld))
    (pool : Pool Thread AuthCommand AuthReply Raised Identity AuthWorld)
    (move : Move Thread AuthCommand AuthEnv AuthWorld) : Decidable (Crowd atOnce trace pool move) :=
  inferInstanceAs (Decidable (_ ∧ _))

/-- Attempts on one pair, none of which has begun. -/
def rivalAttempts : Pool Nat AuthCommand AuthReply Raised Identity AuthWorld where
  state := .empty
  threads := fun _ => ThrottledAuthenticator.authenticate .strict Authenticator.authenticate
    ⟨"a@b", "wrong", none⟩

/-- Two attempts take turns and a third one comes after them. -/
def rivalSchedule : List (Nat × AuthEnv) :=
  [0, 1, 0, 1, 0, 1, 0, 1, 0, 1, 0, 1, 2, 2, 2].map fun thread => (thread, .calm 0 "" "")

/-- With a limit of one failure and two attempts in flight, the bound of two is reached. -/
theorem throttle_overshoot_bounded_of_rivals :
    let trace := rivalAttempts.traceOf (authHandle .plain) rivalSchedule []
    landed .strict 0 (recordedTimes trace) ≤ 1 + 2 - 1 ∧
      landed .strict 0 (recordedTimes trace) = 2 := by
  refine ⟨?_, by decide +kernel⟩
  have walks : Walks (authHandle .plain) (Crowd 2) rivalAttempts _ _ :=
    Walks.refl.execute rivalSchedule (by decide +kernel)
  have attempts : Pool.Attempts .strict (unknownClientIp, normalizeEmail "a@b")
      (fun _ => ⟨"a@b", "wrong", none⟩) rivalAttempts :=
    fun _ => ⟨rfl, by simp only [rivalAttempts]⟩
  exact throttle_overshoot_bounded attempts walks 0

end Trutina
