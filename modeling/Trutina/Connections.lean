/-
This file models who opens and closes connections. A connection is an engine that
has been checked once. A command line context opens one when a repository is
first asked for, keeps it with everything that is built over it, and forgets all
of it when it is closed; the API opens one for as long as it runs. Engines are
numbered in the order of their creation, and what their checks and disposals come
to is given for each number, so that everything here holds for whatever happens.
-/

import Trutina.Middleware
import Trutina.Stateful

namespace Trutina

open Stateful

/-! ### Engines -/

/-- What the check of a new engine comes to. The causes of an operational error are its chain, and
tell which of them are timeouts. -/
inductive Check where
  | reachable
  | operationalError (timeouts : List Bool)
  | other (failure : Failure)

/-- Whether an operational error is caused by a timeout, at any distance. -/
def isTimeout (timeouts : List Bool) : Bool := timeouts.any id

inductive EngineStatus where
  | usable
  | disposed
  deriving DecidableEq, Repr

/-- The world of engines: whether an engine can be made for the settings, and what checks and
disposals come to. -/
structure Surroundings where
  malformed : Option Failure
  check : Nat → Check
  disposal : Nat → Option Failure

/-- The engines that have been created, and the events about them. -/
structure Engines where
  statuses : List EngineStatus
  events : List String

/-- The state of a session: its engines, and what it keeps itself. -/
structure Session (Kept : Type) where
  engines : Engines
  kept : Kept

section Connections

variable {Kept : Type} (surroundings : Surroundings)

abbrev Steps (Kept Result : Type) : Type := Computation (Session Kept) Failure Result

def Session.onEngines (update : Engines → Engines) (session : Session Kept) : Session Kept :=
  { session with engines := update session.engines }

def logEvent (event : String) : Steps Kept Unit :=
  Computation.change <| Session.onEngines fun engines =>
    { engines with events := engines.events ++ [event] }

def createAsyncEngine : Steps Kept Nat := do
  match surroundings.malformed with
  | some failure => Computation.raise failure
  | none =>
    let session ← Computation.read
    Computation.change <| Session.onEngines fun engines =>
      { engines with statuses := engines.statuses ++ [.usable] }
    return session.engines.statuses.length

def dispose (engine : Nat) : Steps Kept Unit := do
  match surroundings.disposal engine with
  | some failure => Computation.raise failure
  | none =>
    Computation.change <| Session.onEngines fun engines =>
      { engines with statuses := engines.statuses.set engine .disposed }

/-- Create an engine and check it. An engine whose check fails operationally is disposed. -/
def connect : Steps Kept Nat := do
  let engine ← createAsyncEngine surroundings
  match surroundings.check engine with
  | .operationalError timeouts =>
    dispose surroundings engine
    if isTimeout timeouts then Computation.raise (.service AppError.storageTimeout)
    else Computation.raise (.service AppError.storageUnavailable)
  | .other failure => Computation.raise failure
  | .reachable =>
    logEvent "db.connected"
    return engine

def disconnect (engine : Nat) : Steps Kept Unit := do
  dispose surroundings engine
  logEvent "db.disconnected"

end Connections

/-! ### The context of a command line -/

inductive RepoKind where
  | account
  | journal
  | posting
  | trialBalance
  deriving DecidableEq, Repr

/-- A repository that the caller has supplied, or one over an engine. -/
inductive RepoHandle where
  | injected (kind : RepoKind)
  | postgres (kind : RepoKind) (engine : Nat)
  deriving DecidableEq, Repr

structure AccountServiceHandle where
  repo : RepoHandle
  hasPostings : RepoHandle
  deriving DecidableEq, Repr

structure JournalServiceHandle where
  repo : RepoHandle
  accountService : AccountServiceHandle
  deriving DecidableEq, Repr

structure PostingServiceHandle where
  repo : RepoHandle
  journalService : JournalServiceHandle
  deriving DecidableEq, Repr

structure TrialBalanceServiceHandle where
  repo : RepoHandle
  deriving DecidableEq, Repr

structure CliContext where
  connection : Option Nat
  repo : RepoKind → Option RepoHandle
  repoInjected : RepoKind → Bool
  accountService : Option AccountServiceHandle
  journalService : Option JournalServiceHandle
  postingService : Option PostingServiceHandle
  trialBalanceService : Option TrialBalanceServiceHandle

/-- A new context, with the repositories that its caller supplies. -/
def CliContext.init (given : RepoKind → Bool) : CliContext where
  connection := none
  repo kind := if given kind then some (.injected kind) else none
  repoInjected := given
  accountService := none
  journalService := none
  postingService := none
  trialBalanceService := none

abbrev CliSession := Session CliContext

def setKept {Kept : Type} (update : Kept → Kept) : Steps Kept Unit :=
  Computation.change fun session => { session with kept := update session.kept }

/-- What is kept in a slot, or else what is made. -/
def cachedOr {Cached : Type} (slot : CliContext → Option Cached)
    (make : Steps CliContext Cached) : Steps CliContext Cached := do
  let session ← Computation.read
  match slot session.kept with
  | some cached => return cached
  | none => make

section Context

variable (surroundings : Surroundings)

def getConnection : Steps CliContext Nat :=
  cachedOr CliContext.connection do
    let engine ← connect surroundings
    setKept fun context => { context with connection := some engine }
    return engine

def getRepo (kind : RepoKind) : Steps CliContext RepoHandle :=
  cachedOr (fun context => context.repo kind) do
    let engine ← getConnection surroundings
    setKept fun context =>
      { context with repo := Function.update context.repo kind (some (.postgres kind engine)) }
    return .postgres kind engine

def getAccountRepo : Steps CliContext RepoHandle := getRepo surroundings .account

def getJournalRepo : Steps CliContext RepoHandle := getRepo surroundings .journal

def getPostingRepo : Steps CliContext RepoHandle := getRepo surroundings .posting

def getTrialBalanceRepo : Steps CliContext RepoHandle := getRepo surroundings .trialBalance

def getAccountService : Steps CliContext AccountServiceHandle :=
  cachedOr CliContext.accountService do
    let postingRepo ← getPostingRepo surroundings
    let accountRepo ← getAccountRepo surroundings
    setKept fun context => { context with accountService := some ⟨accountRepo, postingRepo⟩ }
    return ⟨accountRepo, postingRepo⟩

def getJournalService : Steps CliContext JournalServiceHandle :=
  cachedOr CliContext.journalService do
    let journalRepo ← getJournalRepo surroundings
    let accountService ← getAccountService surroundings
    setKept fun context => { context with journalService := some ⟨journalRepo, accountService⟩ }
    return ⟨journalRepo, accountService⟩

def getPostingService : Steps CliContext PostingServiceHandle :=
  cachedOr CliContext.postingService do
    let postingRepo ← getPostingRepo surroundings
    let journalService ← getJournalService surroundings
    setKept fun context => { context with postingService := some ⟨postingRepo, journalService⟩ }
    return ⟨postingRepo, journalService⟩

def getTrialBalanceService : Steps CliContext TrialBalanceServiceHandle :=
  cachedOr CliContext.trialBalanceService do
    let repo ← getTrialBalanceRepo surroundings
    setKept fun context => { context with trialBalanceService := some ⟨repo⟩ }
    return ⟨repo⟩

/-- Forget the connection and all that was built over it. -/
def CliContext.reset (context : CliContext) : CliContext where
  connection := none
  repo kind := if context.repoInjected kind then context.repo kind else none
  repoInjected := context.repoInjected
  accountService := none
  journalService := none
  postingService := none
  trialBalanceService := none

/-- Close the connection, if there is one, and forget it however that ends. -/
def aclose : Steps CliContext Unit :=
  Computation.andFinally (do
    let session ← Computation.read
    match session.kept.connection with
    | some engine => disconnect surroundings engine
    | none => return)
    (setKept CliContext.reset)

end Context

/-! ### The services of the API -/

structure Container where
  accountService : AccountServiceHandle
  journalService : JournalServiceHandle
  postingService : PostingServiceHandle
  trialBalanceService : TrialBalanceServiceHandle

/-- Every service over one engine. -/
def buildContainer (engine : Nat) : Container :=
  let accountRepo := RepoHandle.postgres .account engine
  let journalRepo := RepoHandle.postgres .journal engine
  let postingRepo := RepoHandle.postgres .posting engine
  let trialBalanceRepo := RepoHandle.postgres .trialBalance engine
  let accountService : AccountServiceHandle := ⟨accountRepo, postingRepo⟩
  let journalService : JournalServiceHandle := ⟨journalRepo, accountService⟩
  let postingService : PostingServiceHandle := ⟨postingRepo, journalService⟩
  ⟨accountService, journalService, postingService, ⟨trialBalanceRepo⟩⟩

/-- Connect, serve for as long as it takes, and disconnect however serving ends. -/
def lifespan (surroundings : Surroundings) (serving : Except Failure Unit) :
    Steps (Option Container) Unit := do
  let engine ← connect surroundings
  setKept fun _ => some (buildContainer engine)
  logEvent "app.started"
  Computation.andFinally (Computation.ofExcept serving) do
    disconnect surroundings engine
    logEvent "app.stopped"

/-! ### Engines that are left -/

section Left

variable {Kept : Type} {surroundings : Surroundings} {session : Session Kept}

/-- An engine that is never disposed: its check fails otherwise than operationally, or its disposal
fails. -/
def Surroundings.Strands (surroundings : Surroundings) (engine : Nat) : Prop :=
  (∃ failure, surroundings.check engine = .other failure) ∨
    ∃ failure, surroundings.disposal engine = some failure

/-- Only the connection is usable, and engines that are stranded. -/
def Engines.Accounted (surroundings : Surroundings) (engines : Engines)
    (connection : Option Nat) : Prop :=
  ∀ engine, engines.statuses[engine]? = some .usable →
    connection = some engine ∨ surroundings.Strands engine

/-- The number of the next engine. -/
def Session.next (session : Session Kept) : Nat := session.engines.statuses.length

/-- A session with one more engine. -/
def Session.withEngine (status : EngineStatus) (session : Session Kept) : Session Kept :=
  session.onEngines fun engines => { engines with statuses := engines.statuses ++ [status] }

def Session.logged (event : String) (session : Session Kept) : Session Kept :=
  session.onEngines fun engines => { engines with events := engines.events ++ [event] }

def Session.disposing (engine : Nat) (session : Session Kept) : Session Kept :=
  session.onEngines fun engines =>
    { engines with statuses := engines.statuses.set engine .disposed }

theorem createAsyncEngine_eq (surroundings : Surroundings) (session : Session Kept) :
    createAsyncEngine surroundings session =
      match surroundings.malformed with
      | some failure => (.error failure, session)
      | none => (.ok session.next, session.withEngine .usable) := by
  unfold createAsyncEngine
  cases surroundings.malformed <;> rfl

theorem dispose_eq (surroundings : Surroundings) (engine : Nat) (session : Session Kept) :
    dispose surroundings engine session =
      match surroundings.disposal engine with
      | some failure => (.error failure, session)
      | none => (.ok (), session.disposing engine) := by
  unfold dispose
  cases surroundings.disposal engine <;> rfl

theorem disposing_withEngine (session : Session Kept) :
    (session.withEngine .usable).disposing session.next = session.withEngine .disposed := by
  have statuses : (session.engines.statuses ++ [EngineStatus.usable]).set session.next .disposed =
      session.engines.statuses ++ [.disposed] := by
    rw [Session.next, List.set_append_right _ _ (le_refl _), Nat.sub_self]
    rfl
  show Session.mk ⟨(session.engines.statuses ++ [EngineStatus.usable]).set session.next .disposed,
    _⟩ _ = _
  rw [statuses]
  rfl

/-- A connection is made or fails, and nothing that is kept is touched. -/
theorem connect_cases (surroundings : Surroundings) (session : Session Kept) :
    (∃ failure, connect surroundings session = (.error failure, session)) ∨
    (∃ failure status,
      connect surroundings session = (.error failure, session.withEngine status) ∧
        (status = .usable → surroundings.Strands session.next)) ∨
    connect surroundings session =
      (.ok session.next, (session.withEngine .usable).logged "db.connected") := by
  have created := createAsyncEngine_eq surroundings session
  cases malformed : surroundings.malformed with
  | some failure =>
    rw [malformed] at created
    refine .inl ⟨failure, ?_⟩
    rw [connect, bind_eq, created]
  | none =>
    rw [malformed] at created
    rw [connect, bind_eq, created]
    simp only
    cases checked : surroundings.check session.next with
    | reachable => exact .inr (.inr rfl)
    | other failure => exact .inr (.inl ⟨failure, .usable, rfl, fun _ => .inl ⟨failure, checked⟩⟩)
    | operationalError timeouts =>
      simp only
      rw [bind_eq, dispose_eq]
      cases disposed : surroundings.disposal session.next with
      | some failure =>
        exact .inr (.inl ⟨failure, .usable, rfl, fun _ => .inr ⟨failure, disposed⟩⟩)
      | none =>
        simp only [disposing_withEngine]
        cases isTimeout timeouts with
        | true => exact .inr (.inl ⟨_, .disposed, rfl, nofun⟩)
        | false => exact .inr (.inl ⟨_, .disposed, rfl, nofun⟩)

/-- The engines of a session with one more are those before and the new one. -/
theorem withEngine_statuses {status found : EngineStatus} {engine : Nat}
    (at' : (session.withEngine status).engines.statuses[engine]? = some found) :
    session.engines.statuses[engine]? = some found ∨ (engine = session.next ∧ status = found) := by
  have appended : (session.engines.statuses ++ [status])[engine]? = some found := at'
  rw [List.getElem?_append] at appended
  split at appended
  next before => exact .inl appended
  next later =>
    have bound := List.getElem?_eq_some_iff.mp appended
    obtain ⟨inside, same⟩ := bound
    rw [List.length_singleton] at inside
    have last : engine - session.engines.statuses.length = 0 := by omega
    refine .inr ⟨?_, ?_⟩
    · show engine = session.engines.statuses.length
      omega
    · simpa [last] using same

/-- An engine that is disposed is no longer usable, and no other changes. -/
theorem disposing_usable {engine other : Nat}
    (usable : (session.disposing engine).engines.statuses[other]? = some .usable) :
    session.engines.statuses[other]? = some .usable ∧ other ≠ engine := by
  have set : (session.engines.statuses.set engine .disposed)[other]? = some .usable := usable
  rw [List.getElem?_set] at set
  split at set
  next same =>
    split at set
    · cases set
    · cases set
  next distinct => exact ⟨set, fun same => distinct same.symm⟩

/-- A session that has one more engine and no connection before accounts for the new one. -/
theorem Engines.Accounted.withEngine {connection : Option Nat} {status : EngineStatus}
    (accounted : session.engines.Accounted surroundings none)
    (own : status = .usable → connection = some session.next ∨ surroundings.Strands session.next) :
    (session.withEngine status).engines.Accounted surroundings connection := by
  intro engine usable
  rcases withEngine_statuses usable with before | ⟨rfl, rfl⟩
  · rcases accounted engine before with impossible | strands
    · cases impossible
    · exact .inr strands
  · exact own rfl

/-- Disconnecting leaves no engine usable but those that are stranded. -/
theorem disconnect_accounted {engine : Nat}
    (accounted : session.engines.Accounted surroundings (some engine)) :
    (disconnect surroundings engine session).2.engines.Accounted surroundings none ∧
      (disconnect surroundings engine session).2.kept = session.kept := by
  have others (usable : Nat) (status : session.engines.statuses[usable]? = some .usable)
      (distinct : usable ≠ engine) : surroundings.Strands usable := by
    rcases accounted usable status with same | strands
    · exact absurd (Option.some.inj same).symm distinct
    · exact strands
  rw [disconnect, bind_eq, dispose_eq]
  cases disposed : surroundings.disposal engine with
  | some failure =>
    refine ⟨fun usable status => .inr ?_, rfl⟩
    by_cases same : usable = engine
    · exact same ▸ .inr ⟨failure, disposed⟩
    · exact others usable status same
  | none =>
    refine ⟨fun usable status => .inr ?_, rfl⟩
    have before : session.engines.statuses[usable]? = some .usable ∧ usable ≠ engine :=
      disposing_usable status
    exact others usable before.1 before.2

/-- The same holds when an event is logged afterwards. -/
theorem stopping_accounted {engine : Nat} {event : String}
    (accounted : session.engines.Accounted surroundings (some engine)) :
    ((do disconnect surroundings engine; logEvent event : Steps Kept Unit)
      session).2.engines.Accounted surroundings none := by
  have closed := (disconnect_accounted accounted).1
  rw [bind_eq]
  revert closed
  cases disconnect surroundings engine session with
  | mk outcome reached => cases outcome <;> exact id

end Left

/-! ### What a context keeps -/

section Wired

variable (given : RepoKind → Bool)

/-- A repository is the one that the caller has supplied, or one over the connection. -/
def RepoHandle.Over (connection : Option Nat) (kind : RepoKind) (repo : RepoHandle) : Prop :=
  (given kind = true ∧ repo = .injected kind) ∨
    (given kind = false ∧ ∃ engine, connection = some engine ∧ repo = .postgres kind engine)

structure AccountServiceHandle.Over (connection : Option Nat) (service : AccountServiceHandle) :
    Prop where
  repo : service.repo.Over given connection .account
  hasPostings : service.hasPostings.Over given connection .posting

structure JournalServiceHandle.Over (connection : Option Nat) (service : JournalServiceHandle) :
    Prop where
  repo : service.repo.Over given connection .journal
  accountService : service.accountService.Over given connection

structure PostingServiceHandle.Over (connection : Option Nat) (service : PostingServiceHandle) :
    Prop where
  repo : service.repo.Over given connection .posting
  journalService : service.journalService.Over given connection

def TrialBalanceServiceHandle.Over (connection : Option Nat)
    (service : TrialBalanceServiceHandle) : Prop :=
  service.repo.Over given connection .trialBalance

/-- All that a context keeps is over its connection, and what its caller has supplied is kept. -/
structure CliContext.Wired (context : CliContext) : Prop where
  flags : context.repoInjected = given
  supplied : ∀ kind, given kind = true → context.repo kind = some (.injected kind)
  repos : ∀ kind repo, context.repo kind = some repo → repo.Over given context.connection kind
  accountService : ∀ service, context.accountService = some service →
    service.Over given context.connection
  journalService : ∀ service, context.journalService = some service →
    service.Over given context.connection
  postingService : ∀ service, context.postingService = some service →
    service.Over given context.connection
  trialBalanceService : ∀ service, context.trialBalanceService = some service →
    service.Over given context.connection

/-- The context is wired over an engine that is open, and every other engine is accounted for. -/
structure Sound (surroundings : Surroundings) (session : CliSession) : Prop where
  wired : session.kept.Wired given
  usable : ∀ engine, session.kept.connection = some engine →
    session.engines.statuses[engine]? = some .usable
  accounted : session.engines.Accounted surroundings session.kept.connection

end Wired

/-- A connection that is open stays the same. -/
def Onward (before after : CliSession) : Prop :=
  ∀ engine, before.kept.connection = some engine → after.kept.connection = some engine

section Wiring

variable {given : RepoKind → Bool} {first second : Option Nat}

theorem RepoHandle.Over.onward {kind : RepoKind} {repo : RepoHandle}
    (onward : ∀ engine, first = some engine → second = some engine)
    (over' : repo.Over given first kind) : repo.Over given second kind := by
  rcases over' with supplied | ⟨own, engine, open', same⟩
  · exact .inl supplied
  · exact .inr ⟨own, engine, onward engine open', same⟩

theorem AccountServiceHandle.Over.onward {service : AccountServiceHandle}
    (onward : ∀ engine, first = some engine → second = some engine)
    (over' : service.Over given first) : service.Over given second :=
  ⟨over'.repo.onward onward, over'.hasPostings.onward onward⟩

theorem JournalServiceHandle.Over.onward {service : JournalServiceHandle}
    (onward : ∀ engine, first = some engine → second = some engine)
    (over' : service.Over given first) : service.Over given second :=
  ⟨over'.repo.onward onward, over'.accountService.onward onward⟩

theorem PostingServiceHandle.Over.onward {service : PostingServiceHandle}
    (onward : ∀ engine, first = some engine → second = some engine)
    (over' : service.Over given first) : service.Over given second :=
  ⟨over'.repo.onward onward, over'.journalService.onward onward⟩

theorem CliContext.Wired.connecting {context : CliContext} (wired : context.Wired given)
    (closed : context.connection = none) (engine : Nat) :
    { context with connection := some engine }.Wired given := by
  have onward : ∀ other, context.connection = some other → some engine = some other := by
    intro other open'
    rw [closed] at open'
    cases open'
  exact {
    flags := wired.flags
    supplied := wired.supplied
    repos := fun kind repo kept => (wired.repos kind repo kept).onward onward
    accountService := fun service kept => (wired.accountService service kept).onward onward
    journalService := fun service kept => (wired.journalService service kept).onward onward
    postingService := fun service kept => (wired.postingService service kept).onward onward
    trialBalanceService := fun service kept =>
      (wired.trialBalanceService service kept).onward onward }

theorem CliContext.Wired.keepingRepo {context : CliContext} (wired : context.Wired given)
    {kind : RepoKind} {repo : RepoHandle} (over' : repo.Over given context.connection kind) :
    { context with repo := Function.update context.repo kind (some repo) }.Wired given := by
  refine { wired with supplied := fun other supplied => ?_, repos := fun other kept found => ?_ }
  · by_cases same : other = kind
    · subst same
      rcases over' with ⟨_, rfl⟩ | ⟨own, _⟩
      · exact Function.update_self _ _ _
      · rw [own] at supplied
        cases supplied
    · exact (Function.update_of_ne same _ _).trans (wired.supplied other supplied)
  · by_cases same : other = kind
    · subst same
      have self : Function.update context.repo other (some repo) other = some repo :=
        Function.update_self other _ context.repo
      exact Option.some.inj (self.symm.trans found) ▸ over'
    · exact wired.repos other kept ((Function.update_of_ne same _ _).symm.trans found)

/-- A context that forgets its connection is as it was made. -/
theorem CliContext.Wired.reset_eq {context : CliContext} (wired : context.Wired given) :
    context.reset = CliContext.init given := by
  have repos : (fun kind => if context.repoInjected kind then context.repo kind else none) =
      (CliContext.init given).repo := by
    funext kind
    show (if context.repoInjected kind = true then context.repo kind else none) =
      if given kind = true then some (.injected kind) else none
    rw [wired.flags]
    split
    next supplied => exact wired.supplied kind supplied
    next => rfl
  rw [CliContext.reset, repos, wired.flags]
  rfl

theorem CliContext.init_wired (given : RepoKind → Bool) : (CliContext.init given).Wired given where
  flags := rfl
  supplied kind supplied := if_pos supplied
  repos kind repo kept := by
    have kept' : (if given kind then some (RepoHandle.injected kind) else none) = some repo := kept
    split at kept'
    next supplied => exact .inl ⟨supplied, (Option.some.inj kept').symm⟩
    next => cases kept'
  accountService _ kept := by cases kept
  journalService _ kept := by cases kept
  postingService _ kept := by cases kept
  trialBalanceService _ kept := by cases kept

end Wiring

/-! ### What the accessors provide -/

section Accessors

variable {given : RepoKind → Bool} {surroundings : Surroundings}

/-- When the connection is as said before, the computation keeps the session sound, and provides
what is said of its result over the connection. -/
def Provides {Result : Type} (given : RepoKind → Bool) (surroundings : Surroundings)
    (known : Option Nat → Prop) (computation : Steps CliContext Result)
    (learnt : Result → Option Nat → Prop) : Prop :=
  Extends (Sound given surroundings) Onward (fun session => known session.kept.connection)
    computation (fun result session => learnt result session.kept.connection)

theorem Onward.refl (session : CliSession) : Onward session session := fun _ => id

theorem Onward.trans {first second third : CliSession} (one : Onward first second)
    (two : Onward second third) : Onward first third :=
  fun engine open' => two engine (one engine open')

variable {Result Other : Type} {known : Option Nat → Prop}
  {computation : Steps CliContext Result} {learnt : Result → Option Nat → Prop}

theorem Provides.bind {next : Result → Steps CliContext Other} {last : Other → Option Nat → Prop}
    (first : Provides given surroundings known computation learnt)
    (second : ∀ result, Provides given surroundings (learnt result) (next result) last) :
    Provides given surroundings known (computation >>= next) last := by
  refine Extends.bind ?_ first second
  exact fun _ _ _ => Onward.trans

/-- What is known of the connection stays known when one is opened. -/
theorem Provides.frame {stable : Option Nat → Prop}
    (carried : ∀ {first second : Option Nat},
      (∀ engine, first = some engine → second = some engine) → stable first → stable second)
    (provides : Provides given surroundings known computation learnt) :
    Provides given surroundings (fun connection => known connection ∧ stable connection) computation
      (fun result connection => learnt result connection ∧ stable connection) :=
  Extends.frame (fun _ _ onward => carried onward) provides

theorem Provides.anytime {stable : Option Nat → Prop}
    (carried : ∀ {first second : Option Nat},
      (∀ engine, first = some engine → second = some engine) → stable first → stable second)
    (provides : Provides given surroundings (fun _ => True) computation learnt) :
    Provides given surroundings stable computation
      (fun result connection => learnt result connection ∧ stable connection) :=
  Extends.weaken (provides.frame carried) (fun _ _ holds => ⟨trivial, holds⟩) (fun _ _ => id)

/-- To keep something over the connection, and return it. -/
theorem Provides.keep {update : CliContext → CliContext} (learnt : Result → Option Nat → Prop)
    (result : Result) (same : ∀ context, (update context).connection = context.connection)
    (ready : ∀ connection, known connection → learnt result connection)
    (wired : ∀ context, context.Wired given → learnt result context.connection →
      (update context).Wired given) :
    Provides given surroundings known (setKept update >>= fun _ => pure result) learnt := by
  intro session sound known'
  have holds := ready _ known'
  have connection := same session.kept
  refine ⟨⟨wired session.kept sound.wired holds, ?_, ?_⟩, ?_, ?_⟩
  · intro engine open'
    exact sound.usable engine (connection ▸ open')
  · show session.engines.Accounted surroundings (update session.kept).connection
    rw [connection]
    exact sound.accounted
  · intro engine open'
    exact connection.trans open'
  · show learnt result (update session.kept).connection
    rw [connection]
    exact holds

/-- An accessor returns what is kept, or else makes it. -/
theorem Provides.cached (slot : CliContext → Option Result) (learnt : Result → Option Nat → Prop)
    (held : ∀ context, context.Wired given → ∀ kept, slot context = some kept →
      learnt kept context.connection)
    (makes : ∀ context, context.Wired given → slot context = none →
      Provides given surroundings (fun _ => True) computation learnt) :
    Provides given surroundings (fun _ => True) (cachedOr slot computation) learnt := by
  refine Extends.read fun found => ?_
  cases kept : slot found.kept with
  | some result =>
    refine Extends.pure Onward.refl fun state sound ready => ?_
    rw [ready.2]
    exact held found.kept (ready.2 ▸ sound.wired) result kept
  | none =>
    intro session sound ready
    exact makes found.kept (ready.2 ▸ sound.wired) kept session sound trivial

/-- A connection is opened when there is none, and is the only one. -/
theorem getConnection_provides (given : RepoKind → Bool) (surroundings : Surroundings) :
    Provides given surroundings (fun _ => True) (getConnection surroundings)
      (fun engine connection => connection = some engine) := by
  refine Extends.read fun found => ?_
  cases open' : found.kept.connection with
  | some engine =>
    refine Extends.pure Onward.refl fun state _ ready => ?_
    rw [ready.2]
    exact open'
  | none =>
    intro session sound ready
    obtain ⟨_, rfl⟩ := ready
    have accounted := sound.accounted
    rw [open'] at accounted
    have onward {after : CliSession} : Onward session after := by
      intro engine opened
      rw [open'] at opened
      cases opened
    have closed (status : EngineStatus) : ∀ engine, session.kept.connection = some engine →
        (session.withEngine status).engines.statuses[engine]? = some .usable := by
      intro engine opened
      rw [open'] at opened
      cases opened
    simp only [bind_eq]
    rcases connect_cases surroundings session with ⟨failure, failed⟩ |
      ⟨failure, status, failed, stranded⟩ | connected
    · rw [failed]
      exact ⟨sound, onward⟩
    · rw [failed]
      refine ⟨⟨sound.wired, closed status, ?_⟩, onward⟩
      exact accounted.withEngine fun usable => .inr (stranded usable)
    · rw [connected]
      refine ⟨⟨sound.wired.connecting open' session.next, ?_, ?_⟩, onward, rfl⟩
      · intro engine opened
        cases opened
        exact List.getElem?_concat_length
      · exact accounted.withEngine fun _ => .inl rfl

theorem getRepo_provides (given : RepoKind → Bool) (surroundings : Surroundings)
    (kind : RepoKind) :
    Provides given surroundings (fun _ => True) (getRepo surroundings kind)
      (fun repo connection => repo.Over given connection kind) := by
  refine Provides.cached (fun context => context.repo kind)
    (fun repo connection => repo.Over given connection kind)
    (fun _ wired => wired.repos kind) fun context wired missing => ?_
  -- A repository that the caller has supplied is never missing, so this one is the context's own.
  have own : given kind = false := by
    by_contra supplied
    have held := wired.supplied kind (Bool.eq_true_of_not_eq_false supplied)
    rw [missing] at held
    cases held
  refine Provides.bind (getConnection_provides given surroundings) fun engine => ?_
  exact Provides.keep (fun (repo : RepoHandle) connection => repo.Over given connection kind)
    (.postgres kind engine) (fun _ => rfl) (fun _ open' => .inr ⟨own, engine, open', rfl⟩)
    fun _ wired over' => wired.keepingRepo over'

theorem getAccountService_provides (given : RepoKind → Bool) (surroundings : Surroundings) :
    Provides given surroundings (fun _ => True) (getAccountService surroundings)
      (fun service connection => service.Over given connection) := by
  refine Provides.cached CliContext.accountService
    (fun service connection => service.Over given connection)
    (fun _ wired => wired.accountService) fun _ _ _ => ?_
  refine Provides.bind (getRepo_provides given surroundings .posting) fun postingRepo => ?_
  refine Provides.bind ((getRepo_provides given surroundings .account).anytime
    RepoHandle.Over.onward) fun accountRepo => ?_
  refine Provides.keep (fun service connection => service.Over given connection)
    (AccountServiceHandle.mk accountRepo postingRepo) ?_ ?_ ?_
  · exact fun _ => rfl
  · exact fun _ repos => ⟨repos.1, repos.2⟩
  · intro _ wired over'
    refine { wired with accountService := fun _ kept => ?_ }
    exact Option.some.inj kept ▸ over'

theorem getJournalService_provides (given : RepoKind → Bool) (surroundings : Surroundings) :
    Provides given surroundings (fun _ => True) (getJournalService surroundings)
      (fun service connection => service.Over given connection) := by
  refine Provides.cached CliContext.journalService
    (fun service connection => service.Over given connection)
    (fun _ wired => wired.journalService) fun _ _ _ => ?_
  refine Provides.bind (getRepo_provides given surroundings .journal) fun journalRepo => ?_
  refine Provides.bind ((getAccountService_provides given surroundings).anytime
    RepoHandle.Over.onward) fun accountService => ?_
  refine Provides.keep (fun service connection => service.Over given connection)
    (JournalServiceHandle.mk journalRepo accountService) ?_ ?_ ?_
  · exact fun _ => rfl
  · exact fun _ made => ⟨made.2, made.1⟩
  · intro _ wired over'
    refine { wired with journalService := fun _ kept => ?_ }
    exact Option.some.inj kept ▸ over'

theorem getPostingService_provides (given : RepoKind → Bool) (surroundings : Surroundings) :
    Provides given surroundings (fun _ => True) (getPostingService surroundings)
      (fun service connection => service.Over given connection) := by
  refine Provides.cached CliContext.postingService
    (fun service connection => service.Over given connection)
    (fun _ wired => wired.postingService) fun _ _ _ => ?_
  refine Provides.bind (getRepo_provides given surroundings .posting) fun postingRepo => ?_
  refine Provides.bind ((getJournalService_provides given surroundings).anytime
    RepoHandle.Over.onward) fun journalService => ?_
  refine Provides.keep (fun service connection => service.Over given connection)
    (PostingServiceHandle.mk postingRepo journalService) ?_ ?_ ?_
  · exact fun _ => rfl
  · exact fun _ made => ⟨made.2, made.1⟩
  · intro _ wired over'
    refine { wired with postingService := fun _ kept => ?_ }
    exact Option.some.inj kept ▸ over'

theorem getTrialBalanceService_provides (given : RepoKind → Bool) (surroundings : Surroundings) :
    Provides given surroundings (fun _ => True) (getTrialBalanceService surroundings)
      (fun service connection => service.Over given connection) := by
  refine Provides.cached CliContext.trialBalanceService
    (fun service connection => service.Over given connection)
    (fun _ wired => wired.trialBalanceService) fun _ _ _ => ?_
  refine Provides.bind (getRepo_provides given surroundings .trialBalance) fun repo => ?_
  refine Provides.keep (fun service connection => service.Over given connection)
    (TrialBalanceServiceHandle.mk repo) ?_ ?_ ?_
  · exact fun _ => rfl
  · exact fun _ => id
  · intro _ wired over'
    refine { wired with trialBalanceService := fun _ kept => ?_ }
    exact Option.some.inj kept ▸ over'

/-- However closing ends, the context is as it was made, and its engine is accounted for. -/
theorem aclose_sound {session : CliSession} (sound : Sound given surroundings session) :
    (aclose surroundings session).2.kept = CliContext.init given ∧
      Sound given surroundings (aclose surroundings session).2 := by
  -- It is enough that what runs before the context is reset leaves no engine open.
  have resetting (reached : CliSession) (same : reached.kept = session.kept)
      (accounted : reached.engines.Accounted surroundings none) :
      (setKept CliContext.reset reached).2.kept = CliContext.init given ∧
        Sound given surroundings (setKept CliContext.reset reached).2 := by
    have kept : reached.kept.reset = CliContext.init given := by
      rw [same]
      exact sound.wired.reset_eq
    have wired : reached.kept.reset.Wired given := kept ▸ CliContext.init_wired given
    refine ⟨kept, ⟨wired, fun engine opened => ?_, accounted⟩⟩
    cases opened
  rw [aclose, andFinally_state, read_bind]
  have accounted := sound.accounted
  cases open' : session.kept.connection with
  | none =>
    rw [open'] at accounted
    exact resetting session rfl accounted
  | some engine =>
    rw [open'] at accounted
    have closed := disconnect_accounted accounted
    exact resetting _ closed.2 closed.1

end Accessors

/-! ### Runs of a context -/

/-- What a command does with its context. -/
inductive Use where
  | repo (kind : RepoKind)
  | accountService
  | journalService
  | postingService
  | trialBalanceService
  | aclose

def Use.step (surroundings : Surroundings) : Use → Steps CliContext Unit
  | .repo kind => do
    let _ ← getRepo surroundings kind
  | .accountService => do
    let _ ← getAccountService surroundings
  | .journalService => do
    let _ ← getJournalService surroundings
  | .postingService => do
    let _ ← getPostingService surroundings
  | .trialBalanceService => do
    let _ ← getTrialBalanceService surroundings
  | .aclose => Trutina.aclose surroundings

/-- A new context, before any engine. -/
def CliSession.start (given : RepoKind → Bool) : CliSession := ⟨⟨[], []⟩, CliContext.init given⟩

/-- The session after the uses of a context, each of which may have failed. -/
def afterUses (surroundings : Surroundings) (given : RepoKind → Bool) (uses : List Use) :
    CliSession :=
  runAll (uses.map (Use.step surroundings)) (CliSession.start given)

section Runs

variable {surroundings : Surroundings} {given : RepoKind → Bool}

/-- To ask for something keeps the session sound, whether it is provided or not. -/
theorem Provides.sound {Result : Type} {computation : Steps CliContext Result}
    {learnt : Result → Option Nat → Prop}
    (provides : Provides given surroundings (fun _ => True) computation learnt)
    {session : CliSession} (sound : Sound given surroundings session) :
    Sound given surroundings ((computation >>= fun _ => pure ()) session).2 := by
  have discarded : Provides given surroundings (fun _ => True) (computation >>= fun _ => pure ())
      (fun _ _ => True) :=
    provides.bind fun _ => Extends.pure Onward.refl fun _ _ _ => trivial
  refine holds_state_iff.mp ((discarded session sound trivial).weaken ?_ ?_)
  · exact fun _ _ reached => reached.1
  · exact fun _ _ reached => reached.1

theorem Use.step_sound (use : Use) {session : CliSession}
    (sound : Sound given surroundings session) :
    Sound given surroundings (use.step surroundings session).2 := by
  cases use with
  | repo kind => exact (getRepo_provides given surroundings kind).sound sound
  | accountService => exact (getAccountService_provides given surroundings).sound sound
  | journalService => exact (getJournalService_provides given surroundings).sound sound
  | postingService => exact (getPostingService_provides given surroundings).sound sound
  | trialBalanceService => exact (getTrialBalanceService_provides given surroundings).sound sound
  | aclose => exact (aclose_sound sound).2

theorem CliSession.start_sound (given : RepoKind → Bool) :
    Sound given surroundings (CliSession.start given) where
  wired := CliContext.init_wired given
  usable _ open' := by cases open'
  accounted _ usable := by cases usable

/-- Every session that a context goes through is sound. -/
theorem afterUses_sound (uses : List Use) :
    Sound given surroundings (afterUses surroundings given uses) := by
  refine runAll_keeps (fun step member session sound => ?_) (CliSession.start_sound given)
  obtain ⟨use, _, rfl⟩ := List.mem_map.mp member
  exact use.step_sound sound

/-- The API leaves no engine usable but those that are stranded. -/
theorem lifespan_accounted (surroundings : Surroundings) (serving : Except Failure Unit) :
    (lifespan surroundings serving ⟨⟨[], []⟩, none⟩).2.engines.Accounted surroundings none := by
  have fresh : (⟨⟨[], []⟩, none⟩ : Session (Option Container)).engines.Accounted
      surroundings none := fun _ usable => by cases usable
  rw [lifespan, bind_eq]
  rcases connect_cases surroundings (⟨⟨[], []⟩, none⟩ : Session (Option Container)) with
    ⟨failure, failed⟩ | ⟨failure, status, failed, stranded⟩ | connected
  · rw [failed]
    exact fresh
  · rw [failed]
    exact fresh.withEngine fun usable => .inr (stranded usable)
  · rw [connected]
    show Engines.Accounted surroundings (Session.engines (Computation.andFinally _ _ _).2) none
    rw [andFinally_state]
    exact stopping_accounted (fresh.withEngine fun _ => .inl rfl)

end Runs

/-- A context that is closed leaves no engine open, whatever was done with it and whatever failed,
except those whose check failed otherwise than operationally and those whose disposal failed. The
same holds of the API, however it ends. -/
theorem context_releases (surroundings : Surroundings) (given : RepoKind → Bool)
    (uses : List Use) (serving : Except Failure Unit) :
    let session := afterUses surroundings given uses
    let closed := (aclose surroundings session).2
    let stopped := (lifespan surroundings serving ⟨⟨[], []⟩, none⟩).2
    (∀ engine, session.engines.statuses[engine]? = some .usable →
      session.kept.connection = some engine ∨ surroundings.Strands engine) ∧
    closed.kept = CliContext.init given ∧
    (∀ engine, closed.engines.statuses[engine]? = some .usable → surroundings.Strands engine) ∧
    ∀ engine, stopped.engines.statuses[engine]? = some .usable → surroundings.Strands engine := by
  intro session closed stopped
  have sound : Sound given surroundings session := afterUses_sound uses
  have closing := aclose_sound sound
  have only {engines : Engines} (accounted : engines.Accounted surroundings none) (engine : Nat)
      (usable : engines.statuses[engine]? = some .usable) : surroundings.Strands engine := by
    rcases accounted engine usable with impossible | strands
    · cases impossible
    · exact strands
  have forgotten : closed.kept.connection = none := by rw [closing.1]; rfl
  have accounted := closing.2.accounted
  rw [forgotten] at accounted
  exact ⟨sound.accounted, closing.1, only accounted, only (lifespan_accounted surroundings serving)⟩

/-- An accessor returns a service over the connection, which is open. When the caller has supplied
nothing, it is the one that the container over that engine has. -/
def Serves {Service : Type} (given : RepoKind → Bool) (session : CliSession)
    (accessor : Steps CliContext Service) (over' : Service → Option Nat → Prop)
    (ofContainer : Container → Service) : Prop :=
  ∀ service after, accessor session = (.ok service, after) →
    over' service after.kept.connection ∧
    (∀ engine, after.kept.connection = some engine →
      after.engines.statuses[engine]? = some .usable) ∧
    ((∀ kind, given kind = false) → ∃ engine, after.kept.connection = some engine ∧
      service = ofContainer (buildContainer engine))

section Serving

variable {surroundings : Surroundings} {given : RepoKind → Bool} {connection : Option Nat}

theorem RepoHandle.Over.eq_postgres {kind : RepoKind} {repo : RepoHandle}
    (over' : repo.Over given connection kind) (own : given kind = false) :
    ∃ engine, connection = some engine ∧ repo = .postgres kind engine := by
  rcases over' with ⟨supplied, _⟩ | ⟨_, engine, open', same⟩
  · rw [own] at supplied
    cases supplied
  · exact ⟨engine, open', same⟩

theorem Provides.serves {Service : Type} {accessor : Steps CliContext Service}
    {over' : Service → Option Nat → Prop} {ofContainer : Container → Service}
    (provides : Provides given surroundings (fun _ => True) accessor over')
    (same : (∀ kind, given kind = false) → ∀ service connection, over' service connection →
      ∃ engine, connection = some engine ∧ service = ofContainer (buildContainer engine))
    {session : CliSession} (sound : Sound given surroundings session) :
    Serves given session accessor over' ofContainer := by
  intro service after returned
  have holds := provides session sound trivial
  rw [returned] at holds
  obtain ⟨reached, _, wired⟩ := holds
  exact ⟨wired, reached.usable, fun own => same own service _ wired⟩

theorem AccountServiceHandle.Over.eq_container (own : ∀ kind, given kind = false)
    (service : AccountServiceHandle) (connection : Option Nat)
    (over' : service.Over given connection) :
    ∃ engine, connection = some engine ∧ service = (buildContainer engine).accountService := by
  obtain ⟨repo, hasPostings⟩ := service
  obtain ⟨engine, open', rfl⟩ := over'.repo.eq_postgres (own _)
  obtain ⟨other, open'', rfl⟩ := over'.hasPostings.eq_postgres (own _)
  obtain rfl := Option.some.inj (open'.symm.trans open'')
  exact ⟨engine, open', rfl⟩

theorem JournalServiceHandle.Over.eq_container (own : ∀ kind, given kind = false)
    (service : JournalServiceHandle) (connection : Option Nat)
    (over' : service.Over given connection) :
    ∃ engine, connection = some engine ∧ service = (buildContainer engine).journalService := by
  obtain ⟨repo, accountService⟩ := service
  obtain ⟨engine, open', rfl⟩ := over'.repo.eq_postgres (own _)
  obtain ⟨other, open'', rfl⟩ := AccountServiceHandle.Over.eq_container own _ _ over'.accountService
  obtain rfl := Option.some.inj (open'.symm.trans open'')
  exact ⟨engine, open', rfl⟩

theorem PostingServiceHandle.Over.eq_container (own : ∀ kind, given kind = false)
    (service : PostingServiceHandle) (connection : Option Nat)
    (over' : service.Over given connection) :
    ∃ engine, connection = some engine ∧ service = (buildContainer engine).postingService := by
  obtain ⟨repo, journalService⟩ := service
  obtain ⟨engine, open', rfl⟩ := over'.repo.eq_postgres (own _)
  obtain ⟨other, open'', rfl⟩ := JournalServiceHandle.Over.eq_container own _ _ over'.journalService
  obtain rfl := Option.some.inj (open'.symm.trans open'')
  exact ⟨engine, open', rfl⟩

theorem TrialBalanceServiceHandle.Over.eq_container (own : ∀ kind, given kind = false)
    (service : TrialBalanceServiceHandle) (connection : Option Nat)
    (over' : service.Over given connection) :
    ∃ engine, connection = some engine ∧ service = (buildContainer engine).trialBalanceService := by
  obtain ⟨repo⟩ := service
  obtain ⟨engine, open', rfl⟩ := RepoHandle.Over.eq_postgres over' (own _)
  exact ⟨engine, open', rfl⟩

end Serving

/-- Whatever was done with a context, every service it returns is over one engine, which is open,
or over what the caller has supplied. When the caller has supplied nothing, the services are those
that the API builds over that engine. -/
theorem context_serves (surroundings : Surroundings) (given : RepoKind → Bool) (uses : List Use) :
    let session := afterUses surroundings given uses
    Serves given session (getAccountService surroundings)
      (fun service connection => service.Over given connection) Container.accountService ∧
    Serves given session (getJournalService surroundings)
      (fun service connection => service.Over given connection) Container.journalService ∧
    Serves given session (getPostingService surroundings)
      (fun service connection => service.Over given connection) Container.postingService ∧
    Serves given session (getTrialBalanceService surroundings)
      (fun service connection => service.Over given connection) Container.trialBalanceService := by
  intro session
  have sound : Sound given surroundings session := afterUses_sound uses
  refine ⟨?_, ?_, ?_, ?_⟩
  · exact (getAccountService_provides given surroundings).serves
      AccountServiceHandle.Over.eq_container sound
  · exact (getJournalService_provides given surroundings).serves
      JournalServiceHandle.Over.eq_container sound
  · exact (getPostingService_provides given surroundings).serves
      PostingServiceHandle.Over.eq_container sound
  · exact (getTrialBalanceService_provides given surroundings).serves
      TrialBalanceServiceHandle.Over.eq_container sound

end Trutina
