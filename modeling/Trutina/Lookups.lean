/-
This file says what the reading operations of a call learn from the states it finds.
A call is answered at its own steps only, each under the conditions and in the state
of that step, and between two of its steps the store may change. What an operation
returns is therefore tied to the answer of each of its queries, and to no state as a
whole.
-/

import Trutina.AccountStore
import Trutina.Credentials
import Trutina.Traces

namespace Trutina

open Interaction

/-! ### Answers -/

/-- The steps a call has taken: its commands, each with the conditions and the state it met. -/
def OwnSteps := Command → Env → World → Prop

/-- The steps of one thread of a run. -/
def stepsOf {Thread : Type} (thread : Thread) (trace : List (Move Thread Command Env World)) :
    OwnSteps := fun command env world => ⟨thread, command, env, world⟩ ∈ trace

namespace OwnSteps

variable (steps : OwnSteps)

/-- The call has asked the command and was given the reply. -/
def Told (command : Command) (reply : Reply command) : Prop :=
  ∃ env world, steps command env world ∧ reply = (handle command env world).1

/-- The call has asked the query, and was answered with these rows when the clock read `now`. -/
def Answered (query : Query) (rows : List query.Row) (now : Timestamp) : Prop :=
  ∃ env world, steps (.query query) env world ∧ rows = query.rows env world ∧ now = env.now

/-- The call has drawn the number when the clock read `now`. -/
def Drew (number : Int) (now : Timestamp) : Prop :=
  ∃ env world, steps .nextval env world ∧ number = world.nextJournalNumber ∧ now = env.now

/-- The account was stored under the code. -/
def Found (code : String) (account : Account) : Prop :=
  ∃ row now, steps.Answered (.accountsByCode code) [row] now ∧
    PostgresAccountRepo.toDomain row = .ok account

/-- These were the accounts of the store. -/
def Listed (accounts : List Account) : Prop :=
  ∃ rows now, steps.Answered .allAccounts rows now ∧
    fromRows PostgresAccountRepo.toDomain rows = .ok accounts

/-- This was the chart of the store. -/
def Charted (chart : ChartOfAccounts) : Prop :=
  ∃ accounts, steps.Listed accounts ∧ ChartOfAccounts.validate accounts = .ok chart

/-- The entry was stored under the number. -/
def FoundEntry (number : Int) (entry : JournalEntry) : Prop :=
  ∃ header lines first now, steps.Answered (.journalEntriesByNumber number) [header] first ∧
    steps.Answered (.journalLinesByNumber number) lines now ∧
    PostgresJournalRepo.toDomain now header lines = .ok entry

/-- These were the entries of the store. -/
def ListedEntries (entries : List JournalEntry) : Prop :=
  ∃ headers lines first now, steps.Answered .allJournalEntries headers first ∧
    steps.Answered .allJournalLines lines now ∧
    fromRows (fun header => PostgresJournalRepo.toDomain now header
      (lines.filter fun line => line.journalNumber = header.journalNumber)) headers = .ok entries

/-- The view of the entry that was stored under the number. -/
def Viewed (number : Int) (view : JournalViewModel) : Prop :=
  ∃ entry, steps.FoundEntry number entry ∧ toEntryView entry = .ok view

/-- These were the postings of the account. -/
def FoundPostings (account : String) (postings : List LedgerPosting) : Prop :=
  ∃ rows now, steps.Answered (.postingsByAccountKey (accountLookupKey account)) rows now ∧
    fromRows (PostgresPostingRepo.toDomain now) rows = .ok postings

/-- These were the postings of the entry when the clock read `now`. -/
def FoundPostingsOf (number : Int) (postings : List LedgerPosting) (now : Timestamp) : Prop :=
  ∃ rows, steps.Answered (.postingsByNumber number) rows now ∧
    fromRows (PostgresPostingRepo.toDomain now) rows = .ok postings

/-- These were the balances of the accounts. -/
def FoundBalances (asOfDate : Option Timestamp) (entries : List AccountBalanceEntry) : Prop :=
  ∃ rows now, steps.Answered (.accountBalances asOfDate) rows now ∧
    fromRows PostgresTrialBalanceRepo.toDomain rows = .ok entries

variable {steps}

/-- What is found under a code is a stored row with this code. -/
theorem Answered.stored {code : String} {row : AccountModel} {now : Timestamp}
    (answered : steps.Answered (.accountsByCode code) [row] now) :
    ∃ env world, steps (.query (.accountsByCode code)) env world ∧ row ∈ world.accounts ∧
      row.code = code := by
  obtain ⟨env, world, step, rows, _⟩ := answered
  have member : row ∈ Query.rows env world (.accountsByCode code) := by
    rw [← rows]
    exact List.mem_singleton_self row
  rw [Query.rows, (env.arrangeAccounts_perm _).mem_iff, List.mem_filter,
    decide_eq_true_eq] at member
  exact ⟨env, world, step, member⟩

theorem Found.code {code : String} {account : Account} (found : steps.Found code account) :
    account.code = code := by
  obtain ⟨row, now, answered, rebuilt⟩ := found
  obtain ⟨_, _, _, _, same⟩ := answered.stored
  exact (Account.validate_eq_ok_iff.mp rebuilt).1.trans same

end OwnSteps

/-- A thread is told what its steps are. -/
theorem told_stepsOf {Thread : Type} {trace : List (Move Thread Command Env World)}
    (thread : Thread) : ∀ move ∈ trace, move.thread = thread →
      (stepsOf thread trace).Told move.command (move.reply handle) := by
  rintro ⟨mover, command, env, before⟩ member rfl
  exact ⟨env, before, member, rfl⟩

/-! ### Operations that only read -/

/-- Reading and drawing numbers. -/
def Command.Idle : Command → Prop
  | .query _ => True
  | .nextval => True
  | _ => False

/-- The monitor of what only reads: it has no status, and expects what the steps are told. -/
def OwnSteps.listener (steps : OwnSteps) : Monitor Command Reply Unit where
  allows _ command := command.Idle
  expects := steps.Told
  next _ _ _ := ()

section Learns

variable {Error Result Other : Type} {steps : OwnSteps}

/-- An operation that only reads, and returns what is so. -/
def Learns (steps : OwnSteps) (program : Program Command Reply Error Result)
    (learned : Result → Prop) : Prop :=
  program.Conforms steps.listener
    (fun _ outcome => ∀ result, outcome = .ok result → learned result) ()

theorem learns_done {outcome : Except Error Result} {learned : Result → Prop}
    (holds : ∀ result, outcome = .ok result → learned result) :
    Learns steps (.done outcome) learned :=
  Program.conforms_done holds

theorem learns_pure {result : Result} {learned : Result → Prop} (holds : learned result) :
    Learns steps (.done (.ok result) : Program Command Reply Error Result) learned :=
  learns_done fun _ same => Except.ok.inj same ▸ holds

theorem Learns.bind {program : Program Command Reply Error Result} {learned : Result → Prop}
    {continuation : Result → Program Command Reply Error Other} {whole : Other → Prop}
    (first : Learns steps program learned)
    (rest : ∀ result, learned result → Learns steps (continuation result) whole) :
    Learns steps (program >>= continuation) whole :=
  Program.Conforms.bind first (fun _ result holds => rest result (holds result rfl)) nofun

theorem Learns.mono {program : Program Command Reply Error Result}
    {learned weaker : Result → Prop} (learns : Learns steps program learned)
    (less : ∀ result, learned result → weaker result) : Learns steps program weaker :=
  Program.Conforms.mono learns fun _ _ holds result same => less result (holds result same)

theorem Learns.mapError {Failure : Type} {program : Program Command Reply Error Result}
    {learned : Result → Prop} {convert : Error → Failure}
    (learns : Learns steps program learned) :
    Learns steps (program.mapError convert) learned := by
  refine Program.conforms_mapError_iff.mpr (Program.Conforms.mono learns ?_)
  intro _ outcome holds result same
  cases outcome with
  | error error => cases same
  | ok own => exact holds result (congrArg Except.ok (Except.ok.inj same))

/-- Of an operation that only reads, nothing need be known. -/
theorem idle_learns {program : Program Command Reply Error Result}
    (issues : program.Issues Command.Idle) : Learns steps program fun _ => True :=
  issues.conforms (fun _ idle => ⟨idle, fun _ => rfl⟩) fun _ _ _ => trivial

end Learns

section Repositories

variable {steps : OwnSteps} {Result : Type}

theorem lift_learns (outcome : Except Raised Result) :
    Learns steps (liftM outcome : Action Result) fun result => outcome = .ok result :=
  learns_done fun _ same => same

/-- A query is answered, or it fails as the database does. -/
theorem execute_answers (query : Query) :
    (execute query).Conforms steps.listener (fun _ outcome =>
      (∃ rows now, outcome = .ok (rows, now) ∧ steps.Answered query rows now) ∨
        ∃ fault, outcome = .error (translatePostgresErrors (.failed fault))) () := by
  refine Program.conforms_ask_expecting trivial fun reply told => ?_
  obtain ⟨env, world, step, rfl⟩ := told
  refine Program.conforms_done ?_
  cases failed : env.fault with
  | some fault =>
    simp only [handle, failed]
    exact .inr ⟨fault, rfl⟩
  | none =>
    simp only [handle, failed]
    exact .inl ⟨_, _, rfl, env, world, step, rfl, rfl⟩

theorem execute_learns (query : Query) :
    Learns steps (execute query) fun answer => steps.Answered query answer.1 answer.2 := by
  refine (execute_answers query).mono fun _ outcome answered result same => ?_
  obtain ⟨rows, now, rfl, answered⟩ | ⟨fault, rfl⟩ := answered
  · obtain rfl := Except.ok.inj same
    exact answered
  · cases same

namespace PostgresAccountRepo

theorem load_learns (code : String) :
    Learns steps (load code) fun found => ∀ row, found = some row →
      ∃ now, steps.Answered (.accountsByCode code) [row] now := by
  refine (execute_learns _).bind fun answer answered => learns_done fun found single row same => ?_
  subst same
  rw [scalarOneOrNone_eq_some single] at answered
  exact ⟨answer.2, answered⟩

/-- A row that cannot be rebuilt is no error of the contract. -/
theorem toDomain_uncoded {row : AccountModel} {error : Raised}
    (raised : toDomain row = .error error) : error.code? = none := by
  unfold toDomain Account.validate Checked.raise at raised
  split at raised
  · cases raised
  · cases raised
    rfl

/-- What is looked up under a code is its account, or the code is free; or the lookup fails, and not
by reporting an unknown account. -/
theorem getByCode_finds (code : String) :
    (getByCode code).Conforms steps.listener (fun _ outcome =>
      (∃ account, outcome = .ok (some account) ∧ steps.Found code account) ∨
      (outcome = .ok none ∧ ∃ now, steps.Answered (.accountsByCode code) [] now) ∨
      ∃ error, outcome = .error error ∧ error.code? ≠ some .unknownAccount) () := by
  refine (execute_answers _).bind (fun _ answer answered => ?_) fun _ error failed => ?_
  · obtain ⟨rows, now, same, answered⟩ | ⟨fault, impossible⟩ := answered
    · obtain rfl := Except.ok.inj same
      cases rows with
      | nil => exact Program.conforms_done (.inr (.inl ⟨rfl, now, answered⟩))
      | cons row others =>
        cases others with
        | cons other rest =>
          exact Program.conforms_done (.inr (.inr ⟨AppError.unknown, rfl, by decide⟩))
        | nil =>
          show ((liftM (toDomain row) : Action Account) >>= fun account =>
            pure (some account)).Conforms _ _ _
          cases rebuilt : toDomain row with
          | error error =>
            have other : error.code? ≠ some .unknownAccount := by
              rw [toDomain_uncoded rebuilt]
              exact nofun
            exact Program.conforms_done (.inr (.inr ⟨error, rfl, other⟩))
          | ok account =>
            exact Program.conforms_done (.inl ⟨account, rfl, row, now, answered, rebuilt⟩)
    · cases impossible
  · obtain ⟨rows, now, impossible, _⟩ | ⟨fault, same⟩ := failed
    · cases impossible
    · refine .inr (.inr ⟨error, rfl, ?_⟩)
      obtain rfl := Except.error.inj same
      cases fault <;> exact nofun

theorem getByCode_learns (code : String) :
    Learns steps (getByCode code) fun found => ∀ account, found = some account →
      steps.Found code account := by
  refine (getByCode_finds code).mono fun _ outcome holds found same account present => ?_
  subst present
  obtain ⟨own, same', known⟩ | ⟨impossible, _⟩ | ⟨error, impossible, _⟩ := holds
  · obtain rfl := Option.some.inj (Except.ok.inj (same'.symm.trans same))
    exact known
  · cases impossible.symm.trans same
  · cases impossible.symm.trans same

theorem listAll_learns : Learns steps listAll steps.Listed :=
  (execute_learns _).bind fun answer answered =>
    (lift_learns _).mono fun _ rebuilt => ⟨answer.1, answer.2, answered, rebuilt⟩

end PostgresAccountRepo

namespace PostgresJournalRepo

theorem getByNumber_learns (number : Int) :
    Learns steps (getByNumber number) fun found => ∀ entry, found = some entry →
      steps.FoundEntry number entry := by
  refine (execute_learns _).bind fun first headers => (lift_learns _).bind fun found single => ?_
  cases found with
  | none => exact learns_pure fun entry present => by cases present
  | some header =>
    rw [scalarOneOrNone_eq_some single] at headers
    refine (execute_learns _).bind fun answer lines => (lift_learns _).bind fun entry rebuilt =>
      learns_pure fun other same => ?_
    obtain rfl := Option.some.inj same
    exact ⟨header, answer.1, first.2, answer.2, headers, lines, rebuilt⟩

theorem listEntries_learns : Learns steps listEntries steps.ListedEntries :=
  (execute_learns _).bind fun first headers => (execute_learns _).bind fun answer lines =>
    (lift_learns _).mono fun _ rebuilt =>
      ⟨first.1, answer.1, first.2, answer.2, headers, lines, rebuilt⟩

theorem nextJournalNumber_learns :
    Learns steps nextJournalNumber fun drawn => steps.Drew drawn.1 drawn.2 := by
  refine Program.conforms_ask_expecting trivial fun reply told => ?_
  obtain ⟨env, world, step, rfl⟩ := told
  refine Program.conforms_done fun drawn received => ?_
  cases failed : env.fault with
  | some fault =>
    simp only [handle, failed] at received
    cases received
  | none =>
    simp only [handle, failed] at received
    obtain rfl := Except.ok.inj received
    exact ⟨env, world, step, rfl, rfl⟩

end PostgresJournalRepo

namespace PostgresPostingRepo

theorem getByAccount_learns (account : String) :
    Learns steps (getByAccount account) (steps.FoundPostings account) :=
  (execute_learns _).bind fun answer answered =>
    (lift_learns _).mono fun _ rebuilt => ⟨answer.1, answer.2, answered, rebuilt⟩

theorem getByJournalNumber_learns (number : Int) :
    Learns steps (getByJournalNumber number) fun found =>
      steps.FoundPostingsOf number found.1 found.2 :=
  (execute_learns _).bind fun answer answered => (lift_learns _).bind fun _ rebuilt =>
    learns_pure ⟨answer.1, answered, rebuilt⟩

end PostgresPostingRepo

theorem PostgresTrialBalanceRepo.getAccountBalances_learns (asOfDate : Option Timestamp) :
    Learns steps (getAccountBalances asOfDate) (steps.FoundBalances asOfDate) :=
  (execute_learns _).bind fun answer answered =>
    (lift_learns _).mono fun _ rebuilt => ⟨answer.1, answer.2, answered, rebuilt⟩

/-- A lookup that must succeed. -/
theorem orRaise_learns {Value Other : Type} {program : Action (Option Value)} {error : Raised}
    {present : Value → Prop} {continuation : Value → Action Other} {whole : Other → Prop}
    (lookup : Learns steps program fun found => ∀ value, found = some value → present value)
    (rest : ∀ value, present value → Learns steps (continuation value) whole) :
    Learns steps (program >>= fun found =>
      (liftM (orRaise error found) : Action Value) >>= continuation) whole :=
  lookup.bind fun _ holds => (lift_learns _).bind fun value same =>
    rest value (holds value (orRaise_eq_ok_iff.mp same))

end Repositories

/-! ### Services that only read -/

section Services

variable {steps : OwnSteps}

namespace AccountService

/-- An account is found by its code, or reported unknown because none is stored under it; or the
lookup fails otherwise. -/
theorem getAccount_finds (code : String) :
    (getAccount code).Conforms steps.listener (fun _ outcome =>
      (∃ account, outcome = .ok (toViewModel account) ∧ steps.Found code account) ∨
      ∃ error, outcome = .error error ∧ (error.code? = some .unknownAccount →
        ∃ now, steps.Answered (.accountsByCode code) [] now)) () := by
  refine (PostgresAccountRepo.getByCode_finds code).bind (fun _ found holds => ?_)
    fun _ error holds => ?_
  · obtain ⟨account, same, known⟩ | ⟨same, unused⟩ | ⟨error, impossible, _⟩ := holds
    · obtain rfl := Except.ok.inj same
      exact Program.conforms_done (.inl ⟨account, rfl, known⟩)
    · obtain rfl := Except.ok.inj same
      exact Program.conforms_done (.inr ⟨unknownAccount code, rfl, fun _ => unused⟩)
    · cases impossible
  · obtain ⟨account, impossible, _⟩ | ⟨impossible, _⟩ | ⟨own, same, other⟩ := holds
    · cases impossible
    · cases impossible
    · obtain rfl := Except.error.inj same
      exact .inr ⟨error, rfl, fun unknown => absurd unknown other⟩

theorem getAccount_learns (code : String) :
    Learns steps (getAccount code) fun view => ∃ account, steps.Found code account ∧
      view = toViewModel account := by
  refine (getAccount_finds code).mono fun _ outcome holds view same => ?_
  obtain ⟨account, same', found⟩ | ⟨error, impossible, _⟩ := holds
  · exact ⟨account, found, Except.ok.inj (same.symm.trans same')⟩
  · cases impossible.symm.trans same

theorem getChart_learns : Learns steps getChart steps.Charted :=
  PostgresAccountRepo.listAll_learns.bind fun accounts listed =>
    (lift_learns _).mono fun _ charted => ⟨accounts, listed, charted⟩

theorem resolveAccount_learns (reference : String) :
    Learns steps (resolveAccount reference) fun view => ∃ chart account, steps.Charted chart ∧
      chart.getByName reference = some account ∧ view = toViewModel account :=
  getChart_learns.bind fun chart charted => (lift_learns _).bind fun account found =>
    learns_pure ⟨chart, account, charted, orRaise_eq_ok_iff.mp found, rfl⟩

theorem listAccounts_learns :
    Learns steps listAccounts fun view => ∃ accounts, steps.Listed accounts ∧
      view = { accounts := accounts.map toViewModel } :=
  PostgresAccountRepo.listAll_learns.bind fun accounts listed =>
    learns_pure ⟨accounts, listed, rfl⟩

end AccountService

namespace JournalService

/-- Computing passes on a result and nothing else. -/
theorem computing_eq_ok_iff {Value : Type} {computed : Except Decimal.ArithmeticError Value}
    {value : Value} : computing computed = .ok value ↔ computed = .ok value := by
  rcases computed with (_ | _) | result
  · exact iff_of_false nofun nofun
  · exact ⟨fun same => congrArg _ (Except.ok.inj same), fun same => congrArg _ (Except.ok.inj same)⟩

theorem getJournalEntry_learns (number : Int) :
    Learns steps (getJournalEntry number) (steps.Viewed number) :=
  orRaise_learns (PostgresJournalRepo.getByNumber_learns number) fun entry found =>
    (lift_learns _).mono fun _ viewed => ⟨entry, found, computing_eq_ok_iff.mp viewed⟩

theorem listJournalEntries_learns :
    Learns steps listJournalEntries fun views => ∃ entries, steps.ListedEntries entries ∧
      toEntryViews entries = .ok views :=
  PostgresJournalRepo.listEntries_learns.bind fun entries listed =>
    (lift_learns _).mono fun _ viewed => ⟨entries, listed, viewed⟩

end JournalService

namespace PostingService

theorem getPostingsByAccount_learns (account : String) :
    Learns steps (getPostingsByAccount account) fun views => ∃ postings,
      steps.FoundPostings account postings ∧ views = postings.map toViewModel :=
  (PostgresPostingRepo.getByAccount_learns account).bind fun postings found =>
    learns_pure ⟨postings, found, rfl⟩

theorem getPostingsByJournalNumber_learns (number : Int) :
    Learns steps (getPostingsByJournalNumber number) fun views => ∃ postings now,
      steps.FoundPostingsOf number postings now ∧ views = postings.map toViewModel :=
  (PostgresPostingRepo.getByJournalNumber_learns number).bind fun found answered =>
    learns_pure ⟨found.1, found.2, answered, rfl⟩

end PostingService

end Services

end Trutina
