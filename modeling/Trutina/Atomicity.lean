/-
This file proves that a write is atomic for its caller. Whatever fails, and
wherever, a call that raises has left every table and the log as they were; only
a journal number may have been drawn, and only after the actor and the references
were accepted. A call that returns has stored exactly the change it is meant to
make, and has logged it once.
-/

import Trutina.Readers
import Trutina.Sequential

namespace Trutina

open Interaction

/-! ### What a call is meant to store -/

/-- The change of each call that writes, with what its reads have established. -/
inductive Call.Stores (world : World) : Call → Response → World → Prop where
  | createAccount {dto : CreateAccountInput} {actor : String} {account : Account}
      (built : Account.validate dto.code dto.name dto.category = .ok account)
      (codeFree : ∀ row ∈ world.accounts, row.code ≠ account.code)
      (nameFree : ∀ row ∈ world.accounts, row.nameKey ≠ accountLookupKey account.name) :
      Stores world (.createAccount dto actor) (.account (AccountService.toViewModel account))
        { world with
          accounts := world.accounts ++ [⟨world.nextAccountId, account.code, account.name,
            accountLookupKey account.name, account.category⟩]
          nextAccountId := world.nextAccountId + 1
          auditEvents := world.auditEvents ++ [auditRow .create account.code actor] }
  | updateAccount {dto : UpdateAccountInput} {actor : String} {row : AccountModel}
      {existing updated : Account} (stored : row ∈ world.accounts) (own : row.code = dto.code)
      (rebuilt : PostgresAccountRepo.toDomain row = .ok existing)
      (built : Account.validate existing.code (dto.name.getD existing.name)
        (dto.category.getD existing.category) = .ok updated) :
      Stores world (.updateAccount dto actor) (.account (AccountService.toViewModel updated))
        { world with
          accounts := world.accounts.map fun other =>
            if other = row then ⟨row.id, row.code, updated.name, accountLookupKey updated.name,
              updated.category⟩ else other
          auditEvents := world.auditEvents ++ [auditRow .update updated.code actor] }
  | deleteAccount {code actor : String} {row : AccountModel} (stored : row ∈ world.accounts)
      (own : row.code = code)
      (unposted : ∀ posting ∈ world.postings, ∀ account,
        PostgresAccountRepo.toDomain row = .ok account →
          posting.accountKey ≠ accountLookupKey account.name) :
      Stores world (.deleteAccount code actor) .deleted
        { world with
          accounts := world.accounts.filter fun other => other.id != row.id
          auditEvents := world.auditEvents ++ [auditRow .delete code actor] }
  | createJournalEntry {input : CreateJournalInput} {actor : String} {now : Timestamp}
      {entry : JournalEntry} {view : JournalViewModel} {lines : List (JournalLineModel Money)}
      (resolves : world.Resolves input)
      (built : JournalService.buildEntry now world.nextJournalNumber input = .ok entry)
      (viewed : toEntryView entry = .ok view)
      (fresh : ∀ header ∈ world.journalEntries, header.journalNumber ≠ world.nextJournalNumber)
      (stored : List.Forall₂ StoredAs
        (PostgresJournalRepo.lineRows entry.journalNumber entry.lines) lines) :
      Stores world (.createJournalEntry input actor) (.journal view)
        { world with
          nextJournalNumber := world.nextJournalNumber + 1
          journalEntries := world.journalEntries ++ [headerOf entry actor]
          journalLines := world.journalLines ++ lines }
  | postJournalEntry {number : Int} {actor : String} {header : JournalEntryModel}
      {views : List PostingViewModel} (stored : header ∈ world.journalEntries)
      (own : header.journalNumber = number) (unposted : world.postingsOf number = []) :
      Stores world (.postJournalEntry number actor) (.postings views)
        { world with
          postings := world.postings ++
            (world.linesOf number).map (postingOf header (some actor)) }

/-! ### What a call stores -/

section Stored

variable {world stored : World} {call : Call} {transaction : Transaction} {response : Response}
  {env : Env}

/-- The transaction of a call makes exactly its change. -/
theorem Call.Sends.stores (sound : world.Sound) (identified : world.Identified)
    (sends : call.Sends world transaction response)
    (numbered : transaction.Numbered world.nextJournalNumber)
    (applied : transaction.apply env (call.prepared world) = .ok stored) :
    call.Stores world response stored := by
  cases sends with
  | createAccount built =>
    obtain ⟨codeFree, nameFree, rfl⟩ := insertAccount_ok applied
    exact .createAccount built codeFree nameFree
  | @updateAccount dto actor row loaded existing updated read rebuilt built found =>
    obtain ⟨code, _⟩ := Account.validate_eq_ok_iff.mp built
    obtain ⟨ownCode, _⟩ := Account.validate_eq_ok_iff.mp rebuilt
    obtain rfl : row = loaded :=
      identified.eq_of_code read.1 found.1 (by rw [found.2, code, ownCode])
    rw [updateAccount_rows identified found.1 applied]
    exact .updateAccount read.1 read.2 rebuilt built
  | @deleteAccount code actor row loaded existing read rebuilt unposted found =>
    obtain rfl : row = loaded := identified.eq_of_code read.1 found.1 (read.2.trans found.2.symm)
    rw [deleteAccount_ok applied]
    refine .deleteAccount read.1 read.2 fun posting member account same => ?_
    rw [rebuilt] at same
    exact Except.ok.inj same ▸ unposted posting member
  | @createJournalEntry input actor env' chart now number entry view charted resolved built
      viewed =>
    obtain ⟨fresh, _, lines, storedLines, rfl⟩ := insertJournal_ok applied
    have drawn : entry.journalNumber = world.nextJournalNumber := numbered
    obtain ⟨_, _, validated⟩ := buildEntry_eq_ok_iff.mp built
    rw [← (JournalEntry.validate_eq_ok_iff.mp validated).1, drawn] at built
    exact .createJournalEntry ⟨env', chart, charted, resolved⟩ built viewed (drawn ▸ fresh)
      storedLines
  | @postJournalEntry number actor header views stored own readable =>
    have unposted : world.postingsOf header.journalNumber = [] := by
      by_contra posted
      obtain ⟨constraint, refused⟩ := insertPostings_posted env sound (some actor) posted
      cases refused.symm.trans applied
    obtain ⟨rfl, _⟩ := insertPostings_ok applied
    rw [own] at unposted ⊢
    exact .postJournalEntry stored own unposted

/-- The change of a call is none of the log. -/
theorem Call.Stores.log (stores : call.Stores world response stored) :
    stored.log = world.log := by
  cases stores <;> rfl

end Stored

/-! ### Atomicity -/

/-- Every command keeps ids and codes apart. -/
theorem handle_identified {world : World} {command : Command} {env : Env}
    (identified : world.Identified) : (handle command env world).2.Identified := by
  cases command with
  | query query =>
    rw [handle_query_state]
    exact identified
  | nextval =>
    cases failed : env.fault <;> simp only [handle, failed]
    · exact identified.congr rfl rfl
    · exact identified
  | emit record => exact identified.congr rfl rfl
  | transact transaction =>
    rcases handle_transact_cases transaction env world with still | ⟨after, applied, same⟩
    · rw [still]
      exact identified
    rw [same]
    cases transaction with
    | insertAccount code name nameKey category audit => exact identified.insert applied
    | updateAccount loaded name nameKey category audit => exact identified.update applied
    | deleteAccount loaded audit => exact identified.delete applied
    | insertJournal entry lines =>
      obtain ⟨_, _, _, _, rfl⟩ := insertJournal_ok applied
      exact identified.congr rfl rfl
    | insertPostings postings =>
      obtain ⟨_, rfl⟩ := insertPostings_appends applied
      exact identified.congr rfl rfl

/-- The references of an input are names of stored accounts. -/
def World.Knows (world : World) (input : CreateJournalInput) : Prop :=
  ∀ line ∈ input.lines, ∃ row ∈ world.accounts, ∃ account,
    PostgresAccountRepo.toDomain row = .ok account ∧
      accountLookupKey account.name = accountLookupKey line.account

theorem World.Resolves.knows {world : World} {input : CreateJournalInput}
    (resolves : world.Resolves input) : world.Knows input := by
  obtain ⟨env, chart, charted, resolved⟩ := resolves
  intro line member
  obtain ⟨account, found⟩ := resolveLines_eq_ok_iff.mp resolved line member
  obtain ⟨listed, same⟩ := ChartOfAccounts.getByName_eq_some_iff.mp found
  obtain ⟨row, read, rebuilt⟩ := (fromRows_eq_ok_iff.mp charted).exists_left listed
  exact ⟨row, (env.arrangeAccounts_perm _).mem_iff.mp read, account, rebuilt, same⟩

/-- A call of a blank actor has ended before its first command. -/
theorem program_of_blank {call : Call} {actor : String} (own : actor ∈ call.actor)
    (blank : isNonBlankActor actor = false) :
    call.program = .done (.error (ValidationAppError.requiredField "actor" actor)) := by
  have required : requireActor actor = .error (ValidationAppError.requiredField "actor" actor) :=
    if_neg (Bool.eq_false_iff.mp blank)
  cases call <;> cases own <;>
    simp only [Call.program, AccountService.createAccount, AccountService.updateAccount,
      AccountService.deleteAccount, JournalService.createJournalEntry,
      PostingService.postJournalEntry, required] <;>
    rfl

/-- In every store that calls reach, in any order of their steps, a write that runs alone is
atomic. If it raises, the store is as it was, but that a number may have been drawn for a named
actor and known references. If it returns, exactly its change is stored, and one record logged. A
blank actor is rejected before anything is asked of a repository. -/
theorem write_atomic {Thread : Type} [DecidableEq Thread] (calls : Thread → Call) {start : World}
    (sound : start.Sound) (identified : start.Identified)
    {pool : Pool Thread Command Reply Raised Response World}
    (reaches : Reaches handle (fun _ _ _ _ => True)
      ⟨start, fun thread => (calls thread).program⟩ pool)
    {permits : World → Command → Env → Prop} {call : Call} (writes : call.Writes)
    {outcome : Except Raised Response} {after : World}
    (runs : Runs handle permits call.program pool.state outcome after) :
    (∀ error, outcome = .error error → after = pool.state ∨
      (after = { pool.state with nextJournalNumber := pool.state.nextJournalNumber + 1 } ∧
        ∃ input actor, call = .createJournalEntry input actor ∧ isNonBlankActor actor = true ∧
          pool.state.Knows input)) ∧
    (∀ response, outcome = .ok response → ∃ stored record,
      call.Stores pool.state response stored ∧ call.Logs response record ∧
        after = { stored with log := pool.state.log ++ [record] }) ∧
    ∀ actor ∈ call.actor, isNonBlankActor actor = false →
      call.program = .done (.error (ValidationAppError.requiredField "actor" actor)) := by
  have soundPool := (pool_sound calls sound reaches).1.invariant
  have identifiedPool : pool.state.Identified :=
    reaches.keeps (fun _ _ command env _ => handle_identified) identified
  refine ⟨?_, ?_, fun actor own blank => program_of_blank own blank⟩
  · rintro error rfl
    cases write_run soundPool writes runs with
    | stopped stops => exact .inl stops.still
    | drew creates named resolves => exact .inr ⟨rfl, _, _, creates, named, resolves.knows⟩
  · rintro response rfl
    cases write_run soundPool writes runs with
    | stopped stops =>
      obtain ⟨_, raised⟩ := stops.raises
      cases raised
    | wrote named sends logs numbered applied =>
      have stores := sends.stores soundPool identifiedPool numbered applied
      exact ⟨_, _, stores, logs, by rw [stores.log]⟩

/-- Where an account has postings: its deletion, the creation of another, and of an entry. -/
def postedDeletion : Call := .deleteAccount "1000" "alice"

def bankCreation : Call :=
  .createAccount ((CreateAccountInput.accept "2000" "Bank" .asset).get (.refl true)) "alice"

/-- The database times out at the third command, which is the commit. -/
def timeoutAtCommit (step : Nat) : Env :=
  if step = 2 then { Env.calm 1700000000000000 with fault := some .timeout }
  else Env.calm 1700000000000000

/-- A deletion that is refused leaves the store as it was, an entry that is not committed has drawn
its number, and an account that is created is stored and logged once. -/
theorem write_atomic_of_sale :
    (∃ error, postedDeletion.program.run handle (fun _ => Env.calm 1700000000000000)
      salePosted.state = (.error error, salePosted.state)) ∧
    (∃ error, (saleReaders 2).program.run handle timeoutAtCommit salePosted.state =
      (.error error, { salePosted.state with
        nextJournalNumber := salePosted.state.nextJournalNumber + 1 })) ∧
    ∃ response stored record, bankCreation.Stores salePosted.state response stored ∧
      bankCreation.Logs response record ∧
      bankCreation.program.run handle (fun _ => Env.calm 1700000000000000) salePosted.state =
        (.ok response, { stored with log := salePosted.state.log ++ [record] }) := by
  have atomic := fun (call : Call) (writes : call.Writes) (envs : Nat → Env) =>
    write_atomic saleReaders empty_sound empty_identified salePosted_reaches writes
      (runs_run envs (fun _ _ _ => trivial) call.program salePosted.state :
        Runs handle (fun _ _ _ => True) _ _ _ _)
  have raises : ∀ (call : Call) (envs : Nat → Env),
      (call.program.run handle envs salePosted.state).1.toOption.isSome = false →
      ∃ error, (call.program.run handle envs salePosted.state).1 = .error error := by
    intro call envs fails
    cases outcome : (call.program.run handle envs salePosted.state).1 with
    | error error => exact ⟨error, rfl⟩
    | ok response =>
      rw [outcome] at fails
      cases fails
  refine ⟨?_, ?_, ?_⟩
  · obtain ⟨error, outcome⟩ := raises postedDeletion (fun _ => Env.calm 1700000000000000)
      (by decide +kernel)
    obtain ⟨raised, _, _⟩ := atomic postedDeletion trivial fun _ => Env.calm 1700000000000000
    rcases raised error outcome with same | ⟨_, _, _, creates, _⟩
    · exact ⟨error, Prod.ext outcome same⟩
    · cases creates
  · obtain ⟨error, outcome⟩ := raises (saleReaders 2) timeoutAtCommit (by decide +kernel)
    obtain ⟨raised, _, _⟩ := atomic (saleReaders 2) trivial timeoutAtCommit
    rcases raised error outcome with same | ⟨drawn, _⟩
    · have number : ((saleReaders 2).program.run handle timeoutAtCommit
          salePosted.state).2.nextJournalNumber ≠ salePosted.state.nextJournalNumber := by
        decide +kernel
      exact absurd (congrArg World.nextJournalNumber same) number
    · exact ⟨error, Prod.ext outcome drawn⟩
  · have succeeds : (bankCreation.program.run handle (fun _ => Env.calm 1700000000000000)
        salePosted.state).1.toOption.isSome = true := by decide +kernel
    obtain ⟨_, returned, _⟩ := atomic bankCreation trivial fun _ => Env.calm 1700000000000000
    cases outcome : (bankCreation.program.run handle (fun _ => Env.calm 1700000000000000)
        salePosted.state).1 with
    | error error =>
      rw [outcome] at succeeds
      cases succeeds
    | ok response =>
      obtain ⟨stored, record, stores, logs, after⟩ := returned response outcome
      exact ⟨response, stored, record, stores, logs, Prod.ext outcome after⟩

end Trutina
