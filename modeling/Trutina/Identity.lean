/-
This file proves when a name still stands for the account it once resolved to. The
safeguard of deletions, the rows of a report and the targets of postings all go by
lookup keys, while accounts are told apart by their codes. Each theorem therefore has
a condition on the calls in between: accounts keep the keys of the lines that have
resolved to them, they do not take the keys of lines that have resolved to others,
and they are not deleted while unposted lines have their key.
-/

import Trutina.History

namespace Trutina

open Interaction

namespace History

variable {history : History}

/-! ### Deletions -/

/-- When the next call gives a name to an account, lines that have resolved to the account have the
lookup key of that name. -/
def KeepsNames (history : History) (call : Call) (envs : Nat → Env) : Prop :=
  history.succeeds call envs = true → ∀ given ∈ call.gives, ∀ line ∈ history.world.journalLines,
    ⟨line.journalNumber, line.lineIndex, given.1⟩ ∈ history.resolutions →
      accountLookupKey given.2 = accountLookupKey line.account

instance (history : History) (call : Call) (envs : Nat → Env) :
    Decidable (history.KeepsNames call envs) := by
  unfold KeepsNames
  infer_instance

/-- An account has the lookup key of the lines that have resolved to it. -/
def NamesKept (history : History) : Prop :=
  ∀ line code, history.Resolved line code → ∀ row ∈ history.world.accounts, row.code = code →
    row.nameKey = accountLookupKey line.account

theorem NamesKept.step (tracked : history.Tracked) (kept : history.NamesKept) {call : Call}
    {envs : Nat → Env} (permitted : history.KeepsNames call envs) :
    (history.step call envs).NamesKept := by
  intro line code resolved row member own
  have effect := tracked.effect call envs
  have consistentAfter := (tracked.step call envs).consistent
  rcases tracked.resolved_origin resolved with earlier | ⟨same, chosen, stored, ownCode, key⟩
  · rcases effect.row_origin tracked.consistent member with
      ⟨old, stored, sameCode, sameName⟩ | ⟨returned, account, sameCode, sameName, gives⟩
    · rw [consistentAfter.keyed row member, ← sameName, ← tracked.consistent.keyed old stored]
      exact kept line code earlier old stored (sameCode.trans own)
    · rw [consistentAfter.keyed row member, ← sameName]
      refine permitted (succeeds_of_ok returned) _ gives line earlier.stored ?_
      rw [sameCode, own]
      exact earlier.recorded
  · rw [same] at member
    rw [tracked.consistent.eq_of_code member stored (own.trans ownCode.symm), key]

theorem namesKept_of_reachable (reachable : Reachable KeepsNames history) :
    history.Tracked ∧ history.NamesKept :=
  reachable.invariant (fun _ _ resolved => absurd resolved.stored List.not_mem_nil)
    fun _ _ _ tracked kept permitted => kept.step tracked permitted

/-- Names with the same lookup key have the same length. -/
theorem length_of_sameKey {first second : String} (left : cleanAccountName first = some first)
    (right : cleanAccountName second = some second)
    (same : accountLookupKey first = accountLookupKey second) : first.length = second.length := by
  have folded := congrArg (fun text : String => text.toList.length) same
  simp only [accountLookupKey, casefold_ascii (cleanAccountName_ascii left),
    casefold_ascii (cleanAccountName_ascii right), List.length_map, String.length_toList] at folded
  exact folded

/-- The row of an account with a resolved line that was posted can be rebuilt. -/
theorem Tracked.row_rebuilt (tracked : history.Tracked) {row : AccountModel}
    (member : row ∈ history.world.accounts) {line : JournalLineModel Money} {code : String}
    (resolved : history.Resolved line code) (long : 2 ≤ line.account.length)
    (key : row.nameKey = accountLookupKey line.account) :
    ∃ account, PostgresAccountRepo.toDomain row = .ok account ∧ account.name = row.name := by
  have clean := tracked.consistent.cleaned row member
  obtain ⟨format, short⟩ := tracked.formed row member
  have sameKey := (tracked.consistent.keyed row member).symm.trans key
  have length := length_of_sameKey clean (tracked.sound.clean line resolved.stored) sameKey
  obtain ⟨account, rebuilt⟩ := (toDomain_ok_iff clean).mpr ⟨format, length ▸ long, short⟩
  exact ⟨account, rebuilt, (tracked.consistent.toDomain_fields member rebuilt).2.1⟩

/-- The check of a deletion finds a stored posting, once the clock has reached the dates. -/
theorem run_hasPostings_bind {world : World} (sound : world.Sound) {posting : PostingModel Money}
    (stored : posting ∈ world.postings) {name : String}
    (key : posting.accountKey = accountLookupKey name) {envs : Nat → Env}
    (calm : (envs 0).fault = none)
    (dated : ∀ posting ∈ world.postings, posting.postingDate ≤ (envs 0).now) {Other : Type}
    {continuation : Bool → Action Other} :
    (AccountService.hasPostings name >>= continuation).run handle envs world =
      (continuation true).run handle (fun step => envs (step + 1)) world := by
  have arranged := (envs 0).arrangePostings_perm
    (world.postings.filter fun posting => posting.accountKey = accountLookupKey name)
  have rows : ∀ other, other ∈ Query.rows (envs 0) world
      (.postingsByAccountKey (accountLookupKey name)) ↔
        other ∈ world.postings ∧ other.accountKey = accountLookupKey name := fun other => by
    rw [Query.rows, List.mem_insertionSort, arranged.mem_iff, List.mem_filter, decide_eq_true_iff]
  have rebuilt : ∀ other ∈ Query.rows (envs 0) world
      (.postingsByAccountKey (accountLookupKey name)),
      ∃ value, PostgresPostingRepo.toDomain (envs 0).now other = .ok value := fun other member => by
    have present := ((rows other).mp member).1
    obtain ⟨header, posted, listed⟩ := sound.posted_listing present
    have date := (posted.posting sound listed).1
    exact posted_rebuilds posted (date ▸ dated other present) listed
  obtain ⟨postings, converted⟩ := fromRows_total rebuilt
  obtain ⟨value, returned, _⟩ := mem_of_fromRows converted ((rows posting).mpr ⟨stored, key⟩)
  have some' : decide (0 < postings.length) = true :=
    decide_eq_true (List.length_pos_of_mem returned)
  simp only [AccountService.hasPostings, PostgresPostingRepo.getByAccount, bind_assoc]
  rw [run_execute_bind calm, run_lift_bind_ok converted, some']
  rfl

/-- A deletion is refused while a stored posting has the lookup key of the account's name. -/
theorem Tracked.deleteAccount_refused (tracked : history.Tracked) {row : AccountModel}
    (member : row ∈ history.world.accounts) {account : Account}
    (rebuilt : PostgresAccountRepo.toDomain row = .ok account) {posting : PostingModel Money}
    (stored : posting ∈ history.world.postings)
    (key : posting.accountKey = accountLookupKey account.name) {actor : String}
    (named : isNonBlankActor actor = true) {envs : Nat → Env}
    (calm : ∀ step, (envs step).fault = none)
    (dated : ∀ posting ∈ history.world.postings, ∀ step, posting.postingDate ≤ (envs step).now) :
    (AccountService.deleteAccount row.code actor).run handle envs history.world =
      (.error (AppError.conflict .accountHasPostings "account" "code" row.code),
        history.world) := by
  rw [AccountService.deleteAccount, run_lift_bind_ok (requireActor_ok named),
    run_getByCode_bind tracked.consistent.toIdentified member rebuilt (calm 0)]
  rw [run_lift_bind_ok (orRaise_eq_ok_iff.mpr rfl), run_hasPostings_bind tracked.sound stored key
    (calm 1) fun other present => dated other present 1]
  rfl

/-- In every history whose calls keep the names of accounts: an account that a stored posting
derives from, by the resolution of its line, is never deleted. A deletion never returns and changes
no account; with an actor, no failure, and a clock that has reached the dates of the postings, it
raises that the account has postings. -/
theorem deleteAccount_safeguarded (reachable : Reachable KeepsNames history)
    {posting : PostingModel Money} {code : String} (posted : history.PostedTo posting code)
    {row : AccountModel} (member : row ∈ history.world.accounts) (own : row.code = code) :
    (∀ actor envs, history.succeeds (.deleteAccount code actor) envs = false ∧
      (history.step (.deleteAccount code actor) envs).world.accounts = history.world.accounts) ∧
    ∀ actor envs, isNonBlankActor actor = true → (∀ step, (envs step).fault = none) →
      (∀ posting ∈ history.world.postings, ∀ step, posting.postingDate ≤ (envs step).now) →
      (AccountService.deleteAccount code actor).run handle envs history.world =
        (.error (AppError.conflict .accountHasPostings "account" "code" code),
          history.world) := by
  obtain ⟨tracked, kept⟩ := namesKept_of_reachable reachable
  obtain ⟨line, resolved, key, long⟩ := tracked.posted_line posted
  have rowKey := kept line code resolved row member own
  subst own
  refine ⟨fun actor envs => ?_, fun actor envs named calm dated => ?_⟩
  · have effect := tracked.effect (.deleteAccount row.code actor) envs
    generalize returned : ((Call.deleteAccount row.code actor).program.run handle envs
      history.world).1 = outcome at effect
    cases effect with
    | failed fails =>
      obtain ⟨error, rfl⟩ := fails.raises
      rw [succeeds, returned]
      exact ⟨rfl, fails.same.accounts⟩
    | read reads _ => exact absurd trivial reads
    | wrote sends =>
      cases sends with
      | deleteAccount read rebuilt unposted =>
        obtain ⟨_, name, _⟩ := tracked.consistent.toDomain_fields read.1 rebuilt
        refine absurd ?_ (unposted posting posted.stored)
        rw [name, tracked.consistent.eq_of_code read.1 member read.2,
          ← tracked.consistent.keyed row member, rowKey, key]
  · obtain ⟨account, rebuilt, name⟩ := tracked.row_rebuilt member resolved long rowKey
    refine tracked.deleteAccount_refused member rebuilt posted.stored ?_ named calm dated
    rw [name, ← tracked.consistent.keyed row member, rowKey, key]

/-- Two accounts, and an entry on them that is posted. -/
def postedEntry : List (Call × (Nat → Env)) :=
  [.createAccount ((CreateAccountInput.accept "1000" "Cash" .asset).get (.refl true)) "alice",
    .createAccount ((CreateAccountInput.accept "4000" "Sales" .revenue).get (.refl true)) "alice",
    .createJournalEntry
      ((CreateJournalInput.accept ⟨1600000000000000, none⟩
        [(JournalLineInput.accept "cash" ⟨1250, -2⟩ ⟨0, 0⟩).get (.refl true),
          (JournalLineInput.accept "Sales" ⟨0, 0⟩ ⟨125, -1⟩).get (.refl true)]
        none).get (.refl true)) "bob",
    .postJournalEntry 1 "bob"].map fun call => (call, fun _ => Env.calm 1700000000000000)

/-- The history in which an account is renamed after that. -/
def renamedTo (name : String) (bounds : 2 ≤ name.length ∧ name.length ≤ 150) : History :=
  History.empty.play (postedEntry ++ [(.updateAccount
    ⟨"1000", some name, none, by decide, fun _ given => Option.some.inj given ▸ bounds⟩ "alice",
    fun _ => Env.calm 1700000000000000)])

/-- When only the case of the name changes, the deletion is refused. -/
theorem deleteAccount_safeguarded_after_case :
    (∃ posting, (renamedTo "CASH" (by decide)).PostedTo posting "1000") ∧
      (AccountService.deleteAccount "1000" "alice").run handle
        (fun _ => Env.calm 1700000000000000) (renamedTo "CASH" (by decide)).world =
          (.error (AppError.conflict .accountHasPostings "account" "code" "1000"),
            (renamedTo "CASH" (by decide)).world) := by
  have posted : ∃ posting ∈ (renamedTo "CASH" (by decide)).world.postings,
      (renamedTo "CASH" (by decide)).PostedTo posting "1000" := by decide +kernel
  have charted : ∃ row ∈ (renamedTo "CASH" (by decide)).world.accounts, row.code = "1000" := by
    decide +kernel
  have dated : ∀ posting ∈ (renamedTo "CASH" (by decide)).world.postings,
      posting.postingDate ≤ 1700000000000000 := by decide +kernel
  obtain ⟨posting, _, posted⟩ := posted
  obtain ⟨row, member, own⟩ := charted
  exact ⟨⟨posting, posted⟩, (deleteAccount_safeguarded
    (Reachable.empty.play _ (by decide +kernel)) posted member own).2 "alice" _ (by decide +kernel)
    (fun _ => rfl) fun other stored _ => dated other stored⟩

/-- When the account takes another name, it is deleted although a line that resolved to it is
posted. -/
theorem deleteAccount_unsafeguarded_after_rename :
    Reachable (fun _ _ _ => True) (renamedTo "Bank" (by decide)) ∧
      (∃ posting ∈ (renamedTo "Bank" (by decide)).world.postings,
        (renamedTo "Bank" (by decide)).PostedTo posting "1000") ∧
      (renamedTo "Bank" (by decide)).succeeds (.deleteAccount "1000" "alice")
        (fun _ => Env.calm 1700000000000000) = true ∧
      (renamedTo "Bank" (by decide)).world.accounts.map AccountModel.code = ["1000", "4000"] ∧
      ((renamedTo "Bank" (by decide)).step (.deleteAccount "1000" "alice")
        fun _ => Env.calm 1700000000000000).world.accounts.map AccountModel.code = ["4000"] := by
  refine ⟨Reachable.empty.play _ (by decide +kernel), ?_⟩
  decide +kernel

/-! ### Reports -/

/-- When the next call gives a name to an account, lines with the lookup key of that name have
resolved to no other account. -/
def KeepsApart (history : History) (call : Call) (envs : Nat → Env) : Prop :=
  history.succeeds call envs = true → ∀ given ∈ call.gives, ∀ line ∈ history.world.journalLines,
    accountLookupKey line.account = accountLookupKey given.2 →
      ∀ resolution ∈ history.resolutions, resolution.journalNumber = line.journalNumber →
        resolution.lineIndex = line.lineIndex → resolution.code = given.1

instance (history : History) (call : Call) (envs : Nat → Env) :
    Decidable (history.KeepsApart call envs) := by
  unfold KeepsApart
  infer_instance

/-- A lookup key of resolved lines belongs to one account: whatever has the key has its code. -/
structure KeptApart (history : History) : Prop where
  accounts : ∀ line code, history.Resolved line code → ∀ row ∈ history.world.accounts,
    row.nameKey = accountLookupKey line.account → row.code = code
  lines : ∀ first second code other, history.Resolved first code →
    history.Resolved second other →
    accountLookupKey first.account = accountLookupKey second.account → code = other

theorem KeptApart.step (tracked : history.Tracked) (apart : history.KeptApart) {call : Call}
    {envs : Nat → Env} (permitted : history.KeepsApart call envs) :
    (history.step call envs).KeptApart := by
  have effect := tracked.effect call envs
  have consistent := tracked.consistent
  have consistentAfter := (tracked.step call envs).consistent
  constructor
  · intro line code resolved row member sameKey
    rcases tracked.resolved_origin resolved with earlier | ⟨same, chosen, stored, ownCode, key⟩
    · rcases effect.row_origin consistent member with
        ⟨old, stored, sameCode, sameName⟩ | ⟨returned, account, sameCode, sameName, gives⟩
      · rw [← sameCode]
        refine apart.accounts line code earlier old stored ?_
        rw [consistent.keyed old stored, sameName, ← consistentAfter.keyed row member, sameKey]
      · rw [← sameCode]
        refine (permitted (succeeds_of_ok returned) _ gives line earlier.stored ?_ _
          earlier.recorded rfl rfl).symm
        rw [← sameKey, consistentAfter.keyed row member, sameName]
    · rw [same] at member
      rw [consistent.eq_of_key member stored (sameKey.trans key.symm), ownCode]
  · intro first second code other left right sameKey
    rcases tracked.resolved_origin left with earlier | ⟨_, chosen, stored, ownCode, key⟩ <;>
      rcases tracked.resolved_origin right with earlier' | ⟨_, chosen', stored', ownCode', key'⟩
    · exact apart.lines first second code other earlier earlier' sameKey
    · rw [← ownCode']
      exact (apart.accounts first code earlier chosen' stored' (key'.trans sameKey.symm)).symm
    · rw [← ownCode]
      exact apart.accounts second other earlier' chosen stored (key.trans sameKey)
    · rw [← ownCode, ← ownCode', consistent.eq_of_key stored stored'
        (key.trans (sameKey.trans key'.symm))]

theorem keptApart_of_reachable (reachable : Reachable KeepsApart history) :
    history.Tracked ∧ history.KeptApart :=
  reachable.invariant
    ⟨fun _ _ resolved => absurd resolved.stored List.not_mem_nil,
      fun _ _ _ _ resolved => absurd resolved.stored List.not_mem_nil⟩
    fun _ _ _ tracked apart permitted => KeptApart.step tracked apart permitted

/-- The rows of a report are the groups of the covered postings, aggregated one by one. -/
theorem getTrialBalance_groups {world : World} {asOfDate : Option Timestamp} {envs : Nat → Env}
    {report : TrialBalanceViewModel}
    (returned : ((TrialBalanceService.getTrialBalance asOfDate).run handle envs world).1 =
      .ok report) :
    ∃ groups, groups.Perm (groupByAccountKey (world.postingsInScope asOfDate)) ∧
      List.Forall₂ (fun group row => PostgresTrialBalanceRepo.toDomain
        (balanceRow (envs 0).collate group) = .ok row) groups report.entries := by
  obtain ⟨groups, arranged, rows⟩ : ∃ groups : List (List (PostingModel Money)),
      groups.Perm (groupByAccountKey (world.postingsInScope asOfDate)) ∧
        groups.map (balanceRow (envs 0).collate) =
          Query.rows (envs 0) world (.accountBalances asOfDate) :=
    ⟨_, List.perm_insertionSort (fun first second => (envs 0).collate
      (minAccount (envs 0).collate first) (minAccount (envs 0).collate second) = true) _,
      List.map_insertionSort _ _ _ _ fun _ _ _ _ => Iff.rfl⟩
  refine ⟨groups, arranged, ?_⟩
  simp only [TrialBalanceService.getTrialBalance, PostgresTrialBalanceRepo.getAccountBalances,
    bind_assoc] at returned
  cases failed : (envs 0).fault with
  | some fault =>
    simp only [execute, Program.ask_bind, Program.run, handle, failed] at returned
    cases returned
  | none =>
    rw [run_execute_bind failed] at returned
    cases rebuilt : fromRows PostgresTrialBalanceRepo.toDomain
        (Query.rows (envs 0) world (.accountBalances asOfDate)) with
    | error error =>
      rw [rebuilt] at returned
      cases returned
    | ok entries =>
      rw [run_lift_bind_ok rebuilt] at returned
      obtain rfl := Except.ok.inj returned
      rw [← rows] at rebuilt
      exact List.forall₂_map_left_iff.mp (fromRows_eq_ok_iff.mp rebuilt)

/-- In every history whose calls keep lookup keys apart: the rows of a report aggregate the groups
of the covered postings, and the postings of one group derive, by the resolutions of their lines,
from one account. -/
theorem reportRows_of_one_account (reachable : Reachable KeepsApart history)
    {asOfDate : Option Timestamp} {envs : Nat → Env} {report : TrialBalanceViewModel}
    (returned : ((TrialBalanceService.getTrialBalance asOfDate).run handle envs
      history.world).1 = .ok report) :
    ∃ groups, groups.Perm (groupByAccountKey (history.world.postingsInScope asOfDate)) ∧
      List.Forall₂ (fun group row => PostgresTrialBalanceRepo.toDomain
        (balanceRow (envs 0).collate group) = .ok row) groups report.entries ∧
      ∀ group ∈ groups, ∀ first ∈ group, ∀ second ∈ group, ∀ code other,
        history.PostedTo first code → history.PostedTo second other → code = other := by
  obtain ⟨tracked, apart⟩ := keptApart_of_reachable reachable
  obtain ⟨groups, arranged, aggregated⟩ := getTrialBalance_groups returned
  refine ⟨groups, arranged, aggregated, fun group member first left second right code other
    firstPosted secondPosted => ?_⟩
  obtain ⟨key, _, rfl⟩ := List.mem_map.mp (arranged.mem_iff.mp member)
  have sameKey : first.accountKey = second.accountKey :=
    (of_decide_eq_true (List.mem_filter.mp left).2).trans
      (of_decide_eq_true (List.mem_filter.mp right).2).symm
  obtain ⟨firstLine, firstResolved, firstKey, _⟩ := tracked.posted_line firstPosted
  obtain ⟨secondLine, secondResolved, secondKey, _⟩ := tracked.posted_line secondPosted
  refine apart.lines firstLine secondLine code other firstResolved secondResolved ?_
  rw [← firstKey, sameKey, secondKey]

/-- The name of the first account is given up, another account is opened under a name, and an entry
on that account is posted. -/
def reopenedAs (name : String) (bounds : 2 ≤ name.length ∧ name.length ≤ 100) : History :=
  (renamedTo "Bank" (by decide)).play <|
    [.createAccount ⟨"2000", name, .asset, by decide, bounds.1, bounds.2.trans (by decide)⟩ "alice",
      .createJournalEntry
        { postingDate := ⟨1650000000000000, none⟩
          lines := [⟨name, ⟨500, -2⟩, ⟨0, 0⟩, bounds, by decide, by decide⟩,
            (JournalLineInput.accept "Sales" ⟨0, 0⟩ ⟨500, -2⟩).get (.refl true)]
          description := none
          two_lines := le_refl 2
          description_length := no_description } "bob",
      .postJournalEntry 2 "bob"].map fun call => (call, fun _ => Env.calm 1700000000000000)

/-- The trial balance of the history. -/
def reopenedReport (name : String) (bounds : 2 ≤ name.length ∧ name.length ≤ 100) :
    Except Raised TrialBalanceViewModel :=
  ((TrialBalanceService.getTrialBalance none).run handle (fun _ => Env.calm 1700000000000000)
    (reopenedAs name bounds).world).1

/-- Under a new name its postings have a row of their own. -/
theorem reportRows_of_one_account_after_opening :
    ∃ report groups, reopenedReport "Till" (by decide) = .ok report ∧
      report.entries.map AccountBalanceEntry.account = ["Sales", "Till", "cash"] ∧
      List.Forall₂ (fun group row => PostgresTrialBalanceRepo.toDomain
        (balanceRow (Env.calm 1700000000000000).collate group) = .ok row) groups report.entries ∧
      ∀ group ∈ groups, ∀ first ∈ group, ∀ second ∈ group, ∀ code other,
        (reopenedAs "Till" (by decide)).PostedTo first code →
        (reopenedAs "Till" (by decide)).PostedTo second other → code = other := by
  have reachable : Reachable KeepsApart (reopenedAs "Till" (by decide)) :=
    (Reachable.empty.play _ (by decide +kernel)).play _ (by decide +kernel)
  have names : (reopenedReport "Till" (by decide)).toOption.map (fun report =>
      report.entries.map AccountBalanceEntry.account) = some ["Sales", "Till", "cash"] := by
    decide +kernel
  cases returned : reopenedReport "Till" (by decide) with
  | error error =>
    rw [returned] at names
    cases names
  | ok report =>
    rw [returned] at names
    obtain ⟨groups, _, aggregated, one⟩ := reportRows_of_one_account reachable returned
    exact ⟨report, groups, rfl, Option.some.inj names, aggregated, one⟩

/-- Under the name that was given up they share the row of the first account. -/
theorem reportRows_of_two_accounts_after_reuse :
    Reachable (fun _ _ _ => True) (reopenedAs "Cash" (by decide)) ∧
      (∃ group ∈ groupByAccountKey ((reopenedAs "Cash" (by decide)).world.postingsInScope none),
        (∃ first ∈ group, (reopenedAs "Cash" (by decide)).PostedTo first "1000") ∧
          ∃ second ∈ group, (reopenedAs "Cash" (by decide)).PostedTo second "2000") ∧
      (reopenedReport "Cash" (by decide)).toOption.map (fun report =>
        report.entries.map fun row => (row.account, row.debitTotal, row.creditTotal)) =
          some [("Cash", ⟨1750, -2⟩, ⟨0, -2⟩), ("Sales", ⟨0, -2⟩, ⟨1750, -2⟩)] := by
  refine ⟨(Reachable.empty.play _ (by decide +kernel)).play _ (by decide +kernel), ?_⟩
  decide +kernel

/-! ### Targets of postings -/

/-- When the next call is an update, it leaves the name of the account as it is. -/
def KeepsOwnName (history : History) (call : Call) (envs : Nat → Env) : Prop :=
  match call with
  | .updateAccount dto actor => history.succeeds call envs = true →
      ∀ given ∈ (Call.updateAccount dto actor).gives, ∀ row ∈ history.world.accounts,
        row.code = given.1 → row.name = given.2
  | _ => True

/-- When the next call deletes an account, no unposted line has the account's lookup key. -/
def SparesUnposted (history : History) (call : Call) (envs : Nat → Env) : Prop :=
  match call with
  | .deleteAccount code _ => history.succeeds call envs = true →
      ∀ row ∈ history.world.accounts, row.code = code → ∀ line ∈ history.world.journalLines,
        history.world.postingsOf line.journalNumber = [] →
          accountLookupKey line.account ≠ row.nameKey
  | _ => True

instance (history : History) (call : Call) (envs : Nat → Env) :
    Decidable (history.KeepsOwnName call envs) := by
  unfold KeepsOwnName
  cases call <;> infer_instance

instance (history : History) (call : Call) (envs : Nat → Env) :
    Decidable (history.SparesUnposted call envs) := by
  unfold SparesUnposted
  cases call <;> infer_instance

/-- The lines that are not posted yet have lookup keys of accounts. -/
def Targeted (history : History) : Prop :=
  ∀ line ∈ history.world.journalLines, history.world.postingsOf line.journalNumber = [] →
    ∃ row ∈ history.world.accounts, row.nameKey = accountLookupKey line.account

theorem Targeted.step (tracked : history.Tracked) (targeted : history.Targeted) {call : Call}
    {envs : Nat → Env} (sameName : history.KeepsOwnName call envs)
    (spares : history.SparesUnposted call envs) : (history.step call envs).Targeted := by
  intro line member unposted
  have effect := tracked.effect call envs
  have consistentAfter := (tracked.step call envs).consistent
  rcases effect.line_origin tracked.consistent member with
    earlier | ⟨_, _, _, _, _, created, same⟩
  · have unpostedBefore : history.world.postingsOf line.journalNumber = [] := by
      by_contra posted
      rw [(tracked.keeps call envs).2.postings _ posted] at unposted
      exact posted unposted
    obtain ⟨row, stored, key⟩ := targeted line earlier unpostedBefore
    have keyed := tracked.consistent.keyed row stored
    rcases effect.row_survives tracked.consistent stored with
      ⟨later, survives, code, name | ⟨returned, dto, actor, rfl, gives⟩⟩ |
        ⟨returned, actor, rfl⟩
    · exact ⟨later, survives, by rw [consistentAfter.keyed later survives, name, ← keyed, key]⟩
    · have name : row.name = later.name :=
        sameName (succeeds_of_ok returned) _ gives row stored rfl
      exact ⟨later, survives, by rw [consistentAfter.keyed later survives, ← name, ← keyed, key]⟩
    · exact absurd key.symm
        (spares (succeeds_of_ok returned) row stored rfl line earlier unpostedBefore)
  · rw [same]
    exact created.account

/-- The calls of the last theorem: updates leave names as they are, and deletions spare the accounts
of unposted lines. -/
def KeepsTargets (history : History) (call : Call) (envs : Nat → Env) : Prop :=
  history.KeepsOwnName call envs ∧ history.SparesUnposted call envs

instance (history : History) (call : Call) (envs : Nat → Env) :
    Decidable (history.KeepsTargets call envs) :=
  inferInstanceAs (Decidable (_ ∧ _))

theorem targeted_of_reachable (reachable : Reachable KeepsTargets history) :
    history.Tracked ∧ history.Targeted :=
  reachable.invariant (fun _ stored => absurd stored List.not_mem_nil)
    fun _ _ _ tracked targeted permitted => Targeted.step tracked targeted permitted.1 permitted.2

/-- In every history whose updates leave names as they are, and whose deletions spare the accounts
of unposted lines: every posting that posting an entry writes has the lookup key of an account. -/
theorem postings_target_accounts (reachable : Reachable KeepsTargets history)
    (number : Int) (actor : String) (envs : Nat → Env) {posting : PostingModel Money}
    (written : posting ∈ (history.step (.postJournalEntry number actor) envs).world.postings)
    (fresh : posting ∉ history.world.postings) :
    ∃ row ∈ (history.step (.postJournalEntry number actor) envs).world.accounts,
      accountLookupKey row.name = accountLookupKey posting.account := by
  obtain ⟨tracked, targeted⟩ := targeted_of_reachable reachable
  have effect := tracked.effect (.postJournalEntry number actor) envs
  obtain ⟨⟨line, stored, unposted, account, _⟩, same⟩ :=
    (effect.posting_origin tracked.sound written).resolve_left fresh
  obtain ⟨row, member, key⟩ := targeted line stored unposted
  rw [same]
  exact ⟨row, member, by rw [account, ← key, tracked.consistent.keyed row member]⟩

/-- An entry that is not posted, and the deletion of an account. -/
def deletedBeforePosting (code : String) : History :=
  (History.empty.play (postedEntry.take 3)).play
    ([.createAccount ⟨"2000", "Till", .asset, by decide, by decide⟩ "alice",
      .updateAccount ⟨"1000", some " Cash ", some .expense, by decide, fun _ given =>
        Option.some.inj given ▸ by decide⟩ "alice",
      .deleteAccount code "alice"].map fun call => (call, fun _ => Env.calm 1700000000000000))

/-- When another account was deleted, the postings of the entry have accounts. -/
theorem postings_target_accounts_after_deletion :
    ((deletedBeforePosting "2000").world.accounts.map AccountModel.code = ["1000", "4000"]) ∧
      ∃ posting ∈ ((deletedBeforePosting "2000").step (.postJournalEntry 1 "bob")
          fun _ => Env.calm 1700000000000000).world.postings,
        ∃ row ∈ ((deletedBeforePosting "2000").step (.postJournalEntry 1 "bob")
            fun _ => Env.calm 1700000000000000).world.accounts,
          accountLookupKey row.name = accountLookupKey posting.account := by
  have reachable : Reachable KeepsTargets (deletedBeforePosting "2000") :=
    (Reachable.empty.play _ (by decide +kernel)).play _ (by decide +kernel)
  have written : ∃ posting ∈ ((deletedBeforePosting "2000").step (.postJournalEntry 1 "bob")
      fun _ => Env.calm 1700000000000000).world.postings,
        posting ∉ (deletedBeforePosting "2000").world.postings := by decide +kernel
  obtain ⟨posting, written, fresh⟩ := written
  exact ⟨by decide +kernel, posting, written,
    postings_target_accounts reachable 1 "bob" _ written fresh⟩

/-- When its account was deleted, the entry is posted to an account that is gone. -/
theorem posting_targets_no_account_after_deletion :
    Reachable KeepsOwnName (deletedBeforePosting "1000") ∧
      (deletedBeforePosting "1000").succeeds (.postJournalEntry 1 "bob")
        (fun _ => Env.calm 1700000000000000) = true ∧
      ∃ posting ∈ ((deletedBeforePosting "1000").step (.postJournalEntry 1 "bob")
          fun _ => Env.calm 1700000000000000).world.postings,
        posting ∉ (deletedBeforePosting "1000").world.postings ∧
        ∀ row ∈ ((deletedBeforePosting "1000").step (.postJournalEntry 1 "bob")
            fun _ => Env.calm 1700000000000000).world.accounts,
          accountLookupKey row.name ≠ accountLookupKey posting.account := by
  refine ⟨(Reachable.empty.play _ (by decide +kernel)).play _ (by decide +kernel), ?_⟩
  decide +kernel

end History

end Trutina
