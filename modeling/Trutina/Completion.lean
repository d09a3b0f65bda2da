/-
This file proves that calls return. In a sound state, alone and without a
failure, the chart is read when every name has two characters and no two names
share a lookup key; an entry whose lines are money on names that the chart
resolves is created, is posted from there, and has a row for every line in a
report that covers its date.
-/

import Trutina.Atomicity
import Trutina.Books
import Trutina.ErrorContract
import Trutina.Identity
import Trutina.Numbering

namespace Trutina

open Interaction

/-! ### Rows hold accounts -/

/-- The row holds the values of an account. -/
structure AccountModel.Holds (row : AccountModel) (account : Account) : Prop where
  code : row.code = account.code
  name : row.name = account.name
  category : row.category = account.category

/-- Every row holds the values of some account. -/
structure World.Enrolled (world : World) : Prop where
  held : ∀ row ∈ world.accounts, ∃ account, row.Holds account

theorem empty_enrolled : World.empty.Enrolled where
  held _ member := by cases member

/-- A row that holds an account is rebuilt exactly when its name has two characters. -/
theorem AccountModel.Holds.rebuilt_iff {row : AccountModel} {account rebuilt : Account}
    (holds : row.Holds account) :
    PostgresAccountRepo.toDomain row = .ok rebuilt ↔
      rebuilt = account ∧ 2 ≤ row.name.length := by
  rw [PostgresAccountRepo.toDomain, holds.code, holds.name, holds.category]
  constructor
  · intro built
    obtain ⟨_, ⟨_, long, _⟩, _⟩ := Account.validate_eq_ok_iff.mp built
    rw [Account.validate_self account long] at built
    exact ⟨(Except.ok.inj built).symm, long⟩
  · rintro ⟨rfl, long⟩
    exact Account.validate_self rebuilt long

theorem World.Enrolled.congr {world after : World} (enrolled : world.Enrolled)
    (accounts : after.accounts = world.accounts) : after.Enrolled where
  held := accounts ▸ enrolled.held

/-- An update mixes the values of two accounts of one code. -/
theorem AccountModel.Holds.overwrite {loaded row : AccountModel} {account : Account}
    (holds : row.Holds account) (updated : Account) :
    ∃ mixed, (loaded.overwrite updated.name (accountLookupKey updated.name) updated.category
      row).Holds mixed := by
  have mixes : ∀ category, ∃ mixed : Account, mixed.category = category ∧
      mixed.code = account.code ∧
      mixed.name = if updated.name = loaded.name then account.name else updated.name := by
    intro category
    split
    · exact ⟨{ account with category }, rfl, rfl, rfl⟩
    · exact ⟨⟨account.code, updated.name, category, account.code_format, updated.name_clean,
        updated.name_length⟩, rfl, rfl, rfl⟩
  obtain ⟨mixed, category, code, name⟩ := mixes (if updated.category = loaded.category then
    row.category else updated.category)
  refine ⟨mixed, holds.code.trans code.symm, ?_, category.symm⟩
  rw [name, ← holds.name]
  rfl

/-- The writes of a call store values of accounts. -/
theorem handle_enrolled {world : World} (enrolled : world.Enrolled) {call : Call}
    {command : Command} (issuable : call.Issuable command) (env : Env) :
    (handle command env world).2.Enrolled := by
  cases command with
  | query query =>
    rw [handle_query_state]
    exact enrolled
  | nextval => cases failed : env.fault <;> simp only [handle, failed] <;> exact enrolled.congr rfl
  | emit record => exact enrolled.congr rfl
  | transact transaction =>
    rcases handle_transact_cases transaction env world with still | ⟨after, applied, same⟩
    · rw [still]
      exact enrolled
    rw [same]
    cases issuable with
    | insertAccount account =>
      obtain ⟨_, _, rfl⟩ := insertAccount_ok applied
      refine ⟨fun row member => ?_⟩
      rcases List.mem_append.mp member with stored | new
      · exact enrolled.held row stored
      · obtain rfl := List.mem_singleton.mp new
        exact ⟨account, rfl, rfl, rfl⟩
    | updateAccount account =>
      rcases updateAccount_ok applied with ⟨_, rfl⟩ | ⟨_, _, rfl⟩
      · exact enrolled.congr rfl
      · refine ⟨fun row member => ?_⟩
        obtain ⟨before, stored, rfl⟩ := List.mem_map.mp member
        obtain ⟨held, holds⟩ := enrolled.held before stored
        split
        · exact holds.overwrite account
        · exact ⟨held, holds⟩
    | deleteAccount =>
      rw [deleteAccount_ok applied]
      exact ⟨fun row member => enrolled.held row (List.mem_of_mem_filter member)⟩
    | insertJournal entry =>
      obtain ⟨_, _, _, _, rfl⟩ := insertJournal_ok applied
      exact enrolled.congr rfl
    | insertPostings postings =>
      obtain ⟨_, rfl⟩ := insertPostings_appends applied
      exact enrolled.congr rfl

/-! ### Reading the chart -/

/-- Every stored name has two characters, and no two names share a lookup key. -/
structure World.Charted (world : World) : Prop where
  long : ∀ row ∈ world.accounts, 2 ≤ row.name.length
  apart : (world.accounts.map fun row => accountLookupKey row.name).Nodup

section Chart

variable {world : World} {envs : Nat → Env}

theorem getChart_run (calm : (envs 0).fault = none) :
    (AccountService.getChart.run handle envs world).1 =
      (fromRows PostgresAccountRepo.toDomain ((envs 0).arrangeAccounts world.accounts)).bind
        ChartOfAccounts.validate := by
  simp only [AccountService.getChart, PostgresAccountRepo.listAll, bind_assoc]
  rw [run_execute_bind calm, Query.rows]
  cases fromRows PostgresAccountRepo.toDomain ((envs 0).arrangeAccounts world.accounts) <;> rfl

/-- A chart that is read has the accounts rebuilt from the rows. -/
theorem getChart_rebuilds (calm : (envs 0).fault = none) {chart : ChartOfAccounts}
    (read : (AccountService.getChart.run handle envs world).1 = .ok chart) :
    fromRows PostgresAccountRepo.toDomain ((envs 0).arrangeAccounts world.accounts) =
      .ok chart.accounts := by
  rw [getChart_run calm] at read
  cases rebuilt : fromRows PostgresAccountRepo.toDomain
      ((envs 0).arrangeAccounts world.accounts) with
  | error error =>
    rw [rebuilt] at read
    cases read
  | ok accounts =>
    rw [rebuilt] at read
    rw [ChartOfAccounts.validate_eq_ok_iff.mp read]

/-- Rebuilt rows keep their codes and their names. -/
theorem World.Enrolled.rebuilt (enrolled : world.Enrolled) {rows : List AccountModel}
    (arranged : rows.Perm world.accounts) {accounts : List Account}
    (rebuilt : fromRows PostgresAccountRepo.toDomain rows = .ok accounts) :
    accounts.map Account.code = rows.map AccountModel.code ∧
      accounts.map Account.name = rows.map AccountModel.name := by
  have same : ∀ row ∈ rows, ∀ account, PostgresAccountRepo.toDomain row = .ok account →
      account.code = row.code ∧ account.name = row.name := by
    intro row member account converted
    obtain ⟨held, holds⟩ := enrolled.held row (arranged.mem_iff.mp member)
    obtain ⟨rfl, _⟩ := holds.rebuilt_iff.mp converted
    exact ⟨holds.code.symm, holds.name.symm⟩
  have pairs := fromRows_eq_ok_iff.mp rebuilt
  exact ⟨pairs.map_eq fun row member account converted =>
      (same row member account converted).1,
    pairs.map_eq fun row member account converted =>
      (same row member account converted).2⟩

/-- The chart is read exactly when it is charted. -/
theorem getChart_reads_iff (enrolled : world.Enrolled) (identified : world.Identified)
    (calm : (envs 0).fault = none) :
    (∃ chart, (AccountService.getChart.run handle envs world).1 = .ok chart) ↔ world.Charted := by
  have arranged := (envs 0).arrangeAccounts_perm world.accounts
  rw [getChart_run calm]
  cases rebuilt : fromRows PostgresAccountRepo.toDomain
      ((envs 0).arrangeAccounts world.accounts) with
  | error error =>
    refine iff_of_false (fun reads => ?_) fun charted => ?_
    · obtain ⟨chart, other⟩ := reads
      cases other
    · have each : ∀ row ∈ (envs 0).arrangeAccounts world.accounts,
          ∃ account, PostgresAccountRepo.toDomain row = .ok account := fun row member => by
        have stored := arranged.mem_iff.mp member
        obtain ⟨account, holds⟩ := enrolled.held row stored
        exact ⟨account, holds.rebuilt_iff.mpr ⟨rfl, charted.long row stored⟩⟩
      obtain ⟨accounts, other⟩ := fromRows_total each
      cases rebuilt.symm.trans other
  | ok accounts =>
    obtain ⟨codes, names⟩ := enrolled.rebuilt arranged rebuilt
    have keys : (accounts.map fun account => accountLookupKey account.name) =
        ((envs 0).arrangeAccounts world.accounts).map fun row => accountLookupKey row.name := by
      have mapped := congrArg (List.map accountLookupKey) names
      rwa [List.map_map, List.map_map] at mapped
    have distinct : (accounts.map Account.code).Nodup :=
      codes ▸ (arranged.map AccountModel.code).nodup_iff.mpr identified.codes
    refine (ChartOfAccounts.validate_ok_iff.trans (and_iff_right distinct)).trans ?_
    rw [keys, (arranged.map _).nodup_iff]
    refine ⟨fun apart => ⟨fun row member => ?_, apart⟩, World.Charted.apart⟩
    obtain ⟨account, holds⟩ := enrolled.held row member
    obtain ⟨value, _, converted⟩ := mem_of_fromRows rebuilt (arranged.mem_iff.mpr member)
    exact (holds.rebuilt_iff.mp converted).2

/-- A chart that is read resolves every stored name. -/
theorem getChart_resolves (enrolled : world.Enrolled) (calm : (envs 0).fault = none)
    {chart : ChartOfAccounts}
    (read : (AccountService.getChart.run handle envs world).1 = .ok chart) {row : AccountModel}
    (member : row ∈ world.accounts) : ∃ account, chart.getByName row.name = some account := by
  have arranged := (envs 0).arrangeAccounts_perm world.accounts
  obtain ⟨account, listed, converted⟩ :=
    mem_of_fromRows (getChart_rebuilds calm read) (arranged.mem_iff.mpr member)
  obtain ⟨held, holds⟩ := enrolled.held row member
  obtain ⟨rfl, _⟩ := holds.rebuilt_iff.mp converted
  exact ⟨account, ChartOfAccounts.getByName_eq_some_iff.mpr ⟨listed, by rw [holds.name]⟩⟩

end Chart

/-! ### Storing an entry -/

section Storing

variable {env : Env} {world : World}

/-- A line is stored when it has one side and its place is free. -/
theorem insertLine_accepted {line : JournalLineModel Money}
    (sided : exactlyOneSide line.debitAmount line.creditAmount = true)
    (free : ∀ other ∈ world.journalLines, other.journalNumber = line.journalNumber →
      other.lineIndex ≠ line.lineIndex) :
    insertLine world line = .ok { world with journalLines := world.journalLines ++ [line] } := by
  have unused : ¬(world.journalLines.any fun other =>
      other.journalNumber == line.journalNumber && other.lineIndex == line.lineIndex) = true := by
    rw [List.any_eq_true]
    rintro ⟨other, member, same⟩
    rw [Bool.and_eq_true, beq_iff_eq, beq_iff_eq] at same
    exact free other member same.1 same.2
  rw [insertLine, sided, if_neg Bool.noConfusion, if_neg unused]

/-- The places of the lines that follow are free after a line is stored. -/
theorem free_after {line : JournalLineModel Money} {rest : List (JournalLineModel Money)}
    (free : ∀ later ∈ line :: rest, ∀ other ∈ world.journalLines,
      other.journalNumber = later.journalNumber → other.lineIndex ≠ later.lineIndex)
    (distinct : ((line :: rest).map JournalLineModel.lineIndex).Nodup) :
    ∀ later ∈ rest, ∀ other ∈ world.journalLines ++ [line],
      other.journalNumber = later.journalNumber → other.lineIndex ≠ later.lineIndex := by
  intro later member other present number
  rcases List.mem_append.mp present with before | new
  · exact free later (List.mem_cons_of_mem _ member) other before number
  · obtain rfl := List.mem_singleton.mp new
    rw [List.map_cons, List.nodup_cons] at distinct
    exact fun same => distinct.1 (same ▸ List.mem_map_of_mem member)

/-- Lines with one side each are stored under free places. -/
theorem insertLines_accepted {lines : List (JournalLineModel Money)}
    (sided : ∀ line ∈ lines, exactlyOneSide line.debitAmount line.creditAmount = true)
    (free : ∀ line ∈ lines, ∀ other ∈ world.journalLines,
      other.journalNumber = line.journalNumber → other.lineIndex ≠ line.lineIndex)
    (distinct : (lines.map JournalLineModel.lineIndex).Nodup) :
    lines.foldlM insertLine world =
      .ok { world with journalLines := world.journalLines ++ lines } := by
  induction lines generalizing world with
  | nil =>
    rw [List.append_nil]
    rfl
  | cons line rest inductionHypothesis =>
    rw [List.foldlM_cons, insertLine_accepted (sided line List.mem_cons_self)
      (free line List.mem_cons_self)]
    refine (inductionHypothesis (fun other member => sided other (List.mem_cons_of_mem _ member))
      (free_after free distinct) (List.nodup_cons.mp distinct).2).trans ?_
    rw [List.append_assoc, List.singleton_append]

/-- Rows whose lines can each be stored are inserted under free places. -/
theorem insertRows_accepted {rows : List (JournalLineModel Decimal)}
    (each : ∀ row ∈ rows, ∃ stored, StoredAs row stored)
    (free : ∀ row ∈ rows, ∀ other ∈ world.journalLines,
      other.journalNumber = row.journalNumber → other.lineIndex ≠ row.lineIndex)
    (distinct : (rows.map JournalLineModel.lineIndex).Nodup) :
    ∃ after, insertRows coerceLine insertLine world rows = .ok after := by
  obtain ⟨stored, pairs⟩ := List.Forall₂.exists_of_forall each
  have coerced : rows.mapM coerceLine = .ok stored :=
    List.mapM_eq_ok_iff.mpr (pairs.imp fun _ _ storedAs => (storedAs_iff.mp storedAs).1)
  rw [insertRows_of_coerced coerced]
  refine ⟨_, insertLines_accepted (fun line member => ?_) (fun line member => ?_) ?_⟩
  · obtain ⟨row, _, storedAs⟩ := pairs.exists_left member
    exact storedAs.side
  · obtain ⟨row, sent, storedAs⟩ := pairs.exists_left member
    rw [storedAs.number, storedAs.index]
    exact free row sent
  · rwa [pairs.map_eq fun _ _ _ storedAs => storedAs.index]

/-- An entry is stored under a number that no entry and no line has. -/
theorem insertJournal_accepted {entry : JournalEntry} {actor : String} (sound : world.Sound)
    (fresh : ∀ header ∈ world.journalEntries, header.journalNumber ≠ entry.journalNumber)
    (past : entry.postingDate ≤ env.dbNow)
    (each : ∀ line ∈ PostgresJournalRepo.lineRows entry.journalNumber entry.lines,
      ∃ stored, StoredAs line stored) :
    ∃ after, (Transaction.insertJournal (headerOf entry actor)
      (PostgresJournalRepo.lineRows entry.journalNumber entry.lines)).apply env world =
        .ok after := by
  have unused : ¬(world.journalEntries.any fun stored =>
      stored.journalNumber == (headerOf entry actor).journalNumber) = true := by
    rw [List.any_eq_true]
    rintro ⟨header, member, same⟩
    exact fresh header member (beq_iff_eq.mp same)
  have dated : ¬postingDateInRange env.dbNow (headerOf entry actor).postingDate = false := by
    rw [Bool.not_eq_false, postingDateInRange, Bool.and_eq_true, decide_eq_true_eq,
      decide_eq_true_eq]
    exact ⟨entry.date_after, past⟩
  rw [Transaction.apply, if_neg unused, if_neg dated]
  refine insertRows_accepted each (fun line member other present number => ?_) ?_
  · obtain ⟨header, stored, same⟩ := sound.owned other present
    rw [(mem_lineRows member).1, ← same] at number
    exact absurd number (fresh header stored)
  · rw [lineRows_index]
    exact List.nodup_range

end Storing

/-! ### Creating an entry -/

section Services

variable {envs : Nat → Env} {world : World} {Result : Type}

/-- A write transaction that commits. -/
theorem run_commitOr_bind {transaction : Transaction} {onViolation : Option String → Raised}
    {continuation : Unit → Action Result} {after : World} (calm : (envs 0).fault = none)
    (applied : transaction.apply (envs 0) world = .ok after) :
    (commitOr onViolation transaction >>= continuation).run handle envs world =
      (continuation ()).run handle (fun step => envs (step + 1)) after := by
  rw [commitOr_eq]
  simp only [Program.ask_bind, Program.run, handle, calm, applied]
  rfl

/-- An entry that can be built and stored is created. -/
theorem createJournalEntry_returns {input : CreateJournalInput} {actor : String}
    {chart : ChartOfAccounts} {entry : JournalEntry} {stored : World}
    (calm : ∀ step, (envs step).fault = none) (named : isNonBlankActor actor = true)
    (read : (AccountService.getChart.run handle envs world).1 = .ok chart)
    (resolved : JournalService.resolveLines chart input.lines = .ok ())
    (built : JournalService.buildEntry (envs 1).now world.nextJournalNumber input = .ok entry)
    (applied : (Transaction.insertJournal (headerOf entry actor)
      (PostgresJournalRepo.lineRows entry.journalNumber entry.lines)).apply (envs 2) world.drawn =
        .ok stored) :
    ∃ view after, (JournalService.createJournalEntry input actor).run handle envs world =
        (.ok view, after) ∧ view.journalNumber = entry.journalNumber ∧ stored.SameTables after := by
  obtain ⟨view, viewed, number, _⟩ := toEntryView_eq_ok entry
  refine ⟨view, { stored with log := stored.log ++ [⟨"journal.created",
    [("journal_number", .number entry.journalNumber),
      ("line_count", .number entry.lines.length)]⟩] }, ?_, number, rfl, rfl, rfl, rfl, rfl⟩
  unfold JournalService.createJournalEntry JournalService.validateAccounts
  have translated : translating
      (JournalService.buildEntry (envs 1).now world.nextJournalNumber input) = .ok entry := by
    rw [built]
    rfl
  rw [run_lift_bind_ok (requireActor_ok named), bind_assoc, run_getChart_bind, read]
  simp only
  rw [run_lift_bind_ok resolved, run_nextJournalNumber_bind, calm 1]
  simp only
  rw [run_lift_bind_ok translated]
  refine (run_commitOr_bind (calm 2) applied).trans ?_
  rw [viewed]
  rfl

/-- A stored entry is loaded by two queries. -/
theorem run_getByNumber_bind (sound : world.Sound) {header : JournalEntryModel}
    (stored : header ∈ world.journalEntries) (calm : ∀ step, (envs step).fault = none)
    {entry : JournalEntry} (rebuilt : PostgresJournalRepo.toDomain (envs 1).now header
      (world.linesOf header.journalNumber) = .ok entry)
    {continuation : Option JournalEntry → Action Result} :
    (PostgresJournalRepo.getByNumber header.journalNumber >>= continuation).run handle envs world =
      (continuation (some entry)).run handle (fun step => envs (step + 2)) world := by
  simp only [PostgresJournalRepo.getByNumber, bind_assoc]
  rw [run_execute_bind (calm 0), journalEntriesByNumber_rows sound stored]
  refine (run_lift_bind_ok rfl).trans ?_
  simp only [bind_assoc]
  rw [run_execute_bind (calm 1), journalLinesByNumber_rows sound]
  exact run_lift_bind_ok rebuilt

/-- Every line of a rebuilt entry makes a posting. -/
theorem derivePostings_of_lines {now : Timestamp} {entry : JournalEntry} {view : JournalViewModel}
    {stored : List (JournalLineModel Money)} (past : entry.postingDate ≤ now)
    (rebuilt : fromRows PostgresJournalRepo.lineToDomain stored = .ok entry.lines)
    (number : view.journalNumber = entry.journalNumber)
    (date : view.postingDate = entry.postingDate) (lines : view.lines = stored.map storedView) :
    ∃ postings, PostingService.derivePostings now view = .ok postings := by
  unfold PostingService.derivePostings
  refine fromRows_total fun line member => ?_
  rw [lines] at member
  obtain ⟨row, listed, rfl⟩ := List.mem_map.mp member
  obtain ⟨value, _, converted⟩ := mem_of_fromRows rebuilt listed
  rw [number, date]
  exact LedgerPosting.of_line converted entry past

/-- A stored entry that is rebuilt and not posted is posted, line by line. -/
theorem postJournalEntry_returns (sound : world.Sound) {header : JournalEntryModel}
    (stored : header ∈ world.journalEntries) {entry : JournalEntry}
    (rebuilt : PostgresJournalRepo.toDomain (envs 1).now header
      (world.linesOf header.journalNumber) = .ok entry)
    (unposted : world.postingsOf header.journalNumber = [])
    (calm : ∀ step, (envs step).fault = none)
    (past : ∀ step, header.postingDate ≤ (envs step).now ∧ header.postingDate ≤ (envs step).dbNow)
    {actor : String} (named : isNonBlankActor actor = true) :
    ∃ views after, (PostingService.postJournalEntry header.journalNumber actor).run handle envs
        world = (.ok views, after) ∧ after.Sound ∧
      after.postingsOf header.journalNumber =
        (world.linesOf header.journalNumber).map (postingOf header (some actor)) := by
  have clean : ∀ line ∈ world.linesOf header.journalNumber,
      cleanAccountName line.account = some line.account :=
    fun line member => sound.clean line (mem_linesOf.mp member).1
  obtain ⟨view, viewed, number, date, lines⟩ := view_of_toDomain clean rebuilt
  obtain ⟨rebuiltLines, entryNumber, entryDate, _⟩ := toDomain_eq_ok_iff.mp rebuilt
  obtain ⟨postings, derived⟩ := derivePostings_of_lines
    ((le_of_eq entryDate).trans (past 2).1) rebuiltLines (number.trans entryNumber.symm)
    (date.trans entryDate.symm) lines
  have rows : PostgresPostingRepo.postingRows postings actor = _ :=
    postingRows_eq clean (fun line member => (mem_linesOf.mp member).2)
      (sound.indexes header.journalNumber) number date lines derived
  obtain ⟨after, applied⟩ := insertPostings_unposted sound stored (some actor) unposted (past 3).2
  obtain ⟨soundAfter, _, _, batch⟩ :=
    insertPostings_sound sound stored ⟨_, _, rebuilt⟩ applied
  rw [← rows] at applied
  refine ⟨postings.map PostingService.toViewModel, { after with
    log := after.log ++ [⟨"posting.created", [("journal_number", .number header.journalNumber),
      ("line_count", .number postings.length)]⟩] }, ?_, soundAfter.congr rfl rfl rfl, batch⟩
  have none : fromRows (PostgresPostingRepo.toDomain (envs 2).now)
      (Query.rows (envs 2) world (.postingsByNumber header.journalNumber)) = .ok [] := by
    rw [postingsByNumber_rows sound, unposted]
    rfl
  unfold PostingService.postJournalEntry JournalService.getJournalEntry
  rw [run_lift_bind_ok (requireActor_ok named)]
  simp only [bind_assoc]
  rw [run_getByNumber_bind sound stored calm rebuilt,
    run_lift_bind_ok (orRaise_eq_ok_iff.mpr rfl)]
  have computed : JournalService.computing (toEntryView entry) = .ok view := by
    rw [viewed]
    rfl
  rw [run_lift_bind_ok computed]
  simp only [PostgresPostingRepo.getByJournalNumber, bind_assoc]
  rw [run_execute_bind (calm 2), run_lift_bind_ok none]
  simp only [pure_bind]
  refine (run_lift_bind_ok rfl).trans ?_
  rw [run_lift_bind_ok derived]
  exact run_commitOr_bind (calm 3) applied

/-- A report has a row for the account of every posting it covers. -/
theorem getTrialBalance_shows (sound : world.Sound) (calm : (envs 0).fault = none)
    (asOfDate : Option Timestamp) :
    ∃ report, ((TrialBalanceService.getTrialBalance asOfDate).run handle envs world).1 =
        .ok report ∧
      ∀ posting ∈ world.postingsInScope asOfDate, ∃ row ∈ report.entries,
        accountLookupKey row.account = accountLookupKey posting.account := by
  obtain ⟨entries, rebuilt⟩ := reportRows_rebuilt sound asOfDate (envs 0)
  have returned := getTrialBalance_run calm rebuilt
  refine ⟨_, returned, fun posting covered => ?_⟩
  have keyed : ∀ other ∈ world.postingsInScope asOfDate,
      other.accountKey = accountLookupKey other.account ∧
        cleanAccountName other.account = some other.account :=
    fun other member => sound.posting_keyed (List.mem_of_mem_filter member)
  obtain ⟨groups, arranged, rows⟩ := History.getTrialBalance_groups returned
  have grouped : (world.postingsInScope asOfDate).filter
      (fun other => other.accountKey = posting.accountKey) ∈ groups := by
    refine arranged.mem_iff.mpr (List.mem_map.mpr ⟨posting.accountKey, ?_, rfl⟩)
    exact List.mem_dedup.mpr (List.mem_map_of_mem covered)
  obtain ⟨row, listed, converted⟩ := rows.exists_right grouped
  obtain ⟨least, member, account⟩ := minAccount_mem (envs 0).collate
    (List.ne_nil_of_mem (List.mem_filter.mpr ⟨covered, by simp⟩) :
      (world.postingsInScope asOfDate).filter
        (fun other => other.accountKey = posting.accountKey) ≠ [])
  obtain ⟨inScope, sameKey⟩ := List.mem_filter.mp member
  obtain ⟨⟨clean, _⟩, _⟩ := AccountBalanceEntry.validate_eq_ok_iff.mp converted
  rw [balanceRow, account, (keyed least inScope).2, Option.some.injEq] at clean
  refine ⟨row, listed, ?_⟩
  rw [← clean, ← (keyed least inScope).1, ← (keyed posting covered).1]
  exact of_decide_eq_true sameKey

end Services

/-! ### Entries in money -/

/-- The amounts of a line are money, on exactly one side. -/
structure JournalLineInput.Worth (line : JournalLineInput) (debit credit : Money) : Prop where
  debitValue : line.debitAmount.toRat = debit.toDecimal.toRat
  creditValue : line.creditAmount.toRat = credit.toDecimal.toRat
  side : exactlyOneSide debit credit = true

theorem coerceAmount_of_value {amount : Decimal} {money : Money}
    (value : amount.toRat = money.toDecimal.toRat) : coerceAmount amount = .ok money := by
  have cents : Decimal.roundHalfUp 2 amount = money.cents := Decimal.roundHalfUp_of_value value
  have bounded : (Decimal.roundHalfUp 2 amount).natAbs < 10 ^ 18 := cents ▸ money.bounded
  have exact : Money.ofDecimal amount = some money := by
    obtain ⟨stored, fits⟩ := money
    obtain rfl := cents
    exact dif_pos bounded
  rw [coerceAmount, exact]

theorem positive_of_value {amount : Decimal} {money : Money}
    (value : amount.toRat = money.toDecimal.toRat) :
    0 < amount.coefficient ↔ 0 < money.cents := by
  have sign : ∀ number : Decimal, 0 < number.coefficient ↔ 0 < number.toRat := fun number => by
    rw [Decimal.toRat, mul_pos_iff_of_pos_right (zpow_pos (by norm_num) _), Int.cast_pos]
  rw [sign, value, ← sign]
  rfl

namespace JournalLineInput.Worth

variable {line : JournalLineInput} {debit credit : Money}

theorem storedAs (worth : line.Worth debit credit) {number : Int} {index : Nat} :
    StoredAs ⟨number, index, line.account, line.debitAmount, line.creditAmount⟩
      ⟨number, index, line.account, debit, credit⟩ where
  debit := coerceAmount_of_value worth.debitValue
  credit := coerceAmount_of_value worth.creditValue
  side := worth.side
  number := rfl
  index := rfl
  account := rfl

theorem one_side (worth : line.Worth debit credit) :
    isValidLineAmounts line.debitAmount line.creditAmount = true := by
  have side := isValidLineAmounts_stored worth.side
  rw [isValidLineAmounts] at side ⊢
  rw [decide_eq_decide.mpr (positive_of_value worth.debitValue),
    decide_eq_decide.mpr (positive_of_value worth.creditValue)]
  exact side

theorem places (worth : line.Worth debit credit) :
    line.debitAmount.HasPlaces 2 ∧ line.creditAmount.HasPlaces 2 :=
  ⟨⟨debit.cents, worth.debitValue⟩, ⟨credit.cents, worth.creditValue⟩⟩

end JournalLineInput.Worth

/-- The line of an entry carries what the line of the input says. -/
structure BuiltAs (line : JournalLineInput) (built : JournalLine) : Prop where
  account : built.account = line.account
  debit : built.debitAmount = line.debitAmount
  credit : built.creditAmount = line.creditAmount

section Works

variable {input : CreateJournalInput} {date : Timestamp}

/-- Lines in money, on clean names, make an entry when their columns agree. -/
theorem buildEntry_of_worth {now : Timestamp} {number : Int} (positive : 0 < number)
    (dated : input.postingDate = ⟨date, none⟩) (range : earliestPosting < date ∧ date ≤ now)
    (clean : ∀ line ∈ input.lines, cleanAccountName line.account = some line.account)
    (worth : ∀ line ∈ input.lines, ∃ debit credit, line.Worth debit credit)
    (balanced : sumsAgree (input.lines.map JournalLineInput.debitAmount)
      (input.lines.map JournalLineInput.creditAmount) = .ok true) :
    ∃ entry, JournalService.buildEntry now number input = .ok entry ∧
      entry.journalNumber = number ∧ entry.postingDate = date ∧
      List.Forall₂ BuiltAs input.lines entry.lines := by
  have accepted : ∀ line ∈ input.lines, line.Accepted := by
    intro line member
    obtain ⟨debit, credit, worthLine⟩ := worth line member
    exact ⟨by rw [clean line member]; rfl, worthLine.one_side⟩
  obtain ⟨built, validated, debits, credits, length⟩ := buildLines_of_accepted accepted
  rw [← debits, ← credits] at balanced
  obtain ⟨entry, made⟩ := (JournalEntry.validate_iff_sums positive range
    (length ▸ input.two_lines) input.description_length).mpr balanced
  obtain ⟨entryNumber, ⟨entryDate, _⟩, entryLines, _⟩ := JournalEntry.validate_eq_ok_iff.mp made
  refine ⟨entry, buildEntry_eq_ok_iff.mpr ⟨built, validated, dated ▸ made⟩, entryNumber,
    (DateTime.mk.inj entryDate).1.symm, ?_⟩
  rw [entryLines]
  refine ((List.forall₂_and_left _ _).mpr ⟨clean, fromRows_eq_ok_iff.mp validated⟩).imp ?_
  rintro line value ⟨cleanLine, converted⟩
  obtain ⟨⟨account, _⟩, debit, credit⟩ := JournalLine.validate_eq_ok_iff.mp converted
  exact ⟨Option.some.inj (account.symm.trans cleanLine), debit, credit⟩

/-- The rows of such an entry meet the constraints, and it is read back. -/
theorem storable_of_worth {entry : JournalEntry}
    (worth : ∀ line ∈ input.lines, ∃ debit credit, line.Worth debit credit)
    (built : List.Forall₂ BuiltAs input.lines entry.lines) :
    (∀ row ∈ PostgresJournalRepo.lineRows entry.journalNumber entry.lines,
      ∃ stored, StoredAs row stored) ∧ ∀ line ∈ entry.lines, line.Storable := by
  constructor
  · intro row member
    obtain ⟨index, bound, rfl⟩ := List.mem_mapIdx.mp member
    obtain ⟨line, listed, same⟩ := built.exists_left (List.getElem_mem bound)
    obtain ⟨debit, credit, worthLine⟩ := worth line listed
    refine ⟨⟨entry.journalNumber, index, line.account, debit, credit⟩, ?_⟩
    rw [same.account, same.debit, same.credit]
    exact worthLine.storedAs
  · intro line member
    obtain ⟨source, listed, same⟩ := built.exists_left member
    obtain ⟨debit, credit, worthLine⟩ := worth source listed
    rw [JournalLine.Storable, same.account, same.debit, same.credit]
    exact ⟨source.account_length.1, worthLine.places⟩

/-- Uneventful conditions, at times from a date on. -/
structure Uneventful (date : Timestamp) (envs : Nat → Env) : Prop where
  calm : ∀ step, (envs step).fault = none
  past : ∀ step, date ≤ (envs step).now ∧ date ≤ (envs step).dbNow

/-- A number that no entry has has no postings. -/
theorem World.Sound.unposted {world : World} (sound : world.Sound) {number : Int}
    (fresh : ∀ header ∈ world.journalEntries, header.journalNumber ≠ number) :
    world.postingsOf number = [] := by
  rcases sound.whole number with none | ⟨header, own, posted⟩
  · exact none
  · exact absurd own (fresh header posted.stored)

/-- An entry that was just created: it is stored, can be rebuilt, is not posted, and has a line for
every line of its input. -/
structure World.Created (created : World) (input : CreateJournalInput)
    (header : JournalEntryModel) : Prop where
  sound : created.Sound
  stored : header ∈ created.journalEntries
  rebuilt : ∀ now, header.postingDate ≤ now → ∃ entry, PostgresJournalRepo.toDomain now header
    (created.linesOf header.journalNumber) = .ok entry
  unposted : created.postingsOf header.journalNumber = []
  lines : ∀ line ∈ input.lines, ∃ row ∈ created.linesOf header.journalNumber,
    row.account = line.account

section Input

variable {world : World} (dated : input.postingDate = ⟨date, none⟩)
  (clean : ∀ line ∈ input.lines, cleanAccountName line.account = some line.account)
  (worth : ∀ line ∈ input.lines, ∃ debit credit, line.Worth debit credit)
  (balanced : sumsAgree (input.lines.map JournalLineInput.debitAmount)
    (input.lines.map JournalLineInput.creditAmount) = .ok true)

include dated clean worth balanced

/-- An input of lines in money, on clean names that the chart resolves, is stored. -/
theorem input_created (sound : world.Sound) (numbered : world.Numbered)
    (early : earliestPosting < date) {envs : Nat → Env} (uneventful : Uneventful date envs)
    {actor : String} (named : isNonBlankActor actor = true) {chart : ChartOfAccounts}
    (read : (AccountService.getChart.run handle envs world).1 = .ok chart)
    (resolved : ∀ line ∈ input.lines, ∃ account, chart.getByName line.account = some account) :
    ∃ view created header, (JournalService.createJournalEntry input actor).run handle envs world =
        (.ok view, created) ∧ view.journalNumber = header.journalNumber ∧
      header.postingDate = date ∧ created.Created input header := by
  obtain ⟨entry, made, number, rfl, built⟩ := buildEntry_of_worth numbered.positive dated
    ⟨early, (uneventful.past 1).1⟩ clean worth balanced
  obtain ⟨rows, storable⟩ := storable_of_worth worth built
  have soundDrawn : world.drawn.Sound := sound.congr rfl rfl rfl
  have fresh : ∀ header ∈ world.drawn.journalEntries,
      header.journalNumber ≠ entry.journalNumber := fun header member same =>
    absurd (numbered.below header member) (not_lt.mpr (le_of_eq (same.trans number).symm))
  obtain ⟨stored, applied⟩ := @insertJournal_accepted (envs 2) _ entry actor soundDrawn fresh
    (uneventful.past 2).2 rows
  obtain ⟨view, created, returned, viewNumber, same⟩ := createJournalEntry_returns
    uneventful.calm named read (resolveLines_eq_ok_iff.mpr resolved) made applied
  obtain ⟨soundStored, _, present, storedLines⟩ := insertJournal_sound soundDrawn applied
  obtain ⟨_, _, _, _, storedEq⟩ := insertJournal_ok applied
  have linesSame : created.linesOf entry.journalNumber = stored.linesOf entry.journalNumber := by
    rw [World.linesOf, same.lines]
    rfl
  refine ⟨view, created, headerOf entry actor, returned, viewNumber, rfl,
    soundStored.congr same.entries same.lines same.postings, same.entries ▸ present, ?_, ?_, ?_⟩
  · intro now past
    rw [headerOf_journalNumber, linesSame]
    obtain ⟨found, rebuilt, _⟩ := (readBack_iff actor storedLines.kept past).mpr storable
    exact ⟨found, rebuilt⟩
  · have none := soundDrawn.unposted fresh
    rwa [World.postingsOf, same.postings, storedEq]
  · intro line member
    obtain ⟨value, inEntry, builtAs⟩ := built.exists_right member
    obtain ⟨row, inStored, kept⟩ := storedLines.kept.exists_right inEntry
    rw [headerOf_journalNumber, linesSame]
    exact ⟨row, inStored, kept.account.trans builtAs.account⟩

end Input

/-- A created entry is posted, and a report that covers its date has a row for every line. -/
theorem World.Created.posted {created : World} {header : JournalEntryModel}
    (entry : created.Created input header) {envs reportEnvs : Nat → Env}
    (posting : Uneventful header.postingDate envs)
    (reporting : Uneventful header.postingDate reportEnvs) {actor : String}
    (named : isNonBlankActor actor = true) {asOfDate : Option Timestamp}
    (covered : ∀ cutoff ∈ asOfDate, header.postingDate ≤ cutoff) :
    ∃ views posted report,
      (PostingService.postJournalEntry header.journalNumber actor).run handle envs created =
        (.ok views, posted) ∧
      ((TrialBalanceService.getTrialBalance asOfDate).run handle reportEnvs posted).1 =
        .ok report ∧
      ∀ line ∈ input.lines, ∃ row ∈ report.entries,
        accountLookupKey row.account = accountLookupKey line.account := by
  obtain ⟨found, rebuilt⟩ := entry.rebuilt _ (posting.past 1).1
  obtain ⟨views, posted, returned, sound, batch⟩ := postJournalEntry_returns entry.sound
    entry.stored rebuilt entry.unposted posting.calm posting.past named
  obtain ⟨report, reported, shows⟩ := getTrialBalance_shows sound (reporting.calm 0) asOfDate
  refine ⟨views, posted, report, returned, reported, fun line member => ?_⟩
  obtain ⟨row, listed, account⟩ := entry.lines line member
  have inBatch : postingOf header (some actor) row ∈ posted.postingsOf header.journalNumber :=
    batch ▸ List.mem_map_of_mem listed
  have inScope : postingOf header (some actor) row ∈ posted.postingsInScope asOfDate := by
    refine List.mem_filter.mpr ⟨(mem_postingsOf.mp inBatch).1, ?_⟩
    rw [Option.all_eq_true]
    exact fun cutoff chosen => decide_eq_true (covered cutoff chosen)
  obtain ⟨shown, inReport, key⟩ := shows _ inScope
  exact ⟨shown, inReport, key.trans (congrArg accountLookupKey account)⟩

end Works

end Trutina
