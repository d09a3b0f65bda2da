/-
This file proves that a trial balance partitions the postings it covers. There is
one row for each lookup key with a posting up to the cutoff, its totals sum up
the postings of that key, and the totals of the report sum up all of them. A
later cutoff keeps every row and lowers no total.
-/

import Trutina.Balance
import Trutina.Completion

namespace Trutina

open Interaction

/-! ### Totals of postings -/

/-- The exact total of one side of postings. -/
def postedTotal (amount : PostingModel Money → Money) (postings : List (PostingModel Money)) : ℚ :=
  exactTotal (postings.map fun posting => (amount posting).toDecimal)

theorem sumMoney_toRat (amounts : List Money) :
    (sumMoney amounts).toRat = exactTotal (amounts.map Money.toDecimal) := by
  unfold sumMoney exactTotal Decimal.toRat
  induction amounts with
  | nil => simp
  | cons money rest inductionHypothesis =>
    simp only [List.map_cons, List.sum_cons, Int.cast_add, add_mul] at inductionHypothesis ⊢
    rw [inductionHypothesis, Money.toDecimal]

section Totals

variable {amount : PostingModel Money → Money} {postings : List (PostingModel Money)}

/-- A total in cents. -/
theorem postedTotal_eq_units (nonneg : ∀ posting ∈ postings, 0 ≤ (amount posting).cents) :
    postedTotal amount postings = unitsOf amount postings * 10 ^ (-2 : Int) := by
  have sums := sumMoney_toRat (postings.map amount)
  have units : sumMoney (postings.map amount) = ⟨(unitsOf amount postings : Nat), -2⟩ := by
    rw [sumMoney_eq_units, List.map_map]
    · rfl
    · intro money member
      obtain ⟨posting, present, rfl⟩ := List.mem_map.mp member
      exact nonneg posting present
  rw [List.map_map] at sums
  rw [postedTotal, ← Function.comp_def, ← sums, units, Decimal.toRat]
  rfl

/-- Fewer postings have no greater total. -/
theorem postedTotal_mono {fewer : List (PostingModel Money)} (sublist : fewer.Sublist postings)
    (nonneg : ∀ posting ∈ postings, 0 ≤ (amount posting).cents) :
    postedTotal amount fewer ≤ postedTotal amount postings := by
  rw [postedTotal_eq_units nonneg,
    postedTotal_eq_units fun posting member => nonneg posting (sublist.subset member)]
  refine mul_le_mul_of_nonneg_right (Nat.cast_le.mpr ?_) (by positivity)
  exact (sublist.map _).sum_le_sum fun _ _ => Nat.zero_le _

end Totals

/-- The postings of one lookup key. -/
def postingsUnder (key : String) (postings : List (PostingModel Money)) :
    List (PostingModel Money) :=
  postings.filter fun posting => accountLookupKey posting.account = key

/-- A report covers postings: it has one row for each of their lookup keys, with the totals of the
postings under it. -/
structure Covers (scope : List (PostingModel Money)) (report : TrialBalanceViewModel) :
    Prop where
  distinct : (report.entries.map fun row => accountLookupKey row.account).Nodup
  covers : ∀ key, (∃ row ∈ report.entries, accountLookupKey row.account = key) ↔
    ∃ posting ∈ scope, accountLookupKey posting.account = key
  debits : ∀ row ∈ report.entries, row.debitTotal.toRat =
    postedTotal PostingModel.debitAmount (postingsUnder (accountLookupKey row.account) scope)
  credits : ∀ row ∈ report.entries, row.creditTotal.toRat =
    postedTotal PostingModel.creditAmount (postingsUnder (accountLookupKey row.account) scope)

/-- Besides, its grand totals are those of all the postings. -/
structure Partitions (scope : List (PostingModel Money)) (report : TrialBalanceViewModel) :
    Prop extends Covers scope report where
  totalDebits : ∃ total, report.totalDebits = .ok total ∧
    total.toRat = postedTotal PostingModel.debitAmount scope
  totalCredits : ∃ total, report.totalCredits = .ok total ∧
    total.toRat = postedTotal PostingModel.creditAmount scope

section Report

variable {world : World} {asOfDate : Option Timestamp} {envs : Nat → Env}
  {report : TrialBalanceViewModel}

/-- The groups in scope are the postings under one key each. -/
theorem groupByAccountKey_eq (sound : world.Sound) :
    groupByAccountKey (world.postingsInScope asOfDate) =
      ((world.postingsInScope asOfDate).map fun posting =>
        accountLookupKey posting.account).dedup.map fun key =>
          postingsUnder key (world.postingsInScope asOfDate) := by
  have keyed : ∀ posting ∈ world.postingsInScope asOfDate,
      posting.accountKey = accountLookupKey posting.account :=
    fun posting member => (sound.posting_keyed (List.mem_of_mem_filter member)).1
  rw [groupByAccountKey, List.map_congr_left keyed]
  refine List.map_congr_left fun key _ => List.filter_congr fun posting member => ?_
  rw [keyed posting member]

/-- The name a group is displayed under is clean and has the key of the group. -/
theorem minAccount_keyed (sound : world.Sound) (collate : String → String → Bool) {key : String}
    (used : ∃ posting ∈ world.postingsInScope asOfDate, accountLookupKey posting.account = key) :
    accountLookupKey (minAccount collate (postingsUnder key (world.postingsInScope asOfDate))) =
        key ∧
      cleanAccountName (minAccount collate (postingsUnder key (world.postingsInScope asOfDate))) =
        some (minAccount collate (postingsUnder key (world.postingsInScope asOfDate))) := by
  obtain ⟨posting, member, own⟩ := used
  have listed : posting ∈ postingsUnder key (world.postingsInScope asOfDate) :=
    List.mem_filter.mpr ⟨member, decide_eq_true own⟩
  obtain ⟨least, present, account⟩ := minAccount_mem collate (List.ne_nil_of_mem listed)
  obtain ⟨covered, sameKey⟩ := List.mem_filter.mp present
  rw [account]
  exact ⟨of_decide_eq_true sameKey, (sound.posting_keyed (List.mem_of_mem_filter covered)).2⟩

/-- The row of a group: its name has the key of the group, and its totals are those of the
group. -/
theorem row_of_group (sound : world.Sound) {collate : String → String → Bool} {key : String}
    (used : ∃ posting ∈ world.postingsInScope asOfDate, accountLookupKey posting.account = key)
    {row : AccountBalanceEntry} (built : PostgresTrialBalanceRepo.toDomain
      (balanceRow collate (postingsUnder key (world.postingsInScope asOfDate))) = .ok row) :
    accountLookupKey row.account = key ∧
      row.debitTotal.toRat = postedTotal PostingModel.debitAmount
        (postingsUnder key (world.postingsInScope asOfDate)) ∧
      row.creditTotal.toRat = postedTotal PostingModel.creditAmount
        (postingsUnder key (world.postingsInScope asOfDate)) := by
  obtain ⟨⟨clean, _⟩, debit, credit⟩ := AccountBalanceEntry.validate_eq_ok_iff.mp built
  obtain ⟨own, fixed⟩ := minAccount_keyed sound collate used
  rw [balanceRow, fixed] at clean
  refine ⟨?_, ?_, ?_⟩
  · rw [← Option.some.inj clean, own]
  · rw [debit, balanceRow, sumMoney_toRat, List.map_map]
    rfl
  · rw [credit, balanceRow, sumMoney_toRat, List.map_map]
    rfl

/-- Each row of a report that is returned is built from a group, the postings under a used key. -/
theorem groups_of_returned (sound : world.Sound)
    (returned : ((TrialBalanceService.getTrialBalance asOfDate).run handle envs world).1 =
      .ok report) :
    ∃ groups, groups.Perm (groupByAccountKey (world.postingsInScope asOfDate)) ∧
      List.Forall₂ (fun group row => PostgresTrialBalanceRepo.toDomain
        (balanceRow (envs 0).collate group) = .ok row) groups report.entries ∧
      ∀ group ∈ groups, ∃ key, (∃ posting ∈ world.postingsInScope asOfDate,
        accountLookupKey posting.account = key) ∧
          group = postingsUnder key (world.postingsInScope asOfDate) := by
  obtain ⟨groups, arranged, rows⟩ := History.getTrialBalance_groups returned
  refine ⟨groups, arranged, rows, fun group member => ?_⟩
  rw [arranged.mem_iff, groupByAccountKey_eq sound] at member
  obtain ⟨key, listed, rfl⟩ := List.mem_map.mp member
  exact ⟨key, List.mem_map.mp (List.mem_dedup.mp listed), rfl⟩

/-- A report that is returned covers the postings in scope. -/
theorem covers_of_returned (sound : world.Sound)
    (returned : ((TrialBalanceService.getTrialBalance asOfDate).run handle envs world).1 =
      .ok report) : Covers (world.postingsInScope asOfDate) report := by
  obtain ⟨groups, arranged, rows, grouped⟩ := groups_of_returned sound returned
  have totals : ∀ row ∈ report.entries,
      row.debitTotal.toRat = postedTotal PostingModel.debitAmount
        (postingsUnder (accountLookupKey row.account) (world.postingsInScope asOfDate)) ∧
      row.creditTotal.toRat = postedTotal PostingModel.creditAmount
        (postingsUnder (accountLookupKey row.account) (world.postingsInScope asOfDate)) := by
    intro row member
    obtain ⟨group, listed, built⟩ := rows.exists_left member
    obtain ⟨key, used, rfl⟩ := grouped group listed
    obtain ⟨own, debit, credit⟩ := row_of_group sound used built
    rw [own]
    exact ⟨debit, credit⟩
  have named : (report.entries.map fun row => accountLookupKey row.account) =
      groups.map fun group => accountLookupKey (minAccount (envs 0).collate group) := by
    refine rows.map_eq fun group listed row built => ?_
    obtain ⟨key, used, rfl⟩ := grouped group listed
    rw [(row_of_group sound used built).1, (minAccount_keyed sound _ used).1]
  have keys : (report.entries.map fun row => accountLookupKey row.account).Perm
      ((world.postingsInScope asOfDate).map fun posting =>
        accountLookupKey posting.account).dedup := by
    rw [named]
    refine (arranged.map _).trans (List.Perm.of_eq ?_)
    rw [groupByAccountKey_eq sound, List.map_map]
    refine (List.map_congr_left fun key listed => ?_).trans (List.map_id _)
    exact (minAccount_keyed sound _ (List.mem_map.mp (List.mem_dedup.mp listed))).1
  refine ⟨keys.nodup_iff.mpr (List.nodup_dedup _), fun key => ?_, fun row member =>
    (totals row member).1, fun row member => (totals row member).2⟩
  rw [← List.mem_map, keys.mem_iff, List.mem_dedup, List.mem_map]

/-- A report that is returned partitions the postings in scope. -/
theorem partitions_of_returned (sound : world.Sound)
    (debits : unitsOf PostingModel.debitAmount (world.postingsInScope asOfDate) < 10 ^ 28)
    (credits : unitsOf PostingModel.creditAmount (world.postingsInScope asOfDate) < 10 ^ 28)
    (returned : ((TrialBalanceService.getTrialBalance asOfDate).run handle envs world).1 =
      .ok report) : Partitions (world.postingsInScope asOfDate) report := by
  obtain ⟨groups, arranged, rows⟩ := History.getTrialBalance_groups returned
  have order : (groups.map (balanceRow (envs 0).collate)).Perm
      ((groupByAccountKey (world.postingsInScope asOfDate)).map
        (balanceRow (envs 0).collate)) := arranged.map _
  have debitTotals : report.entries.map AccountBalanceEntry.debitTotal =
      (groups.map (balanceRow (envs 0).collate)).map BalanceRow.debitTotal := by
    rw [List.map_map]
    exact rows.map_eq fun _ _ _ built =>
      (AccountBalanceEntry.validate_eq_ok_iff.mp built).2.1
  have creditTotals : report.entries.map AccountBalanceEntry.creditTotal =
      (groups.map (balanceRow (envs 0).collate)).map BalanceRow.creditTotal := by
    rw [List.map_map]
    exact rows.map_eq fun _ _ _ built =>
      (AccountBalanceEntry.validate_eq_ok_iff.mp built).2.2
  have nonneg : ∀ posting ∈ world.postingsInScope asOfDate,
      0 ≤ posting.debitAmount.cents ∧ 0 ≤ posting.creditAmount.cents :=
    fun posting member => sound.posting_nonneg (List.mem_of_mem_filter member)
  refine ⟨covers_of_returned sound returned, ?_, ?_⟩
  · obtain ⟨total, computed, value⟩ := report_side order PostingModel.debitAmount
      BalanceRow.debitTotal (fun _ => rfl) (fun posting member => (nonneg posting member).1) debits
    rw [← debitTotals] at computed
    exact ⟨total, computed, value.trans (postedTotal_eq_units fun posting member =>
      (nonneg posting member).1).symm⟩
  · obtain ⟨total, computed, value⟩ := report_side order PostingModel.creditAmount
      BalanceRow.creditTotal (fun _ => rfl) (fun posting member => (nonneg posting member).2)
      credits
    rw [← creditTotals] at computed
    exact ⟨total, computed, value.trans (postedTotal_eq_units fun posting member =>
      (nonneg posting member).2).symm⟩

end Report

/-! ### Later cutoffs -/

/-- A cutoff is enlarged by a later date and by none at all. -/
def Enlarges (narrow wide : Option Timestamp) : Prop :=
  ∀ cutoff ∈ wide, ∃ earlier ∈ narrow, earlier ≤ cutoff

theorem scope_sublist {world : World} {narrow wide : Option Timestamp}
    (enlarges : Enlarges narrow wide) :
    (world.postingsInScope narrow).Sublist (world.postingsInScope wide) := by
  refine List.monotone_filter_right _ fun posting covered => ?_
  rw [Option.all_eq_true] at covered ⊢
  intro cutoff member
  obtain ⟨earlier, own, before⟩ := enlarges cutoff member
  exact decide_eq_true ((of_decide_eq_true (covered earlier own)).trans before)

/-- A report keeps every row of another and lowers no total. -/
structure Grows (report wider : TrialBalanceViewModel) : Prop where
  rows : ∀ row ∈ report.entries, ∃ other ∈ wider.entries,
    accountLookupKey other.account = accountLookupKey row.account ∧
      row.debitTotal.toRat ≤ other.debitTotal.toRat ∧
      row.creditTotal.toRat ≤ other.creditTotal.toRat
  debits : ∀ total other, report.totalDebits = .ok total → wider.totalDebits = .ok other →
    total.toRat ≤ other.toRat
  credits : ∀ total other, report.totalCredits = .ok total → wider.totalCredits = .ok other →
    total.toRat ≤ other.toRat

/-- Reports that partition more postings grow. -/
theorem Partitions.grows {fewer more : List (PostingModel Money)}
    {report wider : TrialBalanceViewModel} (partitions : Partitions fewer report)
    (partitions' : Partitions more wider) (sublist : fewer.Sublist more)
    (nonneg : ∀ posting ∈ more, 0 ≤ posting.debitAmount.cents ∧ 0 ≤ posting.creditAmount.cents) :
    Grows report wider := by
  have under : ∀ key, (postingsUnder key fewer).Sublist (postingsUnder key more) :=
    fun key => sublist.filter _
  have nonnegUnder : ∀ key, ∀ posting ∈ postingsUnder key more,
      0 ≤ posting.debitAmount.cents ∧ 0 ≤ posting.creditAmount.cents :=
    fun key posting member => nonneg posting (List.mem_of_mem_filter member)
  refine ⟨fun row member => ?_, fun total other computed computed' => ?_,
    fun total other computed computed' => ?_⟩
  · obtain ⟨posting, covered, own⟩ := (partitions.covers _).mp ⟨row, member, rfl⟩
    obtain ⟨other, listed, same⟩ :=
      (partitions'.covers _).mpr ⟨posting, sublist.subset covered, own⟩
    refine ⟨other, listed, same, ?_, ?_⟩
    · rw [partitions.debits row member, partitions'.debits other listed, same]
      exact postedTotal_mono (under _) fun posting present => (nonnegUnder _ posting present).1
    · rw [partitions.credits row member, partitions'.credits other listed, same]
      exact postedTotal_mono (under _) fun posting present => (nonnegUnder _ posting present).2
  · obtain ⟨first, sum, value⟩ := partitions.totalDebits
    obtain ⟨second, sum', value'⟩ := partitions'.totalDebits
    rw [sum] at computed
    rw [sum'] at computed'
    rw [← Except.ok.inj computed, ← Except.ok.inj computed', value, value']
    exact postedTotal_mono sublist fun posting member => (nonneg posting member).1
  · obtain ⟨first, sum, value⟩ := partitions.totalCredits
    obtain ⟨second, sum', value'⟩ := partitions'.totalCredits
    rw [sum] at computed
    rw [sum'] at computed'
    rw [← Except.ok.inj computed, ← Except.ok.inj computed', value, value']
    exact postedTotal_mono sublist fun posting member => (nonneg posting member).2

/-- The repository and the service return the same rows. -/
theorem getTrialBalance_returns {world : World} (sound : world.Sound)
    (asOfDate : Option Timestamp) {envs : Nat → Env} (calm : (envs 0).fault = none) :
    ∃ entries, ((PostgresTrialBalanceRepo.getAccountBalances asOfDate).run handle envs world).1 =
        .ok entries ∧
      ((TrialBalanceService.getTrialBalance asOfDate).run handle envs world).1 =
        .ok ⟨entries, asOfDate⟩ := by
  obtain ⟨entries, rebuilt⟩ := reportRows_rebuilt sound asOfDate (envs 0)
  refine ⟨entries, ?_, getTrialBalance_run calm rebuilt⟩
  unfold PostgresTrialBalanceRepo.getAccountBalances
  rw [run_execute_bind calm]
  exact rebuilt

/-- In every state that calls of the services reach, the reports for any cutoff and any later one
are returned and partition the postings they cover, as long as the amounts of either side sum to
less than 28 digits of cents. The later cutoff keeps every row and lowers no total. -/
theorem trialBalance_partitions {Thread : Type} [DecidableEq Thread] (calls : Thread → Call)
    {start : World} (sound : start.Sound)
    {pool : Pool Thread Command Reply Raised Response World}
    (reaches : Reaches handle (fun _ _ _ _ => True)
      ⟨start, fun thread => (calls thread).program⟩ pool)
    {narrow wide : Option Timestamp} (enlarges : Enlarges narrow wide)
    (debits : unitsOf PostingModel.debitAmount (pool.state.postingsInScope wide) < 10 ^ 28)
    (credits : unitsOf PostingModel.creditAmount (pool.state.postingsInScope wide) < 10 ^ 28)
    (envs envs' : Nat → Env) (calm : (envs 0).fault = none) (calm' : (envs' 0).fault = none) :
    ∃ report wider,
      ((PostgresTrialBalanceRepo.getAccountBalances narrow).run handle envs pool.state).1 =
        .ok report.entries ∧
      ((TrialBalanceService.getTrialBalance narrow).run handle envs pool.state).1 = .ok report ∧
      ((TrialBalanceService.getTrialBalance wide).run handle envs' pool.state).1 = .ok wider ∧
      Partitions (pool.state.postingsInScope narrow) report ∧
      Partitions (pool.state.postingsInScope wide) wider ∧ Grows report wider := by
  have soundNow : pool.state.Sound := (pool_sound calls sound reaches).1.invariant
  have sublist : (pool.state.postingsInScope narrow).Sublist (pool.state.postingsInScope wide) :=
    scope_sublist enlarges
  have less : ∀ amount : PostingModel Money → Money,
      unitsOf amount (pool.state.postingsInScope narrow) ≤
        unitsOf amount (pool.state.postingsInScope wide) :=
    fun amount => (sublist.map _).sum_le_sum fun _ _ => Nat.zero_le _
  obtain ⟨entries, balances, returned⟩ := getTrialBalance_returns soundNow narrow calm
  obtain ⟨wideEntries, _, returned'⟩ := getTrialBalance_returns soundNow wide calm'
  have partitions := partitions_of_returned soundNow ((less _).trans_lt debits)
    ((less _).trans_lt credits) returned
  have partitions' := partitions_of_returned soundNow debits credits returned'
  exact ⟨_, _, balances, returned, returned', partitions, partitions', partitions.grows partitions'
    sublist fun posting member => soundNow.posting_nonneg (List.mem_of_mem_filter member)⟩

/-- Before an entry's date its accounts have no rows; without a cutoff they do. -/
theorem trialBalance_partitions_of_rivals :
    ∃ report wider,
      ((TrialBalanceService.getTrialBalance (some 1599999999999999)).run handle
        (fun _ => Env.calm 1700000000000000) rivalPostingsPool.state).1 = .ok report ∧
      ((TrialBalanceService.getTrialBalance none).run handle
        (fun _ => Env.calm 1700000000000000) rivalPostingsPool.state).1 = .ok wider ∧
      report.entries.length = 0 ∧ wider.entries.length = 2 ∧ Grows report wider := by
  have enlarges : Enlarges (some 1599999999999999) none := by
    rintro cutoff ⟨⟩
  obtain ⟨report, wider, _, returned, returned', _, _, grows⟩ :=
    trialBalance_partitions rivalPostings empty_sound rivalPostings_reaches enlarges
      (by decide +kernel) (by decide +kernel) (fun _ => Env.calm 1700000000000000)
      (fun _ => Env.calm 1700000000000000) rfl rfl
  have early : (((TrialBalanceService.getTrialBalance (some 1599999999999999)).run handle
      (fun _ => Env.calm 1700000000000000) rivalPostingsPool.state).1.toOption.map fun shown =>
        shown.entries.length) = some 0 := by decide +kernel
  have late : (((TrialBalanceService.getTrialBalance none).run handle
      (fun _ => Env.calm 1700000000000000) rivalPostingsPool.state).1.toOption.map fun shown =>
        shown.entries.length) = some 2 := by decide +kernel
  refine ⟨report, wider, returned, returned', ?_, ?_, grows⟩
  · have shown := congrArg (fun outcome => outcome.toOption.map fun shown =>
      TrialBalanceViewModel.entries shown |>.length) returned
    exact Option.some.inj (shown.symm.trans early)
  · have shown := congrArg (fun outcome => outcome.toOption.map fun shown =>
      TrialBalanceViewModel.entries shown |>.length) returned'
    exact Option.some.inj (shown.symm.trans late)

end Trutina
