/-
This file proves that the books always balance. An entry is posted only after it
has been read back, so its stored, rounded amounts balance; all its postings have
its date, so a cutoff takes all of them or none; and grouping them by account
only rearranges the sum. The total debits of a report are therefore its total
credits, as long as decimal arithmetic does not round the sums.
-/

import Trutina.ExactlyOnce

namespace Trutina

open Interaction

/-! ### Sums over groups -/

/-- Summing by keys is summing: every item has one key. -/
theorem sum_by_keys {Item Key : Type} [DecidableEq Key] (key : Item → Key) (value : Item → Nat)
    {keys : List Key} (distinct : keys.Nodup) (items : List Item)
    (covered : ∀ item ∈ items, key item ∈ keys) :
    (keys.map fun group => ((items.filter fun item => key item = group).map value).sum).sum =
      (items.map value).sum := by
  induction items with
  | nil => simp
  | cons item rest inductionHypothesis =>
    have split : ∀ group, (((item :: rest).filter fun other => key other = group).map value).sum =
        (if key item = group then value item else 0) +
          ((rest.filter fun other => key other = group).map value).sum := by
      intro group
      by_cases same : key item = group <;> simp [same]
    have single : (keys.map fun group => if key item = group then value item else 0).sum =
        value item := by
      rw [← List.sum_toFinset _ distinct, Finset.sum_ite_eq,
        if_pos (List.mem_toFinset.mpr (covered item List.mem_cons_self))]
    simp only [split, List.sum_map_add, single, List.map_cons, List.sum_cons]
    rw [inductionHypothesis fun other member => covered other (List.mem_cons_of_mem _ member)]

theorem sum_groups {Item Key : Type} [DecidableEq Key] (key : Item → Key) (value : Item → Nat)
    (items : List Item) :
    ((items.map key).dedup.map fun group =>
      ((items.filter fun item => key item = group).map value).sum).sum = (items.map value).sum :=
  sum_by_keys key value (List.nodup_dedup _) items fun _ member =>
    List.mem_dedup.mpr (List.mem_map_of_mem member)

/-! ### Money -/

/-- The cents of an amount that is not negative. -/
def Money.units (money : Money) : Nat := money.cents.toNat

theorem toDecimal_eq_units {money : Money} (nonneg : 0 ≤ money.cents) :
    money.toDecimal = ⟨(money.units : Int), -2⟩ := by
  rw [Money.toDecimal, Money.units, Int.toNat_of_nonneg nonneg]

theorem sumMoney_eq_units {amounts : List Money} (nonneg : ∀ money ∈ amounts, 0 ≤ money.cents) :
    sumMoney amounts = ⟨((amounts.map Money.units).sum : Nat), -2⟩ := by
  have sums : (amounts.map Money.cents).sum = ((amounts.map Money.units).sum : Nat) := by
    induction amounts with
    | nil => rfl
    | cons money rest inductionHypothesis =>
      rw [List.map_cons, List.sum_cons, List.map_cons, List.sum_cons, Nat.cast_add,
        inductionHypothesis fun other member => nonneg other (List.mem_cons_of_mem _ member),
        Money.units, Int.toNat_of_nonneg (nonneg money List.mem_cons_self)]
  rw [sumMoney, sums]

/-- Amounts in cents are summed exactly while their sum has 28 digits. -/
theorem sum_units (units : List Nat) (fits : units.sum < 10 ^ 28) :
    ∃ total, Decimal.sum decimalContext (units.map fun unit : Nat => ⟨unit, -2⟩) = .ok total ∧
      total.toRat = units.sum * 10 ^ (-2 : Int) :=
  Decimal.sum_exact decimalContext (by decide) (by decide) (by decide) units fits

/-! ### Posted entries balance -/

/-- The sum of one side of postings in cents. -/
def unitsOf (amount : PostingModel Money → Money) (postings : List (PostingModel Money)) : Nat :=
  (postings.map fun posting => (amount posting).units).sum

section Entries

variable {world : World} {header : JournalEntryModel}

theorem World.Sound.posting_nonneg (sound : world.Sound) {posting : PostingModel Money}
    (member : posting ∈ world.postings) :
    0 ≤ posting.debitAmount.cents ∧ 0 ≤ posting.creditAmount.cents := by
  obtain ⟨header, posted, listed⟩ := sound.posted_listing member
  exact oneSide_nonneg (posted.posting sound listed).2.1

/-- The sums of a posted entry agree, when they have 28 digits. -/
theorem World.Posted.balanced (sound : world.Sound) (posted : world.Posted header)
    (debits : unitsOf PostingModel.debitAmount (world.postingsOf header.journalNumber) < 10 ^ 28)
    (credits :
      unitsOf PostingModel.creditAmount (world.postingsOf header.journalNumber) < 10 ^ 28) :
    unitsOf PostingModel.debitAmount (world.postingsOf header.journalNumber) =
      unitsOf PostingModel.creditAmount (world.postingsOf header.journalNumber) := by
  obtain ⟨createdBy, batch⟩ := posted.batch
  obtain ⟨now, entry, rebuilt⟩ := posted.readable
  have pairs := fromRows_eq_ok_iff.mp (toDomain_eq_ok_iff.mp rebuilt).1
  have nonneg : ∀ line ∈ world.linesOf header.journalNumber,
      0 ≤ line.debitAmount.cents ∧ 0 ≤ line.creditAmount.cents := fun line listed =>
    oneSide_nonneg (sound.sides line (mem_linesOf.mp listed).1)
  have debitAmounts : entry.lines.map JournalLine.debitAmount =
      ((world.postingsOf header.journalNumber).map fun posting =>
        posting.debitAmount.units).map fun unit : Nat => ⟨unit, -2⟩ := by
    rw [batch, List.map_map, List.map_map]
    refine pairs.map_eq fun line listed value converted => ?_
    rw [(JournalLine.validate_eq_ok_iff.mp converted).2.1]
    exact toDecimal_eq_units (nonneg line listed).1
  have creditAmounts : entry.lines.map JournalLine.creditAmount =
      ((world.postingsOf header.journalNumber).map fun posting =>
        posting.creditAmount.units).map fun unit : Nat => ⟨unit, -2⟩ := by
    rw [batch, List.map_map, List.map_map]
    refine pairs.map_eq fun line listed value converted => ?_
    rw [(JournalLine.validate_eq_ok_iff.mp converted).2.2]
    exact toDecimal_eq_units (nonneg line listed).2
  obtain ⟨totalDebits, totalCredits, sumDebits, sumCredits, agree⟩ :=
    sumsAgree_eq_true_iff.mp entry.balanced
  obtain ⟨exactDebits, same, valueDebits⟩ := sum_units _ debits
  rw [debitAmounts, same] at sumDebits
  obtain rfl := Except.ok.inj sumDebits
  obtain ⟨exactCredits, same, valueCredits⟩ := sum_units _ credits
  rw [creditAmounts, same] at sumCredits
  obtain rfl := Except.ok.inj sumCredits
  have values := Decimal.equals_iff.mp agree
  rw [valueDebits, valueCredits, mul_left_inj' (Decimal.ten_zpow_ne_zero _)] at values
  exact Nat.cast_injective values

end Entries

/-! ### The postings a report covers -/

section Scope

variable {world : World} {asOfDate : Option Timestamp}

/-- A cutoff takes all postings of an entry or none. -/
theorem scope_of_number (sound : world.Sound) {posting : PostingModel Money}
    (member : posting ∈ world.postingsInScope asOfDate) :
    ((world.postingsInScope asOfDate).filter fun other =>
      other.journalNumber = posting.journalNumber) = world.postingsOf posting.journalNumber := by
  obtain ⟨present, covered⟩ := List.mem_filter.mp member
  obtain ⟨header, own, posted⟩ := sound.posted_of_mem present
  have date := (posted.posting sound (mem_postingsOf.mpr ⟨present, own.symm⟩)).1
  rw [World.postingsInScope, List.filter_comm, ← World.postingsOf]
  refine List.filter_eq_self.mpr fun other listed => ?_
  rw [← own] at listed
  rwa [(posted.posting sound listed).1, ← date]

/-- What a cutoff covers is summed entry by entry. -/
theorem scope_by_entries (sound : world.Sound) (amount : PostingModel Money → Money) :
    unitsOf amount (world.postingsInScope asOfDate) =
      (((world.postingsInScope asOfDate).map PostingModel.journalNumber).dedup.map fun number =>
        unitsOf amount (world.postingsOf number)).sum := by
  rw [unitsOf, ← sum_groups PostingModel.journalNumber fun posting => (amount posting).units]
  refine congrArg List.sum (List.map_congr_left fun number listed => ?_)
  obtain ⟨posting, member, rfl⟩ := List.mem_map.mp (List.mem_dedup.mp listed)
  rw [scope_of_number sound member]
  rfl

/-- The sides of the covered postings have equal sums. -/
theorem scope_balanced (sound : world.Sound)
    (debits : unitsOf PostingModel.debitAmount (world.postingsInScope asOfDate) < 10 ^ 28)
    (credits : unitsOf PostingModel.creditAmount (world.postingsInScope asOfDate) < 10 ^ 28) :
    unitsOf PostingModel.debitAmount (world.postingsInScope asOfDate) =
      unitsOf PostingModel.creditAmount (world.postingsInScope asOfDate) := by
  rw [scope_by_entries sound, scope_by_entries sound]
  refine congrArg List.sum (List.map_congr_left fun number listed => ?_)
  obtain ⟨posting, member, rfl⟩ := List.mem_map.mp (List.mem_dedup.mp listed)
  have part : ∀ amount : PostingModel Money → Money,
      unitsOf amount (world.postingsOf posting.journalNumber) ≤
        unitsOf amount (world.postingsInScope asOfDate) := fun amount => by
    rw [← scope_of_number sound member]
    exact (List.filter_sublist.map _).sum_le_sum fun _ _ => Nat.zero_le _
  obtain ⟨header, own, posted⟩ := sound.posted_of_mem (List.mem_of_mem_filter member)
  rw [← own] at part ⊢
  exact posted.balanced sound ((part _).trans_lt debits) ((part _).trans_lt credits)

end Scope

/-! ### Reports -/

/-- The least account of a group is the account of one of its postings. -/
theorem minAccount_mem (collate : String → String → Bool) {group : List (PostingModel Money)}
    (some' : group ≠ []) : ∃ posting ∈ group, minAccount collate group = posting.account := by
  cases group with
  | nil => exact absurd rfl some'
  | cons first rest =>
    rw [minAccount]
    clear some'
    induction rest generalizing first with
    | nil => exact ⟨first, List.mem_cons_self, rfl⟩
    | cons second rest inductionHypothesis =>
      rw [List.foldl_cons]
      split
      · obtain ⟨posting, member, same⟩ := inductionHypothesis second
        exact ⟨posting, List.mem_cons_of_mem _ member, same⟩
      · obtain ⟨posting, member, same⟩ := inductionHypothesis first
        rcases List.mem_cons.mp member with rfl | later
        · exact ⟨posting, List.mem_cons_self, same⟩
        · exact ⟨posting, List.mem_cons_of_mem _ (List.mem_cons_of_mem _ later), same⟩

/-- A group of postings is not empty, and its postings are among those that were grouped. -/
theorem mem_groupByAccountKey {postings group : List (PostingModel Money)}
    (member : group ∈ groupByAccountKey postings) :
    group ≠ [] ∧ ∀ posting ∈ group, posting ∈ postings := by
  obtain ⟨key, listed, rfl⟩ := List.mem_map.mp member
  obtain ⟨posting, present, same⟩ := List.mem_map.mp (List.mem_dedup.mp listed)
  refine ⟨List.ne_nil_of_mem (List.mem_filter.mpr ⟨present, decide_eq_true same⟩),
    fun _ => List.mem_of_mem_filter⟩

/-- One side of a report sums up what its postings sum up to. -/
theorem report_side {collate : String → String → Bool} {postings : List (PostingModel Money)}
    {rows : List BalanceRow} (order : rows.Perm ((groupByAccountKey postings).map
      (balanceRow collate))) (amount : PostingModel Money → Money) (total : BalanceRow → Decimal)
    (sums : ∀ group, total (balanceRow collate group) = sumMoney (group.map amount))
    (nonneg : ∀ posting ∈ postings, 0 ≤ (amount posting).cents)
    (fits : unitsOf amount postings < 10 ^ 28) :
    ∃ sum, Decimal.sum decimalContext (rows.map total) = .ok sum ∧
      sum.toRat = unitsOf amount postings * 10 ^ (-2 : Int) := by
  have groupTotal : ∀ group ∈ groupByAccountKey postings,
      total (balanceRow collate group) = ⟨(unitsOf amount group : Nat), -2⟩ :=
    fun group member => by
    rw [sums, sumMoney_eq_units, List.map_map]
    · rfl
    · intro money listed
      obtain ⟨posting, present, rfl⟩ := List.mem_map.mp listed
      exact nonneg posting ((mem_groupByAccountKey member).2 posting present)
  have rowTotals : rows.map total =
      (rows.map fun row => (total row).coefficient.toNat).map fun unit : Nat => ⟨unit, -2⟩ := by
    rw [List.map_map]
    refine List.map_congr_left fun row member => ?_
    obtain ⟨group, listed, rfl⟩ := List.mem_map.mp (order.mem_iff.mp member)
    rw [Function.comp_apply, groupTotal group listed]
    rfl
  have units : (rows.map fun row => (total row).coefficient.toNat).sum =
      unitsOf amount postings := by
    rw [(order.map _).sum_eq, List.map_map, List.map_congr_left (g := unitsOf amount)]
    · rw [groupByAccountKey, List.map_map]
      exact sum_groups PostingModel.accountKey (fun posting => (amount posting).units) postings
    · intro group member
      rw [Function.comp_apply, groupTotal group member]
      rfl
  obtain ⟨sum, computed, value⟩ := sum_units _ (units.trans_lt fits)
  rw [← rowTotals] at computed
  rw [units] at value
  exact ⟨sum, computed, value⟩

section Report

variable {world : World}

/-- Every row of a report is accepted. -/
theorem reportRows_rebuilt (sound : world.Sound) (asOfDate : Option Timestamp) (env : Env) :
    ∃ entries, fromRows PostgresTrialBalanceRepo.toDomain
      (Query.rows env world (.accountBalances asOfDate)) = .ok entries := by
  refine fromRows_total fun row member => ?_
  rw [Query.rows, List.mem_insertionSort] at member
  obtain ⟨group, listed, rfl⟩ := List.mem_map.mp member
  obtain ⟨some', within⟩ := mem_groupByAccountKey listed
  obtain ⟨posting, present, account⟩ := minAccount_mem env.collate some'
  have stored : ∀ posting ∈ group, posting ∈ world.postings := fun posting present =>
    List.mem_of_mem_filter (within posting present)
  obtain ⟨header, posted, own⟩ := sound.posted_listing (stored posting present)
  obtain ⟨_, _, clean, bounds⟩ := posted.posting sound own
  have side : ∀ amount : PostingModel Money → Money,
      (∀ posting ∈ world.postings, 0 ≤ (amount posting).cents) →
      0 ≤ (sumMoney (group.map amount)).coefficient := fun amount nonneg => by
    rw [sumMoney_eq_units]
    · exact Int.natCast_nonneg _
    · intro money listed
      obtain ⟨other, present, rfl⟩ := List.mem_map.mp listed
      exact nonneg other (stored other present)
  refine ⟨⟨posting.account, sumMoney (group.map PostingModel.debitAmount),
    sumMoney (group.map PostingModel.creditAmount), clean, bounds.2,
    side _ fun posting member => (sound.posting_nonneg member).1,
    side _ fun posting member => (sound.posting_nonneg member).2⟩, ?_⟩
  refine AccountBalanceEntry.validate_eq_ok_iff.mpr ⟨?_, rfl, rfl⟩
  rw [balanceRow, account]
  exact ⟨clean, bounds⟩

/-- A report on a sound ledger is balanced, when its sums have 28 digits. -/
theorem report_balanced (sound : world.Sound) (asOfDate : Option Timestamp) (env : Env)
    (debits : unitsOf PostingModel.debitAmount (world.postingsInScope asOfDate) < 10 ^ 28)
    (credits : unitsOf PostingModel.creditAmount (world.postingsInScope asOfDate) < 10 ^ 28) :
    ∃ entries, fromRows PostgresTrialBalanceRepo.toDomain
        (Query.rows env world (.accountBalances asOfDate)) = .ok entries ∧
      ∃ totalDebits totalCredits,
        (TrialBalanceViewModel.mk entries asOfDate).totalDebits = .ok totalDebits ∧
        (TrialBalanceViewModel.mk entries asOfDate).totalCredits = .ok totalCredits ∧
        totalDebits.equals totalCredits = true := by
  obtain ⟨entries, rebuilt⟩ := reportRows_rebuilt sound asOfDate env
  have pairs := fromRows_eq_ok_iff.mp rebuilt
  have order : (Query.rows env world (.accountBalances asOfDate)).Perm
      ((groupByAccountKey (world.postingsInScope asOfDate)).map (balanceRow env.collate)) :=
    List.perm_insertionSort _ _
  have debitTotals : entries.map AccountBalanceEntry.debitTotal =
      (Query.rows env world (.accountBalances asOfDate)).map BalanceRow.debitTotal :=
    pairs.map_eq fun _ _ _ converted =>
      (AccountBalanceEntry.validate_eq_ok_iff.mp converted).2.1
  have creditTotals : entries.map AccountBalanceEntry.creditTotal =
      (Query.rows env world (.accountBalances asOfDate)).map BalanceRow.creditTotal :=
    pairs.map_eq fun _ _ _ converted =>
      (AccountBalanceEntry.validate_eq_ok_iff.mp converted).2.2
  obtain ⟨totalDebits, sumDebits, valueDebits⟩ := report_side order
    PostingModel.debitAmount BalanceRow.debitTotal (fun _ => rfl)
    (fun posting member => (sound.posting_nonneg (List.mem_of_mem_filter member)).1) debits
  obtain ⟨totalCredits, sumCredits, valueCredits⟩ := report_side order
    PostingModel.creditAmount BalanceRow.creditTotal (fun _ => rfl)
    (fun posting member => (sound.posting_nonneg (List.mem_of_mem_filter member)).2) credits
  refine ⟨entries, rebuilt, totalDebits, totalCredits, ?_, ?_, Decimal.equals_iff.mpr ?_⟩
  · rw [TrialBalanceViewModel.totalDebits, debitTotals, ← sumDebits]
  · rw [TrialBalanceViewModel.totalCredits, creditTotals, ← sumCredits]
  · rw [valueDebits, valueCredits, scope_balanced sound debits credits]

/-- The service returns the rows as they are rebuilt. -/
theorem getTrialBalance_run {asOfDate : Option Timestamp} {envs : Nat → Env}
    {entries : List AccountBalanceEntry} (calm : (envs 0).fault = none)
    (rebuilt : fromRows PostgresTrialBalanceRepo.toDomain
      (Query.rows (envs 0) world (.accountBalances asOfDate)) = .ok entries) :
    ((TrialBalanceService.getTrialBalance asOfDate).run handle envs world).1 =
      .ok ⟨entries, asOfDate⟩ := by
  simp only [TrialBalanceService.getTrialBalance, PostgresTrialBalanceRepo.getAccountBalances,
    bind_assoc]
  rw [run_execute_bind calm, run_lift_bind_ok rebuilt]
  rfl

end Report

/-- In every state that calls of the services reach, in any order and whatever fails on the way, a
trial balance that reads the database is built, and its total debits equal its total credits, as
long as the amounts of either side sum to less than 28 digits of cents. -/
theorem trialBalance_balanced {Thread : Type} [DecidableEq Thread] (calls : Thread → Call)
    {start : World} (sound : start.Sound)
    {pool : Pool Thread Command Reply Raised Response World}
    (reaches : Reaches handle (fun _ _ _ _ => True)
      ⟨start, fun thread => (calls thread).program⟩ pool)
    (asOfDate : Option Timestamp)
    (debits : unitsOf PostingModel.debitAmount (pool.state.postingsInScope asOfDate) < 10 ^ 28)
    (credits : unitsOf PostingModel.creditAmount (pool.state.postingsInScope asOfDate) < 10 ^ 28)
    (envs : Nat → Env) (calm : (envs 0).fault = none) :
    ∃ report totalDebits totalCredits,
      ((TrialBalanceService.getTrialBalance asOfDate).run handle envs pool.state).1 =
        .ok report ∧
      report.totalDebits = .ok totalDebits ∧ report.totalCredits = .ok totalCredits ∧
      totalDebits.equals totalCredits = true ∧ report.isBalanced = .ok true := by
  have soundNow : pool.state.Sound := (pool_sound calls sound reaches).1.invariant
  obtain ⟨entries, rebuilt, totalDebits, totalCredits, sumDebits, sumCredits, agree⟩ :=
    report_balanced soundNow asOfDate (envs 0) debits credits
  refine ⟨⟨entries, asOfDate⟩, totalDebits, totalCredits, getTrialBalance_run calm rebuilt,
    sumDebits, sumCredits, agree, ?_⟩
  rw [TrialBalanceViewModel.isBalanced, sumDebits, sumCredits, ← agree]
  rfl

/-- The books balance after an entry has been posted by one of two calls. -/
theorem trialBalance_balanced_of_rivals :
    rivalPostingsPool.state.postings.length = 2 ∧
    ∃ report totalDebits totalCredits,
      ((TrialBalanceService.getTrialBalance none).run handle
        (fun _ => Env.calm 1700000000000000) rivalPostingsPool.state).1 = .ok report ∧
      report.totalDebits = .ok totalDebits ∧ report.totalCredits = .ok totalCredits ∧
      totalDebits.equals totalCredits = true ∧ report.isBalanced = .ok true := by
  refine ⟨by decide +kernel, ?_⟩
  exact trialBalance_balanced rivalPostings empty_sound rivalPostings_reaches none
    (by decide +kernel) (by decide +kernel) _ rfl

end Trutina
