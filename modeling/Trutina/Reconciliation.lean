/-
This file proves that the ledger reconciles. Account statements are filtered and
added up by their readers, the trial balance by the database; in every state that
calls reach they agree for every account, every spelling of its name and every
cutoff. A report is not frozen by its cutoff, though: it changes exactly when an
entry is posted later that is dated in its period, and then a total grows.
-/

import Trutina.Numbering
import Trutina.Partition
import Trutina.Readers

namespace Trutina

open Interaction

/-! ### Totals of statements -/

/-- Whether a cutoff covers a date. -/
def covered (asOfDate : Option Timestamp) (date : Timestamp) : Bool :=
  asOfDate.all fun cutoff => date ≤ cutoff

/-- The total of one side of a statement. -/
def viewTotal (amount : PostingViewModel → Option Decimal) (views : List PostingViewModel) : ℚ :=
  (views.map fun view => ((amount view).map Decimal.toRat).getD 0).sum

/-- What a statement has up to a cutoff. -/
def coveredViews (asOfDate : Option Timestamp) (views : List PostingViewModel) :
    List PostingViewModel :=
  views.filter fun view => covered asOfDate view.postingDate

section Statement

variable {world : World} {asOfDate : Option Timestamp} {envs : Nat → Env}

/-- The two sides of a stored posting, as its view shows them. -/
theorem storedPosting_amounts (sound : world.Sound) {posting : PostingModel Money}
    (member : posting ∈ world.postings) :
    ((storedPosting posting).debitAmount.map Decimal.toRat).getD 0 =
        posting.debitAmount.toDecimal.toRat ∧
      ((storedPosting posting).creditAmount.map Decimal.toRat).getD 0 =
        posting.creditAmount.toDecimal.toRat := by
  obtain ⟨header, posted, listed⟩ := sound.posted_listing member
  have oneSide := (posted.posting sound listed).2.1
  have none : ∀ money : Money, money.cents = 0 → money.toDecimal.toRat = 0 := fun money zero => by
    rw [Decimal.toRat, Money.toDecimal, zero, Int.cast_zero, zero_mul]
  rw [exactlyOneSide, Bool.or_eq_true, Bool.and_eq_true, Bool.and_eq_true, decide_eq_true_eq,
    decide_eq_true_eq, beq_iff_eq, beq_iff_eq] at oneSide
  rcases oneSide with ⟨debit, credit⟩ | ⟨credit, debit⟩
  · simp [storedPosting, if_pos debit, none _ credit]
  · simp [storedPosting, debit, none _ debit]

/-- A statement that is returned has the postings stored under its key. -/
theorem statement_of_returned (sound : world.Sound) {account : String}
    {views : List PostingViewModel}
    (returned : ((PostingService.getPostingsByAccount account).run handle envs world).1 =
      .ok views) : views.Perm (world.statement account) := by
  simp only [PostingService.getPostingsByAccount, PostgresPostingRepo.getByAccount,
    bind_assoc] at returned
  cases failed : (envs 0).fault with
  | some fault =>
    simp only [execute, Program.ask_bind, Program.run, handle, failed] at returned
    cases returned
  | none =>
    rw [run_execute_bind failed] at returned
    cases rebuilt : fromRows (PostgresPostingRepo.toDomain (envs 0).now)
        (Query.rows (envs 0) world (.postingsByAccountKey (accountLookupKey account))) with
    | error error =>
      simp only [rebuilt] at returned
      cases returned
    | ok postings =>
      simp only [rebuilt] at returned
      cases returned
      exact statement_of_rows sound rebuilt

/-- Up to a cutoff, a statement has the postings that a report adds up under its key. -/
theorem coveredViews_perm (sound : world.Sound) {account : String} {views : List PostingViewModel}
    (same : views.Perm (world.statement account)) :
    (coveredViews asOfDate views).Perm
      ((postingsUnder (accountLookupKey account) (world.postingsInScope asOfDate)).map
        storedPosting) := by
  refine (same.filter _).trans (.of_eq ?_)
  rw [World.statement, List.filter_map]
  refine congrArg _ ?_
  rw [postingsUnder, World.postingsInScope, List.filter_filter, List.filter_filter]
  refine List.filter_congr fun posting member => ?_
  rw [(sound.posting_keyed member).1, Bool.and_comm]
  rfl

/-- The totals of a statement up to a cutoff are those of its postings. -/
theorem viewTotal_eq (sound : world.Sound) (asOfDate : Option Timestamp) {account : String}
    {views : List PostingViewModel} (same : views.Perm (world.statement account)) :
    viewTotal PostingViewModel.debitAmount (coveredViews asOfDate views) =
        postedTotal PostingModel.debitAmount
          (postingsUnder (accountLookupKey account) (world.postingsInScope asOfDate)) ∧
      viewTotal PostingViewModel.creditAmount (coveredViews asOfDate views) =
        postedTotal PostingModel.creditAmount
          (postingsUnder (accountLookupKey account) (world.postingsInScope asOfDate)) := by
  have stored : ∀ posting ∈ postingsUnder (accountLookupKey account)
      (world.postingsInScope asOfDate), posting ∈ world.postings :=
    fun posting member => List.mem_of_mem_filter (List.mem_of_mem_filter member)
  have listed : (coveredViews asOfDate views).Perm _ := coveredViews_perm sound same
  constructor
  · rw [viewTotal, (listed.map _).sum_eq, postedTotal, exactTotal, List.map_map, List.map_map]
    exact congrArg List.sum (List.map_congr_left fun posting member =>
      (storedPosting_amounts sound (stored posting member)).1)
  · rw [viewTotal, (listed.map _).sum_eq, postedTotal, exactTotal, List.map_map, List.map_map]
    exact congrArg List.sum (List.map_congr_left fun posting member =>
      (storedPosting_amounts sound (stored posting member)).2)

end Statement

/-- In every state that calls reach, an account has a row in a report exactly when its statement has
postings up to the cutoff, and the totals of the row are those of the statement, however the
account is spelled. -/
theorem statements_reconcile {Thread : Type} [DecidableEq Thread] (calls : Thread → Call)
    {start : World} (sound : start.Sound)
    {pool : Pool Thread Command Reply Raised Response World}
    (reaches : Reaches handle (fun _ _ _ _ => True)
      ⟨start, fun thread => (calls thread).program⟩ pool)
    {asOfDate : Option Timestamp} {envs envs' : Nat → Env} {report : TrialBalanceViewModel}
    (reported : ((TrialBalanceService.getTrialBalance asOfDate).run handle envs pool.state).1 =
      .ok report)
    {account : String} {views : List PostingViewModel}
    (stated : ((PostingService.getPostingsByAccount account).run handle envs' pool.state).1 =
      .ok views) :
    ((∃ row ∈ report.entries, accountLookupKey row.account = accountLookupKey account) ↔
      coveredViews asOfDate views ≠ []) ∧
    ∀ row ∈ report.entries, accountLookupKey row.account = accountLookupKey account →
      row.debitTotal.toRat =
          viewTotal PostingViewModel.debitAmount (coveredViews asOfDate views) ∧
        row.creditTotal.toRat =
          viewTotal PostingViewModel.creditAmount (coveredViews asOfDate views) := by
  have soundNow : pool.state.Sound := (pool_sound calls sound reaches).1.invariant
  have covers := covers_of_returned soundNow reported
  have same := statement_of_returned soundNow stated
  have totals := viewTotal_eq soundNow asOfDate same
  have listed : (coveredViews asOfDate views).Perm _ := coveredViews_perm soundNow same
  refine ⟨?_, fun row member own => ?_⟩
  · rw [covers.covers, ne_eq, ← List.isEmpty_iff, listed.isEmpty_eq, List.isEmpty_iff,
      List.map_eq_nil_iff, postingsUnder, List.filter_eq_nil_iff]
    simp
  · rw [totals.1, totals.2, ← own]
    exact ⟨covers.debits row member, covers.credits row member⟩

/-! ### Reports on past periods -/

/-- Postings are only ever appended. -/
theorem handle_postings (command : Command) (env : Env) (world : World) :
    ∃ more, (handle command env world).2.postings = world.postings ++ more := by
  have still : ∃ more, world.postings = world.postings ++ more := ⟨[], (List.append_nil _).symm⟩
  cases command with
  | query query => rwa [handle_query_state]
  | emit record => exact still
  | nextval => cases failed : env.fault <;> simp only [handle, failed] <;> exact still
  | transact transaction =>
    rcases handle_transact_cases transaction env world with same | ⟨after, applied, same⟩
    · rwa [same]
    rw [same]
    cases transaction with
    | insertAccount code name nameKey category audit =>
      obtain ⟨_, _, rfl⟩ := insertAccount_ok applied
      exact still
    | updateAccount loaded name nameKey category audit =>
      rcases updateAccount_ok applied with ⟨_, rfl⟩ | ⟨_, _, rfl⟩ <;> exact still
    | deleteAccount loaded audit =>
      rw [deleteAccount_ok applied]
      exact still
    | insertJournal header lines =>
      obtain ⟨_, _, _, _, rfl⟩ := insertJournal_ok applied
      exact still
    | insertPostings postings =>
      obtain ⟨stored, rfl⟩ := insertPostings_appends applied
      exact ⟨stored, rfl⟩

theorem postings_of_reaches {Thread : Type} [DecidableEq Thread]
    {pool later : Pool Thread Command Reply Raised Response World}
    (further : Reaches handle (fun _ _ _ _ => True) pool later) :
    ∃ more, later.state.postings = pool.state.postings ++ more := by
  induction further with
  | refl => exact ⟨[], (List.append_nil _).symm⟩
  | step before env asks permitted inductionHypothesis =>
    obtain ⟨earlier, appended⟩ := inductionHypothesis
    obtain ⟨more, added⟩ := handle_postings _ env _
    rw [Pool.step_of_ask asks]
    exact ⟨earlier ++ more, by rw [added, appended, List.append_assoc]⟩

section Period

variable {world after : World} {asOfDate : Option Timestamp} {envs envs' : Nat → Env}
  {report report' : TrialBalanceViewModel}

/-- The rows of a report that is returned. -/
theorem rows_of_reported
    (reported : ((TrialBalanceService.getTrialBalance asOfDate).run handle envs world).1 =
      .ok report) :
    fromRows PostgresTrialBalanceRepo.toDomain
      (Query.rows (envs 0) world (.accountBalances asOfDate)) = .ok report.entries := by
  simp only [TrialBalanceService.getTrialBalance, PostgresTrialBalanceRepo.getAccountBalances,
    bind_assoc] at reported
  cases failed : (envs 0).fault with
  | some fault =>
    simp only [execute, Program.ask_bind, Program.run, handle, failed] at reported
    cases reported
  | none =>
    rw [run_execute_bind failed] at reported
    cases rebuilt : fromRows PostgresTrialBalanceRepo.toDomain
        (Query.rows (envs 0) world (.accountBalances asOfDate)) with
    | error error =>
      simp only [rebuilt] at reported
      cases reported
    | ok entries =>
      simp only [rebuilt] at reported
      cases reported
      rfl

/-- Appended postings that the store did not have before are new. -/
theorem new_of_appended (kept : world.KeepsLedger after) {more : List (PostingModel Money)}
    (appended : after.postings = world.postings ++ more) {posting : PostingModel Money}
    (member : posting ∈ more) : posting ∉ world.postings := by
  intro stored
  have listed : posting ∈ world.postingsOf posting.journalNumber :=
    mem_postingsOf.mpr ⟨stored, rfl⟩
  have same := kept.postings _ (List.ne_nil_of_mem listed)
  rw [World.postingsOf, appended, List.filter_append] at same
  have none := List.append_right_eq_self.mp same
  exact List.not_mem_nil (none ▸ List.mem_filter.mpr ⟨member, decide_eq_true rfl⟩)

/-- One more posting under a key raises a total of the key. -/
theorem total_grows (sound : after.Sound) (fewer : List (PostingModel Money))
    {more : List (PostingModel Money)} {key : String}
    (stored : ∀ posting ∈ more, posting ∈ after.postings) {posting : PostingModel Money}
    (member : posting ∈ more) (own : accountLookupKey posting.account = key) :
    postedTotal PostingModel.debitAmount (postingsUnder key fewer) <
        postedTotal PostingModel.debitAmount (postingsUnder key (fewer ++ more)) ∨
      postedTotal PostingModel.creditAmount (postingsUnder key fewer) <
        postedTotal PostingModel.creditAmount (postingsUnder key (fewer ++ more)) := by
  have split : ∀ amount : PostingModel Money → Money,
      postedTotal amount (postingsUnder key (fewer ++ more)) =
        postedTotal amount (postingsUnder key fewer) +
          postedTotal amount (postingsUnder key more) := fun amount => by
    simp only [postedTotal, exactTotal, postingsUnder, List.filter_append, List.map_append,
      List.sum_append]
  have single : [posting].Sublist (postingsUnder key more) :=
    List.singleton_sublist.mpr (List.mem_filter.mpr ⟨member, decide_eq_true own⟩)
  have nonneg : ∀ other ∈ postingsUnder key more,
      0 ≤ other.debitAmount.cents ∧ 0 ≤ other.creditAmount.cents :=
    fun other listed => sound.posting_nonneg (stored other (List.mem_of_mem_filter listed))
  have value : ∀ amount : PostingModel Money → Money, 0 < (amount posting).cents →
      0 < postedTotal amount [posting] := fun amount positive => by
    simp only [postedTotal, exactTotal, List.map_cons, List.map_nil, List.sum_singleton,
      Money.toDecimal, Decimal.toRat]
    positivity
  obtain ⟨header, posted, listed⟩ := sound.posted_listing (stored posting member)
  have oneSide := (posted.posting sound listed).2.1
  rw [exactlyOneSide, Bool.or_eq_true, Bool.and_eq_true, Bool.and_eq_true, decide_eq_true_eq,
    decide_eq_true_eq] at oneSide
  rw [split, split]
  refine oneSide.imp (fun debit => ?_) fun credit => ?_
  · exact lt_add_of_pos_right _ ((value _ debit.1).trans_le
      (postedTotal_mono single fun other present => (nonneg other present).1))
  · exact lt_add_of_pos_right _ ((value _ credit.1).trans_le
      (postedTotal_mono single fun other present => (nonneg other present).2))

/-- A report of a later store has the rows of an earlier one with no smaller totals, and is the
same exactly when nothing dated in its period was posted in between. -/
theorem report_of_later (sound : world.Sound) (soundAfter : after.Sound)
    (kept : world.KeepsLedger after) {more : List (PostingModel Money)}
    (appended : after.postings = world.postings ++ more)
    (collation : (envs 0).collate = (envs' 0).collate)
    (reported : ((TrialBalanceService.getTrialBalance asOfDate).run handle envs world).1 =
      .ok report)
    (reported' : ((TrialBalanceService.getTrialBalance asOfDate).run handle envs' after).1 =
      .ok report') :
    (∀ row ∈ report.entries, ∃ other ∈ report'.entries,
      accountLookupKey other.account = accountLookupKey row.account ∧
        row.debitTotal.toRat ≤ other.debitTotal.toRat ∧
        row.creditTotal.toRat ≤ other.creditTotal.toRat) ∧
    (report'.entries = report.entries ↔ ∀ posting ∈ after.postings,
      covered asOfDate posting.postingDate = true → posting ∈ world.postings) := by
  have scope : after.postingsInScope asOfDate = world.postingsInScope asOfDate ++
      more.filter fun posting => covered asOfDate posting.postingDate := by
    rw [World.postingsInScope, appended, List.filter_append]
    rfl
  have covers := covers_of_returned sound reported
  have covers' := covers_of_returned soundAfter reported'
  have nonneg : ∀ posting ∈ after.postingsInScope asOfDate,
      0 ≤ posting.debitAmount.cents ∧ 0 ≤ posting.creditAmount.cents :=
    fun posting member => soundAfter.posting_nonneg (List.mem_of_mem_filter member)
  have sublist : (world.postingsInScope asOfDate).Sublist (after.postingsInScope asOfDate) :=
    scope ▸ List.sublist_append_left _ _
  refine ⟨fun row member => ?_, fun same posting member inPeriod => ?_, fun none => ?_⟩
  · obtain ⟨posting, listed, own⟩ := (covers.covers _).mp ⟨row, member, rfl⟩
    obtain ⟨other, present, key⟩ := (covers'.covers _).mpr ⟨posting, sublist.subset listed, own⟩
    refine ⟨other, present, key, ?_, ?_⟩
    · rw [covers.debits row member, covers'.debits other present, key]
      exact postedTotal_mono (sublist.filter _)
        fun posting under => (nonneg posting (List.mem_of_mem_filter under)).1
    · rw [covers.credits row member, covers'.credits other present, key]
      exact postedTotal_mono (sublist.filter _)
        fun posting under => (nonneg posting (List.mem_of_mem_filter under)).2
  · rw [appended] at member
    refine (List.mem_append.mp member).resolve_right fun new => ?_
    have added : posting ∈ more.filter fun posting => covered asOfDate posting.postingDate :=
      List.mem_filter.mpr ⟨new, inPeriod⟩
    have listed : posting ∈ after.postingsInScope asOfDate :=
      scope ▸ List.mem_append_right _ added
    obtain ⟨row, present, own⟩ := (covers'.covers _).mpr ⟨posting, listed, rfl⟩
    have present' : row ∈ report.entries := same ▸ present
    have grows := total_grows soundAfter (world.postingsInScope asOfDate)
      (fun other more => appended ▸ List.mem_append_right _ (List.mem_of_mem_filter more)) added
      own.symm
    rw [← scope, ← covers.debits row present', ← covers'.debits row present,
      ← covers.credits row present', ← covers'.credits row present] at grows
    exact grows.elim (lt_irrefl _) (lt_irrefl _)
  · have noneNew : (more.filter fun posting => covered asOfDate posting.postingDate) = [] := by
      refine List.filter_eq_nil_iff.mpr fun posting new inPeriod => ?_
      exact new_of_appended kept appended new
        (none posting (appended ▸ List.mem_append_right _ new) inPeriod)
    rw [noneNew, List.append_nil] at scope
    have rows := rows_of_reported reported
    have rows' := rows_of_reported reported'
    rw [Query.rows, scope, ← collation] at rows'
    exact Except.ok.inj (rows'.symm.trans rows)

end Period

/-- A report on a past period is final until something is posted that is dated in it. Two reports
for one cutoff, one on a later state of a run, have the same rows exactly when no such posting was
added in between; and in any case no row is lost and no total falls. -/
theorem report_final_iff {Thread : Type} [DecidableEq Thread] (calls : Thread → Call)
    {start : World} (sound : start.Sound)
    {pool later : Pool Thread Command Reply Raised Response World}
    (reaches : Reaches handle (fun _ _ _ _ => True)
      ⟨start, fun thread => (calls thread).program⟩ pool)
    (further : Reaches handle (fun _ _ _ _ => True) pool later) {asOfDate : Option Timestamp}
    {envs envs' : Nat → Env} (collation : (envs 0).collate = (envs' 0).collate)
    {report report' : TrialBalanceViewModel}
    (reported : ((TrialBalanceService.getTrialBalance asOfDate).run handle envs pool.state).1 =
      .ok report)
    (reported' : ((TrialBalanceService.getTrialBalance asOfDate).run handle envs'
      later.state).1 = .ok report') :
    (∀ row ∈ report.entries, ∃ other ∈ report'.entries,
      accountLookupKey other.account = accountLookupKey row.account ∧
        row.debitTotal.toRat ≤ other.debitTotal.toRat ∧
        row.creditTotal.toRat ≤ other.creditTotal.toRat) ∧
    (report'.entries = report.entries ↔ ∀ posting ∈ later.state.postings,
      covered asOfDate posting.postingDate = true → posting ∈ pool.state.postings) := by
  obtain ⟨more, appended⟩ := postings_of_reaches further
  exact report_of_later (pool_sound calls sound reaches).1.invariant
    (pool_sound calls sound (reaches.trans further)).1.invariant
    (pool_keepsLedger sound reaches further) appended collation reported reported'

/-- The database and the clock answer after the sale. -/
def eveningEnvs : Nat → Env :=
  fun _ => Env.calm 1700000000000000

/-- The cash account of a posted sale, in another spelling. -/
theorem statements_reconcile_of_sale : ∃ report views,
    ((TrialBalanceService.getTrialBalance none).run handle eveningEnvs
      salePosted.state).1 = .ok report ∧
    ((PostingService.getPostingsByAccount "CASH").run handle eveningEnvs
      salePosted.state).1 = .ok views ∧
    ∃ row ∈ report.entries, row.debitTotal.toRat =
      viewTotal PostingViewModel.debitAmount (coveredViews none views) := by
  have soundNow := (pool_sound saleReaders empty_sound salePosted_reaches).1.invariant
  have calm : (eveningEnvs 0).fault = none := rfl
  obtain ⟨entries, _, reported⟩ := getTrialBalance_returns soundNow none calm
  have stated : (((PostingService.getPostingsByAccount "CASH").run handle eveningEnvs
      salePosted.state).1.toOption.map List.length) = some 1 := by decide +kernel
  cases returned : ((PostingService.getPostingsByAccount "CASH").run handle eveningEnvs
      salePosted.state).1 with
  | error error =>
    rw [returned] at stated
    cases stated
  | ok views =>
    rw [returned] at stated
    obtain ⟨rows, totals⟩ := statements_reconcile saleReaders empty_sound salePosted_reaches
      reported returned
    have all : coveredViews none views = views := List.filter_eq_self.mpr fun _ _ => rfl
    have some' : coveredViews none views ≠ [] := by
      rw [all]
      rintro rfl
      cases stated
    obtain ⟨row, member, own⟩ := rows.mpr some'
    exact ⟨_, views, reported, rfl, row, member, (totals row member own).1⟩

/-- A report up to the day before the sale does not change when the sale is posted. -/
theorem report_final_of_sale : ∃ report report',
    ((TrialBalanceService.getTrialBalance (some 1599999999999999)).run handle eveningEnvs
      World.empty).1 = .ok report ∧
    ((TrialBalanceService.getTrialBalance (some 1599999999999999)).run handle eveningEnvs
      salePosted.state).1 = .ok report' ∧
    salePosted.state.postings.length = 2 ∧ report'.entries = report.entries := by
  have soundNow := (pool_sound saleReaders empty_sound salePosted_reaches).1.invariant
  have calm : (eveningEnvs 0).fault = none := rfl
  obtain ⟨entries, _, reported⟩ := getTrialBalance_returns empty_sound (some 1599999999999999) calm
  obtain ⟨entries', _, reported'⟩ := getTrialBalance_returns soundNow (some 1599999999999999) calm
  have outside : (salePosted.state.postings.all fun posting =>
      !covered (some 1599999999999999) posting.postingDate) = true := by decide +kernel
  refine ⟨_, _, reported, reported', by decide +kernel, ?_⟩
  refine (report_final_iff saleReaders empty_sound .refl salePosted_reaches rfl reported
    reported').2.mpr fun posting member inPeriod => ?_
  have out := List.all_eq_true.mp outside posting member
  rw [inPeriod] at out
  cases out

end Trutina
