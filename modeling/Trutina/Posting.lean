/-
This file models ledger postings and the rows of a trial balance. A posting is
the effect of one journal line and obeys the same rules, together with those of
the number and the date of its entry. A row of a report carries two independent
totals for one account, and a report derives its own totals from its rows.
-/

import Trutina.Journal

namespace Trutina

/-! ### Postings -/

/-- The effect of a single journal line on one account. -/
structure LedgerPosting where
  account : String
  debitAmount : Decimal
  creditAmount : Decimal
  journalNumber : Int
  postingDate : Timestamp
  account_clean : cleanAccountName account = some account
  account_length : account.length ≤ 100
  debit_nonneg : 0 ≤ debitAmount.coefficient
  credit_nonneg : 0 ≤ creditAmount.coefficient
  number_pos : 0 < journalNumber
  date_after : earliestPosting < postingDate
  one_side : isValidLineAmounts debitAmount creditAmount = true

/-- Build a posting from raw values, at a reading of the clock. -/
def LedgerPosting.validate (now : Timestamp) (account : String)
    (debitAmount creditAmount : Decimal) (journalNumber : Int) (postingDate : DateTime) :
    Except Raised LedgerPosting :=
  match checkPostingDate now postingDate with
  | .error error => .error error
  | .ok checkedDate =>
    match (checkLineFields account debitAmount creditAmount).also
        ((checkJournalNumber journalNumber).also checkedDate) with
    | .error details => .error (.validationError details)
    | .ok ((⟨account, clean, length⟩, ⟨debit, debitNonneg⟩, ⟨credit, creditNonneg⟩),
        ⟨number, positive⟩, ⟨date, after⟩) =>
      if oneSide : isValidLineAmounts debit credit = true then
        .ok { account, debitAmount := debit, creditAmount := credit, journalNumber := number,
              postingDate := date, account_clean := clean, account_length := length,
              debit_nonneg := debitNonneg, credit_nonneg := creditNonneg,
              number_pos := positive, date_after := after, one_side := oneSide }
      else .error (.validationError [⟨ErrorCode.invalidLineAmounts.value, [], .model⟩])

/-- Whether the posting records a debit movement. -/
def LedgerPosting.isDebit (posting : LedgerPosting) : Bool :=
  decide (0 < posting.debitAmount.coefficient)

theorem LedgerPosting.validate_eq_ok_iff {now : Timestamp} {account : String}
    {debit credit : Decimal} {number : Int} {date : DateTime} {posting : LedgerPosting} :
    LedgerPosting.validate now account debit credit number date = .ok posting ↔
      (cleanAccountName account = some posting.account ∧ 2 ≤ account.length ∧
        account.length ≤ 100) ∧ posting.debitAmount = debit ∧ posting.creditAmount = credit ∧
        posting.journalNumber = number ∧ date = ⟨posting.postingDate, none⟩ ∧
        posting.postingDate ≤ now := by
  unfold LedgerPosting.validate
  constructor
  · intro built
    split at built
    · cases built
    · rename_i checkedDate dateOk
      split at built
      · cases built
      · rename_i checkedAccount checkedDebit checkedCredit checkedNumber date fields
        obtain ⟨lineOk, restOk⟩ := Checked.also_eq_ok_iff.mp fields
        obtain ⟨numberOk, sameDate⟩ := Checked.also_eq_ok_iff.mp restOk
        rw [sameDate] at dateOk
        obtain ⟨accountOk, amountsOk⟩ := Checked.also_eq_ok_iff.mp lineOk
        obtain ⟨debitOk, creditOk⟩ := Checked.also_eq_ok_iff.mp amountsOk
        split at built
        · cases built
          exact ⟨checkAccountName_eq_ok_iff.mp accountOk, checkAmount_eq_ok_iff.mp debitOk,
            checkAmount_eq_ok_iff.mp creditOk, checkJournalNumber_eq_ok_iff.mp numberOk,
            checkPostingDate_eq_ok_iff.mp dateOk⟩
        · cases built
  · rintro ⟨accountOk, rfl, rfl, rfl, dateOk⟩
    have dated : checkPostingDate now date =
        .ok (.ok ⟨posting.postingDate, posting.date_after⟩) :=
      checkPostingDate_eq_ok_iff.mpr dateOk
    have line : checkLineFields account posting.debitAmount posting.creditAmount =
        .ok (⟨posting.account, posting.account_clean, posting.account_length⟩,
          ⟨posting.debitAmount, posting.debit_nonneg⟩,
          ⟨posting.creditAmount, posting.credit_nonneg⟩) :=
      Checked.also_eq_ok_iff.mpr ⟨checkAccountName_eq_ok_iff.mpr accountOk,
        Checked.also_eq_ok_iff.mpr ⟨checkAmount_eq_ok_iff.mpr rfl, checkAmount_eq_ok_iff.mpr rfl⟩⟩
    have number : checkJournalNumber posting.journalNumber =
        .ok ⟨posting.journalNumber, posting.number_pos⟩ := checkJournalNumber_eq_ok_iff.mpr rfl
    rw [dated, line, number]
    simp only [Checked.also, dif_pos posting.one_side]

/-- What callers see of a posting: the amount of the one side that has value. -/
structure PostingViewModel where
  account : String
  debitAmount : Option Decimal
  creditAmount : Option Decimal
  journalNumber : Int
  postingDate : Timestamp
  deriving DecidableEq, Repr

def PostingViewModel.isDebit (view : PostingViewModel) : Bool := view.debitAmount.isSome

/-! ### Trial balances -/

/-- The aggregated activity of one account. -/
structure AccountBalanceEntry where
  account : String
  debitTotal : Decimal
  creditTotal : Decimal
  account_clean : cleanAccountName account = some account
  account_length : account.length ≤ 100
  debit_nonneg : 0 ≤ debitTotal.coefficient
  credit_nonneg : 0 ≤ creditTotal.coefficient

/-- Build a row from raw values. -/
def AccountBalanceEntry.validate (account : String) (debitTotal creditTotal : Decimal) :
    Except Raised AccountBalanceEntry :=
  Checked.raise <|
    ((checkAccountName "account" 2 100 account).also
      ((checkAmount "debit_total" debitTotal).also
        (checkAmount "credit_total" creditTotal))).map
      fun (⟨account, clean, length⟩, ⟨debit, debitNonneg⟩, ⟨credit, creditNonneg⟩) =>
        { account, debitTotal := debit, creditTotal := credit, account_clean := clean,
          account_length := length, debit_nonneg := debitNonneg, credit_nonneg := creditNonneg }

theorem AccountBalanceEntry.validate_eq_ok_iff {account : String} {debit credit : Decimal}
    {entry : AccountBalanceEntry} :
    AccountBalanceEntry.validate account debit credit = .ok entry ↔
      (cleanAccountName account = some entry.account ∧ 2 ≤ account.length ∧
        account.length ≤ 100) ∧ entry.debitTotal = debit ∧ entry.creditTotal = credit := by
  rw [AccountBalanceEntry.validate, Checked.raise_eq_ok_iff, map_eq_ok_iff]
  constructor
  · rintro ⟨⟨⟨name, clean, length⟩, ⟨checkedDebit, _⟩, ⟨checkedCredit, _⟩⟩, fields, rfl⟩
    obtain ⟨accountOk, amountsOk⟩ := Checked.also_eq_ok_iff.mp fields
    obtain ⟨debitOk, creditOk⟩ := Checked.also_eq_ok_iff.mp amountsOk
    exact ⟨checkAccountName_eq_ok_iff.mp accountOk, checkAmount_eq_ok_iff.mp debitOk,
      checkAmount_eq_ok_iff.mp creditOk⟩
  · rintro ⟨accountOk, rfl, rfl⟩
    refine ⟨(⟨entry.account, entry.account_clean, entry.account_length⟩,
      ⟨entry.debitTotal, entry.debit_nonneg⟩, ⟨entry.creditTotal, entry.credit_nonneg⟩), ?_, rfl⟩
    exact Checked.also_eq_ok_iff.mpr ⟨checkAccountName_eq_ok_iff.mpr accountOk,
      Checked.also_eq_ok_iff.mpr ⟨checkAmount_eq_ok_iff.mpr rfl, checkAmount_eq_ok_iff.mpr rfl⟩⟩

/-- A complete trial balance. -/
structure TrialBalanceViewModel where
  entries : List AccountBalanceEntry
  asOfDate : Option Timestamp

/-- The totals are computed from the rows at every access. -/
def TrialBalanceViewModel.totalDebits (report : TrialBalanceViewModel) :
    Except Decimal.ArithmeticError Decimal :=
  Decimal.sum decimalContext (report.entries.map AccountBalanceEntry.debitTotal)

def TrialBalanceViewModel.totalCredits (report : TrialBalanceViewModel) :
    Except Decimal.ArithmeticError Decimal :=
  Decimal.sum decimalContext (report.entries.map AccountBalanceEntry.creditTotal)

def TrialBalanceViewModel.isBalanced (report : TrialBalanceViewModel) :
    Except Decimal.ArithmeticError Bool := do
  let totalDebits ← report.totalDebits
  let totalCredits ← report.totalCredits
  return totalDebits.equals totalCredits

end Trutina
