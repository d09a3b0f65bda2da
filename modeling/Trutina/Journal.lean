/-
This file models journal lines and journal entries. A line names one account and
has value on exactly one side; an entry has at least two lines whose debits and
credits sum to equal numbers in decimal arithmetic of 28 digits, and a naive
date after the first supported day. Validation compares the date with the clock,
so the same values can be rejected today and accepted tomorrow, but what was
accepted stays acceptable while the clock does not run back.
-/

import Trutina.Account

namespace Trutina

/-! ### Fields shared by lines and postings -/

/-- The default context of Python's decimal arithmetic. -/
def decimalContext : Decimal.Context where
  precision := 28
  maxExponent := 999999
  minExponent := -999999
  precision_pos := by decide
  range_nonempty := by decide

/-- Midnight of 2020-01-01, after which every posting date must lie. -/
def earliestPosting : Timestamp := 1577836800000000

/-- Whether two columns of amounts sum to equal numbers. -/
def sumsAgree (debits credits : List Decimal) : Except Decimal.ArithmeticError Bool := do
  let totalDebits ← Decimal.sum decimalContext debits
  let totalCredits ← Decimal.sum decimalContext credits
  return totalDebits.equals totalCredits

/-- The lower bound of an amount. -/
def checkAmount (field : String) (amount : Decimal) :
    Checked {amount : Decimal // 0 ≤ amount.coefficient} :=
  if nonneg : 0 ≤ amount.coefficient then .ok ⟨amount, nonneg⟩
  else reject ErrorCode.greaterThanEqual.value field (.amount amount)

/-- The lower bound of a journal number. -/
def checkJournalNumber (number : Int) : Checked {number : Int // 0 < number} :=
  if positive : 0 < number then .ok ⟨number, positive⟩
  else reject ErrorCode.greaterThan.value "journal_number" (.number number)

/-- The bound of a posting date, and the comparison with the clock. Comparing a date that has a
time zone with the clock's naive reading raises. -/
def checkPostingDate (now : Timestamp) (date : DateTime) :
    Except Raised (Checked {date : Timestamp // earliestPosting < date}) :=
  if after : earliestPosting < date.wallClock then
    match date.offset with
    | some _ => .error .typeError
    | none =>
      if now < date.wallClock then
        .ok (reject ErrorCode.futureDate.value "posting_date" (.date date))
      else .ok (.ok ⟨date.wallClock, after⟩)
  else .ok (reject ErrorCode.greaterThan.value "posting_date" (.date date))

theorem checkAmount_eq_ok_iff {field : String} {amount : Decimal}
    {checked : {amount : Decimal // 0 ≤ amount.coefficient}} :
    checkAmount field amount = .ok checked ↔ checked.val = amount := by
  obtain ⟨value, nonneg⟩ := checked
  unfold checkAmount
  split
  · simp [eq_comm]
  · rename_i negative
    simp only [reject, reduceCtorEq, false_iff]
    rintro rfl
    exact negative nonneg

theorem checkJournalNumber_eq_ok_iff {number : Int} {checked : {number : Int // 0 < number}} :
    checkJournalNumber number = .ok checked ↔ checked.val = number := by
  obtain ⟨value, positive⟩ := checked
  unfold checkJournalNumber
  split
  · simp [eq_comm]
  · rename_i nonpositive
    simp only [reject, reduceCtorEq, false_iff]
    rintro rfl
    exact nonpositive positive

theorem checkPostingDate_eq_ok_iff {now : Timestamp} {date : DateTime}
    {checked : {date : Timestamp // earliestPosting < date}} :
    checkPostingDate now date = .ok (.ok checked) ↔
      date = ⟨checked.val, none⟩ ∧ checked.val ≤ now := by
  obtain ⟨value, after⟩ := checked
  obtain ⟨wallClock, offset⟩ := date
  unfold checkPostingDate
  split
  · cases offset with
    | some offset => simp
    | none =>
      by_cases future : now < wallClock
      · simp only [if_pos future, reject, Except.ok.injEq, reduceCtorEq, DateTime.mk.injEq,
          and_true, false_iff, not_and]
        rintro rfl
        exact not_le.mpr future
      · simp only [if_neg future, Except.ok.injEq, Subtype.mk.injEq, DateTime.mk.injEq, and_true]
        constructor
        · rintro rfl
          exact ⟨rfl, not_lt.mp future⟩
        · exact fun same => same.1
  · rename_i early
    simp only [reject, Except.ok.injEq, reduceCtorEq, DateTime.mk.injEq, false_iff, not_and]
    rintro ⟨rfl, _⟩
    exact absurd after early

/-! ### Journal lines -/

/-- A single debit or credit within a journal entry. -/
structure JournalLine where
  account : String
  debitAmount : Decimal
  creditAmount : Decimal
  account_clean : cleanAccountName account = some account
  account_length : account.length ≤ 100
  debit_nonneg : 0 ≤ debitAmount.coefficient
  credit_nonneg : 0 ≤ creditAmount.coefficient
  one_side : isValidLineAmounts debitAmount creditAmount = true

/-- The fields of a line, as their own validators leave them. -/
def checkLineFields (account : String) (debit credit : Decimal) :=
  (checkAccountName "account" 2 100 account).also
    ((checkAmount "debit_amount" debit).also (checkAmount "credit_amount" credit))

/-- Build a line from raw values. -/
def JournalLine.validate (account : String) (debitAmount creditAmount : Decimal) :
    Except Raised JournalLine :=
  match checkLineFields account debitAmount creditAmount with
  | .error details => .error (.validationError details)
  | .ok (account, debit, credit) =>
    if oneSide : isValidLineAmounts debit.val credit.val = true then
      .ok { account := account.val, debitAmount := debit.val, creditAmount := credit.val,
            account_clean := account.property.1, account_length := account.property.2,
            debit_nonneg := debit.property, credit_nonneg := credit.property,
            one_side := oneSide }
    else .error (.validationError [⟨ErrorCode.invalidLineAmounts.value, [], .model⟩])

theorem JournalLine.validate_eq_ok_iff {account : String} {debit credit : Decimal}
    {line : JournalLine} : JournalLine.validate account debit credit = .ok line ↔
      (cleanAccountName account = some line.account ∧ 2 ≤ account.length ∧
        account.length ≤ 100) ∧ line.debitAmount = debit ∧ line.creditAmount = credit := by
  unfold JournalLine.validate
  constructor
  · intro built
    split at built
    · cases built
    · rename_i checkedAccount checkedDebit checkedCredit fields
      obtain ⟨accountOk, amountsOk⟩ := Checked.also_eq_ok_iff.mp fields
      obtain ⟨debitOk, creditOk⟩ := Checked.also_eq_ok_iff.mp amountsOk
      split at built
      · cases built
        exact ⟨checkAccountName_eq_ok_iff.mp accountOk, checkAmount_eq_ok_iff.mp debitOk,
          checkAmount_eq_ok_iff.mp creditOk⟩
      · cases built
  · rintro ⟨accountOk, rfl, rfl⟩
    have fields : checkLineFields account line.debitAmount line.creditAmount =
        .ok (⟨line.account, line.account_clean, line.account_length⟩,
          ⟨line.debitAmount, line.debit_nonneg⟩, ⟨line.creditAmount, line.credit_nonneg⟩) :=
      Checked.also_eq_ok_iff.mpr ⟨checkAccountName_eq_ok_iff.mpr accountOk,
        Checked.also_eq_ok_iff.mpr ⟨checkAmount_eq_ok_iff.mpr rfl, checkAmount_eq_ok_iff.mpr rfl⟩⟩
    simp only [fields, dif_pos line.one_side]

/-! ### Journal entries -/

/-- A complete double-entry transaction. -/
structure JournalEntry where
  journalNumber : Int
  postingDate : Timestamp
  lines : List JournalLine
  description : Option String
  number_pos : 0 < journalNumber
  date_after : earliestPosting < postingDate
  two_lines : 2 ≤ lines.length
  description_length : ∀ text ∈ description, text.length ≤ 255
  balanced : sumsAgree (lines.map JournalLine.debitAmount) (lines.map JournalLine.creditAmount) =
    .ok true

/-- The number of lines an entry needs. -/
def checkLines (lines : List JournalLine) :
    Checked {lines : List JournalLine // 2 ≤ lines.length} :=
  if enough : 2 ≤ lines.length then .ok ⟨lines, enough⟩
  else reject ErrorCode.tooShort.value "lines"
    (.lines (lines.map fun line => (line.account, line.debitAmount, line.creditAmount)))

theorem no_description : ∀ text ∈ (none : Option String), text.length ≤ 255 := by
  intro text member
  cases member

/-- The upper bound of a description. -/
def checkDescription (description : Option String) :
    Checked {description : Option String // ∀ text ∈ description, text.length ≤ 255} :=
  match description with
  | none => .ok ⟨none, no_description⟩
  | some text =>
    if short : text.length ≤ 255 then
      .ok ⟨some text, fun _ member => Option.some.inj member ▸ short⟩
    else reject ErrorCode.stringTooLong.value "description" (.text text)

/-- Build an entry from raw values, at a reading of the clock. -/
def JournalEntry.validate (now : Timestamp) (journalNumber : Int) (postingDate : DateTime)
    (lines : List JournalLine) (description : Option String) : Except Raised JournalEntry :=
  match checkPostingDate now postingDate with
  | .error error => .error error
  | .ok checkedDate =>
    match (checkJournalNumber journalNumber).also
        (checkedDate.also ((checkLines lines).also (checkDescription description))) with
    | .error details => .error (.validationError details)
    | .ok (number, date, lines, description) =>
      match balanced : sumsAgree (lines.val.map JournalLine.debitAmount)
          (lines.val.map JournalLine.creditAmount) with
      | .error .overflow => .error .overflow
      | .ok false => .error (.validationError [⟨ErrorCode.unbalancedEntry.value, [], .model⟩])
      | .ok true =>
        .ok { journalNumber := number.val, postingDate := date.val, lines := lines.val,
              description := description.val, number_pos := number.property,
              date_after := date.property, two_lines := lines.property,
              description_length := description.property, balanced := balanced }

theorem checkLines_eq_ok_iff {lines : List JournalLine}
    {checked : {lines : List JournalLine // 2 ≤ lines.length}} :
    checkLines lines = .ok checked ↔ checked.val = lines := by
  obtain ⟨value, enough⟩ := checked
  unfold checkLines
  split
  · simp [eq_comm]
  · rename_i few
    simp only [reject, reduceCtorEq, false_iff]
    rintro rfl
    exact few enough

theorem checkDescription_eq_ok_iff {description : Option String}
    {checked : {description : Option String // ∀ text ∈ description, text.length ≤ 255}} :
    checkDescription description = .ok checked ↔ checked.val = description := by
  obtain ⟨value, bounded⟩ := checked
  unfold checkDescription
  split
  · simp [eq_comm]
  · rename_i text
    split
    · simp [eq_comm]
    · rename_i long
      simp only [reject, reduceCtorEq, false_iff]
      rintro rfl
      exact long (bounded text rfl)

/-- An entry is built exactly when its date is naive and not in the future. Everything else its
values must satisfy is part of the entry. -/
theorem JournalEntry.validate_eq_ok_iff {now : Timestamp} {number : Int} {date : DateTime}
    {lines : List JournalLine} {description : Option String} {entry : JournalEntry} :
    JournalEntry.validate now number date lines description = .ok entry ↔
      entry.journalNumber = number ∧ (date = ⟨entry.postingDate, none⟩ ∧ entry.postingDate ≤ now) ∧
        entry.lines = lines ∧ entry.description = description := by
  unfold JournalEntry.validate
  constructor
  · intro built
    split at built
    · cases built
    · rename_i checkedDate dateOk
      split at built
      · cases built
      · rename_i checkedNumber date checkedLines checkedDescription fields
        obtain ⟨numberOk, restOk⟩ := Checked.also_eq_ok_iff.mp fields
        obtain ⟨sameDate, restOk⟩ := Checked.also_eq_ok_iff.mp restOk
        rw [sameDate] at dateOk
        obtain ⟨linesOk, descriptionOk⟩ := Checked.also_eq_ok_iff.mp restOk
        split at built
        · cases built
        · cases built
        · cases built
          exact ⟨checkJournalNumber_eq_ok_iff.mp numberOk, checkPostingDate_eq_ok_iff.mp dateOk,
            checkLines_eq_ok_iff.mp linesOk, checkDescription_eq_ok_iff.mp descriptionOk⟩
  · rintro ⟨rfl, dateOk, rfl, rfl⟩
    have dated : checkPostingDate now date =
        .ok (.ok ⟨entry.postingDate, entry.date_after⟩) := checkPostingDate_eq_ok_iff.mpr dateOk
    rw [dated]
    have fields : (checkJournalNumber entry.journalNumber).also
        (Checked.also (.ok (⟨entry.postingDate, entry.date_after⟩ :
          {date : Timestamp // earliestPosting < date}))
          ((checkLines entry.lines).also (checkDescription entry.description))) =
          .ok (⟨entry.journalNumber, entry.number_pos⟩, ⟨entry.postingDate, entry.date_after⟩,
          ⟨entry.lines, entry.two_lines⟩, ⟨entry.description, entry.description_length⟩) :=
      Checked.also_eq_ok_iff.mpr ⟨checkJournalNumber_eq_ok_iff.mpr rfl,
        Checked.also_eq_ok_iff.mpr ⟨rfl, Checked.also_eq_ok_iff.mpr
          ⟨checkLines_eq_ok_iff.mpr rfl, checkDescription_eq_ok_iff.mpr rfl⟩⟩⟩
    simp only [fields]
    split
    · rename_i overflow
      rw [entry.balanced] at overflow
      cases overflow
    · rename_i unbalanced
      rw [entry.balanced] at unbalanced
      cases unbalanced
    · rfl

/-! ### Inputs and views -/

/-- One line of the input of journal creation. -/
structure JournalLineInput where
  account : String
  debitAmount : Decimal
  creditAmount : Decimal
  account_length : 2 ≤ account.length ∧ account.length ≤ 100
  debit_nonneg : 0 ≤ debitAmount.coefficient
  credit_nonneg : 0 ≤ creditAmount.coefficient

/-- The input of journal creation. The date may carry a time zone. -/
structure CreateJournalInput where
  postingDate : DateTime
  lines : List JournalLineInput
  description : Option String
  two_lines : 2 ≤ lines.length
  description_length : ∀ text ∈ description, text.length ≤ 255

/-- The line input with these fields, where its bounds admit them. -/
def JournalLineInput.accept (account : String) (debitAmount creditAmount : Decimal) :
    Option JournalLineInput :=
  if bounds : (2 ≤ account.length ∧ account.length ≤ 100) ∧ 0 ≤ debitAmount.coefficient ∧
      0 ≤ creditAmount.coefficient then
    some ⟨account, debitAmount, creditAmount, bounds.1, bounds.2.1, bounds.2.2⟩
  else none

/-- The journal input with these fields, where its bounds admit them. -/
def CreateJournalInput.accept (postingDate : DateTime) (lines : List JournalLineInput)
    (description : Option String) : Option CreateJournalInput :=
  if bounds : 2 ≤ lines.length ∧ ∀ text ∈ description, text.length ≤ 255 then
    some ⟨postingDate, lines, description, bounds.1, bounds.2⟩
  else none

/-- What callers see of a line. -/
structure JournalLineViewModel where
  account : String
  debitAmount : Decimal
  creditAmount : Decimal
  deriving DecidableEq, Repr

/-- What callers see of an entry. -/
structure JournalViewModel where
  journalNumber : Int
  postingDate : Timestamp
  description : Option String
  lines : List JournalLineViewModel
  totalDebits : Decimal
  totalCredits : Decimal
  isBalanced : Bool
  deriving DecidableEq, Repr

/-- The view of a line. -/
def toLineView (line : JournalLine) : JournalLineViewModel :=
  { account := line.account, debitAmount := line.debitAmount, creditAmount := line.creditAmount }

/-- The view of an entry. The totals are computed from the lines once more. -/
def toEntryView (entry : JournalEntry) : Except Decimal.ArithmeticError JournalViewModel := do
  let totalDebits ← Decimal.sum decimalContext (entry.lines.map JournalLine.debitAmount)
  let totalCredits ← Decimal.sum decimalContext (entry.lines.map JournalLine.creditAmount)
  return { journalNumber := entry.journalNumber, postingDate := entry.postingDate,
           description := entry.description, lines := entry.lines.map toLineView,
           totalDebits, totalCredits, isBalanced := totalDebits.equals totalCredits }

/-- The totals of an entry exist and agree. -/
theorem sumsAgree_eq_true_iff {debits credits : List Decimal} :
    sumsAgree debits credits = .ok true ↔
      ∃ totalDebits totalCredits, Decimal.sum decimalContext debits = .ok totalDebits ∧
        Decimal.sum decimalContext credits = .ok totalCredits ∧
        totalDebits.equals totalCredits = true := by
  unfold sumsAgree
  cases Decimal.sum decimalContext debits <;> cases Decimal.sum decimalContext credits <;>
    simp [bind, Except.bind, pure, Except.pure]

/-- An entry always has a view. -/
theorem toEntryView_eq_ok (entry : JournalEntry) : ∃ view, toEntryView entry = .ok view ∧
    view.journalNumber = entry.journalNumber ∧ view.postingDate = entry.postingDate ∧
    view.description = entry.description ∧ view.lines = entry.lines.map toLineView ∧
    view.isBalanced = true := by
  obtain ⟨totalDebits, totalCredits, debits, credits, agree⟩ :=
    sumsAgree_eq_true_iff.mp entry.balanced
  refine ⟨{ journalNumber := entry.journalNumber, postingDate := entry.postingDate,
            description := entry.description, lines := entry.lines.map toLineView, totalDebits,
            totalCredits, isBalanced := totalDebits.equals totalCredits }, ?_, rfl, rfl, rfl, rfl,
    agree⟩
  rw [toEntryView, debits, credits]
  rfl

end Trutina
