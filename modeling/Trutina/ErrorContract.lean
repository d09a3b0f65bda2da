/-
This file says when the creation of a journal entry raises something else than an
error of the contract. The service translates the findings of validators and
nothing else, so what escapes is what a validator raises without reporting it:
the comparison of an aware date with the naive clock, and a running total beyond
the exponent range. Both come after the actor, the references and the lines have
passed their checks.
-/

import Trutina.Balance
import Trutina.History

namespace Trutina

open Interaction

/-! ### The contract -/

/-- The errors that may leave a service. -/
def Raised.InContract : Raised → Prop
  | .appError _ _ => True
  | .validationAppError _ _ => True
  | _ => False

/-- An outcome that the contract allows. -/
def KeepsContract {Result : Type} (outcome : Except Raised Result) : Prop :=
  ∀ error, outcome = .error error → error.InContract

theorem keepsContract_ok {Result : Type} (result : Result) :
    KeepsContract (.ok result : Except Raised Result) := by
  intro error raised
  cases raised

theorem keepsContract_error {Result : Type} {error : Raised} :
    KeepsContract (.error error : Except Raised Result) ↔ error.InContract := by
  constructor
  · exact fun keeps => keeps error rfl
  · rintro holds _ ⟨⟩
    exact holds

/-! ### What a construction leaves untranslated -/

/-- What the line rules ask of a line of the input. -/
def JournalLineInput.Accepted (line : JournalLineInput) : Prop :=
  (cleanAccountName line.account).isSome ∧
    isValidLineAmounts line.debitAmount line.creditAmount = true

instance (line : JournalLineInput) : Decidable line.Accepted := by
  unfold JournalLineInput.Accepted
  infer_instance

/-- A date with a time zone that passes the lower bound, and is then compared with the clock. -/
def DateTime.ComparesAware (date : DateTime) : Prop :=
  earliestPosting < date.wallClock ∧ date.offset.isSome

/-- A naive date that passes the bound and the comparison. -/
def DateTime.Accepted (now : Timestamp) (date : DateTime) : Prop :=
  earliestPosting < date.wallClock ∧ date.offset = none ∧ date.wallClock ≤ now

/-- The inputs that no validator objects to before one raises: the lines pass their rules, and
the date has a time zone, or everything but the sums passes and a running total overflows. -/
def CreateJournalInput.Escapes (now : Timestamp) (number : Int) (input : CreateJournalInput) :
    Prop :=
  (∀ line ∈ input.lines, line.Accepted) ∧
    (input.postingDate.ComparesAware ∨
      (0 < number ∧ input.postingDate.Accepted now ∧
        (Overflows (input.lines.map JournalLineInput.debitAmount) ∨
          Overflows (input.lines.map JournalLineInput.creditAmount))))

theorem sumsAgree_overflow_iff {debits credits : List Decimal} :
    sumsAgree debits credits = .error .overflow ↔ Overflows debits ∨ Overflows credits := by
  unfold sumsAgree Overflows
  cases left : Decimal.sum decimalContext debits with
  | error error =>
    cases error
    simp [bind, Except.bind]
  | ok total =>
    cases right : Decimal.sum decimalContext credits with
    | error error =>
      cases error
      simp [bind, Except.bind]
    | ok other => simp [bind, Except.bind, pure, Except.pure]

/-- A line of the input is built exactly when it passes the line rules. -/
theorem JournalLineInput.accepted_iff {line : JournalLineInput} :
    line.Accepted ↔ ∃ built,
      JournalLine.validate line.account line.debitAmount line.creditAmount = .ok built := by
  constructor
  · rintro ⟨clean, side⟩
    obtain ⟨name, clean⟩ := Option.isSome_iff_exists.mp clean
    exact ⟨⟨name, line.debitAmount, line.creditAmount, cleanAccountName_idempotent clean,
        (cleanAccountName_length_le clean).trans line.account_length.2, line.debit_nonneg,
        line.credit_nonneg, side⟩,
      JournalLine.validate_eq_ok_iff.mpr ⟨⟨clean, line.account_length⟩, rfl, rfl⟩⟩
  · rintro ⟨built, validated⟩
    obtain ⟨⟨clean, _⟩, debit, credit⟩ := JournalLine.validate_eq_ok_iff.mp validated
    exact ⟨by rw [clean]; rfl, debit ▸ credit ▸ built.one_side⟩

/-- The lines of an input are all built when they all pass. -/
theorem buildLines_of_accepted {lines : List JournalLineInput}
    (accepted : ∀ line ∈ lines, line.Accepted) :
    ∃ built, JournalService.buildLines lines = .ok built ∧
      built.map JournalLine.debitAmount = lines.map JournalLineInput.debitAmount ∧
      built.map JournalLine.creditAmount = lines.map JournalLineInput.creditAmount ∧
      built.length = lines.length := by
  obtain ⟨built, validated⟩ := fromRows_total fun line member =>
    JournalLineInput.accepted_iff.mp (accepted line member)
  have pairs := fromRows_eq_ok_iff.mp validated
  refine ⟨built, validated, ?_, ?_, pairs.length_eq.symm⟩
  · exact pairs.map_eq fun _ _ _ converted =>
      (JournalLine.validate_eq_ok_iff.mp converted).2.1
  · exact pairs.map_eq fun _ _ _ converted =>
      (JournalLine.validate_eq_ok_iff.mp converted).2.2

/-- When one does not pass, its findings are raised. -/
theorem buildLines_of_not_accepted {lines : List JournalLineInput}
    (refused : ¬∀ line ∈ lines, line.Accepted) :
    ∃ details, JournalService.buildLines lines = .error (.validationError details) := by
  cases outcome : JournalService.buildLines lines with
  | ok built =>
    refine absurd (fun line member => JournalLineInput.accepted_iff.mpr ?_) refused
    obtain ⟨value, _, validated⟩ := mem_of_fromRows outcome member
    exact ⟨value, validated⟩
  | error error =>
    obtain ⟨details, rfl⟩ := fromRows_error (fun _ _ => JournalLine.validate_error) outcome
    exact ⟨details, rfl⟩

theorem keepsContract_findings {Result : Type} (details : List ErrorDetail) :
    KeepsContract (translating (.error (.validationError details) : Except Raised Result)) :=
  keepsContract_error.mpr trivial

/-- The check of a date raises when it compares an aware date, and otherwise reports or accepts. -/
theorem checkPostingDate_cases (now : Timestamp) (date : DateTime) :
    (date.ComparesAware ∧ checkPostingDate now date = .error .typeError) ∨
      (¬date.ComparesAware ∧ ∃ checked, checkPostingDate now date = .ok checked ∧
        ((∃ value, checked = .ok value) ↔ date.Accepted now)) := by
  obtain ⟨wallClock, offset⟩ := date
  unfold checkPostingDate DateTime.ComparesAware DateTime.Accepted
  by_cases after : earliestPosting < wallClock
  · cases offset with
    | some offset => exact .inl ⟨⟨after, rfl⟩, dif_pos after⟩
    | none =>
      refine .inr ⟨fun aware => absurd aware.2 Bool.false_ne_true, ?_⟩
      by_cases future : now < wallClock
      · refine ⟨_, (dif_pos after).trans (if_pos future), ?_⟩
        simp [reject, future]
      · refine ⟨_, (dif_pos after).trans (if_neg future), ?_⟩
        simp [after, not_lt.mp future]
  · refine .inr ⟨fun aware => after aware.1, _, dif_neg after, ?_⟩
    simp [reject, after]

/-- What the construction of an entry from valid lines leaves untranslated. -/
theorem JournalEntry.validate_keepsContract_iff {now : Timestamp} {number : Int} {date : DateTime}
    {lines : List JournalLine} {description : Option String} (two : 2 ≤ lines.length)
    (short : ∀ text ∈ description, text.length ≤ 255) :
    KeepsContract (translating (JournalEntry.validate now number date lines description)) ↔
      ¬(date.ComparesAware ∨ (0 < number ∧ date.Accepted now ∧
        (Overflows (lines.map JournalLine.debitAmount) ∨
          Overflows (lines.map JournalLine.creditAmount)))) := by
  rw [← sumsAgree_overflow_iff]
  unfold JournalEntry.validate
  rcases checkPostingDate_cases now date with ⟨aware, checked⟩ | ⟨naive, checked, dated, passes⟩
  · rw [checked]
    simp only [aware, true_or, not_true_eq_false, iff_false]
    exact fun keeps => keeps _ rfl
  rw [dated]
  simp only [naive, false_or, ← passes]
  cases outcome : (checkJournalNumber number).also (checked.also
      ((checkLines lines).also (checkDescription description))) with
  | error details =>
    refine iff_of_true (keepsContract_findings _) ?_
    rintro ⟨positive, ⟨value, rfl⟩, _⟩
    have fields : (checkJournalNumber number).also (Checked.also (.ok value)
        ((checkLines lines).also (checkDescription description))) =
        .ok (⟨number, positive⟩, value, ⟨lines, two⟩, ⟨description, short⟩) :=
      Checked.also_eq_ok_iff.mpr ⟨checkJournalNumber_eq_ok_iff.mpr rfl,
        Checked.also_eq_ok_iff.mpr ⟨rfl, Checked.also_eq_ok_iff.mpr
          ⟨checkLines_eq_ok_iff.mpr rfl, checkDescription_eq_ok_iff.mpr rfl⟩⟩⟩
    rw [fields] at outcome
    cases outcome
  | ok fields =>
    obtain ⟨number', value, lines', description'⟩ := fields
    obtain ⟨numberOk, restOk⟩ := Checked.also_eq_ok_iff.mp outcome
    obtain ⟨dateOk, restOk⟩ := Checked.also_eq_ok_iff.mp restOk
    have positive : 0 < number := checkJournalNumber_eq_ok_iff.mp numberOk ▸ number'.property
    have sameLines := checkLines_eq_ok_iff.mp (Checked.also_eq_ok_iff.mp restOk).1
    simp only [positive, true_and, show ∃ value, checked = .ok value from ⟨value, dateOk⟩]
    rw [← sameLines]
    split
    · rename_i overflow
      exact iff_of_false (fun keeps => keeps _ rfl) (not_not.mpr overflow)
    · rename_i unbalanced
      refine iff_of_true (keepsContract_findings _) ?_
      rw [unbalanced]
      exact fun same => by cases same
    · rename_i balanced
      refine iff_of_true (keepsContract_ok _) ?_
      rw [balanced]
      exact fun same => by cases same

/-- What the construction of an entry from an input leaves untranslated. -/
theorem buildEntry_keepsContract_iff {now : Timestamp} {number : Int}
    {input : CreateJournalInput} :
    KeepsContract (translating (JournalService.buildEntry now number input)) ↔
      ¬input.Escapes now number := by
  unfold JournalService.buildEntry CreateJournalInput.Escapes
  by_cases accepted : ∀ line ∈ input.lines, line.Accepted
  · obtain ⟨built, validated, debits, credits, length⟩ := buildLines_of_accepted accepted
    rw [validated, ← debits, ← credits, and_iff_right accepted]
    exact JournalEntry.validate_keepsContract_iff (length ▸ input.two_lines)
      input.description_length
  · obtain ⟨details, raised⟩ := buildLines_of_not_accepted accepted
    rw [raised]
    exact iff_of_true (keepsContract_findings details) fun escapes => accepted escapes.1

/-! ### The service -/

/-- A call reaches the construction of its entry: the actor is not blank, the chart is read and
resolves every line, and a number is drawn. -/
def ReachesConstruction (envs : Nat → Env) (world : World) (input : CreateJournalInput)
    (actor : String) : Prop :=
  isNonBlankActor actor = true ∧
    (∃ chart, (AccountService.getChart.run handle envs world).1 = .ok chart ∧
      ∀ line ∈ input.lines, ∃ account, chart.getByName line.account = some account) ∧
    (envs 1).fault = none

section Service

variable {envs : Nat → Env} {world : World} {Result : Type}

/-- The chart is read by one command. -/
theorem run_getChart_bind {continuation : ChartOfAccounts → Action Result} :
    (AccountService.getChart >>= continuation).run handle envs world =
      match (AccountService.getChart.run handle envs world).1 with
      | .ok chart => (continuation chart).run handle (fun step => envs (step + 1)) world
      | .error error => (.error error, world) := by
  simp only [AccountService.getChart, PostgresAccountRepo.listAll, bind_assoc]
  cases failed : (envs 0).fault with
  | some fault =>
    simp only [execute, Program.ask_bind, Program.run, handle, failed]
    rfl
  | none =>
    rw [run_execute_bind failed, run_execute_bind failed]
    cases rebuilt : fromRows PostgresAccountRepo.toDomain
        (Query.rows (envs 0) world .allAccounts) with
    | error error => rfl
    | ok accounts =>
      rw [run_lift_bind_ok rfl, run_lift_bind_ok rfl, run_lift]
      cases ChartOfAccounts.validate accounts <;> rfl

/-- A number is drawn unless the sequence fails. -/
theorem run_nextJournalNumber_bind {continuation : Int × Timestamp → Action Result} :
    (PostgresJournalRepo.nextJournalNumber >>= continuation).run handle envs world =
      match (envs 0).fault with
      | some fault => (.error (translatePostgresErrors (.failed fault)), world)
      | none => (continuation (world.nextJournalNumber, (envs 0).now)).run handle
          (fun step => envs (step + 1))
          { world with nextJournalNumber := world.nextJournalNumber + 1 } := by
  cases failed : (envs 0).fault <;>
    simp only [PostgresJournalRepo.nextJournalNumber, Program.ask_bind, Program.run, handle,
      failed] <;> rfl

theorem resolveLines_inContract {chart : ChartOfAccounts} {lines : List JournalLineInput}
    {error : Raised} (raised : JournalService.resolveLines chart lines = .error error) :
    error.InContract := by
  obtain ⟨reference, rfl⟩ := resolveLines_error raised
  trivial

theorem translatePostgresErrors_inContract (fault : Fault) :
    (translatePostgresErrors (.failed fault)).InContract := by
  cases fault <;> trivial

/-- Storing an entry raises errors of the contract only, and an entry always has a view. -/
theorem save_keepsContract {entry : JournalEntry} {actor event : String}
    {context : List (String × LogValue)} :
    KeepsContract ((do
      PostgresJournalRepo.save entry actor
      logInfo event context
      JournalService.computing (toEntryView entry) : Action JournalViewModel).run
        handle envs world).1 := by
  obtain ⟨view, viewed, _⟩ := toEntryView_eq_ok entry
  rw [PostgresJournalRepo.save, commitOr_eq, Program.ask_bind, Program.run_ask]
  generalize (handle (.transact _) (envs 0) world).1 = reply
  obtain ⟨(constraint | fault) | done, now⟩ := reply
  · exact keepsContract_error.mpr trivial
  · exact keepsContract_error.mpr (translatePostgresErrors_inContract fault)
  · rw [viewed]
    exact keepsContract_ok view

/-- Alone, `create_journal_entry` returns or raises an error of the contract, exactly when it does
not reach the construction of an entry or the input does not escape it. -/
theorem createJournalEntry_keepsContract_iff {input : CreateJournalInput} {actor : String}
    (chartReads : KeepsContract (AccountService.getChart.run handle envs world).1) :
    KeepsContract ((JournalService.createJournalEntry input actor).run handle envs world).1 ↔
      ¬(ReachesConstruction envs world input actor ∧
        input.Escapes (envs 1).now world.nextJournalNumber) := by
  unfold JournalService.createJournalEntry JournalService.validateAccounts ReachesConstruction
  by_cases named : isNonBlankActor actor = true
  case neg =>
    refine iff_of_true ?_ fun reaches => named reaches.1.1
    rw [requireActor, if_neg named]
    exact keepsContract_error.mpr trivial
  rw [run_lift_bind_ok (requireActor_ok named), bind_assoc, run_getChart_bind]
  cases read : (AccountService.getChart.run handle envs world).1 with
  | error error =>
    refine iff_of_true (keepsContract_error.mpr (chartReads error read)) ?_
    rintro ⟨⟨_, ⟨_, other, _⟩, _⟩, _⟩
    cases other
  | ok chart =>
    simp only [← resolveLines_eq_ok_iff]
    cases resolved : JournalService.resolveLines chart input.lines with
    | error error =>
      refine iff_of_true (keepsContract_error.mpr (resolveLines_inContract resolved)) ?_
      rintro ⟨⟨_, ⟨_, same, other⟩, _⟩, _⟩
      rw [← Except.ok.inj same, resolved] at other
      cases other
    | ok value =>
      rw [run_lift_bind_ok rfl, run_nextJournalNumber_bind]
      cases failed : (envs 1).fault with
      | some fault =>
        refine iff_of_true (keepsContract_error.mpr (translatePostgresErrors_inContract fault)) ?_
        rintro ⟨⟨_, _, other⟩, _⟩
        cases other
      | none =>
        have escapes : (isNonBlankActor actor = true ∧
            (∃ chart', (.ok chart : Except Raised ChartOfAccounts) = .ok chart' ∧
              JournalService.resolveLines chart' input.lines = .ok ()) ∧
              (none : Option Fault) = none) ∧
              input.Escapes (envs 1).now world.nextJournalNumber ↔
            input.Escapes (envs 1).now world.nextJournalNumber :=
          and_iff_right ⟨named, ⟨chart, rfl, resolved⟩, rfl⟩
        rw [escapes, ← buildEntry_keepsContract_iff]
        simp only
        cases built : translating
            (JournalService.buildEntry (envs 1).now world.nextJournalNumber input) with
        | error error => exact keepsContract_error.trans keepsContract_error.symm
        | ok entry =>
          rw [run_lift_bind_ok rfl]
          exact iff_of_true save_keepsContract (keepsContract_ok entry)

end Service

/-- A chart with two accounts. -/
def twoAccounts : World :=
  { World.empty with
    accounts := [⟨1, "1000", "Cash", "cash", .asset⟩, ⟨2, "4000", "Sales", "sales", .revenue⟩]
    nextAccountId := 3 }

/-- A debit of 12.50 and its credit, dated with a time zone. -/
def awareInput : CreateJournalInput :=
  (CreateJournalInput.accept ⟨1650000000000000, some 0⟩
    [(JournalLineInput.accept "Cash" ⟨1250, -2⟩ ⟨0, 0⟩).get (.refl true),
      (JournalLineInput.accept "Sales" ⟨0, 0⟩ ⟨1250, -2⟩).get (.refl true)] none).get (.refl true)

/-- Two debits of `9E+999999`, each within the exponent range. -/
def hugeInput : CreateJournalInput :=
  (CreateJournalInput.accept ⟨1650000000000000, none⟩
    [(JournalLineInput.accept "Cash" ⟨9, 999999⟩ ⟨0, 0⟩).get (.refl true),
      (JournalLineInput.accept "Cash" ⟨9, 999999⟩ ⟨0, 0⟩).get (.refl true),
      (JournalLineInput.accept "Sales" ⟨0, 0⟩ ⟨1, 0⟩).get (.refl true)] none).get (.refl true)

/-- A naive date keeps the contract. -/
def naiveInput : CreateJournalInput := { awareInput with postingDate := ⟨1650000000000000, none⟩ }

theorem createJournalEntry_keepsContract_of_naive :
    KeepsContract ((JournalService.createJournalEntry naiveInput "alice").run handle
      (fun _ => Env.calm 1700000000000000) twoAccounts).1 := by
  refine (createJournalEntry_keepsContract_iff ?_).mpr ?_
  · have reads : (AccountService.getChart.run handle (fun _ => Env.calm 1700000000000000)
        twoAccounts).1.toOption.isSome = true := by decide +kernel
    intro error raised
    rw [raised] at reads
    cases reads
  · rintro ⟨_, _, aware | ⟨_, _, overflows⟩⟩
    · exact absurd aware.2 (by decide)
    · exact absurd overflows (by decide +kernel)

/-- An aware date and a running total out of range leave the service untranslated. -/
theorem createJournalEntry_escapes :
    (((JournalService.createJournalEntry awareInput "alice").run handle
        (fun _ => Env.calm 1700000000000000) twoAccounts).1 = .error .typeError ∧
      ((JournalService.createJournalEntry hugeInput "alice").run handle
        (fun _ => Env.calm 1700000000000000) twoAccounts).1 = .error .overflow) ∧
    ¬Raised.typeError.InContract ∧ ¬Raised.overflow.InContract :=
  ⟨⟨by decide +kernel, by decide +kernel⟩, id, id⟩

end Trutina
