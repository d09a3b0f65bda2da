/-
This file proves which accounts can be used. Names pass through five schemas on
the way to a report, and only the first admits more than 100 characters. In every
state that any interleaving of calls leads to, a debit of one stored account
against a credit of another can be written down, stored, posted and reported,
exactly when both names have at most 100 characters and the chart can be built
at all: every stored name has two characters and no two names share a lookup
key.
-/

import Trutina.Completion

namespace Trutina

open Interaction

/-! ### Exchanges -/

/-- A debit of one account against a credit of another: two positive amounts of one value with at
most two decimals, within `numeric(18, 2)`, each with a zero on its other side, and a date after
the first supported day. -/
structure Exchange where
  debitAccount : String
  creditAccount : String
  debit : Decimal
  uncredited : Decimal
  credit : Decimal
  undebited : Decimal
  debitFirst : Bool
  postingDate : Timestamp
  description : Option String
  positive : 0 < debit.coefficient
  equal : debit.equals credit = true
  uncredited_zero : uncredited.coefficient = 0
  undebited_zero : undebited.coefficient = 0
  places : debit.HasPlaces 2
  fits : (Decimal.roundHalfUp 2 debit).natAbs < 10 ^ 18
  date_after : earliestPosting < postingDate
  description_length : ∀ text ∈ description, text.length ≤ 255

namespace Exchange

/-- Two lines, in either order. -/
def arrange {Line : Type} (exchange : Exchange) (debitLine creditLine : Line) : List Line :=
  if exchange.debitFirst then [debitLine, creditLine] else [creditLine, debitLine]

/-- The input that asks for the exchange, where its bounds admit it. -/
def input (exchange : Exchange) : Option CreateJournalInput := do
  let debitLine ←
    JournalLineInput.accept exchange.debitAccount exchange.debit exchange.uncredited
  let creditLine ←
    JournalLineInput.accept exchange.creditAccount exchange.undebited exchange.credit
  CreateJournalInput.accept ⟨exchange.postingDate, none⟩ (exchange.arrange debitLine creditLine)
    exchange.description

/-- The conditions and the actors of the three calls. -/
structure Course where
  create : Nat → Env
  creator : String
  post : Nat → Env
  poster : String
  report : Nat → Env
  asOfDate : Option Timestamp

/-- Nothing fails, the actors are named, and the date is neither in the future nor past the date of
the report. -/
structure Course.Fair (course : Course) (date : Timestamp) : Prop where
  create : Uneventful date course.create
  creator : isNonBlankActor course.creator = true
  post : Uneventful date course.post
  poster : isNonBlankActor course.poster = true
  report : Uneventful date course.report
  covered : ∀ cutoff ∈ course.asOfDate, date ≤ cutoff

/-- The exchange can be asked for, is stored and posted, and a report shows both accounts. -/
def Works (exchange : Exchange) (course : Course) (world : World) : Prop :=
  ∃ input view created views posted report,
    exchange.input = some input ∧
    (JournalService.createJournalEntry input course.creator).run handle course.create world =
      (.ok view, created) ∧
    (PostingService.postJournalEntry view.journalNumber course.poster).run handle course.post
      created = (.ok views, posted) ∧
    ((TrialBalanceService.getTrialBalance course.asOfDate).run handle course.report posted).1 =
      .ok report ∧
    ∀ name ∈ [exchange.debitAccount, exchange.creditAccount], ∃ row ∈ report.entries,
      accountLookupKey row.account = accountLookupKey name

variable {exchange : Exchange}

theorem mem_arrange {Line : Type} {line debitLine creditLine : Line} :
    line ∈ exchange.arrange debitLine creditLine ↔ line = debitLine ∨ line = creditLine := by
  unfold arrange
  cases exchange.debitFirst <;> simp [or_comm]

theorem map_arrange {Line Value : Type} (value : Line → Value) (debitLine creditLine : Line) :
    (exchange.arrange debitLine creditLine).map value =
      exchange.arrange (value debitLine) (value creditLine) := by
  unfold arrange
  cases exchange.debitFirst <;> rfl

/-- The amount of the exchange. -/
def money (exchange : Exchange) : Money := ⟨Decimal.roundHalfUp 2 exchange.debit, exchange.fits⟩

theorem money_value :
    exchange.debit.toRat = exchange.money.toDecimal.toRat ∧
      exchange.credit.toRat = exchange.money.toDecimal.toRat := by
  have debit : exchange.debit.toRat = exchange.money.toDecimal.toRat :=
    (Decimal.equals_iff.mp (Decimal.hasPlaces_iff.mp exchange.places)).symm
  exact ⟨debit, (Decimal.equals_iff.mp exchange.equal).symm.trans debit⟩

theorem money_pos : 0 < exchange.money.cents :=
  (positive_of_value money_value.1).mp exchange.positive

theorem zero_value {amount : Decimal} (zero : amount.coefficient = 0) :
    amount.toRat = (Money.mk 0 (by decide)).toDecimal.toRat := by
  simp [Decimal.toRat, Money.toDecimal, zero]

/-- Its columns agree, in either order of the lines. -/
theorem sumsAgree_arrange :
    sumsAgree (exchange.arrange exchange.debit exchange.undebited)
      (exchange.arrange exchange.uncredited exchange.credit) = .ok true := by
  have amount : exchange.money.toDecimal.toRat =
      (exchange.money.units : ℚ) * 10 ^ (-2 : Int) := by
    rw [toDecimal_eq_units money_pos.le, Decimal.toRat, Int.cast_natCast]
  have small : exchange.money.units < 10 ^ 28 := by
    have bounded := exchange.money.bounded
    have positive := exchange.money_pos
    rw [Money.units]
    omega
  have zero : ∀ number : Decimal, number.coefficient = 0 → number.toRat = 0 :=
    fun number zero => by rw [Decimal.toRat, zero, Int.cast_zero, zero_mul]
  have debits : (exchange.arrange exchange.debit exchange.undebited).map Decimal.toRat =
      (exchange.arrange exchange.money.units 0).map
        fun count : Nat => (count : ℚ) * 10 ^ (-2 : Int) := by
    rw [map_arrange, map_arrange, money_value.1, amount, zero _ exchange.undebited_zero,
      Nat.cast_zero, zero_mul]
  have credits : (exchange.arrange exchange.uncredited exchange.credit).map Decimal.toRat =
      (exchange.arrange 0 exchange.money.units).map
        fun count : Nat => (count : ℚ) * 10 ^ (-2 : Int) := by
    rw [map_arrange, map_arrange, money_value.2, amount, zero _ exchange.uncredited_zero,
      Nat.cast_zero, zero_mul]
  have total : ∀ first second : Nat, (exchange.arrange first second).sum = first + second := by
    intro first second
    unfold arrange
    cases exchange.debitFirst <;> simp [add_comm]
  refine (sumsAgree_iff_of_fits (fitsPrecision_of_cents _ debits ?_)
    (fitsPrecision_of_cents _ credits ?_)).mpr ?_
  · rwa [total, add_zero]
  · rwa [total, zero_add]
  · rw [exactTotal, exactTotal, debits, credits, List.sum_map_mul_right, List.sum_map_mul_right,
      ← Nat.cast_list_sum, ← Nat.cast_list_sum, total, total, add_comm]

/-- The exchange can be asked for when the bounds of a line reference admit both names. -/
theorem input_of_bounds
    (debitBounds : 2 ≤ exchange.debitAccount.length ∧ exchange.debitAccount.length ≤ 100)
    (creditBounds : 2 ≤ exchange.creditAccount.length ∧ exchange.creditAccount.length ≤ 100) :
    ∃ input debitLine creditLine, exchange.input = some input ∧
      input.postingDate = ⟨exchange.postingDate, none⟩ ∧
      input.lines = exchange.arrange debitLine creditLine ∧
      (debitLine.account = exchange.debitAccount ∧ debitLine.debitAmount = exchange.debit ∧
        debitLine.creditAmount = exchange.uncredited) ∧
      creditLine.account = exchange.creditAccount ∧
        creditLine.debitAmount = exchange.undebited ∧
        creditLine.creditAmount = exchange.credit := by
  have creditNonneg : 0 ≤ exchange.credit.coefficient :=
    ((positive_of_value money_value.2).mpr exchange.money_pos).le
  have two : ∀ debitLine creditLine : JournalLineInput,
      2 ≤ (exchange.arrange debitLine creditLine).length := by
    intro debitLine creditLine
    unfold arrange
    cases exchange.debitFirst <;> exact le_rfl
  refine ⟨⟨⟨exchange.postingDate, none⟩, exchange.arrange
    ⟨exchange.debitAccount, exchange.debit, exchange.uncredited, debitBounds,
      exchange.positive.le, exchange.uncredited_zero.ge⟩
    ⟨exchange.creditAccount, exchange.undebited, exchange.credit, creditBounds,
      exchange.undebited_zero.ge, creditNonneg⟩, exchange.description, two _ _,
    exchange.description_length⟩, _, _, ?_, rfl, rfl, ⟨rfl, rfl, rfl⟩, rfl, rfl, rfl⟩
  unfold input
  rw [JournalLineInput.accept, dif_pos ⟨debitBounds, exchange.positive.le,
    exchange.uncredited_zero.ge⟩, JournalLineInput.accept, dif_pos ⟨creditBounds,
    exchange.undebited_zero.ge, creditNonneg⟩]
  exact dif_pos ⟨two _ _, exchange.description_length⟩

theorem length_of_accept {account : String} {debit credit : Decimal}
    {line : JournalLineInput}
    (accepted : JournalLineInput.accept account debit credit = some line) :
    account.length ≤ 100 := by
  unfold JournalLineInput.accept at accepted
  split at accepted
  · rename_i bounds
    exact bounds.1.2
  · cases accepted

theorem bounds_of_input {input : CreateJournalInput} (asked : exchange.input = some input) :
    exchange.debitAccount.length ≤ 100 ∧ exchange.creditAccount.length ≤ 100 := by
  obtain ⟨debitLine, debited, rest⟩ := Option.bind_eq_some_iff.mp asked
  obtain ⟨creditLine, credited, _⟩ := Option.bind_eq_some_iff.mp rest
  exact ⟨length_of_accept debited, length_of_accept credited⟩

/-- Between two stored rows, an exchange works exactly when the chart is charted and both names have
at most 100 characters. -/
theorem works_iff {world : World} (sound : world.Sound) (identified : world.Identified)
    (numbered : world.Numbered) (enrolled : world.Enrolled) {debitRow creditRow : AccountModel}
    (debited : debitRow ∈ world.accounts) (credited : creditRow ∈ world.accounts)
    (debitName : exchange.debitAccount = debitRow.name)
    (creditName : exchange.creditAccount = creditRow.name) {course : Course}
    (fair : course.Fair exchange.postingDate) :
    exchange.Works course world ↔
      world.Charted ∧ debitRow.name.length ≤ 100 ∧ creditRow.name.length ≤ 100 := by
  have reads := getChart_reads_iff enrolled identified (fair.create.calm 0)
  constructor
  · rintro ⟨input, view, created, views, posted, report, asked, returned, _⟩
    refine ⟨reads.mp ?_, debitName ▸ creditName ▸ bounds_of_input asked⟩
    cases read : (AccountService.getChart.run handle course.create world).1 with
    | ok chart => exact ⟨chart, rfl⟩
    | error error =>
      unfold JournalService.createJournalEntry JournalService.validateAccounts at returned
      rw [run_lift_bind_ok (requireActor_ok fair.creator), bind_assoc, run_getChart_bind,
        read] at returned
      cases returned
  · rintro ⟨charted, debitShort, creditShort⟩
    obtain ⟨chart, read⟩ := reads.mpr charted
    have named : ∀ row ∈ world.accounts, cleanAccountName row.name = some row.name ∧
        ∃ account, chart.getByName row.name = some account := by
      intro row member
      obtain ⟨account, holds⟩ := enrolled.held row member
      exact ⟨holds.name ▸ account.name_clean,
        getChart_resolves enrolled (fair.create.calm 0) read member⟩
    obtain ⟨input, debitLine, creditLine, asked, dated, lines, ⟨debitAccount, debit, uncredited⟩,
      creditAccount, undebited, credit⟩ := exchange.input_of_bounds
        (debitName ▸ ⟨charted.long debitRow debited, debitShort⟩)
        (creditName ▸ ⟨charted.long creditRow credited, creditShort⟩)
    have listed : ∀ line, line ∈ input.lines ↔ line = debitLine ∨ line = creditLine := by
      intro line
      rw [lines, mem_arrange]
    have rows : ∀ line ∈ input.lines, ∃ row ∈ world.accounts, line.account = row.name := by
      intro line member
      rcases (listed line).mp member with rfl | rfl
      · exact ⟨debitRow, debited, debitAccount.trans debitName⟩
      · exact ⟨creditRow, credited, creditAccount.trans creditName⟩
    have worth : ∀ line ∈ input.lines, ∃ debit credit, line.Worth debit credit := by
      intro line member
      have side := exchange.money_pos
      rcases (listed line).mp member with rfl | rfl
      · refine ⟨exchange.money, ⟨0, by decide⟩, debit ▸ money_value.1,
          uncredited ▸ zero_value exchange.uncredited_zero, ?_⟩
        simp [exactlyOneSide, side]
      · refine ⟨⟨0, by decide⟩, exchange.money, undebited ▸ zero_value exchange.undebited_zero,
          credit ▸ money_value.2, ?_⟩
        simp [exactlyOneSide, side]
    have balanced : sumsAgree (input.lines.map JournalLineInput.debitAmount)
        (input.lines.map JournalLineInput.creditAmount) = .ok true := by
      rw [lines, map_arrange, map_arrange, debit, undebited, uncredited, credit]
      exact sumsAgree_arrange
    have clean : ∀ line ∈ input.lines, cleanAccountName line.account = some line.account := by
      intro line member
      obtain ⟨row, stored, account⟩ := rows line member
      rw [account]
      exact (named row stored).1
    have resolved : ∀ line ∈ input.lines,
        ∃ account, chart.getByName line.account = some account := by
      intro line member
      obtain ⟨row, stored, account⟩ := rows line member
      rw [account]
      exact (named row stored).2
    obtain ⟨view, created, header, returned, number, date, entry⟩ := input_created dated clean
      worth balanced sound numbered exchange.date_after fair.create fair.creator read resolved
    obtain ⟨views, posted, report, postedOk, reported, shows⟩ := entry.posted
      (date ▸ fair.post) (date ▸ fair.report) fair.poster (date ▸ fair.covered)
    refine ⟨input, view, created, views, posted, report, asked, returned, number ▸ postedOk,
      reported, ?_⟩
    intro name member
    rw [List.mem_pair] at member
    rcases member with rfl | rfl
    · exact debitAccount ▸ shows debitLine ((listed debitLine).mpr (.inl rfl))
    · exact creditAccount ▸ shows creditLine ((listed creditLine).mpr (.inr rfl))

end Exchange

/-! ### Runs -/

section Runs

variable {Thread : Type} [DecidableEq Thread] {calls : Thread → Call} {start : World}
  {permits : World → Thread → Command → Env → Prop}
  {pool : Pool Thread Command Reply Raised Response World}

theorem pool_enrolled (enrolled : start.Enrolled)
    (reaches : Reaches handle permits ⟨start, fun thread => (calls thread).program⟩ pool) :
    pool.state.Enrolled := by
  induction reaches with
  | refl => exact enrolled
  | @step current mover command next before env asks permitted inductionHypothesis =>
    have issues := before.issues (fun thread => call_issuable (calls thread)) mover
    rw [asks] at issues
    rw [Pool.step_of_ask asks]
    exact handle_enrolled inductionHypothesis (Program.issues_ask_iff.mp issues).1 env

theorem pool_numbered (numbered : start.Numbered)
    (reaches : Reaches handle permits ⟨start, fun thread => (calls thread).program⟩ pool) :
    pool.state.Numbered := by
  obtain ⟨⟨hands, ticketed⟩, started⟩ := pool_ticketed numbered reaches
  exact ⟨lt_of_lt_of_le numbered.positive started,
    fun header member => ticketed.below _ ⟨header, member, rfl⟩⟩

end Runs

/-- In every state that calls lead to, in any order of their steps: a debit of one stored account
against a credit of another can be asked for, stored, posted and reported for both, exactly when
every stored name has two characters, no two names share a lookup key, and both names have at most
100 characters. -/
theorem exchange_works_iff {Thread : Type} [DecidableEq Thread] (calls : Thread → Call)
    {start : World} (sound : start.Sound) (identified : start.Identified)
    (numbered : start.Numbered) (enrolled : start.Enrolled)
    {pool : Pool Thread Command Reply Raised Response World}
    (reaches : Reaches handle (fun _ _ _ _ => True)
      ⟨start, fun thread => (calls thread).program⟩ pool)
    {debitRow creditRow : AccountModel} (debited : debitRow ∈ pool.state.accounts)
    (credited : creditRow ∈ pool.state.accounts) (exchange : Exchange)
    (debitName : exchange.debitAccount = debitRow.name)
    (creditName : exchange.creditAccount = creditRow.name) (course : Exchange.Course)
    (fair : course.Fair exchange.postingDate) :
    exchange.Works course pool.state ↔
      pool.state.Charted ∧ debitRow.name.length ≤ 100 ∧ creditRow.name.length ≤ 100 :=
  Exchange.works_iff (pool_sound calls sound reaches).1.invariant
    (reaches.keeps (fun _ _ _ _ _ => handle_identified) identified) (pool_numbered numbered reaches)
    (pool_enrolled enrolled reaches) debited credited debitName creditName fair

theorem firstCode_length : 1 ≤ "1000".length ∧ "1000".length ≤ 20 := by decide

/-- Two accounts are created, one after the other. -/
def creationOf (name : String) (bounds : 2 ≤ name.length ∧ name.length ≤ 150) : Nat → Call
  | 0 => .createAccount ⟨"1000", name, .asset, firstCode_length, bounds⟩ "alice"
  | 1 => .createAccount ((CreateAccountInput.accept "4000" "Sales" .revenue).get (.refl true))
      "alice"
  | _ => .getChart

def createdPool (name : String) (bounds : 2 ≤ name.length ∧ name.length ≤ 150) :
    Pool Nat Command Reply Raised Response World :=
  Pool.execute handle
    (([0, 0, 0, 0, 1, 1, 1, 1] : List Nat).map fun thread => (thread, Env.calm 1700000000000000))
    ⟨World.empty, fun thread => (creationOf name bounds thread).program⟩

theorem sale_positive : 0 < (⟨1250, -2⟩ : Decimal).coefficient := by decide

theorem sale_equal : (⟨1250, -2⟩ : Decimal).equals ⟨125, -1⟩ = true := by decide

theorem sale_places : (⟨1250, -2⟩ : Decimal).HasPlaces 2 := by decide +kernel

theorem sale_fits : (Decimal.roundHalfUp 2 ⟨1250, -2⟩).natAbs < 10 ^ 18 := by decide +kernel

theorem sale_uncredited : (⟨0, 0⟩ : Decimal).coefficient = 0 := rfl

theorem sale_undebited : (⟨0, -2⟩ : Decimal).coefficient = 0 := rfl

theorem sale_date : earliestPosting < 1600000000000000 := by decide

/-- 12.50 from the first account to sales. -/
def saleTo (name : String) : Exchange where
  debitAccount := name
  creditAccount := "Sales"
  debit := ⟨1250, -2⟩
  uncredited := ⟨0, 0⟩
  credit := ⟨125, -1⟩
  undebited := ⟨0, -2⟩
  debitFirst := true
  postingDate := 1600000000000000
  description := none
  positive := sale_positive
  equal := sale_equal
  uncredited_zero := sale_uncredited
  undebited_zero := sale_undebited
  places := sale_places
  fits := sale_fits
  date_after := sale_date
  description_length := no_description

def saleCourse : Exchange.Course where
  create _ := Env.calm 1700000000000000
  creator := "bob"
  post _ := Env.calm 1700000000000000
  poster := "carol"
  report _ := Env.calm 1700000000000000
  asOfDate := none

theorem saleCourse_fair : saleCourse.Fair 1600000000000000 := by
  have uneventful : Uneventful 1600000000000000 fun _ => Env.calm 1700000000000000 :=
    ⟨fun _ => rfl, fun _ => by decide⟩
  exact ⟨uneventful, by decide +kernel, uneventful, by decide +kernel, uneventful,
    fun cutoff chosen => by cases chosen⟩

theorem exchange_works_between_created :
    (createdPool "Cash" (by decide)).state.accounts =
        [⟨1, "1000", "Cash", "cash", .asset⟩, ⟨2, "4000", "Sales", "sales", .revenue⟩] ∧
      (saleTo "Cash").Works saleCourse (createdPool "Cash" (by decide)).state := by
  have reaches : Reaches handle (fun _ _ _ _ => True)
      ⟨World.empty, fun thread => (creationOf "Cash" (by decide) thread).program⟩
      (createdPool "Cash" (by decide)) := reaches_execute_of_forall _ fun _ _ _ _ => trivial
  have accounts : (createdPool "Cash" (by decide)).state.accounts =
      [⟨1, "1000", "Cash", "cash", .asset⟩, ⟨2, "4000", "Sales", "sales", .revenue⟩] := by
    decide +kernel
  have charted : (createdPool "Cash" (by decide)).state.Charted :=
    ⟨by rw [accounts]; decide, by rw [accounts]; decide +kernel⟩
  refine ⟨accounts, (exchange_works_iff (creationOf "Cash" (by decide)) empty_sound
    empty_identified empty_numbered empty_enrolled reaches
    (accounts ▸ List.mem_cons_self) (accounts ▸ List.mem_cons_of_mem _ List.mem_cons_self)
    (saleTo "Cash") rfl rfl saleCourse saleCourse_fair).mpr ⟨charted, ?_⟩⟩
  decide

/-- A name of 101 characters. -/
def longName : String := String.ofList (List.replicate 101 'a')

theorem longName_length : longName.length = 101 := by decide +kernel

theorem longName_bounds : 2 ≤ longName.length ∧ longName.length ≤ 150 :=
  longName_length ▸ by decide

/-- An account with a longer name is created, and no line can name it. -/
theorem exchange_fails_on_longName :
    Reaches handle (fun _ _ _ env => env.fault = none)
        ⟨World.empty, fun thread => (creationOf longName longName_bounds thread).program⟩
        (createdPool longName longName_bounds) ∧
      (createdPool longName longName_bounds).state.accounts.map AccountModel.name =
        [longName, "Sales"] ∧
      saleCourse.Fair (saleTo longName).postingDate ∧
      ¬(saleTo longName).Works saleCourse (createdPool longName longName_bounds).state := by
  refine ⟨reaches_execute_of_forall _ (List.forall_mem_map.mpr fun _ _ _ _ => rfl),
    by decide +kernel, saleCourse_fair, ?_⟩
  rintro ⟨input, view, created, views, posted, report, asked, _⟩
  have short : longName.length ≤ 100 := (Exchange.bounds_of_input asked).1
  rw [longName_length] at short
  exact absurd short (by decide)

end Trutina
