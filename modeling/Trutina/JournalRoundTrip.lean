/-
This file proves which entries survive their storage. Saving rounds each amount to
two places, and reading builds the entry anew through the domain validators. Sums in
decimal arithmetic depend on the values of the amounts alone, so an entry whose
amounts have two decimal places, and whose accounts are not shorter than the
validators ask for, is read back as it was saved. Every other entry is not: it comes
back with other amounts, or cannot be read at all, and the listing fails with it.
-/

import Trutina.LedgerRuns

namespace Trutina

open Interaction

/-! ### Equal entries -/

/-- Lines with the same account and numerically equal amounts. -/
structure JournalLine.SameAs (line other : JournalLine) : Prop where
  account : other.account = line.account
  debit : other.debitAmount.equals line.debitAmount = true
  credit : other.creditAmount.equals line.creditAmount = true

/-- Entries with the same fields, and the same lines in the same order. -/
structure JournalEntry.SameAs (entry other : JournalEntry) : Prop where
  number : other.journalNumber = entry.journalNumber
  date : other.postingDate = entry.postingDate
  description : other.description = entry.description
  lines : List.Forall₂ JournalLine.SameAs entry.lines other.lines

/-- A line that the store keeps and the validators accept again. -/
def JournalLine.Storable (line : JournalLine) : Prop :=
  2 ≤ line.account.length ∧ line.debitAmount.HasPlaces 2 ∧ line.creditAmount.HasPlaces 2

instance (line : JournalLine) : Decidable line.Storable :=
  inferInstanceAs (Decidable (2 ≤ line.account.length ∧ line.debitAmount.HasPlaces 2 ∧
    line.creditAmount.HasPlaces 2))

/-- Whether sums agree depends on the values of the amounts alone. -/
theorem sumsAgree_congr {debits credits debits' credits' : List Decimal}
    (left : debits.map Decimal.toRat = debits'.map Decimal.toRat)
    (right : credits.map Decimal.toRat = credits'.map Decimal.toRat)
    (agree : sumsAgree debits credits = .ok true) : sumsAgree debits' credits' = .ok true := by
  have total : ∀ {amounts amounts' : List Decimal} {sum : Decimal},
      amounts.map Decimal.toRat = amounts'.map Decimal.toRat →
      Decimal.sum decimalContext amounts = .ok sum →
      ∃ sum', Decimal.sum decimalContext amounts' = .ok sum' ∧ sum'.toRat = sum.toRat := by
    intro amounts amounts' sum same computed
    have values := Decimal.sum_congr decimalContext same
    rw [computed] at values
    cases computed' : Decimal.sum decimalContext amounts' with
    | error error =>
      rw [computed'] at values
      cases values
    | ok sum' =>
      rw [computed'] at values
      exact ⟨sum', rfl, (Except.ok.inj values).symm⟩
  obtain ⟨totalDebits, totalCredits, sumDebits, sumCredits, equal⟩ :=
    sumsAgree_eq_true_iff.mp agree
  obtain ⟨totalDebits', sumDebits', sameDebits⟩ := total left sumDebits
  obtain ⟨totalCredits', sumCredits', sameCredits⟩ := total right sumCredits
  refine sumsAgree_eq_true_iff.mpr
    ⟨totalDebits', totalCredits', sumDebits', sumCredits', Decimal.equals_iff.mpr ?_⟩
  rw [sameDebits, sameCredits]
  exact Decimal.equals_iff.mp equal

/-! ### Lines -/

/-- What one line of an accepted entry is stored as. -/
structure KeptAs (line : JournalLine) (stored : JournalLineModel Money) : Prop where
  debit : stored.debitAmount.cents = Decimal.roundHalfUp 2 line.debitAmount
  credit : stored.creditAmount.cents = Decimal.roundHalfUp 2 line.creditAmount
  side : exactlyOneSide stored.debitAmount stored.creditAmount = true
  account : stored.account = line.account

theorem coerceAmount_cents {amount : Decimal} {money : Money}
    (coerced : coerceAmount amount = .ok money) : money.cents = Decimal.roundHalfUp 2 amount := by
  unfold coerceAmount Money.ofDecimal at coerced
  split at coerced
  · rename_i found rounded
    simp only at rounded
    split at rounded
    · cases coerced
      cases rounded
      rfl
    · cases rounded
  · cases coerced

theorem StoredLines.kept {number : Int} {lines : List JournalLine}
    {stored : List (JournalLineModel Money)} (storedLines : StoredLines number lines stored) :
    List.Forall₂ KeptAs lines stored := by
  obtain ⟨length, pointwise⟩ := List.forall₂_iff_get.mp storedLines.rows
  have sameLength : lines.length = stored.length := by
    rw [← length, PostgresJournalRepo.lineRows, List.length_mapIdx]
  refine List.forall₂_iff_get.mpr ⟨sameLength, fun index left right => ?_⟩
  have row := pointwise index (length ▸ right) right
  simp only [List.get_eq_getElem, PostgresJournalRepo.lineRows, List.getElem_mapIdx] at row ⊢
  exact ⟨coerceAmount_cents row.debit, coerceAmount_cents row.credit, row.side, row.account⟩

/-- A stored line with an amount on one side is one-sided when it is read. -/
theorem isValidLineAmounts_stored {debit credit : Money}
    (side : exactlyOneSide debit credit = true) :
    isValidLineAmounts debit.toDecimal credit.toDecimal = true := by
  simp only [exactlyOneSide, Bool.or_eq_true, Bool.and_eq_true, decide_eq_true_eq,
    beq_iff_eq] at side
  rcases side with ⟨positive, zero⟩ | ⟨positive, zero⟩ <;>
    simp [isValidLineAmounts, Money.toDecimal, positive, zero]

theorem equals_stored_iff {money : Money} {amount : Decimal}
    (rounded : money.cents = Decimal.roundHalfUp 2 amount) :
    money.toDecimal.equals amount = true ↔ amount.HasPlaces 2 := by
  rw [Decimal.hasPlaces_iff, Money.toDecimal, rounded]
  rfl

/-- A stored line is read back with its own values exactly when it was storable. -/
theorem KeptAs.readBack_iff {line : JournalLine} {stored : JournalLineModel Money}
    (kept : KeptAs line stored) :
    (∃ value, PostgresJournalRepo.lineToDomain stored = .ok value ∧ line.SameAs value) ↔
      line.Storable := by
  constructor
  · rintro ⟨value, converted, same⟩
    obtain ⟨⟨_, long, _⟩, debit, credit⟩ := JournalLine.validate_eq_ok_iff.mp converted
    have sameDebit := same.debit
    have sameCredit := same.credit
    rw [debit] at sameDebit
    rw [credit] at sameCredit
    rw [kept.account] at long
    exact ⟨long, (equals_stored_iff kept.debit).mp sameDebit,
      (equals_stored_iff kept.credit).mp sameCredit⟩
  · rintro ⟨long, debitPlaces, creditPlaces⟩
    have nonneg := oneSide_nonneg kept.side
    refine ⟨⟨line.account, stored.debitAmount.toDecimal, stored.creditAmount.toDecimal,
      line.account_clean, line.account_length, nonneg.1, nonneg.2,
      isValidLineAmounts_stored kept.side⟩, ?_, ⟨rfl,
      (equals_stored_iff kept.debit).mpr debitPlaces,
      (equals_stored_iff kept.credit).mpr creditPlaces⟩⟩
    refine JournalLine.validate_eq_ok_iff.mpr ⟨?_, rfl, rfl⟩
    rw [kept.account]
    exact ⟨line.account_clean, long, line.account_length⟩

/-- Stored lines are read back with their own values exactly when all were storable. -/
theorem linesReadBack_iff {lines : List JournalLine} {stored : List (JournalLineModel Money)}
    (kept : List.Forall₂ KeptAs lines stored) :
    (∃ values, fromRows PostgresJournalRepo.lineToDomain stored = .ok values ∧
      List.Forall₂ JournalLine.SameAs lines values) ↔ ∀ line ∈ lines, line.Storable := by
  simp only [fromRows_eq_ok_iff]
  induction kept with
  | nil => exact ⟨fun _ _ member => (List.not_mem_nil member).elim, fun _ => ⟨[], .nil, .nil⟩⟩
  | @cons line row lines rows head _ inductionHypothesis =>
    rw [List.forall_mem_cons, ← head.readBack_iff, ← inductionHypothesis]
    constructor
    · rintro ⟨values, rebuilt, same⟩
      obtain ⟨value, others, converted, restRebuilt, rfl⟩ := List.forall₂_cons_left_iff.mp rebuilt
      obtain ⟨equal, restSame⟩ := List.forall₂_cons.mp same
      exact ⟨⟨value, converted, equal⟩, others, restRebuilt, restSame⟩
    · rintro ⟨⟨value, converted, equal⟩, others, restRebuilt, restSame⟩
      exact ⟨value :: others, .cons converted restRebuilt, .cons equal restSame⟩

/-! ### Entries -/

/-- An entry is read back equal exactly when its lines were storable. -/
theorem readBack_iff {entry : JournalEntry} (createdBy : String) {now : Timestamp}
    {stored : List (JournalLineModel Money)} (kept : List.Forall₂ KeptAs entry.lines stored)
    (past : entry.postingDate ≤ now) :
    (∃ found, PostgresJournalRepo.toDomain now (headerOf entry createdBy) stored = .ok found ∧
      entry.SameAs found) ↔ ∀ line ∈ entry.lines, line.Storable := by
  rw [← linesReadBack_iff kept]
  constructor
  · rintro ⟨found, rebuilt, same⟩
    exact ⟨found.lines, (toDomain_eq_ok_iff.mp rebuilt).1, same.lines⟩
  · rintro ⟨values, rebuilt, same⟩
    have sums : sumsAgree (values.map JournalLine.debitAmount)
        (values.map JournalLine.creditAmount) = .ok true := by
      refine sumsAgree_congr ?_ ?_ entry.balanced
      · rw [List.map_map, List.map_map]
        exact (same.map_eq fun _ _ _ equal => Decimal.equals_iff.mp equal.debit).symm
      · rw [List.map_map, List.map_map]
        exact (same.map_eq fun _ _ _ equal => Decimal.equals_iff.mp equal.credit).symm
    refine ⟨⟨entry.journalNumber, entry.postingDate, values, entry.description, entry.number_pos,
      entry.date_after, same.length_eq ▸ entry.two_lines, entry.description_length, sums⟩, ?_,
      ⟨rfl, rfl, rfl, same⟩⟩
    exact toDomain_eq_ok_iff.mpr ⟨rebuilt, rfl, rfl, past, rfl⟩

/-! ### Reading -/

/-- An entry that cannot be rebuilt, at a reading of the clock. -/
def World.Unreadable (world : World) (now : Timestamp) (header : JournalEntryModel) : Prop :=
  ∃ error, PostgresJournalRepo.toDomain now header (world.linesOf header.journalNumber) =
    .error error

section Reading

variable {world : World} {envs : Nat → Env}

/-- A stored entry is the only one of its number. -/
theorem journalEntriesByNumber_rows (sound : world.Sound) {header : JournalEntryModel}
    (stored : header ∈ world.journalEntries) (env : Env) :
    Query.rows env world (.journalEntriesByNumber header.journalNumber) = [header] := by
  have distinct : (Query.rows env world (.journalEntriesByNumber header.journalNumber)).Nodup :=
    (List.Nodup.of_map _ sound.numbers).filter _
  have listed : header ∈ Query.rows env world (.journalEntriesByNumber header.journalNumber) :=
    List.mem_filter.mpr ⟨stored, decide_eq_true rfl⟩
  have only : ∀ row ∈ Query.rows env world (.journalEntriesByNumber header.journalNumber),
      row = header := fun row member => by
    obtain ⟨present, same⟩ := List.mem_filter.mp member
    exact sound.eq_of_number present stored (of_decide_eq_true same)
  generalize Query.rows env world (.journalEntriesByNumber header.journalNumber) = rows
    at distinct listed only
  match rows with
  | [] => cases listed
  | [row] => rw [only row List.mem_cons_self]
  | first :: second :: rest =>
    rw [only first List.mem_cons_self, only second (List.mem_cons_of_mem _ List.mem_cons_self)]
      at distinct
    simp at distinct

/-- The listing reads the lines of each entry in their order. -/
theorem allJournalLines_filter (sound : world.Sound) (env : Env) (number : Int) :
    ((Query.rows env world .allJournalLines).filter fun line => line.journalNumber = number) =
      world.linesOf number := by
  have arranged : ((Query.rows env world .allJournalLines).filter fun line =>
      line.journalNumber = number).Perm (world.linesOf number) :=
    (List.perm_insertionSort _ _).filter _
  have total : Std.Total fun first second : JournalLineModel Money =>
      first.journalNumber < second.journalNumber ∨
        (first.journalNumber = second.journalNumber ∧ first.lineIndex ≤ second.lineIndex) :=
    ⟨fun first second => by omega⟩
  have transitive : IsTrans (JournalLineModel Money) fun first second =>
      first.journalNumber < second.journalNumber ∨
        (first.journalNumber = second.journalNumber ∧ first.lineIndex ≤ second.lineIndex) :=
    ⟨fun first second third => by omega⟩
  have sorted : ((Query.rows env world .allJournalLines).filter fun line =>
      line.journalNumber = number).Pairwise fun first second =>
        first.lineIndex ≤ second.lineIndex := by
    refine ((List.pairwise_insertionSort _ _).filter _).imp_of_mem
      fun left right before => ?_
    have leftNumber := of_decide_eq_true (List.mem_filter.mp left).2
    have rightNumber := of_decide_eq_true (List.mem_filter.mp right).2
    omega
  refine arranged.eq_of_pairwise (fun first second left right before after => ?_) sorted
    (sound.lines_sorted number)
  exact List.inj_on_of_nodup_map (sound.lines_distinct number) (arranged.mem_iff.mp left) right
    (le_antisymm before after)

theorem getByNumber_run (sound : world.Sound) {header : JournalEntryModel}
    (stored : header ∈ world.journalEntries) (calm : ∀ step, (envs step).fault = none) :
    ((PostgresJournalRepo.getByNumber header.journalNumber).run handle envs world).1 =
      (PostgresJournalRepo.toDomain (envs 1).now header
        (world.linesOf header.journalNumber)).map some := by
  simp only [PostgresJournalRepo.getByNumber]
  rw [run_execute_bind (calm 0), journalEntriesByNumber_rows sound stored]
  refine congrArg Prod.fst (run_lift_bind_ok rfl |>.trans (run_execute_bind (calm 1))) |>.trans ?_
  rw [journalLinesByNumber_rows sound]
  cases PostgresJournalRepo.toDomain (envs 1).now header (world.linesOf header.journalNumber) <;>
    rfl

/-- The listing raises only when a stored entry cannot be rebuilt. -/
theorem listEntries_run (sound : world.Sound) (calm : ∀ step, (envs step).fault = none)
    {error : Raised}
    (raised : (PostgresJournalRepo.listEntries.run handle envs world).1 = .error error) :
    ∃ header ∈ world.journalEntries, world.Unreadable (envs 1).now header := by
  by_contra none
  have rebuilt : ∀ header ∈ Query.rows (envs 0) world .allJournalEntries, ∃ entry,
      PostgresJournalRepo.toDomain (envs 1).now header
        ((Query.rows (envs 1) world .allJournalLines).filter fun line =>
          line.journalNumber = header.journalNumber) = .ok entry := fun header member => by
    have stored := (List.mem_insertionSort _).mp member
    rw [allJournalLines_filter sound]
    cases built : PostgresJournalRepo.toDomain (envs 1).now header
        (world.linesOf header.journalNumber) with
    | error error => exact absurd ⟨header, stored, error, built⟩ none
    | ok entry => exact ⟨entry, rfl⟩
  obtain ⟨entries, listed⟩ := fromRows_total rebuilt
  simp only [PostgresJournalRepo.listEntries] at raised
  rw [run_execute_bind (calm 0), run_execute_bind (calm 1), run_lift, listed] at raised
  cases raised

end Reading

/-! ### Saving -/

/-- A save that succeeds has inserted the entry and its lines. -/
theorem save_ok {entry : JournalEntry} {createdBy : String} {envs : Nat → Env}
    {world after : World}
    (saved : (PostgresJournalRepo.save entry createdBy).run handle envs world = (.ok (), after)) :
    (Transaction.insertJournal (headerOf entry createdBy)
      (PostgresJournalRepo.lineRows entry.journalNumber entry.lines)).apply (envs 0) world =
        .ok after := by
  rw [PostgresJournalRepo.save, commitOr_eq] at saved
  cases failed : (envs 0).fault with
  | some fault =>
    simp only [Program.run, handle, failed] at saved
    cases saved
  | none =>
    cases applied : (Transaction.insertJournal (headerOf entry createdBy)
        (PostgresJournalRepo.lineRows entry.journalNumber entry.lines)).apply (envs 0) world with
    | error error =>
      rw [headerOf] at applied
      simp only [Program.run, handle, failed, applied] at saved
      cases error <;> cases saved
    | ok stored =>
      rw [headerOf] at applied
      simp only [Program.run, handle, failed, applied] at saved
      rw [(Prod.mk.inj saved).2]

/-- An accepted entry that was saved is read back equal at any later time, after whatever calls,
and is never the reason for the listing to fail: exactly when each of its amounts has at most two
decimal places and each of its accounts at least two characters. -/
theorem journalEntry_readBack_iff {now : Timestamp} {number : Int} {date : DateTime}
    {lines : List JournalLine} {description : Option String} {entry : JournalEntry}
    (accepted : JournalEntry.validate now number date lines description = .ok entry)
    {world after : World} (sound : world.Sound) {createdBy : String} {saveEnvs : Nat → Env}
    (saved : (PostgresJournalRepo.save entry createdBy).run handle saveEnvs world =
      (.ok (), after)) (started : now ≤ (saveEnvs 0).now)
    {Thread : Type} [DecidableEq Thread] (calls : Thread → Call)
    {pool : Pool Thread Command Reply Raised Response World}
    (reaches : Reaches handle (fun _ _ _ _ => True)
      ⟨after, fun thread => (calls thread).program⟩ pool)
    {envs : Nat → Env} (calm : ∀ step, (envs step).fault = none)
    (later : ∀ step, (saveEnvs 0).now ≤ (envs step).now) :
    ((∃ found, ((PostgresJournalRepo.getByNumber entry.journalNumber).run handle envs
          pool.state).1 = .ok (some found) ∧ entry.SameAs found) ∧
      ∀ error, (PostgresJournalRepo.listEntries.run handle envs pool.state).1 = .error error →
        ∃ other ∈ pool.state.journalEntries, other.journalNumber ≠ entry.journalNumber ∧
          pool.state.Unreadable (envs 1).now other) ↔
      ∀ line ∈ entry.lines, line.Storable := by
  obtain ⟨soundAfter, _, stored, storedLines⟩ := insertJournal_sound sound (save_ok saved)
  obtain ⟨valid, kept⟩ := pool_sound calls soundAfter reaches
  have soundNow : pool.state.Sound := valid.invariant
  have present : headerOf entry createdBy ∈ pool.state.journalEntries := kept.entries _ stored
  have past : entry.postingDate ≤ (envs 1).now :=
    ((JournalEntry.validate_eq_ok_iff.mp accepted).2.1.2.trans started).trans (later 1)
  have readBack := readBack_iff createdBy storedLines.kept past
  have lines := kept.lines _ stored
  have read := getByNumber_run soundNow present calm
  simp only [headerOf_journalNumber] at readBack lines read
  rw [lines] at read
  constructor
  · rintro ⟨⟨found, returned, same⟩, _⟩
    rw [read] at returned
    obtain ⟨_, rebuilt, equal⟩ := map_eq_ok_iff.mp returned
    cases equal
    exact readBack.mp ⟨found, rebuilt, same⟩
  · intro storable
    obtain ⟨found, rebuilt, same⟩ := readBack.mpr storable
    refine ⟨⟨found, by rw [read, rebuilt]; rfl, same⟩, fun error raised => ?_⟩
    obtain ⟨other, listed, error, failed⟩ := listEntries_run soundNow calm raised
    refine ⟨other, listed, fun equal => ?_, error, failed⟩
    rw [soundNow.eq_of_number listed present equal, headerOf_journalNumber, lines, rebuilt]
      at failed
    cases failed

/-- An entry with amounts in cents, one of them written with three places. -/
def centsEntry : JournalEntry where
  journalNumber := 1
  postingDate := 1600000000000000
  lines :=
    [(JournalLine.validate "Cash" ⟨1250, -3⟩ ⟨0, 0⟩).toOption.get (.refl true),
      (JournalLine.validate "Sales" ⟨0, 0⟩ ⟨125, -2⟩).toOption.get (.refl true)]
  description := some "Till"
  number_pos := Int.one_pos
  date_after := of_decide_eq_true (.refl true)
  two_lines := by decide
  description_length := by decide
  balanced := by decide +kernel

/-- The store after it has been saved. -/
def centsSaved : World :=
  ((PostgresJournalRepo.save centsEntry "alice").run handle
    (fun _ => Env.calm 1700000000000000) World.empty).2

/-- Posted after that, it is still read back equal. -/
theorem journalEntry_readBack_of_cents :
    ∃ pool : Pool (Fin 1) Command Reply Raised Response World, pool.state.postings.length = 2 ∧
      ∃ found, ((PostgresJournalRepo.getByNumber 1).run handle
          (fun _ => Env.calm 1700000000000000) pool.state).1 = .ok (some found) ∧
        centsEntry.SameAs found := by
  have accepted : JournalEntry.validate 1700000000000000 1 ⟨1600000000000000, none⟩
      centsEntry.lines (some "Till") = .ok centsEntry :=
    JournalEntry.validate_eq_ok_iff.mpr ⟨rfl, ⟨rfl, by decide⟩, rfl, rfl⟩
  have saved : (PostgresJournalRepo.save centsEntry "alice").run handle
      (fun _ => Env.calm 1700000000000000) World.empty = (.ok (), centsSaved) := rfl
  have reaches : Reaches handle (fun _ _ _ _ => True)
      ⟨centsSaved, fun _ : Fin 1 => (Call.postJournalEntry 1 "bob").program⟩ _ :=
    reaches_execute_of_forall (List.replicate 5 (0, Env.calm 1700000000000000))
      fun _ _ _ _ => trivial
  have storable : ∀ line ∈ centsEntry.lines, line.Storable := by decide +kernel
  exact ⟨_, by decide +kernel, ((journalEntry_readBack_iff accepted empty_sound saved (le_refl _) _
    reaches (fun _ => rfl) fun _ => le_refl _).mpr storable).1⟩

/-- An entry whose amounts are rounded up one by one. -/
def thirdPlaceEntry : JournalEntry where
  journalNumber := 1
  postingDate := 1600000000000000
  lines :=
    [(JournalLine.validate "Cash" ⟨1005, -3⟩ ⟨0, 0⟩).toOption.get (.refl true),
      (JournalLine.validate "Bank" ⟨1005, -3⟩ ⟨0, 0⟩).toOption.get (.refl true),
      (JournalLine.validate "Sales" ⟨0, 0⟩ ⟨201, -2⟩).toOption.get (.refl true)]
  description := none
  number_pos := Int.one_pos
  date_after := of_decide_eq_true (.refl true)
  two_lines := by decide
  description_length := no_description
  balanced := by decide +kernel

/-- It is accepted and saved. From then on neither it nor the listing can be read. -/
theorem journalEntry_readBack_fails_on_thirdPlace :
    JournalEntry.validate 1700000000000000 1 ⟨1600000000000000, none⟩ thirdPlaceEntry.lines none =
        .ok thirdPlaceEntry ∧
      ∃ after, (PostgresJournalRepo.save thirdPlaceEntry "alice").run handle
          (fun _ => Env.calm 1700000000000000) World.empty = (.ok (), after) ∧
        ((PostgresJournalRepo.getByNumber 1).run handle (fun _ => Env.calm 1700000000000000)
          after).1.toOption.isNone = true ∧
        (PostgresJournalRepo.listEntries.run handle (fun _ => Env.calm 1700000000000000)
          after).1.toOption.isNone = true := by
  refine ⟨JournalEntry.validate_eq_ok_iff.mpr ⟨rfl, ⟨rfl, by decide⟩, rfl, rfl⟩, _, rfl, ?_⟩
  decide +kernel

end Trutina
