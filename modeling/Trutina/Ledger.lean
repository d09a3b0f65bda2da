/-
This file says once what the journal and posting transactions do to the committed
state, and states the invariant of the ledger: lines belong to stored entries and
are numbered in order, and the postings of an entry are either none or one for
each line. Entries, lines and postings are never changed once they are stored, so
what one statement of an operation reads is still there at the next.
-/

import Trutina.AccountStore
import Trutina.RelatedLists

namespace Trutina

open Interaction

/-! ### What the transactions do -/

/-- A stored amount is stored as it is when it is sent again. -/
theorem coerceAmount_toDecimal (money : Money) : coerceAmount money.toDecimal = .ok money := by
  have rounded : Decimal.roundHalfUp 2 money.toDecimal = money.cents :=
    Decimal.roundHalfUp_self 2 money.cents
  simp only [coerceAmount, Money.ofDecimal, rounded, dif_pos money.bounded]

theorem oneSide_nonneg {debit credit : Money} (side : exactlyOneSide debit credit = true) :
    0 ≤ debit.cents ∧ 0 ≤ credit.cents := by
  simp only [exactlyOneSide, Bool.or_eq_true, Bool.and_eq_true, decide_eq_true_eq,
    beq_iff_eq] at side
  omega

/-- What a line is stored as. -/
structure StoredAs (line : JournalLineModel Decimal) (stored : JournalLineModel Money) : Prop where
  debit : coerceAmount line.debitAmount = .ok stored.debitAmount
  credit : coerceAmount line.creditAmount = .ok stored.creditAmount
  side : exactlyOneSide stored.debitAmount stored.creditAmount = true
  number : stored.journalNumber = line.journalNumber
  index : stored.lineIndex = line.lineIndex
  account : stored.account = line.account

section Transactions

variable {env : Env} {world after : World}

/-- A line whose side passes its CHECK is stored as it was coerced. -/
theorem storedAs_iff {line : JournalLineModel Decimal} {stored : JournalLineModel Money} :
    StoredAs line stored ↔ coerceLine line = .ok stored ∧
      exactlyOneSide stored.debitAmount stored.creditAmount = true := by
  unfold coerceLine
  constructor
  · rintro ⟨debit, credit, side, number, index, account⟩
    refine ⟨?_, side⟩
    rw [debit, credit, ← number, ← index, ← account]
    rfl
  · rintro ⟨coerced, side⟩
    cases debit : coerceAmount line.debitAmount with
    | error error =>
      rw [debit] at coerced
      cases coerced
    | ok debitStored =>
      cases credit : coerceAmount line.creditAmount with
      | error error =>
        rw [debit, credit] at coerced
        cases coerced
      | ok creditStored =>
        rw [debit, credit] at coerced
        obtain rfl := Except.ok.inj coerced
        exact ⟨debit, credit, side, rfl, rfl, rfl⟩

theorem insertLine_ok {line : JournalLineModel Money}
    (inserted : insertLine world line = .ok after) :
    exactlyOneSide line.debitAmount line.creditAmount = true ∧
      after = { world with journalLines := world.journalLines ++ [line] } := by
  unfold insertLine at inserted
  split_ifs at inserted with side taken
  exact ⟨by simpa using side, (Except.ok.inj inserted).symm⟩

theorem insertLines_ok {lines : List (JournalLineModel Decimal)}
    (inserted : insertRows coerceLine insertLine world lines = .ok after) :
    ∃ stored, List.Forall₂ StoredAs lines stored ∧
      after = { world with journalLines := world.journalLines ++ stored } := by
  obtain ⟨stored, coerced, added⟩ := insertRows_eq_ok_iff.mp inserted
  refine ⟨stored, ?_⟩
  rw [List.mapM_eq_ok_iff] at coerced
  clear inserted
  induction coerced generalizing world with
  | nil =>
    rw [← Except.ok.inj added]
    exact ⟨.nil, by rw [List.append_nil]⟩
  | @cons line first lines rest coercedFirst _ inductionHypothesis =>
    rw [List.foldlM_cons] at added
    cases head : insertLine world first with
    | error error =>
      rw [head] at added
      cases added
    | ok middle =>
      rw [head] at added
      obtain ⟨side, rfl⟩ := insertLine_ok head
      obtain ⟨storedRest, rfl⟩ := inductionHypothesis added
      exact ⟨.cons (storedAs_iff.mpr ⟨coercedFirst, side⟩) storedRest, by
        rw [List.append_assoc, List.singleton_append]⟩

/-- An entry is inserted with all its lines, when its number is fresh and its date passes. -/
theorem insertJournal_ok {entry : JournalEntryModel} {lines : List (JournalLineModel Decimal)}
    (applied : (Transaction.insertJournal entry lines).apply env world = .ok after) :
    (∀ stored ∈ world.journalEntries, stored.journalNumber ≠ entry.journalNumber) ∧
      postingDateInRange env.dbNow entry.postingDate = true ∧
      ∃ stored, List.Forall₂ StoredAs lines stored ∧
        after = { world with
          journalEntries := world.journalEntries ++ [entry]
          journalLines := world.journalLines ++ stored } := by
  simp only [Transaction.apply] at applied
  split at applied
  · cases applied
  · rename_i fresh
    split at applied
    · cases applied
    · rename_i dated
      refine ⟨fun stored member same => fresh ?_, by simpa using dated, insertLines_ok applied⟩
      exact List.any_eq_true.mpr ⟨stored, member, beq_iff_eq.mpr same⟩

/-- Postings are appended, and nothing else is changed. -/
theorem insertPostings_appends {postings : List (PostingModel Decimal)}
    (applied : (Transaction.insertPostings postings).apply env world = .ok after) :
    ∃ batch, after = { world with postings := world.postings ++ batch } := by
  obtain ⟨batch, -, added⟩ := insertRows_eq_ok_iff.mp applied
  refine ⟨batch, ?_⟩
  clear applied
  induction batch generalizing world with
  | nil => rw [← Except.ok.inj added, List.append_nil]
  | cons posting rest inductionHypothesis =>
    rw [List.foldlM_cons] at added
    cases head : insertPosting env world posting with
    | error error =>
      rw [head] at added
      cases added
    | ok middle =>
      rw [head] at added
      unfold insertPosting at head
      split_ifs at head
      obtain rfl := Except.ok.inj head
      rw [inductionHypothesis added, List.append_assoc, List.singleton_append]

/-- A stored posting as it was sent. -/
def PostingModel.sent (posting : PostingModel Money) : PostingModel Decimal :=
  { posting with
    debitAmount := posting.debitAmount.toDecimal
    creditAmount := posting.creditAmount.toDecimal }

/-- What the constraints ask of a posting. -/
structure World.Accepts (world : World) (env : Env) (posting : PostingModel Money) : Prop where
  side : exactlyOneSide posting.debitAmount posting.creditAmount = true
  dated : postingDateInRange env.dbNow posting.postingDate = true
  free : ∀ stored ∈ world.postings, stored.journalNumber = posting.journalNumber →
    stored.lineIndex ≠ posting.lineIndex
  owned : ∃ entry ∈ world.journalEntries, entry.journalNumber = posting.journalNumber

/-- Stored amounts are coerced to what they are. -/
theorem coerced_sent (batch : List (PostingModel Money)) :
    (batch.map PostingModel.sent).mapM coercePosting = .ok batch := by
  rw [List.mapM_eq_ok_iff, List.forall₂_map_left_iff, List.forall₂_same]
  intro posting _
  simp only [coercePosting, PostingModel.sent, coerceAmount_toDecimal]
  rfl

theorem insertPostings_sent (batch : List (PostingModel Money)) :
    (Transaction.insertPostings (batch.map PostingModel.sent)).apply env world =
      batch.foldlM (insertPosting env) world :=
  insertRows_of_coerced (coerced_sent batch)

theorem insertPosting_accepted {posting : PostingModel Money}
    (accepts : world.Accepts env posting) :
    insertPosting env world posting =
      .ok { world with postings := world.postings ++ [posting] } := by
  obtain ⟨side, dated, free, entry, member, owned⟩ := accepts
  have unique : (world.postings.any fun stored => stored.journalNumber == posting.journalNumber &&
      stored.lineIndex == posting.lineIndex) = false := by
    simpa using free
  have present : (world.journalEntries.all fun entry =>
      entry.journalNumber != posting.journalNumber) = false := by
    simpa using ⟨entry, member, owned⟩
  simp only [insertPosting, side, dated, unique, present, Bool.true_eq_false, if_false,
    Bool.false_eq_true]

theorem insertPosting_refused {posting : PostingModel Money}
    (refuses : ¬world.Accepts env posting) :
    ∃ constraint, insertPosting env world posting = .error (.integrity constraint) := by
  unfold insertPosting
  split_ifs with side dated taken orphan
  · exact ⟨_, rfl⟩
  · exact ⟨_, rfl⟩
  · exact ⟨_, rfl⟩
  · exact ⟨_, rfl⟩
  · exact absurd ⟨by simpa using side, by simpa using dated, by simpa using taken,
      by simpa using orphan⟩ refuses

/-- An inserted batch is appended, and shares no line with what was stored. -/
theorem insertPostings_ok {batch : List (PostingModel Money)}
    (applied : (Transaction.insertPostings (batch.map PostingModel.sent)).apply env world =
      .ok after) :
    after = { world with postings := world.postings ++ batch } ∧
      ∀ posting ∈ batch, world.Accepts env posting := by
  rw [insertPostings_sent] at applied
  induction batch generalizing world with
  | nil =>
    rw [← Except.ok.inj applied, List.append_nil]
    exact ⟨rfl, fun posting member => (List.not_mem_nil member).elim⟩
  | cons first rest inductionHypothesis =>
    rw [List.foldlM_cons] at applied
    by_cases accepts : world.Accepts env first
    · rw [insertPosting_accepted accepts] at applied
      obtain ⟨rfl, others⟩ := inductionHypothesis applied
      refine ⟨by rw [List.append_assoc, List.singleton_append], fun posting member => ?_⟩
      rcases List.mem_cons.mp member with rfl | later
      · exact accepts
      · obtain ⟨side, dated, free, owned⟩ := others posting later
        exact ⟨side, dated, fun stored present => free stored (List.mem_append_left _ present),
          owned⟩
    · obtain ⟨constraint, refused⟩ := insertPosting_refused accepts
      rw [refused] at applied
      cases applied

/-- A batch of acceptable postings with distinct lines is inserted. -/
theorem insertPostings_accepted {batch : List (PostingModel Money)}
    (accepts : ∀ posting ∈ batch, world.Accepts env posting)
    (distinct : (batch.map PostingModel.lineIndex).Nodup) :
    (Transaction.insertPostings (batch.map PostingModel.sent)).apply env world =
      .ok { world with postings := world.postings ++ batch } := by
  rw [insertPostings_sent]
  induction batch generalizing world with
  | nil =>
    rw [List.append_nil]
    rfl
  | cons first rest inductionHypothesis =>
    rw [List.foldlM_cons, insertPosting_accepted (accepts first List.mem_cons_self)]
    rw [List.map_cons, List.nodup_cons] at distinct
    refine (inductionHypothesis (fun posting member => ?_) distinct.2).trans ?_
    · obtain ⟨side, dated, free, owned⟩ := accepts posting (List.mem_cons_of_mem _ member)
      refine ⟨side, dated, fun stored present same => ?_, owned⟩
      rcases List.mem_append.mp present with earlier | new
      · exact free stored earlier same
      · rw [List.mem_singleton.mp new]
        exact fun equal => distinct.1 (equal ▸ List.mem_map_of_mem member)
    · rw [List.append_assoc, List.singleton_append]

/-- A batch whose first posting is refused is refused by a constraint. -/
theorem insertPostings_refused {first : PostingModel Money} {rest : List (PostingModel Money)}
    (refuses : ¬world.Accepts env first) : ∃ constraint,
      (Transaction.insertPostings ((first :: rest).map PostingModel.sent)).apply env world =
        .error (.integrity constraint) := by
  obtain ⟨constraint, refused⟩ := insertPosting_refused refuses
  refine ⟨constraint, ?_⟩
  rw [insertPostings_sent, List.foldlM_cons, refused]
  rfl

end Transactions

/-! ### The invariant -/

/-- The posting of a stored line. -/
def postingOf (header : JournalEntryModel) (createdBy : Option String)
    (line : JournalLineModel Money) : PostingModel Money where
  account := line.account
  accountKey := accountLookupKey line.account
  debitAmount := line.debitAmount
  creditAmount := line.creditAmount
  journalNumber := line.journalNumber
  postingDate := header.postingDate
  lineIndex := line.lineIndex
  createdBy := createdBy

/-- An entry is posted when each of its lines has its posting, in order, and the entry could be
read back when it was posted. -/
structure World.Posted (world : World) (header : JournalEntryModel) : Prop where
  stored : header ∈ world.journalEntries
  batch : ∃ createdBy, world.postingsOf header.journalNumber =
    (world.linesOf header.journalNumber).map (postingOf header createdBy)
  readable : ∃ now entry, PostgresJournalRepo.toDomain now header
    (world.linesOf header.journalNumber) = .ok entry

/-- The ledger is sound: numbers are distinct, lines belong to entries and are numbered in order
with clean accounts and one side, and postings exist for whole entries only. -/
structure World.Sound (world : World) : Prop where
  numbers : (world.journalEntries.map JournalEntryModel.journalNumber).Nodup
  dates : ∀ header ∈ world.journalEntries, earliestPosting < header.postingDate
  owned : ∀ line ∈ world.journalLines,
    ∃ header ∈ world.journalEntries, header.journalNumber = line.journalNumber
  indexes : ∀ number, (world.linesOf number).map JournalLineModel.lineIndex =
    List.range (world.linesOf number).length
  clean : ∀ line ∈ world.journalLines, cleanAccountName line.account = some line.account
  sides : ∀ line ∈ world.journalLines, exactlyOneSide line.debitAmount line.creditAmount = true
  whole : ∀ number, world.postingsOf number = [] ∨
    ∃ header, header.journalNumber = number ∧ world.Posted header

theorem empty_sound : World.empty.Sound where
  numbers := List.nodup_nil
  dates := nofun
  owned := nofun
  indexes _ := rfl
  clean := nofun
  sides := nofun
  whole _ := .inl rfl

/-- Entries, lines and postings stay as they are once they are stored. -/
structure World.KeepsLedger (before after : World) : Prop where
  entries : ∀ header ∈ before.journalEntries, header ∈ after.journalEntries
  lines : ∀ header ∈ before.journalEntries,
    after.linesOf header.journalNumber = before.linesOf header.journalNumber
  postings : ∀ number, before.postingsOf number ≠ [] →
    after.postingsOf number = before.postingsOf number

section Invariant

variable {env : Env} {world after : World}

theorem mem_linesOf {number : Int} {line : JournalLineModel Money} :
    line ∈ world.linesOf number ↔ line ∈ world.journalLines ∧ line.journalNumber = number := by
  simp [World.linesOf]

theorem mem_postingsOf {number : Int} {posting : PostingModel Money} :
    posting ∈ world.postingsOf number ↔
      posting ∈ world.postings ∧ posting.journalNumber = number := by
  simp [World.postingsOf]

theorem linesOf_append {stored : List (JournalLineModel Money)} {number : Int}
    (lines : after.journalLines = world.journalLines ++ stored)
    (own : ∀ line ∈ stored, line.journalNumber = number) (other : Int) :
    after.linesOf other = world.linesOf other ++ if other = number then stored else [] := by
  rw [World.linesOf, lines, List.filter_append, World.linesOf]
  refine congrArg _ ?_
  by_cases same : other = number
  · rw [if_pos same, List.filter_eq_self]
    exact fun line member => decide_eq_true ((own line member).trans same.symm)
  · rw [if_neg same, List.filter_eq_nil_iff]
    exact fun line member equal => same ((of_decide_eq_true equal).symm.trans (own line member))

theorem postingsOf_append {batch : List (PostingModel Money)} {number : Int}
    (postings : after.postings = world.postings ++ batch)
    (own : ∀ posting ∈ batch, posting.journalNumber = number) (other : Int) :
    after.postingsOf other = world.postingsOf other ++ if other = number then batch else [] := by
  rw [World.postingsOf, postings, List.filter_append, World.postingsOf]
  refine congrArg _ ?_
  by_cases same : other = number
  · rw [if_pos same, List.filter_eq_self]
    exact fun posting member => decide_eq_true ((own posting member).trans same.symm)
  · rw [if_neg same, List.filter_eq_nil_iff]
    exact fun posting member equal =>
      same ((of_decide_eq_true equal).symm.trans (own posting member))

theorem World.KeepsLedger.refl (world : World) : world.KeepsLedger world :=
  ⟨fun _ member => member, fun _ _ => rfl, fun _ _ => rfl⟩

theorem World.KeepsLedger.trans {first second third : World} (left : first.KeepsLedger second)
    (right : second.KeepsLedger third) : first.KeepsLedger third where
  entries header member := right.entries header (left.entries header member)
  lines header member :=
    (right.lines header (left.entries header member)).trans (left.lines header member)
  postings number posted := by
    have same := left.postings number posted
    exact (right.postings number (same ▸ posted)).trans same

/-- Only the ledger tables matter. -/
theorem World.KeepsLedger.of_eq (entries : after.journalEntries = world.journalEntries)
    (lines : after.journalLines = world.journalLines) (postings : after.postings = world.postings) :
    world.KeepsLedger after where
  entries header member := entries ▸ member
  lines header _ := by rw [World.linesOf, lines, World.linesOf]
  postings number _ := by rw [World.postingsOf, postings, World.postingsOf]

/-- A posted entry stays posted. -/
theorem World.Posted.later {header : JournalEntryModel} (posted : world.Posted header)
    (kept : world.KeepsLedger after)
    (still : after.postingsOf header.journalNumber = world.postingsOf header.journalNumber) :
    after.Posted header := by
  obtain ⟨stored, batch, readable⟩ := posted
  have lines := kept.lines header stored
  rw [← lines] at batch readable
  exact ⟨kept.entries header stored, by rw [still]; exact batch, readable⟩

namespace World.Sound

theorem congr (sound : world.Sound) (entries : after.journalEntries = world.journalEntries)
    (lines : after.journalLines = world.journalLines) (postings : after.postings = world.postings) :
    after.Sound := by
  have sameLines : ∀ number, after.linesOf number = world.linesOf number := fun number => by
    rw [World.linesOf, lines, World.linesOf]
  have samePostings : ∀ number, after.postingsOf number = world.postingsOf number :=
    fun number => by rw [World.postingsOf, postings, World.postingsOf]
  refine ⟨entries ▸ sound.numbers, entries ▸ sound.dates, by rw [lines, entries]; exact sound.owned,
    fun number => by rw [sameLines]; exact sound.indexes number, lines ▸ sound.clean,
    lines ▸ sound.sides, fun number => ?_⟩
  rw [samePostings]
  exact (sound.whole number).imp_right fun ⟨header, same, posted⟩ =>
    ⟨header, same, posted.later (.of_eq entries lines postings) (samePostings _)⟩

/-- Entries are told apart by their numbers. -/
theorem eq_of_number (sound : world.Sound) {first second : JournalEntryModel}
    (left : first ∈ world.journalEntries) (right : second ∈ world.journalEntries)
    (same : first.journalNumber = second.journalNumber) : first = second :=
  List.inj_on_of_nodup_map sound.numbers left right same

/-- The lines of an entry are stored in the order of their indexes. -/
theorem lines_sorted (sound : world.Sound) (number : Int) :
    (world.linesOf number).Pairwise fun first second => first.lineIndex ≤ second.lineIndex := by
  have sorted : ((world.linesOf number).map JournalLineModel.lineIndex).Pairwise (· ≤ ·) := by
    rw [sound.indexes number]
    exact List.pairwise_le_range
  exact List.pairwise_map.mp sorted

theorem lines_distinct (sound : world.Sound) (number : Int) :
    ((world.linesOf number).map JournalLineModel.lineIndex).Nodup := by
  rw [sound.indexes number]
  exact List.nodup_range

end World.Sound

/-! ### Storing an entry -/

/-- The row that an entry is saved as. -/
def headerOf (entry : JournalEntry) (createdBy : String) : JournalEntryModel where
  journalNumber := entry.journalNumber
  postingDate := entry.postingDate
  description := entry.description
  createdBy := some createdBy

@[simp] theorem headerOf_journalNumber (entry : JournalEntry) (createdBy : String) :
    (headerOf entry createdBy).journalNumber = entry.journalNumber := rfl

theorem lineRows_index (number : Int) (lines : List JournalLine) :
    (PostgresJournalRepo.lineRows number lines).map JournalLineModel.lineIndex =
      List.range lines.length := by
  refine List.ext_getElem (by simp [PostgresJournalRepo.lineRows]) fun index left right => ?_
  simp [PostgresJournalRepo.lineRows]

theorem mem_lineRows {number : Int} {lines : List JournalLine} {row : JournalLineModel Decimal}
    (member : row ∈ PostgresJournalRepo.lineRows number lines) :
    row.journalNumber = number ∧
      ∃ line, lines[row.lineIndex]? = some line ∧ row.account = line.account := by
  obtain ⟨index, bound, rfl⟩ := List.mem_mapIdx.mp member
  exact ⟨rfl, _, List.getElem?_eq_getElem bound, rfl⟩

/-- What the lines of an accepted entry are stored as. -/
structure StoredLines (number : Int) (lines : List JournalLine)
    (stored : List (JournalLineModel Money)) : Prop where
  rows : List.Forall₂ StoredAs (PostgresJournalRepo.lineRows number lines) stored

namespace StoredLines

variable {number : Int} {lines : List JournalLine} {stored : List (JournalLineModel Money)}

theorem indexes (storedLines : StoredLines number lines stored) :
    stored.map JournalLineModel.lineIndex = List.range stored.length := by
  have indexes := (storedLines.rows.map_eq fun _ _ _ same => same.index).trans
    (lineRows_index number lines)
  have lengths := congrArg List.length indexes
  rw [List.length_map, List.length_range] at lengths
  rw [indexes, lengths]

/-- Each stored line is one of the lines. -/
theorem origin (storedLines : StoredLines number lines stored) {line : JournalLineModel Money}
    (member : line ∈ stored) : line.journalNumber = number ∧
      exactlyOneSide line.debitAmount line.creditAmount = true ∧
      ∃ sent, lines[line.lineIndex]? = some sent ∧ line.account = sent.account := by
  obtain ⟨row, sent, same⟩ := storedLines.rows.exists_left member
  obtain ⟨own, line, present, account⟩ := mem_lineRows sent
  exact ⟨same.number.trans own, same.side, line, same.index ▸ present, same.account.trans account⟩

end StoredLines

/-- An inserted entry keeps the ledger sound, and its lines are the only ones of its number. -/
theorem insertJournal_sound (sound : world.Sound) {header : JournalEntryModel}
    {lines : List JournalLine}
    (applied : (Transaction.insertJournal header
      (PostgresJournalRepo.lineRows header.journalNumber lines)).apply env world = .ok after) :
    after.Sound ∧ world.KeepsLedger after ∧ header ∈ after.journalEntries ∧
      StoredLines header.journalNumber lines (after.linesOf header.journalNumber) := by
  obtain ⟨fresh, dated, stored, rows, same⟩ := insertJournal_ok applied
  have storedLines : StoredLines header.journalNumber lines stored := ⟨rows⟩
  have entriesAfter : after.journalEntries = world.journalEntries ++ [header] := by rw [same]
  have linesAfter : after.journalLines = world.journalLines ++ stored := by rw [same]
  have postingsAfter : ∀ number, after.postingsOf number = world.postingsOf number := by
    intro number
    rw [same]
    rfl
  have unused : world.linesOf header.journalNumber = [] := by
    rw [List.eq_nil_iff_forall_not_mem]
    intro line member
    obtain ⟨present, own⟩ := mem_linesOf.mp member
    obtain ⟨other, stored, same⟩ := sound.owned line present
    exact fresh other stored (same.trans own)
  have split := linesOf_append linesAfter fun line member => (storedLines.origin member).1
  have own : after.linesOf header.journalNumber = stored := by
    rw [split, if_pos rfl, unused, List.nil_append]
  have others : ∀ number, number ≠ header.journalNumber →
      after.linesOf number = world.linesOf number := fun number different => by
    rw [split, if_neg different, List.append_nil]
  have kept : world.KeepsLedger after :=
    ⟨fun other member => entriesAfter ▸ List.mem_append_left _ member,
      fun other member => others _ (fresh other member), fun number _ => postingsAfter number⟩
  refine ⟨⟨?_, fun other member => ?_, fun line member => ?_, fun number => ?_,
    fun line member => ?_, fun line member => ?_, fun number => ?_⟩, kept, ?_, ?_⟩
  · rw [entriesAfter, List.map_append, List.map_singleton, List.nodup_append]
    refine ⟨sound.numbers, List.nodup_singleton _, fun number member other single => ?_⟩
    obtain ⟨stored, present, rfl⟩ := List.mem_map.mp member
    rw [List.mem_singleton.mp single]
    exact fresh stored present
  · rw [entriesAfter] at member
    rcases List.mem_append.mp member with stored | new
    · exact sound.dates other stored
    · rw [List.mem_singleton.mp new]
      exact of_decide_eq_true (Bool.and_eq_true_iff.mp dated).1
  · rw [linesAfter] at member
    rcases List.mem_append.mp member with earlier | new
    · obtain ⟨other, present, same⟩ := sound.owned line earlier
      exact ⟨other, entriesAfter ▸ List.mem_append_left _ present, same⟩
    · exact ⟨header, entriesAfter ▸ List.mem_append_right _ List.mem_cons_self,
        (storedLines.origin new).1.symm⟩
  · by_cases same : number = header.journalNumber
    · rw [same, own]
      exact storedLines.indexes
    · rw [others number same]
      exact sound.indexes number
  · rw [linesAfter] at member
    rcases List.mem_append.mp member with earlier | new
    · exact sound.clean line earlier
    · obtain ⟨_, _, sent, _, account⟩ := storedLines.origin new
      rw [account]
      exact sent.account_clean
  · rw [linesAfter] at member
    rcases List.mem_append.mp member with earlier | new
    · exact sound.sides line earlier
    · exact (storedLines.origin new).2.1
  · rw [postingsAfter]
    exact (sound.whole number).imp_right fun ⟨other, same, posted⟩ =>
      ⟨other, same, posted.later kept (postingsAfter _)⟩
  · rw [entriesAfter]
    exact List.mem_append_right _ List.mem_cons_self
  · rw [own]
    exact storedLines

/-! ### Posting an entry -/

/-- A posted batch keeps the ledger sound. It is the first of its entry. -/
theorem insertPostings_sound (sound : world.Sound) {header : JournalEntryModel}
    (stored : header ∈ world.journalEntries) {createdBy : Option String}
    (readable : ∃ now entry, PostgresJournalRepo.toDomain now header
      (world.linesOf header.journalNumber) = .ok entry)
    (applied : (Transaction.insertPostings (((world.linesOf header.journalNumber).map
      (postingOf header createdBy)).map PostingModel.sent)).apply env world = .ok after) :
    after.Sound ∧ world.KeepsLedger after ∧ world.postingsOf header.journalNumber = [] ∧
      after.postingsOf header.journalNumber =
        (world.linesOf header.journalNumber).map (postingOf header createdBy) := by
  obtain ⟨same, accepted⟩ := insertPostings_ok applied
  have none : world.postingsOf header.journalNumber = [] := by
    rcases sound.whole header.journalNumber with none | ⟨other, number, posted⟩
    · exact none
    · obtain ⟨by', batch⟩ := posted.batch
      rw [number] at batch
      rw [List.eq_nil_iff_forall_not_mem]
      intro posting member
      obtain ⟨present, own⟩ := mem_postingsOf.mp member
      rw [batch] at member
      obtain ⟨line, listed, rfl⟩ := List.mem_map.mp member
      exact (accepted _ (List.mem_map_of_mem listed)).free _ present rfl rfl
  have postingsAfter : after.postings = world.postings ++
      (world.linesOf header.journalNumber).map (postingOf header createdBy) := by rw [same]
  have entriesAfter : after.journalEntries = world.journalEntries := by rw [same]
  have linesAfter : after.journalLines = world.journalLines := by rw [same]
  have linesOfAfter : ∀ number, after.linesOf number = world.linesOf number := fun number => by
    rw [World.linesOf, linesAfter, World.linesOf]
  have split := postingsOf_append postingsAfter
    fun posting member => by
      obtain ⟨line, listed, rfl⟩ := List.mem_map.mp member
      exact (mem_linesOf.mp listed).2
  have own : after.postingsOf header.journalNumber =
      (world.linesOf header.journalNumber).map (postingOf header createdBy) := by
    rw [split, if_pos rfl, none, List.nil_append]
  have others : ∀ number, number ≠ header.journalNumber →
      after.postingsOf number = world.postingsOf number := fun number different => by
    rw [split, if_neg different, List.append_nil]
  have kept : world.KeepsLedger after := by
    refine ⟨fun other member => entriesAfter ▸ member, fun other _ => linesOfAfter _,
      fun number posted => others number ?_⟩
    rintro rfl
    exact posted none
  refine ⟨⟨entriesAfter ▸ sound.numbers, entriesAfter ▸ sound.dates, ?_, fun number => ?_,
    linesAfter ▸ sound.clean, linesAfter ▸ sound.sides, fun number => ?_⟩, kept, none, own⟩
  · rw [linesAfter, entriesAfter]
    exact sound.owned
  · rw [linesOfAfter]
    exact sound.indexes number
  · by_cases same : number = header.journalNumber
    · refine .inr ⟨header, same.symm, entriesAfter ▸ stored, ⟨createdBy, ?_⟩, ?_⟩
      · rw [own, linesOfAfter]
      · rwa [linesOfAfter]
    · rw [others number same]
      exact (sound.whole number).imp_right fun ⟨other, equal, posted⟩ =>
        ⟨other, equal, posted.later kept (others _ (equal ▸ same))⟩

/-- The batch of an entry without postings is inserted, once the database has reached its date. -/
theorem insertPostings_unposted (sound : world.Sound) {header : JournalEntryModel}
    (stored : header ∈ world.journalEntries) (createdBy : Option String)
    (unposted : world.postingsOf header.journalNumber = [])
    (dated : header.postingDate ≤ env.dbNow) :
    ∃ after, (Transaction.insertPostings (((world.linesOf header.journalNumber).map
      (postingOf header createdBy)).map PostingModel.sent)).apply env world = .ok after := by
  refine ⟨_, insertPostings_accepted (fun posting member => ?_) ?_⟩
  · obtain ⟨line, listed, rfl⟩ := List.mem_map.mp member
    obtain ⟨present, own⟩ := mem_linesOf.mp listed
    refine ⟨sound.sides line present, ?_, fun other taken same => ?_, header, stored, own.symm⟩
    · exact Bool.and_eq_true_iff.mpr
        ⟨decide_eq_true (sound.dates header stored), decide_eq_true dated⟩
    · have listed : other ∈ world.postingsOf header.journalNumber :=
        mem_postingsOf.mpr ⟨taken, same.trans own⟩
      rw [unposted] at listed
      cases listed
  · rw [List.map_map]
    exact sound.lines_distinct header.journalNumber

/-- The batch of an entry with postings is refused by a constraint. -/
theorem insertPostings_posted (env : Env) (sound : world.Sound) {header : JournalEntryModel}
    (createdBy : Option String) (posted : world.postingsOf header.journalNumber ≠ []) :
    ∃ constraint, (Transaction.insertPostings (((world.linesOf header.journalNumber).map
      (postingOf header createdBy)).map PostingModel.sent)).apply env world =
        .error (.integrity constraint) := by
  obtain ⟨other, number, whole⟩ := (sound.whole header.journalNumber).resolve_left posted
  obtain ⟨by', batch⟩ := whole.batch
  rw [number] at batch
  cases lines : world.linesOf header.journalNumber with
  | nil =>
    rw [lines] at batch
    exact absurd batch posted
  | cons line rest =>
    rw [lines] at batch
    rw [List.map_cons]
    refine insertPostings_refused fun accepts => ?_
    have taken : postingOf other by' line ∈ world.postingsOf header.journalNumber := by
      rw [batch]
      exact List.mem_cons_self
    exact accepts.free _ (mem_postingsOf.mp taken).1 rfl rfl

end Invariant

end Trutina
