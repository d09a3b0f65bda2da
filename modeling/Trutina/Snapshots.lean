/-
This file proves that reads of the journal are never torn. An entry is loaded by
two statements, its header first and its lines after, and each statement sees its
own snapshot. Any saves may commit in between. A save stores an entry whole and
nothing changes it afterwards, so the lines the second statement returns are the
lines of the headers the first one returned. What is assembled is right in every
run; the listing returns it as long as each entry reads back.
-/

import Trutina.Numbering
import Trutina.Refusals

namespace Trutina

open Interaction

/-! ### Stores that saves have left -/

/-- A save that committed: the entry, who saved it, and the lines it stored. -/
structure CommittedSave where
  entry : JournalEntry
  actor : String
  lines : List (JournalLineModel Money)

namespace CommittedSave

def header (save : CommittedSave) : JournalEntryModel := headerOf save.entry save.actor

def number (save : CommittedSave) : Int := save.entry.journalNumber

end CommittedSave

/-- The journal of a store is what these saves have left, in the order of their commits. -/
structure World.Journals (world : World) (saves : List CommittedSave) : Prop where
  headers : world.journalEntries = saves.map CommittedSave.header
  lines : world.journalLines = saves.flatMap CommittedSave.lines
  stored : ∀ save ∈ saves, StoredLines save.number save.entry.lines save.lines
  numbers : (saves.map CommittedSave.number).Nodup

theorem empty_journals : World.empty.Journals [] where
  headers := rfl
  lines := rfl
  stored _ member := by cases member
  numbers := List.nodup_nil

namespace World.Journals

variable {world after : World} {saves : List CommittedSave}

theorem eq_of_number (journals : world.Journals saves) {first second : CommittedSave}
    (left : first ∈ saves) (right : second ∈ saves) (same : first.number = second.number) :
    first = second :=
  List.inj_on_of_nodup_map journals.numbers left right same

/-- The lines stored under the number of a save are its own, all of them, in their order. -/
theorem linesOf_eq (journals : world.Journals saves) {save : CommittedSave}
    (member : save ∈ saves) : world.linesOf save.number = save.lines := by
  have own : ∀ other ∈ saves, ∀ line ∈ other.lines, line.journalNumber = other.number :=
    fun other present line stored => ((journals.stored other present).origin stored).1
  rw [World.linesOf, journals.lines]
  have numbers := journals.numbers
  clear journals
  induction saves with
  | nil => cases member
  | cons head rest inductionHypothesis =>
    rw [List.map_cons, List.nodup_cons] at numbers
    rw [List.flatMap_cons, List.filter_append]
    have others := fun other present => own other (List.mem_cons_of_mem _ present)
    rcases List.mem_cons.mp member with rfl | later
    · have mine : (save.lines.filter fun line => line.journalNumber = save.number) =
          save.lines :=
        List.filter_eq_self.mpr fun line stored =>
          decide_eq_true (own save List.mem_cons_self line stored)
      have foreign : ((rest.flatMap CommittedSave.lines).filter fun line =>
          line.journalNumber = save.number) = [] := by
        rw [List.filter_eq_nil_iff]
        intro line stored same
        obtain ⟨other, present, stored⟩ := List.mem_flatMap.mp stored
        exact numbers.1 (List.mem_map.mpr ⟨other, present,
          (others other present line stored).symm.trans (of_decide_eq_true same)⟩)
      rw [mine, foreign, List.append_nil]
    · have foreign : (head.lines.filter fun line => line.journalNumber = save.number) = [] := by
        rw [List.filter_eq_nil_iff]
        intro line stored same
        refine numbers.1 (List.mem_map.mpr ⟨save, later, ?_⟩)
        exact (of_decide_eq_true same).symm.trans (own head List.mem_cons_self line stored)
      rw [foreign, List.nil_append]
      exact inductionHypothesis later others numbers.2

/-- A number without a save has no lines. -/
theorem linesOf_eq_nil (journals : world.Journals saves) {number : Int}
    (fresh : ∀ save ∈ saves, save.number ≠ number) : world.linesOf number = [] := by
  rw [World.linesOf, journals.lines, List.filter_eq_nil_iff]
  intro line stored same
  obtain ⟨save, member, stored⟩ := List.mem_flatMap.mp stored
  exact fresh save member (((journals.stored save member).origin stored).1.symm.trans
    (of_decide_eq_true same))

/-- Apart from postings, such a store is sound. -/
theorem sound (journals : world.Journals saves) :
    ({ world with postings := [] } : World).Sound where
  numbers := by
    rw [show ({ world with postings := [] } : World).journalEntries = _ from journals.headers,
      List.map_map]
    exact journals.numbers
  dates header member := by
    rw [show ({ world with postings := [] } : World).journalEntries = _ from journals.headers]
      at member
    obtain ⟨save, _, rfl⟩ := List.mem_map.mp member
    exact save.entry.date_after
  owned line member := by
    rw [show ({ world with postings := [] } : World).journalLines = _ from journals.lines] at member
    obtain ⟨save, present, stored⟩ := List.mem_flatMap.mp member
    refine ⟨save.header, ?_, ((journals.stored save present).origin stored).1.symm⟩
    rw [show ({ world with postings := [] } : World).journalEntries = _ from journals.headers]
    exact List.mem_map_of_mem present
  indexes number := by
    change (world.linesOf number).map _ = List.range (world.linesOf number).length
    by_cases used : ∃ save ∈ saves, save.number = number
    · obtain ⟨save, member, rfl⟩ := used
      rw [journals.linesOf_eq member]
      exact (journals.stored save member).indexes
    · rw [journals.linesOf_eq_nil fun save member same => used ⟨save, member, same⟩]
      rfl
  clean line member := by
    rw [show ({ world with postings := [] } : World).journalLines = _ from journals.lines] at member
    obtain ⟨save, present, stored⟩ := List.mem_flatMap.mp member
    obtain ⟨_, _, sent, _, account⟩ := (journals.stored save present).origin stored
    rw [account]
    exact sent.account_clean
  sides line member := by
    rw [show ({ world with postings := [] } : World).journalLines = _ from journals.lines] at member
    obtain ⟨save, present, stored⟩ := List.mem_flatMap.mp member
    exact ((journals.stored save present).origin stored).2.1
  whole number := .inl rfl

/-- A save appends itself. -/
theorem save (journals : world.Journals saves) {entry : JournalEntry} {actor : String} {env : Env}
    (applied : (Transaction.insertJournal (headerOf entry actor)
      (PostgresJournalRepo.lineRows entry.journalNumber entry.lines)).apply env world =
        .ok after) :
    ∃ lines, after.Journals (saves ++ [⟨entry, actor, lines⟩]) := by
  obtain ⟨fresh, _, lines, rows, rfl⟩ := insertJournal_ok applied
  refine ⟨lines, ⟨?_, ?_, ?_, ?_⟩⟩
  · rw [journals.headers, List.map_append]
    rfl
  · rw [journals.lines, List.flatMap_append, List.flatMap_singleton]
  · intro save member
    rcases List.mem_append.mp member with earlier | new
    · exact journals.stored save earlier
    · rw [List.mem_singleton.mp new]
      exact ⟨rows⟩
  · rw [List.map_append, List.nodup_append]
    refine ⟨journals.numbers, List.nodup_singleton _, fun number member other single => ?_⟩
    obtain ⟨save, present, rfl⟩ := List.mem_map.mp member
    rw [List.mem_singleton.mp single]
    refine fresh save.header ?_
    rw [journals.headers]
    exact List.mem_map_of_mem present

end World.Journals

/-! ### What a save is read back as -/

namespace CommittedSave

variable {save : CommittedSave}

/-- An entry with the header of a save and all of its stored lines, in their order. -/
structure Gives (save : CommittedSave) (found : JournalEntry) : Prop where
  number : found.journalNumber = save.number
  date : found.postingDate = save.entry.postingDate
  description : found.description = save.entry.description
  lines : List.Forall₂ (fun (stored : JournalLineModel Money) (line : JournalLine) =>
    line.account = stored.account ∧ line.debitAmount = stored.debitAmount.toDecimal ∧
      line.creditAmount = stored.creditAmount.toDecimal) save.lines found.lines

/-- What the validators ask of a save that is read: accounts of two characters, a date that is not
ahead of the clock, and a balance that rounding has kept. -/
structure Rereads (save : CommittedSave) (now : Timestamp) : Prop where
  accounts : ∀ line ∈ save.entry.lines, 2 ≤ line.account.length
  past : save.entry.postingDate ≤ now
  balanced : sumsAgree (save.lines.map fun line => line.debitAmount.toDecimal)
    (save.lines.map fun line => line.creditAmount.toDecimal) = .ok true

/-- A stored line is rebuilt when its account is long enough. -/
theorem lineToDomain_iff {line : JournalLine} {stored : JournalLineModel Money}
    (kept : KeptAs line stored) :
    (∃ value, PostgresJournalRepo.lineToDomain stored = .ok value) ↔ 2 ≤ line.account.length := by
  constructor
  · rintro ⟨value, converted⟩
    have long := (JournalLine.validate_eq_ok_iff.mp converted).1.2.1
    rwa [kept.account] at long
  · intro long
    have nonneg := oneSide_nonneg kept.side
    refine ⟨⟨line.account, stored.debitAmount.toDecimal, stored.creditAmount.toDecimal,
      line.account_clean, line.account_length, nonneg.1, nonneg.2,
      isValidLineAmounts_stored kept.side⟩, ?_⟩
    refine JournalLine.validate_eq_ok_iff.mpr ⟨?_, rfl, rfl⟩
    rw [kept.account]
    exact ⟨line.account_clean, long, line.account_length⟩

/-- What is rebuilt is the save. -/
theorem gives_of_rebuilt (stored : StoredLines save.number save.entry.lines save.lines)
    {now : Timestamp} {found : JournalEntry}
    (rebuilt : PostgresJournalRepo.toDomain now save.header save.lines = .ok found) :
    save.Gives found := by
  obtain ⟨lines, number, date, _, description⟩ := toDomain_eq_ok_iff.mp rebuilt
  refine ⟨number, date, description, ?_⟩
  have pairs := (List.forall₂_and_left save.lines found.lines).mpr
    ⟨fun _ member => member, fromRows_eq_ok_iff.mp lines⟩
  refine pairs.imp ?_
  rintro row line ⟨member, converted⟩
  obtain ⟨⟨clean, _⟩, debit, credit⟩ := JournalLine.validate_eq_ok_iff.mp converted
  obtain ⟨_, _, sent, _, account⟩ := stored.origin member
  rw [account, sent.account_clean] at clean
  exact ⟨(Option.some.inj clean).symm.trans account.symm, debit, credit⟩

/-- A save is rebuilt exactly when the validators accept it. -/
theorem rebuilt_iff (stored : StoredLines save.number save.entry.lines save.lines)
    (now : Timestamp) :
    (∃ found, PostgresJournalRepo.toDomain now save.header save.lines = .ok found) ↔
      save.Rereads now := by
  have kept := stored.kept
  constructor
  · rintro ⟨found, rebuilt⟩
    have gives := gives_of_rebuilt stored rebuilt
    obtain ⟨lines, _, _, past, _⟩ := toDomain_eq_ok_iff.mp rebuilt
    refine ⟨fun line member => ?_, past, ?_⟩
    · obtain ⟨row, present, keptLine⟩ := kept.exists_right member
      obtain ⟨value, _, converted⟩ := mem_of_fromRows lines present
      exact (lineToDomain_iff keptLine).mp ⟨value, converted⟩
    · have balanced := found.balanced
      rwa [gives.lines.map_eq fun _ _ _ same => same.2.1,
        gives.lines.map_eq fun _ _ _ same => same.2.2] at balanced
  · intro rereads
    obtain ⟨values, rebuilt⟩ : ∃ values,
        fromRows PostgresJournalRepo.lineToDomain save.lines = .ok values := by
      refine fromRows_total fun row member => ?_
      obtain ⟨line, present, keptLine⟩ := kept.exists_left member
      exact (lineToDomain_iff keptLine).mpr (rereads.accounts line present)
    have pairs := fromRows_eq_ok_iff.mp rebuilt
    have sums : sumsAgree (values.map JournalLine.debitAmount)
        (values.map JournalLine.creditAmount) = .ok true := by
      rw [pairs.map_eq fun _ _ _ converted =>
          (JournalLine.validate_eq_ok_iff.mp converted).2.1,
        pairs.map_eq fun _ _ _ converted =>
          (JournalLine.validate_eq_ok_iff.mp converted).2.2]
      exact rereads.balanced
    have enough : 2 ≤ values.length := by
      rw [← pairs.length_eq, ← kept.length_eq]
      exact save.entry.two_lines
    exact ⟨⟨save.entry.journalNumber, save.entry.postingDate, values, save.entry.description,
      save.entry.number_pos, save.entry.date_after, enough, save.entry.description_length, sums⟩,
      toDomain_eq_ok_iff.mpr ⟨rebuilt, rfl, rfl, rereads.past, rfl⟩⟩

end CommittedSave

/-! ### Two statements, two snapshots -/

/-- The listing, with its first statement answered by one store and its second by another. -/
def listing (first second : World) (env env' : Env) : Action (List JournalEntry) :=
  (PostgresJournalRepo.listEntries.resume handle env first).resume handle env' second

/-- The lookup of a number, answered likewise. -/
def lookup (number : Int) (first second : World) (env env' : Env) :
    Action (Option JournalEntry) :=
  ((PostgresJournalRepo.getByNumber number).resume handle env first).resume handle env' second

/-- Saves in the order of their numbers. -/
def byNumber (saves : List CommittedSave) : List CommittedSave :=
  saves.insertionSort fun first second => first.number ≤ second.number

section Reading

variable {first second : World} {saves more : List CommittedSave} {env env' : Env}
  {Result Other : Type}

/-- A SELECT that fails ends the program. -/
theorem resume_execute_bind_failed {query : Query} {world : World}
    {continuation : List query.Row × Timestamp → Action Other} {fault : Fault}
    (failed : env.fault = some fault) :
    (execute query >>= continuation).resume handle env world =
      .done (.error (translatePostgresErrors (.failed fault))) := by
  simp only [execute, Program.ask_bind, Program.resume, handle, failed]
  rfl

theorem resume_done {outcome : Except Raised Result} {world : World} :
    (.done outcome : Action Result).resume handle env world = .done outcome := rfl

theorem byNumber_perm (saves : List CommittedSave) : (byNumber saves).Perm saves :=
  List.perm_insertionSort _ _

theorem mem_byNumber {save : CommittedSave} : save ∈ byNumber saves ↔ save ∈ saves :=
  (byNumber_perm saves).mem_iff

theorem byNumber_ascends (journals : first.Journals saves) :
    (byNumber saves).Pairwise fun save other => save.number < other.number := by
  have sorted : (byNumber saves).Pairwise fun save other => save.number ≤ other.number := by
    have total : Std.Total fun save other : CommittedSave => save.number ≤ other.number :=
      ⟨fun save other => le_total _ _⟩
    have transitive : IsTrans CommittedSave fun save other => save.number ≤ other.number :=
      ⟨fun _ _ _ => le_trans⟩
    exact List.pairwise_insertionSort _ _
  have distinct : ((byNumber saves).map CommittedSave.number).Nodup :=
    ((byNumber_perm saves).map _).nodup_iff.mpr journals.numbers
  exact (sorted.and (List.pairwise_map.mp distinct)).imp fun both => lt_of_le_of_ne both.1 both.2

/-- The headers that the first statement returns. -/
theorem allJournalEntries_rows (journals : first.Journals saves) :
    Query.rows env first .allJournalEntries = (byNumber saves).map CommittedSave.header := by
  rw [Query.rows, journals.headers]
  exact (List.map_insertionSort (fun save other : CommittedSave => save.number ≤ other.number)
    (fun header other : JournalEntryModel => header.journalNumber ≤ other.journalNumber)
    CommittedSave.header saves fun _ _ _ _ => Iff.rfl).symm

/-- The lines that the second statement returns for a header of the first. -/
theorem linesRead (journals : second.Journals (saves ++ more)) {save : CommittedSave}
    (member : save ∈ saves) :
    (Query.rows env' second .allJournalLines).filter
      (fun line => line.journalNumber = save.header.journalNumber) = save.lines :=
  (allJournalLines_filter journals.sound env' save.number).trans
    (journals.linesOf_eq (List.mem_append_left _ member))

/-- The listing returns what the saves of the first snapshot are rebuilt as, and nothing else. -/
theorem listing_eq_ok_iff (journals : first.Journals saves)
    (journals' : second.Journals (saves ++ more)) {entries : List JournalEntry} :
    listing first second env env' = .done (.ok entries) ↔
      env.fault = none ∧ env'.fault = none ∧ List.Forall₂ (fun save entry =>
        PostgresJournalRepo.toDomain env'.now save.header save.lines = .ok entry)
          (byNumber saves) entries := by
  unfold listing PostgresJournalRepo.listEntries
  cases failed : env.fault with
  | some fault =>
    rw [resume_execute_bind_failed failed, resume_done]
    exact iff_of_false (fun same => by cases same) fun both => by cases both.1
  | none =>
    rw [resume_execute_bind failed]
    cases failed' : env'.fault with
    | some fault =>
      rw [resume_execute_bind_failed failed']
      exact iff_of_false (fun same => by cases same) fun both => by cases both.2.1
    | none =>
      rw [resume_execute_bind failed', and_iff_right rfl, and_iff_right rfl]
      have lines : ∀ entries, List.Forall₂ (fun header entry =>
          PostgresJournalRepo.toDomain env'.now header
            ((Query.rows env' second .allJournalLines).filter fun line =>
              line.journalNumber = header.journalNumber) = .ok entry)
            (Query.rows env first .allJournalEntries) entries ↔
          List.Forall₂ (fun save entry =>
            PostgresJournalRepo.toDomain env'.now save.header save.lines = .ok entry)
            (byNumber saves) entries := by
        intro entries
        rw [allJournalEntries_rows journals, List.forall₂_map_left_iff]
        have each : ∀ save ∈ byNumber saves, (Query.rows env' second .allJournalLines).filter
            (fun line => line.journalNumber = save.header.journalNumber) = save.lines :=
          fun save member => linesRead journals' (mem_byNumber.mp member)
        constructor
        · intro pairs
          refine ((List.forall₂_and_left (byNumber saves) entries).mpr ⟨each, pairs⟩).imp ?_
          rintro save entry ⟨own, rebuilt⟩
          rwa [own] at rebuilt
        · intro pairs
          refine ((List.forall₂_and_left (byNumber saves) entries).mpr ⟨each, pairs⟩).imp ?_
          rintro save entry ⟨own, rebuilt⟩
          rwa [own]
      rw [← lines, ← fromRows_eq_ok_iff]
      exact ⟨fun same => Program.done.inj same, fun same => congrArg Program.done same⟩

/-- The lookup of a saved number returns what its save is rebuilt as. -/
theorem lookup_saved_iff (journals : first.Journals saves)
    (journals' : second.Journals (saves ++ more)) {save : CommittedSave} (member : save ∈ saves)
    (calm : env.fault = none) {found : Option JournalEntry} :
    lookup save.number first second env env' = .done (.ok found) ↔
      env'.fault = none ∧ (PostgresJournalRepo.toDomain env'.now save.header save.lines).map some =
        .ok found := by
  have stored : save.header ∈ ({ first with postings := [] } : World).journalEntries := by
    change save.header ∈ first.journalEntries
    rw [journals.headers]
    exact List.mem_map_of_mem member
  have headers : Query.rows env first (.journalEntriesByNumber save.number) = [save.header] :=
    journalEntriesByNumber_rows journals.sound stored env
  have lines : Query.rows env' second (.journalLinesByNumber save.number) = save.lines :=
    (journalLinesByNumber_rows journals'.sound env' save.number).trans
      (journals'.linesOf_eq (List.mem_append_left _ member))
  unfold lookup PostgresJournalRepo.getByNumber
  rw [resume_execute_bind calm, headers]
  simp only [scalarOneOrNone, Program.lift_eq, Program.ok_bind]
  cases failed : env'.fault with
  | some fault =>
    rw [resume_execute_bind_failed failed]
    exact iff_of_false (fun same => by cases same) fun both => by cases both.1
  | none =>
    rw [resume_execute_bind failed, lines, and_iff_right rfl]
    cases PostgresJournalRepo.toDomain env'.now save.header save.lines with
    | error error => exact iff_of_false (fun same => by cases same) fun same => by cases same
    | ok entry => exact ⟨fun same => Program.done.inj same, fun same => congrArg Program.done same⟩

theorem lookup_of_unsaved (journals : first.Journals saves) {number : Int}
    (fresh : ∀ save ∈ saves, save.number ≠ number) (calm : env.fault = none) :
    lookup number first second env env' = .done (.ok none) := by
  have headers : Query.rows env first (.journalEntriesByNumber number) = [] := by
    rw [Query.rows, journals.headers, List.filter_eq_nil_iff]
    intro header member same
    obtain ⟨save, present, rfl⟩ := List.mem_map.mp member
    exact fresh save present (of_decide_eq_true same)
  unfold lookup PostgresJournalRepo.getByNumber
  rw [resume_execute_bind calm, headers]
  rfl

/-- What the lookup of a number returns. -/
theorem lookup_returns (journals : first.Journals saves)
    (journals' : second.Journals (saves ++ more)) {number : Int} {found : Option JournalEntry}
    (returned : lookup number first second env env' = .done (.ok found)) :
    (found = none ∧ ∀ save ∈ saves, save.number ≠ number) ∨
      ∃ entry, found = some entry ∧ ∃ save ∈ saves, save.number = number ∧ save.Gives entry := by
  cases failed : env.fault with
  | some fault =>
    unfold lookup PostgresJournalRepo.getByNumber at returned
    rw [resume_execute_bind_failed failed, resume_done] at returned
    cases returned
  | none =>
    by_cases saved : ∃ save ∈ saves, save.number = number
    · obtain ⟨save, member, rfl⟩ := saved
      obtain ⟨_, rebuilt⟩ := (lookup_saved_iff journals journals' member failed).mp returned
      obtain ⟨entry, converted, rfl⟩ := map_eq_ok_iff.mp rebuilt
      exact .inr ⟨entry, rfl, save, member, rfl,
        CommittedSave.gives_of_rebuilt (journals.stored save member) converted⟩
    · push Not at saved
      rw [lookup_of_unsaved journals saved failed] at returned
      cases returned
      exact .inl ⟨rfl, saved⟩

end Reading

/-! ### Runs of saves -/

section Runs

variable {Thread : Type} [DecidableEq Thread] {requests : Thread → JournalEntry × String}
  {start pool : Pool Thread Command Reply Raised Unit World} {saves : List CommittedSave}

/-- The save of a request. -/
def saving (request : JournalEntry × String) : Action Unit :=
  PostgresJournalRepo.save request.1 request.2

theorem saving_ne_done {request : JournalEntry × String} {outcome : Except Raised Unit} :
    saving request ≠ .done outcome := by
  rw [saving, PostgresJournalRepo.save, commitOr_eq]
  intro same
  cases same

/-- Some requests have committed since a state, and their threads are the ones that ended well. -/
structure Committed (requests : Thread → JournalEntry × String)
    (start pool : Pool Thread Command Reply Raised Unit World) (new : List CommittedSave) :
    Prop where
  pending : ∀ thread, pool.threads thread = saving (requests thread) ∨
    (pool.threads thread).ended = true
  kept : ∀ thread, (start.threads thread).ended = true →
    pool.threads thread = start.threads thread
  origin : ∀ save ∈ new, ∃ thread, requests thread = (save.entry, save.actor) ∧
    start.threads thread = saving (requests thread) ∧ pool.threads thread = .done (.ok ())
  counted : ∀ thread, start.threads thread = saving (requests thread) →
    pool.threads thread = .done (.ok ()) →
      ∃ save ∈ new, requests thread = (save.entry, save.actor)

/-- A save takes one step, which either stores the entry whole or leaves the store. -/
theorem step_saving (journals : pool.state.Journals saves) {thread : Thread} {env : Env}
    (waiting : pool.threads thread = saving (requests thread)) :
    (∃ error, (pool.step handle thread env).threads thread = .done (.error error) ∧
      (pool.step handle thread env).state = pool.state) ∨
    ∃ lines, (pool.step handle thread env).threads thread = .done (.ok ()) ∧
      (pool.step handle thread env).state.Journals
        (saves ++ [⟨(requests thread).1, (requests thread).2, lines⟩]) := by
  rw [saving, PostgresJournalRepo.save, commitOr_eq] at waiting
  rw [Pool.step_of_ask waiting]
  simp only [Function.update_self]
  cases failed : env.fault with
  | some fault =>
    simp only [handle, failed]
    exact .inl ⟨_, rfl, trivial⟩
  | none =>
    cases applied : (Transaction.insertJournal (headerOf (requests thread).1 (requests thread).2)
        (PostgresJournalRepo.lineRows (requests thread).1.journalNumber
          (requests thread).1.lines)).apply env pool.state with
    | error error =>
      rw [headerOf] at applied
      simp only [handle, failed, applied]
      refine .inl ?_
      cases error with
      | integrity constraint => exact ⟨_, rfl, trivial⟩
      | failed fault => exact ⟨_, rfl, trivial⟩
    | ok after =>
      obtain ⟨lines, extended⟩ := journals.save applied
      rw [headerOf] at applied
      simp only [handle, failed, applied]
      exact .inr ⟨lines, trivial, extended⟩

/-- In a run of saves the journal grows by the saves that commit. -/
theorem reaches_committed (journals : start.state.Journals saves)
    (waiting : ∀ thread, start.threads thread = saving (requests thread) ∨
      (start.threads thread).ended = true)
    (reaches : Reaches handle (fun _ _ _ _ => True) start pool) :
    ∃ new, pool.state.Journals (saves ++ new) ∧ Committed requests start pool new := by
  induction reaches with
  | refl =>
    refine ⟨[], by rwa [List.append_nil], ⟨waiting, fun _ _ => rfl, ?_, ?_⟩⟩
    · intro save member
      cases member
    · intro thread unsaved saved
      rw [unsaved] at saved
      exact absurd saved saving_ne_done
  | @step current mover command next before env asks _ inductionHypothesis =>
    obtain ⟨new, grown, committed⟩ := inductionHypothesis
    have moves : current.threads mover = saving (requests mover) := by
      refine (committed.pending mover).resolve_right fun done => ?_
      obtain ⟨outcome, same⟩ := Program.ended_iff.mp done
      rw [asks] at same
      cases same
    have unsaved : start.threads mover = saving (requests mover) := by
      refine (waiting mover).resolve_right fun done => ?_
      obtain ⟨outcome, same⟩ := Program.ended_iff.mp done
      rw [committed.kept mover done, same] at moves
      exact saving_ne_done moves.symm
    have others : ∀ thread, thread ≠ mover →
        (current.step handle mover env).threads thread = current.threads thread := by
      intro thread different
      rw [Pool.step_of_ask asks]
      exact Function.update_of_ne different _ _
    have settled : ∀ thread outcome, current.threads thread = .done outcome →
        (current.step handle mover env).threads thread = .done outcome := by
      intro thread outcome done
      rw [others thread]
      · exact done
      · rintro rfl
        rw [done] at moves
        exact saving_ne_done moves.symm
    have kept : ∀ thread, (start.threads thread).ended = true →
        (current.step handle mover env).threads thread = start.threads thread := by
      intro thread done
      obtain ⟨outcome, same⟩ := Program.ended_iff.mp done
      rw [same]
      exact settled thread outcome ((committed.kept thread done).trans same)
    have pending : ∀ outcome, (current.step handle mover env).threads mover = .done outcome →
        ∀ thread, (current.step handle mover env).threads thread = saving (requests thread) ∨
          ((current.step handle mover env).threads thread).ended = true := by
      intro outcome ended thread
      by_cases same : thread = mover
      · rw [same, ended]
        exact .inr rfl
      · rw [others thread same]
        exact committed.pending thread
    rcases step_saving grown moves with ⟨error, ended, still⟩ | ⟨lines, ended, extended⟩
    · refine ⟨new, still ▸ grown, ⟨pending _ ended, kept, fun save member => ?_, ?_⟩⟩
      · obtain ⟨thread, request, began, saved⟩ := committed.origin save member
        exact ⟨thread, request, began, settled thread _ saved⟩
      · intro thread began saved
        have different : thread ≠ mover := by
          rintro rfl
          rw [ended] at saved
          cases saved
        rw [others thread different] at saved
        exact committed.counted thread began saved
    · refine ⟨new ++ [⟨(requests mover).1, (requests mover).2, lines⟩], ?_,
        ⟨pending _ ended, kept, fun save member => ?_, ?_⟩⟩
      · rw [← List.append_assoc]
        exact extended
      · rcases List.mem_append.mp member with earlier | now
        · obtain ⟨thread, request, began, saved⟩ := committed.origin save earlier
          exact ⟨thread, request, began, settled thread _ saved⟩
        · rw [List.mem_singleton.mp now]
          exact ⟨mover, rfl, unsaved, ended⟩
      · intro thread began saved
        by_cases same : thread = mover
        · rw [same]
          exact ⟨_, List.mem_append_right _ List.mem_cons_self, rfl⟩
        · rw [others thread same] at saved
          obtain ⟨save, member, request⟩ := committed.counted thread began saved
          exact ⟨save, List.mem_append_left _ member, request⟩

end Runs

/-- The listing returned all of these saves, each once, in the order of their numbers, and each with
its own lines. -/
def ListsAll (saves : List CommittedSave) (result : Action (List JournalEntry)) : Prop :=
  ∃ entries, result = .done (.ok entries) ∧ ∃ ordered, ordered.Perm saves ∧
    (ordered.Pairwise fun save other => save.number < other.number) ∧
    List.Forall₂ CommittedSave.Gives ordered entries

theorem lists_of_rebuilt {first : World} {saves : List CommittedSave}
    (journals : first.Journals saves) {now : Timestamp} {entries : List JournalEntry}
    (rebuilt : List.Forall₂ (fun save entry =>
      PostgresJournalRepo.toDomain now save.header save.lines = .ok entry) (byNumber saves)
        entries) : List.Forall₂ CommittedSave.Gives (byNumber saves) entries := by
  refine ((List.forall₂_and_left (byNumber saves) entries).mpr
    ⟨fun save member => journals.stored save (mem_byNumber.mp member), rebuilt⟩).imp ?_
  rintro save entry ⟨stored, converted⟩
  exact CommittedSave.gives_of_rebuilt stored converted

/-- The listing returns all saves of its first snapshot exactly when neither statement fails and
each of the saves reads back. -/
theorem listsAll_iff {first second : World} {saves more : List CommittedSave} {env env' : Env}
    (journals : first.Journals saves) (journals' : second.Journals (saves ++ more)) :
    ListsAll saves (listing first second env env') ↔
      env.fault = none ∧ env'.fault = none ∧ ∀ save ∈ saves, save.Rereads env'.now := by
  constructor
  · rintro ⟨entries, returned, _⟩
    obtain ⟨calm, calm', rebuilt⟩ := (listing_eq_ok_iff journals journals').mp returned
    refine ⟨calm, calm', fun save member => ?_⟩
    obtain ⟨entry, _, converted⟩ := rebuilt.exists_right (mem_byNumber.mpr member)
    exact (CommittedSave.rebuilt_iff (journals.stored save member) _).mp ⟨entry, converted⟩
  · rintro ⟨calm, calm', rereads⟩
    obtain ⟨entries, rebuilt⟩ : ∃ entries, fromRows (fun save : CommittedSave =>
        PostgresJournalRepo.toDomain env'.now save.header save.lines) (byNumber saves) =
          .ok entries :=
      fromRows_total fun save member => (CommittedSave.rebuilt_iff
        (journals.stored save (mem_byNumber.mp member)) _).mpr
          (rereads save (mem_byNumber.mp member))
    have pairs := fromRows_eq_ok_iff.mp rebuilt
    exact ⟨entries, (listing_eq_ok_iff journals journals').mpr ⟨calm, calm', pairs⟩,
      byNumber saves, byNumber_perm saves, byNumber_ascends journals,
      lists_of_rebuilt journals pairs⟩

/-- Whatever saves commit before, between and after the two statements of a read, the read
assembles whole entries: what it returns has the header of one save and exactly its lines, in their
order. The listing returns every save that committed before its first statement, each once and in
the order of the numbers, exactly when no statement fails and each of these saves reads back. -/
theorem journal_reads_whole {Thread : Type} [DecidableEq Thread]
    (requests : Thread → JournalEntry × String) {start : World} {before : List CommittedSave}
    (journals : start.Journals before)
    {pool later : Pool Thread Command Reply Raised Unit World}
    (reaches : Reaches handle (fun _ _ _ _ => True)
      ⟨start, fun thread => saving (requests thread)⟩ pool)
    (further : Reaches handle (fun _ _ _ _ => True) pool later) (env env' : Env) :
    ∃ new : List CommittedSave,
      (∀ save ∈ new, ∃ thread, requests thread = (save.entry, save.actor) ∧
        pool.threads thread = .done (.ok ())) ∧
      (∀ thread, pool.threads thread = .done (.ok ()) →
        ∃ save ∈ new, requests thread = (save.entry, save.actor)) ∧
      (∀ save ∈ before ++ new, StoredLines save.number save.entry.lines save.lines) ∧
      (ListsAll (before ++ new) (listing pool.state later.state env env') ↔
        env.fault = none ∧ env'.fault = none ∧ ∀ save ∈ before ++ new, save.Rereads env'.now) ∧
      (∀ entries, listing pool.state later.state env env' = .done (.ok entries) →
        ListsAll (before ++ new) (listing pool.state later.state env env')) ∧
      ∀ number found, lookup number pool.state later.state env env' = .done (.ok found) →
        (found = none ∧ ∀ save ∈ before ++ new, save.number ≠ number) ∨
          ∃ entry, found = some entry ∧
            ∃ save ∈ before ++ new, save.number = number ∧ save.Gives entry := by
  obtain ⟨new, now, committed⟩ := reaches_committed journals (fun _ => .inl rfl) reaches
  obtain ⟨more, afterwards, _⟩ := reaches_committed now committed.pending further
  refine ⟨new, fun save member => ?_, fun thread saved => committed.counted thread rfl saved,
    now.stored, listsAll_iff now afterwards, fun entries returned => ?_,
    fun number found returned => lookup_returns now afterwards returned⟩
  · obtain ⟨thread, request, _, saved⟩ := committed.origin save member
    exact ⟨thread, request, saved⟩
  · obtain ⟨_, _, rebuilt⟩ := (listing_eq_ok_iff now afterwards).mp returned
    exact ⟨entries, returned, byNumber _, byNumber_perm _, byNumber_ascends now,
      lists_of_rebuilt now rebuilt⟩

/-- Everyone saves the same entry. -/
def sameRequest (entry : JournalEntry) : Nat → JournalEntry × String := fun _ => (entry, "alice")

/-- The first of them does. -/
def savedPool (entry : JournalEntry) : Pool Nat Command Reply Raised Unit World :=
  Pool.execute handle [(0, Env.calm 1700000000000000)]
    ⟨World.empty, fun thread => saving (sameRequest entry thread)⟩

/-- An entry of whole cents is listed. -/
theorem journal_reads_whole_of_cents :
    ∃ new, (∃ save ∈ new, save.entry = centsEntry) ∧
      ListsAll new (listing (savedPool centsEntry).state (savedPool centsEntry).state
        (Env.calm 1700000000000000) (Env.calm 1700000000000000)) := by
  obtain ⟨new, _, counted, _, _, listed, _⟩ := journal_reads_whole (sameRequest centsEntry)
    empty_journals (reaches_execute [(0, Env.calm 1700000000000000)] (by decide +kernel))
    (Reaches.refl : Reaches handle (fun _ _ _ _ => True) (savedPool centsEntry) _)
    (Env.calm 1700000000000000) (Env.calm 1700000000000000)
  have saved : (savedPool centsEntry).threads 0 = .done (.ok ()) :=
    Program.outcome?_eq_some_iff.mp (by decide +kernel)
  obtain ⟨save, member, request⟩ := counted 0 saved
  obtain ⟨entries, returned⟩ : ∃ entries, listing (savedPool centsEntry).state
      (savedPool centsEntry).state (Env.calm 1700000000000000) (Env.calm 1700000000000000) =
        .done (.ok entries) := Program.succeeded_iff.mp (by decide +kernel)
  exact ⟨new, ⟨save, member, (congrArg Prod.fst request).symm⟩, listed entries returned⟩

/-- An entry that balances only until its amounts are rounded is committed, and the listing raises
from then on. -/
theorem journal_reads_fail_on_thirdPlace :
    Reaches handle (fun _ _ _ _ => True)
        ⟨World.empty, fun thread => saving (sameRequest thirdPlaceEntry thread)⟩
        (savedPool thirdPlaceEntry) ∧
      (savedPool thirdPlaceEntry).threads 0 = .done (.ok ()) ∧
      ∀ entries, listing (savedPool thirdPlaceEntry).state (savedPool thirdPlaceEntry).state
        (Env.calm 1700000000000000) (Env.calm 1700000000000000) ≠ .done (.ok entries) := by
  refine ⟨reaches_execute_of_forall _ fun _ _ _ _ => trivial,
    Program.outcome?_eq_some_iff.mp (by decide +kernel), fun entries returned => ?_⟩
  have failed : (listing (savedPool thirdPlaceEntry).state (savedPool thirdPlaceEntry).state
      (Env.calm 1700000000000000) (Env.calm 1700000000000000)).succeeded = false := by
    decide +kernel
  rw [returned] at failed
  cases failed

end Trutina
