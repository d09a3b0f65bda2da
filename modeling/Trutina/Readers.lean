/-
This file proves that the readers of the ledger are told one story. Entries and
postings are read in several steps while others write, and by number, by account
or all together; still, all views of one entry that are ever returned are equal,
all lists of its postings are equal unless they were read before it was posted,
and its postings are those of the lines of its view. What the caller who posted
the entry was told is what everyone reads. A statement of an account that is
asked for later has every posting that an earlier one had.
-/

import Trutina.JournalRoundTrip

namespace Trutina

open Interaction

/-! ### What is stored, as readers see it -/

/-- The view of a stored posting. -/
def storedPosting (posting : PostingModel Money) : PostingViewModel where
  account := posting.account
  debitAmount := if 0 < posting.debitAmount.cents then some posting.debitAmount.toDecimal else none
  creditAmount := if 0 < posting.debitAmount.cents then none
    else some posting.creditAmount.toDecimal
  journalNumber := posting.journalNumber
  postingDate := posting.postingDate

/-- The postings of an entry, as its view shows them. -/
def JournalViewModel.postings (view : JournalViewModel) : List PostingViewModel :=
  view.lines.map fun (line : JournalLineViewModel) =>
    { account := line.account
      debitAmount := if 0 < line.debitAmount.coefficient then some line.debitAmount else none
      creditAmount := if 0 < line.debitAmount.coefficient then none else some line.creditAmount
      journalNumber := view.journalNumber
      postingDate := view.postingDate }

/-- A view is that of a stored entry. -/
def World.TellsEntry (world : World) (view : JournalViewModel) : Prop :=
  ∃ header ∈ world.journalEntries, ∃ now entry, PostgresJournalRepo.toDomain now header
    (world.linesOf header.journalNumber) = .ok entry ∧ toEntryView entry = .ok view

/-- Views are those of the postings stored under a number, if any were found. -/
def World.TellsPostings (world : World) (number : Int) (views : List PostingViewModel) : Prop :=
  views ≠ [] → views = (world.postingsOf number).map storedPosting

/-- The views of all postings stored under the key of an account. -/
def World.statement (world : World) (account : String) : List PostingViewModel :=
  (world.postings.filter fun posting =>
    posting.accountKey = accountLookupKey account).map storedPosting

section Stored

variable {world after : World}

/-- A posting that is rebuilt from a clean row has the view of the row. -/
theorem toViewModel_of_toDomain {now : Timestamp} {posting : PostingModel Money}
    {value : LedgerPosting} (clean : cleanAccountName posting.account = some posting.account)
    (rebuilt : PostgresPostingRepo.toDomain now posting = .ok value) :
    PostingService.toViewModel value = storedPosting posting := by
  obtain ⟨⟨account, _⟩, debit, credit, number, date, _⟩ :=
    LedgerPosting.validate_eq_ok_iff.mp rebuilt
  rw [clean, Option.some.injEq] at account
  rw [DateTime.mk.injEq] at date
  simp only [PostingService.toViewModel, storedPosting, LedgerPosting.isDebit, debit, credit,
    number, ← date.1, ← account, Money.toDecimal, decide_eq_true_eq]

/-- Rows that are rebuilt have the views of the rows. -/
theorem toViewModel_of_fromRows {now : Timestamp} {rows : List (PostingModel Money)}
    {postings : List LedgerPosting}
    (clean : ∀ row ∈ rows, cleanAccountName row.account = some row.account)
    (rebuilt : fromRows (PostgresPostingRepo.toDomain now) rows = .ok postings) :
    postings.map PostingService.toViewModel = rows.map storedPosting :=
  (fromRows_eq_ok_iff.mp rebuilt).map_eq fun row member _ converted =>
    toViewModel_of_toDomain (clean row member) converted

/-- The views of an entry's postings are read off its view. -/
theorem postings_of_lines {header : JournalEntryModel} {createdBy : Option String}
    {view : JournalViewModel} (number : view.journalNumber = header.journalNumber)
    (date : view.postingDate = header.postingDate)
    (lines : view.lines = (world.linesOf header.journalNumber).map storedView) :
    ((world.linesOf header.journalNumber).map (postingOf header createdBy)).map storedPosting =
      view.postings := by
  rw [JournalViewModel.postings, lines, List.map_map, List.map_map]
  refine List.map_congr_left fun line member => ?_
  have own := (mem_linesOf.mp member).2
  simp only [Function.comp_apply, postingOf, storedPosting, storedView, own, number, date]
  rfl

/-- What posting derives from a view has the views of its postings. -/
theorem toViewModel_of_derived {now : Timestamp} {view : JournalViewModel}
    {postings : List LedgerPosting}
    (clean : ∀ line ∈ view.lines, cleanAccountName line.account = some line.account)
    (derived : PostingService.derivePostings now view = .ok postings) :
    postings.map PostingService.toViewModel = view.postings := by
  rw [JournalViewModel.postings]
  refine (fromRows_eq_ok_iff.mp derived).map_eq fun line member posting converted => ?_
  obtain ⟨⟨account, _⟩, debit, credit, number, date, _⟩ :=
    LedgerPosting.validate_eq_ok_iff.mp converted
  rw [clean line member, Option.some.injEq] at account
  rw [DateTime.mk.injEq] at date
  simp only [PostingService.toViewModel, LedgerPosting.isDebit, debit, credit, number, ← date.1,
    ← account, decide_eq_true_eq]

theorem World.TellsEntry.later {view : JournalViewModel} (told : world.TellsEntry view)
    (kept : world.KeepsLedger after) : after.TellsEntry view := by
  obtain ⟨header, stored, now, entry, rebuilt, viewed⟩ := told
  rw [← kept.lines header stored] at rebuilt
  exact ⟨header, kept.entries header stored, now, entry, rebuilt, viewed⟩

theorem World.TellsPostings.later {number : Int} {views : List PostingViewModel}
    (told : world.TellsPostings number views) (kept : world.KeepsLedger after) :
    after.TellsPostings number views := by
  intro some'
  have same := told some'
  rw [kept.postings number fun none => some' (by rw [same, none, List.map_nil])]
  exact same

/-- Stored postings stay stored, each as often as it is there. -/
theorem World.KeepsLedger.postings_subperm (kept : world.KeepsLedger after) :
    world.postings.Subperm after.postings := by
  refine List.subperm_ext_iff.mpr fun posting member => ?_
  have counted : ∀ other : World, (other.postingsOf posting.journalNumber).count posting =
      other.postings.count posting :=
    fun other => List.count_filter (decide_eq_true rfl)
  have listed : posting ∈ world.postingsOf posting.journalNumber :=
    mem_postingsOf.mpr ⟨member, rfl⟩
  rw [← counted world, ← counted after, kept.postings _ (List.ne_nil_of_mem listed)]

/-- A statement has all that an earlier one had. -/
theorem World.KeepsLedger.statement (kept : world.KeepsLedger after) (account : String) :
    (world.statement account).Subperm (after.statement account) := by
  obtain ⟨stored, same, sublist⟩ := kept.postings_subperm.filter fun posting =>
    decide (posting.accountKey = accountLookupKey account)
  exact ⟨stored.map storedPosting, same.map storedPosting, sublist.map storedPosting⟩

/-- The view of an entry, read off what is stored. -/
theorem World.TellsEntry.stored (sound : world.Sound) {view : JournalViewModel}
    (told : world.TellsEntry view) :
    ∃ header ∈ world.journalEntries, view.journalNumber = header.journalNumber ∧
      view.postingDate = header.postingDate ∧
      view.lines = (world.linesOf header.journalNumber).map storedView := by
  obtain ⟨header, stored, now, entry, rebuilt, viewed⟩ := told
  obtain ⟨found, same, number, date, lines⟩ := view_of_toDomain
    (fun line member => sound.clean line (mem_linesOf.mp member).1) rebuilt
  obtain rfl : found = view := Except.ok.inj (same.symm.trans viewed)
  exact ⟨header, stored, number, date, lines⟩

/-- The postings of an entry, once there are any, are those that its view shows. -/
theorem World.TellsEntry.postings (sound : world.Sound) {view : JournalViewModel}
    (told : world.TellsEntry view) (posted : world.postingsOf view.journalNumber ≠ []) :
    (world.postingsOf view.journalNumber).map storedPosting = view.postings := by
  obtain ⟨header, stored, number, date, lines⟩ := told.stored sound
  obtain ⟨other, own, whole⟩ := (sound.whole view.journalNumber).resolve_left posted
  obtain rfl : other = header := sound.eq_of_number whole.stored stored (own.trans number)
  obtain ⟨createdBy, batch⟩ := whole.batch
  rw [number, batch, postings_of_lines number date lines]

/-- All views of one entry are equal. -/
theorem World.TellsEntry.unique (sound : world.Sound) {view view' : JournalViewModel}
    (told : world.TellsEntry view) (told' : world.TellsEntry view')
    (same : view.journalNumber = view'.journalNumber) : view = view' := by
  obtain ⟨header, stored, now, entry, rebuilt, viewed⟩ := told
  obtain ⟨header', stored', now', entry', rebuilt', viewed'⟩ := told'
  have clean : ∀ number, ∀ line ∈ world.linesOf number,
      cleanAccountName line.account = some line.account :=
    fun _ line member => sound.clean line (mem_linesOf.mp member).1
  obtain ⟨found, views, number, _⟩ := view_of_toDomain (clean _) rebuilt
  obtain ⟨found', views', number', _⟩ := view_of_toDomain (clean _) rebuilt'
  obtain rfl : found = view := Except.ok.inj (views.symm.trans viewed)
  obtain rfl : found' = view' := Except.ok.inj (views'.symm.trans viewed')
  obtain rfl : header = header' :=
    sound.eq_of_number stored stored' (number.symm.trans (same.trans number'))
  obtain ⟨lines, sameNumber, date, _, description⟩ := toDomain_eq_ok_iff.mp rebuilt
  obtain ⟨lines', sameNumber', date', _, description'⟩ := toDomain_eq_ok_iff.mp rebuilt'
  have sameEntry : toEntryView entry = toEntryView entry' := by
    simp only [toEntryView, Except.ok.inj (lines.symm.trans lines'),
      sameNumber.trans sameNumber'.symm, date.trans date'.symm,
      description.trans description'.symm]
  exact Except.ok.inj (viewed.symm.trans (sameEntry.trans viewed'))

end Stored

/-! ### What calls tell -/

/-- The calls whose responses show entries or postings. -/
def Call.ShowsLedger : Call → Prop
  | .getJournalEntry _ => True
  | .listJournalEntries => True
  | .postJournalEntry _ _ => True
  | .getPostingsByJournalNumber _ => True
  | .getPostingsByAccount _ => True
  | _ => False

/-- What the response of a call tells of the store. -/
inductive World.Tells (world : World) : Call → Response → Prop where
  | entry {number : Int} {view : JournalViewModel} (own : view.journalNumber = number)
      (told : world.TellsEntry view) : Tells world (.getJournalEntry number) (.journal view)
  | entries {views : List JournalViewModel} (told : ∀ view ∈ views, world.TellsEntry view) :
      Tells world .listJournalEntries (.journals views)
  | posted {number : Int} {actor : String} {views : List PostingViewModel} (found : views ≠ [])
      (told : world.TellsPostings number views) :
      Tells world (.postJournalEntry number actor) (.postings views)
  | postings {number : Int} {views : List PostingViewModel}
      (told : world.TellsPostings number views) :
      Tells world (.getPostingsByJournalNumber number) (.postings views)
  | statement {account : String} {views : List PostingViewModel}
      (told : views.Subperm (world.statement account)) :
      Tells world (.getPostingsByAccount account) (.postings views)
  | silent {call : Call} {response : Response} (other : ¬call.ShowsLedger) :
      Tells world call response

/-- What was told stays so. -/
theorem World.Tells.later {world after : World} {call : Call} {response : Response}
    (told : world.Tells call response) (kept : world.KeepsLedger after) :
    after.Tells call response := by
  cases told with
  | entry own told => exact .entry own (told.later kept)
  | entries told => exact .entries fun view member => (told view member).later kept
  | posted found told => exact .posted found (told.later kept)
  | postings told => exact .postings (told.later kept)
  | statement told => exact .statement (told.trans (kept.statement _))
  | silent other => exact .silent other

/-- The task of a call whose response must keep a promise; an error promises nothing. -/
def promising (promise : Response → World → Prop) :
    Task Command Reply Raised Response Env World where
  permits _ _ _ := True
  shows _ _ _ _ := True
  ensures outcome world := ∀ response, outcome = .ok response → promise response world

/-- A call is held to what its response tells. -/
def Call.telling (call : Call) : Task Command Reply Raised Response Env World :=
  promising fun response world => world.Tells call response

section Promising

variable {promise : Response → World → Prop} {world : World}

theorem promising_harmless (command : Command) (error : Raised) :
    Harmless (promising promise) command error where
  shows _ _ _ := trivial
  ensures _ _ same := by cases same

theorem promising_done {response : Response}
    (kept : ∀ later, world.KeepsLedger later → promise response later) :
    (.done (.ok response) : Action Response).Valid handle ledgerRegime (promising promise) world :=
  Program.valid_done fun later evolved _ _ same => Except.ok.inj same ▸ kept later evolved

theorem promising_error (error : Raised) :
    (.done (.error error) : Action Response).Valid handle ledgerRegime (promising promise) world :=
  Program.valid_done fun _ _ _ _ same => by cases same

theorem promising_lift {Result : Type} {computed : Except Raised Result}
    {continuation : Result → Action Response}
    (rest : ∀ result, computed = .ok result →
      (continuation result).Valid handle ledgerRegime (promising promise) world) :
    ((liftM computed : Action Result) >>= continuation).Valid handle ledgerRegime
      (promising promise) world :=
  valid_lift_bind (fun error _ => (promising_harmless (.query .allAccounts) error).ensures) rest

theorem promising_execute {query : Query}
    {continuation : List query.Row × Timestamp → Action Response}
    (rest : ∀ later, world.KeepsLedger later → later.Sound → ∀ env,
      (continuation (query.rows env later, env.now)).Valid handle ledgerRegime
        (promising promise) later) :
    (execute query >>= continuation).Valid handle ledgerRegime (promising promise) world :=
  valid_execute_bind (fun _ _ _ _ _ => promising_harmless _ _)
    fun later kept sound env _ => ⟨trivial, rest later kept sound env⟩

/-- The log record at the end of a write. -/
theorem promising_log {event : String} {context : List (String × LogValue)} {response : Response}
    (kept : ∀ later, world.KeepsLedger later → promise response later) :
    (logInfo event context >>= fun _ => (.done (.ok response) : Action Response)).Valid handle
      ledgerRegime (promising promise) world := by
  refine Program.valid_ask fun later evolved sound env _ => ?_
  have still : later.KeepsLedger (handle (.emit ⟨event, context⟩) env later).2 :=
    .of_eq rfl rfl rfl
  exact ⟨sound.congr rfl rfl rfl, still, trivial, promising_done fun last further =>
    kept last (World.KeepsLedger.trans evolved (still.trans further))⟩

/-- The entry that is read under a number. -/
theorem getJournalEntry_promising {number : Int}
    {continuation : JournalViewModel → Action Response}
    (rest : ∀ later header view, later.Sound → ReadEntry number later header view →
      later.TellsEntry view →
        (continuation view).Valid handle ledgerRegime (promising promise) later) :
    (JournalService.getJournalEntry number >>= continuation).Valid handle ledgerRegime
      (promising promise) world := by
  simp only [JournalService.getJournalEntry, PostgresJournalRepo.getByNumber, bind_assoc]
  refine promising_execute fun first _ sound env => promising_lift fun found loads => ?_
  cases found with
  | none => exact promising_error _
  | some header =>
    obtain ⟨stored, own⟩ := mem_of_journalEntriesByNumber env loads
    simp only [bind_assoc]
    refine promising_execute fun second kept sound env => promising_lift fun entry rebuilt => ?_
    rw [journalLinesByNumber_rows sound, ← own] at rebuilt
    obtain ⟨view, viewed, sameNumber, date, lines⟩ := view_of_toDomain
      (fun line member => sound.clean line (mem_linesOf.mp member).1) rebuilt
    simp only [orRaise, JournalService.computing, viewed, Program.lift_eq, Program.pure_eq,
      Program.ok_bind]
    have present := kept.entries header stored
    exact rest second header view sound
      ⟨present, own, ⟨_, entry, rebuilt⟩, sameNumber, date, lines⟩
      ⟨header, present, _, entry, rebuilt, viewed⟩

/-- A listing reads its headers first and their lines later. It has every entry of the first. -/
theorem listJournalEntries_promising
    (rest : ∀ later views, (∀ view ∈ views, later.TellsEntry view) →
      (∀ header ∈ world.journalEntries, ∃ view ∈ views,
        view.journalNumber = header.journalNumber) →
      (.done (.ok (.journals views)) : Action Response).Valid handle ledgerRegime
        (promising promise) later) :
    Call.listJournalEntries.program.Valid handle ledgerRegime (promising promise) world := by
  simp only [Call.program, JournalService.listJournalEntries, PostgresJournalRepo.listEntries,
    map_eq_pure_bind, bind_assoc]
  refine promising_execute fun first earlier _ env => ?_
  refine promising_execute fun second kept sound env' => ?_
  refine promising_lift fun entries rebuilt => promising_lift fun views viewed => ?_
  have headers := fromRows_eq_ok_iff.mp rebuilt
  have shown : List.Forall₂ (fun entry view =>
      JournalService.computing (toEntryView entry) = .ok view) entries views :=
    fromRows_eq_ok_iff.mp viewed
  have viewOf : ∀ {entry view}, JournalService.computing (toEntryView entry) = .ok view →
      toEntryView entry = .ok view ∧ view.journalNumber = entry.journalNumber := by
    intro entry view converted
    obtain ⟨found, same, number, _⟩ := toEntryView_eq_ok entry
    rw [same] at converted ⊢
    cases converted
    exact ⟨rfl, number⟩
  refine rest second views (fun view member => ?_) fun header member => ?_
  · obtain ⟨entry, listed, converted⟩ := shown.exists_left member
    obtain ⟨header, present, same⟩ := headers.exists_left listed
    have stored : header ∈ first.journalEntries := (List.mem_insertionSort _).mp present
    simp only [allJournalLines_filter sound] at same
    exact ⟨header, kept.entries header stored, _, entry, same, (viewOf converted).1⟩
  · have present : header ∈ Query.rows env first .allJournalEntries :=
      (List.mem_insertionSort _).mpr (earlier.entries header member)
    obtain ⟨entry, listed, same⟩ := headers.exists_right present
    obtain ⟨view, found, converted⟩ := shown.exists_right listed
    exact ⟨view, found, (viewOf converted).2.trans (toDomain_eq_ok_iff.mp same).2.1⟩

/-- Postings that are read under a number are those stored under it. -/
theorem getByJournalNumber_promising {number : Int}
    {continuation : List LedgerPosting × Timestamp → Action Response}
    (rest : ∀ later now postings, later.Sound → world.KeepsLedger later →
      postings.map PostingService.toViewModel = (later.postingsOf number).map storedPosting →
        (continuation (postings, now)).Valid handle ledgerRegime (promising promise) later) :
    (PostgresPostingRepo.getByJournalNumber number >>= continuation).Valid handle ledgerRegime
      (promising promise) world := by
  simp only [PostgresPostingRepo.getByJournalNumber, bind_assoc]
  refine promising_execute fun later kept sound env => promising_lift fun postings rebuilt => ?_
  rw [postingsByNumber_rows sound] at rebuilt
  refine rest later env.now postings sound kept (toViewModel_of_fromRows (fun row member => ?_)
    rebuilt)
  exact (sound.posting_keyed (mem_postingsOf.mp member).1).2

/-- The rows of a statement are those stored under its key, in an order of their dates. -/
theorem statement_of_rows (sound : world.Sound) {account : String} {env : Env} {now : Timestamp}
    {postings : List LedgerPosting} (rebuilt : fromRows (PostgresPostingRepo.toDomain now)
      (Query.rows env world (.postingsByAccountKey (accountLookupKey account))) = .ok postings) :
    (postings.map PostingService.toViewModel).Perm (world.statement account) := by
  have rows : (Query.rows env world (.postingsByAccountKey (accountLookupKey account))).Perm
      (world.postings.filter fun posting => posting.accountKey = accountLookupKey account) :=
    (List.perm_insertionSort _ _).trans (env.arrangePostings_perm _)
  rw [toViewModel_of_fromRows (fun row member => ?_) rebuilt]
  · exact rows.map storedPosting
  · exact (sound.posting_keyed (List.mem_of_mem_filter (rows.mem_iff.mp member))).2

theorem getPostingsByAccount_promising {account : String}
    (rest : ∀ later views, world.KeepsLedger later → views.Perm (later.statement account) →
      (.done (.ok (.postings views)) : Action Response).Valid handle ledgerRegime
        (promising promise) later) :
    (Call.getPostingsByAccount account).program.Valid handle ledgerRegime (promising promise)
      world := by
  simp only [Call.program, PostingService.getPostingsByAccount, PostgresPostingRepo.getByAccount,
    map_eq_pure_bind, bind_assoc, pure_bind]
  refine promising_execute fun later kept sound env => promising_lift fun postings rebuilt => ?_
  exact rest later _ kept (statement_of_rows sound rebuilt)

end Promising

/-- What is told at the end stays so. -/
theorem tells_done {call : Call} {world : World} {response : Response}
    (told : world.Tells call response) :
    (.done (.ok response) : Action Response).Valid handle ledgerRegime call.telling world :=
  promising_done fun _ kept => told.later kept

/-- The caller who posts an entry is told what is stored. -/
theorem postJournalEntry_tells (number : Int) (actor : String) (world : World) :
    (Call.postJournalEntry number actor).program.Valid handle ledgerRegime
      (Call.postJournalEntry number actor).telling world := by
  simp only [Call.program, PostingService.postJournalEntry, map_eq_pure_bind, bind_assoc]
  refine promising_lift fun _ _ => ?_
  refine getJournalEntry_promising fun first header view sound read _ => ?_
  refine getByJournalNumber_promising fun second now existing sound kept _ => ?_
  refine promising_lift fun _ _ => promising_lift fun postings derived => ?_
  have read := read.later kept
  rw [PostgresPostingRepo.saveMany, read.rows_eq sound derived]
  refine valid_commitOr_bind (fun _ _ _ _ _ => promising_harmless _ _)
    (fun _ _ _ _ _ _ _ _ => ⟨trivial, promising_error _⟩)
    fun third kept sound env _ after _ applied => ?_
  rw [← kept.lines header read.stored] at applied
  have read := read.later kept
  obtain ⟨soundAfter, keptAfter, _, batch⟩ :=
    insertPostings_sound sound read.stored read.readable applied
  have shown : postings.map PostingService.toViewModel = view.postings := by
    refine toViewModel_of_derived (fun line member => ?_) derived
    rw [read.lines] at member
    obtain ⟨stored, listed, rfl⟩ := List.mem_map.mp member
    exact sound.clean stored (mem_linesOf.mp listed).1
  obtain ⟨time, entry, rebuilt⟩ := read.readable
  have told : after.Tells (.postJournalEntry number actor)
      (.postings (postings.map PostingService.toViewModel)) := by
    refine .posted ?_ fun _ => ?_
    · rw [shown, JournalViewModel.postings, read.lines]
      simpa only [ne_eq, List.map_eq_nil_iff] using lines_ne_nil rebuilt
    · rw [shown, ← read.own, batch, postings_of_lines read.number read.date read.lines]
  simp only [pure_bind]
  exact ⟨soundAfter, keptAfter, trivial, promising_log fun _ further => told.later further⟩

/-- Every call tells what is stored, and goes on telling it. -/
theorem call_tells (call : Call) (world : World) :
    call.program.Valid handle ledgerRegime call.telling world := by
  have others : ∀ {other : Call}, (∀ number, ¬other.Posts number) → ¬other.ShowsLedger →
      other.program.Valid handle ledgerRegime other.telling world :=
    fun reads silent => (call_issues reads).valid
      (fun _ _ _ ordinary sound _ => ordinary_keepsLedger ordinary sound)
      (fun _ _ _ _ _ _ _ => trivial) fun _ _ _ _ => .silent silent
  cases call with
  | postJournalEntry number actor => exact postJournalEntry_tells number actor world
  | listJournalEntries =>
    exact listJournalEntries_promising fun later views told _ =>
      tells_done (.entries told)
  | getPostingsByAccount account =>
    exact getPostingsByAccount_promising fun later views _ same =>
      tells_done (.statement same.subperm)
  | getJournalEntry number =>
    rw [Call.program, map_eq_pure_bind]
    refine getJournalEntry_promising fun later header view _ read told => ?_
    exact tells_done (.entry (read.number.trans read.own) told)
  | getPostingsByJournalNumber number =>
    simp only [Call.program, PostingService.getPostingsByJournalNumber, map_eq_pure_bind,
      bind_assoc, pure_bind]
    refine getByJournalNumber_promising fun later now postings _ _ views => ?_
    exact tells_done (.postings fun _ => views)
  | _ => exact others (fun _ => id) id

/-! ### Readers -/

/-- The entries a response shows. -/
def Response.entryViews : Response → List JournalViewModel
  | .journal view => [view]
  | .journals views => views
  | _ => []

/-- The postings a response shows. -/
def Response.postingViews : Response → List PostingViewModel
  | .postings views => views
  | _ => []

/-- The calls that read entries. -/
def Call.ReadsEntries : Call → Prop
  | .getJournalEntry _ => True
  | .listJournalEntries => True
  | _ => False

/-- The calls that read or write the postings of an entry. -/
def Call.ShowsPostings (number : Int) : Call → Prop
  | .postJournalEntry other _ => other = number
  | .getPostingsByJournalNumber other => other = number
  | _ => False

theorem World.Tells.tellsEntry {world : World} {call : Call} {response : Response}
    (told : world.Tells call response) (reads : call.ReadsEntries) {view : JournalViewModel}
    (shown : view ∈ response.entryViews) : world.TellsEntry view := by
  cases told with
  | entry own told =>
    obtain rfl := List.mem_singleton.mp shown
    exact told
  | entries told => exact told view shown
  | silent other => exact absurd reads fun reads => other (by cases call <;> trivial)
  | _ => exact reads.elim

theorem World.Tells.tellsPostings {world : World} {call : Call} {response : Response} {number : Int}
    (told : world.Tells call response) (shows : call.ShowsPostings number) :
    world.TellsPostings number response.postingViews := by
  cases told with
  | posted found told =>
    obtain rfl := shows
    exact told
  | postings told =>
    obtain rfl := shows
    exact told
  | silent other => exact absurd shows fun shows => other (by cases call <;> trivial)
  | _ => exact shows.elim

/-- A call that returns an entry by its number shows it. -/
theorem World.Tells.shows_entry {world : World} {number : Int} {response : Response}
    (told : world.Tells (.getJournalEntry number) response) :
    ∃ view ∈ response.entryViews, view.journalNumber = number := by
  cases told with
  | entry own told => exact ⟨_, List.mem_singleton_self _, own⟩
  | silent other => exact absurd trivial other

theorem World.Tells.tellsStatement {world : World} {account : String} {response : Response}
    (told : world.Tells (.getPostingsByAccount account) response) :
    response.postingViews.Subperm (world.statement account) := by
  cases told with
  | statement told => exact told
  | silent other => exact absurd trivial other

section Readers

variable {Thread : Type} [DecidableEq Thread] {calls : Thread → Call} {start : World}
  {pool : Pool Thread Command Reply Raised Response World}

/-- In every run, what a call has told holds from then on. -/
theorem pool_tells (sound : start.Sound)
    (reaches : Reaches handle (fun _ _ _ _ => True)
      ⟨start, fun thread => (calls thread).program⟩ pool) :
    pool.Valid handle ledgerRegime fun thread => (calls thread).telling :=
  (Reaches.valid ⟨sound, fun thread => call_tells (calls thread) start⟩ reaches).1

theorem tells_of_returned (sound : start.Sound)
    (reaches : Reaches handle (fun _ _ _ _ => True)
      ⟨start, fun thread => (calls thread).program⟩ pool)
    {thread : Thread} {response : Response}
    (returned : pool.threads thread = .done (.ok response)) :
    pool.state.Tells (calls thread) response :=
  (pool_tells sound reaches).ensures returned response rfl

/-- In every run of calls, with any order of their steps, the readers are told one story of every
entry: its views are equal, wherever they were read; its postings are equal, wherever any were
read, and are those of its lines; and who posted it has been told the same. -/
theorem readers_agree (sound : start.Sound)
    (reaches : Reaches handle (fun _ _ _ _ => True)
      ⟨start, fun thread => (calls thread).program⟩ pool)
    {first second : Thread} {response response' : Response}
    (returned : pool.threads first = .done (.ok response))
    (returned' : pool.threads second = .done (.ok response')) :
    ((calls first).ReadsEntries → (calls second).ReadsEntries →
      ∀ view ∈ response.entryViews, ∀ view' ∈ response'.entryViews,
        view.journalNumber = view'.journalNumber → view = view') ∧
    (∀ number, (calls first).ShowsPostings number → (calls second).ShowsPostings number →
      response.postingViews ≠ [] → response'.postingViews ≠ [] →
        response.postingViews = response'.postingViews) ∧
    (∀ number, (calls first).ReadsEntries → (calls second).ShowsPostings number →
      ∀ view ∈ response.entryViews, view.journalNumber = number → response'.postingViews ≠ [] →
        response'.postingViews = view.postings) ∧
    (∀ number actor, calls first = .postJournalEntry number actor → response.postingViews ≠ []) ∧
    ∀ account number, calls first = .getPostingsByAccount account →
      (calls second).ShowsPostings number → response'.postingViews ≠ [] →
        ∀ view ∈ response.postingViews, view.journalNumber = number →
          view ∈ response'.postingViews := by
  have soundNow : pool.state.Sound := (pool_tells sound reaches).invariant
  have told := tells_of_returned sound reaches returned
  have told' := tells_of_returned sound reaches returned'
  refine ⟨fun reads reads' view shown view' shown' same => ?_,
    fun number shows shows' found found' => ?_,
    fun number reads shows view shown own found => ?_,
    fun number actor posts => ?_, fun account number states shows found view shown own => ?_⟩
  · exact (told.tellsEntry reads shown).unique soundNow (told'.tellsEntry reads' shown') same
  · exact ((told.tellsPostings shows) found).trans ((told'.tellsPostings shows') found').symm
  · have listed := told'.tellsPostings shows found
    rw [← own] at listed
    rw [listed, (told.tellsEntry reads shown).postings soundNow fun none => found (by
      rw [listed, none, List.map_nil])]
  · rw [posts] at told
    cases told with
    | posted found _ => exact found
    | silent other => exact absurd trivial other
  · rw [states] at told
    obtain ⟨posting, stored, rfl⟩ := List.mem_map.mp (told.tellsStatement.subset shown)
    rw [told'.tellsPostings shows found]
    exact List.mem_map_of_mem (mem_postingsOf.mpr ⟨List.mem_of_mem_filter stored, own⟩)

/-! ### Later readers -/

/-- What a call shows of the store it was started on. -/
def World.Heard (since : World) : Call → Response → Prop
  | .listJournalEntries, response => ∀ header ∈ since.journalEntries,
      ∃ view ∈ response.entryViews, view.journalNumber = header.journalNumber
  | .getPostingsByJournalNumber number, response =>
    since.postingsOf number ≠ [] → response.postingViews ≠ []
  | .getPostingsByAccount account, response =>
    (since.statement account).Subperm response.postingViews
  | _, _ => True

/-- A call shows what was stored when it started. -/
theorem call_hears (call : Call) (since : World) :
    call.program.Valid handle ledgerRegime (promising fun response _ => since.Heard call response)
      since := by
  have others : (∀ response, since.Heard call response) → call.program.Valid handle ledgerRegime
      (promising fun response _ => since.Heard call response) since :=
    fun silent => (call_tells call since).mono (fun _ _ _ permitted => permitted)
      (fun _ _ _ _ shown => shown) fun _ _ _ _ response _ => silent response
  cases call with
  | listJournalEntries =>
    exact listJournalEntries_promising fun later views _ shown =>
      promising_done fun _ _ => shown
  | getPostingsByAccount account =>
    exact getPostingsByAccount_promising fun later views kept same =>
      promising_done fun _ _ => (kept.statement account).trans same.symm.subperm
  | getPostingsByJournalNumber number =>
    simp only [Call.program, PostingService.getPostingsByJournalNumber, map_eq_pure_bind,
      bind_assoc, pure_bind]
    refine getByJournalNumber_promising fun later now postings _ kept views => ?_
    refine promising_done fun _ _ posted => ?_
    rw [Response.postingViews, views, kept.postings number posted]
    simpa only [ne_eq, List.map_eq_nil_iff] using posted
  | _ => exact others fun _ => trivial

/-- In every run of calls, a read that starts after a read or a posting has returned shows what that
call has shown: a listing has its entries and a fetch its entry, the postings of an entry are the
same, and a statement has all of its postings; and the postings that a statement has shown are found
by their number too. -/
theorem reads_monotone (sound : start.Sound)
    (reaches : Reaches handle (fun _ _ _ _ => True)
      ⟨start, fun thread => (calls thread).program⟩ pool)
    {first second : Thread} {response response' : Response}
    (returned : pool.threads first = .done (.ok response))
    (unstarted : pool.threads second = (calls second).program)
    {last : Pool Thread Command Reply Raised Response World}
    (further : Reaches handle (fun _ _ _ _ => True) pool last)
    (returned' : last.threads second = .done (.ok response')) :
    ((calls first).ReadsEntries → calls second = .listJournalEntries →
      ∀ view ∈ response.entryViews, view ∈ response'.entryViews) ∧
    (∀ number, (calls first).ShowsPostings number →
      calls second = .getPostingsByJournalNumber number → response.postingViews ≠ [] →
        response'.postingViews = response.postingViews) ∧
    (∀ account account', calls first = .getPostingsByAccount account →
      calls second = .getPostingsByAccount account' →
      accountLookupKey account = accountLookupKey account' →
        response.postingViews.Subperm response'.postingViews) ∧
    (∀ number account, (calls first).ShowsPostings number →
      calls second = .getPostingsByAccount account → ∀ view ∈ response.postingViews,
        accountLookupKey view.account = accountLookupKey account →
          view ∈ response'.postingViews) ∧
    (∀ number, (calls first).ReadsEntries → calls second = .getJournalEntry number →
      ∀ view ∈ response.entryViews, view.journalNumber = number →
        view ∈ response'.entryViews) ∧
    ∀ account number, calls first = .getPostingsByAccount account →
      calls second = .getPostingsByJournalNumber number → ∀ view ∈ response.postingViews,
        view.journalNumber = number → view ∈ response'.postingViews := by
  have valid := pool_tells sound reaches
  have told := tells_of_returned sound reaches returned
  have soundLast := (pool_tells sound (reaches.trans further)).invariant
  have toldLast := tells_of_returned sound (reaches.trans further) (further.keeps_outcome returned)
  have told' := tells_of_returned sound (reaches.trans further) returned'
  have heard : pool.state.Heard (calls second) response' := by
    have started : pool.Valid handle ledgerRegime (Function.update
        (fun thread => (calls thread).telling) second
        (promising fun response _ => pool.state.Heard (calls second) response)) := by
      refine ⟨valid.invariant, fun thread => ?_⟩
      by_cases same : thread = second
      · subst same
        rw [Function.update_self, unstarted]
        exact call_hears (calls thread) pool.state
      · rw [Function.update_of_ne same]
        exact valid.threads thread
    have finished := (Reaches.valid started (further.mono fun _ thread _ _ _ => by
      by_cases same : thread = second
      · subst same
        rw [Function.update_self]
        trivial
      · rw [Function.update_of_ne same]
        trivial)).1.ensures returned'
    rw [Function.update_self] at finished
    exact finished response' rfl
  refine ⟨fun reads lists view shown => ?_, fun number shows reads found => ?_,
    fun account account' states states' same => ?_,
    fun number account shows states view shown same => ?_,
    fun number reads fetches view shown own => ?_,
    fun account number states reads view shown own => ?_⟩
  · rw [lists] at heard told'
    obtain ⟨header, stored, number, _⟩ := (told.tellsEntry reads shown).stored valid.invariant
    obtain ⟨view', shown', number'⟩ := heard header stored
    obtain rfl := (toldLast.tellsEntry reads shown).unique soundLast
      (told'.tellsEntry trivial shown') (number.trans number'.symm)
    exact shown'
  · rw [reads] at heard told'
    have present : response'.postingViews ≠ [] := heard fun none => found (by
      rw [told.tellsPostings shows found, none, List.map_nil])
    exact (told'.tellsPostings rfl present).trans (toldLast.tellsPostings shows found).symm
  · rw [states'] at heard
    rw [states] at told
    have statement := told.tellsStatement
    rw [World.statement, same] at statement
    exact statement.trans heard
  · rw [states] at heard
    rw [told.tellsPostings shows (List.ne_nil_of_mem shown)] at shown
    obtain ⟨posting, listed, rfl⟩ := List.mem_map.mp shown
    have stored := (mem_postingsOf.mp listed).1
    have keyed := (valid.invariant.posting_keyed stored).1.trans same
    exact heard.subset (List.mem_map_of_mem (List.mem_filter.mpr ⟨stored, decide_eq_true keyed⟩))
  · rw [fetches] at told'
    obtain ⟨view', shown', number'⟩ := told'.shows_entry
    obtain rfl := (toldLast.tellsEntry reads shown).unique soundLast
      (told'.tellsEntry trivial shown') (own.trans number'.symm)
    exact shown'
  · rw [reads] at heard told'
    rw [states] at told toldLast
    obtain ⟨posting, stored, same⟩ := List.mem_map.mp (told.tellsStatement.subset shown)
    have listed : posting ∈ pool.state.postingsOf number :=
      mem_postingsOf.mpr ⟨List.mem_of_mem_filter stored, (congrArg _ same).trans own⟩
    rw [told'.tellsPostings rfl (heard (List.ne_nil_of_mem listed))]
    obtain ⟨posting', stored', rfl⟩ := List.mem_map.mp (toldLast.tellsStatement.subset shown)
    exact List.mem_map_of_mem (mem_postingsOf.mpr ⟨List.mem_of_mem_filter stored', own⟩)

end Readers

/-- Two accounts, a sale between them, a call that posts it, and two that read it. -/
def saleReaders : Nat → Call
  | 0 => .createAccount ((CreateAccountInput.accept "1000" "Cash" .asset).get (.refl true)) "alice"
  | 1 => .createAccount ((CreateAccountInput.accept "4000" "Sales" .revenue).get (.refl true))
      "alice"
  | 2 => .createJournalEntry
      ((CreateJournalInput.accept ⟨1600000000000000, none⟩
        [(JournalLineInput.accept "Cash" ⟨1250, -2⟩ ⟨0, 0⟩).get (.refl true),
          (JournalLineInput.accept "Sales" ⟨0, 0⟩ ⟨125, -1⟩).get (.refl true)]
        none).get (.refl true)) "bob"
  | 3 => .postJournalEntry 1 "carol"
  | 4 => .getJournalEntry 1
  | 5 => .getPostingsByJournalNumber 1
  | _ => .getChart

/-- The entry is posted while it is being read. -/
def salePosted : Pool Nat Command Reply Raised Response World :=
  Pool.execute handle
    (([0, 0, 0, 0, 1, 1, 1, 1, 2, 2, 2, 2, 4, 3, 3, 3, 3, 3, 4] : List Nat).map
      fun thread => (thread, Env.calm 1700000000000000))
    ⟨World.empty, fun thread => (saleReaders thread).program⟩

/-- Its postings are read afterwards. -/
def saleRead : Pool Nat Command Reply Raised Response World :=
  salePosted.execute handle [(5, Env.calm 1700000000000000)]

/-- What a thread has shown of something when it has returned. -/
def shownBy {Value : Type} (views : Response → List Value) (program : Action Response) :
    List Value :=
  match program with
  | .done (.ok response) => views response
  | _ => []

theorem salePosted_reaches : Reaches handle (fun _ _ _ _ => True)
    ⟨World.empty, fun thread => (saleReaders thread).program⟩ salePosted :=
  reaches_execute_of_forall _ fun _ _ _ _ => trivial

theorem saleRead_reaches : Reaches handle (fun _ _ _ _ => True) salePosted saleRead :=
  reaches_execute_of_forall _ fun _ _ _ _ => trivial

theorem readers_agree_of_sale : ∃ view ∈ shownBy Response.entryViews (saleRead.threads 4),
    shownBy Response.postingViews (saleRead.threads 5) = view.postings := by
  obtain ⟨response, returned⟩ := Program.succeeded_iff.mp
    (by decide +kernel : (saleRead.threads 4).succeeded = true)
  obtain ⟨response', returned'⟩ := Program.succeeded_iff.mp
    (by decide +kernel : (saleRead.threads 5).succeeded = true)
  have entries : (shownBy Response.entryViews (saleRead.threads 4)).map
      JournalViewModel.journalNumber = [1] := by decide +kernel
  have postings : shownBy Response.postingViews (saleRead.threads 5) ≠ [] := by decide +kernel
  obtain ⟨_, _, agree, _⟩ := readers_agree empty_sound
    (salePosted_reaches.trans saleRead_reaches) returned returned'
  rw [returned] at entries
  rw [returned'] at postings
  obtain ⟨view, shown, number⟩ := List.mem_map.mp (entries ▸ List.mem_singleton_self (1 : Int))
  rw [returned, returned']
  exact ⟨view, shown, agree 1 trivial rfl view shown number postings⟩

theorem reads_monotone_of_sale :
    shownBy Response.postingViews (saleRead.threads 5) =
      shownBy Response.postingViews (salePosted.threads 3) := by
  obtain ⟨response, returned⟩ := Program.succeeded_iff.mp
    (by decide +kernel : (salePosted.threads 3).succeeded = true)
  obtain ⟨response', returned'⟩ := Program.succeeded_iff.mp
    (by decide +kernel : (saleRead.threads 5).succeeded = true)
  have postings : shownBy Response.postingViews (salePosted.threads 3) ≠ [] := by decide +kernel
  have unstarted : salePosted.threads 5 = (saleReaders 5).program :=
    Pool.execute_untouched (by decide) _
  obtain ⟨_, same, _⟩ := reads_monotone empty_sound salePosted_reaches returned unstarted
    saleRead_reaches returned'
  rw [returned] at postings ⊢
  rw [returned']
  exact same 1 rfl rfl postings

end Trutina
