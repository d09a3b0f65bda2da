/-
This file proves that the numbering of journal entries is safe. A call draws its
number from the sequence in one step and saves its entry under it in another, and
any steps of other calls may come between, or the call may fail or never go on.
No number is drawn twice or saved under twice, and what is drawn later lies above
all that is stored. A listing reads the headers in one step and the lines in
another; it returns exactly the entries that were committed at the first, as long
as every saved line is one that the store can give back.
-/

import Trutina.JournalRoundTrip
import Trutina.Sequential
import Trutina.Tickets

namespace Trutina

open Interaction

/-! ### The sequence as a counter -/

/-- Numbers are drawn by `nextval` and redeemed by inserting a journal entry. -/
def numbering : Ticketing Command Reply World Int where
  counter := World.nextJournalNumber
  used world number := ∃ header ∈ world.journalEntries, header.journalNumber = number
  drawn
    | .nextval => fun reply => reply.value.toOption
    | _ => fun _ => none
  redeemed
    | .transact (.insertJournal header _) => some header.journalNumber
    | _ => none

/-- What a transaction does to the sequence and to the numbers in use. -/
theorem apply_numbering {transaction : Transaction} {env : Env} {world after : World}
    (applied : transaction.apply env world = .ok after) :
    after.nextJournalNumber = world.nextJournalNumber ∧
      ∀ number, numbering.used after number → numbering.used world number ∨
        numbering.redeemed (.transact transaction) = some number := by
  cases transaction with
  | insertAccount code name nameKey category audit =>
    obtain ⟨_, _, rfl⟩ := insertAccount_ok applied
    exact ⟨rfl, fun _ used => .inl used⟩
  | updateAccount loaded name nameKey category audit =>
    rcases updateAccount_ok applied with ⟨_, rfl⟩ | ⟨_, _, rfl⟩
    · exact ⟨rfl, fun _ used => .inl used⟩
    · exact ⟨rfl, fun _ used => .inl used⟩
  | deleteAccount loaded audit =>
    rw [deleteAccount_ok applied]
    exact ⟨rfl, fun _ used => .inl used⟩
  | insertJournal header lines =>
    obtain ⟨_, _, _, _, rfl⟩ := insertJournal_ok applied
    refine ⟨rfl, fun number used => ?_⟩
    obtain ⟨stored, member, rfl⟩ := used
    rcases List.mem_append.mp member with earlier | new
    · exact .inl ⟨stored, earlier, rfl⟩
    · exact .inr (by rw [List.mem_singleton.mp new]; rfl)
  | insertPostings postings =>
    obtain ⟨_, rfl⟩ := insertPostings_appends applied
    exact ⟨rfl, fun _ used => .inl used⟩

theorem numbering_lawful : numbering.Lawful handle := by
  have spec : ∀ command env world,
      (∀ number, numbering.drawn command (handle command env world).1 = some number →
        number = world.nextJournalNumber ∧
          number < (handle command env world).2.nextJournalNumber) ∧
      world.nextJournalNumber ≤ (handle command env world).2.nextJournalNumber ∧
      ∀ number, numbering.used (handle command env world).2 number →
        numbering.used world number ∨ numbering.redeemed command = some number := by
    intro command env world
    cases command with
    | query query =>
      rw [handle_query_state]
      exact ⟨fun _ drawn => (by cases drawn), le_refl _, fun _ used => .inl used⟩
    | emit record =>
      exact ⟨fun _ drawn => (by cases drawn), le_refl _, fun _ used => .inl used⟩
    | nextval =>
      cases failed : env.fault with
      | some fault =>
        simp only [handle, failed]
        exact ⟨fun _ drawn => (by cases drawn), le_refl _, fun _ used => .inl used⟩
      | none =>
        simp only [handle, failed]
        refine ⟨fun number drawn => ?_, by omega, fun _ used => .inl used⟩
        cases drawn
        exact ⟨rfl, by omega⟩
    | transact transaction =>
      refine ⟨fun _ drawn => (by cases drawn), ?_⟩
      rcases handle_transact_cases transaction env world with still | ⟨after, applied, same⟩
      · rw [still]
        exact ⟨le_refl _, fun _ used => .inl used⟩
      · rw [same]
        obtain ⟨counter, uses⟩ := apply_numbering applied
        exact ⟨counter.ge, uses⟩
  exact ⟨fun command env world => (spec command env world).2.1,
    fun command env world => (spec command env world).1,
    fun command env world => (spec command env world).2.2⟩

/-! ### Calls hold what they redeem -/

/-- A call that returns an entry has redeemed its number. -/
def Call.Assigned (call : Call) (hand : Hand Int) (outcome : Except Raised Response) : Prop :=
  ∀ input actor view, call = .createJournalEntry input actor → outcome = .ok (.journal view) →
    hand = .spent view.journalNumber

theorem assigned_error {call : Call} {hand : Hand Int} (error : Raised) :
    call.Assigned hand (.error error) := by
  rintro _ _ _ _ ⟨⟩

theorem plain_query (query : Query) : numbering.Plain (.query query) := ⟨rfl, fun _ => rfl⟩

theorem plain_emit (record : LogRecord) : numbering.Plain (.emit record) := ⟨rfl, fun _ => rfl⟩

/-- Saving an entry redeems its number. -/
theorem save_redeems (input : CreateJournalInput) (actor : String) (entry : JournalEntry) :
    Program.Redeems numbering (Call.createJournalEntry input actor).Assigned
      (.holding entry.journalNumber) (do
        PostgresJournalRepo.save entry actor
        logInfo "journal.created" [("journal_number", .number entry.journalNumber),
          ("line_count", .number entry.lines.length)]
        let view ← JournalService.computing (toEntryView entry)
        return .journal view : Action Response) := by
  obtain ⟨view, viewed, sameNumber, _⟩ := toEntryView_eq_ok entry
  rw [PostgresJournalRepo.save, commitOr_eq, Program.ask_bind]
  refine ⟨fun _ redeemed => (by cases redeemed; rfl), fun reply => ?_⟩
  obtain ⟨(constraint | fault) | done, now⟩ := reply
  · exact assigned_error _
  · exact assigned_error _
  · refine Program.redeems_ask_of_plain (plain_emit _) fun _ => ?_
    simp only [JournalService.computing, viewed]
    rintro _ _ _ _ ⟨⟩
    rw [sameNumber]
    rfl

/-- A creation draws one number and saves its entry under it. -/
theorem createJournalEntry_redeems {call : Call} {input : CreateJournalInput} {actor : String}
    (creates : call = .createJournalEntry input actor) :
    call.program.Redeems numbering call.Assigned .empty := by
  subst creates
  simp only [Call.program, JournalService.createJournalEntry, map_eq_pure_bind, bind_assoc]
  generalize requireActor actor = named
  refine (lift_issues named).redeems_bind assigned_error fun _ => ?_
  refine (JournalService.validateAccounts_issues plain_query _).redeems_bind assigned_error
    fun _ => ?_
  refine ⟨fun _ redeemed => (by cases redeemed), fun reply => ?_⟩
  obtain ⟨error | number, now⟩ := reply
  · exact assigned_error _
  -- The number is in the hand from here on.
  change Program.Redeems numbering _ (.holding number)
    (Program.done (translating (JournalService.buildEntry now number input)) >>= _)
  cases built : translating (JournalService.buildEntry now number input) with
  | error error => exact assigned_error _
  | ok entry =>
    obtain ⟨_, _, validated⟩ := buildEntry_eq_ok_iff.mp (translating_eq_ok_iff.mp built)
    obtain rfl := (JournalEntry.validate_eq_ok_iff.mp validated).1
    exact save_redeems input actor entry

/-- Every other call neither draws nor redeems. -/
theorem call_redeems (call : Call) :
    call.program.Redeems numbering call.Assigned .empty := by
  by_cases creates : ∃ input actor, call = .createJournalEntry input actor
  · obtain ⟨input, actor, creates⟩ := creates
    exact createJournalEntry_redeems creates
  · refine ((call_issuable call).mono fun command issuable => ?_).redeems ?_
    · cases issuable with
      | nextval => exact absurd ⟨_, _, rfl⟩ creates
      | insertJournal entry => exact absurd ⟨_, _, rfl⟩ creates
      | _ => exact ⟨rfl, fun _ => rfl⟩
    · rintro outcome input actor _ rfl
      exact absurd ⟨input, actor, rfl⟩ creates

/-! ### Stored entries can be given back -/

/-- Every stored entry is rebuilt once the clock has reached its date. -/
structure World.Legible (world : World) : Prop where
  rebuilt : ∀ header ∈ world.journalEntries, ∃ entry,
    PostgresJournalRepo.toDomain header.postingDate header
      (world.linesOf header.journalNumber) = .ok entry

theorem empty_legible : World.empty.Legible where
  rebuilt _ member := by cases member

/-- The saves whose lines the store can give back: accounts of two characters and amounts of two
decimal places. -/
def Command.Storable : Command → Prop
  | .transact (.insertJournal _ lines) => ∀ line ∈ lines, 2 ≤ line.account.length ∧
      line.debitAmount.HasPlaces 2 ∧ line.creditAmount.HasPlaces 2
  | _ => True

instance (command : Command) : Decidable command.Storable := by
  unfold Command.Storable
  split <;> infer_instance

/-- A legible entry is rebuilt at any later clock. -/
theorem World.Legible.later {world : World} (legible : world.Legible) {header : JournalEntryModel}
    (stored : header ∈ world.journalEntries) {now : Timestamp} (past : header.postingDate ≤ now) :
    ∃ entry, PostgresJournalRepo.toDomain now header (world.linesOf header.journalNumber) =
      .ok entry := by
  obtain ⟨entry, rebuilt⟩ := legible.rebuilt header stored
  obtain ⟨lines, number, date, _, description⟩ := toDomain_eq_ok_iff.mp rebuilt
  exact ⟨entry, toDomain_eq_ok_iff.mpr ⟨lines, number, date, past, description⟩⟩

theorem storable_of_lineRows {entry : JournalEntry} {actor : String}
    (storable : Command.Storable (.transact (.insertJournal (headerOf entry actor)
      (PostgresJournalRepo.lineRows entry.journalNumber entry.lines)))) :
    ∀ line ∈ entry.lines, line.Storable := by
  intro line member
  obtain ⟨index, bound, rfl⟩ := List.getElem_of_mem member
  exact storable _ (List.mem_mapIdx.mpr ⟨index, bound, rfl⟩)

/-- Only saves change the journal. -/
theorem apply_journal {transaction : Transaction} {env : Env} {world after : World}
    (other : ∀ header lines, transaction ≠ .insertJournal header lines)
    (applied : transaction.apply env world = .ok after) :
    after.journalEntries = world.journalEntries ∧ after.journalLines = world.journalLines := by
  cases transaction with
  | insertAccount code name nameKey category audit =>
    obtain ⟨_, _, rfl⟩ := insertAccount_ok applied
    exact ⟨rfl, rfl⟩
  | updateAccount loaded name nameKey category audit =>
    rcases updateAccount_ok applied with ⟨_, rfl⟩ | ⟨_, _, rfl⟩
    · exact ⟨rfl, rfl⟩
    · exact ⟨rfl, rfl⟩
  | deleteAccount loaded audit =>
    rw [deleteAccount_ok applied]
    exact ⟨rfl, rfl⟩
  | insertJournal header lines => exact absurd rfl (other header lines)
  | insertPostings postings =>
    obtain ⟨_, rfl⟩ := insertPostings_appends applied
    exact ⟨rfl, rfl⟩

theorem World.Legible.congr {world after : World} (legible : world.Legible)
    (entries : after.journalEntries = world.journalEntries)
    (lines : after.journalLines = world.journalLines) : after.Legible := by
  refine ⟨fun header member => ?_⟩
  rw [entries] at member
  rw [World.linesOf, lines]
  exact legible.rebuilt header member

/-- A storable entry keeps the entries legible. -/
theorem World.Legible.insert {world after : World} {env : Env} (legible : world.Legible)
    (sound : world.Sound) {entry : JournalEntry} {actor : String}
    (storable : ∀ line ∈ entry.lines, line.Storable)
    (applied : (Transaction.insertJournal (headerOf entry actor)
      (PostgresJournalRepo.lineRows entry.journalNumber entry.lines)).apply env world =
        .ok after) : after.Legible := by
  obtain ⟨_, kept, _, storedLines⟩ := insertJournal_sound sound applied
  obtain ⟨_, _, _, _, same⟩ := insertJournal_ok applied
  have entries : after.journalEntries = world.journalEntries ++ [headerOf entry actor] := by
    rw [same]
  refine ⟨fun header member => ?_⟩
  rw [entries] at member
  rcases List.mem_append.mp member with earlier | new
  · rw [kept.lines header earlier]
    exact legible.rebuilt header earlier
  · rw [List.mem_singleton.mp new]
    obtain ⟨found, rebuilt, _⟩ :=
      (readBack_iff actor storedLines.kept (le_refl entry.postingDate)).mpr storable
    exact ⟨found, rebuilt⟩

/-- A storable save keeps the entries legible, and every other command of a call. -/
theorem handle_legible {world : World} (sound : world.Sound) (legible : world.Legible)
    {call : Call} {command : Command} (issuable : call.Issuable command)
    (storable : command.Storable) (env : Env) : (handle command env world).2.Legible := by
  cases command with
  | query query =>
    rw [handle_query_state]
    exact legible
  | emit record => exact legible.congr rfl rfl
  | nextval =>
    cases failed : env.fault <;> simp only [handle, failed]
    · exact legible.congr rfl rfl
    · exact legible
  | transact transaction =>
    rcases handle_transact_cases transaction env world with still | ⟨after, applied, same⟩
    · rw [still]
      exact legible
    rw [same]
    by_cases saves : ∃ header lines, transaction = .insertJournal header lines
    · obtain ⟨header, lines, rfl⟩ := saves
      cases issuable with
      | insertJournal entry => exact legible.insert sound (storable_of_lineRows storable) applied
    · obtain ⟨entries, lines⟩ := apply_journal
        (fun header lines same => saves ⟨header, lines, same⟩) applied
      exact legible.congr entries lines

/-- A listing that reads the headers in one state and the lines in a later one returns the entries
of the first, in ascending order of their numbers and with none missing. -/
theorem listEntries_served {first second : World} (sound : first.Sound) (legible : first.Legible)
    (soundSecond : second.Sound) (kept : first.KeepsLedger second) {env env' : Env}
    (calm : env.fault = none) (calm' : env'.fault = none)
    (past : ∀ header ∈ first.journalEntries, header.postingDate ≤ env'.now) :
    ∃ entries, (PostgresJournalRepo.listEntries.resume handle env first).resume handle env' second =
        .done (.ok entries) ∧
      (entries.map JournalEntry.journalNumber).Pairwise (· < ·) ∧
      (∀ header ∈ first.journalEntries, ∃ entry ∈ entries, PostgresJournalRepo.toDomain env'.now
        header (first.linesOf header.journalNumber) = .ok entry) ∧
      ∀ entry ∈ entries, ∃ header ∈ first.journalEntries, PostgresJournalRepo.toDomain env'.now
        header (first.linesOf header.journalNumber) = .ok entry := by
  have listed : ∀ header, header ∈ Query.rows env first .allJournalEntries ↔
      header ∈ first.journalEntries := fun header => List.mem_insertionSort _
  have lines : ∀ header ∈ first.journalEntries,
      ((Query.rows env' second .allJournalLines).filter fun line =>
        line.journalNumber = header.journalNumber) = first.linesOf header.journalNumber :=
    fun header member => by rw [allJournalLines_filter soundSecond, kept.lines header member]
  have served : (PostgresJournalRepo.listEntries.resume handle env first).resume handle env'
      second = .done (fromRows (fun header => PostgresJournalRepo.toDomain env'.now header
        ((Query.rows env' second .allJournalLines).filter fun line =>
          line.journalNumber = header.journalNumber))
        (Query.rows env first .allJournalEntries)) := by
    simp only [PostgresJournalRepo.listEntries]
    rw [resume_execute_bind calm, resume_execute_bind calm']
    rfl
  obtain ⟨entries, rebuilt⟩ : ∃ entries, fromRows (fun header =>
      PostgresJournalRepo.toDomain env'.now header
        ((Query.rows env' second .allJournalLines).filter fun line =>
          line.journalNumber = header.journalNumber))
      (Query.rows env first .allJournalEntries) = .ok entries := by
    refine fromRows_total fun header member => ?_
    have stored := (listed header).mp member
    rw [lines header stored]
    exact legible.later stored (past header stored)
  have pairs := fromRows_eq_ok_iff.mp rebuilt
  refine ⟨entries, served.trans (by rw [rebuilt]), ?_, fun header member => ?_,
    fun entry member => ?_⟩
  · have numbers : entries.map JournalEntry.journalNumber =
        (Query.rows env first .allJournalEntries).map JournalEntryModel.journalNumber :=
      pairs.map_eq fun _ _ _ converted => (toDomain_eq_ok_iff.mp converted).2.1
    rw [numbers, List.pairwise_map]
    have ascending : (Query.rows env first .allJournalEntries).Pairwise fun header other =>
        header.journalNumber ≤ other.journalNumber := List.pairwise_insertionSort _ _
    have distinct : ((Query.rows env first .allJournalEntries).map
        JournalEntryModel.journalNumber).Nodup :=
      ((List.perm_insertionSort _ _).map _).nodup_iff.mpr sound.numbers
    exact (ascending.and (List.pairwise_map.mp distinct)).imp fun both =>
      lt_of_le_of_ne both.1 both.2
  · obtain ⟨entry, present, converted⟩ := mem_of_fromRows rebuilt ((listed header).mpr member)
    rw [lines header member] at converted
    exact ⟨entry, present, converted⟩
  · obtain ⟨header, present, converted⟩ := pairs.exists_left member
    have stored := (listed header).mp present
    rw [lines header stored] at converted
    exact ⟨header, stored, converted⟩

/-! ### Runs -/

/-- The sequence is ahead of all stored numbers. -/
structure World.Numbered (world : World) : Prop where
  positive : 0 < world.nextJournalNumber
  below : ∀ header ∈ world.journalEntries, header.journalNumber < world.nextJournalNumber

theorem empty_numbered : World.empty.Numbered where
  positive := by decide
  below _ member := by cases member

section Runs

variable {Thread : Type} [DecidableEq Thread] {calls : Thread → Call} {start : World}
  {permits : World → Thread → Command → Env → Prop}
  {pool later : Pool Thread Command Reply Raised Response World}

/-- Numbers are in the hands of the calls that drew them. -/
theorem pool_ticketed (numbered : start.Numbered)
    (reaches : Reaches handle permits ⟨start, fun thread => (calls thread).program⟩ pool) :
    (∃ hands, pool.Ticketed numbering (fun thread => (calls thread).Assigned)
      start.nextJournalNumber hands) ∧ start.nextJournalNumber ≤ pool.state.nextJournalNumber :=
  Reaches.ticketed numbering_lawful (Pool.ticketed_of_empty (fun thread => call_redeems _)
    fun number used => by
      obtain ⟨header, member, rfl⟩ := used
      exact numbered.below header member) reaches

/-- In a run whose saves are storable, the entries stay legible. -/
theorem pool_legible (sound : start.Sound) (legible : start.Legible)
    (reaches : Reaches handle (fun _ _ command _ => command.Storable)
      ⟨start, fun thread => (calls thread).program⟩ pool) : pool.state.Legible := by
  induction reaches with
  | refl => exact legible
  | @step current mover command next before env asks storable inductionHypothesis =>
    have soundNow := (pool_sound calls sound
      (before.mono fun _ _ _ _ _ => trivial)).1.invariant
    have issues := before.issues (fun thread => call_issuable (calls thread)) mover
    rw [asks] at issues
    rw [Pool.step_of_ask asks]
    exact handle_legible soundNow inductionHypothesis (Program.issues_ask_iff.mp issues).1
      storable env

/-- What a run has stored stays as it is in its later states. -/
theorem pool_keepsLedger (sound : start.Sound)
    (reaches : Reaches handle (fun _ _ _ _ => True)
      ⟨start, fun thread => (calls thread).program⟩ pool)
    (further : Reaches handle (fun _ _ _ _ => True) pool later) :
    pool.state.KeepsLedger later.state :=
  (Reaches.valid (pool_sound calls sound reaches).1
    (further.mono fun world thread command env _ =>
      (calls thread).task_permits world command env)).2

end Runs

/-- A number is drawn only from the front of the sequence. -/
theorem nextval_drawn {env : Env} {world : World} {number : Int}
    (drawn : (handle .nextval env world).1.value = .ok number) :
    number = world.nextJournalNumber ∧
      (handle .nextval env world).2.nextJournalNumber = number + 1 := by
  cases failed : env.fault <;> simp only [handle, failed] at drawn ⊢ <;> cases drawn
  exact ⟨rfl, rfl⟩

/-- In every run of calls, in any order of their steps: what is drawn is positive and below all
that is drawn later, as is every stored number; no save meets an entry or a line of its number, or
another save under it; and calls that return have different numbers. While the saves are storable,
a listing whose two reads succeed, and whose clock has not run back behind the stored dates,
returns the entries that were committed at its first read, ascending and with none missing. -/
theorem numbering_safe {Thread : Type} [DecidableEq Thread] (calls : Thread → Call) {start : World}
    (sound : start.Sound) (numbered : start.Numbered) (legible : start.Legible)
    {pool : Pool Thread Command Reply Raised Response World}
    (reaches : Reaches handle (fun _ _ _ _ => True)
      ⟨start, fun thread => (calls thread).program⟩ pool) :
    (∀ thread next env number later env' number', pool.threads thread = .ask .nextval next →
      (handle .nextval env pool.state).1.value = .ok number →
      Reaches handle (fun _ _ _ _ => True) (pool.step handle thread env) later →
      (handle .nextval env' later.state).1.value = .ok number' → 0 < number ∧ number < number') ∧
    (∀ header ∈ pool.state.journalEntries, ∀ later env number,
      Reaches handle (fun _ _ _ _ => True) pool later →
      (handle .nextval env later.state).1.value = .ok number → header.journalNumber < number) ∧
    (∀ thread header lines next,
      pool.threads thread = .ask (.transact (.insertJournal header lines)) next →
      (∀ stored ∈ pool.state.journalEntries, stored.journalNumber ≠ header.journalNumber) ∧
      (∀ line ∈ pool.state.journalLines, line.journalNumber ≠ header.journalNumber) ∧
      ∀ other header' lines' next', other ≠ thread →
        pool.threads other = .ask (.transact (.insertJournal header' lines')) next' →
        header'.journalNumber ≠ header.journalNumber) ∧
    (∀ first second input actor view input' actor' view', first ≠ second →
      calls first = .createJournalEntry input actor →
      calls second = .createJournalEntry input' actor' →
      pool.threads first = .done (.ok (.journal view)) →
      pool.threads second = .done (.ok (.journal view')) →
      view.journalNumber ≠ view'.journalNumber) ∧
    (Reaches handle (fun _ _ command _ => command.Storable)
        ⟨start, fun thread => (calls thread).program⟩ pool →
      ∀ later env env', Reaches handle (fun _ _ _ _ => True) pool later →
        env.fault = none → env'.fault = none →
        (∀ header ∈ pool.state.journalEntries, header.postingDate ≤ env'.now) →
        ∃ entries, (PostgresJournalRepo.listEntries.resume handle env pool.state).resume handle
            env' later.state = .done (.ok entries) ∧
          (entries.map JournalEntry.journalNumber).Pairwise (· < ·) ∧
          (∀ header ∈ pool.state.journalEntries, ∃ entry ∈ entries,
            PostgresJournalRepo.toDomain env'.now header
              (pool.state.linesOf header.journalNumber) = .ok entry) ∧
          ∀ entry ∈ entries, ∃ header ∈ pool.state.journalEntries,
            PostgresJournalRepo.toDomain env'.now header
              (pool.state.linesOf header.journalNumber) = .ok entry) := by
  obtain ⟨⟨hands, ticketed⟩, counted⟩ := pool_ticketed numbered reaches
  have soundPool := (pool_sound calls sound reaches).1.invariant
  have saves : ∀ thread header lines next,
      pool.threads thread = .ask (.transact (.insertJournal header lines)) next →
      hands thread = .holding header.journalNumber :=
    fun thread header lines next asks => ticketed.redeems asks rfl
  -- A later state has counted on.
  have counts : ∀ {middle later : Pool Thread Command Reply Raised Response World},
      Reaches handle (fun _ _ _ _ => True) middle later →
      middle.state.nextJournalNumber ≤ later.state.nextJournalNumber := by
    intro middle later further
    induction further with
    | refl => exact le_refl _
    | step before env asks _ inductionHypothesis =>
      rw [Pool.step_of_ask asks]
      exact inductionHypothesis.trans (numbering_lawful.counts _ env _)
  refine ⟨?_, ?_, ?_, ?_, ?_⟩
  · intro thread next env number later env' number' asks drawn further drawn'
    obtain ⟨rfl, after⟩ := nextval_drawn drawn
    obtain ⟨rfl, _⟩ := nextval_drawn drawn'
    have counted' := counts further
    rw [Pool.step_of_ask asks, after] at counted'
    exact ⟨numbered.positive.trans_le counted, counted'⟩
  · intro header member later env number further drawn
    obtain ⟨rfl, _⟩ := nextval_drawn drawn
    exact (ticketed.below header.journalNumber ⟨header, member, rfl⟩).trans_le (counts further)
  · intro thread header lines next asks
    have holds := saves thread header lines next asks
    have unused := ticketed.unused thread header.journalNumber holds
    refine ⟨fun stored member same => unused ⟨stored, member, same⟩, fun line member same => ?_,
      fun other header' lines' next' different asks' same => different ?_⟩
    · obtain ⟨stored, present, own⟩ := soundPool.owned line member
      exact unused ⟨stored, present, own.trans same⟩
    · refine ticketed.distinct other thread header.journalNumber ?_ (by rw [holds]; rfl)
      rw [saves other header' lines' next' asks', ← same]
      rfl
  · intro first second input actor view input' actor' view' different creates creates' returned
      returned' same
    have left := ticketed.programs first
    have right := ticketed.programs second
    rw [returned] at left
    rw [returned'] at right
    refine different (ticketed.distinct first second view.journalNumber ?_ ?_)
    · rw [left input actor view creates rfl]
      rfl
    · rw [right input' actor' view' creates' rfl, same]
      rfl
  · intro storable later env env' further calm calm' past
    exact listEntries_served soundPool (pool_legible sound legible storable)
      (pool_sound calls sound (reaches.trans further)).1.invariant
      (pool_keepsLedger sound reaches further) calm calm' past

/-- Two accounts, and two calls that create entries on them. -/
def rivalEntries : Nat → Call
  | 0 => .createAccount ((CreateAccountInput.accept "1000" "Cash" .asset).get (.refl true)) "alice"
  | 1 => .createAccount ((CreateAccountInput.accept "4000" "Sales" .revenue).get (.refl true))
      "alice"
  | 2 => .createJournalEntry
      ((CreateJournalInput.accept ⟨1600000000000000, none⟩
        [(JournalLineInput.accept "Cash" ⟨1250, -2⟩ ⟨0, 0⟩).get (.refl true),
          (JournalLineInput.accept "Sales" ⟨0, 0⟩ ⟨125, -1⟩).get (.refl true)]
        none).get (.refl true)) "bob"
  | 3 => .createJournalEntry
      ((CreateJournalInput.accept ⟨1600000000000000, none⟩
        [(JournalLineInput.accept "Cash" ⟨5, 0⟩ ⟨0, 0⟩).get (.refl true),
          (JournalLineInput.accept "Sales" ⟨0, 0⟩ ⟨5, 0⟩).get (.refl true)]
        none).get (.refl true)) "carol"
  | _ => .getChart

/-- The call that draws the second number saves first. -/
def rivalEntriesPool : Pool Nat Command Reply Raised Response World :=
  Pool.execute handle
    (([0, 0, 0, 0, 1, 1, 1, 1, 2, 3, 2, 3, 3, 3, 2, 2] : List Nat).map
      fun thread => (thread, Env.calm 1700000000000000))
    ⟨World.empty, fun thread => (rivalEntries thread).program⟩

theorem numbering_safe_of_rivals :
    rivalEntriesPool.state.journalEntries.map JournalEntryModel.journalNumber = [2, 1] ∧
    ∃ entries, (PostgresJournalRepo.listEntries.resume handle (Env.calm 1700000000000000)
        rivalEntriesPool.state).resume handle (Env.calm 1700000000000000) rivalEntriesPool.state =
          .done (.ok entries) ∧
      (entries.map JournalEntry.journalNumber).Pairwise (· < ·) := by
  have storable : Reaches handle (fun _ _ command _ => command.Storable)
      ⟨World.empty, fun thread => (rivalEntries thread).program⟩ rivalEntriesPool :=
    reaches_execute _ (by decide +kernel)
  obtain ⟨_, _, _, _, lists⟩ := numbering_safe rivalEntries empty_sound empty_numbered
    empty_legible (storable.mono fun _ _ _ _ _ => trivial)
  obtain ⟨entries, listed, ascending, _⟩ := lists storable rivalEntriesPool
    (Env.calm 1700000000000000) (Env.calm 1700000000000000) .refl rfl rfl (by decide +kernel)
  exact ⟨by decide +kernel, entries, listed, ascending⟩

/-- An entry whose debits are rounded up one by one. -/
def thirdPlaceCreation : Nat → Call
  | 0 => .createAccount ((CreateAccountInput.accept "1000" "Cash" .asset).get (.refl true)) "alice"
  | 1 => .createAccount ((CreateAccountInput.accept "1100" "Bank" .asset).get (.refl true)) "alice"
  | 2 => .createAccount ((CreateAccountInput.accept "4000" "Sales" .revenue).get (.refl true))
      "alice"
  | 3 => .createJournalEntry
      ((CreateJournalInput.accept ⟨1600000000000000, none⟩
        [(JournalLineInput.accept "Cash" ⟨1005, -3⟩ ⟨0, 0⟩).get (.refl true),
          (JournalLineInput.accept "Bank" ⟨1005, -3⟩ ⟨0, 0⟩).get (.refl true),
          (JournalLineInput.accept "Sales" ⟨0, 0⟩ ⟨201, -2⟩).get (.refl true)]
        none).get (.refl true)) "bob"
  | _ => .getChart

def thirdPlacePool : Pool Nat Command Reply Raised Response World :=
  Pool.execute handle
    (([0, 0, 0, 0, 1, 1, 1, 1, 2, 2, 2, 2, 3, 3, 3, 3] : List Nat).map
      fun thread => (thread, Env.calm 1700000000000000))
    ⟨World.empty, fun thread => (thirdPlaceCreation thread).program⟩

/-- It is committed, and the listing raises from then on. -/
theorem listEntries_fails_on_thirdPlace :
    Reaches handle (fun _ _ _ _ => True)
        ⟨World.empty, fun thread => (thirdPlaceCreation thread).program⟩ thirdPlacePool ∧
      (thirdPlacePool.threads 3).succeeded = true ∧
      thirdPlacePool.state.journalEntries.map JournalEntryModel.journalNumber = [1] ∧
      ((PostgresJournalRepo.listEntries.resume handle (Env.calm 1700000000000000)
        thirdPlacePool.state).resume handle (Env.calm 1700000000000000)
          thirdPlacePool.state).ended = true ∧
      ((PostgresJournalRepo.listEntries.resume handle (Env.calm 1700000000000000)
        thirdPlacePool.state).resume handle (Env.calm 1700000000000000)
          thirdPlacePool.state).succeeded = false :=
  ⟨reaches_execute_of_forall _ fun _ _ _ _ => trivial, by decide +kernel, by decide +kernel,
    by decide +kernel, by decide +kernel⟩

end Trutina
