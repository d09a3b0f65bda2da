/-
This file proves that an entry is posted exactly once. Two calls can both pass
their checks before either sends its batch, so the check alone decides nothing.
The batch does: its lines are numbered as the stored lines are, and the numbers
of an entry's postings are unique, so the second batch of an entry always meets
the first. At the same time nothing else can refuse a batch whose lines were
read back from the store, so the conflict is only reported where there is one.
A call checks an entry that it has read itself, so a clock that is not set back
meanwhile has reached the date of the entry.
-/

import Trutina.LedgerRuns
import Trutina.Lookups

namespace Trutina

open Interaction

theorem Call.task_of_posts {call : Call} {number : Int} (posts : call.Posts number) :
    call.task = postTask number := by
  cases call with
  | postJournalEntry other actor =>
    obtain rfl : other = number := posts
    rfl
  | _ => exact posts.elim

/-- A posting call has not sent its batch when it starts. -/
theorem pastBatch_of_posts {call : Call} {number : Int} (posts : call.Posts number) :
    Program.pastBatch call.program = false := by
  cases call with
  | postJournalEntry other actor =>
    simp only [Call.program, PostingService.postJournalEntry, map_eq_pure_bind, requireActor]
    split <;> rfl
  | _ => exact posts.elim

/-! ### The entry that is checked -/

/-- The monitor of a call that posts an entry: it looks for its postings once it has read it. -/
def OwnSteps.readsFirst (steps : OwnSteps) (number : Int) : Monitor Command Reply Unit where
  allows _ command :=
    command = .query (.postingsByNumber number) → ∃ view, steps.Viewed number view
  expects := steps.Told
  next _ _ _ := ()

theorem getJournalEntry_commands (number : Int) :
    (JournalService.getJournalEntry number).Issues fun command =>
      command = .query (.journalEntriesByNumber number) ∨
        command = .query (.journalLinesByNumber number) := by
  refine Program.Issues.bind (Program.Issues.bind (Program.issues_ask (.inl rfl) fun _ =>
    Program.issues_done _) fun answer => (lift_issues _).bind fun found => ?_) fun _ =>
      (lift_issues _).bind fun _ => lift_issues _
  cases found with
  | none => exact Program.issues_done _
  | some header =>
    exact Program.Issues.bind (Program.issues_ask (.inr rfl) fun _ => Program.issues_done _)
      fun _ => (lift_issues _).bind fun _ => Program.issues_done _

theorem postJournalEntry_readsFirst (steps : OwnSteps) (number : Int) (actor : String) :
    (Call.postJournalEntry number actor).program.Conforms (steps.readsFirst number)
      (fun _ _ => True) () := by
  simp only [Call.program, PostingService.postJournalEntry, map_eq_pure_bind, bind_assoc,
    pure_bind]
  have silent : (liftM (requireActor actor) : Action Unit).Issues fun _ => False := lift_issues _
  refine silent.conforms_bind (fun _ none => none.elim) (fun _ => trivial) fun _ => ?_
  have reads : (JournalService.getJournalEntry number).Conforms (steps.readsFirst number)
      (fun _ outcome => ∀ view, outcome = .ok view → steps.Viewed number view) () := by
    refine Program.Conforms.under (JournalService.getJournalEntry_learns number)
      (getJournalEntry_commands number) (fun _ command _ issued => ⟨fun check => ?_, fun _ => rfl⟩)
      (fun _ _ told => told) fun _ _ learned => learned
    subst check
    rcases issued with header | lines
    · cases header
    · cases lines
  refine reads.bind (fun _ view viewed => ?_) fun _ _ _ => trivial
  exact (Program.issues_all _).conforms
    (fun _ _ => ⟨fun _ => ⟨view, viewed view rfl⟩, fun _ => rfl⟩) fun _ => trivial

section Clock

variable {Thread : Type} [DecidableEq Thread] {calls : Thread → Call} {start : World}
  {pool : Pool Thread Command Reply Raised Response World}
  {trace : List (Move Thread Command Env World)} {thread : Thread} {number : Int}

/-- A call that looks for the postings of an entry has read it at steps of its own. -/
theorem viewed_of_check
    (walks : Walks handle (fun _ _ _ => True) ⟨start, fun thread => (calls thread).program⟩ trace
      pool) (posts : (calls thread).Posts number)
    {next : Reply (.query (.postingsByNumber number)) → Action Response}
    (asks : pool.threads thread = .ask (.query (.postingsByNumber number)) next) :
    ∃ view, (stepsOf thread trace).Viewed number view := by
  have program : (calls thread).program.Conforms ((stepsOf thread trace).readsFirst number)
      (fun _ _ => True) () := by
    cases own : calls thread with
    | postJournalEntry other actor =>
      rw [own] at posts
      obtain rfl : other = number := posts
      exact postJournalEntry_readsFirst _ other actor
    | _ =>
      rw [own] at posts
      exact posts.elim
  have conforms := walks.conforms _ _ () thread program (told_stepsOf thread)
  rw [asks] at conforms
  exact conforms.allowed rfl

/-- A clock that is not set back behind what a call has read has reached the date of the entry. -/
theorem dated_of_check (sound : start.Sound)
    (walks : Walks handle (fun _ _ _ => True) ⟨start, fun thread => (calls thread).program⟩ trace
      pool) (posts : (calls thread).Posts number)
    {next : Reply (.query (.postingsByNumber number)) → Action Response}
    (asks : pool.threads thread = .ask (.query (.postingsByNumber number)) next) {now : Timestamp}
    (forward : ∀ move ∈ trace, move.thread = thread → move.env.now ≤ now) :
    ∀ header ∈ pool.state.journalEntries, header.journalNumber = number →
      header.postingDate ≤ now := by
  obtain ⟨_, entry, ⟨header, _, _, _, ⟨env, world, looked, rows, _⟩, ⟨_, _, listed, _, rfl⟩,
    rebuilt⟩, _⟩ := viewed_of_check walks posts asks
  obtain ⟨_, _, _, dated, _⟩ := toDomain_eq_ok_iff.mp rebuilt
  obtain ⟨stored, own⟩ : header ∈ world.journalEntries ∧ header.journalNumber = number := by
    have member : header ∈ Query.rows env world (.journalEntriesByNumber number) := by
      rw [← rows]
      exact List.mem_singleton_self header
    simpa [Query.rows] using member
  obtain ⟨middle, same, first, second⟩ :
      ∃ middle : Pool Thread Command Reply Raised Response World, middle.state = world ∧
        Reaches handle (fun _ _ _ _ => True) ⟨start, fun thread => (calls thread).program⟩ middle ∧
        Reaches handle (fun _ _ _ _ => True) middle pool :=
    walks.through (fun _ _ _ _ => trivial) looked
  have kept : middle.state.KeepsLedger pool.state :=
    (Reaches.valid (pool_sound calls sound first).1 (second.mono fun world thread command env _ =>
      (calls thread).task_permits world command env)).2
  have soundNow : pool.state.Sound := (pool_sound calls sound (first.trans second)).1.invariant
  rw [same] at kept
  intro other present named
  obtain rfl := soundNow.eq_of_number present (kept.entries header stored) (named.trans own.symm)
  exact dated.trans (forward _ listed rfl)

end Clock

/-! ### Posting once -/

/-- In every run of calls on a sound ledger, whatever fails on the way: the postings of an entry
are none, or exactly one for each of its lines, in order; at most one call that posts it succeeds;
one that reaches its check or its batch when the entry has postings reports it as posted already,
the check provided that the clock has reached the entry's date; the check reports it too when the
clock of the call has not been set back behind what it has read; and that is reported only when the
entry has postings, provided that the database has reached the dates of the entries. -/
theorem posting_exactlyOnce {Thread : Type} [DecidableEq Thread] (calls : Thread → Call)
    {start : World} (sound : start.Sound)
    {pool : Pool Thread Command Reply Raised Response World}
    (reaches : Reaches handle (fun _ _ _ _ => True)
      ⟨start, fun thread => (calls thread).program⟩ pool) :
    (∀ number, pool.state.postingsOf number = [] ∨
      ∃ header ∈ pool.state.journalEntries, header.journalNumber = number ∧ ∃ createdBy,
        pool.state.postingsOf number =
          (pool.state.linesOf number).map (postingOf header createdBy)) ∧
    (∀ number first second, (calls first).Posts number → (calls second).Posts number →
      (pool.threads first).succeeded = true → (pool.threads second).succeeded = true →
      first = second) ∧
    (∀ number thread command next env, (calls thread).Posts number →
      pool.threads thread = .ask command next → env.fault = none →
      pool.state.postingsOf number ≠ [] →
      (command = .query (.postingsByNumber number) ∧ ∀ header ∈ pool.state.journalEntries,
          header.journalNumber = number → header.postingDate ≤ env.now) ∨
        (∃ transaction, command = .transact transaction) →
      (pool.step handle thread env).threads thread = .done (.error (AppError.conflict
        .journalAlreadyPosted "journal_entry" "journal_number" (toString number)))) ∧
    (∀ trace, Walks handle (fun _ _ _ => True) ⟨start, fun thread => (calls thread).program⟩ trace
        pool → ∀ number thread next env, (calls thread).Posts number →
      pool.threads thread = .ask (.query (.postingsByNumber number)) next → env.fault = none →
      pool.state.postingsOf number ≠ [] →
      (∀ move ∈ trace, move.thread = thread → move.env.now ≤ env.now) →
      (pool.step handle thread env).threads thread = .done (.error (AppError.conflict
        .journalAlreadyPosted "journal_entry" "journal_number" (toString number)))) ∧
    ∀ number thread command next env context, (calls thread).Posts number →
      pool.threads thread = .ask command next →
      (pool.step handle thread env).threads thread =
        .done (.error (.appError .journalAlreadyPosted context)) →
      (∀ header ∈ pool.state.journalEntries, header.postingDate ≤ env.dbNow) →
      pool.state.postingsOf number ≠ [] := by
  have started : (Pool.mk start fun thread => (calls thread).program).Valid handle ledgerRegime
      (fun thread => (calls thread).task) :=
    ⟨sound, fun thread => call_valid (calls thread) start⟩
  have permitted : Reaches handle (fun world thread => (calls thread).task.permits world)
      ⟨start, fun thread => (calls thread).program⟩ pool :=
    reaches.mono fun world thread command env _ => (calls thread).task_permits world command env
  have valid : pool.Valid handle ledgerRegime fun thread => (calls thread).task :=
    (Reaches.valid started permitted).1
  have soundNow : pool.state.Sound := valid.invariant
  -- What the step of a posting thread shows, and where it leads.
  have shows : ∀ number thread command next env, (calls thread).Posts number →
      pool.threads thread = .ask command next →
      PostShows number pool.state command env (next (handle command env pool.state).1) ∧
        (pool.step handle thread env).threads thread =
          next (handle command env pool.state).1 := by
    intro number thread command next env posts asks
    obtain ⟨_, shown, _⟩ :=
      valid.step_spec env asks ((calls thread).task_permits pool.state command env)
    rw [Call.task_of_posts posts] at shown
    rw [Pool.step_of_ask asks]
    exact ⟨shown, Function.update_self _ _ _⟩
  refine ⟨fun number => ?_, fun number first second left right succeeds succeeds' => ?_,
    fun number thread command next env posts asks calm posted reached => ?_,
    fun trace walks number thread next env posts asks calm posted forward => ?_,
    fun number thread command next env context posts asks raised dated => ?_⟩
  · refine (soundNow.whole number).imp_right fun ⟨header, own, posted⟩ => ?_
    subst own
    exact ⟨header, posted.stored, rfl, posted.batch⟩
  · have past : ∀ thread, (pool.threads thread).succeeded = true →
        Program.pastBatch (pool.threads thread) = true := fun thread succeeded => by
      obtain ⟨response, finished⟩ := Program.succeeded_iff.mp succeeded
      rw [finished]
      rfl
    refine (Reaches.passes_once (fun thread => (calls thread).Posts number)
      (fun program => Program.pastBatch program = true)
      (fun world => world.postingsOf number ≠ []) started permitted
      (fun thread posts => ?_) (fun state after kept posted => ?_)
      (fun state thread command next env posts shown free passes => ?_)).2 first second left right
      (past first succeeds) (past second succeeds')
    · rw [pastBatch_of_posts posts]
      exact Bool.false_ne_true
    · rwa [kept.postings number posted]
    · rw [Call.task_of_posts posts] at shown
      obtain ⟨unposted, batch⟩ := shown.first passes fun record same => by
        subst same
        exact free rfl
      exact ⟨fun posted => posted unposted, batch⟩
  · obtain ⟨shown, leads⟩ := shows number thread command next env posts asks
    rw [leads]
    exact shown.reports calm posted reached
  · obtain ⟨shown, leads⟩ := shows number thread _ next env posts asks
    rw [leads]
    exact shown.reports calm posted (.inl ⟨rfl, dated_of_check sound walks posts asks forward⟩)
  · obtain ⟨shown, leads⟩ := shows number thread command next env posts asks
    rw [leads] at raised
    exact shown.honest context raised dated

/-- Two accounts, an entry on them, and two calls that post it. -/
def rivalPostings : Fin 5 → Call
  | 0 => .createAccount ((CreateAccountInput.accept "1000" "Cash" .asset).get (.refl true)) "alice"
  | 1 =>
    .createAccount ((CreateAccountInput.accept "4000" "Sales" .revenue).get (.refl true)) "alice"
  | 2 => .createJournalEntry
      ((CreateJournalInput.accept ⟨1600000000000000, none⟩
        [(JournalLineInput.accept "Cash" ⟨1250, -2⟩ ⟨0, 0⟩).get (.refl true),
          (JournalLineInput.accept "Sales" ⟨0, 0⟩ ⟨125, -1⟩).get (.refl true)]
        none).get (.refl true)) "bob"
  | 3 => .postJournalEntry 1 "carol"
  | 4 => .postJournalEntry 1 "dave"

/-- Both posting calls pass their checks before the first batch. -/
def rivalPostingsPool : Pool (Fin 5) Command Reply Raised Response World :=
  Pool.execute handle
    (([0, 0, 0, 0, 1, 1, 1, 1, 2, 2, 2, 2, 3, 3, 4, 4, 3, 4, 3, 4, 3] : List (Fin 5)).map
      fun thread => (thread, Env.calm 1700000000000000))
    ⟨World.empty, fun thread => (rivalPostings thread).program⟩

theorem rivalPostings_reaches : Reaches handle (fun _ _ _ _ => True)
    ⟨World.empty, fun thread => (rivalPostings thread).program⟩ rivalPostingsPool :=
  reaches_execute_of_forall _ fun _ _ _ _ => trivial

/-- One of them succeeds, and the entry has one posting for each line. -/
theorem posting_exactlyOnce_of_rivals :
    (rivalPostingsPool.state.postingsOf 1).length = 2 ∧
      (∃ header ∈ rivalPostingsPool.state.journalEntries, header.journalNumber = 1 ∧
        ∃ createdBy, rivalPostingsPool.state.postingsOf 1 =
          (rivalPostingsPool.state.linesOf 1).map (postingOf header createdBy)) ∧
      (rivalPostingsPool.threads 3).succeeded = true ∧
      (rivalPostingsPool.threads 4).succeeded = false := by
  obtain ⟨whole, once, _⟩ := posting_exactlyOnce rivalPostings empty_sound rivalPostings_reaches
  have two : (rivalPostingsPool.state.postingsOf 1).length = 2 := by decide +kernel
  have third : (rivalPostingsPool.threads 3).succeeded = true := by decide +kernel
  refine ⟨two, (whole 1).resolve_left fun none => ?_, third, Bool.eq_false_iff.mpr fun fourth => ?_⟩
  · rw [none] at two
    cases two
  · exact absurd (once 1 3 4 rfl rfl third fourth) (by decide)

end Trutina
