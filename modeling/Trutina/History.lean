/-
This file follows the calls of a client one after another. Lines and postings keep
the name of an account as text, and a name can change hands, so next to the stored
state a history records which account, by its code, each line resolved to when its
entry was created. The record is read off the chart that the call itself has read,
and nothing in the program depends on it.
-/

import Trutina.Sequential

namespace Trutina

open Interaction

/-! ### Histories -/

/-- The account that a line resolved to when its entry was created. -/
structure Resolution where
  journalNumber : Int
  lineIndex : Nat
  code : String
  deriving DecidableEq, Repr

/-- What a call has resolved: the references of a created entry, against the chart it read. -/
def resolutionsOf (envs : Nat → Env) (world : World) :
    Call → Except Raised Response → List Resolution
  | .createJournalEntry input _, .ok (.journal view) =>
    match (AccountService.getChart.run handle envs world).1 with
    | .ok chart => input.lines.zipIdx.filterMap fun (line, index) =>
        (chart.getByName line.account).map fun account => ⟨view.journalNumber, index, account.code⟩
    | .error _ => []
  | _, _ => []

/-- A state that calls have led to, and what was resolved on the way. -/
structure History where
  world : World
  resolutions : List Resolution

namespace History

/-- The history of a fresh store. -/
def empty : History := ⟨World.empty, []⟩

/-- The next call runs alone, from its first command to its last. -/
def step (call : Call) (envs : Nat → Env) (history : History) : History :=
  let (outcome, after) := call.program.run handle envs history.world
  ⟨after, history.resolutions ++ resolutionsOf envs history.world call outcome⟩

/-- Whether the next call returns a result. -/
def succeeds (call : Call) (envs : Nat → Env) (history : History) : Bool :=
  (call.program.run handle envs history.world).1.toOption.isSome

/-- The histories that permitted calls lead to. -/
inductive Reachable (permits : History → Call → (Nat → Env) → Prop) : History → Prop where
  | empty : Reachable permits History.empty
  | step {history : History} {call : Call} {envs : Nat → Env}
      (before : Reachable permits history) (permitted : permits history call envs) :
      Reachable permits (history.step call envs)

/-- Play calls one after another. -/
def play (moves : List (Call × (Nat → Env))) (history : History) : History :=
  moves.foldl (fun current move => current.step move.1 move.2) history

/-- Whether every call is permitted when its turn comes. -/
def allows (permits : History → Call → (Nat → Env) → Prop)
    [∀ history call envs, Decidable (permits history call envs)] :
    List (Call × (Nat → Env)) → History → Bool
  | [], _ => true
  | move :: rest, history =>
    decide (permits history move.1 move.2) && allows permits rest (history.step move.1 move.2)

theorem Reachable.play {permits : History → Call → (Nat → Env) → Prop}
    [∀ history call envs, Decidable (permits history call envs)] {history : History}
    (before : Reachable permits history) (moves : List (Call × (Nat → Env)))
    (allowed : allows permits moves history = true) : Reachable permits (history.play moves) := by
  induction moves generalizing history with
  | nil => exact before
  | cons move rest inductionHypothesis =>
    obtain ⟨first, others⟩ := Bool.and_eq_true_iff.mp allowed
    exact inductionHypothesis (before.step (of_decide_eq_true first)) others

/-- A stored line that resolved to an account. -/
structure Resolved (history : History) (line : JournalLineModel Money) (code : String) : Prop where
  stored : line ∈ history.world.journalLines
  recorded : ⟨line.journalNumber, line.lineIndex, code⟩ ∈ history.resolutions

/-- A stored posting that derives from a line that resolved to an account. -/
structure PostedTo (history : History) (posting : PostingModel Money) (code : String) : Prop where
  stored : posting ∈ history.world.postings
  recorded : ⟨posting.journalNumber, posting.lineIndex, code⟩ ∈ history.resolutions

instance (history : History) (posting : PostingModel Money) (code : String) :
    Decidable (history.PostedTo posting code) :=
  decidable_of_iff (posting ∈ history.world.postings ∧
      ⟨posting.journalNumber, posting.lineIndex, code⟩ ∈ history.resolutions)
    ⟨fun ⟨stored, recorded⟩ => ⟨stored, recorded⟩, fun ⟨stored, recorded⟩ => ⟨stored, recorded⟩⟩

end History

/-- The name that a call gives to an account, when it succeeds. -/
def Call.gives : Call → Option (String × String)
  | .createAccount dto _ => (cleanAccountName dto.name).map fun name => (dto.code, name)
  | .updateAccount dto _ => dto.name.bind fun given =>
      (cleanAccountName given).map fun name => (dto.code, name)
  | _ => none

/-! ### What a call does to the accounts -/

section Accounts

variable {call : Call} {world after : World} {outcome : Except Raised Response}

/-- Of the account rows after a call, each has kept its code and name, or was given its name by
the call. -/
theorem Call.Effect.row_origin (effect : call.Effect world outcome after)
    (consistent : world.ChartConsistent) {row : AccountModel} (member : row ∈ after.accounts) :
    (∃ old ∈ world.accounts, old.code = row.code ∧ old.name = row.name) ∨
      ((∃ response, outcome = .ok response) ∧ ∃ account : Account,
        account.code = row.code ∧ account.name = row.name ∧
          call.gives = some (account.code, account.name)) := by
  have kept : after.accounts = world.accounts →
      ∃ old ∈ world.accounts, old.code = row.code ∧ old.name = row.name := fun same =>
    ⟨row, same ▸ member, rfl, rfl⟩
  cases effect with
  | failed fails => exact .inl (kept fails.same.accounts)
  | read _ same => exact .inl (kept same.accounts)
  | @wrote transaction response env middle stored _ sends before applied rest =>
    have consistentMiddle : middle.ChartConsistent :=
      consistent.congr before.accounts before.sequence
    cases sends with
    | @createAccount dto actor account built =>
      obtain ⟨_, _, rfl⟩ := insertAccount_ok applied
      rw [rest.accounts] at member
      rcases List.mem_append.mp member with earlier | new
      · exact .inl ⟨row, before.accounts ▸ earlier, rfl, rfl⟩
      · rw [List.mem_singleton.mp new]
        obtain ⟨code, ⟨clean, _⟩, _⟩ := Account.validate_eq_ok_iff.mp built
        refine .inr ⟨⟨_, rfl⟩, account, rfl, rfl, ?_⟩
        rw [Call.gives, clean, code]
        rfl
    | @updateAccount dto actor read loaded existing updated stored rebuilt built found =>
      rw [rest.accounts, updateAccount_rows consistentMiddle.toIdentified
        (before.accounts ▸ found.1) applied] at member
      obtain ⟨old, present, rfl⟩ := List.mem_map.mp member
      rw [before.accounts] at present
      split
      · obtain ⟨code, ⟨clean, _⟩, _⟩ := Account.validate_eq_ok_iff.mp built
        obtain ⟨ownCode, ownName, _⟩ := consistent.toDomain_fields stored.1 rebuilt
        have own : read = loaded :=
          consistent.eq_of_code stored.1 found.1 (by rw [found.2, code, ownCode])
        cases given : dto.name with
        | none =>
          rw [given, Option.getD_none, existing.name_clean, Option.some.injEq] at clean
          exact .inl ⟨loaded, found.1, rfl, by rw [← clean, ownName, own]⟩
        | some name =>
          rw [given, Option.getD_some] at clean
          refine .inr ⟨⟨_, rfl⟩, updated, found.2.symm, rfl, ?_⟩
          simp only [Call.gives, given, Option.bind_some, clean, Option.map_some]
          rw [code, ownCode, stored.2]
      · exact .inl ⟨old, present, rfl, rfl⟩
    | deleteAccount =>
      rw [deleteAccount_ok applied] at rest
      rw [rest.accounts] at member
      exact .inl ⟨row, before.accounts ▸ List.mem_of_mem_filter member, rfl, rfl⟩
    | createJournalEntry =>
      obtain ⟨_, _, _, _, rfl⟩ := insertJournal_ok applied
      exact .inl (kept (rest.accounts.trans before.accounts))
    | postJournalEntry =>
      rw [(insertPostings_ok applied).1] at rest
      exact .inl (kept (rest.accounts.trans before.accounts))

/-- A row that is stored before a call is stored after it, with its code and with its name or the
one that an update gives it; unless the call has deleted it. -/
theorem Call.Effect.row_survives (effect : call.Effect world outcome after)
    (consistent : world.ChartConsistent) {row : AccountModel} (member : row ∈ world.accounts) :
    (∃ later ∈ after.accounts, later.code = row.code ∧ (later.name = row.name ∨
        (∃ response, outcome = .ok response) ∧ ∃ dto actor, call = .updateAccount dto actor ∧
          call.gives = some (row.code, later.name))) ∨
      ((∃ response, outcome = .ok response) ∧ ∃ actor, call = .deleteAccount row.code actor) := by
  have kept : row ∈ after.accounts → ∃ later ∈ after.accounts, later.code = row.code ∧
      (later.name = row.name ∨ (∃ response, outcome = .ok response) ∧
        ∃ dto actor, call = .updateAccount dto actor ∧
          call.gives = some (row.code, later.name)) := fun still => ⟨row, still, rfl, .inl rfl⟩
  cases effect with
  | failed fails => exact .inl (kept (fails.same.accounts ▸ member))
  | read _ same => exact .inl (kept (same.accounts ▸ member))
  | @wrote transaction response env middle stored _ sends before applied rest =>
    have consistentMiddle : middle.ChartConsistent :=
      consistent.congr before.accounts before.sequence
    have present : row ∈ middle.accounts := before.accounts ▸ member
    cases sends with
    | createAccount =>
      obtain ⟨_, _, rfl⟩ := insertAccount_ok applied
      exact .inl (kept (rest.accounts ▸ List.mem_append_left _ present))
    | @updateAccount dto actor read loaded existing updated stored rebuilt built found =>
      have rows := rest.accounts.trans (congrArg World.accounts
        (updateAccount_rows consistentMiddle.toIdentified (before.accounts ▸ found.1) applied))
      by_cases own : row = loaded
      · subst own
        obtain ⟨code, ⟨clean, _⟩, _⟩ := Account.validate_eq_ok_iff.mp built
        obtain ⟨ownCode, ownName, _⟩ := consistent.toDomain_fields stored.1 rebuilt
        have same : read = row :=
          consistent.eq_of_code stored.1 found.1 (by rw [found.2, code, ownCode])
        have written : (⟨row.id, row.code, updated.name, accountLookupKey updated.name,
            updated.category⟩ : AccountModel) ∈ after.accounts := by
          rw [rows]
          exact List.mem_map.mpr ⟨row, present, if_pos rfl⟩
        refine .inl ⟨_, written, rfl, ?_⟩
        cases given : dto.name with
        | none =>
          rw [given, Option.getD_none, existing.name_clean, Option.some.injEq] at clean
          exact .inl (by rw [← clean, ownName, same])
        | some name =>
          rw [given, Option.getD_some] at clean
          refine .inr ⟨⟨_, rfl⟩, dto, actor, rfl, ?_⟩
          simp only [Call.gives, given, Option.bind_some, clean, Option.map_some]
          rw [← stored.2, same]
      · exact .inl (kept (rows ▸ List.mem_map.mpr ⟨row, present, if_neg own⟩))
    | @deleteAccount code actor read loaded existing stored rebuilt unposted found =>
      rw [deleteAccount_ok applied] at rest
      by_cases own : row.id = loaded.id
      · refine .inr ⟨⟨_, rfl⟩, actor, ?_⟩
        rw [consistent.eq_of_id member found.1 own, found.2]
      · exact .inl (kept (rest.accounts ▸
          List.mem_filter.mpr ⟨present, bne_iff_ne.mpr own⟩))
    | createJournalEntry =>
      obtain ⟨_, _, _, _, rfl⟩ := insertJournal_ok applied
      exact .inl (kept (rest.accounts ▸ present))
    | postJournalEntry =>
      rw [(insertPostings_ok applied).1] at rest
      exact .inl (kept (rest.accounts ▸ present))

/-- Accounts stay consistent when calls do not overlap. -/
theorem Call.Effect.consistent (effect : call.Effect world outcome after)
    (consistent : world.ChartConsistent) : after.ChartConsistent := by
  cases effect with
  | failed fails => exact consistent.congr fails.same.accounts fails.same.sequence
  | read _ same => exact consistent.congr same.accounts same.sequence
  | @wrote transaction response env middle stored _ sends before applied rest =>
    have consistentMiddle : middle.ChartConsistent :=
      consistent.congr before.accounts before.sequence
    suffices still : stored.ChartConsistent from still.congr rest.accounts rest.sequence
    cases sends with
    | @createAccount _ _ account => exact consistentMiddle.insert account.name_clean rfl applied
    | @updateAccount _ _ _ loaded _ updated _ _ _ found =>
      refine consistentMiddle.update (consistent.keyed loaded found.1) updated.name_clean rfl
        (fun _ unchanged row member own => ?_) applied
      rw [before.accounts] at member
      rw [consistent.eq_of_id member found.1 own, unchanged]
    | deleteAccount => exact consistentMiddle.delete applied
    | createJournalEntry =>
      obtain ⟨_, _, _, _, rfl⟩ := insertJournal_ok applied
      exact consistentMiddle.congr rfl rfl
    | postJournalEntry =>
      rw [(insertPostings_ok applied).1]
      exact consistentMiddle.congr rfl rfl

end Accounts

/-! ### What a call does to the ledger -/

/-- A line of a created entry takes the account of its reference, which an account of the chart
has resolved. -/
structure RecordedLine (world : World) (input : CreateJournalInput) (view : JournalViewModel)
    (line : JournalLineModel Money) : Prop where
  number : line.journalNumber = view.journalNumber
  reference : ∃ source, input.lines[line.lineIndex]? = some source ∧
    cleanAccountName source.account = some line.account
  account : ∃ row ∈ world.accounts, row.nameKey = accountLookupKey line.account

/-- An account of the chart comes from a stored row. -/
theorem row_of_chart {world : World} (consistent : world.ChartConsistent) {env : Env}
    {accounts : List Account} (rebuilt : fromRows PostgresAccountRepo.toDomain
      (Query.rows env world .allAccounts) = .ok accounts) {account : Account}
    (member : account ∈ accounts) :
    ∃ row ∈ world.accounts, row.code = account.code ∧ row.name = account.name := by
  obtain ⟨row, listed, converted⟩ := (fromRows_eq_ok_iff.mp rebuilt).exists_left member
  have stored := (env.arrangeAccounts_perm _).mem_iff.mp listed
  obtain ⟨code, name, _⟩ := consistent.toDomain_fields stored converted
  exact ⟨row, stored, code.symm, name.symm⟩

/-- An account of a chart that was read comes from a stored row. -/
theorem row_of_readChart {world : World} (consistent : world.ChartConsistent) {envs : Nat → Env}
    {chart : ChartOfAccounts} (read : (AccountService.getChart.run handle envs world).1 = .ok chart)
    {account : Account} (member : account ∈ chart.accounts) :
    ∃ row ∈ world.accounts, row.code = account.code ∧ row.name = account.name := by
  have runs : Runs handle (fun _ _ _ => True) AccountService.getChart world _ _ :=
    runs_run envs (fun _ _ _ => trivial) _ _
  rw [read] at runs
  simp only [AccountService.getChart, PostgresAccountRepo.listAll, bind_assoc] at runs
  rcases runs_execute_bind runs with failed | ⟨env, runs⟩
  · obtain ⟨_, raised⟩ := failed.raises
    cases raised
  rcases runs_lift_bind runs with failed | ⟨accounts, rebuilt, runs⟩
  · obtain ⟨_, raised⟩ := failed.raises
    cases raised
  obtain ⟨built, _⟩ := runs_done_iff.mp runs
  rw [ChartOfAccounts.validate_eq_ok_iff.mp built.symm] at member
  exact row_of_chart consistent rebuilt member

/-- The lines of a built entry are those of its input, with their accounts cleaned. -/
theorem buildEntry_lines {now : Timestamp} {number : Int} {input : CreateJournalInput}
    {entry : JournalEntry} (built : JournalService.buildEntry now number input = .ok entry) :
    List.Forall₂ (fun source line => cleanAccountName source.account = some line.account)
      input.lines entry.lines := by
  obtain ⟨lines, validated, built⟩ := buildEntry_eq_ok_iff.mp built
  obtain ⟨_, _, same, _⟩ := JournalEntry.validate_eq_ok_iff.mp built
  rw [same]
  refine (fromRows_eq_ok_iff.mp validated).imp fun source line converted => ?_
  exact (JournalLine.validate_eq_ok_iff.mp converted).1.1

section Ledger

variable {call : Call} {world after : World} {outcome : Except Raised Response}

/-- Of the lines stored after a call, each was stored before it or belongs to the entry that the
call has created. -/
theorem Call.Effect.line_origin (effect : call.Effect world outcome after)
    (consistent : world.ChartConsistent) {line : JournalLineModel Money}
    (member : line ∈ after.journalLines) :
    line ∈ world.journalLines ∨ ∃ input actor view, call = .createJournalEntry input actor ∧
      outcome = .ok (.journal view) ∧ RecordedLine world input view line ∧
      after.accounts = world.accounts := by
  cases effect with
  | failed fails => exact .inl (fails.same.lines ▸ member)
  | read _ same => exact .inl (same.lines ▸ member)
  | @wrote transaction response env middle stored _ sends before applied rest =>
    rw [rest.lines] at member
    cases sends with
    | createAccount =>
      obtain ⟨_, _, rfl⟩ := insertAccount_ok applied
      exact .inl (before.lines ▸ member)
    | updateAccount =>
      rcases updateAccount_ok applied with ⟨_, rfl⟩ | ⟨_, _, rfl⟩ <;>
        exact .inl (before.lines ▸ member)
    | deleteAccount =>
      rw [deleteAccount_ok applied] at member
      exact .inl (before.lines ▸ member)
    | postJournalEntry =>
      rw [(insertPostings_ok applied).1] at member
      exact .inl (before.lines ▸ member)
    | @createJournalEntry input actor _ _ _ _ entry view charted resolved built viewed =>
      obtain ⟨_, _, new, rows, rfl⟩ := insertJournal_ok applied
      have storedLines : StoredLines entry.journalNumber entry.lines new := ⟨rows⟩
      rcases List.mem_append.mp member with earlier | created
      · exact .inl (before.lines ▸ earlier)
      obtain ⟨own, _, sent, position, account⟩ := storedLines.origin created
      obtain ⟨source, listed, clean⟩ := (buildEntry_lines built).getElem?_left position
      rw [← account] at clean
      obtain ⟨resolvedTo, found⟩ :=
        resolveLines_eq_ok_iff.mp resolved source (List.mem_of_getElem? listed)
      obtain ⟨charted', sameKey⟩ := ChartOfAccounts.getByName_eq_some_iff.mp found
      obtain ⟨row, present, _, name⟩ := row_of_chart consistent charted charted'
      have reference : line.account = source.account :=
        cleanAccountName_of_same_key clean resolvedTo.name_clean sameKey.symm
      obtain ⟨view', viewed', sameNumber, _⟩ := toEntryView_eq_ok entry
      rw [viewed] at viewed'
      cases viewed'
      refine .inr ⟨input, actor, view, rfl, rfl, ⟨own.trans sameNumber.symm,
        ⟨source, listed, clean⟩, row, present, ?_⟩, rest.accounts.trans before.accounts⟩
      rw [consistent.keyed row present, name, sameKey, reference]

/-- A created entry has a number that was not stored before. -/
theorem Call.Effect.entry_created {input : CreateJournalInput} {actor : String}
    {view : JournalViewModel}
    (effect : (Call.createJournalEntry input actor).Effect world (.ok (.journal view)) after) :
    (∀ header ∈ world.journalEntries, header.journalNumber ≠ view.journalNumber) ∧
      ∃ header ∈ after.journalEntries, header.journalNumber = view.journalNumber := by
  cases effect with
  | failed fails =>
    obtain ⟨_, raised⟩ := fails.raises
    cases raised
  | read reads _ => exact absurd trivial reads
  | wrote sends before applied rest =>
    cases sends with
    | @createJournalEntry _ _ _ chart now number entry _ charted resolved built viewed =>
      obtain ⟨fresh, _, _, _, rfl⟩ := insertJournal_ok applied
      obtain ⟨view', viewed', sameNumber, _⟩ := toEntryView_eq_ok entry
      rw [viewed] at viewed'
      cases viewed'
      refine ⟨fun header earlier => ?_, headerOf entry actor, ?_, sameNumber.symm⟩
      · rw [sameNumber]
        exact fresh header (before.entries ▸ earlier)
      · rw [rest.entries]
        exact List.mem_append_right _ List.mem_cons_self

/-- Of the postings stored after a call, each was stored before it or is the posting of a line of
an entry that had none. -/
theorem Call.Effect.posting_origin (effect : call.Effect world outcome after) (sound : world.Sound)
    {posting : PostingModel Money} (member : posting ∈ after.postings) :
    posting ∈ world.postings ∨
      ((∃ line ∈ world.journalLines, world.postingsOf line.journalNumber = [] ∧
        posting.account = line.account ∧ posting.accountKey = accountLookupKey line.account) ∧
          after.accounts = world.accounts) := by
  cases effect with
  | failed fails => exact .inl (fails.same.postings ▸ member)
  | read _ same => exact .inl (same.postings ▸ member)
  | @wrote transaction response env middle stored _ sends before applied rest =>
    rw [rest.postings] at member
    cases sends with
    | createAccount =>
      obtain ⟨_, _, rfl⟩ := insertAccount_ok applied
      exact .inl (before.postings ▸ member)
    | updateAccount =>
      rcases updateAccount_ok applied with ⟨_, rfl⟩ | ⟨_, _, rfl⟩ <;>
        exact .inl (before.postings ▸ member)
    | deleteAccount =>
      rw [deleteAccount_ok applied] at member
      exact .inl (before.postings ▸ member)
    | createJournalEntry =>
      obtain ⟨_, _, _, _, rfl⟩ := insertJournal_ok applied
      exact .inl (before.postings ▸ member)
    | @postJournalEntry number actor header views present own readable =>
      have soundMiddle : middle.Sound := sound.congr before.entries before.lines before.postings
      have lines : ∀ number, middle.linesOf number = world.linesOf number := fun number => by
        rw [World.linesOf, before.lines, World.linesOf]
      rw [← lines] at applied readable
      obtain ⟨_, _, unposted, _⟩ :=
        insertPostings_sound soundMiddle (before.entries ▸ present) readable applied
      rw [(insertPostings_ok applied).1] at member rest
      rcases List.mem_append.mp member with earlier | new
      · exact .inl (before.postings ▸ earlier)
      · obtain ⟨line, listed, rfl⟩ := List.mem_map.mp new
        rw [lines] at listed
        obtain ⟨stored, number⟩ := mem_linesOf.mp listed
        refine .inr ⟨⟨line, stored, ?_, rfl, rfl⟩, rest.accounts.trans before.accounts⟩
        rw [number, World.postingsOf, ← before.postings]
        exact unposted

end Ledger

/-! ### Every history -/

/-- A recorded resolution: the reference is one of a created entry, and the account was in the
chart under the lookup key of the reference. -/
theorem mem_resolutionsOf {envs : Nat → Env} {world : World} (consistent : world.ChartConsistent)
    {call : Call} {outcome : Except Raised Response} {resolution : Resolution}
    (member : resolution ∈ resolutionsOf envs world call outcome) :
    ∃ input actor view, call = .createJournalEntry input actor ∧ outcome = .ok (.journal view) ∧
      resolution.journalNumber = view.journalNumber ∧
      ∃ source, input.lines[resolution.lineIndex]? = some source ∧
      ∃ row ∈ world.accounts, row.code = resolution.code ∧
        accountLookupKey row.name = accountLookupKey source.account := by
  unfold resolutionsOf at member
  split at member
  · rename_i input actor view
    cases read : (AccountService.getChart.run handle envs world).1 with
    | error error =>
      rw [read] at member
      cases member
    | ok chart =>
      rw [read] at member
      obtain ⟨⟨source, index⟩, listed, found⟩ := List.mem_filterMap.mp member
      obtain ⟨account, resolves, rfl⟩ := Option.map_eq_some_iff.mp found
      obtain ⟨charted, sameKey⟩ := ChartOfAccounts.getByName_eq_some_iff.mp resolves
      have position : input.lines[index]? = some source :=
        List.mk_mem_zipIdx_iff_getElem?.mp listed
      obtain ⟨row, stored, code, name⟩ := row_of_readChart consistent read charted
      exact ⟨input, actor, view, rfl, rfl, rfl, source, position, row, stored, code, name ▸ sameKey⟩
  · cases member

namespace History

variable {history : History}

/-- What holds in every history: the ledger is sound, the accounts are consistent and formed as the
validators ask for, and resolutions are recorded of stored entries only. -/
structure Tracked (history : History) : Prop where
  sound : history.world.Sound
  consistent : history.world.ChartConsistent
  formed : ∀ row ∈ history.world.accounts,
    accountCodePattern.fullmatch row.code.toList = true ∧ row.name.length ≤ 150
  recorded : ∀ resolution ∈ history.resolutions, ∃ header ∈ history.world.journalEntries,
    header.journalNumber = resolution.journalNumber

theorem empty_tracked : History.empty.Tracked where
  sound := empty_sound
  consistent := empty_chartConsistent
  formed := nofun
  recorded := nofun

theorem step_runs (history : History) (call : Call) (envs : Nat → Env) :
    Runs handle (fun _ _ _ => True) call.program history.world
      (call.program.run handle envs history.world).1 (history.step call envs).world :=
  runs_run envs (fun _ _ _ => trivial) _ _

theorem succeeds_of_ok {call : Call} {envs : Nat → Env}
    (returned : ∃ response, (call.program.run handle envs history.world).1 = .ok response) :
    history.succeeds call envs = true := by
  obtain ⟨response, same⟩ := returned
  rw [succeeds, same]
  rfl

/-- What the next call does. -/
theorem Tracked.effect (tracked : history.Tracked) (call : Call) (envs : Nat → Env) :
    call.Effect history.world (call.program.run handle envs history.world).1
      (history.step call envs).world :=
  call_effect tracked.sound (step_runs history call envs)

/-- The next call keeps the ledger. -/
theorem Tracked.keeps (tracked : history.Tracked) (call : Call) (envs : Nat → Env) :
    (history.step call envs).world.Sound ∧
      history.world.KeepsLedger (history.step call envs).world := by
  obtain ⟨sound, kept, _⟩ := (call_valid call history.world).runs tracked.sound
    (fun world command env _ => call.task_permits world command env) (step_runs history call envs)
  exact ⟨sound, kept⟩

theorem Tracked.step (tracked : history.Tracked) (call : Call) (envs : Nat → Env) :
    (history.step call envs).Tracked := by
  have effect := tracked.effect call envs
  obtain ⟨sound, kept⟩ := tracked.keeps call envs
  refine ⟨sound, effect.consistent tracked.consistent, fun row member => ?_,
    fun resolution member => ?_⟩
  · rcases effect.row_origin tracked.consistent member with
      ⟨old, stored, code, name⟩ | ⟨_, account, code, name, _⟩
    · rw [← code, ← name]
      exact tracked.formed old stored
    · rw [← code, ← name]
      exact ⟨account.code_format, account.name_length⟩
  · rcases List.mem_append.mp member with earlier | new
    · obtain ⟨header, stored, same⟩ := tracked.recorded resolution earlier
      exact ⟨header, kept.entries header stored, same⟩
    · obtain ⟨input, actor, view, rfl, returned, number, _⟩ :=
        mem_resolutionsOf tracked.consistent new
      rw [returned] at effect
      obtain ⟨_, header, stored, same⟩ := effect.entry_created
      exact ⟨header, stored, same.trans number.symm⟩

/-- A line that has resolved to an account after a call had done so before, or its entry is the one
created, and an account of the chart had both the code and the lookup key of the line. -/
theorem Tracked.resolved_origin (tracked : history.Tracked) {call : Call} {envs : Nat → Env}
    {line : JournalLineModel Money} {code : String}
    (resolved : (history.step call envs).Resolved line code) :
    history.Resolved line code ∨
      ((history.step call envs).world.accounts = history.world.accounts ∧
        ∃ row ∈ history.world.accounts, row.code = code ∧
          row.nameKey = accountLookupKey line.account) := by
  have effect := tracked.effect call envs
  have consistent := tracked.consistent
  have recorded := List.mem_append.mp resolved.recorded
  rcases effect.line_origin consistent resolved.stored with
    earlier | ⟨input, actor, view, rfl, returned, created, same⟩
  · refine .inl ⟨earlier, recorded.resolve_right fun new => ?_⟩
    obtain ⟨input, actor, view, rfl, returned, number, _⟩ := mem_resolutionsOf consistent new
    rw [returned] at effect
    obtain ⟨header, stored, own⟩ := tracked.sound.owned line earlier
    exact effect.entry_created.1 header stored (own.trans number)
  · refine .inr ⟨same, ?_⟩
    rw [returned] at effect
    rcases recorded with earlier | new
    · obtain ⟨header, stored, own⟩ := tracked.recorded _ earlier
      exact absurd (own.trans created.number) (effect.entry_created.1 header stored)
    · obtain ⟨_, _, _, equal, _, _, source, position, row, stored, code, sameKey⟩ :=
        mem_resolutionsOf consistent new
      cases equal
      obtain ⟨source', position', clean⟩ := created.reference
      rw [position] at position'
      cases position'
      refine ⟨row, stored, code, ?_⟩
      rw [consistent.keyed row stored, sameKey,
        cleanAccountName_of_same_key clean (consistent.cleaned row stored) sameKey.symm]

/-- A stored posting has the account of its line, which has resolved to the same account. -/
theorem Tracked.posted_line (tracked : history.Tracked) {posting : PostingModel Money}
    {code : String} (posted : history.PostedTo posting code) :
    ∃ line, history.Resolved line code ∧ posting.accountKey = accountLookupKey line.account ∧
      2 ≤ line.account.length := by
  obtain ⟨header, whole, listed⟩ := tracked.sound.posted_listing posted.stored
  obtain ⟨_, _, _, long, _⟩ := whole.posting tracked.sound listed
  obtain ⟨createdBy, batch⟩ := whole.batch
  rw [batch] at listed
  obtain ⟨line, present, rfl⟩ := List.mem_map.mp listed
  exact ⟨line, ⟨(mem_linesOf.mp present).1, posted.recorded⟩, rfl, long⟩

/-- The rule for histories: what holds at first and what permitted calls keep holds in every
history that they lead to. -/
theorem Reachable.invariant {permits : History → Call → (Nat → Env) → Prop}
    {holds : History → Prop} (initially : holds History.empty)
    (keeps : ∀ history call envs, history.Tracked → holds history → permits history call envs →
      holds (history.step call envs)) (reachable : Reachable permits history) :
    history.Tracked ∧ holds history := by
  induction reachable with
  | empty => exact ⟨empty_tracked, initially⟩
  | step _ permitted inductionHypothesis =>
    obtain ⟨tracked, held⟩ := inductionHypothesis
    exact ⟨tracked.step _ _, keeps _ _ _ tracked held permitted⟩

end History

end Trutina
