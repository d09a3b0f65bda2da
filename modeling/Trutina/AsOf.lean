/-
This file models the cutoff of the trial balance command, from the text a user
types to the postings a report covers. The text is parsed to the midnight at the
start of the date, and the query compares posting dates with that instant. So the
report covers the earlier dates, and of the date itself only what is stamped at
midnight.
-/

import Trutina.Calendar
import Trutina.Partition

namespace Trutina

open Interaction Gregorian

/-! ### Parsing a date -/

/-- The zeros of the decimal digits of Unicode. Nine digits follow each. -/
def decimalZeros : List Nat :=
  [48, 1632, 1776, 1984, 2406, 2534, 2662, 2790, 2918, 3046, 3174, 3302, 3430, 3558, 3664, 3792,
    3872, 4160, 4240, 6112, 6160, 6470, 6608, 6784, 6800, 6992, 7088, 7232, 7248, 42528, 43216,
    43264, 43472, 43504, 43600, 44016, 65296, 66720, 68912, 68928, 69734, 69872, 69942, 70096,
    70384, 70736, 70864, 71248, 71360, 71376, 71386, 71472, 71904, 72016, 72688, 72784, 73040,
    73120, 73552, 90416, 92768, 92864, 93008, 93552, 118000, 120782, 120792, 120802, 120812,
    120822, 123200, 123632, 124144, 124401, 125264, 130032]

/-- The value of a character that the pattern `\d` admits. -/
def digitValue? (character : Char) : Option Nat :=
  (decimalZeros.find? fun base => base ≤ character.toNat && character.toNat < base + 10).map
    fun base => character.toNat - base

/-- The value of an ASCII digit between two bounds. -/
def boundedDigit? (least most : Nat) (character : Char) : Option Nat :=
  if 48 + least ≤ character.toNat ∧ character.toNat ≤ 48 + most then some (character.toNat - 48)
  else none

/-- What `%Y` admits: four digits. -/
def year? : List Char → Option Nat
  | [first, second, third, fourth] => do
    let thousands ← digitValue? first
    let hundreds ← digitValue? second
    let tens ← digitValue? third
    let ones ← digitValue? fourth
    return 1000 * thousands + 100 * hundreds + 10 * tens + ones
  | _ => none

/-- What `%m` admits: the zero in front may be left out. -/
def month? : List Char → Option Nat
  | [ones] => boundedDigit? 1 9 ones
  | ['0', ones] => boundedDigit? 1 9 ones
  | ['1', ones] => (boundedDigit? 0 2 ones).map (10 + ·)
  | _ => none

/-- What `%d` admits: the zero in front may be left out or be a space. -/
def day? : List Char → Option Nat
  | [ones] => boundedDigit? 1 9 ones
  | ['0', ones] => boundedDigit? 1 9 ones
  | [' ', ones] => boundedDigit? 1 9 ones
  | ['1', ones] => (digitValue? ones).map (10 + ·)
  | ['2', ones] => (digitValue? ones).map (20 + ·)
  | ['3', ones] => (boundedDigit? 0 1 ones).map (30 + ·)
  | _ => none

/-- `datetime.strptime` with the format `%Y-%m-%d`. No part admits a hyphen, so the parts are what
stands between the hyphens. -/
def strptime (text : String) : Option Date :=
  match text.toList.splitOn '-' with
  | [year, month, day] => do
    let year ← year? year
    let month ← month? month
    let day ← day? day
    Date.ofParts? year month day
  | _ => none

/-- The usage error of a command. -/
structure BadParameter where
  message : String
  deriving DecidableEq, Repr

/-- A date as the midnight it starts with. -/
def parseAsOfDate (raw : String) : Except BadParameter Timestamp :=
  match strptime (strip raw) with
  | some date => .ok date.midnight
  | none => .error ⟨"'" ++ raw ++ "' is not a valid date. Use YYYY-MM-DD, e.g. 2025-01-31."⟩

/-! ### The command -/

def getTrialBalanceHandler (asOfDate : Option Timestamp) : Action TrialBalanceViewModel :=
  TrialBalanceService.getTrialBalance asOfDate

/-- The report the command requests for its option, unless the option is refused. -/
def trialBalance (asOf : Option String) : Except BadParameter (Action TrialBalanceViewModel) :=
  match asOf with
  | none => .ok (getTrialBalanceHandler none)
  | some raw => (parseAsOfDate raw).map fun date => getTrialBalanceHandler (some date)

/-! ### A written date is parsed back -/

theorem digitValue?_digit : ∀ value < 10, digitValue? (Char.ofNat (48 + value)) = some value := by
  decide

theorem digits_four (number : Nat) : Date.digits 4 number =
    [Char.ofNat (48 + number / 10 / 10 / 10 % 10), Char.ofNat (48 + number / 10 / 10 % 10),
      Char.ofNat (48 + number / 10 % 10), Char.ofNat (48 + number % 10)] := rfl

theorem year?_digits {year : Nat} (four : year ≤ 9999) :
    year? (Date.digits 4 year) = some year := by
  have value : ∀ number, digitValue? (Char.ofNat (48 + number % 10)) = some (number % 10) :=
    fun number => digitValue?_digit _ (Nat.mod_lt _ (by decide))
  rw [digits_four]
  simp only [year?, value, Option.bind_eq_bind, Option.bind_some, Option.pure_def]
  congr 1
  omega

theorem month?_digits : ∀ month, 1 ≤ month ∧ month ≤ 12 →
    month? (Date.digits 2 month) = some month := by
  rintro month ⟨first, last⟩
  interval_cases month <;> decide

theorem day?_digits : ∀ day, 1 ≤ day ∧ day ≤ 31 → day? (Date.digits 2 day) = some day := by
  rintro day ⟨first, last⟩
  interval_cases day <;> decide

/-- The digits of a written date are ASCII digits. -/
theorem mem_digits {count number : Nat} {character : Char}
    (member : character ∈ Date.digits count number) :
    ∃ value < 10, character = Char.ofNat (48 + value) := by
  induction count generalizing number with
  | zero => cases member
  | succ count inductionHypothesis =>
    rcases List.mem_append.mp member with earlier | last
    · exact inductionHypothesis earlier
    · exact ⟨number % 10, Nat.mod_lt _ (by decide), List.mem_singleton.mp last⟩

theorem digit_plain : ∀ value < 10, Char.ofNat (48 + value) ≠ '-' ∧
    isSpace (Char.ofNat (48 + value)) = false := by
  decide +kernel

theorem isoFormat_parts (date : Date) : date.isoFormat.toList.splitOn '-' =
    [Date.digits 4 date.year, Date.digits 2 date.month, Date.digits 2 date.day] := by
  rw [Date.isoFormat, String.toList_ofList]
  refine List.splitOn_intercalate '-' (fun part member hyphen => ?_) (List.cons_ne_nil _ _)
  have ascii : ∃ value < 10, '-' = Char.ofNat (48 + value) := by
    simp only [List.mem_cons, List.not_mem_nil, or_false] at member
    rcases member with rfl | rfl | rfl
    · exact mem_digits hyphen
    · exact mem_digits hyphen
    · exact mem_digits hyphen
  obtain ⟨value, bound, same⟩ := ascii
  exact (digit_plain value bound).1 same.symm

/-- A written date has no white space. -/
theorem isoFormat_plain (date : Date) {character : Char}
    (member : character ∈ date.isoFormat.toList) : isSpace character = false := by
  have digit : ∀ {count number}, character ∈ Date.digits count number →
      isSpace character = false := fun own => by
    obtain ⟨value, bound, rfl⟩ := mem_digits own
    exact (digit_plain value bound).2
  rw [Date.isoFormat, String.toList_ofList] at member
  simp only [List.intercalate_cons_cons, List.intercalate_singleton, List.mem_append,
    List.mem_singleton] at member
  rcases member with (year | rfl) | (month | rfl) | day
  · exact digit year
  · decide
  · exact digit month
  · decide
  · exact digit day

theorem isoFormat_trimmed (date : Date) : Trimmed date.isoFormat where
  front _ _ split := isoFormat_plain date (split ▸ List.mem_cons_self)
  back _ _ split := isoFormat_plain date (split ▸ List.mem_append_right _ List.mem_cons_self)

/-- A date that is written as the command asks for is parsed to its midnight. -/
theorem parseAsOfDate_isoFormat {date : Date} (four : date.year ≤ 9999) :
    parseAsOfDate date.isoFormat = .ok date.midnight := by
  have parsed : strptime date.isoFormat = some date := by
    have long := date.day_bounds.2.trans (daysInMonth_bounds date.year date.month).2
    rw [strptime, isoFormat_parts]
    simp only [year?_digits four, month?_digits _ date.month_bounds,
      day?_digits _ ⟨date.day_bounds.1, long⟩, Option.bind_eq_bind, Option.bind_some,
      Date.ofParts?_self]
  rw [parseAsOfDate, strip_of_trimmed (isoFormat_trimmed date), parsed]

/-! ### What the report covers -/

/-- The postings that lie on a date or before it. -/
def World.postingsUpTo (world : World) (date : Date) : List (PostingModel Money) :=
  world.postings.filter fun posting => date.UpTo posting.postingDate

section Scope

variable {world : World} {date own : Date} {posting : PostingModel Money}

theorem mem_postingsUpTo (stored : posting ∈ world.postings)
    (contains : own.Contains posting.postingDate) :
    posting ∈ world.postingsUpTo date ↔ own.Before date ∨ own = date := by
  rw [← Date.upTo_iff contains, World.postingsUpTo, List.mem_filter, and_iff_right stored]
  exact decide_eq_true_iff

theorem mem_postingsInScope_midnight (stored : posting ∈ world.postings)
    (contains : own.Contains posting.postingDate) :
    posting ∈ world.postingsInScope (some date.midnight) ↔
      own.Before date ∨ (own = date ∧ posting.postingDate = date.midnight) := by
  rw [← Date.le_midnight_iff contains, World.postingsInScope, List.mem_filter,
    and_iff_right stored]
  exact decide_eq_true_iff

/-- The cutoff leaves nothing of a date out just when its postings are stamped at midnight. -/
theorem postingsInScope_eq_upTo_iff :
    world.postingsInScope (some date.midnight) = world.postingsUpTo date ↔
      ∀ posting ∈ world.postings, date.Contains posting.postingDate →
        posting.postingDate = date.midnight := by
  constructor
  · intro same posting stored
    refine Date.le_midnight_iff_upTo.mp ?_
    have member := congrArg (posting ∈ ·) same
    simp only [World.postingsInScope, World.postingsUpTo, List.mem_filter, stored, true_and,
      Option.all_some, decide_eq_true_eq] at member
    exact iff_of_eq member
  · intro stamped
    refine List.filter_congr fun posting stored => ?_
    rw [Option.all_some, decide_eq_decide]
    exact Date.le_midnight_iff_upTo.mpr (stamped posting stored)

end Scope

/-- A stored posting lies on a date. -/
theorem World.Sound.posting_dated {world : World} (sound : world.Sound)
    {posting : PostingModel Money} (stored : posting ∈ world.postings) :
    ∃ own : Date, own.Contains posting.postingDate := by
  obtain ⟨header, posted, listed⟩ := sound.posted_listing stored
  have late := sound.dates header posted.stored
  rw [← (posted.posting sound listed).1] at late
  exact Date.exists_contains (le_of_lt (lt_trans (by decide) late))

/-- The command requests the report for the start of a written date. -/
theorem trialBalance_isoFormat {date : Date} (four : date.year ≤ 9999) :
    trialBalance (some date.isoFormat) = .ok (getTrialBalanceHandler (some date.midnight)) := by
  rw [trialBalance, parseAsOfDate_isoFormat four]
  rfl

/-- In every state that calls of the services reach, the command accepts any date and reports on
the postings of the dates before it and on those stamped at the midnight it starts with, and on no
others. So it covers what is dated on or before the date just when the postings of the date itself
are stamped at midnight. -/
theorem trialBalance_as_of {Thread : Type} [DecidableEq Thread] (calls : Thread → Call)
    {start : World} (sound : start.Sound)
    {pool : Pool Thread Command Reply Raised Response World}
    (reaches : Reaches handle (fun _ _ _ _ => True)
      ⟨start, fun thread => (calls thread).program⟩ pool)
    (date : Date) (four : date.year ≤ 9999) (envs : Nat → Env) (calm : (envs 0).fault = none) :
    ∃ program report, trialBalance (some date.isoFormat) = .ok program ∧
      (program.run handle envs pool.state).1 = .ok report ∧
      Covers (pool.state.postingsInScope (some date.midnight)) report ∧
      (∀ posting ∈ pool.state.postings, ∃ own : Date, own.Contains posting.postingDate ∧
        (posting ∈ pool.state.postingsUpTo date ↔ own.Before date ∨ own = date) ∧
        (posting ∈ pool.state.postingsInScope (some date.midnight) ↔
          own.Before date ∨ (own = date ∧ posting.postingDate = date.midnight))) ∧
      (pool.state.postingsInScope (some date.midnight) = pool.state.postingsUpTo date ↔
        ∀ posting ∈ pool.state.postings, date.Contains posting.postingDate →
          posting.postingDate = date.midnight) := by
  have soundNow : pool.state.Sound := (pool_sound calls sound reaches).1.invariant
  obtain ⟨entries, _, returned⟩ := getTrialBalance_returns soundNow (some date.midnight) calm
  refine ⟨_, _, trialBalance_isoFormat four, returned, covers_of_returned soundNow returned,
    fun posting stored => ?_, postingsInScope_eq_upTo_iff⟩
  obtain ⟨own, contains⟩ := soundNow.posting_dated stored
  exact ⟨own, contains, mem_postingsUpTo stored contains,
    mem_postingsInScope_midnight stored contains⟩

/-- The report for the fourteenth of September covers the two postings of the day before. -/
theorem trialBalance_as_of_next_day : ∃ date : Date, date.isoFormat = "2020-09-14" ∧
    ∃ program report, trialBalance (some date.isoFormat) = .ok program ∧
      (program.run handle (fun _ => Env.calm 1700000000000000) rivalPostingsPool.state).1 =
        .ok report ∧
      Covers (rivalPostingsPool.state.postingsInScope (some date.midnight)) report ∧
      (rivalPostingsPool.state.postingsInScope (some date.midnight)).length = 2 := by
  refine ⟨⟨2020, 9, 14, by decide, by decide, by decide⟩, by decide, ?_⟩
  obtain ⟨program, report, accepted, returned, covers, _⟩ :=
    trialBalance_as_of rivalPostings empty_sound rivalPostings_reaches
      ⟨2020, 9, 14, by decide, by decide, by decide⟩ (by decide)
      (fun _ => Env.calm 1700000000000000) rfl
  exact ⟨program, report, accepted, returned, covers, by decide +kernel⟩

/-- The report for the thirteenth of September leaves out the postings of that day: they are stamped
after noon. -/
theorem trialBalance_as_of_misses_day :
    ¬∀ (date : Date) (program : Action TrialBalanceViewModel) (report : TrialBalanceViewModel),
      date.year ≤ 9999 → trialBalance (some date.isoFormat) = .ok program →
      (program.run handle (fun _ => Env.calm 1700000000000000) rivalPostingsPool.state).1 =
        .ok report →
      Covers (rivalPostingsPool.state.postingsUpTo date) report := by
  intro complete
  have soundNow : rivalPostingsPool.state.Sound :=
    (pool_sound rivalPostings empty_sound rivalPostings_reaches).1.invariant
  obtain ⟨entries, _, returned⟩ := @getTrialBalance_returns _ soundNow
    (some (⟨2020, 9, 13, by decide, by decide, by decide⟩ : Date).midnight)
    (fun _ => Env.calm 1700000000000000) rfl
  have covers := covers_of_returned soundNow returned
  have missed := complete _ _ _ (by decide) (trialBalance_isoFormat (by decide)) returned
  have present : ∃ posting ∈ rivalPostingsPool.state.postingsUpTo
      ⟨2020, 9, 13, by decide, by decide, by decide⟩,
      accountLookupKey posting.account = "cash" := by decide +kernel
  have absent : ¬∃ posting ∈ rivalPostingsPool.state.postingsInScope
      (some (⟨2020, 9, 13, by decide, by decide, by decide⟩ : Date).midnight),
      accountLookupKey posting.account = "cash" := by decide +kernel
  exact absent ((covers.covers "cash").mp ((missed.covers "cash").mpr present))

end Trutina
