/-
This file models the interactive shell. It reads one line after another, until a
word that ends it or the end of its input. A line asks for help, or is split
into the arguments of a command, which is then dispatched as if it had been
given to the program itself. One slash at its start changes nothing.
-/

import Trutina.Shlex
import Trutina.Text

namespace Trutina

/-! ### The words of the shell -/

structure ShellBuiltin where
  description : String
  terminates : Bool := false

def shellBuiltins : List (String × ShellBuiltin) :=
  [("exit", { description := "Leave the interactive shell.", terminates := true }),
    ("help", { description := "Show available commands, or help for one command." })]

def terminatingKeywords : List String :=
  (shellBuiltins.filter fun builtin => builtin.2.terminates).map Prod.fst

/-! ### Lines -/

/-- What a line makes the shell do. -/
inductive LineAction where
  | ignored
  | exit
  | runHelp (target : List String)
  | unparsable (reason : String)
  | dispatch (args : List String)
  deriving DecidableEq, Repr

/-- The words of a text, between any white space. -/
def words (text : List Char) : List (List Char) :=
  (text.splitOnP isSpace).filter fun word => !word.isEmpty

/-- What is left of a line without one slash at its start. -/
def dropSlash : List Char → List Char
  | '/' :: rest => rest
  | text => text

/-- What a line comes to that the shell has no word for. -/
def parsedAction (stripped : List Char) : LineAction :=
  match Shlex.split stripped with
  | .error reason => .unparsable reason
  | .ok args =>
    let args := args.map String.ofList
    if args.getLast? = some "help" then .runHelp args.dropLast else .dispatch args

/-- What a line that is not blank comes to, without its slash. -/
def strippedAction (stripped : List Char) : LineAction :=
  if String.ofList stripped ∈ terminatingKeywords then .exit
  else if stripped = "help".toList || "help ".toList.isPrefixOf stripped then
    .runHelp ((words stripped).tail.map String.ofList)
  else parsedAction stripped

def lineAction (line : String) : LineAction :=
  if strip line = "" then .ignored else strippedAction (dropSlash (strip line).toList)

/-- What the shell does with its lines, up to the first that ends it or the end of its input. -/
def runShell : List (Option String) → List LineAction
  | [] => []
  | none :: _ => []
  | some line :: rest =>
    match lineAction line with
    | .exit => []
    | .ignored => runShell rest
    | action => action :: runShell rest

/-! ### Starting the program -/

/-- What the program knows of its own commands: its groups, its other commands with their
functions, and its flags for help. -/
structure TyperApp where
  registeredGroups : List (Option String)
  registeredCommands : List (Option String × Option String)
  helpOptionNames : Option (List String)

def TyperApp.knownCommands (app : TyperApp) : List String :=
  app.registeredGroups.filterMap (fun group => group.filter (· ≠ "")) ++
    app.registeredCommands.filterMap fun (name, callback) =>
      match name.filter (· ≠ "") with
      | some name => some name
      | none => callback.map fun function =>
          String.ofList (function.toLower.toList.map fun character =>
            if character = '_' then '-' else character)

def TyperApp.helpFlags (app : TyperApp) : List String := app.helpOptionNames.getD ["--help"]

def TyperApp.shouldEnterShell (app : TyperApp) : List String → Bool
  | [] => true
  | first :: _ => !app.helpFlags.contains first && !app.knownCommands.contains first

/-- A start of the program, with the lines that are typed if it opens the shell. -/
def TyperApp.run (app : TyperApp) (args : List String) (lines : List (Option String)) :
    List LineAction :=
  if app.shouldEnterShell args then runShell lines else [.dispatch args]

theorem trimmed_of_ends {characters : List Char}
    (front : ∀ first rest, characters = first :: rest → isSpace first = false)
    (back : ∀ rest last, characters = rest ++ [last] → isSpace last = false) :
    Trimmed (String.ofList characters) where
  front first rest same := front first rest (String.toList_ofList.symm.trans same)
  back rest last same := back rest last (String.toList_ofList.symm.trans same)

/-- A line without white space at its ends is read as it is. -/
theorem lineAction_of_trimmed {characters : List Char} (nonempty : characters ≠ [])
    (trimmed : Trimmed (String.ofList characters)) :
    lineAction (String.ofList characters) = strippedAction (dropSlash characters) := by
  have line : String.ofList characters ≠ "" := by
    intro empty
    exact nonempty (String.toList_ofList.symm.trans (congrArg String.toList empty))
  rw [lineAction, strip_of_trimmed trimmed, if_neg line, String.toList_ofList]

/-- A slash before a line without white space at its end changes nothing. -/
theorem lineAction_slash {characters : List Char}
    (back : ∀ rest last, characters = rest ++ [last] → isSpace last = false) :
    lineAction (String.ofList ('/' :: characters)) = strippedAction characters := by
  refine lineAction_of_trimmed (List.cons_ne_nil _ _) (trimmed_of_ends ?_ ?_)
  · intro first rest same
    obtain ⟨rfl, _⟩ := List.cons.inj same
    decide
  · intro rest last same
    cases rest with
    | nil =>
      obtain ⟨rfl, _⟩ := List.cons.inj same
      decide
    | cons first rest => exact back rest last (List.cons.inj same).2

/-- What the shell does for arguments: one that asks for help ends them. -/
def typed (args : List String) : LineAction :=
  if args.getLast? = some "help" then .runHelp args.dropLast else .dispatch args

theorem parsedAction_of_split {stripped : List Char} {args : List String}
    (split : Shlex.split stripped = .ok (args.map String.toList)) :
    parsedAction stripped = typed args := by
  have texts : (args.map String.toList).map String.ofList = args := by
    rw [List.map_map]
    exact (List.map_congr_left fun _ _ => String.ofList_toList).trans (List.map_id args)
  rw [parsedAction, split]
  show (if _ then _ else _) = _
  rw [texts]
  rfl

theorem strippedAction_parsed {stripped : List Char} (exit : stripped ≠ "exit".toList)
    (help : stripped ≠ "help".toList) (leading : ¬"help ".toList <+: stripped) :
    strippedAction stripped = parsedAction stripped := by
  have keyword : String.ofList stripped ∉ terminatingKeywords := by
    intro member
    have same : String.ofList stripped = "exit" := List.mem_singleton.mp member
    exact exit (String.toList_ofList.symm.trans (congrArg String.toList same))
  have other : (decide (stripped = "help".toList) || "help ".toList.isPrefixOf stripped) =
      false := by
    rw [decide_eq_false help, Bool.false_or]
    exact Bool.eq_false_iff.mpr fun leads => leading (List.isPrefixOf_iff_prefix.mp leads)
  rw [strippedAction, if_neg keyword, other, if_neg Bool.false_ne_true]

end Trutina
