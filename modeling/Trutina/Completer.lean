/-
This file models the completions that the shell offers while a line is typed.
They come from the commands of the program, from the words of the shell, and
from the two ways of asking for help. A completion is offered just when it ends
one of the lines that these make up, and the shell understands every such line:
it dispatches a command, shows help for one, or ends.
-/

import Trutina.Shell

namespace Trutina

/-! ### Completions of a word -/

/-- A command as the program describes it, with the commands of a group. -/
structure ClickCommand where
  name : String
  shortHelp : String
  commands : List (String × String)
  deriving DecidableEq

/-- Names with their descriptions, and what can follow them. -/
abbrev CommandTree := List (String × String × Option (List (String × String)))

/-- Set the entry of a name, in its place if it has one. -/
def CommandTree.insert (tree : CommandTree) (name : String)
    (entry : String × Option (List (String × String))) : CommandTree :=
  if tree.any fun other => other.1 = name then
    tree.map fun other => if other.1 = name then (name, entry) else other
  else tree ++ [(name, entry)]

def buildTree (commands : List ClickCommand) : CommandTree :=
  let named := commands.foldl (fun (tree : CommandTree) command =>
    tree.insert command.name (strip command.shortHelp,
      if command.commands.isEmpty then none
      else some (command.commands.map fun sub => (sub.1, strip sub.2)))) []
  shellBuiltins.foldl (fun tree builtin => tree.insert builtin.1 (builtin.2.description, none))
    named

structure Completion where
  text : String
  startPosition : Int
  displayMeta : String
  deriving DecidableEq, Repr

def isBuiltin (name : String) : Bool := shellBuiltins.any fun builtin => builtin.1 = name

/-- Whether a name starts with what has been typed of it. -/
def startsWith (name : String) (word : List Char) : Bool := word.isPrefixOf name.toList

/-- The completions of a word after a path that has been typed. -/
def completePath (tree : CommandTree) (path : List String) (word : List Char)
    (offerTrailingHelp includeBuiltins : Bool) : List Completion :=
  match path with
  | [] =>
    tree.filterMap fun (name, description, _) =>
      if !includeBuiltins && isBuiltin name then none
      else if startsWith name word then some ⟨name, -word.length, description⟩
      else none
  | group :: path =>
    match tree.lookup group with
    | none => []
    | some (_, subtree) =>
      match path with
      | [] =>
        ((subtree.getD []).filterMap fun (name, description) =>
          if startsWith name word then some ⟨name, -word.length, description⟩ else none) ++
        if offerTrailingHelp && !isBuiltin group && startsWith "help" word then
          [⟨"help", -word.length, "Show help for " ++ group ++ "."⟩]
        else []
      | [sub] =>
        if offerTrailingHelp && ((subtree.getD []).any fun entry => entry.1 = sub) &&
            startsWith "help" word then
          [⟨"help", -word.length, "Show help for " ++ group ++ " " ++ sub ++ "."⟩]
        else []
      | _ => []

def getCompletions (tree : CommandTree) (text : String) : List Completion :=
  let parts := (dropSlash text.toList).splitOn ' '
  let path := parts.dropLast.map String.ofList
  let word := parts.getLast?.getD []
  match path with
  | "help" :: target => completePath tree target word false false
  | path => completePath tree path word true true

/-- The text with a completion in the place of what it completes. -/
def applyCompletion (text : String) (completion : Completion) : String :=
  String.ofList (text.toList.rdrop (-completion.startPosition).toNat) ++ completion.text

/-! ### Lines of words -/

/-- A word that is read as it stands, wherever it is in a line. -/
structure CommandWord (word : String) : Prop where
  plain : Shlex.Plain word.toList
  spaces : ∀ character ∈ word.toList, isSpace character = false
  slashes : '/' ∉ word.toList

/-- Whether a character may be in such a word. -/
def isWordCharacter (character : Char) : Bool :=
  decide (Shlex.PlainCharacter character) && !isSpace character && character != '/'

theorem isWordCharacter_iff {character : Char} : isWordCharacter character = true ↔
    Shlex.PlainCharacter character ∧ isSpace character = false ∧ character ≠ '/' := by
  simp only [isWordCharacter, Bool.and_eq_true, decide_eq_true_eq, Bool.not_eq_true', bne_iff_ne,
    and_assoc]

theorem commandWord_iff {word : String} : CommandWord word ↔
    word.toList.isEmpty = false ∧ word.toList.all isWordCharacter = true := by
  rw [List.isEmpty_eq_false_iff, List.all_eq_true]
  constructor
  · intro command
    refine ⟨command.plain.nonempty, fun character member => isWordCharacter_iff.mpr ?_⟩
    exact ⟨command.plain.characters character member, command.spaces character member,
      fun same => command.slashes (same ▸ member)⟩
  · rintro ⟨nonempty, solid⟩
    have each := fun character member => isWordCharacter_iff.mp (solid character member)
    exact ⟨⟨nonempty, fun character member => (each character member).1⟩,
      fun character member => (each character member).2.1,
      fun member => (each '/' member).2.2 rfl⟩

instance (word : String) : Decidable (CommandWord word) :=
  decidable_of_iff _ commandWord_iff.symm

theorem helpWord : CommandWord "help" := by decide

/-- The line of words with a space between each two. -/
def wordLine (line : List String) : List Char := Shlex.join (line.map String.toList)

section Lines

variable {line : List String}

theorem CommandWord.no_space {word : String} (command : CommandWord word) :
    ' ' ∉ word.toList := by
  intro member
  exact absurd (command.spaces ' ' member) (by decide)

theorem wordLine_cons {word : String} {rest : List String} (more : rest ≠ []) :
    wordLine (word :: rest) = word.toList ++ ' ' :: wordLine rest :=
  Shlex.join_cons _ fun none => more (List.map_eq_nil_iff.mp none)

theorem wordLine_concat (line : List String) (last : String) :
    wordLine (line ++ [last]) =
      (line.map String.toList).flatMap (· ++ [' ']) ++ last.toList := by
  rw [wordLine, List.map_append]
  exact Shlex.join_concat _ _

theorem wordLine_front (nonempty : line ≠ []) (words : ∀ word ∈ line, CommandWord word) :
    ∃ first rest, wordLine line = first :: rest ∧ isSpace first = false ∧ first ≠ '/' := by
  cases line with
  | nil => exact absurd rfl nonempty
  | cons word rest =>
    have command := words word List.mem_cons_self
    obtain ⟨first, others, chars⟩ := List.exists_cons_of_ne_nil command.plain.nonempty
    have member : first ∈ word.toList := chars ▸ List.mem_cons_self
    have own : first ≠ '/' := fun slash => command.slashes (slash ▸ member)
    have solid := command.spaces first member
    cases rest with
    | nil => exact ⟨first, others, (Shlex.join_singleton _).trans chars, solid, own⟩
    | cons next rest =>
      have whole : wordLine (word :: next :: rest) =
          word.toList ++ ' ' :: wordLine (next :: rest) := wordLine_cons (List.cons_ne_nil _ _)
      rw [chars] at whole
      exact ⟨first, _, whole, solid, own⟩

theorem wordLine_back (words : ∀ word ∈ line, CommandWord word) :
    ∀ rest last, wordLine line = rest ++ [last] → isSpace last = false := by
  intro rest last same
  rcases List.eq_nil_or_concat line with rfl | ⟨others, word, rfl⟩
  · exact absurd same.symm (List.append_ne_nil_of_right_ne_nil _ (List.cons_ne_nil _ _))
  · rw [List.concat_eq_append] at words same
    have command := words word (List.mem_append_right _ List.mem_cons_self)
    obtain ⟨init, final, chars⟩ := (List.eq_nil_or_concat word.toList).resolve_left
      command.plain.nonempty
    rw [wordLine_concat, chars, List.concat_eq_append, ← List.append_assoc] at same
    obtain ⟨_, ending⟩ := List.append_inj' same rfl
    obtain ⟨rfl, _⟩ := List.cons.inj ending
    refine command.spaces final ?_
    rw [chars, List.concat_eq_append]
    exact List.mem_append_right _ List.mem_cons_self

/-- A line of words is read without its slash. -/
theorem lineAction_wordLine (nonempty : line ≠ []) (words : ∀ word ∈ line, CommandWord word)
    {slash : List Char} (optional : slash = [] ∨ slash = ['/']) :
    lineAction (String.ofList (slash ++ wordLine line)) = strippedAction (wordLine line) := by
  rcases optional with rfl | rfl
  · obtain ⟨first, rest, chars, solid, own⟩ := wordLine_front nonempty words
    have dropped : dropSlash (wordLine line) = wordLine line := by
      rw [chars, dropSlash]
      exact fun _ same => own (List.cons.inj same).1
    have trimmed : Trimmed (String.ofList (wordLine line)) := by
      refine trimmed_of_ends ?_ (wordLine_back words)
      intro head tail same
      obtain ⟨rfl, _⟩ := List.cons.inj (chars.symm.trans same)
      exact solid
    rw [List.nil_append, lineAction_of_trimmed (chars ▸ List.cons_ne_nil _ _) trimmed, dropped]
  · exact lineAction_slash (wordLine_back words)

theorem split_wordLine (words : ∀ word ∈ line, CommandWord word) :
    Shlex.split (wordLine line) = .ok (line.map String.toList) := by
  refine Shlex.split_plain fun word member => ?_
  obtain ⟨own, member', rfl⟩ := List.mem_map.mp member
  exact (words own member').plain

theorem splitOn_wordLine (nonempty : line ≠ []) (words : ∀ word ∈ line, CommandWord word) :
    (wordLine line).splitOn ' ' = line.map String.toList := by
  refine List.splitOn_intercalate ' ' (fun word member space => ?_)
    fun none => nonempty (List.map_eq_nil_iff.mp none)
  obtain ⟨own, member', rfl⟩ := List.mem_map.mp member
  exact (words own member').no_space space

theorem words_wordLine (words' : ∀ word ∈ line, CommandWord word) :
    words (wordLine line) = line.map String.toList := by
  induction line with
  | nil => rfl
  | cons word rest inductionHypothesis =>
    have command := words' word List.mem_cons_self
    have later := inductionHypothesis fun other member =>
      words' other (List.mem_cons_of_mem _ member)
    have kept (others : List (List Char)) :
        (word.toList :: others).filter (fun part => !part.isEmpty) =
          word.toList :: others.filter fun part => !part.isEmpty := by
      rw [List.filter_cons_of_pos]
      simp [command.plain.nonempty]
    cases rest with
    | nil =>
      rw [wordLine, List.map_singleton, Shlex.join_singleton, words,
        List.splitOnP_eq_singleton command.spaces, kept]
      rfl
    | cons next rest =>
      rw [wordLine_cons (List.cons_ne_nil _ _), words,
        List.splitOnP_append_cons_of_forall_mem command.spaces ' ' (by decide), kept]
      exact congrArg (List.cons word.toList) later

theorem map_toList_injective : Function.Injective (List.map String.toList) :=
  List.map_injective_iff.mpr fun _ _ same => String.toList_inj.mp same

theorem strippedAction_words (words : ∀ word ∈ line, CommandWord word)
    (exit : line ≠ ["exit"]) (help : line.head? ≠ some "help") :
    strippedAction (wordLine line) = typed line := by
  by_cases nonempty : line = []
  · subst nonempty
    decide +kernel
  · have split := splitOn_wordLine nonempty words
    have same (word : String) (alone : (wordLine line).splitOn ' ' = [word.toList]) :
        line = [word] := map_toList_injective (split.symm.trans alone)
    refine (strippedAction_parsed (fun equal => ?_) (fun equal => ?_) fun leads => ?_).trans
      (parsedAction_of_split (split_wordLine words))
    · rw [equal] at same
      exact exit (same "exit" (by decide))
    · rw [equal] at same
      exact help (congrArg List.head? (same "help" (by decide)))
    · obtain ⟨rest, whole⟩ := leads
      have parts : line.map String.toList = "help".toList :: rest.splitOn ' ' := by
        rw [← split, ← whole]
        have solid : ' ' ∉ "help".toList := by decide
        exact List.splitOn_append_cons_self_of_not_mem solid rest
      cases line with
      | nil => exact nonempty rfl
      | cons word others =>
        have first : word.toList = "help".toList := (List.cons.inj parts).1
        exact help (congrArg some (String.toList_inj.mp first))

theorem strippedAction_help (words' : ∀ word ∈ line, CommandWord word) :
    strippedAction (wordLine ("help" :: line)) = .runHelp line := by
  have all : ∀ word ∈ "help" :: line, CommandWord word :=
    List.forall_mem_cons.mpr ⟨helpWord, words'⟩
  have texts : (line.map String.toList).map String.ofList = line := by
    rw [List.map_map]
    exact (List.map_congr_left fun _ _ => String.ofList_toList).trans (List.map_id line)
  have leads : (decide (wordLine ("help" :: line) = "help".toList) ||
      "help ".toList.isPrefixOf (wordLine ("help" :: line))) = true := by
    by_cases none : line = []
    · subst none
      decide
    · rw [wordLine_cons none, Bool.or_eq_true]
      exact .inr (List.isPrefixOf_iff_prefix.mpr ⟨wordLine line, rfl⟩)
  have keyword : String.ofList (wordLine ("help" :: line)) ∉ terminatingKeywords := by
    intro member
    have same : String.ofList (wordLine ("help" :: line)) = "exit" := List.mem_singleton.mp member
    have chars : wordLine ("help" :: line) = "exit".toList :=
      String.toList_ofList.symm.trans (congrArg String.toList same)
    have split := splitOn_wordLine (List.cons_ne_nil _ _) all
    rw [chars] at split
    exact absurd (List.cons.inj split).1 (by decide)
  rw [strippedAction, if_neg keyword, leads, if_pos rfl, words_wordLine all]
  exact congrArg LineAction.runHelp texts

end Lines

/-! ### Names -/

/-- The names of commands can be typed as they stand, and none is a word of the shell. -/
structure WellNamed (commands : List ClickCommand) : Prop where
  names : ∀ command ∈ commands, CommandWord command.name ∧ isBuiltin command.name = false
  subs : ∀ command ∈ commands, ∀ sub ∈ command.commands, CommandWord sub.1 ∧ sub.1 ≠ "help"
  distinct : (commands.map ClickCommand.name).Nodup

/-- The names of a command, after that of its group. -/
inductive Names (commands : List ClickCommand) : List String → Prop where
  | command {command : ClickCommand} (member : command ∈ commands) : Names commands [command.name]
  | sub {command : ClickCommand} {sub : String × String} (member : command ∈ commands)
      (subMember : sub ∈ command.commands) : Names commands [command.name, sub.1]

/-- The lines that completions make up, and what each of them comes to. -/
inductive Completes (commands : List ClickCommand) : List String → LineAction → Prop where
  | exit : Completes commands ["exit"] .exit
  | help : Completes commands ["help"] (.runHelp [])
  | command {path : List String} (names : Names commands path) :
      Completes commands path (.dispatch path)
  | leadingHelp {path : List String} (names : Names commands path) :
      Completes commands ("help" :: path) (.runHelp path)
  | trailingHelp {path : List String} (names : Names commands path) :
      Completes commands (path ++ ["help"]) (.runHelp path)

section Names

variable {commands : List ClickCommand}

theorem isBuiltin_iff {name : String} : isBuiltin name = true ↔ name = "exit" ∨ name = "help" := by
  show (decide ("exit" = name) || (decide ("help" = name) || false)) = true ↔ _
  rw [Bool.or_false, Bool.or_eq_true, decide_eq_true_iff, decide_eq_true_iff, eq_comm,
    eq_comm (a := "help")]

theorem Names.words (named : WellNamed commands) {path : List String}
    (names : Names commands path) : ∀ word ∈ path, CommandWord word := by
  cases names with
  | command member => exact List.forall_mem_singleton.mpr (named.names _ member).1
  | sub member subMember =>
    exact List.forall_mem_cons.mpr ⟨(named.names _ member).1,
      List.forall_mem_singleton.mpr (named.subs _ member _ subMember).1⟩

/-- The first name of a command is none of the words of the shell. -/
theorem Names.head (named : WellNamed commands) {path : List String}
    (names : Names commands path) : ∃ name rest, path = name :: rest ∧ isBuiltin name = false := by
  cases names with
  | command member => exact ⟨_, [], rfl, (named.names _ member).2⟩
  | sub member subMember => exact ⟨_, [_], rfl, (named.names _ member).2⟩

theorem Names.getLast_ne (named : WellNamed commands) {path : List String}
    (names : Names commands path) : path.getLast? ≠ some "help" := by
  cases names with
  | @command command member =>
    intro same
    have builtin : isBuiltin command.name = true :=
      isBuiltin_iff.mpr (.inr (Option.some.inj same))
    rw [(named.names _ member).2] at builtin
    cases builtin
  | sub member subMember =>
    exact fun same => (named.subs _ member _ subMember).2 (Option.some.inj same)

theorem Completes.words (named : WellNamed commands) {line : List String} {action : LineAction}
    (completes : Completes commands line action) : ∀ word ∈ line, CommandWord word := by
  have exitWord : CommandWord "exit" := by decide
  cases completes with
  | exit => exact List.forall_mem_singleton.mpr exitWord
  | help => exact List.forall_mem_singleton.mpr helpWord
  | command names => exact names.words named
  | leadingHelp names => exact List.forall_mem_cons.mpr ⟨helpWord, names.words named⟩
  | trailingHelp names =>
    exact List.forall_mem_append.mpr
      ⟨names.words named, List.forall_mem_singleton.mpr helpWord⟩

/-- What the shell does with a line that completions make up. -/
theorem Completes.lineAction (named : WellNamed commands) {line : List String}
    {action : LineAction} (completes : Completes commands line action) {slash : List Char}
    (optional : slash = [] ∨ slash = ['/']) :
    lineAction (String.ofList (slash ++ wordLine line)) = action := by
  have words := completes.words named
  have nonempty : line ≠ [] := by
    cases completes with
    | exit => exact List.cons_ne_nil _ _
    | help => exact List.cons_ne_nil _ _
    | command names =>
      obtain ⟨_, _, rfl, _⟩ := names.head named
      exact List.cons_ne_nil _ _
    | leadingHelp names => exact List.cons_ne_nil _ _
    | trailingHelp names => exact List.append_ne_nil_of_right_ne_nil _ (List.cons_ne_nil _ _)
  -- A line that starts with the name of a command is left to the program.
  have parsed {name : String} {rest : List String} (same : line = name :: rest)
      (other : isBuiltin name = false) : strippedAction (wordLine line) = typed line := by
    refine strippedAction_words words (fun exit => ?_) (fun help => ?_)
    · rw [same] at exit
      rw [(List.cons.inj exit).1] at other
      exact absurd other (by decide)
    · rw [same] at help
      rw [Option.some.inj help] at other
      exact absurd other (by decide)
  rw [lineAction_wordLine nonempty words optional]
  cases completes with
  | exit => decide +kernel
  | help =>
    have none : ∀ word ∈ ([] : List String), CommandWord word :=
      fun _ member => absurd member List.not_mem_nil
    exact strippedAction_help none
  | command names =>
    obtain ⟨name, rest, same, other⟩ := names.head named
    exact (parsed same other).trans (if_neg (names.getLast_ne named))
  | leadingHelp names => exact strippedAction_help (names.words named)
  | trailingHelp names =>
    obtain ⟨name, rest, rfl, other⟩ := names.head named
    rw [parsed rfl other, typed, if_pos List.getLast?_concat, List.dropLast_concat]

end Names

/-! ### The tree of commands -/

section Trees

variable {commands : List ClickCommand}

theorem CommandTree.insert_new {tree : CommandTree} {name : String}
    (new : name ∉ tree.map Prod.fst) (entry : String × Option (List (String × String))) :
    tree.insert name entry = tree ++ [(name, entry)] := by
  rw [CommandTree.insert, if_neg]
  intro any
  obtain ⟨other, member, same⟩ := List.any_eq_true.mp any
  exact new (of_decide_eq_true same ▸ List.mem_map_of_mem member)

/-- Entries with new names are added one after another. -/
theorem foldl_insert {Item : Type} (key : Item → String)
    (entry : Item → String × Option (List (String × String))) {items : List Item}
    (tree : CommandTree) (distinct : (items.map key).Nodup)
    (new : ∀ item ∈ items, key item ∉ tree.map Prod.fst) :
    items.foldl (fun tree item => tree.insert (key item) (entry item)) tree =
      tree ++ items.map fun item => (key item, entry item) := by
  induction items generalizing tree with
  | nil => exact (List.append_nil tree).symm
  | cons item rest inductionHypothesis =>
    obtain ⟨own, others⟩ := List.nodup_cons.mp distinct
    rw [List.foldl_cons, CommandTree.insert_new (new item List.mem_cons_self),
      inductionHypothesis _ others, List.append_assoc]
    · rfl
    · intro other member stored
      rw [List.map_append] at stored
      rcases List.mem_append.mp stored with before | same
      · exact new other (List.mem_cons_of_mem _ member) before
      · have same' : key other = key item := List.mem_singleton.mp same
        exact own (same' ▸ List.mem_map_of_mem member)

/-- What the tree has of a command. -/
def commandEntry (command : ClickCommand) : String × Option (List (String × String)) :=
  (strip command.shortHelp,
    if command.commands.isEmpty then none
    else some (command.commands.map fun sub => (sub.1, strip sub.2)))

theorem buildTree_eq (named : WellNamed commands) :
    buildTree commands = (commands.map fun command => (command.name, commandEntry command)) ++
      shellBuiltins.map fun builtin => (builtin.1, builtin.2.description, none) := by
  have own := foldl_insert ClickCommand.name commandEntry [] named.distinct
    (fun _ _ => List.not_mem_nil)
  have builtins : (shellBuiltins.map Prod.fst).Nodup := by decide
  show List.foldl (fun (tree : CommandTree) builtin =>
      tree.insert builtin.1 (builtin.2.description, none))
    (List.foldl (fun tree command => CommandTree.insert tree command.name (commandEntry command)) []
      commands) shellBuiltins = _
  rw [own, List.nil_append]
  refine foldl_insert Prod.fst (fun builtin => (builtin.2.description, none)) _ builtins ?_
  intro builtin member stored
  rw [List.map_map] at stored
  obtain ⟨command, command', same⟩ := List.mem_map.mp stored
  have builtin' : isBuiltin command.name = true :=
    List.any_eq_true.mpr ⟨builtin, member, decide_eq_true same.symm⟩
  rw [(named.names command command').2] at builtin'
  cases builtin'

theorem lookup_of_nodup {Value : Type} {entries : List (String × Value)}
    (distinct : (entries.map Prod.fst).Nodup) {key : String} {value : Value}
    (member : (key, value) ∈ entries) : entries.lookup key = some value := by
  obtain ⟨before, after, rfl⟩ := List.append_of_mem member
  refine List.lookup_eq_some_iff.mpr ⟨before, after, rfl, fun other earlier => ?_⟩
  rw [List.map_append] at distinct
  have apart := (List.nodup_append.mp distinct).2.2 other.1 (List.mem_map_of_mem earlier) key
    List.mem_cons_self
  exact bne_iff_ne.mpr apart.symm

theorem lookup_command (named : WellNamed commands) {command : ClickCommand}
    (member : command ∈ commands) :
    (buildTree commands).lookup command.name = some (commandEntry command) := by
  have distinct : ((commands.map fun command => (command.name, commandEntry command)).map
      Prod.fst).Nodup := by
    rw [List.map_map]
    exact named.distinct
  rw [buildTree_eq named, List.lookup_append,
    lookup_of_nodup distinct (List.mem_map.mpr ⟨command, member, rfl⟩), Option.some_or]

/-- What the tree has is of a command, or of a word of the shell. -/
theorem mem_buildTree (named : WellNamed commands) {name : String}
    {entry : String × Option (List (String × String))} :
    (name, entry) ∈ buildTree commands ↔
      (∃ command ∈ commands, command.name = name ∧ commandEntry command = entry) ∨
      ∃ builtin ∈ shellBuiltins, builtin.1 = name ∧ (builtin.2.description, none) = entry := by
  rw [buildTree_eq named, List.mem_append, List.mem_map, List.mem_map]
  simp only [Prod.mk.injEq]

theorem lookup_cases (named : WellNamed commands) {group : String}
    {entry : String × Option (List (String × String))}
    (found : (buildTree commands).lookup group = some entry) :
    (∃ command ∈ commands, command.name = group ∧ commandEntry command = entry) ∨
      (isBuiltin group = true ∧ entry.2 = none) := by
  obtain ⟨before, after, whole, _⟩ := List.lookup_eq_some_iff.mp found
  have member : (group, entry) ∈ buildTree commands := by
    rw [whole]
    exact List.mem_append_right _ List.mem_cons_self
  rcases (mem_buildTree named).mp member with command | ⟨builtin, member', same, rfl⟩
  · exact .inl command
  · exact .inr ⟨List.any_eq_true.mpr ⟨builtin, member', decide_eq_true same⟩, rfl⟩

/-- The names after a group, whether it has any or not. -/
theorem commandEntry_subtree (command : ClickCommand) :
    ((commandEntry command).2.getD []) =
      command.commands.map fun sub => (sub.1, strip sub.2) := by
  rw [commandEntry]
  cases command.commands <;> rfl

/-! ### What follows a path -/

/-- The names that can follow a path, with the word for help and the words of the shell where they
are offered. -/
inductive Follows (commands : List ClickCommand) (offerTrailingHelp includeBuiltins : Bool) :
    List String → String → Prop where
  | builtin {name : String} (included : includeBuiltins = true) (builtin : isBuiltin name = true) :
      Follows commands offerTrailingHelp includeBuiltins [] name
  | command {command : ClickCommand} (member : command ∈ commands) :
      Follows commands offerTrailingHelp includeBuiltins [] command.name
  | sub {command : ClickCommand} {sub : String × String} (member : command ∈ commands)
      (subMember : sub ∈ command.commands) :
      Follows commands offerTrailingHelp includeBuiltins [command.name] sub.1
  | help {path : List String} (offered : offerTrailingHelp = true) (names : Names commands path) :
      Follows commands offerTrailingHelp includeBuiltins path "help"

/-- A name is offered after a path for what has been typed of it. -/
def Offers (tree : CommandTree) (path : List String) (word : List Char)
    (offerTrailingHelp includeBuiltins : Bool) (name : String) : Prop :=
  ∃ displayMeta, (⟨name, -word.length, displayMeta⟩ : Completion) ∈
    completePath tree path word offerTrailingHelp includeBuiltins

theorem startsWith_iff {name : String} {word : List Char} :
    startsWith name word = true ↔ word <+: name.toList := List.isPrefixOf_iff_prefix

/-- Completions of the names of a list. -/
theorem mem_named_iff {entries : List (String × String)} {word : List Char} {name : String} :
    (∃ displayMeta, (⟨name, -word.length, displayMeta⟩ : Completion) ∈
      entries.filterMap fun entry =>
        if startsWith entry.1 word then some ⟨entry.1, -word.length, entry.2⟩ else none) ↔
      (∃ entry ∈ entries, entry.1 = name) ∧ word <+: name.toList := by
  simp only [List.mem_filterMap, Option.ite_none_right_eq_some, Option.some.injEq,
    Completion.mk.injEq, startsWith_iff]
  constructor
  · rintro ⟨displayMeta, entry, member, starts, same, _⟩
    exact ⟨⟨entry, member, same⟩, same ▸ starts⟩
  · rintro ⟨⟨entry, member, rfl⟩, starts⟩
    exact ⟨entry.2, entry, member, starts, rfl, trivial, rfl⟩

/-- The one completion that asks for help, where it is offered. -/
theorem mem_help_iff {offered : Bool} {word : List Char} {name text : String} :
    (∃ displayMeta, (⟨name, -word.length, displayMeta⟩ : Completion) ∈
      if offered && startsWith "help" word then [⟨"help", -word.length, text⟩] else []) ↔
      (offered = true ∧ name = "help") ∧ word <+: name.toList := by
  by_cases holds : (offered && startsWith "help" word) = true
  · obtain ⟨offered', starts⟩ := Bool.and_eq_true_iff.mp holds
    rw [if_pos holds]
    constructor
    · rintro ⟨displayMeta, member⟩
      obtain ⟨same, _⟩ := Completion.mk.inj (List.mem_singleton.mp member)
      exact ⟨⟨offered', same⟩, same ▸ startsWith_iff.mp starts⟩
    · rintro ⟨⟨_, rfl⟩, _⟩
      exact ⟨text, List.mem_cons_self⟩
  · rw [if_neg holds]
    refine iff_of_false (fun ⟨_, member⟩ => List.not_mem_nil member) ?_
    rintro ⟨⟨offered', rfl⟩, starts⟩
    exact holds (Bool.and_eq_true_iff.mpr ⟨offered', startsWith_iff.mpr starts⟩)

theorem offers_first (named : WellNamed commands) {word : List Char}
    {offerTrailingHelp includeBuiltins : Bool} {name : String} :
    Offers (buildTree commands) [] word offerTrailingHelp includeBuiltins name ↔
      Follows commands offerTrailingHelp includeBuiltins [] name ∧ word <+: name.toList := by
  have listed : Offers (buildTree commands) [] word offerTrailingHelp includeBuiltins name ↔
      ((includeBuiltins = true ∨ isBuiltin name = false) ∧
        ∃ entry, (name, entry) ∈ buildTree commands) ∧ word <+: name.toList := by
    simp only [Offers, completePath, List.mem_filterMap, Option.ite_none_left_eq_some,
      Option.ite_none_right_eq_some, Option.some.injEq, Completion.mk.injEq, startsWith_iff,
      Bool.and_eq_true, Bool.not_eq_true', not_and_or, Bool.not_eq_false]
    constructor
    · rintro ⟨displayMeta, entry, member, shown, starts, rfl, _⟩
      exact ⟨⟨shown.imp_right Bool.eq_false_iff.mpr, entry.2, member⟩, starts⟩
    · rintro ⟨⟨shown, entry, member⟩, starts⟩
      exact ⟨entry.1, (name, entry), member, shown.imp_right Bool.eq_false_iff.mp, starts, rfl,
        trivial, rfl⟩
  rw [listed]
  refine and_congr_left fun _ => ?_
  constructor
  · rintro ⟨shown, entry, member⟩
    rcases (mem_buildTree named).mp member with ⟨command, command', rfl, _⟩ |
      ⟨builtin, keyword, rfl, _⟩
    · exact .command command'
    · have builtin' : isBuiltin builtin.1 = true :=
        List.any_eq_true.mpr ⟨builtin, keyword, decide_eq_true rfl⟩
      rcases shown with included | other
      · exact .builtin included builtin'
      · rw [builtin'] at other
        cases other
  · intro follows
    cases follows with
    | builtin included builtin =>
      obtain ⟨builtin, member, same⟩ := List.any_eq_true.mp builtin
      exact ⟨.inl included, _, (mem_buildTree named).mpr
        (.inr ⟨builtin, member, of_decide_eq_true same, rfl⟩)⟩
    | command member =>
      exact ⟨.inr (named.names _ member).2, _, (mem_buildTree named).mpr
        (.inl ⟨_, member, rfl, rfl⟩)⟩
    | help offered names => cases names

/-- What the tree says of the first name of a path decides what follows. -/
theorem offers_eq {tree : CommandTree} {group : String}
    {entry : String × Option (List (String × String))} (word : List Char)
    (offerTrailingHelp includeBuiltins : Bool) (name : String)
    (found : tree.lookup group = some entry) :
    (Offers tree [group] word offerTrailingHelp includeBuiltins name ↔
      ((∃ sub ∈ entry.2.getD [], sub.1 = name) ∨
        (offerTrailingHelp && !isBuiltin group) = true ∧ name = "help") ∧ word <+: name.toList) ∧
    ∀ sub, Offers tree [group, sub] word offerTrailingHelp includeBuiltins name ↔
      ((offerTrailingHelp && (entry.2.getD []).any fun entry => entry.1 = sub) = true ∧
        name = "help") ∧ word <+: name.toList := by
  constructor
  · rw [Offers]
    simp only [completePath, found, List.mem_append, exists_or]
    rw [mem_named_iff, mem_help_iff, or_and_right]
  · intro sub
    rw [Offers]
    simp only [completePath, found]
    exact mem_help_iff

section Paths

variable {offerTrailingHelp includeBuiltins : Bool} {group name : String}
  {entry : String × Option (List (String × String))}

theorem follows_group_iff (named : WellNamed commands)
    (found : (buildTree commands).lookup group = some entry) :
    Follows commands offerTrailingHelp includeBuiltins [group] name ↔
      (∃ sub ∈ entry.2.getD [], sub.1 = name) ∨
        (offerTrailingHelp && !isBuiltin group) = true ∧ name = "help" := by
  constructor
  · intro follows
    cases follows with
    | @sub command sub member subMember =>
      obtain rfl := Option.some.inj (found.symm.trans (lookup_command named member))
      rw [commandEntry_subtree]
      exact .inl ⟨_, List.mem_map_of_mem subMember, rfl⟩
    | help offered names =>
      cases names with
      | command member =>
        rw [offered, (named.names _ member).2]
        exact .inr ⟨rfl, rfl⟩
  · rintro (⟨sub, member, rfl⟩ | ⟨shown, rfl⟩)
    · rcases lookup_cases named found with ⟨command, command', rfl, rfl⟩ | ⟨_, none⟩
      · rw [commandEntry_subtree] at member
        obtain ⟨own, ownMember, rfl⟩ := List.mem_map.mp member
        show Follows commands _ _ _ own.1
        exact .sub command' ownMember
      · rw [none] at member
        cases member
    · obtain ⟨offered, other⟩ := Bool.and_eq_true_iff.mp shown
      rcases lookup_cases named found with ⟨command, command', rfl, _⟩ | ⟨builtin, _⟩
      · exact .help offered (.command command')
      · rw [builtin] at other
        cases other

theorem follows_sub_iff (named : WellNamed commands)
    (found : (buildTree commands).lookup group = some entry) {sub : String} :
    Follows commands offerTrailingHelp includeBuiltins [group, sub] name ↔
      (offerTrailingHelp && (entry.2.getD []).any fun entry => entry.1 = sub) = true ∧
        name = "help" := by
  constructor
  · intro follows
    cases follows with
    | help offered names =>
      cases names with
      | @sub command sub member subMember =>
        obtain rfl := Option.some.inj (found.symm.trans (lookup_command named member))
        rw [offered, commandEntry_subtree]
        exact ⟨List.any_eq_true.mpr
          ⟨_, List.mem_map_of_mem subMember, decide_eq_true rfl⟩, rfl⟩
  · rintro ⟨shown, rfl⟩
    obtain ⟨offered, any⟩ := Bool.and_eq_true_iff.mp shown
    obtain ⟨own, member, same⟩ := List.any_eq_true.mp any
    obtain rfl := of_decide_eq_true same
    rcases lookup_cases named found with ⟨command, command', rfl, rfl⟩ | ⟨_, none⟩
    · rw [commandEntry_subtree] at member
      obtain ⟨sub, subMember, rfl⟩ := List.mem_map.mp member
      have names : Names commands [command.name, sub.1] := .sub command' subMember
      exact .help offered names
    · rw [none] at member
      cases member

theorem Follows.lookup_isSome (named : WellNamed commands) {path : List String}
    (follows : Follows commands offerTrailingHelp includeBuiltins (group :: path) name) :
    ((buildTree commands).lookup group).isSome := by
  cases follows with
  | sub member subMember => rw [lookup_command named member]; rfl
  | help offered names =>
    cases names with
    | command member => rw [lookup_command named member]; rfl
    | sub member subMember => rw [lookup_command named member]; rfl

/-- After a path, exactly the names that can follow it are offered. -/
theorem offers_iff (named : WellNamed commands) {path : List String} {word : List Char} :
    Offers (buildTree commands) path word offerTrailingHelp includeBuiltins name ↔
      Follows commands offerTrailingHelp includeBuiltins path name ∧ word <+: name.toList := by
  cases path with
  | nil => exact offers_first named
  | cons group path =>
    cases found : (buildTree commands).lookup group with
    | none =>
      refine iff_of_false ?_ fun ⟨follows, _⟩ => ?_
      · rintro ⟨_, member⟩
        simp only [completePath, found] at member
        exact List.not_mem_nil member
      · have known := follows.lookup_isSome named
        rw [found] at known
        cases known
    | some entry =>
      have offers := offers_eq word offerTrailingHelp includeBuiltins name found
      match path with
      | [] => rw [offers.1, follows_group_iff named found]
      | [sub] => rw [offers.2, follows_sub_iff named found]
      | sub :: next :: rest =>
        refine iff_of_false ?_ fun ⟨follows, _⟩ => ?_
        · rintro ⟨_, member⟩
          simp only [completePath, found] at member
          exact List.not_mem_nil member
        · cases follows with
          | help offered names => cases names

end Paths

end Trees

/-! ### Completions of a line -/

section Completing

variable {commands : List ClickCommand}

/-- A completion that asks for help at the start of a line comes before the name of a command. -/
theorem getCompletions_eq (tree : CommandTree) (text : String) {path : List String}
    {word : List Char} (parts : (dropSlash text.toList).splitOn ' ' =
      path.map String.toList ++ [word]) :
    getCompletions tree text =
      if path.head? = some "help" then completePath tree path.tail word false false
      else completePath tree path word true true := by
  have texts : (path.map String.toList).map String.ofList = path := by
    rw [List.map_map]
    exact (List.map_congr_left fun _ _ => String.ofList_toList).trans (List.map_id path)
  rw [getCompletions, parts]
  simp only [List.dropLast_concat, texts, List.getLast?_concat, Option.getD_some]
  cases path with
  | nil => rfl
  | cons first rest =>
    by_cases help : first = "help"
    · subst help
      rfl
    · have other : (first :: rest).head? ≠ some "help" := fun same => help (Option.some.inj same)
      rw [if_neg other]
      split
      · rename_i same
        exact absurd (List.cons.inj same).1 help
      · rfl

theorem names_concat_iff {path : List String} {name : String} :
    Names commands (path ++ [name]) ↔ Follows commands false false path name := by
  constructor
  · intro names
    generalize whole : path ++ [name] = line at names
    cases names with
    | command member =>
      obtain ⟨rfl, same⟩ := List.append_inj' (show path ++ [name] = [] ++ [_] from whole) rfl
      obtain ⟨rfl, _⟩ := List.cons.inj same
      exact .command member
    | sub member subMember =>
      obtain ⟨rfl, same⟩ := List.append_inj' (show path ++ [name] = [_] ++ [_] from whole) rfl
      obtain ⟨rfl, _⟩ := List.cons.inj same
      exact .sub member subMember
  · intro follows
    cases follows with
    | builtin included => cases included
    | command member => exact .command member
    | sub member subMember => exact .sub member subMember
    | help offered => cases offered

theorem follows_all_iff {path : List String} {name : String} :
    Follows commands true true path name ↔ Names commands (path ++ [name]) ∨
      (path = [] ∧ isBuiltin name = true) ∨ Names commands path ∧ name = "help" := by
  rw [names_concat_iff]
  constructor
  · intro follows
    cases follows with
    | builtin included builtin => exact .inr (.inl ⟨rfl, builtin⟩)
    | command member => exact .inl (.command member)
    | sub member subMember => exact .inl (.sub member subMember)
    | help offered names => exact .inr (.inr ⟨names, rfl⟩)
  · rintro (follows | ⟨rfl, builtin⟩ | ⟨names, rfl⟩)
    · cases follows with
      | builtin included => cases included
      | command member => exact .command member
      | sub member subMember => exact .sub member subMember
      | help offered => cases offered
    · exact .builtin rfl builtin
    · exact .help rfl names

/-- The ways in which a name ends a line that completions make up. -/
theorem completes_concat_iff {path : List String} {name : String} :
    (∃ action, Completes commands (path ++ [name]) action) ↔
      (Names commands (path ++ [name]) ∨ (path = [] ∧ isBuiltin name = true) ∨
        Names commands path ∧ name = "help") ∨
      ∃ target, path = "help" :: target ∧ Names commands (target ++ [name]) := by
  constructor
  · rintro ⟨action, completes⟩
    generalize whole : path ++ [name] = line at completes
    cases completes with
    | exit =>
      obtain ⟨rfl, same⟩ := List.append_inj' (show path ++ [name] = [] ++ [_] from whole) rfl
      obtain ⟨rfl, _⟩ := List.cons.inj same
      exact .inl (.inr (.inl ⟨rfl, rfl⟩))
    | help =>
      obtain ⟨rfl, same⟩ := List.append_inj' (show path ++ [name] = [] ++ [_] from whole) rfl
      obtain ⟨rfl, _⟩ := List.cons.inj same
      exact .inl (.inr (.inl ⟨rfl, rfl⟩))
    | command names => exact .inl (.inl (whole ▸ names))
    | leadingHelp names =>
      cases path with
      | nil =>
        obtain ⟨_, none⟩ := List.cons.inj whole
        rw [← none] at names
        cases names
      | cons first target =>
        obtain ⟨rfl, rfl⟩ := List.cons.inj whole
        exact .inr ⟨target, rfl, names⟩
    | trailingHelp names =>
      obtain ⟨rfl, same⟩ := List.append_inj' whole rfl
      obtain ⟨rfl, _⟩ := List.cons.inj same
      exact .inl (.inr (.inr ⟨names, rfl⟩))
  · rintro ((names | ⟨rfl, builtin⟩ | ⟨names, rfl⟩) | ⟨target, rfl, names⟩)
    · exact ⟨_, .command names⟩
    · rcases isBuiltin_iff.mp builtin with rfl | rfl
      · exact ⟨_, .exit⟩
      · exact ⟨_, .help⟩
    · exact ⟨_, .trailingHelp names⟩
    · exact ⟨_, .leadingHelp names⟩

/-- The lines that completions make up are those in which a name follows a path. -/
theorem follows_iff_completes (named : WellNamed commands) {path : List String} {name : String} :
    (if path.head? = some "help" then Follows commands false false path.tail name
      else Follows commands true true path name) ↔
      ∃ action, Completes commands (path ++ [name]) action := by
  -- No name of a command is the word for help.
  have apart {line : List String} (names : Names commands line) : line.head? ≠ some "help" := by
    obtain ⟨first, rest, rfl, other⟩ := names.head named
    intro same
    rw [Option.some.inj same] at other
    exact absurd other (by decide)
  rw [completes_concat_iff]
  by_cases help : path.head? = some "help"
  · rw [if_pos help]
    obtain ⟨target, rfl⟩ := List.head?_eq_some_iff.mp help
    rw [List.tail_cons, ← names_concat_iff]
    constructor
    · exact fun names => .inr ⟨target, rfl, names⟩
    · rintro ((names | ⟨none, _⟩ | ⟨names, _⟩) | ⟨own, same, names⟩)
      · exact absurd rfl (apart names)
      · cases none
      · exact absurd rfl (apart names)
      · exact (List.cons.inj same).2 ▸ names
  · rw [if_neg help, follows_all_iff]
    refine ⟨.inl, ?_⟩
    rintro (follows | ⟨target, rfl, _⟩)
    · exact follows
    · exact absurd rfl help

/-- The line with a path and the part of a word that has been typed. -/
def typedLine (slash : List Char) (path : List String) (word : List Char) : String :=
  String.ofList (slash ++ Shlex.join (path.map String.toList ++ [word]))

/-- The completions of a list of names start at the word. -/
theorem mem_named_start {entries : List (String × String)} {word : List Char}
    {completion : Completion}
    (member : completion ∈ entries.filterMap fun entry =>
      if startsWith entry.1 word then some ⟨entry.1, -word.length, entry.2⟩ else none) :
    completion.startPosition = -word.length := by
  obtain ⟨entry, _, made⟩ := List.mem_filterMap.mp member
  obtain ⟨_, same⟩ := Option.ite_none_right_eq_some.mp made
  obtain rfl := Option.some.inj same
  rfl

theorem mem_help_start {offered : Bool} {word : List Char} {text : String}
    {completion : Completion}
    (member : completion ∈
      if offered && startsWith "help" word then [(⟨"help", -word.length, text⟩ : Completion)]
      else []) :
    completion.startPosition = -word.length := by
  split at member
  · rw [List.mem_singleton.mp member]
  · cases member

/-- Every completion starts where the word does. -/
theorem completePath_start {tree : CommandTree} {path : List String} {word : List Char}
    {offerTrailingHelp includeBuiltins : Bool} {completion : Completion}
    (member : completion ∈ completePath tree path word offerTrailingHelp includeBuiltins) :
    completion.startPosition = -word.length := by
  rw [completePath.eq_def] at member
  split at member
  · obtain ⟨entry, _, made⟩ := List.mem_filterMap.mp member
    obtain ⟨_, shown⟩ := Option.ite_none_left_eq_some.mp made
    obtain ⟨_, same⟩ := Option.ite_none_right_eq_some.mp shown
    obtain rfl := Option.some.inj same
    rfl
  · split at member
    · cases member
    · split at member
      · rcases List.mem_append.mp member with sub | help
        · exact mem_named_start sub
        · exact mem_help_start help
      · exact mem_help_start member
      · cases member

theorem applyCompletion_typedLine (slash : List Char) (path : List String) (word : List Char)
    (name displayMeta : String) :
    applyCompletion (typedLine slash path word) ⟨name, -word.length, displayMeta⟩ =
      String.ofList (slash ++ wordLine (path ++ [name])) := by
  have dropped (line : List Char) : (line ++ word).rdrop word.length = line := by
    rw [List.rdrop, List.length_append, Nat.add_sub_cancel, List.take_left]
  have size : (-(-(word.length : Int))).toNat = word.length := by
    rw [Int.neg_neg, Int.toNat_natCast]
  show String.ofList ((typedLine slash path word).toList.rdrop
    (-(-(word.length : Int))).toNat) ++ name = _
  rw [size, typedLine, String.toList_ofList, Shlex.join_concat, wordLine_concat,
    ← List.append_assoc, dropped, ← List.append_assoc]
  exact String.toList_inj.mp (by simp only [String.toList_append, String.toList_ofList])

/-- Every text is a line with a path and a part of a word. -/
theorem exists_typedLine (text : String) :
    ∃ slash path word, (slash = [] ∨ slash = ['/']) ∧ text = typedLine slash path word ∧
      (dropSlash text.toList).splitOn ' ' = path.map String.toList ++ [word] := by
  obtain ⟨slash, optional, whole⟩ : ∃ slash, (slash = [] ∨ slash = ['/']) ∧
      text.toList = slash ++ dropSlash text.toList := by
    rw [dropSlash.eq_def]
    split
    · exact ⟨['/'], .inr rfl, by assumption⟩
    · exact ⟨[], .inl rfl, rfl⟩
  obtain ⟨init, word, parts⟩ := (List.eq_nil_or_concat
    ((dropSlash text.toList).splitOn ' ')).resolve_left (List.splitOn_ne_nil _ _)
  have texts : (init.map String.ofList).map String.toList = init := by
    rw [List.map_map]
    exact (List.map_congr_left fun _ _ => String.toList_ofList).trans (List.map_id init)
  have line : [' '].intercalate ((dropSlash text.toList).splitOn ' ') = dropSlash text.toList :=
    List.intercalate_splitOn ' '
  rw [parts, List.concat_eq_append] at line
  refine ⟨slash, init.map String.ofList, word, optional, ?_, ?_⟩
  · rw [typedLine, texts]
    refine String.toList_inj.mp (whole.trans ?_)
    rw [String.toList_ofList]
    exact congrArg _ line.symm
  · rw [parts, texts, List.concat_eq_append]

/-- The parts of a line with a path of words are the path and the part of a word. -/
theorem splitOn_typedLine {slash : List Char} {path : List String} {word : List Char}
    (optional : slash = [] ∨ slash = ['/']) (words : ∀ name ∈ path, CommandWord name)
    {name : String} (last : CommandWord name) (starts : word <+: name.toList) :
    (dropSlash (typedLine slash path word).toList).splitOn ' ' =
      path.map String.toList ++ [word] := by
  have solid : ∀ part ∈ path.map String.toList ++ [word], ' ' ∉ part := by
    intro part member space
    rcases List.mem_append.mp member with before | own
    · obtain ⟨name, member', rfl⟩ := List.mem_map.mp before
      exact (words name member').no_space space
    · rw [List.mem_singleton.mp own] at space
      exact last.no_space (starts.subset space)
  have dropped : dropSlash (slash ++ Shlex.join (path.map String.toList ++ [word])) =
      Shlex.join (path.map String.toList ++ [word]) := by
    rcases optional with rfl | rfl
    · rw [List.nil_append, dropSlash.eq_def]
      split
      next rest slashed =>
        exfalso
        cases path with
        | nil =>
          rw [List.map_nil, List.nil_append, Shlex.join_singleton] at slashed
          exact last.slashes (starts.subset (slashed ▸ List.mem_cons_self))
        | cons first others =>
          obtain ⟨head, rest', chars⟩ := List.exists_cons_of_ne_nil
            (words first List.mem_cons_self).plain.nonempty
          rw [List.map_cons, List.cons_append,
            Shlex.join_cons _ (List.append_ne_nil_of_right_ne_nil _ (List.cons_ne_nil _ _)),
            chars] at slashed
          obtain ⟨rfl, _⟩ := List.cons.inj slashed
          exact (words first List.mem_cons_self).slashes (chars ▸ List.mem_cons_self)
      next => rfl
    · rfl
  rw [typedLine, String.toList_ofList, dropped]
  exact List.splitOn_intercalate ' ' solid
    (List.append_ne_nil_of_right_ne_nil _ (List.cons_ne_nil _ _))

/-- Completing a line with names of its commands: a completion is offered just when it ends one of
the lines that completions make up, at the word that has been typed, with or without a slash. The
shell understands all of these lines. -/
theorem completions_run (named : WellNamed commands) (text line : String) :
    (∃ completion ∈ getCompletions (buildTree commands) text,
        applyCompletion text completion = line) ↔
      ∃ slash path word name action, (slash = [] ∨ slash = ['/']) ∧
        text = typedLine slash path word ∧ word <+: name.toList ∧
        Completes commands (path ++ [name]) action ∧
        line = String.ofList (slash ++ wordLine (path ++ [name])) ∧
        lineAction line = action := by
  -- What is offered for a line with a path and a part of a word.
  have offered {path : List String} {word : List Char}
      (parts : (dropSlash text.toList).splitOn ' ' = path.map String.toList ++ [word])
      (name : String) :
      (∃ displayMeta, (⟨name, -word.length, displayMeta⟩ : Completion) ∈
        getCompletions (buildTree commands) text) ↔
      (∃ action, Completes commands (path ++ [name]) action) ∧ word <+: name.toList := by
    rw [getCompletions_eq _ _ parts, ← follows_iff_completes named]
    split
    · exact offers_iff named
    · exact offers_iff named
  constructor
  · rintro ⟨completion, member, applied⟩
    obtain ⟨slash, path, word, optional, typed, parts⟩ := exists_typedLine text
    obtain ⟨name, position, displayMeta⟩ := completion
    have start : position = -word.length := by
      rw [getCompletions_eq _ _ parts] at member
      split at member
      · exact completePath_start member
      · exact completePath_start member
    subst start
    obtain ⟨⟨action, completes⟩, starts⟩ := (offered parts name).mp ⟨displayMeta, member⟩
    rw [typed, applyCompletion_typedLine] at applied
    refine ⟨slash, path, word, name, action, optional, typed, starts, completes, applied.symm, ?_⟩
    rw [← applied]
    exact completes.lineAction named optional
  · rintro ⟨slash, path, word, name, action, optional, rfl, starts, completes, rfl, _⟩
    have words := completes.words named
    have last := words name (List.mem_append_right _ List.mem_cons_self)
    have parts := splitOn_typedLine optional
      (fun other member => words other (List.mem_append_left _ member)) last starts
    obtain ⟨displayMeta, member⟩ := (offered parts name).mpr ⟨⟨action, completes⟩, starts⟩
    exact ⟨_, member, applyCompletion_typedLine slash path word name displayMeta⟩

end Completing

/-- The commands of the program, without their descriptions. -/
def trutinaCommands : List ClickCommand :=
  [⟨"trial-balance", "", []⟩,
    ⟨"journal", "", [("create", ""), ("get", ""), ("list", "")]⟩,
    ⟨"account", "", [("create", ""), ("get", ""), ("list", ""), ("update", ""), ("delete", "")]⟩,
    ⟨"posting", "", [("post", ""), ("get-by-account", ""), ("get-by-journal", "")]⟩]

theorem trutinaCommands_named : WellNamed trutinaCommands :=
  ⟨by decide +kernel, by decide +kernel, by decide +kernel⟩

/-- A request for help, after a slash and with a part of the last name. -/
theorem completions_run_of_trutina :
    ∃ completion ∈ getCompletions (buildTree trutinaCommands) "/help posting get-by-j",
      applyCompletion "/help posting get-by-j" completion = "/help posting get-by-journal" := by
  have names : Names trutinaCommands ["posting", "get-by-journal"] :=
    @Names.sub _
      ⟨"posting", "", [("post", ""), ("get-by-account", ""), ("get-by-journal", "")]⟩
      ("get-by-journal", "") (by decide) (by decide)
  exact (completions_run trutinaCommands_named _ _).mpr
    ⟨['/'], ["help", "posting"], "get-by-j".toList, "get-by-journal",
      .runHelp ["posting", "get-by-journal"], .inr rfl, by decide +kernel, by decide +kernel,
      .leadingHelp names, by decide +kernel, by decide +kernel⟩

end Trutina
