/-
This file is a small library about nested values: leaves, lists, tuples, and
dicts with string keys. Masking a tree replaces every value under a secret key
by a mask, cleans every other leaf, and turns tuples into lists. Three facts
describe it. Trees that differ only under secret keys are masked alike. What is
found on a path without secret keys is found there again, masked in its turn.
And the keys that are left are those that are not under a secret key.
-/

import Mathlib
import Trutina.RelatedLists

/-! ### Trees -/

inductive KeyedTree (Leaf : Type) where
  | leaf (value : Leaf)
  | list (items : List (KeyedTree Leaf))
  | tuple (items : List (KeyedTree Leaf))
  | dict (entries : List (String × KeyedTree Leaf))

namespace KeyedTree

variable {Leaf : Type}

/-- Induction with one hypothesis for each item and for each value of a dict. -/
@[elab_as_elim]
theorem induction {motive : KeyedTree Leaf → Prop} (leaf : ∀ value, motive (.leaf value))
    (list : ∀ items, (∀ item ∈ items, motive item) → motive (.list items))
    (tuple : ∀ items, (∀ item ∈ items, motive item) → motive (.tuple items))
    (dict : ∀ entries, (∀ entry ∈ entries, motive entry.2) → motive (.dict entries))
    (tree : KeyedTree Leaf) : motive tree :=
  @KeyedTree.rec Leaf motive (fun items => ∀ item ∈ items, motive item)
    (fun entries => ∀ entry ∈ entries, motive entry.2) (fun entry => motive entry.2)
    leaf list tuple dict
    (List.forall_mem_nil _) (fun _ _ first rest => List.forall_mem_cons.mpr ⟨first, rest⟩)
    (List.forall_mem_nil _) (fun _ _ first rest => List.forall_mem_cons.mpr ⟨first, rest⟩)
    (fun _ _ value => value) tree

/-! ### Entries -/

section Entries

variable {Value Other : Type}

/-- A change that keeps all keys keeps what is found under a key in its place. -/
theorem find?_key_map {change : String × Value → String × Other}
    (keys : ∀ entry, (change entry).1 = entry.1) (name : String)
    (entries : List (String × Value)) :
    (entries.map change).find? (fun entry => entry.1 == name) =
      (entries.find? fun entry => entry.1 == name).map change := by
  have same : ((fun entry : String × Other => entry.1 == name) ∘ change) =
      fun entry => entry.1 == name := by
    funext entry
    rw [Function.comp_apply, keys]
  rw [List.find?_map, same]

/-- Dropping other keys does not change what is found under a key. -/
theorem find?_key_filter (keep : String → Bool) {name : String} (kept : keep name = true)
    (entries : List (String × Value)) :
    (entries.filter fun entry => keep entry.1).find? (fun entry => entry.1 == name) =
      entries.find? fun entry => entry.1 == name := by
  rw [List.find?_filter]
  congr 1
  funext entry
  rw [Bool.decide_and, Bool.decide_eq_true, Bool.decide_eq_true]
  cases own : entry.1 == name with
  | false => exact Bool.and_false _
  | true => rw [eq_of_beq own, kept, Bool.and_true]

end Entries

/-! ### Paths -/

/-- One step into a tree: to the value under a key, or to an item. -/
inductive Step where
  | key (name : String)
  | index (position : Nat)
  deriving DecidableEq, Repr

/-- The value a step leads to. Of several entries with one key it is the first. -/
def child? : Step → KeyedTree Leaf → Option (KeyedTree Leaf)
  | .key name, .dict entries => (entries.find? fun entry => entry.1 == name).map Prod.snd
  | .index position, .list items => items[position]?
  | .index position, .tuple items => items[position]?
  | _, _ => none

/-- What is found on a path. -/
def get? : List Step → KeyedTree Leaf → Option (KeyedTree Leaf)
  | [], tree => some tree
  | step :: rest, tree => (tree.child? step).bind (get? rest)

@[simp] theorem get?_nil (tree : KeyedTree Leaf) : tree.get? [] = some tree := rfl

theorem get?_cons (step : Step) (rest : List Step) (tree : KeyedTree Leaf) :
    tree.get? (step :: rest) = (tree.child? step).bind (get? rest) := rfl

/-- A step that does not enter a secret. -/
def Step.Open (secret : String → Bool) : Step → Prop
  | .key name => secret name = false
  | .index _ => True

instance (secret : String → Bool) (step : Step) : Decidable (step.Open secret) :=
  match step with
  | .key name => inferInstanceAs (Decidable (secret name = false))
  | .index _ => inferInstanceAs (Decidable True)

/-! ### Masking -/

section Masking

variable (secret : String → Bool) (mask : Leaf) (clean : Leaf → Leaf)

mutual

/-- The tree with a mask in place of every secret, and every other leaf cleaned. -/
def masked : KeyedTree Leaf → KeyedTree Leaf
  | .leaf value => .leaf (clean value)
  | .list items => .list (maskedItems items)
  | .tuple items => .list (maskedItems items)
  | .dict entries => .dict (maskedEntries entries)

def maskedItems : List (KeyedTree Leaf) → List (KeyedTree Leaf)
  | [] => []
  | item :: rest => item.masked :: maskedItems rest

def maskedEntries : List (String × KeyedTree Leaf) → List (String × KeyedTree Leaf)
  | [] => []
  | (key, value) :: rest =>
    (key, if secret key then .leaf mask else value.masked) :: maskedEntries rest

end

/-- One entry of a dict, masked. -/
def maskedEntry (entry : String × KeyedTree Leaf) : String × KeyedTree Leaf :=
  (entry.1, if secret entry.1 then .leaf mask else entry.2.masked secret mask clean)

theorem maskedItems_eq_map (items : List (KeyedTree Leaf)) :
    maskedItems secret mask clean items = items.map (masked secret mask clean) := by
  induction items with
  | nil => rfl
  | cons item rest inductionHypothesis => rw [maskedItems, inductionHypothesis, List.map_cons]

theorem maskedEntries_eq_map (entries : List (String × KeyedTree Leaf)) :
    maskedEntries secret mask clean entries =
      entries.map (maskedEntry secret mask clean) := by
  induction entries with
  | nil => rfl
  | cons entry rest inductionHypothesis =>
    rw [maskedEntries, inductionHypothesis, List.map_cons, maskedEntry]

variable {secret mask clean}

/-- What lies on a path without secrets is found again, masked. -/
theorem child?_masked {step : Step} (shown : step.Open secret) (tree : KeyedTree Leaf) :
    (tree.masked secret mask clean).child? step =
      (tree.child? step).map (masked secret mask clean) := by
  cases tree with
  | leaf value => cases step <;> rfl
  | list items =>
    cases step with
    | key name => rfl
    | index position => rw [masked, maskedItems_eq_map, child?, child?, List.getElem?_map]
  | tuple items =>
    cases step with
    | key name => rfl
    | index position => rw [masked, maskedItems_eq_map, child?, child?, List.getElem?_map]
  | dict entries =>
    cases step with
    | index position => rfl
    | key name =>
      have keys : ∀ entry, (maskedEntry secret mask clean entry).1 = entry.1 := fun _ => rfl
      rw [masked, maskedEntries_eq_map, child?, child?, find?_key_map keys, Option.map_map,
        Option.map_map]
      refine Option.map_congr fun entry found => ?_
      have matched := List.find?_some found
      have own : entry.1 = name := eq_of_beq matched
      have visible : secret entry.1 = false := own ▸ shown
      simp only [Function.comp_apply, maskedEntry, visible, Bool.false_eq_true, if_false]

theorem get?_masked {path : List Step} (shown : ∀ step ∈ path, step.Open secret)
    (tree : KeyedTree Leaf) :
    (tree.masked secret mask clean).get? path =
      (tree.get? path).map (masked secret mask clean) := by
  induction path generalizing tree with
  | nil => rfl
  | cons step rest inductionHypothesis =>
    obtain ⟨first, later⟩ := List.forall_mem_cons.mp shown
    rw [get?_cons, get?_cons, child?_masked first]
    cases tree.child? step with
    | none => rfl
    | some child => exact inductionHypothesis later child

end Masking

/-! ### Trees that differ in secrets -/

mutual

/-- The trees differ only under secret keys. -/
inductive Alike (secret : String → Bool) : KeyedTree Leaf → KeyedTree Leaf → Prop where
  | leaf (value : Leaf) : Alike secret (.leaf value) (.leaf value)
  | list {first second : List (KeyedTree Leaf)}
      (items : List.Forall₂ (Alike secret) first second) :
      Alike secret (.list first) (.list second)
  | tuple {first second : List (KeyedTree Leaf)}
      (items : List.Forall₂ (Alike secret) first second) :
      Alike secret (.tuple first) (.tuple second)
  | dict {first second : List (String × KeyedTree Leaf)}
      (entries : List.Forall₂ (AlikeEntry secret) first second) :
      Alike secret (.dict first) (.dict second)

/-- The entries have one key. If it is not secret, their values differ only under secret keys. -/
inductive AlikeEntry (secret : String → Bool) :
    String × KeyedTree Leaf → String × KeyedTree Leaf → Prop where
  | hidden {key : String} (own : secret key = true) (first second : KeyedTree Leaf) :
      AlikeEntry secret (key, first) (key, second)
  | shown (key : String) {first second : KeyedTree Leaf} (values : Alike secret first second) :
      AlikeEntry secret (key, first) (key, second)

end

section Alike

variable {secret : String → Bool} {mask : Leaf} {clean : Leaf → Leaf}

theorem AlikeEntry.key_eq {entry other : String × KeyedTree Leaf}
    (alike : AlikeEntry secret entry other) : entry.1 = other.1 := by
  cases alike <;> rfl

theorem AlikeEntry.masked_eq {entry other : String × KeyedTree Leaf}
    (alike : AlikeEntry secret entry other)
    (values : Alike secret entry.2 other.2 →
      entry.2.masked secret mask clean = other.2.masked secret mask clean) :
    maskedEntry secret mask clean entry = maskedEntry secret mask clean other := by
  cases alike with
  | hidden own first second => simp only [maskedEntry, own, if_true]
  | shown key alike => rw [maskedEntry, maskedEntry, values alike]

/-- Trees that differ only under secret keys are masked alike. -/
theorem Alike.masked_eq {first second : KeyedTree Leaf} (alike : Alike secret first second) :
    first.masked secret mask clean = second.masked secret mask clean := by
  induction first using KeyedTree.induction generalizing second with
  | leaf value =>
    cases alike
    rfl
  | list items inductionHypothesis =>
    cases alike with
    | list all =>
      rw [masked, masked, maskedItems_eq_map, maskedItems_eq_map]
      exact congrArg KeyedTree.list (all.map_eq fun item member other alike =>
        (inductionHypothesis item member alike).symm).symm
  | tuple items inductionHypothesis =>
    cases alike with
    | tuple all =>
      rw [masked, masked, maskedItems_eq_map, maskedItems_eq_map]
      exact congrArg KeyedTree.list (all.map_eq fun item member other alike =>
        (inductionHypothesis item member alike).symm).symm
  | dict entries inductionHypothesis =>
    cases alike with
    | dict all =>
      rw [masked, masked, maskedEntries_eq_map, maskedEntries_eq_map]
      exact congrArg KeyedTree.dict (all.map_eq fun entry member other alike =>
        (alike.masked_eq (inductionHypothesis entry member)).symm).symm

end Alike

/-! ### Leaves -/

/-- Every leaf has a property, whatever its path. -/
inductive AllLeaves (holds : Leaf → Prop) : KeyedTree Leaf → Prop where
  | leaf {value : Leaf} (own : holds value) : AllLeaves holds (.leaf value)
  | list {items : List (KeyedTree Leaf)} (all : ∀ item ∈ items, AllLeaves holds item) :
      AllLeaves holds (.list items)
  | tuple {items : List (KeyedTree Leaf)} (all : ∀ item ∈ items, AllLeaves holds item) :
      AllLeaves holds (.tuple items)
  | dict {entries : List (String × KeyedTree Leaf)}
      (all : ∀ entry ∈ entries, AllLeaves holds entry.2) : AllLeaves holds (.dict entries)

/-- Masking depends only on what the leaves of the tree are cleaned to. -/
theorem AllLeaves.masked_congr {secret : String → Bool} {mask : Leaf} {clean other : Leaf → Leaf}
    {tree : KeyedTree Leaf} (all : tree.AllLeaves fun value => clean value = other value) :
    tree.masked secret mask clean = tree.masked secret mask other := by
  induction all with
  | leaf own => rw [masked, masked, own]
  | list all inductionHypothesis =>
    rw [masked, masked, maskedItems_eq_map, maskedItems_eq_map,
      List.map_congr_left inductionHypothesis]
  | tuple all inductionHypothesis =>
    rw [masked, masked, maskedItems_eq_map, maskedItems_eq_map,
      List.map_congr_left inductionHypothesis]
  | dict all inductionHypothesis =>
    rw [masked, masked, maskedEntries_eq_map, maskedEntries_eq_map]
    refine congrArg KeyedTree.dict (List.map_congr_left fun entry member => ?_)
    rw [maskedEntry, maskedEntry, inductionHypothesis entry member]

/-- A weaker property holds of the leaves too. -/
theorem AllLeaves.mono {holds weaker : Leaf → Prop} (weakens : ∀ value, holds value → weaker value)
    {tree : KeyedTree Leaf} (all : tree.AllLeaves holds) : tree.AllLeaves weaker := by
  induction all with
  | leaf own => exact .leaf (weakens _ own)
  | list all inductionHypothesis => exact .list inductionHypothesis
  | tuple all inductionHypothesis => exact .tuple inductionHypothesis
  | dict all inductionHypothesis => exact .dict inductionHypothesis

/-! ### Keys -/

/-- A key with a property occurs on a path on which no earlier key is hidden. -/
inductive ShowsKey (secret : String → Bool) (sought : String → Prop) : KeyedTree Leaf → Prop where
  | list {items : List (KeyedTree Leaf)} {item : KeyedTree Leaf} (member : item ∈ items)
      (inner : ShowsKey secret sought item) : ShowsKey secret sought (.list items)
  | tuple {items : List (KeyedTree Leaf)} {item : KeyedTree Leaf} (member : item ∈ items)
      (inner : ShowsKey secret sought item) : ShowsKey secret sought (.tuple items)
  | own {entries : List (String × KeyedTree Leaf)} {entry : String × KeyedTree Leaf}
      (member : entry ∈ entries) (named : sought entry.1) : ShowsKey secret sought (.dict entries)
  | entry {entries : List (String × KeyedTree Leaf)} {entry : String × KeyedTree Leaf}
      (member : entry ∈ entries) (shown : secret entry.1 = false)
      (inner : ShowsKey secret sought entry.2) : ShowsKey secret sought (.dict entries)

section Keys

variable {secret : String → Bool} {sought : String → Prop} {mask : Leaf} {clean : Leaf → Leaf}

theorem not_showsKey_leaf (value : Leaf) : ¬(KeyedTree.leaf value).ShowsKey secret sought := by
  intro shows
  cases shows

theorem showsKey_list {items : List (KeyedTree Leaf)} :
    (KeyedTree.list items).ShowsKey secret sought ↔
      ∃ item ∈ items, item.ShowsKey secret sought := by
  constructor
  · intro shows
    cases shows with
    | list member inner => exact ⟨_, member, inner⟩
  · rintro ⟨item, member, inner⟩
    exact .list member inner

theorem showsKey_tuple {items : List (KeyedTree Leaf)} :
    (KeyedTree.tuple items).ShowsKey secret sought ↔
      ∃ item ∈ items, item.ShowsKey secret sought := by
  constructor
  · intro shows
    cases shows with
    | tuple member inner => exact ⟨_, member, inner⟩
  · rintro ⟨item, member, inner⟩
    exact .tuple member inner

theorem showsKey_dict {entries : List (String × KeyedTree Leaf)} :
    (KeyedTree.dict entries).ShowsKey secret sought ↔
      ∃ entry ∈ entries, sought entry.1 ∨
        secret entry.1 = false ∧ entry.2.ShowsKey secret sought := by
  constructor
  · intro shows
    cases shows with
    | own member named => exact ⟨_, member, .inl named⟩
    | entry member shown inner => exact ⟨_, member, .inr ⟨shown, inner⟩⟩
  · rintro ⟨entry, member, named | ⟨shown, inner⟩⟩
    · exact .own member named
    · exact .entry member shown inner

/-- Masking takes away just the keys under secret ones. -/
theorem showsKey_masked (tree : KeyedTree Leaf) :
    (tree.masked secret mask clean).ShowsKey (fun _ => false) sought ↔
      tree.ShowsKey secret sought := by
  induction tree using KeyedTree.induction with
  | leaf value => exact iff_of_false (not_showsKey_leaf _) (not_showsKey_leaf _)
  | list items inductionHypothesis =>
    rw [masked, maskedItems_eq_map, showsKey_list, showsKey_list]
    simp only [List.mem_map, exists_exists_and_eq_and]
    exact exists_congr fun item => and_congr_right (inductionHypothesis item)
  | tuple items inductionHypothesis =>
    rw [masked, maskedItems_eq_map, showsKey_list, showsKey_tuple]
    simp only [List.mem_map, exists_exists_and_eq_and]
    exact exists_congr fun item => and_congr_right (inductionHypothesis item)
  | dict entries inductionHypothesis =>
    rw [masked, maskedEntries_eq_map, showsKey_dict, showsKey_dict]
    simp only [List.mem_map, exists_exists_and_eq_and]
    refine exists_congr fun entry => and_congr_right fun member => or_congr_right ?_
    rw [maskedEntry]
    cases hidden : secret entry.1 with
    | true => simp [not_showsKey_leaf]
    | false => simp [inductionHypothesis entry member]

end Keys

end KeyedTree
