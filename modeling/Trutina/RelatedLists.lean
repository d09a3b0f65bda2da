/-
This file is a small library about lists whose items are related in pairs. What
the relation says of every pair carries over to the lists: images agree, every
item has a partner, and the partner stands at the same index. A list of computed
values is related to what they are computed from, and a list that is taken page
by page is related to its pages.
-/

import Mathlib.Data.List.Forall2

namespace List.Forall₂

variable {First Second Value : Type} {related : First → Second → Prop} {left : List First}
  {right : List Second}

/-- The images agree when those of every pair do. -/
theorem map_eq {first : First → Value} {second : Second → Value}
    (pairs : List.Forall₂ related left right)
    (same : ∀ one ∈ left, ∀ other, related one other → second other = first one) :
    right.map second = left.map first := by
  induction pairs with
  | nil => rfl
  | cons head _ inductionHypothesis =>
    rw [List.map_cons, List.map_cons, same _ List.mem_cons_self _ head, inductionHypothesis
      fun one member => same one (List.mem_cons_of_mem _ member)]

/-- Lists are equal when their pairs are. -/
theorem eq_of_pairs {left right : List First} {related : First → First → Prop}
    (pairs : List.Forall₂ related left right)
    (same : ∀ one ∈ left, ∀ other, related one other → other = one) : right = left := by
  have images : right.map id = left.map id := pairs.map_eq same
  rwa [List.map_id, List.map_id] at images

/-- Items that each have a partner have a list of partners. -/
theorem exists_of_forall (each : ∀ one ∈ left, ∃ other, related one other) :
    ∃ others, List.Forall₂ related left others := by
  induction left with
  | nil => exact ⟨[], .nil⟩
  | cons one rest inductionHypothesis =>
    obtain ⟨other, same⟩ := each one List.mem_cons_self
    obtain ⟨others, pairs⟩ :=
      inductionHypothesis fun later member => each later (List.mem_cons_of_mem _ member)
    exact ⟨other :: others, .cons same pairs⟩

theorem exists_left (pairs : List.Forall₂ related left right) {other : Second}
    (member : other ∈ right) : ∃ one ∈ left, related one other := by
  induction pairs with
  | nil => cases member
  | @cons one head _ _ same _ inductionHypothesis =>
    rcases List.mem_cons.mp member with rfl | later
    · exact ⟨one, List.mem_cons_self, same⟩
    · obtain ⟨found, present, same⟩ := inductionHypothesis later
      exact ⟨found, List.mem_cons_of_mem _ present, same⟩

theorem exists_right (pairs : List.Forall₂ related left right) {one : First}
    (member : one ∈ left) : ∃ other ∈ right, related one other :=
  pairs.flip.exists_left member

theorem getElem?_left (pairs : List.Forall₂ related left right) {index : Nat} {other : Second}
    (found : right[index]? = some other) :
    ∃ one, left[index]? = some one ∧ related one other := by
  obtain ⟨length, pointwise⟩ := List.forall₂_iff_get.mp pairs
  obtain ⟨bound, rfl⟩ := List.getElem?_eq_some_iff.mp found
  exact ⟨_, List.getElem?_eq_getElem (length ▸ bound), pointwise index (length ▸ bound) bound⟩

end List.Forall₂

/-! ### Lists of computed values -/

section Computed

variable {Error Item Value : Type} {compute : Item → Except Error Value}

/-- A list of computed values has its first value and the rest computed. -/
theorem List.mapM_cons_eq_ok_iff {item : Item} {items : List Item} {values : List Value} :
    (item :: items).mapM compute = .ok values ↔
      ∃ value rest, values = value :: rest ∧ compute item = .ok value ∧
        items.mapM compute = .ok rest := by
  rw [List.mapM_cons]
  cases first : compute item with
  | error error => simp [bind, Except.bind]
  | ok value =>
    cases later : items.mapM compute with
    | error error => simp [bind, Except.bind]
    | ok rest => simp [bind, Except.bind, pure, Except.pure, eq_comm]

/-- A list of computed values is computed item by item. -/
theorem List.mapM_eq_ok_iff {items : List Item} {values : List Value} :
    items.mapM compute = .ok values ↔
      List.Forall₂ (fun item value => compute item = .ok value) items values := by
  induction items generalizing values with
  | nil =>
    rw [List.mapM_nil, List.forall₂_nil_left_iff]
    exact ⟨fun same => (Except.ok.inj same).symm, fun same => congrArg Except.ok same.symm⟩
  | cons item rest inductionHypothesis =>
    rw [List.mapM_cons_eq_ok_iff, List.forall₂_cons_left_iff]
    constructor
    · rintro ⟨value, others, rfl, first, later⟩
      exact ⟨value, others, first, inductionHypothesis.mp later, rfl⟩
    · rintro ⟨value, others, first, later, rfl⟩
      exact ⟨value, others, rfl, first, inductionHypothesis.mpr later⟩

end Computed

/-! ### Pages -/

section Pages

variable {Item : Type}

/-- The pages of a list, as long as the fuel lasts. -/
def List.pagesWithin (size : Nat) : Nat → List Item → List (List Item)
  | 0, _ => []
  | _ + 1, [] => []
  | fuel + 1, item :: rest =>
    (item :: rest).take size :: List.pagesWithin size fuel ((item :: rest).drop size)

/-- The list in pages of this size. The last page may be shorter. -/
def List.pages (size : Nat) (items : List Item) : List (List Item) :=
  List.pagesWithin size items.length items

theorem List.flatten_pagesWithin {size : Nat} (positive : 0 < size) (fuel : Nat)
    {items : List Item} (enough : items.length ≤ fuel) :
    (List.pagesWithin size fuel items).flatten = items := by
  induction fuel generalizing items with
  | zero => exact (List.eq_nil_of_length_eq_zero (Nat.le_zero.mp enough)).symm
  | succ fuel inductionHypothesis =>
    cases items with
    | nil => rfl
    | cons item rest =>
      have shorter : ((item :: rest).drop size).length ≤ fuel := by
        rw [List.length_drop]
        omega
      rw [List.pagesWithin, List.flatten_cons, inductionHypothesis shorter,
        List.take_append_drop]

/-- The pages have all items, in their order. -/
theorem List.flatten_pages {size : Nat} (positive : 0 < size) (items : List Item) :
    (items.pages size).flatten = items :=
  List.flatten_pagesWithin positive _ (Nat.le_refl _)

theorem List.Forall₂.pagesWithin {Other : Type} {related : Item → Other → Prop} (size fuel : Nat)
    {items : List Item} {others : List Other} (pairs : List.Forall₂ related items others) :
    List.Forall₂ (List.Forall₂ related) (List.pagesWithin size fuel items)
      (List.pagesWithin size fuel others) := by
  induction fuel generalizing items others with
  | zero => exact .nil
  | succ fuel inductionHypothesis =>
    cases pairs with
    | nil => exact .nil
    | cons head tail =>
      have whole := List.Forall₂.cons head tail
      exact .cons (List.forall₂_take size whole)
        (inductionHypothesis (List.forall₂_drop size whole))

/-- Lists that are related in pairs have related pages. -/
theorem List.Forall₂.pages {Other : Type} {related : Item → Other → Prop} (size : Nat)
    {items : List Item} {others : List Other} (pairs : List.Forall₂ related items others) :
    List.Forall₂ (List.Forall₂ related) (items.pages size) (others.pages size) := by
  unfold List.pages
  rw [pairs.length_eq]
  exact pairs.pagesWithin size _

variable {Error Value State : Type} {compute : Item → Except Error Value}
  {add : State → Value → Except Error State}

/-- Add the values of a page, all of which are computed before the first is added. -/
def List.addPage (compute : Item → Except Error Value) (add : State → Value → Except Error State)
    (state : State) (page : List Item) : Except Error State := do
  let values ← page.mapM compute
  values.foldlM add state

/-- Pages whose values can all be computed are added as if they were one list. -/
theorem List.foldlM_addPage_of_computed {pages : List (List Item)} {values : List Value}
    {state : State} (computed : pages.flatten.mapM compute = .ok values) :
    pages.foldlM (List.addPage compute add) state = values.foldlM add state := by
  induction pages generalizing state values with
  | nil =>
    obtain rfl := List.forall₂_nil_left_iff.mp (List.mapM_eq_ok_iff.mp computed)
    rfl
  | cons page rest inductionHypothesis =>
    rw [List.flatten_cons, List.mapM_eq_ok_iff] at computed
    have head := List.forall₂_take page.length computed
    have tail := List.forall₂_drop page.length computed
    rw [List.take_left] at head
    rw [List.drop_left] at tail
    rw [← List.take_append_drop page.length values, List.foldlM_append, List.foldlM_cons,
      List.addPage, List.mapM_eq_ok_iff.mpr head]
    show ((values.take page.length).foldlM add state >>= fun middle =>
      rest.foldlM (List.addPage compute add) middle) = _
    cases (values.take page.length).foldlM add state with
    | error error => rfl
    | ok middle => exact inductionHypothesis (List.mapM_eq_ok_iff.mpr tail)

/-- Adding pages succeeds just when all values are computed and added. -/
theorem List.foldlM_addPage_eq_ok_iff {pages : List (List Item)} {state last : State} :
    pages.foldlM (List.addPage compute add) state = .ok last ↔
      ∃ values, pages.flatten.mapM compute = .ok values ∧ values.foldlM add state = .ok last := by
  constructor
  · intro added
    suffices ∃ values, pages.flatten.mapM compute = .ok values by
      obtain ⟨values, computed⟩ := this
      exact ⟨values, computed, (List.foldlM_addPage_of_computed computed).symm.trans added⟩
    induction pages generalizing state with
    | nil => exact ⟨[], rfl⟩
    | cons page rest inductionHypothesis =>
      rw [List.foldlM_cons, List.addPage] at added
      cases head : page.mapM compute with
      | error error =>
        rw [head] at added
        cases added
      | ok first =>
        rw [head] at added
        cases middle : first.foldlM add state with
        | error error =>
          simp only [bind, Except.bind, middle, reduceCtorEq] at added
        | ok next =>
          simp only [bind, Except.bind, middle] at added
          obtain ⟨later, tail⟩ := inductionHypothesis added
          refine ⟨first ++ later, ?_⟩
          rw [List.flatten_cons, List.mapM_eq_ok_iff]
          exact List.rel_append (List.mapM_eq_ok_iff.mp head) (List.mapM_eq_ok_iff.mp tail)
  · rintro ⟨values, computed, added⟩
    exact (List.foldlM_addPage_of_computed computed).trans added

end Pages
