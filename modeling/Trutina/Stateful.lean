/-
This file is a small library about computations that change a state and can fail.
What they have changed before they fail stays changed. What is stated of a
computation from a state is what holds when it returns and what holds when it
fails, and there is a rule for each way of building computations. A run makes
one step after another, whether they fail or not, and keeps what its steps keep.
-/

import Mathlib.Logic.Function.Basic

namespace Stateful

/-! ### Computations -/

/-- A computation that keeps its changes when it fails. -/
def Computation (State Error Result : Type) : Type := State → Except Error Result × State

variable {State Error Result Other : Type}

instance : Monad (Computation State Error) where
  pure result := fun state => (.ok result, state)
  bind computation next := fun state =>
    match computation state with
    | (.ok result, after) => next result after
    | (.error error, after) => (.error error, after)

namespace Computation

def read : Computation State Error State := fun state => (.ok state, state)

def change (update : State → State) : Computation State Error Unit :=
  fun state => (.ok (), update state)

def raise (error : Error) : Computation State Error Result := fun state => (.error error, state)

def ofExcept (outcome : Except Error Result) : Computation State Error Result :=
  fun state => (outcome, state)

/-- Run the second computation after the first, however that ends. Its own failure replaces what
the first has come to. -/
def andFinally (computation : Computation State Error Result)
    (finalizer : Computation State Error Unit) : Computation State Error Result := fun state =>
  match computation state with
  | (outcome, after) =>
    match finalizer after with
    | (.ok _, last) => (outcome, last)
    | (.error error, last) => (.error error, last)

end Computation

/-! ### Outcomes -/

/-- What holds of an outcome and the state with it. -/
def Holds (returned : Result → State → Prop) (failed : Error → State → Prop) :
    Except Error Result × State → Prop
  | (.ok result, state) => returned result state
  | (.error error, state) => failed error state

section Rules

variable {computation : Computation State Error Result} {state : State}
  {returned : Result → State → Prop} {failed : Error → State → Prop}

/-- The rule of consequence. -/
theorem Holds.weaken {returned' : Result → State → Prop} {failed' : Error → State → Prop}
    (holds : Holds returned failed (computation state))
    (last : ∀ result after, returned result after → returned' result after)
    (fails : ∀ error after, failed error after → failed' error after) :
    Holds returned' failed' (computation state) := by
  revert holds
  cases computation state with
  | mk outcome after =>
    cases outcome with
    | ok result => exact last result after
    | error error => exact fails error after

/-- A statement that is the same for both outcomes is one about the state. -/
theorem holds_state_iff {after : State → Prop} :
    Holds (fun (_ : Result) state => after state) (fun _ state => after state)
      (computation state) ↔ after (computation state).2 := by
  cases computation state with
  | mk outcome after => cases outcome <;> exact Iff.rfl

theorem bind_eq (next : Result → Computation State Error Other) :
    (computation >>= next) state =
      match computation state with
      | (.ok result, after) => next result after
      | (.error error, after) => (.error error, after) := rfl

theorem read_bind (next : State → Computation State Error Other) (state : State) :
    (Computation.read >>= next) state = next state state := rfl

/-- Whatever a computation comes to, the state is what its finalizer leaves. -/
theorem andFinally_state (finalizer : Computation State Error Unit) :
    (computation.andFinally finalizer state).2 = (finalizer (computation state).2).2 := by
  rw [Computation.andFinally]
  cases computation state with
  | mk outcome after =>
    simp only
    cases finalizer after with
    | mk cleaned last => cases cleaned <;> rfl

end Rules

/-! ### Steps that extend the state -/

section Extending

variable (invariant : State → Prop) (order : State → State → Prop)

/-- From a state with the precondition, the computation keeps the invariant and goes up in the
order, whether it fails or not, and has the postcondition when it returns. -/
def Extends (before : State → Prop) (computation : Computation State Error Result)
    (after : Result → State → Prop) : Prop :=
  ∀ state, invariant state → before state →
    Holds (fun result reached => invariant reached ∧ order state reached ∧ after result reached)
      (fun _ reached => invariant reached ∧ order state reached) (computation state)

variable {invariant order} {before : State → Prop} {after : Result → State → Prop}
  {computation : Computation State Error Result}

theorem Extends.pure (reflexive : ∀ state, order state state) {result : Result}
    (given : ∀ state, invariant state → before state → after result state) :
    Extends invariant order before (pure result : Computation State Error Result) after :=
  fun state holds ready => ⟨holds, reflexive state, given state holds ready⟩

/-- The rule for sequential composition. -/
theorem Extends.bind (transitive : ∀ first second third, order first second →
    order second third → order first third) {next : Result → Computation State Error Other}
    {last : Other → State → Prop} (first : Extends invariant order before computation after)
    (second : ∀ result, Extends invariant order (after result) (next result) last) :
    Extends invariant order before (computation >>= next) last := by
  intro state holds ready
  show Holds _ _ (match computation state with
    | (.ok result, reached) => next result reached
    | (.error error, reached) => (.error error, reached))
  have one := first state holds ready
  revert one
  cases computation state with
  | mk outcome reached =>
    cases outcome with
    | error error => exact id
    | ok result =>
      intro ⟨kept, up, reachedAfter⟩
      exact (second result reached kept reachedAfter).weaken
        (fun _ _ ⟨inv, further, post⟩ => ⟨inv, transitive _ _ _ up further, post⟩)
        (fun _ _ ⟨inv, further⟩ => ⟨inv, transitive _ _ _ up further⟩)

/-- The rule of consequence. -/
theorem Extends.weaken {before' : State → Prop} {after' : Result → State → Prop}
    (extends' : Extends invariant order before computation after)
    (ready : ∀ state, invariant state → before' state → before state)
    (post : ∀ result state, after result state → after' result state) :
    Extends invariant order before' computation after' :=
  fun state holds given => (extends' state holds (ready state holds given)).weaken
    (fun result reached ⟨inv, up, reachedAfter⟩ => ⟨inv, up, post result reached reachedAfter⟩)
    (fun _ _ => id)

/-- What is stable under the order is carried past a computation. -/
theorem Extends.frame {stable : State → Prop}
    (carried : ∀ first second, order first second → stable first → stable second)
    (extends' : Extends invariant order before computation after) :
    Extends invariant order (fun state => before state ∧ stable state) computation
      (fun result state => after result state ∧ stable state) :=
  fun state holds ready => (extends' state holds ready.1).weaken
    (fun _ reached ⟨inv, up, post⟩ => ⟨inv, up, post, carried state reached up ready.2⟩)
    (fun _ _ => id)

/-- A computation that begins by reading the state is one for each state it may find. -/
theorem Extends.read {next : State → Computation State Error Result}
    (each : ∀ found, Extends invariant order (fun state => before state ∧ state = found)
      (next found) after) :
    Extends invariant order before (Computation.read >>= next) after :=
  fun state holds ready => each state state holds ⟨ready, rfl⟩

end Extending

/-! ### Runs -/

/-- One step after another. A step that fails does not keep the next from being made. -/
def runAll (steps : List (Computation State Error Unit)) (state : State) : State :=
  steps.foldl (fun reached step => (step reached).2) state

/-- A run keeps what all of its steps keep. -/
theorem runAll_keeps {invariant : State → Prop} {steps : List (Computation State Error Unit)}
    (keeps : ∀ step ∈ steps, ∀ state, invariant state → invariant (step state).2) {state : State}
    (holds : invariant state) : invariant (runAll steps state) := by
  induction steps generalizing state with
  | nil => exact holds
  | cons step rest inductionHypothesis =>
    exact inductionHypothesis (fun other member => keeps other (List.mem_cons_of_mem _ member))
      (keeps step List.mem_cons_self state holds)

end Stateful
