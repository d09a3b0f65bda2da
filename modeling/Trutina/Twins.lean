/-
This file compares two runs of a machine that are taken under the same conditions
but start in different states. Two programs are twins when step by step their
commands are alike, whatever the conditions, and they end with one outcome in
related states. The runs of twins cannot be told apart by their outcomes, and
their commands are alike in every place. A program is its own twin as long as the
two states answer its commands alike.
-/

import Trutina.Traces

namespace Interaction

variable {Command : Type} {Reply : Command → Type} {Error Result Other Env State : Type}

/-- Two programs in two states whose steps are alike under all permitted conditions. -/
inductive Program.Twins (handler : Handler Command Reply Env State) (permits : Env → Prop)
    (alike : Command → Command → Prop) (related : State → State → Prop) :
    Program Command Reply Error Result → State → Program Command Reply Error Result → State →
      Prop where
  | done (outcome : Except Error Result) {first second : State} (still : related first second) :
      Twins handler permits alike related (.done outcome) first (.done outcome) second
  | ask {left right : Command} {leftNext : Reply left → Program Command Reply Error Result}
      {rightNext : Reply right → Program Command Reply Error Result} {first second : State}
      (same : alike left right)
      (rest : ∀ env, permits env →
        Twins handler permits alike related
          (leftNext (handler left env first).1) (handler left env first).2
          (rightNext (handler right env second).1) (handler right env second).2) :
      Twins handler permits alike related (.ask left leftNext) first (.ask right rightNext) second

namespace Program

variable {handler : Handler Command Reply Env State} {permits : Env → Prop}
  {alike : Command → Command → Prop} {related : State → State → Prop}
  {left right : Program Command Reply Error Result} {first second : State}

/-- The runs of twins have one outcome, end in related states, and ask alike commands. -/
theorem Twins.run (twins : left.Twins handler permits alike related first right second)
    {envs : Nat → Env} (permitted : ∀ step, permits (envs step)) :
    (left.run handler envs first).1 = (right.run handler envs second).1 ∧
      related (left.run handler envs first).2 (right.run handler envs second).2 ∧
      List.Forall₂ alike (left.asked handler envs first) (right.asked handler envs second) := by
  induction twins generalizing envs with
  | done outcome still => exact ⟨rfl, still, .nil⟩
  | ask same _ inductionHypothesis =>
    obtain ⟨outcome, still, commands⟩ := inductionHypothesis (envs 0) (permitted 0)
      (fun step => permitted (step + 1))
    exact ⟨outcome, still, .cons same commands⟩

/-- The rule for sequential composition. -/
theorem Twins.bind {leftNext rightNext : Result → Program Command Reply Error Other}
    (twins : left.Twins handler permits alike related first right second)
    (rest : ∀ result first second, related first second →
      (leftNext result).Twins handler permits alike related first (rightNext result) second) :
    (left >>= leftNext).Twins handler permits alike related first (right >>= rightNext)
      second := by
  induction twins with
  | done outcome still =>
    cases outcome with
    | error error => exact .done _ still
    | ok result => exact rest result _ _ still
  | ask same _ inductionHypothesis => exact .ask same inductionHypothesis

/-- The rule for exception handling. -/
theorem Twins.catching {leftHandler rightHandler : Error → Program Command Reply Error Result}
    (twins : left.Twins handler permits alike related first right second)
    (handles : ∀ error first second, related first second →
      (leftHandler error).Twins handler permits alike related first (rightHandler error) second) :
    (tryCatch left leftHandler).Twins handler permits alike related first
      (tryCatch right rightHandler) second := by
  induction twins with
  | done outcome still =>
    cases outcome with
    | error error => exact handles error _ _ still
    | ok result => exact .done _ still
  | ask same _ inductionHypothesis => exact .ask same inductionHypothesis

/-- A program is its own twin when related states answer its commands alike and stay related. -/
theorem Issues.twins {commands : Command → Prop} (issues : left.Issues commands)
    (reflexive : ∀ command, alike command command)
    (answers : ∀ command env first second, commands command → permits env →
      related first second →
        (handler command env first).1 = (handler command env second).1 ∧
          related (handler command env first).2 (handler command env second).2)
    (start : related first second) :
    left.Twins handler permits alike related first left second := by
  induction left generalizing first second with
  | done outcome => exact .done outcome start
  | ask command next inductionHypothesis =>
    obtain ⟨own, others⟩ := Program.issues_ask_iff.mp issues
    refine .ask (reflexive command) fun env permitted => ?_
    obtain ⟨same, still⟩ := answers command env first second own permitted start
    rw [same]
    exact inductionHypothesis _ (others _) still

end Program

end Interaction
