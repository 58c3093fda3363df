/-
**Round robin by quotas.**

A wheel holds the takers in the order of their turns, each with its quota, and how much is left of
the first one's turn. A step serves the first taker; at the end of its turn it goes to the back, and
the next one gets its whole quota. From the beginning of a turn a full round serves every taker
exactly its quota, and the wheel is as it was (`round_spec`). Whatever simulates the steps of a
wheel does the same (`runs_eq`).
-/

import Mathlib.Data.List.Basic
import Mathlib.Algebra.Group.Nat.Defs
import Mathlib.Algebra.GroupWithZero.Nat
import Mathlib.Algebra.BigOperators.Group.List.Basic

namespace Qsdk.RoundRobin

variable {α : Type}

/-- The takers in the order of their turns, and what is left of the first turn. -/
structure Wheel (α : Type) where
  turns : List (α × Nat)
  left : Nat

/-- What the first taker gets. -/
def firstQuota : List (α × Nat) → Nat
  | [] => 0
  | turn :: _ => turn.2

/-- The beginning of the first turn. -/
def atTurn (turns : List (α × Nat)) : Wheel α := ⟨turns, firstQuota turns⟩

namespace Wheel

/-- Serve the first taker once. -/
def step (wheel : Wheel α) : Wheel α :=
  match wheel.turns with
  | [] => wheel
  | turn :: turns => if wheel.left ≤ 1 then atTurn (turns ++ [turn]) else
    { wheel with left := wheel.left - 1 }

/-- Who is served. -/
def serves (wheel : Wheel α) : Option α := wheel.turns.head?.map Prod.fst

/-- So many steps, and who is served in them. -/
def runs : Nat → Wheel α → List (Option α) × Wheel α
  | 0, wheel => ([], wheel)
  | n + 1, wheel => (wheel.serves :: (runs n wheel.step).1, (runs n wheel.step).2)

theorem runs_add (n m : Nat) (wheel : Wheel α) :
    runs (n + m) wheel = ((runs n wheel).1 ++ (runs m (runs n wheel).2).1,
        (runs m (runs n wheel).2).2) := by
  induction n generalizing wheel with
  | zero => rw [Nat.zero_add]; rfl
  | succ n ih =>
    rw [Nat.succ_add, runs, ih]
    rfl

end Wheel

/-- Who is served in the turns of these takers. -/
def served (turns : List (α × Nat)) : List (Option α) := turns.flatMap fun turn =>
    List.replicate turn.2 (some turn.1)

/-- The steps of a round. -/
def total (turns : List (α × Nat)) : Nat := (turns.map Prod.snd).sum

variable {turn : α × Nat} {turns front back : List (α × Nat)} {left : Nat}

/-- **A turn** serves its taker as often as is left of it. -/
theorem turn_spec (positive : 0 < left) :
    Wheel.runs left ⟨turn :: turns, left⟩ =
        (List.replicate left (some turn.1), atTurn (turns ++ [turn])) := by
  induction left with
  | zero => cases positive
  | succ left ih =>
    rw [Wheel.runs, List.replicate_succ]
    rcases Nat.eq_zero_or_pos left with rfl | more
    · rfl
    · have stays : Wheel.step ⟨turn :: turns, left + 1⟩ = ⟨turn :: turns, left⟩ :=
        if_neg (show ¬ left + 1 ≤ 1 by omega)
      rw [stays, ih more]
      rfl

/-- The turns of some takers, one after the other. -/
theorem turns_spec (positive : ∀ turn ∈ front, 0 < turn.2) :
    Wheel.runs (total front) (atTurn (front ++ back)) = (served front, atTurn (back ++ front)) := by
  induction front generalizing back with
  | nil => rw [List.append_nil]; rfl
  | cons turn front ih =>
    have first : total (turn :: front) = turn.2 + total front := List.sum_cons
    have one : Wheel.runs turn.2 (atTurn (turn :: front ++ back)) =
        (List.replicate turn.2 (some turn.1), atTurn (front ++ (back ++ [turn]))) := by
      rw [← List.append_assoc]
      exact turn_spec (positive turn List.mem_cons_self)
    rw [first, Wheel.runs_add, one, ih fun other member =>
      positive other (List.mem_cons_of_mem _ member),
      List.append_assoc]
    rfl

/-- **A full round** serves every taker its quota, and ends where it has begun. -/
theorem round_spec (positive : ∀ turn ∈ turns, 0 < turn.2) :
    Wheel.runs (total turns) (atTurn turns) = (served turns, atTurn turns) := by
  have whole := @turns_spec α turns [] positive
  rwa [List.append_nil] at whole

/-- How often somebody is served in a round, under the names that the takers have. -/
theorem count_served {β : Type} [BEq β] [LawfulBEq β] (name : Option α → β) (someone : β) :
    ((served turns).map name).count someone =
      ((turns.filter fun turn => name (some turn.1) == someone).map Prod.snd).sum := by
  induction turns with
  | nil => rfl
  | cons turn turns ih =>
    have first : served (turn :: turns) = List.replicate turn.2 (some turn.1) ++ served turns :=
      List.flatMap_cons
    rw [first, List.map_append, List.count_append, ih, List.map_replicate, List.count_replicate,
      List.filter_cons]
    cases name (some turn.1) == someone with
    | true => rw [if_pos rfl, if_pos rfl, List.map_cons, List.sum_cons]
    | false => rw [if_neg Bool.false_ne_true, if_neg Bool.false_ne_true, Nat.zero_add]

/-! ### Simulation -/

/-- A program that takes an input and serves somebody in each step. -/
def serving {State Input β : Type} (step : Input → State → State) (serves : Input → State → β) :
    List Input → State → List β × State
  | [], state => ([], state)
  | input :: inputs, state =>
    (serves input state :: (serving step serves inputs (step input state)).1,
      (serving step serves inputs (step input state)).2)

/-- **What follows a wheel serves as the wheel does**, whatever its inputs, under the names that the
takers have. -/
theorem runs_eq {State Input β : Type} {step : Input → State → State} {serves : Input → State → β}
    {name : Option α → β} {follows : State → Wheel α → Prop}
    (same : ∀ input state wheel, follows state wheel → serves input state = name wheel.serves)
    (steps : ∀ input state wheel, follows state wheel → follows (step input state) wheel.step)
    {state : State} {wheel : Wheel α} (following : follows state wheel) (inputs : List Input) :
    (serving step serves inputs state).1 = (wheel.runs inputs.length).1.map name ∧
      follows (serving step serves inputs state).2 (wheel.runs inputs.length).2 := by
  induction inputs generalizing state wheel with
  | nil => exact ⟨rfl, following⟩
  | cons input inputs ih =>
    obtain ⟨equal, behind⟩ := ih (steps input state wheel following)
    refine ⟨?_, behind⟩
    show serves input state :: _ = name wheel.serves :: _
    rw [same input state wheel following, equal]

end Qsdk.RoundRobin
