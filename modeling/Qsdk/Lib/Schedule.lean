/-
**Runs that can be computed.**

A `Strategy` answers every call in one of the ways the system allows, or refuses. With a strategy
a thread's next steps are a function (`Config.advances`), and what it computes is reached by a run
(`Config.advances_reachable`).
-/

import Qsdk.Lib.Threads

namespace Qsdk

variable {Tid Op : Type} {Res : Op → Type} {Err A S : Type} [DecidableEq Tid]

/-- One allowed answer to each call, and which errors return. -/
structure Strategy (system : System Tid Op Res Err A S) where
  answer : (op : Op) → S → Option (Res op × S)
  returns : Err → Bool
  allowed : ∀ {op state res after}, answer op state = some (res, after) →
    system.effect op state res after
  returns_ok : ∀ {error}, returns error = true → system.returns error

/-- A strategy that refuses the answers that lead out of the live states. -/
def Strategy.restrict {system : System Tid Op Res Err A S} (strategy : Strategy system)
    (live : S → Prop) (check : S → Bool) (sound : ∀ {state}, check state = true → live state) :
    Strategy (system.restrict live) where
  answer := fun op state => (strategy.answer op state).filter fun answer => check answer.2
  returns := strategy.returns
  allowed := fun answer => by
    obtain ⟨isAnswer, checked⟩ := Option.filter_eq_some_iff.mp answer
    exact ⟨strategy.allowed isAnswer, sound checked⟩
  returns_ok := strategy.returns_ok

/-- A strategy that refuses to answer calls in states that do not fit them. -/
def Strategy.guarded {system : System Tid Op Res Err A S} (strategy : Strategy system)
    (fit : Op → S → Prop) [∀ op state, Decidable (fit op state)] :
    Strategy (system.guarded fit) where
  answer := fun op state => if fit op state then strategy.answer op state else none
  returns := strategy.returns
  allowed := fun {op state res after} answer => by
    by_cases fits : fit op state
    · rw [if_pos fits] at answer
      exact ⟨strategy.allowed answer, fits⟩
    · rw [if_neg fits] at answer
      exact absurd answer (by simp)
  returns_ok := strategy.returns_ok

namespace System

/-- Some run reaches the configuration. -/
def Reachable (system : System Tid Op Res Err A S) (config : Config Tid Op Res Err A S) : Prop :=
  ∃ history, system.Run history config

variable {system : System Tid Op Res Err A S}

theorem Reachable.step {config next : Config Tid Op Res Err A S} {label : Label Tid Op Res Err A}
    (reachable : system.Reachable config) (step : system.Step config label next) :
    system.Reachable next := by
  obtain ⟨history, run⟩ := reachable
  exact ⟨_, run.step step⟩

end System

namespace Config

variable {system : System Tid Op Res Err A S}

/-- The next step of a thread. A refused call is not made. -/
def advance (strategy : Strategy system) (tid : Tid) (config : Config Tid Op Res Err A S) :
    Config Tid Op Res Err A S :=
  match config.running tid with
  | none => config
  | some (.done _) => ⟨config.state, Function.update config.running tid none⟩
  | some (.stop error) =>
    if strategy.returns error then ⟨config.state, Function.update config.running tid none⟩
    else config
  | some (.call op next) =>
    match strategy.answer op config.state with
    | none => config
    | some (res, after) => ⟨after, Function.update config.running tid (some (next res))⟩

/-- A number of steps of a thread. -/
def advances (strategy : Strategy system) (tid : Tid) :
    Nat → Config Tid Op Res Err A S → Config Tid Op Res Err A S
  | 0, config => config
  | steps + 1, config => advances strategy tid steps (config.advance strategy tid)

theorem advance_reachable (strategy : Strategy system) (tid : Tid)
    {config : Config Tid Op Res Err A S} (reachable : system.Reachable config) :
    system.Reachable (config.advance strategy tid) := by
  obtain ⟨state, running⟩ := config
  unfold advance
  dsimp only
  cases isRunning : running tid with
  | none => exact reachable
  | some program =>
    cases program with
    | done value => exact reachable.step (.done isRunning)
    | stop error =>
      dsimp only
      split
      · rename_i returns
        exact reachable.step (.failed isRunning (strategy.returns_ok returns))
      · exact reachable
    | call op next =>
      dsimp only
      split
      · exact reachable
      · rename_i res after answer
        exact reachable.step (.call isRunning (strategy.allowed answer))

/-- **What a thread computes is reached by a run.** -/
theorem advances_reachable (strategy : Strategy system) (tid : Tid) (steps : Nat)
    {config : Config Tid Op Res Err A S} (reachable : system.Reachable config) :
    system.Reachable (config.advances strategy tid steps) := by
  induction steps generalizing config with
  | zero => exact reachable
  | succ steps ih => exact ih (advance_reachable strategy tid reachable)

/-- A thread starts a program. -/
def begin (tid : Tid) (program : Prog Op Res Err A) (after : S)
    (config : Config Tid Op Res Err A S) : Config Tid Op Res Err A S :=
  ⟨after, Function.update config.running tid (some program)⟩

theorem begin_reachable {tid : Tid} {program : Prog Op Res Err A} {after : S}
    {config : Config Tid Op Res Err A S} (reachable : system.Reachable config)
    (free : config.running tid = none) (started : system.start tid config.state program after) :
    system.Reachable (config.begin tid program after) :=
  reachable.step (.start free started)

/-- The environment moves the shared state, if it can. -/
def tick (move : S → Option S) (config : Config Tid Op Res Err A S) : Config Tid Op Res Err A S :=
  match move config.state with
  | none => config
  | some after => ⟨after, config.running⟩

theorem tick_reachable {move : S → Option S} {config : Config Tid Op Res Err A S}
    (reachable : system.Reachable config)
    (allowed : ∀ {state after}, move state = some after → system.env state after) :
    system.Reachable (config.tick move) := by
  unfold tick
  split
  · exact reachable
  · rename_i after moved
    exact reachable.step (.env (allowed moved))

end Config

end Qsdk
