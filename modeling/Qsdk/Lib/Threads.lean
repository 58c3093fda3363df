/-
**Threads over a shared state, and rely-guarantee reasoning about their runs.**

A `System` says which programs a free thread may start, what the atomic calls do to the shared
state, and what the environment may do by itself. A `Run` is any interleaving of such steps; it
keeps its history, newest step first.

A `Protocol` proves something about every run. It gives every thread a contract and a piece of ghost
state of its own, and an invariant over the history, all ghost states and the shared state. When
each kind of step keeps the invariant and stays within what the other threads rely on (`Valid`),
every reachable configuration satisfies the invariant and every thread's weakest precondition
(`Protocol.Valid.holds`): one induction over runs, shared by all protocols.
-/

import Qsdk.Lib.Prog
import Mathlib.Logic.Function.Basic

namespace Qsdk

/-- What the threads `Tid` may do: calls `Op` on the shared state `S`, in programs that end with a
result in `A` or an error in `Err`. -/
structure System (Tid Op : Type) (Res : Op → Type) (Err A S : Type) where
  init : S → Prop
  /-- The programs that a free thread may start in a state, and the state it leaves. -/
  start : Tid → S → Prog Op Res Err A → S → Prop
  /-- The effect of a call: the state before, the response, the state after. -/
  effect : (op : Op) → S → Res op → S → Prop
  /-- A thread that stops with this error returns; with any other it hangs. -/
  returns : Err → Prop
  /-- What happens without the threads. -/
  env : S → S → Prop

/-- The shared state, and what each thread still has to do. -/
structure Config (Tid Op : Type) (Res : Op → Type) (Err A S : Type) where
  state : S
  running : Tid → Option (Prog Op Res Err A)

/-- Which step was taken. -/
inductive Label (Tid Op : Type) (Res : Op → Type) (Err A : Type) where
  | start (tid : Tid) (program : Prog Op Res Err A)
  | call (tid : Tid) (op : Op) (res : Res op)
  | finish (tid : Tid)
  | env

section

variable {Tid Op : Type} {Res : Op → Type} {Err A S : Type} [DecidableEq Tid]

/-- No thread is running. -/
def Config.Quiescent (config : Config Tid Op Res Err A S) : Prop := ∀ tid, config.running tid = none

namespace System

/-- The runs of a system all of whose states are `live`. -/
def restrict (system : System Tid Op Res Err A S) (live : S → Prop) :
    System Tid Op Res Err A S where
  init := fun state => system.init state ∧ live state
  start := fun tid state program after => system.start tid state program after ∧ live after
  effect := fun op state res after => system.effect op state res after ∧ live after
  returns := system.returns
  env := fun state after => system.env state after ∧ live after

/-- The runs of a system whose calls are all made in states that `fit` them. -/
def guarded (system : System Tid Op Res Err A S) (fit : Op → S → Prop) :
    System Tid Op Res Err A S where
  init := system.init
  start := system.start
  effect := fun op state res after => system.effect op state res after ∧ fit op state
  returns := system.returns
  env := system.env

/-- One step of one thread, or of the environment. -/
inductive Step (system : System Tid Op Res Err A S) :
    Config Tid Op Res Err A S → Label Tid Op Res Err A → Config Tid Op Res Err A S → Prop where
  | start {state after : S} {running : Tid → Option (Prog Op Res Err A)} {tid : Tid}
      {program : Prog Op Res Err A} (free : running tid = none)
      (started : system.start tid state program after) :
      Step system ⟨state, running⟩ (.start tid program)
        ⟨after, Function.update running tid (some program)⟩
  | call {state after : S} {running : Tid → Option (Prog Op Res Err A)} {tid : Tid} {op : Op}
      {next : Res op → Prog Op Res Err A} {res : Res op}
      (atCall : running tid = some (.call op next)) (effect : system.effect op state res after) :
      Step system ⟨state, running⟩ (.call tid op res)
        ⟨after, Function.update running tid (some (next res))⟩
  | done {state : S} {running : Tid → Option (Prog Op Res Err A)} {tid : Tid} {value : A}
      (atDone : running tid = some (.done value)) :
      Step system ⟨state, running⟩ (.finish tid) ⟨state, Function.update running tid none⟩
  | failed {state : S} {running : Tid → Option (Prog Op Res Err A)} {tid : Tid} {error : Err}
      (atStop : running tid = some (.stop error)) (returns : system.returns error) :
      Step system ⟨state, running⟩ (.finish tid) ⟨state, Function.update running tid none⟩
  | env {state after : S} {running : Tid → Option (Prog Op Res Err A)}
      (moved : system.env state after) : Step system ⟨state, running⟩ .env ⟨after, running⟩

/-- A run from an initial state: every step with the state before it, newest first, and the
configuration reached. -/
inductive Run (system : System Tid Op Res Err A S) :
    List (S × Label Tid Op Res Err A) → Config Tid Op Res Err A S → Prop where
  | init {state : S} (initial : system.init state) : Run system [] ⟨state, fun _ => none⟩
  | step {history : List (S × Label Tid Op Res Err A)} {config next : Config Tid Op Res Err A S}
      {label : Label Tid Op Res Err A} (run : Run system history config)
      (step : system.Step config label next) : Run system ((config.state, label) :: history) next

/-- Where every state fits every call, every run is guarded. -/
theorem Run.guarded {system : System Tid Op Res Err A S} {fit : Op → S → Prop}
    {history : List (S × Label Tid Op Res Err A)} {config : Config Tid Op Res Err A S}
    (run : system.Run history config) (fits : ∀ op state, fit op state) :
    (system.guarded fit).Run history config := by
  induction run with
  | init initial => exact .init initial
  | step _ step ih =>
    refine ih.step ?_
    cases step with
    | start free started => exact .start free started
    | call atCall effect => exact .call atCall ⟨effect, fits _ _⟩
    | done atDone => exact .done atDone
    | failed atStop returns => exact .failed atStop returns
    | env moved => exact .env moved

/-- Every state of a restricted run is live. -/
theorem Run.live {system : System Tid Op Res Err A S} {live : S → Prop}
    {history : List (S × Label Tid Op Res Err A)} {config : Config Tid Op Res Err A S}
    (run : (system.restrict live).Run history config) : live config.state := by
  induction run with
  | init initial => exact initial.2
  | step _ step ih =>
    cases step with
    | start _ started => exact started.2
    | call _ effect => exact effect.2
    | done _ => exact ih
    | failed _ _ => exact ih
    | env moved => exact moved.2

end System

/-- A way to prove a fact about every run: contracts, ghost states, an invariant. -/
structure Protocol (system : System Tid Op Res Err A S) (G : Type) where
  contract : Tid → Contract Op Res (G × S)
  inv : List (S × Label Tid Op Res Err A) → (Tid → G) → S → Prop
  /-- What holds while the thread does not run. -/
  idle : Tid → G × S → Prop
  /-- What holds when the thread's program has ended and it is about to return. -/
  ended : Tid → G × S → Prop
  /-- What holds when the thread stops with an error. -/
  bad : Tid → Err → G × S → Prop

namespace Protocol

variable {system : System Tid Op Res Err A S} {G : Type}

/-- What the thread still has to do meets its contract. -/
def ThreadHolds (protocol : Protocol system G) (tid : Tid) (shared : G × S) :
    Option (Prog Op Res Err A) → Prop
  | none => protocol.idle tid shared
  | some program =>
    program.wp (protocol.contract tid) (fun _ => protocol.ended tid) (protocol.bad tid) shared

/-- The invariant holds, and every thread meets its contract. -/
def Holds (protocol : Protocol system G) (history : List (S × Label Tid Op Res Err A))
    (config : Config Tid Op Res Err A S) : Prop :=
  ∃ ghosts, protocol.inv history ghosts config.state ∧
    ∀ tid, protocol.ThreadHolds tid (ghosts tid, config.state) (config.running tid)

/-- What the threads other than `tid` rely on when the state moves. -/
def Unnoticed (protocol : Protocol system G) (tid : Tid) (ghosts : Tid → G) (state after : S) :
    Prop :=
  ∀ other, other ≠ tid →
    (protocol.contract other).rely (ghosts other, state) (ghosts other, after)

/-- Each kind of step keeps the invariant, meets the stepping thread's contract, and stays within
what the others rely on. -/
structure Valid (protocol : Protocol system G) : Prop where
  settled : ∀ {history ghosts state}, protocol.inv history ghosts state → ∀ tid,
    (protocol.contract tid).rely (ghosts tid, state) (ghosts tid, state)
  idle_rely : ∀ {tid shared later}, (protocol.contract tid).rely shared later →
    protocol.idle tid shared → protocol.idle tid later
  ended_of_bad : ∀ {tid error shared}, system.returns error → protocol.bad tid error shared →
    protocol.ended tid shared
  init : ∀ {state}, system.init state → ∃ ghosts, protocol.inv [] ghosts state ∧
    ∀ tid, protocol.idle tid (ghosts tid, state)
  start : ∀ {history ghosts state tid program after}, protocol.inv history ghosts state →
    protocol.idle tid (ghosts tid, state) → system.start tid state program after →
    ∃ ghost, protocol.inv ((state, .start tid program) :: history)
        (Function.update ghosts tid ghost) after ∧
      protocol.ThreadHolds tid (ghost, after) (some program) ∧
      protocol.Unnoticed tid ghosts state after
  call : ∀ {history ghosts state tid op res after}, protocol.inv history ghosts state →
    (protocol.contract tid).pre op (ghosts tid, state) → system.effect op state res after →
    ∃ ghost, protocol.inv ((state, .call tid op res) :: history)
        (Function.update ghosts tid ghost) after ∧
      (protocol.contract tid).post op (ghosts tid, state) res (ghost, after) ∧
      protocol.Unnoticed tid ghosts state after
  finish : ∀ {history ghosts state tid}, protocol.inv history ghosts state →
    protocol.ended tid (ghosts tid, state) →
    ∃ ghost, protocol.inv ((state, .finish tid) :: history) (Function.update ghosts tid ghost)
        state ∧ protocol.idle tid (ghost, state)
  env : ∀ {history ghosts state after}, protocol.inv history ghosts state →
    system.env state after → protocol.inv ((state, .env) :: history) ghosts after ∧
      ∀ tid, (protocol.contract tid).rely (ghosts tid, state) (ghosts tid, after)

namespace Valid

variable {protocol : Protocol system G}

/-- A thread's precondition survives what it relies on. -/
theorem threadHolds_rely (valid : protocol.Valid) {tid : Tid} {shared later : G × S}
    {thread : Option (Prog Op Res Err A)} (holds : protocol.ThreadHolds tid shared thread)
    (interference : (protocol.contract tid).rely shared later) :
    protocol.ThreadHolds tid later thread := by
  cases thread with
  | none => exact valid.idle_rely interference holds
  | some program => exact Prog.wp_rely holds interference

/-- After one thread's step: its own precondition is given, the others' survive. -/
theorem threadHolds_update (valid : protocol.Valid) {tid : Tid} {ghosts : Tid → G} {ghost : G}
    {state after : S} {running : Tid → Option (Prog Op Res Err A)}
    {thread : Option (Prog Op Res Err A)}
    (before : ∀ tid, protocol.ThreadHolds tid (ghosts tid, state) (running tid))
    (own : protocol.ThreadHolds tid (ghost, after) thread)
    (others : protocol.Unnoticed tid ghosts state after) (other : Tid) :
    protocol.ThreadHolds other (Function.update ghosts tid ghost other, after)
      (Function.update running tid thread other) := by
  by_cases same : other = tid
  · subst same
    rw [Function.update_self, Function.update_self]
    exact own
  · rw [Function.update_of_ne same, Function.update_of_ne same]
    exact valid.threadHolds_rely (before other) (others other same)

/-- A thread returns, and nothing moves. -/
theorem holds_finish (valid : protocol.Valid) {history : List (S × Label Tid Op Res Err A)}
    {tid : Tid} {ghosts : Tid → G} {state : S} {running : Tid → Option (Prog Op Res Err A)}
    (inv : protocol.inv history ghosts state)
    (threads : ∀ tid, protocol.ThreadHolds tid (ghosts tid, state) (running tid))
    (ended : protocol.ended tid (ghosts tid, state)) :
    protocol.Holds ((state, .finish tid) :: history)
      ⟨state, Function.update running tid none⟩ := by
  obtain ⟨ghost, inv', idle⟩ := valid.finish inv ended
  exact ⟨_, inv', valid.threadHolds_update threads idle
    fun other _ => valid.settled inv other⟩

/-- **One step** of a valid protocol. -/
theorem holds_step (valid : protocol.Valid) {history : List (S × Label Tid Op Res Err A)}
    {config next : Config Tid Op Res Err A S} {label : Label Tid Op Res Err A}
    (holds : protocol.Holds history config) (step : system.Step config label next) :
    protocol.Holds ((config.state, label) :: history) next := by
  obtain ⟨ghosts, inv, threads⟩ := holds
  cases step with
  | @start state after running tid program free started =>
    have idle : protocol.ThreadHolds tid (ghosts tid, state) (running tid) := threads tid
    rw [free] at idle
    obtain ⟨ghost, inv', own, others⟩ := valid.start inv idle started
    exact ⟨_, inv', valid.threadHolds_update threads own others⟩
  | @call state after running tid op next res atCall effect =>
    have program : protocol.ThreadHolds tid (ghosts tid, state) (running tid) := threads tid
    rw [atCall] at program
    obtain ⟨pre, rest⟩ := program _ (valid.settled inv tid)
    obtain ⟨ghost, inv', post, others⟩ := valid.call inv pre effect
    exact ⟨_, inv', valid.threadHolds_update threads (rest _ _ post) others⟩
  | @done state running tid value atDone =>
    have program : protocol.ThreadHolds tid (ghosts tid, state) (running tid) := threads tid
    rw [atDone] at program
    exact valid.holds_finish inv threads (program _ (valid.settled inv tid))
  | @failed state running tid error atStop returns =>
    have program : protocol.ThreadHolds tid (ghosts tid, state) (running tid) := threads tid
    rw [atStop] at program
    exact valid.holds_finish inv threads
      (valid.ended_of_bad returns (program _ (valid.settled inv tid)))
  | env moved =>
    obtain ⟨inv', rely⟩ := valid.env inv moved
    exact ⟨ghosts, inv', fun tid => valid.threadHolds_rely (threads tid) (rely tid)⟩

/-- **Every run** of a valid protocol keeps the invariant and every thread's precondition. -/
theorem holds (valid : protocol.Valid) {history : List (S × Label Tid Op Res Err A)}
    {config : Config Tid Op Res Err A S} (run : system.Run history config) :
    protocol.Holds history config := by
  induction run with
  | init initial =>
    obtain ⟨ghosts, inv, idle⟩ := valid.init initial
    exact ⟨ghosts, inv, idle⟩
  | step _ step ih => exact valid.holds_step ih step

end Valid

end Protocol

end

end Qsdk
