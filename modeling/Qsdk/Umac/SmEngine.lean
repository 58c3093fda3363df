/-
**The state-machine engine.**

`wlan_sm_create` checks a table of states, `wlan_sm_dispatch` gives an event to the current state,
and `wlan_sm_transition_to` leaves one state for another: it calls the exit routines from the
current state up, and the entry routines from the new state down its initial substates.
`in_state_transition` keeps entry and exit routines from asking for a transition of their own.

The routines are code of the machine's owner. Here whoever is running may ask for a transition,
dispatch an event or return, as often and in any order, so the calls in progress are kept in a stack
of frames. `step` has no result where the code would read beyond the table.
-/

import Mathlib.Algebra.Group.Nat.Defs
import Mathlib.Data.List.Basic

namespace Qsdk.SmEngine

/-- `WLAN_SM_ENGINE_STATE_NONE`. -/
def stateNone : Nat := 255

/-- `WLAN_SM_ENGINE_EVENT_NONE`. -/
def eventNone : Nat := 255

/-- `WLAN_SM_ENGINE_MAX_STATES`. -/
def maxStates : Nat := 200

/-- `struct wlan_sm_state_info`: which of the two optional routines there are, and what is read of
the hierarchy. -/
structure StateInfo where
  state : Nat
  parentState : Nat
  initialSubstate : Nat
  hasSubstates : Bool
  smEntry : Bool
  smExit : Bool
deriving DecidableEq

abbrev Table := List StateInfo

/-- `struct wlan_sm`, without the names and the trace. -/
structure Sm where
  curState : Nat
  stateInfo : Table
  lastEvent : Nat
  inStateTransition : Bool
deriving DecidableEq

/-! ### Creation -/

/-- The loop of `wlan_sm_validate_state_info` over the parents. Each round marks another of the
`maxStates` entries of `state_visited`. -/
def checkParents (table : Table) : Nat → List Nat → Nat → Bool
  | 0, _, _ => false
  | rounds + 1, visited, state =>
    if state = stateNone then true
    else if state ∈ visited then false
    else match table[state]? with
      | none => false
      | some info =>
        if info.parentState = stateNone then true
        else match table[info.parentState]? with
          | none => false
          | some parent =>
            if parent.hasSubstates then checkParents table rounds
              (state :: visited) info.parentState else false

/-- `wlan_sm_validate_state_info`. -/
def validateStateInfo (table : Table) (i : Nat) : Bool :=
  match table[i]? with
  | none => false
  | some info =>
    if info.state ≥ maxStates ∨ info.state ≠ i then false
    else checkParents table (maxStates + 1) [] info.state

/-- `wlan_sm_create`. -/
def create (initState : Nat) (table : Table) : Option Sm :=
  if table.length > maxStates then none
  else if (List.range table.length).all (validateStateInfo table) then
    some ⟨initState, table, eventNone, false⟩
  else none

/-! ### Calls -/

/-- A call in progress. -/
inductive Frame
  /-- An entry or exit routine. -/
  | routine
  /-- An event handler. -/
  | handler
  /-- `wlan_sm_transition_to(state)` in the loop over the exit routines, at `curState`. -/
  | exiting (curState state : Nat)
  /-- In the loop over the entry routines, at `curState`. -/
  | entering (curState state : Nat)
  /-- In that loop, behind the entry routine. -/
  | entered (curState state : Nat)
deriving DecidableEq

/-- A transition is in progress in this call. -/
def Frame.isTransition : Frame → Bool
  | .routine | .handler => false
  | .exiting _ _ | .entering _ _ | .entered _ _ => true

/-- What `wlan_sm_dispatch` returns. -/
inductive Status
  | success
  | invalid
  | failure
deriving DecidableEq

/-- The machine, the calls in progress, and what the last `wlan_sm_dispatch` that ended has
returned. -/
structure World where
  sm : Sm
  stack : List Frame
  status : Status
deriving DecidableEq

def World.start (sm : Sm) : World := ⟨sm, [], .success⟩

/-- The owner's code is running. -/
def World.callable (world : World) : Bool :=
  match world.stack with
  | [] => true
  | frame :: _ => !frame.isTransition

/-- The state may be the target of a transition. -/
def Sm.valid (sm : Sm) (state : Nat) : Bool :=
  !(state == stateNone || decide (state ≥ maxStates) || decide (state ≥ sm.stateInfo.length))

/-- The state whose name is printed for a state: its parent, if it has one. -/
def Sm.shown (sm : Sm) (info : StateInfo) : Option StateInfo :=
  if info.parentState = stateNone then some info else sm.stateInfo[info.parentState]?

/-- `wlan_sm_transition_to`, up to the loop over the exit routines. -/
def World.transitionTo (world : World) (state : Nat) : Option World :=
  if world.sm.inStateTransition then some world
  else
    let sm := { world.sm with inStateTransition := true }
    if sm.valid state then do
      let old ← sm.stateInfo[sm.curState]?
      let new ← sm.stateInfo[state]?
      let _ ← sm.shown old
      let _ ← sm.shown new
      some { world with sm := sm, stack := .exiting sm.curState state :: world.stack }
    else some { world with sm := sm }

/-- `wlan_sm_dispatch`, up to the event handler. -/
def World.dispatch (world : World) (event : Nat) : Option World :=
  if event = eventNone then some { world with status := .failure }
  else
    let sm := { world.sm with lastEvent := event % 2 ^ 8 }
    if sm.curState = stateNone then some { world with sm := sm, status := .success }
    else do
      let _ ← sm.stateInfo[sm.curState]?
      some { world with sm := sm, stack := .handler :: world.stack }

/-- The initial substate of a state, whose name is printed if there is one. -/
def Sm.substate (sm : Sm) (info : StateInfo) : Option Nat :=
  if info.initialSubstate = stateNone then some stateNone
  else sm.stateInfo[info.initialSubstate]?.map fun _ => info.initialSubstate

/-- The transition in progress goes on to its next routine. -/
def World.resume (world : World) : Option World :=
  match world.stack with
  | .exiting curState state :: rest =>
    if curState = stateNone then some { world with stack := .entering state state :: rest }
    else do
      let info ← world.sm.stateInfo[curState]?
      let next := .exiting info.parentState state :: rest
      some { world with stack := if info.smExit then .routine :: next else next }
  | .entering curState state :: rest =>
    if curState = stateNone then
      some { world with sm := { world.sm with inStateTransition := false }, stack := rest }
    else do
      let info ← world.sm.stateInfo[curState]?
      let next := .entered curState state :: rest
      some { world with stack := if info.smEntry then .routine :: next else next }
  | .entered curState state :: rest => do
      let info ← world.sm.stateInfo[curState]?
      let next ← world.sm.substate info
      some { world with
        sm := { world.sm with curState := curState }
        stack := .entering next state :: rest }
  | _ => none

/-- What may happen next. -/
inductive Act
  /-- The owner's code calls `wlan_sm_transition_to`. -/
  | transitionTo (state : Nat)
  /-- The owner's code calls `wlan_sm_dispatch`. -/
  | dispatch (event : Nat)
  /-- A routine or an event handler returns; a handler says whether it has handled the event. -/
  | ret (handled : Bool)
  /-- The transition goes on. -/
  | resume
deriving DecidableEq

/-- The routine or event handler that is running returns. -/
def World.ret (world : World) (handled : Bool) : Option World :=
  match world.stack with
  | .routine :: rest => some { world with stack := rest }
  | .handler :: rest => some
    { world with stack := rest, status := if handled then .success else .invalid }
  | _ => none

def World.step (world : World) : Act → Option World
  | .transitionTo state => if world.callable then world.transitionTo state else none
  | .dispatch event => if world.callable then world.dispatch event else none
  | .ret handled => world.ret handled
  | .resume => world.resume

def World.run (world : World) : List Act → Option World
  | [] => some world
  | act :: acts => do
    let next ← world.step act
    next.run acts

/-- A transition is in progress. -/
def World.inTransition (world : World) : Bool := world.stack.any Frame.isTransition

/-- The machine does not carry the request out. -/
def World.rejects (world : World) (state : Nat) : Bool :=
  world.sm.inStateTransition || !world.sm.valid state

end Qsdk.SmEngine
